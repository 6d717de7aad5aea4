import Dagnats.Interaction.Script
import Dagnats.Engine.RunPhases

/-!
# The markers of owned runs

Every program over the run store keeps the markers of the owned runs, call by
call. So does any number of programs together, wherever they are interrupted,
as long as the writes are `Careful`.
-/

namespace Dagnats.RunIndex

open Interaction

variable {edits : List Edit} {ending : Option Ending} {chain : Bool} {ids : List String}
    {x : String × Option WorkflowRun} {pageMax removed : ℕ}

section Programs

variable {g : Phase} {s : RunStore} {run : WorkflowRun} {id : String} {releases : Bool}
  {G : Multiset Phase} {status : RunStatus} {t : RunStore} {new : WorkflowRun}

lemma polite_createEntryIndexes (h : Entered run s) : Sits (createEntryIndexes run) g s := by
  unfold createEntryIndexes
  split
  · refine Keeps.bind (K := fun _ t => t.Safe run.runID) ?_ ?_
    · refine Keeps.bind polite_createActive fun _ t hst hsafe => ?_
      exact polite_pure fun u htu => ⟨rfl, fun _ _ => htu.safe (hsafe h.1)⟩
    · intro _ t _ hsafe
      exact Keeps.ignoring (polite_createIndex fun _ => hsafe)
  · next hrun =>
    exact Keeps.ignoring (polite_createIndex fun _ => h.2 (Bool.eq_false_iff.mpr hrun))

/-- A new run that owes nothing may be written where nothing is stored. -/
lemma fair_fresh (hrun : run.releasePending = false) (hphased : Phased t (g ::ₘ G))
    (hnone : t.value run.runID = none) (hindex : run.runID ∉ t.index) :
    t.Fair run ∧ Phased (t.write run) (g ::ₘ G) := by
  have hfin : t.finished run.runID = false := by rw [RunStore.finished, hnone]; rfl
  refine ⟨⟨fun hpend => ?_, fun _ => .inl ⟨hnone, hindex⟩⟩, hphased.write fun hmem => ?_⟩
  · rw [hrun] at hpend
    exact absurd hpend Bool.false_ne_true
  · exact absurd hmem (hphased.free hfin)

lemma polite_advance (hcopy : Copy run s) (e : Edit) :
    Polite concert (Then .idle fun run t => Copy run t) (save .advance (e.apply run)) .idle s := by
  have hsave : Polite concert (Saved (e.apply run) .idle .idle) (save .advance (e.apply run))
      .idle s := by
    refine polite_save hcopy (by rfl) (by rfl) ?_
    intro t G rev stored hintact hphased hcareful hvalue hagrees
    have hstays : stored.status.isTerminal = true → e.status.isTerminal = true := by
      intro hterm
      apply hcareful
      change (t.value run.runID).any _ = true
      rw [hvalue]
      exact hterm
    refine ⟨⟨fun hpend => ?_, fun howned => .inr (.inl ?_)⟩, hphased.write fun hmem => ?_⟩
    · obtain ⟨hterm, hdone⟩ :=
        hintact.settled hvalue (hagrees.releasePending.trans hpend)
      exact ⟨hstays hterm, hagrees.completedAt ▸ hdone⟩
    · have hpend := isReconcilerOwned_iff.mp howned
      rw [show (e.apply run).runID = run.runID from rfl, RunStore.owned_of_value hvalue]
      refine isReconcilerOwned_iff.mpr fun hterm => ?_
      rw [hagrees.releasePending]
      exact hpend (hstays hterm)
    · obtain ⟨hterm, hdone, hpend⟩ :=
        finished_iff.mp ((RunStore.finished_of_value hvalue).symm.trans
          (hphased.finished_of_mem hmem))
      exact finished_iff.mpr ⟨hstays hterm, hagrees.completedAt ▸ hdone,
        hagrees.releasePending ▸ hpend⟩
  refine hsave.conseq fun r g t hsaved saved hr => ?_
  obtain ⟨hg, hcopy', -⟩ := hsaved.1 saved hr
  exact ⟨hg, hcopy'⟩

lemma polite_proceed_edits (hcopy : Copy run s) :
    Polite concert (Then .idle fun run t => Copy run t)
      (Prog.fold (fun run e => save .advance (e.apply run)) edits run) .idle s := by
  apply Polite.fold
  · intro t hst run' hrun'
    cases hrun'
    exact ⟨rfl, hcopy.mono hst⟩
  · intro e _ run' g t hrun'
    obtain ⟨rfl, hcopy'⟩ := hrun' run' rfl
    exact polite_advance hcopy' e

lemma polite_deleteActiveEntry {site : DeleteSite}
    (hid : ∀ t G, Phased t (g ::ₘ G) → t.finished id = true) :
    Sits (deleteActiveEntry id site) g s :=
  Keeps.ignoring (polite_deleteActive fun t G hphased _ =>
    RunStore.not_owned_of_finished (hid t G hphased))

lemma polite_saveReleaseDebt (n : ℕ) (hcopy : Copy run s) (hid : run.runID = id) :
    Plays (saveReleaseDebt n run) (.closing id) s := by
  induction n generalizing run s with
  | zero => exact fun _ _ => trivial
  | succ n ih =>
    have hsave : Polite concert (Saved { run with releasePending := true } (.closing id) .idle)
        (save .debt { run with releasePending := true }) (.closing id) s := by
      refine polite_save hcopy (by rfl) (by rfl) ?_
      intro t G rev stored hintact hphased hcareful hvalue hagrees
      subst hid
      obtain ⟨hfin, halone⟩ := hphased.alone
      obtain ⟨hterm, hdone, -⟩ :=
        finished_iff.mp ((RunStore.finished_of_value hvalue).symm.trans hfin)
      refine ⟨⟨fun _ => ⟨hagrees.status ▸ hterm, hagrees.completedAt ▸ hdone⟩,
        fun _ => .inr (.inr hcareful)⟩, (hphased.drop.write fun hmem => ?_).idle⟩
      exact absurd hmem halone
    -- A conflict leaves the program at its run, so it may try again.
    have htried : Polite concert (fun r g _ => r = .ok (.error .conflict) → g = .closing id)
        (outcome (save .debt { run with releasePending := true })) (.closing id) s := by
      refine hsave.attempt (fun a g t _ h => nomatch h) fun e g t hsaved => ?_
      refine ⟨fun he => hsaved.2 ?_, fun h => nomatch h⟩
      cases he
      rfl
    refine htried.bind ?_ fun _ _ _ _ => trivial
    intro r g t hr
    cases r with
    | ok saved => exact fun _ _ => trivial
    | error e =>
      cases e with
      | conflict =>
        cases hr rfl
        refine Plays.after polite_load ?_
        rintro fresh u - ⟨hfresh, hname⟩
        split
        · exact fun _ _ => trivial
        · exact ih hfresh (hname.trans hid)
      | _ => exact fun _ _ => trivial

lemma polite_finalizeWithReleaseDebt (hcopy : Copy run s) :
    Plays (finalizeWithReleaseDebt run) (.closing run.runID) s := by
  refine Polite.bind (polite_saveReleaseDebt _ hcopy rfl) ?_ fun _ _ _ _ => trivial
  intro saved g t _
  refine Plays.after polite_createActive ?_
  exact fun _ _ _ _ _ _ => trivial

lemma polite_afterPersist :
    Sits (afterPersist run releases) g s := by
  cases releases with
  | false => exact polite_pure fun _ _ => ⟨rfl, fun _ _ => trivial⟩
  | true => exact polite_ask rfl

lemma polite_finalized (hcopy : Copy run s ∨ releases = false) :
    Plays ((outcome (afterPersist run releases)).bind fun
        | .ok _ => deleteActiveEntry run.runID .finalized
        | .error _ => finalizeWithReleaseDebt run) (.closing run.runID) s := by
  have hdelete : ∀ t : RunStore,
      Plays (deleteActiveEntry run.runID .finalized) (.closing run.runID) t :=
    fun _ => (polite_deleteActiveEntry fun _ _ hphased => hphased.alone.1).plays
  rcases hcopy with hcopy | rfl
  · refine Plays.after (Keeps.outcome polite_afterPersist) ?_
    rintro r t hst -
    cases r with
    | ok _ => exact hdelete t
    | error _ => exact polite_finalizeWithReleaseDebt (hcopy.mono hst)
  · exact hdelete s

lemma closes (hphased : Phased t (.idle ::ₘ G)) (hold : t.finished new.runID = false)
    (hnew : finished new = true) :
    t.Fair new ∧ Phased (t.write new) (.closing new.runID ::ₘ G) := by
  refine ⟨.of_finished hnew, ?_⟩
  have hwritten : Phased (t.write new) G := hphased.drop.write fun _ => hnew
  apply hwritten.close
  · rw [RunStore.finished_write_self]
    exact hnew
  · exact hphased.drop.free hold

lemma polite_finalizeRun (hstatus : status.isTerminal = true) (hcopy : Copy run s) :
    Plays (finalizeRun run status releases) .idle s := by
  unfold finalizeRun
  split
  · exact fun _ _ => trivial
  · next hopen =>
    refine Plays.after (polite_ask rfl) ?_
    intro now t hst _
    have hsave : Polite concert (Saved (markTerminal run status now) .idle (.closing run.runID))
        (save .finalize (markTerminal run status now)) .idle t := by
      refine polite_save (hcopy.mono hst) (by rfl) (by rfl) ?_
      intro u G rev stored hintact hphased _ hvalue hagrees
      -- The copy has not ended, so the stored run owes no release.
      have hstored : ¬(stored.status.isTerminal = true ∧ stored.completedAt.isSome = true) := by
        rw [hagrees.status, hagrees.completedAt]
        simpa using hopen
      have hpend : stored.releasePending = false := by
        by_contra hpend
        exact hstored (hintact.settled hvalue (by simpa using hpend))
      apply closes hphased
      · rw [show (markTerminal run status now).runID = run.runID from rfl,
          RunStore.finished_of_value hvalue]
        refine Bool.eq_false_iff.mpr fun hfin => hstored ?_
        exact ⟨(finished_iff.mp hfin).1, (finished_iff.mp hfin).2.1⟩
      · exact finished_iff.mpr ⟨hstatus, rfl, hagrees.releasePending ▸ hpend⟩
    refine hsave.bind ?_ fun _ _ _ _ => trivial
    intro saved g u hsaved
    obtain ⟨rfl, hcopy', rev, rfl⟩ := hsaved.1 saved rfl
    exact polite_finalized (.inl hcopy')

lemma polite_refuseRun (hstatus : status.isTerminal = true) :
    Plays (refuseRun run status) .idle s := by
  unfold refuseRun finalizeRun
  split
  · exact fun _ _ => trivial
  · refine Plays.after (polite_ask rfl) ?_
    intro now t hst _
    have hput : Polite concert (Then (.closing run.runID) fun _ _ => True)
        (request (.put .finalize (markTerminal (fresh run) status now))) .idle t := by
      refine (polite_put fun u G hphased hnone _ => ?_).conseq fun r g u h rev hr =>
        ⟨(h rev hr).1, trivial⟩
      apply closes hphased
      · rw [RunStore.finished, hnone]
        rfl
      · exact finished_iff.mpr ⟨hstatus, rfl, rfl⟩
    have hsave : Polite concert
        (Then (.closing run.runID) fun saved _ => saved = markTerminal (fresh run) status now)
        (save .finalize (markTerminal (fresh run) status now)) .idle t := by
      refine Then.bind hput ?_ fun _ _ _ _ h => by cases h
      intro _ u _ _
      refine polite_pure fun v _ saved hsaved => ⟨rfl, ?_⟩
      cases hsaved
      rfl
    refine hsave.bind ?_ fun _ _ _ _ => trivial
    intro saved g u hsaved
    obtain ⟨rfl, rfl⟩ := hsaved saved rfl
    exact polite_finalized (.inr rfl)

lemma polite_proceed (hcopy : Copy run s) :
    Plays (proceed run edits ending) .idle s := by
  refine Plays.bind (polite_proceed_edits hcopy) ?_
  intro run' t _ hcopy'
  cases ending with
  | none => exact fun _ _ => trivial
  | some e => exact polite_finalizeRun e.terminal hcopy'

lemma polite_handleRun :
    Plays (handleRun id edits ending) .idle s := by
  refine Plays.after polite_load ?_
  exact fun run t _ hrun => polite_proceed hrun.1

section

variable (hrun : run.releasePending = false) (hrev : run.revision = some 0)
include hrun hrev

lemma polite_saveInitial :
    Polite concert (Then .idle fun run t => Copy run t) (saveInitial run) .idle s := by
  refine Then.bind (polite_put fun t G hphased hnone hindex =>
    fair_fresh hrun hphased hnone hindex) ?_ fun _ _ _ _ h => nomatch h
  rintro rev t - ⟨hcopy, hentered⟩
  refine Then.bind (Then.of_keeps (polite_createEntryIndexes hentered)) ?_
    fun _ _ _ _ h => nomatch h
  intro _ u htu _
  refine polite_pure fun v huv saved hsaved => ⟨rfl, ?_⟩
  cases hsaved
  exact .advance hrev ((hcopy.mono htu).mono huv)

lemma polite_createSnapshot :
    Polite concert (Then .idle fun r t => ∀ run, r = some run → Copy run t)
      (createSnapshot run) .idle s := by
  refine Then.bind (polite_create fun t G hphased hnone hindex =>
    fair_fresh hrun hphased hnone hindex) ?_ fun _ _ _ _ h => nomatch h
  intro r t _ hr
  cases r with
  | none =>
    refine polite_pure fun u _ r hr => ⟨rfl, fun run hrun => ?_⟩
    cases hr
    cases hrun
  | some rev =>
    obtain ⟨hcopy, hentered⟩ := hr rev rfl
    refine Then.bind (Then.of_keeps (polite_createEntryIndexes hentered)) ?_
      fun _ _ _ _ h => nomatch h
    intro _ u htu _
    refine polite_pure fun v huv r hr => ⟨rfl, fun run' hrun' => ?_⟩
    cases hr
    cases hrun'
    exact .advance hrev ((hcopy.mono htu).mono huv)

end

lemma polite_createRun : Plays (createRun chain run edits ending) .idle s := by
  unfold createRun
  cases chain with
  | true =>
    refine Plays.bind (polite_createSnapshot rfl rfl) ?_
    intro r t _ hr
    cases r with
    | none => exact polite_handleRun
    | some run' => exact polite_proceed (hr run' rfl)
  | false =>
    refine Plays.bind (polite_saveInitial rfl rfl) ?_
    exact fun run' t _ hcopy => polite_proceed hcopy

lemma polite_startRun : Plays (startRun chain run edits ending) .idle s := by
  refine Plays.after (Keeps.outcome polite_load) ?_
  intro r t _ hr
  cases r with
  | ok existing => exact polite_proceed (hr existing rfl).1
  | error e =>
    cases e with
    | runNotFound => exact polite_createRun
    | _ => exact fun _ _ => trivial

lemma polite_cleared : Plays (deleteActiveEntry id .cleared) (.clearing id) s :=
  (polite_deleteActiveEntry fun _ _ hphased =>
    hphased.clearing (Multiset.mem_cons_self _ _)).conseq fun _ _ _ _ => trivial

section

variable (hcopy : Copy run s) (hrun : run.status.isTerminal = true ∧ run.releasePending = true)
include hcopy hrun

lemma polite_clear
    (hnew : new.runID = run.runID ∧ new.revision = run.revision ∧
      new.status = run.status ∧ new.completedAt = run.completedAt) :
    Polite concert (Then (if new.releasePending then .idle else .clearing run.runID)
      fun saved _ => saved.runID = run.runID) (save .clear new) .idle s := by
  obtain ⟨hid, hrev, hstatus, hcompletedAt⟩ := hnew
  have hsave : Polite concert
      (Saved new .idle (if new.releasePending then .idle else .clearing run.runID))
      (save .clear new) .idle s := by
    refine polite_save hcopy hid hrev ?_
    intro t G rev stored hintact hphased _ hvalue hagrees
    have hpend : stored.releasePending = true := hagrees.releasePending.trans hrun.2
    obtain ⟨hterm, hdone⟩ := hintact.settled hvalue hpend
    have hold : t.finished run.runID = false := by
      rw [RunStore.finished_of_value hvalue]
      simp [finished, hpend]
    have hnewTerminal : new.status.isTerminal = true := by rw [hstatus]; exact hrun.1
    have hnewCompleted : new.completedAt.isSome = true := by
      rw [hcompletedAt, ← hagrees.completedAt]
      exact hdone
    have hwritten : Phased (t.write new) G := hphased.drop.write fun hmem => by
      rw [hid] at hmem
      exact absurd hmem (hphased.drop.free hold)
    split
    · refine ⟨⟨fun _ => ⟨hnewTerminal, hnewCompleted⟩, fun _ => .inr (.inl ?_)⟩, hwritten.idle⟩
      rw [hid, RunStore.owned_of_value hvalue]
      exact isReconcilerOwned_iff.mpr fun _ => hpend
    · next hcleared =>
      have hfin : finished new = true :=
        finished_iff.mpr ⟨hnewTerminal, hnewCompleted, Bool.eq_false_iff.mpr hcleared⟩
      refine ⟨.of_finished hfin, hwritten.clear ?_ (hphased.drop.free hold)⟩
      rw [← hid, RunStore.finished_write_self]
      exact hfin
  refine hsave.conseq fun r g t hsaved saved hr => ?_
  obtain ⟨hg, -, rev, rfl⟩ := hsaved.1 saved hr
  exact ⟨hg, hid⟩

lemma polite_reconcileReleasePending :
    Plays (reconcileReleasePending run) .idle s := by
  refine Plays.after (Keeps.outcome (polite_ask rfl)) ?_
  rintro r t hst -
  have hcopy' := hcopy.mono hst
  cases r with
  | ok _ =>
    refine Plays.bind (polite_clear hcopy' hrun ⟨rfl, rfl, rfl, rfl⟩) ?_
    rintro saved u - hsaved
    rw [hsaved]
    exact polite_cleared
  | error _ =>
    apply polite_ite
    · intro _
      refine Plays.bind (polite_clear hcopy' hrun ⟨rfl, rfl, rfl, rfl⟩) ?_
      rintro saved u - hsaved
      rw [hsaved]
      exact polite_cleared
    · intro _
      refine Plays.bind (polite_clear hcopy' hrun ⟨rfl, rfl, rfl, rfl⟩) ?_
      exact fun _ _ _ _ _ _ => trivial

end

lemma polite_reconcileReleasePendingRun :
    Plays (reconcileReleasePendingRun id) .idle s := by
  refine Plays.after polite_load ?_
  intro run t _ hrun
  apply polite_ite
  · exact polite_reconcileReleasePending hrun.1
  · exact fun _ _ _ => trivial

/-! ## Passes -/

lemma sits_parallelGetBestEffort : Sits (parallelGetBestEffort ids) g s := by
  induction ids generalizing s with
  | nil => exact sits_pure
  | cons id ids ih =>
    exact Sits.bind (polite_ask rfl) fun _ _ _ => Sits.bind ih fun _ _ _ => sits_pure

lemma sits_backfillEntry (counts : ℕ × ℕ) :
    Sits (backfillEntry counts x) g s := by
  obtain ⟨id, value⟩ := x
  cases value with
  | none => exact sits_pure
  | some run =>
    refine Sits.bind (polite_createIndex nofun) fun created t _ =>
      polite_ite (fun _ => ?_) fun _ => sits_pure
    exact Sits.bind polite_createActive fun _ _ _ => sits_pure

lemma sits_removeOrphanIndexEntries (runIDs : List String)
    (removed : ℕ) : Sits (removeOrphanIndexEntries runIDs pageMax ids removed) g s := by
  induction ids generalizing removed s with
  | nil => exact sits_pure
  | cons id ids ih =>
    unfold removeOrphanIndexEntries
    split
    · exact sits_pure
    · split
      · exact ih removed
      · exact Sits.bind polite_deleteIndex fun _ _ _ => ih (removed + 1)

lemma polite_markerStale (seen : Option WorkflowRun) :
    Polite concert (Keeps g fun stale _ => stale = true → seen.any isReconcilerOwned = false)
      (markerStale seen) g s := by
  cases seen with
  | none => exact polite_pure fun _ _ => ⟨rfl, fun _ _ _ => rfl⟩
  | some run =>
    refine polite_ite (fun _ => polite_pure fun _ _ => ⟨rfl, fun stale hstale h => ?_⟩)
      fun howned => ?_
    · cases hstale
      cases h
    · have hwithin : Sits (withinActiveOrphanGrace run) g s := by
        unfold withinActiveOrphanGrace
        split
        · exact sits_pure
        · exact Sits.bind (polite_ask rfl) fun _ _ _ => sits_pure
      refine Keeps.bind hwithin fun within t _ _ => polite_pure fun _ _ => ⟨rfl, fun _ _ _ => ?_⟩
      exact Bool.eq_false_iff.mpr howned

lemma sits_validateMarker :
    Sits (validateMarker removed x) g s := by
  refine Sits.bind (polite_markerStale x.2) fun stale t hstale => ?_
  cases stale with
  | false => exact sits_pure
  | true =>
    refine Sits.bind (polite_deleteActive fun u G _ hcareful => ?_) fun _ _ _ => sits_pure
    rw [RunStore.owned, show u.value x.1 = x.2 from hcareful]
    exact hstale rfl

lemma sits_repairActiveOrphans : Sits (repairActiveOrphans pageMax) g s := by
  have hlist : Sits listActiveRunIDs g s :=
    Sits.bind (polite_ask rfl) fun _ _ _ => polite_ite (fun _ => sits_throw) fun _ => sits_pure
  refine Sits.bind hlist fun ids t _ => ?_
  refine Sits.bind sits_parallelGetBestEffort fun values u _ => ?_
  refine Sits.bind (Sits.fold fun removed x v => sits_validateMarker) fun _ _ _ => ?_
  exact sits_pure

lemma sits_repairRunIndex : Sits (repairRunIndex pageMax) g s := by
  have hkeys : Sits loadRunAndIndexIDSets g s :=
    Sits.bind (polite_ask rfl) fun _ _ _ => polite_ite (fun _ => sits_throw) fun _ => sits_pure
  refine Sits.bind hkeys fun ids t _ => ?_
  have hbackfill : Sits (backfillMissingIndex ids.1 ids.2 pageMax) g t :=
    Sits.bind sits_parallelGetBestEffort fun values u _ =>
      Sits.fold fun counts x v => sits_backfillEntry counts
  refine Sits.bind hbackfill fun backfilled u _ => ?_
  refine Sits.bind (sits_removeOrphanIndexEntries _ _) fun orphans v _ => ?_
  exact Sits.bind sits_repairActiveOrphans fun _ _ _ => sits_pure

lemma sits_buildActiveIndexOnce : Sits buildActiveIndexOnce g s := by
  refine Sits.bind (polite_ask rfl) fun built t _ => polite_ite (fun _ => sits_pure) fun _ => ?_
  have hload : Sits loadAllRunMetasForBuild g t :=
    Sits.bind (polite_ask rfl) fun keys u _ => polite_ite (fun _ => sits_throw) fun _ =>
      Sits.bind sits_parallelGetBestEffort fun _ _ _ => sits_pure
  have hentry : ∀ (m : RunBuildMeta) (u : RunStore), Sits (buildEntry () m) g u := by
    intro m u
    refine Sits.bind (polite_createIndex nofun) fun _ v _ =>
      polite_ite (fun _ => ?_) fun _ => sits_pure
    exact Sits.bind polite_createActive fun _ _ _ => sits_pure
  refine Sits.bind hload fun metas u _ => ?_
  refine Sits.bind (Sits.fold fun _ m v => hentry m v) fun _ _ _ => ?_
  exact polite_ask rfl

end Programs

/-! ## The system -/

lemma concert_sound : concert.Sound careful where
  call h := h
  start := by
    intro s G j prog hinv _ hprog
    cases hprog
    refine ⟨.idle, ⟨hinv.1, hinv.2.idle⟩, ?_⟩
    cases j with
    | start chain run edits ending => exact polite_startRun
    | refuse run ending => exact polite_refuseRun ending.terminal
    | handle id edits ending => exact polite_handleRun
    | reconcile id => exact polite_reconcileReleasePendingRun
    | repair pageMax => exact Sits.plays (Keeps.ignoring sits_repairRunIndex)
    | build => exact sits_buildActiveIndexOnce.plays
  drop h := ⟨h.1, h.2.drop⟩
  move := by
    intro s m t G hinv _ hmove
    have hrekeyed : s.Rekeyed t := by
      cases hmove
      exact ⟨rfl, .inl, .inl⟩
    exact ⟨hrekeyed.rely, hinv.1.rekeyed hrekeyed, hinv.2.rekeyed hrekeyed⟩

/-- As long as every write is careful, every owned run of the index has its marker,
and a pass that is about to delete a marker carefully spares the owned runs. -/
theorem owned_runs_marked {s : RunStore} (hs : s.Intact) {p : Pool system}
    (h : Pool.Reaches careful (Pool.initial s) p) :
    (∀ id, p.state.owned id = true → id ∈ p.state.index → id ∈ p.state.active) ∧ ∀ i id seen,
    p.nextCall i = some (.deleteActive id (.stale seen)) →
    Careful p.state (.deleteActive id (.stale seen)) → p.state.owned id = false := by
  obtain ⟨ghosts, hplays⟩ := concert_sound.reaches ⟨hs, ⟨nofun, nofun⟩⟩ h
  constructor
  · intro id howned hindex
    exact hplays.1.1.marked howned hindex
  · intro i id seen hcall hcareful
    exact hplays.good hcall hcareful id seen rfl

namespace Example

/-- A run, and the calls of a program with every one answered. -/
def run : WorkflowRun := { runID := "r", workflowID := "w", status := .running }

def answered (keys more : List String) : RunStore → Call → RunStore.Choice
  | _, .keys => .listed keys more
  | _, .listActive => .listed keys more
  | _, _ => .done

/-- The run is stored, but the engine crashes after `n` calls. -/
def started (n : ℕ) : List (Order system) :=
  [.act (.start (.start false run [] none)), .drive (answered [] []) 0 n, .act (.drop 0)]

def carefulChecks : Checks system where
  call s op :=
    match op with
    | .put _ run => (s.value run.runID).isNone && decide (run.runID ∉ s.index)
    | .createIndex id .repair => !s.owned id || decide (id ∈ s.active)
    | .create _ | .update .. | .deleteActive .. => false
    | _ => true
  job _ _ := true
  move _ _ := true

lemma carefulChecks_sound : carefulChecks.Sound careful where
  call := by
    intro s op h
    cases op with
    | put site run =>
      obtain ⟨hnone, hindex⟩ := Bool.and_eq_true_iff.mp h
      exact ⟨Option.isNone_iff_eq_none.mp hnone, of_decide_eq_true hindex⟩
    | createIndex id site =>
      cases site with
      | entry => trivial
      | repair =>
        intro howned
        rcases Bool.or_eq_true_iff.mp h with hnot | hactive
        · simp [howned] at hnot
        · exact of_decide_eq_true hactive
    | create run | update site run rev | deleteActive id site => cases h
    | _ => trivial
  job _ := trivial
  move _ := trivial

/-- The engine crashes behind the marker, and a pass repairs the index. -/
theorem repaired_run_marked : RunStore.empty.Intact ∧ ∃ p,
    Pool.Reaches careful (Pool.initial RunStore.empty) p ∧ p.state.owned "r" = true ∧
    "r" ∈ p.state.index ∧ "r" ∈ p.state.active := by
  refine ⟨RunStore.intact_empty, ?_⟩
  obtain ⟨p, hp, htest⟩ := Pool.reaches_of_script carefulChecks_sound (Pool.initial RunStore.empty)
    (started 3 ++ [.act (.start (.repair 5)), .drive (answered ["r"] []) 0 3]) (fun p =>
      p.state.owned "r" && decide ("r" ∈ p.state.index))
  obtain ⟨howned, hindex⟩ := Bool.and_eq_true_iff.mp htest
  have hmem := of_decide_eq_true hindex
  exact ⟨p, hp, howned, hmem, (owned_runs_marked RunStore.intact_empty hp).1 "r" howned hmem⟩

/-- The first program is a pass that is about to delete the marker of an owned run. -/
def deletesOwned (p : Pool system) : Bool :=
  match p.nextCall 0 with
  | some (.deleteActive id (.stale _)) => p.state.owned id
  | _ => false

/-- An engine crashes between the snapshot and the marker of a new run; a pass enters
the run into the index first, and crashes before it marks it. And a pass whose read
of a running run is not answered in time is about to delete its marker. -/
theorem owned_run_unmarked :
    (∃ p : Pool system, Pool.Reaches Conditions.free (Pool.initial RunStore.empty) p ∧
      p.threads.length = 0 ∧
      p.state.owned "r" = true ∧ "r" ∈ p.state.index ∧ "r" ∉ p.state.active) ∧
    ∃ (p : Pool system) (id : String) (seen : Option WorkflowRun),
      Pool.Reaches Conditions.free (Pool.initial RunStore.empty) p ∧
      p.nextCall 0 = some (.deleteActive id (.stale seen)) ∧ p.state.owned id = true := by
  constructor
  · obtain ⟨p, hp, htest⟩ := Pool.reaches_of_script Checks.free_sound (Pool.initial RunStore.empty)
      (started 2 ++
        [.act (.start (.repair 5)), .drive (answered ["r"] []) 0 3, .act (.drop 0)])
        (fun p => decide (p.threads.length = 0) && (p.state.owned "r" &&
            decide ("r" ∈ p.state.index ∧ "r" ∉ p.state.active)))
    obtain ⟨hthreads, htest⟩ := Bool.and_eq_true_iff.mp htest
    obtain ⟨howned, hkeys⟩ := Bool.and_eq_true_iff.mp htest
    exact ⟨p, hp, of_decide_eq_true hthreads, howned, of_decide_eq_true hkeys⟩
  · obtain ⟨p, hp, htest⟩ := Pool.reaches_of_script Checks.free_sound (Pool.initial RunStore.empty)
      (started 4 ++ [.act (.start (.repair 5)), .drive (answered ["r"] ["r"]) 0 2,
          .act (.step 0 .fail)]) deletesOwned
    unfold deletesOwned at htest
    split at htest
    · next id seen hcall => exact ⟨p, id, seen, hp, hcall, htest⟩
    · cases htest

end Example

end Dagnats.RunIndex
