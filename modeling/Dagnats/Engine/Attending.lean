import Dagnats.Engine.Solo

/-!
# Loading, saving and ending a run under a watch

The functions through which a handler reads and writes its run, for a handler
that has the run to itself. What it loads is what was last written; what it
saves is stored, up to the bookkeeping that `saveSnapshot` does on its own; and
`finalizeRun` ends the run.
-/

namespace Dagnats

open Interaction

variable {o : Orchestrator} {W : Watch} {w t : World} {site : Site} {run : WorkflowRun}

/-- The handler's copy is what is stored, up to bookkeeping. -/
structure Synced (W : Watch) (w : World) (run : WorkflowRun) : Prop where
  runID : run.runID = W.runID
  stored : ∃ stored, lastRun (w.writes W.runID) = some stored ∧ Alike stored run

namespace Synced

variable {run' : WorkflowRun}

lemma tended (h : Synced W w run)
    (ht : Tended (w.writes W.runID) (t.writes W.runID)) : Synced W t run := by
  obtain ⟨stored, hstored, hlike⟩ := h.stored
  obtain ⟨stored', hstored', hlike'⟩ := ht.lastRun hstored
  exact ⟨h.runID, stored', hstored', hlike'.symm.trans hlike⟩

lemma apart (h : Synced W w run) (ht : Apart W.runID w t) : Synced W t run :=
  ⟨h.runID, ht.writes ▸ h.stored⟩

lemma alike (h : Synced W w run) (hrun : Alike run run') : Synced W w run' := by
  obtain ⟨stored, hstored, hlike⟩ := h.stored
  exact ⟨hrun.runID.trans h.runID, stored, hstored, hlike.trans hrun⟩

end Synced

/-- `saved` came back from a save of `run` at `site`. -/
structure SavedAt (W : Watch) (w : World) (site : Site) (run saved : WorkflowRun)
    (t : World) : Prop where
  alike : Alike run saved
  writes : ∃ prior stored, Alike run stored ∧
    Tended (.snapshot site prior stored :: w.writes W.runID) (t.writes W.runID)

lemma SavedAt.synced {saved : WorkflowRun} (h : SavedAt W w site run saved t)
    (hid : run.runID = W.runID) : Synced W t saved := by
  obtain ⟨prior, stored, hlike, ht⟩ := h.writes
  obtain ⟨stored', hstored', hlike'⟩ := ht.lastRun (rfl : lastRun (_ :: _) = some stored)
  refine ⟨h.alike.runID.trans hid, stored', hstored', ?_⟩
  exact (hlike.trans hlike').symm.trans h.alike

namespace Attends

/-! ## Reading -/

lemma load : Attends o W w (Dagnats.load W.runID) fun run t => Apart W.runID w t ∧ ∃ rev stored,
    lastRun (w.writes W.runID) = some stored ∧ run = World.received rev stored := by
  intro t ht hwt _ c a u hexec
  change t.exec (.load W.runID) c = some (a, u) at hexec
  have htu : Apart W.runID t u := Apart.of_exec hexec rfl
  refine ⟨ht.apart htu, fun _ => ?_⟩
  cases a with
  | error e => exact fail fun he => World.exec_conceivable hexec (he ▸ rfl)
  | ok run =>
    obtain ⟨-, hread⟩ := World.read_cases hexec
    obtain ⟨rev, stored, hlatest, rfl⟩ := hread run rfl
    refine pure fun v _ huv => ⟨(hwt.trans htu).trans huv, rev, stored, ?_, rfl⟩
    rw [← hwt.writes, World.lastRun_writes, hlatest]
    rfl

lemma runID_of_lastRun (h : lastRun (w.writes W.runID) = some run) : run.runID = W.runID := by
  rw [World.lastRun_writes] at h
  obtain ⟨⟨rev, stored⟩, hlatest, rfl⟩ := Option.map_eq_some_iff.mp h
  exact (World.latestIn_wrote hlatest).2

end Attends

namespace Quiet

lemma now : Silent Dagnats.now := request rfl

lemma loadDef {workflowID : String} : Silent (Dagnats.loadDef workflowID) := request rfl

lemma notify {n : Notice} : Silent (Dagnats.request (.notify n)) :=
  request rfl

lemma publishEvent {e : Event} : Silent (Dagnats.publishEvent e) :=
  request rfl

lemma load {runID : String} : Silent (Dagnats.load runID) :=
  request rfl

lemma lateEvent {e : Event} :
    Quiet (lateEventForTerminalRun run e) fun b => b = run.status.isTerminal :=
  guard fun _ => guard fun _ => pure rfl

lemma loadPinnedOrLatestDef : Quiet (o.loadPinnedOrLatestDef run) fun d => run.defHash ≠ "" →
    o.defHash d = run.defHash := by
  have hheal : Quiet (o.selfHealMissingVersion run) fun d =>
      o.defHash d = run.defHash := by
    refine bind loadDef fun d _ => ite (fun _ => other) fun hhash => ?_
    exact bind (request rfl) fun _ _ => pure (not_not.mp hhash)
  refine ite (fun hempty => loadDef.conseq fun d _ h => absurd hempty h) fun _ => ?_
  refine bind (request rfl).outcome fun x hx => ?_
  split
  · next d =>
    exact ite (fun _ => other) fun hhash => pure fun _ => not_not.mp hhash
  · refine bind hheal.outcome fun y hy => ?_
    cases y with
    | ok d => exact pure fun _ => hy.1 d rfl
    | error e => exact fail (by simp)
  · next e _ => exact fail fun he => hx.2 (he ▸ rfl)

end Quiet

namespace Attends

lemma loadRunAndDef : Attends o W w (o.loadRunAndDef W.runID) fun x t => Apart W.runID w t ∧
    ∃ rev stored d, lastRun (w.writes W.runID) = some stored ∧ x =
    (effectiveDef d stored, World.received rev stored) ∧
    (stored.defHash ≠ "" → o.defHash d = stored.defHash) := by
  refine bind load fun run t _ hrun => ?_
  obtain ⟨hwt, rev, stored, hstored, rfl⟩ := hrun
  refine bind Quiet.loadPinnedOrLatestDef.outcome.attends fun x u _ hx => ?_
  obtain ⟨hx, htu⟩ := hx
  cases x with
  | ok d =>
    exact pure fun v _ huv => ⟨(hwt.trans htu).trans huv, rev, stored, d, hstored, rfl, hx.1 d rfl⟩
  | error e =>
    refine ite (fun _ => fail (by simp)) fun _ => fail fun he => ?_
    exact hx.2 (he ▸ rfl)

end Attends

/-! ## Writing -/

/-- What a save of `run` leaves: the run is stored or nothing has happened. -/
def SaveResult (W : Watch) (w : World) (site : Site) (run : WorkflowRun)
    (r : Except Err WorkflowRun) (t : World) : Prop :=
  (∃ prior stored, Alike run stored ∧
    t.writes W.runID = .snapshot site prior stored :: w.writes W.runID ∧
    (∀ saved, r = .ok saved → Alike run saved)) ∨
  (t.writes W.runID = w.writes W.runID ∧ ∀ saved, r ≠ .ok saved)

lemma safe_write {op : Call} {e : Entry}
    (hexec : ∀ {t : World} {c a u}, t.exec op c = some (a, u) →
      (u = t ∧ ∀ v, a ≠ .ok v) ∨ u = t.push e)
    (he : e.writes W.runID = true) (hkeeps : W.keeps (e :: w.writes W.runID)) :
    Safe (solo o W) (fun r t => (t.writes W.runID = e :: w.writes W.runID ∨
        (t.writes W.runID = w.writes W.runID ∧ ∀ v, r ≠ .ok v)) ∧
      r ≠ .error .runFinalized) (request op) w := by
  intro t ht hwt _ c a u hcall
  have hpush : (t.push e).writes W.runID = e :: w.writes W.runID := by
    rw [← hwt.writes]
    exact List.filter_cons_of_pos he
  have hconceivable : conceivable op a := World.exec_conceivable hcall
  rcases hexec hcall with ⟨rfl, hno⟩ | rfl
  · refine ⟨ht, fun _ => ?_⟩
    cases a with
    | ok v => exact absurd rfl (hno v)
    | error err =>
      refine fun v _ huv => ⟨.inr ⟨huv.writes.trans hwt.writes, by simp⟩, ?_⟩
      exact fun h => hconceivable (congrArg _ (Except.error.inj h))
  · refine ⟨⟨ht.base.trans (List.suffix_cons e t.log), hpush ▸ hkeeps⟩, fun _ => ?_⟩
    cases a with
    | ok v => exact fun x _ hux => ⟨.inl (hux.writes.trans hpush), by simp⟩
    | error err =>
      refine fun x _ hux => ⟨.inl (hux.writes.trans hpush), ?_⟩
      exact fun h => hconceivable (congrArg _ (Except.error.inj h))

lemma safe_save (hid : run.runID = W.runID) (hkeeps : ∀ prior stored, Alike run stored →
      W.keeps (.snapshot site prior stored :: w.writes W.runID)) :
    Safe (solo o W) (fun r t => SaveResult W w site run r t ∧
      r ≠ .error .runFinalized) (Dagnats.save site run) w := by
  have hstored : Alike run (World.persisted run) := .persisted run
  have hwrites : ∀ prior, Entry.writes W.runID
      (.snapshot site prior (World.persisted run)) = true :=
    fun _ => decide_eq_true hid
  unfold Dagnats.save
  split
  · refine Safe.bind (safe_write (e := .snapshot site none (World.persisted run)) ?_
      (hwrites none) (hkeeps none _ hstored)) (fun rev t _ _ ht => ?_)
      fun e t _ _ ht => ?_
    · intro t c a u hexec
      change t.commit _ _ c = _ at hexec
      exact (World.commit_cases hexec).imp id And.left
    · rcases ht.1 with ht | ht
      · refine fun u _ htu => ⟨.inl ⟨none, _, hstored, htu.writes.trans ht, ?_⟩, by simp⟩
        rintro _ ⟨⟩
        exact .recorded run run.revision
      · exact absurd rfl (ht.2 rev)
    · rcases ht.1 with hw | hw
      · exact ⟨.inl ⟨none, _, hstored, hw, by simp⟩, fun h => ht.2 (by cases h; rfl)⟩
      · exact ⟨.inr ⟨hw.1, by simp⟩, fun h => ht.2 (by cases h; rfl)⟩
  · next rev _ =>
    refine Safe.bind (safe_write (e := .snapshot site (some rev) (World.persisted run))
      ?_ (hwrites _) (hkeeps _ _ hstored)) (fun rev' t _ _ ht => ?_)
      fun e t _ _ ht => ?_
    · intro t c a u hexec
      rcases World.compareAndSet_cases hexec with ⟨rfl, hno⟩ | ⟨_, -, hu, -⟩
      · exact .inl ⟨rfl, hno⟩
      · exact .inr hu
    · rcases ht.1 with ht | ht
      · refine fun u _ htu => ⟨.inl ⟨some rev, _, hstored, htu.writes.trans ht, ?_⟩, by simp⟩
        rintro _ ⟨⟩
        exact .recorded run (some rev')
      · exact absurd rfl (ht.2 rev')
    · rcases ht.1 with hw | hw
      · exact ⟨.inl ⟨some rev, _, hstored, hw, by simp⟩, fun h => ht.2 (by cases h; rfl)⟩
      · exact ⟨.inr ⟨hw.1, by simp⟩, fun h => ht.2 (by cases h; rfl)⟩

/-! ## Bookkeeping -/

/-- However it ends, the program has only done bookkeeping; it returns
with `J`. -/
def Tends (o : Orchestrator) (W : Watch) {α : Type} (w : World) (p : M α)
    (J : α → World → Prop) : Prop :=
  Safe (solo o W) (fun r t => Tended (w.writes W.runID) (t.writes W.runID) ∧
    match r with
    | .ok a => J a t
    | .error e => e ≠ .runFinalized) p w

namespace Tends

variable {α β : Type} {p : M α} {f : α → M β} {J : α → World → Prop} {Q : β → World → Prop}

lemma attends (hp : Tends o W w p J) : Attends o W w p fun a t => J a t ∧
    Tended (w.writes W.runID) (t.writes W.runID) := by
  refine Safe.conseq hp fun r t _ _ hr => ?_
  cases r with
  | ok a => exact ⟨hr.2, hr.1⟩
  | error e => exact fun he => absurd he hr.2

lemma of_quiet {J : α → Prop} (hp : Quiet p J) :
    Tends o W w p fun a t => J a ∧ Apart W.runID w t := by
  induction p generalizing w with
  | pure a => exact fun t _ hwt => ⟨hwt.writes ▸ .refl, hp, hwt⟩
  | fail e => exact fun t _ hwt => ⟨hwt.writes ▸ .refl, hp⟩
  | call op k ih =>
    intro t ht hwt _ c a u hexec
    have htu : Apart W.runID t u := Apart.of_exec hexec hp.1
    have hwu := hwt.trans htu
    refine ⟨ht.apart htu, fun _ => ?_⟩
    have hk : Quiet (k a) J := hp.2 a (World.exec_conceivable hexec)
    refine Safe.conseq (ih a hk) fun r v _ _ hr => ?_
    rw [hwu.writes] at hr
    refine ⟨hr.1, ?_⟩
    cases r with
    | ok b => exact ⟨hr.2.1, hwu.trans hr.2.2⟩
    | error e => exact hr.2

lemma pure {a : α} (h : ∀ t, W.Holds t → Apart W.runID w t → J a t) : Tends o W w (Prog.pure a) J :=
  fun t ht hwt => ⟨hwt.writes ▸ .refl, h t ht hwt⟩

lemma fail {e : Err} (he : e ≠ .runFinalized) : Tends o W w (Prog.fail e : M α) J :=
  fun _ _ hwt => ⟨hwt.writes ▸ .refl, he⟩

lemma bind (hp : Tends o W w p J)
    (hf : ∀ a t, W.Holds t → Tended (w.writes W.runID) (t.writes W.runID) →
      J a t → Tends o W t (f a) Q) : Tends o W w (p.bind f) Q := by
  refine Safe.bind hp (fun a t ht _ hJ => ?_) fun _ _ _ _ he => he
  exact Safe.conseq (hf a t ht hJ.1 hJ.2) fun r u _ _ hr => ⟨hJ.1.trans hr.1, hr.2⟩

lemma conseq {J J' : α → Prop} (hp : Tends o W w p fun a _ => J a)
    (h : ∀ a, J a → J' a) : Tends o W w p fun a _ => J' a := by
  refine Safe.conseq hp fun r t _ _ hr => ⟨hr.1, ?_⟩
  cases r with
  | ok a => exact h a hr.2
  | error e => exact hr.2

lemma outcome (hp : Tends o W w p J) :
    Tends o W w (Dagnats.outcome p) fun r t => (∀ a, r = .ok a → J a t) ∧
    r ≠ .error .runFinalized := by
  refine Safe.attempt hp ?_ ?_ fun e t _ _ he _ => he
  · intro a t _ _ hJ
    refine ⟨hJ.1, fun b hb => ?_, by simp⟩
    cases hb
    exact hJ.2
  · intro e t _ _ he _
    refine ⟨he.1, by simp, fun h => ?_⟩
    cases h
    exact he.2 rfl

lemma ite {c : Prop} [Decidable c] {q : M α} (hp : c → Tends o W w p J)
    (hq : ¬c → Tends o W w q J) : Tends o W w (if c then p else q) J := by
  split
  · next h => exact hp h
  · next h => exact hq h

lemma load : Tends o W w (Dagnats.load W.runID) fun run t => Synced W t run := by
  intro t ht hwt _ c a u hexec
  change t.exec (.load W.runID) c = some (a, u) at hexec
  have htu : Apart W.runID t u := Apart.of_exec hexec rfl
  refine ⟨ht.apart htu, fun _ => ?_⟩
  have hsame : ∀ v, Apart W.runID u v → Tended (w.writes W.runID) (v.writes W.runID) :=
    fun v huv => ((hwt.trans htu).trans huv).writes ▸ .refl
  cases a with
  | error e =>
    refine fun v _ huv => ⟨hsame v huv, fun he => ?_⟩
    exact World.exec_conceivable hexec (he ▸ rfl)
  | ok run =>
    obtain ⟨-, hread⟩ := World.read_cases hexec
    obtain ⟨rev, stored, hlatest, rfl⟩ := hread run rfl
    have hlast : lastRun (t.writes W.runID) = some stored := by
      rw [World.lastRun_writes, hlatest]
      rfl
    have hid : stored.runID = W.runID := (World.latestIn_wrote hlatest).2
    refine fun v _ huv => ⟨hsame v huv, hid, stored, ?_, .received rev stored⟩
    rw [(htu.trans huv).writes]
    exact hlast

lemma save (hsite : bookkeeping site = true) (hw : W.Holds w) (h : Synced W w run) :
    Tends o W w (Dagnats.save site run) fun saved _ => Alike run saved := by
  obtain ⟨last, hlast, hrun⟩ := h.stored
  refine Safe.conseq (safe_save h.runID fun prior stored hstored => ?_) fun r t _ _ ht => ?_
  · exact W.keeps_tended hsite hlast (hrun.trans hstored) hw.keeps
  · obtain ⟨⟨prior, stored, hstored, hwrites, hok⟩ | ⟨hwrites, hno⟩, herr⟩ := ht
    · refine ⟨hwrites ▸ .write .refl hsite hlast (hrun.trans hstored), ?_⟩
      cases r with
      | ok saved => exact hok saved rfl
      | error e => exact fun he => herr (he ▸ rfl)
    · refine ⟨hwrites ▸ .refl, ?_⟩
      cases r with
      | ok saved => exact absurd rfl (hno saved)
      | error e => exact fun he => herr (he ▸ rfl)

lemma resettle {ids : List String} (n : ℕ) :
    Tends o W w (Dagnats.resettle W.runID ids n) fun _ _ => True := by
  induction n generalizing w with
  | zero => exact bind load.outcome fun _ _ _ _ _ => pure fun _ _ _ => trivial
  | succ n ih =>
    refine bind load.outcome fun x t ht _ hx => ?_
    cases x with
    | error e => exact pure fun _ _ _ => trivial
    | ok fresh =>
      have hsynced : Synced W t (clearInputs fresh ids) :=
        (hx.1 fresh rfl).alike (.clearInputs ids fresh)
      refine bind (save rfl ht hsynced).outcome fun y u _ _ _ => ?_
      split
      · exact ih
      · exact pure fun _ _ _ => trivial

lemma sweepInputs : Silent (Dagnats.sweepInputs run) := by
  refine Quiet.fold trivial fun id _ swept _ => ?_
  refine Quiet.ite (fun _ => ?_) fun _ => Quiet.ends
  refine Quiet.bind Quiet.notify.outcome fun x _ => ?_
  cases x <;> exact Quiet.ends

lemma settleFinishedSteps (h : Synced W w run) :
    Tends o W w (Dagnats.settleFinishedSteps run) fun settled _ => Alike run settled := by
  refine bind (of_quiet sweepInputs) fun swept t ht _ hswept => ?_
  refine ite (fun _ => pure fun _ _ _ => .refl run) fun _ => ?_
  have hclear : Alike run (clearInputs run swept) := .clearInputs swept run
  have hsynced := (h.apart hswept.2).alike hclear
  refine bind (save rfl ht hsynced).outcome fun x u _ _ hx => ?_
  split
  · next saved => exact pure fun _ _ _ => hclear.trans (hx.1 saved rfl)
  · rw [h.runID]
    exact bind (resettle _) fun _ _ _ _ _ => pure fun _ _ _ => hclear
  · exact pure fun _ _ _ => hclear

lemma saveSnapshot (hsite : bookkeeping site = true) (h : Synced W w run) :
    Tends o W w (Dagnats.saveSnapshot site run) fun saved _ => Alike run saved := by
  refine bind (of_quiet Quiet.now) fun time t ht _ hwt => ?_
  have hstamp : Alike run (stampTerminalSteps run time) := .stampTerminalSteps run time
  have hsynced := (h.apart hwt.2).alike hstamp
  refine bind (save hsite ht hsynced) fun saved u _ htu hsaved => ?_
  have hagain : Synced W u saved := (hsynced.tended htu).alike hsaved
  refine (settleFinishedSteps hagain).conseq fun settled hsettled => ?_
  exact (hstamp.trans hsaved).trans hsettled

lemma markSentRounds {nonces : List (String × Option ℕ)} (n : ℕ) (h : Synced W w run) :
    Tends o W w (Dagnats.markSentRounds nonces n run) fun saved _ => Alike run saved := by
  induction n generalizing w run with
  | zero => exact fail (by simp)
  | succ n ih =>
    refine ite (fun _ => fail (by simp)) fun _ => ?_
    refine ite (fun _ => pure fun _ _ _ => .refl run) fun _ => ?_
    have hclear : Alike run (clearUnsent run nonces) := .clearUnsent nonces run
    refine bind (saveSnapshot rfl (h.alike hclear)).outcome fun x t _ hwt hx => ?_
    split
    · next saved => exact pure fun _ _ _ => hclear.trans (hx.1 saved rfl)
    · rw [h.runID]
      refine bind load fun fresh u _ htu hfresh => ?_
      have hrun : Alike run fresh := by
        obtain ⟨last, hlast, hlike⟩ := (h.tended (hwt.trans htu)).stored
        obtain ⟨last', hlast', hlike'⟩ := hfresh.stored
        rw [hlast] at hlast'
        cases hlast'
        exact hlike.symm.trans hlike'
      exact (ih hfresh).conseq fun saved hsaved => hrun.trans hsaved
    · next e _ => exact fail fun he => hx.2 (he ▸ rfl)

lemma markSent {sent : List String} (h : Synced W w run) :
    Tends o W w (Dagnats.markSent run sent) fun saved _ => Alike run saved :=
  markSentRounds _ h

end Tends

namespace Attends

/-! ## Saving and ending -/

lemma saveSnapshot (hid : run.runID = W.runID) (hkeeps : ∀ prior stored, Alike run stored →
      W.keeps (.snapshot site prior stored :: w.writes W.runID)) :
    Attends o W w (Dagnats.saveSnapshot site run) fun saved t =>
      SavedAt W w site run saved t := by
  refine bind Quiet.now.attends fun time t _ hwt => ?_
  have hstamp : Alike run (stampTerminalSteps run time) := .stampTerminalSteps run time
  have hsave : Attends o W t (save site (stampTerminalSteps run time)) fun saved u =>
      Alike run saved ∧ ∃ prior stored, Alike run stored ∧
        u.writes W.runID = .snapshot site prior stored :: w.writes W.runID := by
    refine Safe.conseq (safe_save (hstamp.runID.trans hid) fun prior stored hstored => ?_)
      fun r u _ _ hr => ?_
    · rw [hwt.2.writes]
      exact hkeeps prior stored (hstamp.trans hstored)
    · cases r with
      | error e => exact fun he => absurd (he ▸ rfl) hr.2
      | ok saved =>
        rcases hr.1 with ⟨prior, stored, hstored, hwrites, hok⟩ | ⟨-, hno⟩
        · refine ⟨hstamp.trans (hok saved rfl), prior, stored, hstamp.trans hstored, ?_⟩
          rw [hwrites, hwt.2.writes]
        · exact absurd rfl (hno saved)
  refine bind hsave fun saved u _ hsaved => ?_
  obtain ⟨hlike, prior, stored, hstored, hwrites⟩ := hsaved
  have hsynced : Synced W u saved := by
    refine ⟨hlike.runID.trans hid, stored, ?_, hstored.symm.trans hlike⟩
    rw [hwrites]
    rfl
  refine (Tends.settleFinishedSteps hsynced).attends.conseq fun settled v _ hv => ?_
  exact ⟨hlike.trans hv.1, prior, stored, hstored, hwrites ▸ hv.2⟩

/-- The terminal save is the last that matters. -/
lemma finalizeWith {P : List Entry → Prop} {status : RunStatus} {after : M Unit}
    (hcons : ∀ {ws} (e : Entry), P ws → P (e :: ws)) (hkeeps : ∀ {ws}, P ws → W.keeps ws)
    (hended : ∀ {ws}, P ws → EndedSince (W.base.writes W.runID) ws) (hid : run.runID = W.runID)
    (hopen : ¬(run.status.isTerminal && run.completedAt.isSome) = true)
    (hsaved : ∀ t, W.Holds t → Apart W.runID w t → ∀ time prior stored,
      Alike (markTerminal run status time) stored →
        P (.snapshot .finalize prior stored :: t.writes W.runID)) :
    Attends o W w (Dagnats.finalizeRun run status after) fun _ t => P (t.writes W.runID) := by
  refine ite (fun h => absurd h hopen) fun _ => ?_
  refine bind Quiet.now.attends fun time t ht hwt => ?_
  refine bind (saveSnapshot hid fun prior stored hstored =>
    hkeeps (hsaved t ht hwt.2 time prior stored hstored)) fun saved u _ hsave => ?_
  obtain ⟨prior, stored, hstored, htended⟩ := hsave.writes
  exact of_stable hcons hkeeps hended (htended.tolerant (fun _ _ _ h => hcons _ h)
    (hsaved t ht hwt.2 time prior stored hstored)) _

lemma finalizeRun [W.Endable] {status : RunStatus} {after : M Unit} (hid : run.runID = W.runID)
    (hopen : ¬(run.status.isTerminal && run.completedAt.isSome) = true)
    (hstatus : status.isTerminal = true) :
    Attends o W w (Dagnats.finalizeRun run status after) fun _ t => W.Ended t := by
  refine finalizeWith (fun e h => h.cons e) Watch.Endable.keeps_ended (fun h => h) hid hopen
    fun t ht _ time prior stored hstored => ?_
  obtain ⟨new, hnew⟩ := W.extends_start ht.keeps
  rw [← hnew]
  refine ⟨.snapshot .finalize prior stored :: new, rfl, .finalize, prior, stored,
    (.head _) .., ?_⟩
  rw [hstored.status]
  exact hstatus

lemma bind_ended [W.Endable] {α β : Type} {p : M α} {f : α → M β}
    (hp : Attends o W w p fun _ t => W.Ended t) : Attends o W w (p.bind f) fun _ t => W.Ended t :=
  bind hp fun _ _ _ h => of_ended h _

variable {next : Next}

lemma failWorkflow [W.Endable] {step : StepDef} {state : StepState} (hid : run.runID = W.runID)
    (hopen : ¬(run.status.isTerminal && run.completedAt.isSome) = true) :
    Attends o W w (o.failWorkflow next run step state) fun _ t => W.Ended t :=
  bind_ended (finalizeRun hid hopen rfl)

lemma outputSchemaViolation : Quiet (o.outputSchemaViolation run) fun r => ∀ stepID,
    r = some stepID → ∃ d, validateRunOutput o.schemaAccepts d run = some stepID := by
  refine Quiet.bind Quiet.loadDef.outcome fun x _ => ?_
  cases x with
  | error e => exact Quiet.pure nofun
  | ok d => exact Quiet.pure fun stepID h => ⟨d, h⟩

lemma completeWorkflow [W.Endable] (hid : run.runID = W.runID)
    (hopen : ¬(run.status.isTerminal && run.completedAt.isSome) = true) :
    Attends o W w (o.completeWorkflow next run) fun _ t => W.Ended t := by
  refine bind outputSchemaViolation.attends fun x t _ _ => ?_
  cases x with
  | some stepID => exact failWorkflow hid hopen
  | none => exact bind_ended (finalizeRun hid hopen rfl)

end Attends

end Dagnats
