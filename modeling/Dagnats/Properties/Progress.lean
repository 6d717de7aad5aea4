import Dagnats.Engine.Lineage
import Dagnats.Engine.Scenario
import Dagnats.Properties.Overdue

/-!
# Progress after a completion

The completion of a step is recorded in one save, and what becomes ready by it
is dispatched in another. A handler that has its run to itself and comes to its
end leaves no step behind that nothing holds up, except for a step that is to be
skipped, and except where the dispatch has completed a respond step, whose own
completion goes on from there.
-/

namespace Dagnats

open Interaction

variable {step : StepDef} {site : Site} {plan : DispatchPlan} {ready : List StepDef}
  {fragment : List StepDef} {prior : Option ℕ} {id stepID : String} {W : Watch}
  {stored : WorkflowRun} {run run' : WorkflowRun} {o : Orchestrator} {d : WorkflowDef} {e : Event}

/-- The sites that record the completion of a step that its worker reports. -/
def recordsCompletion : Site → Bool
  | .stepCompleted | .plannerEmpty | .plannerFragment => true
  | _ => false

def RecordedSince (start ws : List Entry) : Prop :=
  ∃ newer site prior run older, ws = newer ++ .snapshot site prior run :: older ∧
    start <:+ older ∧ recordsCompletion site = true

def DispatchedSince (start ws : List Entry) : Prop :=
  ∃ newer prior run older base, ws = newer ++ .snapshot .enqueue prior run :: older ∧
    start <:+ older ∧ lastRun older = some base ∧
    ∀ id, (run.step id).status = .completed → (base.step id).status = .completed

section Phases

variable {start ws : List Entry}

section

variable (h : RecordedSince start ws)
include h

lemma RecordedSince.cons (e : Entry) :
    RecordedSince start (e :: ws) := by
  obtain ⟨newer, site, prior, run, older, rfl, hrest⟩ := h
  exact ⟨e :: newer, site, prior, run, older, rfl, hrest⟩

lemma RecordedSince.suffix : start <:+ ws := by
  obtain ⟨newer, site, prior, run, older, rfl, hstart, -⟩ := h
  exact (hstart.trans (List.suffix_cons _ _)).trans (List.suffix_append _ _)

lemma RecordedSince.length_lt : start.length < ws.length := by
  obtain ⟨newer, site, prior, run, older, rfl, hstart, -⟩ := h
  have hle := hstart.length_le
  simp only [List.length_append, List.length_cons]
  omega

end

lemma dispatchedSince_cons (h : DispatchedSince start (.snapshot site prior run :: ws)) :
    DispatchedSince start ws ∨ (site = .enqueue ∧ ∃ base, lastRun ws = some base ∧
      ∀ id, (run.step id).status = .completed → (base.step id).status = .completed) := by
  obtain ⟨newer, prior', run', older, base, heq, hstart, hlast, hclean⟩ := h
  cases newer with
  | nil =>
    obtain ⟨heq, rfl⟩ := List.cons.inj heq
    cases heq
    exact .inr ⟨rfl, base, hlast, hclean⟩
  | cons e newer =>
    obtain ⟨-, rfl⟩ := List.cons.inj heq
    exact .inl ⟨newer, prior', run', older, base, rfl, hstart, hlast, hclean⟩

lemma not_dispatchedSince_self : ¬DispatchedSince start start := by
  rintro ⟨newer, prior, run, older, base, heq, hstart, -⟩
  have hlength := congrArg List.length heq
  have hle := hstart.length_le
  simp only [List.length_append, List.length_cons] at hlength
  omega

lemma tolerant_not_dispatched : Tolerant fun ws => ¬DispatchedSince start ws := by
  intro ws site prior stored run hsite _ _ hws hdispatched
  rcases dispatchedSince_cons hdispatched with h | ⟨rfl, -⟩
  · exact hws h
  · cases hsite

end Phases

/-! ## The handling of a completion -/

def completedRun (run : WorkflowRun) (stepID : String) (payload : Raw) : WorkflowRun :=
  run.setStep stepID { run.step stepID with status := .completed, output := payload }

/-- The snapshot that the completion of a step leads to: one round of skips, and
the recovery. -/
def concludes (d : WorkflowDef) (run : WorkflowRun) (id : String) (output : Raw) : WorkflowRun :=
  recoverIfOnFailure d (resolveSkips d (completedRun run id output)) id

def Fences (d : WorkflowDef) (run : WorkflowRun) (e : Event) : Prop :=
  (findStepDef (effectiveDef d run) e.stepID).map (·.type) ≠ some .respond

/-- The fence accepts the completion `e` for a running `run` of `d`, which is not
about a compensation step, and not about a planner of a run that has generated
steps already. -/
structure Completing (o : Orchestrator) (d : WorkflowDef) (run : WorkflowRun)
    (e : Event) : Prop where
  type : e.type = .stepCompleted
  plain : isMapInstanceID e.stepID = false
  fenced : Fences d run e
  accepted : acceptStepEvent (run.step e.stepID) e o.legacyStepEvents = none
  forward : isCompensation (effectiveDef d run) e.stepID = false
  first : (findStepDef (effectiveDef d run) e.stepID).map (·.type) = some .planner →
    run.dynamicSteps = []

instance (o : Orchestrator) (d : WorkflowDef) (run : WorkflowRun) (e : Event) :
    Decidable (Completing o d run e) :=
  decidable_of_iff (e.type = .stepCompleted ∧ isMapInstanceID e.stepID = false ∧
      (findStepDef (effectiveDef d run) e.stepID).map (·.type) ≠ some .respond ∧
      acceptStepEvent (run.step e.stepID) e o.legacyStepEvents = none ∧
      isCompensation (effectiveDef d run) e.stepID = false ∧
      ((findStepDef (effectiveDef d run) e.stepID).map (·.type) = some .planner →
        run.dynamicSteps.isEmpty = true))
    ⟨fun ⟨htype, hplain, hfenced, hacc, hforward, hfirst⟩ =>
        ⟨htype, hplain, hfenced, hacc, hforward, fun h =>
          List.isEmpty_iff.mp (hfirst h)⟩,
      fun h => ⟨h.type, h.plain, h.fenced, h.accepted, h.forward, fun h' =>
        List.isEmpty_iff.mpr (h.first h')⟩⟩

/-- The run goes on under the definition it is pinned to. -/
structure Underway (o : Orchestrator) (d : WorkflowDef) (run : WorkflowRun) : Prop where
  running : run.status = .running
  unfinished : run.completedAt = none
  pins : Pins o run d

lemma Underway.alike (h : Underway o d run) (hlike : Alike run run') : Underway o d run' :=
  ⟨hlike.status.trans h.running, hlike.completedAt.trans h.unfinished, h.pins.congr hlike.defHash⟩

lemma Underway.sameRun (h : Underway o d run) (hsame : SameRun run run') : Underway o d run' :=
  ⟨hsame.status.trans h.running, hsame.completedAt.trans h.unfinished, h.pins.congr hsame.defHash⟩

lemma Fences.congr (h : Fences d run e) (hdyn : run'.dynamicSteps = run.dynamicSteps) :
    Fences d run' e := by
  unfold Fences
  rw [effectiveDef_congr hdyn]
  exact h

/-- How far the writes of the run have come since `start`. An event without an
identity is accepted again and again; nothing is said of what is stored once
its completion has been. -/
inductive Phase (o : Orchestrator) (d : WorkflowDef) (e : Event)
    (start ws : List Entry) : Prop where
  | ended : EndedSince start ws → Phase o d e start ws
  | untouched : Tended start ws → Phase o d e start ws
  | recorded : RecordedSince start ws →
      (e.hasIdentity = true → ∃ run, lastRun ws = some run ∧ Underway o d run ∧
        Fences d run e ∧ (run.step e.stepID).status = .completed ∧
        (DispatchedSince start ws → Progressed (effectiveDef d run) run)) →
      Phase o d e start ws

/-- The watch over the handling of `e`, which begins in `base`. -/
def completing (o : Orchestrator) (d : WorkflowDef) (e : Event) (base : World) : Watch where
  runID := e.runID
  base := base
  keeps := Phase o d e (base.writes e.runID)
  extends_start h := by
    cases h with
    | ended h | untouched h | recorded h _ => exact h.suffix
  keeps_tended := by
    intro ws site prior stored run hsite hlast hlike h
    cases h with
    | ended h => exact .ended (h.cons _)
    | untouched h => exact .untouched (.write h hsite hlast hlike)
    | recorded hrecorded hrun =>
      refine .recorded (hrecorded.cons _) fun hidentity => ?_
      obtain ⟨last, hlast', hunderway, hfences, hcompleted, hprogress⟩ := hrun hidentity
      rw [hlast] at hlast'
      cases hlast'
      refine ⟨run, rfl, hunderway.alike hlike, hfences.congr hlike.dynamicSteps,
        (hlike.stepStatus _).trans hcompleted, fun hdispatched => ?_⟩
      rw [effectiveDef_congr hlike.dynamicSteps]
      rcases dispatchedSince_cons hdispatched with h | ⟨rfl, -⟩
      · exact (hprogress h).alike hlike
      · cases hsite

instance (o : Orchestrator) (d : WorkflowDef) (e : Event) (base : World) :
    (completing o d e base).Endable :=
  ⟨.ended⟩

def Watch.Responded (W : Watch) (d : WorkflowDef) (w : World) : Prop :=
  ∃ run s, lastRun (w.writes W.runID) = some run ∧ s ∈ (effectiveDef d run).steps ∧
    s.type = .respond ∧ (run.step s.id).status = .completed ∧ W.Awaits w s.id

/-- What a handling that came to its end has reached. -/
def Watch.Reached (W : Watch) (d : WorkflowDef) (w : World) : Prop :=
  W.Ended w ∨ W.Responded d w ∨ ∃ run, lastRun (w.writes W.runID) = some run ∧
    Progressed (effectiveDef d run) run

/-- A copy that `enqueueReady` is called with. -/
structure Due (W : Watch) (o : Orchestrator) (d : WorkflowDef) (e : Event)
    (w : World) (run : WorkflowRun) : Prop where
  synced : Synced W w run
  underway : Underway o d run
  nodup : ((effectiveDef d run).steps.map (·.id)).Nodup
  fences : Fences d run e
  completed : (run.step e.stepID).status = .completed
  recorded : RecordedSince (W.base.writes W.runID) (w.writes W.runID)
  undispatched : ¬DispatchedSince (W.base.writes W.runID) (w.writes W.runID)

section Handling

variable {base w t : World} {next : Next}

lemma Due.tended (h : Due W o d e w run) (ht : Tended (w.writes W.runID) (t.writes W.runID))
    (hlike : Alike run run') : Due W o d e t run' := by
  refine ⟨(h.synced.tended ht).alike hlike, h.underway.alike hlike, ?_,
    h.fences.congr hlike.dynamicSteps, (hlike.stepStatus _).trans h.completed,
    ht.tolerant (fun _ _ _ h => h.cons _) h.recorded,
    ht.tolerant tolerant_not_dispatched h.undispatched⟩
  rw [effectiveDef_congr hlike.dynamicSteps]
  exact h.nodup

lemma Underway.open (h : Underway o d run) :
    ¬(run.status.isTerminal && run.completedAt.isSome) = true := by
  simp [h.unfinished]

lemma Synced.reached (h : Synced W w run) (hprogress : Progressed (effectiveDef d run) run) :
    W.Reached d w := by
  obtain ⟨stored, hstored, hlike⟩ := h.stored
  refine .inr (.inr ⟨stored, hstored, ?_⟩)
  rw [← effectiveDef_congr hlike.dynamicSteps]
  exact hprogress.alike hlike.symm

/-- The program reaches what is promised if it comes to its end. -/
abbrev Arrives (o : Orchestrator) (d : WorkflowDef) (e : Event) (base w : World)
    (p : M Unit) : Prop :=
  Attends o (completing o d e base) w p fun _ t => (completing o d e base).Reached d t

/-- So does the recursion of `enqueueReady`. -/
def NextReaches (o : Orchestrator) (d : WorkflowDef) (e : Event) (base : World)
    (next : Next) : Prop :=
  ∀ w run, Due (completing o d e base) o d e w run →
    Arrives o d e base w (next (effectiveDef d run) run)

lemma Attends.runDispatchPlan (hnext : NextReaches o d e base next)
    (hsynced : Synced (completing o d e base) w run) (hunderway : Underway o d run)
    (hprogress : ¬plan.Completes → Progressed (effectiveDef d run) run)
    (hresponds : ∀ id body, (id, .respond body) ∈ plan.effects →
      ∃ s ∈ (effectiveDef d run).steps, s.id = id ∧ s.type = .respond ∧
        (run.step s.id).status = .completed)
    (hdue : plan.continueRun = true → Due (completing o d e base) o d e w run) :
    Arrives o d e base w (o.runDispatchPlan next (effectiveDef d run) run plan) := by
  refine bind (sendPlan hsynced.runID) fun x t _ hx => ?_
  obtain ⟨sent, sendErr⟩ := x
  obtain ⟨hwt, hconceivable, hawaits⟩ := hx
  refine Safe.bind (Tends.markSent (hsynced.apart hwt)).outcome.attends (fun y u _ hgrows hy => ?_)
    fun _ _ _ _ he => he
  obtain ⟨⟨hsaved, hfinal⟩, htu⟩ := hy
  cases y with
  | error err =>
    refine fail fun heq => ?_
    have hjoin := Err.join_finalized hconceivable fun he => hfinal (he ▸ rfl)
    cases hcase : Err.join sendErr (some err) with
    | none => exact Err.join_some sendErr err hcase
    | some e' =>
      rw [hcase] at heq hjoin
      exact hjoin (congrArg some heq)
  | ok run' =>
    have hlike : Alike run run' := hsaved run' rfl
    have hsynced' : Synced (completing o d e base) u run' :=
      ((hsynced.apart hwt).tended htu).alike hlike
    have hsame : effectiveDef d run' = effectiveDef d run := effectiveDef_congr hlike.dynamicSteps
    cases sendErr with
    | some err => exact fail fun he => hconceivable (congrArg some he)
    | none =>
      refine ite (fun hstop => pure fun v _ huv => ?_) fun hcontinue => ?_
      · by_cases hcompletes : plan.Completes
        · rcases hcompletes with ⟨id, body, hmem⟩ | hcontinue
          · obtain ⟨s, hs, rfl, htype, hstatus⟩ := hresponds id body hmem
            obtain ⟨stored, hstored, halike⟩ := (hsynced'.apart huv).stored
            have hpublished := hawaits rfl s.id body hmem
            refine .inr (.inl ⟨stored, s, hstored, ?_, htype, ?_,
              hpublished.mono (hgrows.trans huv.log)⟩)
            · rw [← effectiveDef_congr halike.dynamicSteps, hsame]
              exact hs
            · rw [← halike.stepStatus, hlike.stepStatus]
              exact hstatus
          · simp [hcontinue] at hstop
        · refine (hsynced'.apart huv).reached ?_
          rw [hsame]
          exact (hprogress hcompletes).alike hlike
      · have hdue' : Due (completing o d e base) o d e u run' := by
          have hbefore := hdue (by simpa using hcontinue)
          exact hbefore.tended (hwt.writes ▸ htu) hlike
        refine ite (fun _ => ?_) fun _ => hsame ▸ hnext u run' hdue'
        exact (completeWorkflow hsynced'.runID
          (hunderway.alike hlike).open).conseq fun _ _ _ h => .inl h

lemma publishStepQueuedEvents_quiet : Silent (publishStepQueuedEvents run ready) :=
  Quiet.fold trivial fun _ _ _ _ =>
    Quiet.ite (fun _ => Quiet.publishEvent.ignoring) fun _ => Quiet.ends

section

variable (h : Due (completing o d e base) o d e w run)
  (hres : resolveReadySteps (effectiveDef d run) run = .ready run' ready)
include h hres

lemma Due.keeps_enqueue {saved : WorkflowRun}
    (hdisp : Dispatched (effectiveDef d run) ready run saved plan) (hlike : Alike saved stored) :
    (completing o d e base).keeps
      (.snapshot .enqueue prior stored :: w.writes (completing o d e base).runID) := by
  obtain ⟨hcompleted, hprogressed, -⟩ := hdisp.alike hlike
  refine .recorded (h.recorded.cons _) fun _ => ⟨stored, rfl, ?_,
    h.fences.congr (hlike.dynamicSteps.trans hdisp.dynamicSteps),
    hcompleted _ h.completed, fun hdispatched => ?_⟩
  · exact (h.underway.sameRun hdisp.same).alike hlike
  · rw [effectiveDef_congr (hlike.dynamicSteps.trans hdisp.dynamicSteps)]
    rcases dispatchedSince_cons hdispatched with h' | ⟨-, last, hlast, hclean⟩
    · exact absurd h' h.undispatched
    · obtain ⟨last', hlast', hsame⟩ := h.synced.stored
      rw [hlast'] at hlast
      cases hlast
      refine hprogressed fun s hs hstatus => ready_not_completed hres hs ?_
      exact (hsame.stepStatus s.id).trans (hclean s.id hstatus)

/-- A dispatch that completes a step itself does not count as one. -/
lemma Due.saved {planned saved : WorkflowRun}
    (hdisp : Dispatched (effectiveDef d run) ready run planned plan)
    (hsaved : SavedAt (completing o d e base) w .enqueue planned saved t)
    (hcontinue : plan.continueRun = true) : Due (completing o d e base) o d e t saved := by
  obtain ⟨prior, stored, hlike, htended⟩ := hsaved.writes
  have hid : planned.runID = (completing o d e base).runID :=
    hdisp.same.runID.trans h.synced.runID
  have hsame : effectiveDef d saved = effectiveDef d run :=
    effectiveDef_congr (hsaved.alike.dynamicSteps.trans hdisp.dynamicSteps)
  refine ⟨hsaved.synced hid, ?_, hsame ▸ h.nodup,
    h.fences.congr (hsaved.alike.dynamicSteps.trans hdisp.dynamicSteps),
    (hdisp.alike hsaved.alike).1 _ h.completed,
    htended.tolerant (fun _ _ _ h => h.cons _) (h.recorded.cons _),
    htended.tolerant tolerant_not_dispatched fun hdispatched => ?_⟩
  · exact (h.underway.sameRun hdisp.same).alike hsaved.alike
  · rcases dispatchedSince_cons hdispatched with h' | ⟨-, last, hlast, hclean⟩
    · exact h.undispatched h'
    · obtain ⟨last', hlast', halike⟩ := h.synced.stored
      rw [hlast'] at hlast
      cases hlast
      obtain ⟨s, hs, hstatus⟩ := (hdisp.alike hlike).2.2 hcontinue
      refine ready_not_completed hres hs ?_
      exact (halike.stepStatus s.id).trans (hclean s.id hstatus)

end

lemma Attends.enqueueReadyWith (hnext : NextReaches o d e base next) :
    NextReaches o d e base (o.enqueueReadyWith next) := by
  intro w run hdue
  have hid := hdue.synced.runID
  unfold Orchestrator.enqueueReadyWith
  split
  · next run' hres =>
    have hsame : SameRun run run' :=
      resolveReadySteps_complete hres ▸ resolveSkips_sameRun _ run
    exact (completeWorkflow (hsame.runID.trans hid)
      (hdue.underway.sameRun hsame).open).conseq fun _ _ _ h => .inl h
  · next hres =>
    exact pure fun t _ hwt => (hdue.synced.apart hwt).reached (progressed_of_full hres)
  · next run' ready hres =>
    refine ite (fun hempty => ?_) fun _ => ?_
    · rw [List.isEmpty_iff] at hempty
      subst hempty
      exact pure fun t _ hwt => (hdue.synced.apart hwt).reached
        (progressed_of_nothing_ready hdue.nodup hres)
    obtain ⟨hrun', hready⟩ := resolveReadySteps_ready hres
    have hnodup := ready_nodup hdue.nodup hres
    refine bind Quiet.markQueuedAll.attends fun run₂ t _ hrun₂ => ?_
    obtain ⟨⟨honly, -, hqueued, hcounted⟩, hwt⟩ := hrun₂
    have hcount := hcounted hnodup fun s hs => not_atWork_of_open (hready s hs).2
    have hsame : SameRun run run₂ :=
      (hrun' ▸ resolveSkips_sameRun _ run : SameRun run run').trans honly.sameRun
    have hwork : ∀ s ∈ ready, (run₂.step s.id).atWork = true := fun s hs => by
      simp [StepState.atWork, hqueued s hs]
    refine bind (outcome (planDispatch (by exact hsame.runID.trans hid)
      (by exact (hdue.underway.sameRun hsame).open) (fun _ _ _ => inferInstance) hnodup
      (by exact hwork)))
      fun r u _ hr => ?_
    obtain ⟨hplanned, hended⟩ := hr
    split
    · exact pure fun v _ huv => .inl ((hended rfl).apart huv)
    · next err hne => exact fail hne
    · next planned plan =>
      obtain ⟨hplan, htu⟩ := hplanned _ rfl
      have hdisp := Dispatched.of_planning hres honly hcount hplan
      have hdue' : Due (completing o d e base) o d e u run :=
        hdue.tended ((hwt.trans htu).writes ▸ .refl) (.refl run)
      refine bind (saveSnapshot (hdisp.same.runID.trans hid) fun prior stored hlike =>
        hdue'.keeps_enqueue hres hdisp hlike) fun saved v _ hsaved => ?_
      refine bind publishStepQueuedEvents_quiet.attends fun _ x _ hvx => ?_
      have heq : effectiveDef d saved = effectiveDef d run :=
        effectiveDef_congr (hsaved.alike.dynamicSteps.trans hdisp.dynamicSteps)
      rw [← heq]
      refine runDispatchPlan hnext ((hsaved.synced (hdisp.same.runID.trans hid)).apart hvx.2)
        ((hdue.underway.sameRun hdisp.same).alike hsaved.alike) ?_ ?_ ?_
      · intro hcompletes
        rw [heq]
        exact (hdisp.progressed (hdisp.clean hcompletes)).alike hsaved.alike
      · intro id body hmem
        obtain ⟨s, hs, hid', htype, hstatus⟩ := hdisp.responds id body hmem
        refine ⟨s, ?_, hid', htype, (hsaved.alike.stepStatus s.id).trans hstatus⟩
        rw [heq]
        exact (hready s hs).1
      · intro hcontinue
        exact (hdue'.saved hres hdisp hsaved hcontinue).tended
          (hvx.2.writes ▸ .refl) (.refl saved)

lemma Attends.enqueueDepth (depth : ℕ) : NextReaches o d e base (o.enqueueDepth depth) := by
  induction depth with
  | zero => exact fun w run _ => fail (by simp)
  | succ depth ih => exact enqueueReadyWith ih

/-- A copy in which the completion is recorded, to be saved for the first time. -/
structure Concluded (o : Orchestrator) (d : WorkflowDef) (e : Event) (base w : World)
    (run : WorkflowRun) : Prop where
  runID : run.runID = e.runID
  unfinished : run.completedAt = none
  pins : Pins o run d
  nodup : ((effectiveDef d run).steps.map (·.id)).Nodup
  fences : Fences d run e
  completed : (run.step e.stepID).status = .completed
  tended : Tended (base.writes e.runID) (w.writes e.runID)

section

variable (h : Concluded o d e base w run)
include h

lemma Concluded.open : ¬(run.status.isTerminal && run.completedAt.isSome) = true := by
  simp [h.unfinished]

lemma Concluded.apart (hwt : Apart e.runID w t) : Concluded o d e base t run :=
  { h with tended := hwt.writes ▸ h.tended }

/-- The save of a completion keeps the watch, and there is something to dispatch
after it. -/
lemma Attends.saveConcluded (hstatus : run.status = .running)
    (hsite : recordsCompletion site = true) :
    Attends o (completing o d e base) w (Dagnats.saveSnapshot site run) fun saved t =>
      Due (completing o d e base) o d e t saved ∧ effectiveDef d saved = effectiveDef d run := by
  have hunderway : Underway o d run := ⟨hstatus, h.unfinished, h.pins⟩
  have hrecorded : ∀ prior stored, RecordedSince (base.writes e.runID)
      (.snapshot site prior stored :: w.writes e.runID) := fun prior stored =>
    ⟨[], site, prior, stored, _, rfl, h.tended.suffix, hsite⟩
  have hnone : ∀ prior stored, ¬DispatchedSince (base.writes e.runID)
      (.snapshot site prior stored :: w.writes e.runID) := by
    intro prior stored hdispatched
    rcases dispatchedSince_cons hdispatched with h' | ⟨rfl, -⟩
    · exact h.tended.tolerant tolerant_not_dispatched not_dispatchedSince_self h'
    · cases hsite
  refine (saveSnapshot (W := completing o d e base) h.runID
    fun prior stored hlike => ?_).conseq fun saved t _ hsaved => ?_
  · refine .recorded (hrecorded prior stored) fun _ => ⟨stored, rfl, hunderway.alike hlike,
      h.fences.congr hlike.dynamicSteps, (hlike.stepStatus _).trans h.completed, fun h' => ?_⟩
    exact absurd h' (hnone prior stored)
  · obtain ⟨prior, stored, -, htended⟩ := hsaved.writes
    have hsame : effectiveDef d saved = effectiveDef d run :=
      effectiveDef_congr hsaved.alike.dynamicSteps
    refine ⟨⟨hsaved.synced h.runID, hunderway.alike hsaved.alike, hsame ▸ h.nodup,
      h.fences.congr hsaved.alike.dynamicSteps, (hsaved.alike.stepStatus _).trans h.completed,
      htended.tolerant (fun _ _ _ h => h.cons _) (hrecorded prior stored),
      htended.tolerant tolerant_not_dispatched (hnone prior stored)⟩, hsame⟩

lemma Attends.finishOrEnqueue {d' : WorkflowDef} (hd : effectiveDef d run = d')
    (hstatus : isComplete d' (completedSet run) = false → run.status = .running)
    (hsite : recordsCompletion site = true) :
    Arrives o d e base w (o.finishOrEnqueue d' run site) := by
  subst hd
  refine ite (fun _ => ?_) fun hincomplete => ?_
  · exact (completeWorkflow h.runID h.open).conseq fun _ _ _ h => .inl h
  · refine bind (saveConcluded h (hstatus (by simpa using hincomplete)) hsite)
      fun saved t _ hsaved => ?_
    rw [← hsaved.2]
    exact enqueueDepth _ t saved hsaved.1

end

/-- The copy that the fence hands on for the event `e`. -/
structure Admitted (o : Orchestrator) (d : WorkflowDef) (e : Event) (base w : World)
    (run : WorkflowRun) : Prop where
  runID : run.runID = e.runID
  underway : Underway o d run
  nodup : ((effectiveDef d run).steps.map (·.id)).Nodup
  fences : Fences d run e
  tended : Tended (base.writes e.runID) (w.writes e.runID)

/-- The completion of the step and whatever else leaves the step completed. -/
lemma Admitted.concluded (h : Admitted o d e base w run) (hid : run'.runID = run.runID)
    (hfinal : run'.completedAt = run.completedAt) (hhash : run'.defHash = run.defHash)
    (hdyn : run'.dynamicSteps = run.dynamicSteps)
    (hcompleted : (run'.step e.stepID).status = .completed) : Concluded o d e base w run' :=
  ⟨hid.trans h.runID, hfinal.trans h.underway.unfinished, h.underway.pins.congr hhash,
    effectiveDef_congr hdyn ▸ h.nodup, h.fences.congr hdyn, hcompleted, h.tended⟩

lemma isComplete_recoverIfOnFailure (h : isComplete d (completedSet run) = true) :
    isComplete d (completedSet (recoverIfOnFailure d run stepID)) = true := by
  simp only [isComplete, List.all_eq_true, Bool.or_eq_true] at h ⊢
  exact fun s hs => (h s hs).imp_left completedSet_recoverIfOnFailure

/-- The copy that the handler of a completion makes of the copy `run`. -/
structure Drafts (d : WorkflowDef) (run : WorkflowRun) (e : Event) (copy : WorkflowRun) :
    Prop where
  runID : copy.runID = run.runID
  completedAt : copy.completedAt = run.completedAt
  defHash : copy.defHash = run.defHash
  dynamicSteps : copy.dynamicSteps = run.dynamicSteps
  work : SameWork (concludes d run e.stepID e.payload) copy
  status : isComplete d (completedSet copy) = false → copy.status = run.status

lemma Drafts.completed {copy : WorkflowRun} (h : Drafts d run e copy) :
    (copy.step e.stepID).status = .completed := by
  have hdone : ((resolveSkips d (completedRun run e.stepID e.payload)).step e.stepID).status =
      .completed := by
    rw [step_resolveSkips_of_closed (.inl (by simp [completedRun]))]
    simp [completedRun]
  rw [h.work.status]
  rcases step_recoverIfOnFailure d (resolveSkips d (completedRun run e.stepID e.payload))
    e.stepID e.stepID with hsame | ⟨hno, -⟩ | ⟨hno, -⟩
  · exact (congrArg StepState.status hsame).trans hdone
  · simp [hdone] at hno
  · simp [hdone] at hno

/-- `Advance` declares the run complete only where every step is resolved. -/
lemma advanceCompleted_quiet :
    Quiet (advanceCompleted d run e.stepID e.payload) fun run' =>
      Drafts d run e (recoverIfOnFailure d run' e.stepID) := by
  let done := resolveSkips d (completedRun run e.stepID e.payload)
  have hdrafts : ∀ status, (isComplete d (completedSet done) = false → status = run.status) →
      Drafts d run e (recoverIfOnFailure d { done with status := status } e.stepID) := by
    intro status hstatus
    have hsame := recoverIfOnFailure_sameRun d { done with status := status } e.stepID
    have hskips : SameRun (completedRun run e.stepID e.payload) done := resolveSkips_sameRun d _
    refine ⟨hsame.runID.trans hskips.runID, hsame.completedAt.trans hskips.completedAt,
      hsame.defHash.trans hskips.defHash, ?_, ?_, fun hopen => hsame.status.trans (hstatus ?_)⟩
    · exact (recoverIfOnFailure_dynamicSteps ..).trans (markSkipped_dynamicSteps ..)
    · have hwork : SameWork done { done with status := status } := fun _ => rfl
      exact hwork.recoverIfOnFailure
    · by_contra hcomplete
      rw [Bool.not_eq_false] at hcomplete
      have hkept : isComplete d (completedSet (recoverIfOnFailure d { done with status := status }
          e.stepID)) = true := isComplete_recoverIfOnFailure hcomplete
      exact absurd (hkept.symm.trans hopen) (by decide)
  refine Quiet.ite (fun hcomplete => ?_) fun _ => Quiet.ite (fun _ => ?_) fun _ => Quiet.panic
  · refine Quiet.pure (hdrafts .completed fun h => ?_)
    exact absurd (hcomplete.symm.trans h) (by decide)
  · exact Quiet.pure (hdrafts done.status fun _ => (resolveSkips_sameRun d _).status)

/-- The handler of a completion, up to the decision on what to do with its copy. -/
lemma Attends.completeStep_of {J : Unit → World → Prop} {E : Err → World → Prop}
    (hE : ∀ e t, (e = .runFinalized → W.Ended t) → E e t) (hforward : isCompensation d e.stepID =
    false) (hrest : ∀ t copy, Apart W.runID w t → Drafts d run e copy →
      Safe (solo o W) (post J E) (o.finishOrEnqueue d copy .stepCompleted) t) :
    Safe (solo o W) (post J E) (o.completeStep d run e) w := by
  refine followed advanceCompleted_quiet.attends hE fun run₁ t _ hrun₁ => ?_
  refine followed Quiet.releaseTaskSlot.attends hE fun _ u _ hu => ?_
  refine followed Quiet.createBinding.attends hE fun _ v _ hv => ?_
  have hnot : (!d.isAux e.stepID || (findCompensateSource d e.stepID).isNone) = true := by
    unfold isCompensation at hforward
    cases haux : d.isAux e.stepID with
    | false => rfl
    | true => simpa [haux] using hforward
  have hforwards : Quiet (o.handleCompensateCompleted o.enqueueReady d
      (recoverIfOnFailure d run₁ e.stepID) e.stepID) fun b => b = false :=
    Quiet.ite (fun _ => Quiet.pure rfl) fun hno => absurd hnot hno
  refine followed hforwards.attends hE fun b x _ hx => ?_
  obtain ⟨rfl, hvx⟩ := hx
  exact hrest x _ (((hrun₁.2.trans hu.2).trans hv.2).trans hvx) hrun₁.1

lemma Attends.completeStep (h : Admitted o d e base w run)
    (hforward : isCompensation (effectiveDef d run) e.stepID = false) :
    Arrives o d e base w (o.completeStep (effectiveDef d run) run e) := by
  refine completeStep_of (fun _ _ he => he) hforward fun t copy hwt hcopy => ?_
  have hconcluded := (h.concluded hcopy.runID hcopy.completedAt hcopy.defHash hcopy.dynamicSteps
    hcopy.completed).apart hwt
  exact finishOrEnqueue hconcluded (effectiveDef_congr hcopy.dynamicSteps)
    (fun hopen => (hcopy.status hopen).trans h.underway.running)
    (show recordsCompletion .stepCompleted = true from rfl)

lemma effectiveDef_of_static (h : run.dynamicSteps = []) : effectiveDef d run = d := by
  simp [effectiveDef, h]

lemma findStepDef_effectiveDef (h : id ∈ d.steps.map (·.id)) :
    findStepDef (effectiveDef d run) id = findStepDef d id := by
  obtain ⟨s, hs, rfl⟩ := List.mem_map.mp h
  unfold findStepDef
  rw [effectiveDef_steps, List.find?_append]
  cases hfind : d.steps.find? fun s' => s'.id = s.id with
  | none => exact absurd (by simp) (List.find?_eq_none.mp hfind s hs)
  | some s' => rfl

lemma Attends.failPlannerStep {reason : String} (h : Concluded o d e base w run) :
    Arrives o d e base w (o.failPlannerStep run step reason) := by
  refine conseq ?_ fun _ _ _ hended => .inl hended
  exact failWorkflow (by exact h.runID) (by exact h.open)

section

variable (h : Concluded o d e base w run) (hstatus : run.status = .running)
  (hstatic : run.dynamicSteps = [])
include h hstatus hstatic

lemma Attends.applyFragment (hnodup : (fragment.map (·.id)).Nodup)
    (hnew : ∀ id ∈ fragment.map (·.id), id ∉ d.steps.map (·.id))
    (hstep : e.stepID ∈ d.steps.map (·.id)) :
    Arrives o d e base w (o.applyFragment d run step fragment) := by
  let start : WorkflowRun := { run with dynamicSteps := run.dynamicSteps ++ fragment }
  let grown := fragment.foldl (fun r s => r.setStep s.id {}) start
  have hsame : SameRun start grown :=
    sameRun_foldl _ (fun r (s : StepDef) => sameRun_setStep _) fragment start
  have hdyn : grown.dynamicSteps = fragment := by
    rw [Does.fragment_dynamicSteps fragment start]
    simp [start, hstatic]
  have hbefore := h.nodup
  rw [effectiveDef_of_static hstatic] at hbefore
  have hdistinct : ((effectiveDef d grown).steps.map (·.id)).Nodup := by
    rw [effectiveDef_steps, hdyn, List.map_append, List.nodup_append]
    refine ⟨hbefore, hnodup, ?_⟩
    rintro id hold _ hin rfl
    exact hnew id hin hold
  have hconcluded : Concluded o d e base w grown := by
    refine ⟨hsame.runID.trans h.runID, hsame.completedAt.trans h.unfinished,
      h.pins.congr hsame.defHash, hdistinct, ?_, ?_, h.tended⟩
    · have hbefore := h.fences
      unfold Fences at hbefore ⊢
      rwa [effectiveDef_of_static hstatic, ← findStepDef_effectiveDef hstep] at hbefore
    -- The steps of a fragment are new, so that the planner stays completed.
    rw [WorkflowRun.step_foldl_setStep fun hin => hnew _ hin hstep]
    exact h.completed
  refine bind (saveConcluded hconcluded (hsame.status.trans hstatus)
    (show recordsCompletion .plannerFragment = true from rfl)) fun saved t _ hsaved => ?_
  refine bind Quiet.publishEvent.ignoring.attends fun _ u _ hu => ?_
  exact enqueueDepth _ u saved (hsaved.1.tended (hu.2.writes ▸ .refl) (.refl saved))

lemma Attends.materializePlannerOutput (hstep : e.stepID ∈ d.steps.map (·.id)) :
    Arrives o d e base w (o.materializePlannerOutput d run step e.payload) := by
  unfold Orchestrator.materializePlannerOutput
  split
  · exact failPlannerStep h
  · split
    · exact failPlannerStep h
    · exact finishOrEnqueue h (effectiveDef_of_static hstatic) (fun _ => hstatus)
        (show recordsCompletion .plannerEmpty = true from rfl)
    · next fragment _ _ =>
      refine ite (fun _ => failPlannerStep h) fun _ => ?_
      dsimp only
      split
      · exact fail (by simp)
      · exact failPlannerStep h
      · next hvalid =>
        obtain ⟨hnodup, hnew⟩ := validateFragment_ids hvalid
        have hids := Does.wireEntrySteps_ids (namespaceFragment step.id fragment) step.id
        refine applyFragment h hstatus hstatic (hids ▸ hnodup) (fun id hid => ?_) hstep
        rw [hids] at hid
        obtain ⟨s, hs, rfl⟩ := List.mem_map.mp hid
        exact hnew s hs

end

lemma Attends.completePlannerStep (h : Admitted o d e base w run)
    (hstatic : run.dynamicSteps = []) (hstep : e.stepID ∈ d.steps.map (·.id)) :
    Arrives o d e base w (o.completePlannerStep d run step e) := by
  refine bind Quiet.releaseTaskSlot.attends fun _ t _ ht => ?_
  refine materializePlannerOutput (Concluded.apart ?_ ht.2) h.underway.running hstatic hstep
  exact h.concluded rfl rfl rfl rfl (by simp)

lemma Completing.alike (h : Completing o d run e) (hlike : Alike run run') :
    Completing o d run' e := by
  have hsame := effectiveDef_congr (d := d) hlike.dynamicSteps
  refine ⟨h.type, h.plain, h.fenced.congr hlike.dynamicSteps, ?_, hsame ▸ h.forward, ?_⟩
  · refine (hlike.field (fun s => acceptStepEvent s e o.legacyStepEvents)
      (fun _ => rfl) e.stepID).trans h.accepted
  · rw [hsame, hlike.dynamicSteps]
    exact h.first

/-- The copy that the fence hands on. -/
structure HandsOn (run run' : WorkflowRun) : Prop where
  same : SameRun run run'
  dynamicSteps : run'.dynamicSteps = run.dynamicSteps
  work : SameWork run run'

lemma fenceCompletion_quiet (h : Completing o d run e) :
    Quiet (o.fenceCompletion (findStepDef (effectiveDef d run) e.stepID) run e) fun r =>
    ∃ run', r = some run' ∧ HandsOn run run' := by
  refine Quiet.ite (fun hrespond => absurd hrespond h.fenced) fun _ => ?_
  refine Quiet.ite (fun _ => Quiet.panic) fun _ => Quiet.ite (fun _ => Quiet.panic)
    fun _ => Quiet.ite (fun hno => ?_) fun _ => ?_
  · rw [h.type] at hno
    cases hno
  · dsimp only
    rw [h.accepted]
    refine Quiet.pure ⟨_, rfl, ?_⟩
    have hfenced := fenced_of_accepted (by rw [h.type]; rfl) h.accepted
    cases hfenced with
    | accepted _ _ hsame hdyn hstep hother =>
      refine ⟨hsame, hdyn, fun id => ?_⟩
      by_cases hid : e.stepID = id
      · subst hid
        rw [hstep, adopted]
        split <;> rfl
      · -- Replacing the entry of the step makes the copies equal.
        have hset := congrArg (fun r => (r.step id).work) (hother {})
        dsimp only at hset
        rwa [WorkflowRun.step_setStep_of_ne _ _ hid, WorkflowRun.step_setStep_of_ne _ _ hid] at hset
    | passed hno _ =>
      rw [h.type] at hno
      cases hno

lemma fenceCompletion_rejects (hfences : Fences d run e) (htype : e.type = .stepCompleted)
    (hidentity : e.hasIdentity = true) (hcompleted : (run.step e.stepID).status = .completed) :
    Quiet (o.fenceCompletion (findStepDef (effectiveDef d run) e.stepID) run e) fun r => r =
    none := by
  refine Quiet.ite (fun hrespond => absurd hrespond hfences) fun _ => ?_
  refine Quiet.ite (fun _ => Quiet.panic) fun _ => Quiet.ite (fun _ => Quiet.panic)
    fun _ => Quiet.ite (fun hno => ?_) fun _ => ?_
  · rw [htype] at hno
    cases hno
  · have hreject : acceptStepEvent (run.step e.stepID) e o.legacyStepEvents = some .notRunning := by
      simp [acceptStepEvent, hidentity, hcompleted]
    dsimp only
    rw [hreject]
    exact Quiet.pure rfl

lemma Attends.loadPinned (hW : W.runID = e.runID)
    (hlast : lastRun (w.writes e.runID) = some stored) (hunderway : Underway o d stored) :
    Attends o W w (o.loadRunAndDef e.runID) fun x t => Apart e.runID w t ∧
    ∃ rev, x = (effectiveDef d stored, World.received rev stored) := by
  rw [← hW] at hlast ⊢
  refine loadRunAndDef.conseq fun x t _ hx => ?_
  obtain ⟨hwt, rev, stored', d', hlast', rfl, hhash⟩ := hx
  obtain rfl : stored' = stored := Option.some.inj (hlast'.symm.trans hlast)
  have hpin := hunderway.pins.hash
  have hnamed : stored'.defHash ≠ "" := fun hempty =>
    hunderway.pins.named (hpin.symm.trans hempty)
  obtain rfl := hunderway.pins.unique d' ((hhash hnamed).trans hpin)
  exact ⟨hwt, rev, rfl⟩

/-- The handler of a completion that the fence accepts, up to the completion itself. -/
lemma Attends.handleStepCompleted_of {J : Unit → World → Prop} {E : Err → World → Prop}
    (hE : ∀ e t, (e = .runFinalized → W.Ended t) → E e t) (hW : W.runID = e.runID)
    (hlast : lastRun (w.writes e.runID) = some stored) (hunderway : Underway o d stored)
    (hcompleting : Completing o d stored e)
    (hplanner : ∀ t rev run' s, Apart e.runID w t → HandsOn (World.received rev stored) run' →
      findStepDef (effectiveDef d stored) e.stepID = some s → s.type = .planner →
        Safe (solo o W) (post J E) (o.completePlannerStep (effectiveDef d stored) run' s e) t)
    (hrest : ∀ t rev run', Apart e.runID w t → HandsOn (World.received rev stored) run' →
      Safe (solo o W) (post J E) (o.completeStep (effectiveDef d stored) run' e) t) :
    Safe (solo o W) (post J E) (o.handleStepCompleted e) w := by
  unfold Orchestrator.handleStepCompleted
  split
  · exact fun t _ _ => hE _ t nofun
  refine followed (loadPinned hW hlast hunderway) hE fun x t _ hx => ?_
  obtain ⟨hwt, rev, rfl⟩ := hx
  let run := World.received rev stored
  have hrun : Alike stored run := .received rev stored
  have hcompl : Completing o d run e := hcompleting.alike hrun
  refine followed Quiet.lateEvent.attends hE fun late u _ hlate => ?_
  obtain ⟨rfl, htu⟩ := hlate
  rw [hW] at htu
  rw [if_neg (by simp [show (World.received rev stored).status = .running from
    hunderway.running, RunStatus.isTerminal]), if_neg (by simp [hcompl.plain])]
  refine followed (fenceCompletion_quiet hcompl).attends hE fun r v _ hr => ?_
  obtain ⟨⟨run', rfl, haccepted⟩, huv⟩ := hr
  rw [hW] at huv
  have hwv := (hwt.trans htu).trans huv
  dsimp only
  split
  · next s hfind =>
    split
    · next htype => exact hplanner v rev run' s hwv haccepted hfind htype
    · exact hrest v rev run' hwv haccepted
  · exact hrest v rev run' hwv haccepted

/-- Before the completion is recorded, a handling that comes to its end reaches
what is promised. -/
lemma Attends.handleStepCompleted {start : WorkflowRun}
    (hstart : lastRun (base.writes e.runID) = some start) (hid : start.runID = e.runID)
    (hunderway : Underway o d start) (hcompleting : Completing o d start e)
    (hnodup : ((effectiveDef d start).steps.map (·.id)).Nodup)
    (htended : Tended (base.writes e.runID) (w.writes e.runID)) :
    Arrives o d e base w (o.handleStepCompleted e) := by
  obtain ⟨stored, hstored, hlike⟩ := htended.lastRun hstart
  have hunder := hunderway.alike hlike
  have hcompl := hcompleting.alike hlike
  have hadmitted : ∀ t rev run', Apart e.runID w t → HandsOn (World.received rev stored) run' →
      effectiveDef d run' = effectiveDef d stored ∧ Admitted o d e base t run' := by
    intro t rev run' hwt haccepted
    have heq : effectiveDef d run' = effectiveDef d stored :=
      effectiveDef_congr haccepted.dynamicSteps
    refine ⟨heq, haccepted.same.runID.trans (hlike.runID.trans hid),
      (hunder.alike (.received rev stored)).sameRun haccepted.same, ?_,
      hcompl.fenced.congr haccepted.dynamicSteps, hwt.writes ▸ htended⟩
    rw [heq, effectiveDef_congr hlike.dynamicSteps]
    exact hnodup
  refine handleStepCompleted_of (fun _ _ he => he) rfl hstored hunder hcompl
    (fun t rev run' s hwt haccepted hfind htype => ?_) fun t rev run' hwt haccepted => ?_
  · have hstatic : stored.dynamicSteps = [] := hcompl.first (by rw [hfind]; simp [htype])
    have hdef : effectiveDef d stored = d := effectiveDef_of_static hstatic
    have hmem : e.stepID ∈ d.steps.map (·.id) := by
      rw [hdef] at hfind
      have hs := List.find?_some hfind
      simp only [decide_eq_true_eq] at hs
      exact hs ▸ List.mem_map_of_mem (List.mem_of_find?_eq_some hfind)
    rw [hdef]
    exact completePlannerStep (hadmitted t rev run' hwt haccepted).2
      (haccepted.dynamicSteps.trans hstatic) hmem
  · obtain ⟨heq, hadm⟩ := hadmitted t rev run' hwt haccepted
    rw [← heq]
    exact completeStep hadm (heq ▸ hcompl.forward)

/-- Once the completion is recorded, the fence drops the event. -/
lemma Attends.handleStepCompleted_again (hlast : lastRun (w.writes e.runID) = some run)
    (hunderway : Underway o d run) (hfences : Fences d run e) (htype : e.type = .stepCompleted)
    (hplain : isMapInstanceID e.stepID = false) (hidentity : e.hasIdentity = true)
    (hcompleted : (run.step e.stepID).status = .completed) :
    Attends o (completing o d e base) w (o.handleStepCompleted e) fun _ t => Apart e.runID w t := by
  refine ite (fun _ => fail (by simp)) fun _ => ?_
  refine bind (loadPinned (e := e) rfl hlast hunderway) fun x t _ hx => ?_
  obtain ⟨hwt, rev, rfl⟩ := hx
  refine bind Quiet.lateEvent.attends fun late u _ hlate => ?_
  obtain ⟨rfl, htu⟩ := hlate
  refine ite (fun _ => pure fun v _ huv => (hwt.trans htu).trans huv) fun _ =>
    ite (fun hmap => ?_) fun _ => ?_
  · rw [hplain] at hmap
    cases hmap
  let copy := World.received rev run
  have hrejects : Quiet (o.fenceCompletion (findStepDef (effectiveDef d copy) e.stepID)
      copy e) fun r => r = none :=
    fenceCompletion_rejects (hfences : Fences d copy e) htype hidentity hcompleted
  refine bind hrejects.attends fun r v _ hr => ?_
  obtain ⟨rfl, huv⟩ := hr
  exact pure fun x _ hvx => ((hwt.trans htu).trans huv).trans hvx

end Handling

/-! ## Stopping and starting the handler -/

section Restart

variable {base w : World} {start : WorkflowRun}

lemma safe_handleStepCompleted
    (hstart : lastRun (base.writes e.runID) = some start) (hid : start.runID = e.runID)
    (hunderway : Underway o d start) (hcompleting : Completing o d start e)
    (hnodup : ((effectiveDef d start).steps.map (·.id)).Nodup)
    (hw : (completing o d e base).Holds w) :
    Safe (solo o (completing o d e base)) (fun _ _ => True) (o.handleStepCompleted e) w := by
  have hkept : Phase o d e (base.writes e.runID) (w.writes e.runID) := hw.keeps
  cases hkept with
  | ended h =>
    exact Safe.conseq (Attends.of_ended (W := completing o d e base) h _) fun _ _ _ _ _ => trivial
  | untouched h =>
    exact Safe.conseq (Attends.handleStepCompleted hstart hid hunderway hcompleting
      hnodup h) fun _ _ _ _ _ => trivial
  | recorded hrecorded hrun =>
    by_cases hidentity : e.hasIdentity = true
    · obtain ⟨run, hlast, hrun⟩ := hrun hidentity
      exact Safe.conseq (Attends.handleStepCompleted_again hlast hrun.1 hrun.2.1
        hcompleting.type hcompleting.plain hidentity hrun.2.2.1)
        fun _ _ _ _ _ => trivial
    · refine Safe.conseq (safe_of_stable (W := completing o d e base)
        (P := RecordedSince (base.writes e.runID)) (fun entry h => h.cons entry)
        (fun h => ?_) hrecorded _) fun _ _ _ _ _ => trivial
      exact .recorded h fun h' => absurd h' hidentity

end Restart

/-! ## Handlings that leave a step behind -/

/-- In some run of a valid definition the handler of an accepted completion is
stopped and started again, comes to its end, and leaves an overdue step in a run
that goes on. -/
def Stalls (o : Orchestrator) (d : WorkflowDef) (e : Event) : Prop :=
  Valid o d ∧ ∃ (p : Pool o.system) (rev : ℕ) (run : WorkflowRun) (w₁ w₂ : World),
    Pool.Reaches Conditions.free (emptyPool o) p ∧
    p.state.latest e.runID = some (rev, run) ∧ run.status = .running ∧
    run.completedAt = none ∧ run.defHash = o.defHash d ∧ e.type = .stepCompleted ∧
    acceptStepEvent (run.step e.stepID) e o.legacyStepEvents = none ∧
    Retried o.system (Apart e.runID) (o.handleStepCompleted e) p.state w₁ ∧
    Runs o.system (Apart e.runID) w₁ (o.handleStepCompleted e) w₂ (.pure ()) ∧
    ∃ rev' run' s, w₂.latest e.runID = some (rev', run') ∧
      run'.status.isTerminal = false ∧ Overdue (effectiveDef d run') run' s

/-- The handler of `e`, stopped after `n` calls and started again. -/
def restarted (o : Orchestrator) (e : Event) (n : ℕ) (w : World) : Option World :=
  match Prog.play o.system World.calm n w (o.handleStepCompleted e) with
  | some (w₁, _) =>
    match Prog.play o.system World.calm 400 w₁ (o.handleStepCompleted e) with
    | some (w₂, .pure _) => some w₂
    | _ => none
  | none => none

lemma restarted_runs {n : ℕ} {w w₂ : World} (h : restarted o e n w = some w₂) : ∃ w₁,
    Retried o.system (Apart e.runID) (o.handleStepCompleted e) w w₁ ∧
    Runs o.system (Apart e.runID) w₁ (o.handleStepCompleted e) w₂ (.pure ()) := by
  unfold restarted at h
  split at h
  · next w₁ q hfirst =>
    split at h
    · next hsecond =>
      cases h
      exact ⟨w₁, .single ⟨q, Prog.play_runs Apart.refl hfirst⟩, Prog.play_runs Apart.refl hsecond⟩
    · cases h
  · cases h

/-- The run that the script leads to goes on under `d`, and the fence accepts
the completion `e` for it. -/
def awaiting (o : Orchestrator) (d : WorkflowDef) (e : Event) (run : WorkflowRun) : Bool :=
  run.status = .running && run.completedAt.isNone && run.defHash = o.defHash d && e.type =
    .stepCompleted && (acceptStepEvent (run.step e.stepID) e o.legacyStepEvents).isNone

def stallsAfter (o : Orchestrator) (d : WorkflowDef) (e : Event) (n : ℕ)
    (script : List (Order o.system)) : Bool :=
  ((emptyPool o).follow Checks.free script).any fun p =>
    (p.state.latest e.runID).any (fun x => awaiting o d e x.2) &&
    (restarted o e n p.state).any fun w => (w.latest e.runID).any fun x =>
      !x.2.status.isTerminal && !(overdueSteps (effectiveDef d x.2) x.2).isEmpty

lemma stalls_of_script (n : ℕ) (script : List (Order o.system)) (hvalid : Valid o d)
    (h : stallsAfter o d e n script = true) : Stalls o d e := by
  obtain ⟨p, hp, htest⟩ := Pool.exists_reaches_of_follow Checks.free_sound h
  rw [Bool.and_eq_true] at htest
  obtain ⟨⟨⟨rev, run⟩, hlatest, hrun⟩, hend⟩ :=
    And.intro ((Option.any_eq_true ..).mp htest.1) htest.2
  obtain ⟨w₂, hw₂, hstall⟩ := (Option.any_eq_true ..).mp hend
  obtain ⟨⟨rev', run'⟩, hlatest', hrun'⟩ := (Option.any_eq_true ..).mp hstall
  obtain ⟨w₁, hstopped, hdone⟩ := restarted_runs hw₂
  simp only [awaiting, Bool.and_eq_true, decide_eq_true_eq, Option.isNone_iff_eq_none] at hrun
  simp only [Bool.and_eq_true, Bool.not_eq_true', List.isEmpty_eq_false_iff] at hrun'
  obtain ⟨s, hs⟩ := List.exists_mem_of_ne_nil _ hrun'.2
  exact ⟨hvalid, p, rev, run, w₁, w₂, hp, hlatest, hrun.1.1.1.1, hrun.1.1.1.2, hrun.1.1.2, hrun.1.2,
    hrun.2, hstopped, hdone, rev', run', s, hlatest', hrun'.1, mem_overdueSteps_iff.mp hs⟩

namespace Restarts

/-- `b` comes after `a`. -/
def chain : WorkflowDef where
  name := "chain"
  steps := [{ id := "a", task := "work" }, { id := "b", task := "work", dependsOn := ["a"] }]

/-- The engine responds between `a` and `c`. -/
def responding : WorkflowDef where
  name := "responding"
  steps := [{ id := "a", task := "work" },
    { id := "answer", type := .respond, dependsOn := ["a"]
      config := .doc { status := 200 } },
    { id := "c", task := "work", dependsOn := ["answer"] }]

def unwanted : ParentCond where
  stepID := "a"
  field := "k"
  op := "=="
  value := .str "v"

/-- The output of `a` decides that both `b` and `c` are skipped. -/
def skipping : WorkflowDef where
  name := "skipping"
  steps := [{ id := "a", task := "work" }, { id := "x", task := "work" },
    { id := "b", task := "work", dependsOn := ["a"], skipIf := some unwanted },
    { id := "c", task := "work", dependsOn := ["a", "b"], skipIf := some unwanted }]

/-- Three steps that can be undone, before three that need them. -/
def saga : WorkflowDef where
  name := "saga"
  steps := [{ id := "a1", task := "work", compensate := "u1" },
    { id := "a2", task := "work", compensate := "u2" },
    { id := "a3", task := "work", compensate := "u3" },
    { id := "b", task := "work", dependsOn := ["a1", "a2", "a3"] },
    { id := "c", task := "work", dependsOn := ["a1", "a2", "a3"] },
    { id := "x", task := "work", dependsOn := ["a1", "a2", "a3"] },
    { id := "u1", task := "undo" }, { id := "u2", task := "undo" },
    { id := "u3", task := "undo" }]
  auxSteps := ["u1", "u2", "u3"]
  concurrency := some { maxSteps := 2 }

def planner (id : String) : StepDef where
  id := id
  task := "plan"
  type := .planner
  config := .doc { maxSteps := 5, maxDepth := 5, allowedTasks := ["work"] }

/-- Two planners next to a step. -/
def planners : WorkflowDef where
  name := "planners"
  steps := [planner "p1", planner "p2", { id := "x", task := "work" }]
  concurrency := some { maxSteps := 3 }

/-- The first planner generates two steps, the second one. -/
def planning : Orchestrator :=
  { Orchestrator.plain with
    decodeFragment := fun
      | .doc (.str "two") =>
        some [{ id := "g1", task := "work" }, { id := "g2", task := "work" }]
      | _ => some [{ id := "k", task := "work" }] }

/-- A worker completes its task. -/
def completed (stepID : String) (nonce : ℕ) (payload : Raw) : Event where
  type := .stepCompleted
  runID := "r"
  stepID := stepID
  payload := payload
  attemptNumber := 1
  iteration := some 0
  dispatchNonce := some nonce

def started (o : Orchestrator) (d : WorkflowDef) : List (Order o.system) :=
  [register d, publish { type := .workflowStarted, runID := "r"
                         start := .inline d .nil }] ++ perform (.handle 2)

/-- `b` fails; `c` completes, and so does the first step of the compensation. -/
def sagaScript : List (Order Orchestrator.plain.system) :=
  started _ saga ++ [publish (completed "a1" 5 .nil), publish (completed "a2" 6 .nil)] ++
  perform (.handle 13) ++ perform (.handle 14) ++ [publish (completed "a3" 16 .nil)] ++
  perform (.handle 22) ++
  [publish { completed "b" 24 .nil with type := .stepFailed }, publish (completed "c" 25 .nil)] ++
  perform (.handle 32) ++ perform (.handle 33) ++ [publish (completed "u3" 34 .nil)] ++
  perform (.handle 40)

/-- The engine that handles the completion of `x` stops right after its save. -/
def plannersScript : List (Order planning.system) :=
  started _ planners ++ [publish (completed "p1" 5 (.doc (.str "two"))),
    publish (completed "x" 7 .nil)] ++ perform (.handle 14) ++
  [.act (.start (.handle 15)), .drive World.calm 0 6, .act (.drop 0)]

end Restarts

end Dagnats
