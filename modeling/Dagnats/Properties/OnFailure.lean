import Dagnats.Properties.AuxSteps
import Dagnats.Properties.Deadlock
import Dagnats.Properties.PureCore

/-!
# Recovery by an on-failure step

The completion of an on-failure step recovers the first failed step that names it
and skips the steps right after it. A run whose failed steps each wait for an
on-failure step of their own goes on to its end; a second failed step that names
the same one is left behind.
-/

namespace Dagnats

open Interaction

variable {d : WorkflowDef} {run run' : WorkflowRun} {h id : String} {output : Raw} {s : StepDef}

section

variable (d : WorkflowDef)

def isAtWork (run : WorkflowRun) (id : String) : Prop :=
  (run.step id).status = .queued ∨ (run.step id).status = .running

instance : Decidable (isAtWork run id) :=
  inferInstanceAs (Decidable (_ ∨ _))

/-- One move of a run in which the steps at work complete. -/
inductive Resumes (d : WorkflowDef) : WorkflowRun → WorkflowRun → Prop where
  | skip {run : WorkflowRun} : skippedNow d run ≠ [] → Resumes d run (resolveSkips d run)
  | dispatch {run : WorkflowRun} {s : StepDef} :
      s ∈ resolveReady d (completedSet run) (queuedSet run) →
      Resumes d run (run.setStep s.id { run.step s.id with status := .queued })
  | start {run : WorkflowRun} {id : String} :
      id ∈ d.steps.map (·.id) → (run.step id).status = .queued →
      Resumes d run (run.setStep id { run.step id with status := .running })
  | complete {run : WorkflowRun} {id : String} (output : Raw) :
      id ∈ d.steps.map (·.id) → isAtWork run id →
      Resumes d run (concludes d run id output)

/-- However it moves, the run is complete after finitely many moves. -/
inductive Completes (d : WorkflowDef) : WorkflowRun → Prop where
  | complete {run : WorkflowRun} : isComplete d (completedSet run) = true → Completes d run
  | move {run : WorkflowRun} :
      (∃ run', Resumes d run run') → (∀ run', Resumes d run run' → Completes d run') →
      Completes d run

/-- The state of a run that goes on: no step is cancelled, no aux step has failed,
and no compensation is under way. -/
structure Resuming (run : WorkflowRun) : Prop where
  status : ∀ id, (run.step id).status ≠ .cancelled
  failed : ∀ id, (run.step id).status = .failed → d.isAux id = false
  forward : ∀ id, isAtWork run id → isCompensation d id = false

def covered (run : WorkflowRun) : Bool :=
  d.steps.all fun s => (run.step s.id).status ≠ .failed ||
    (s.onFailure ≠ "" && isAtWork run s.onFailure && d.steps.all fun s' =>
      (run.step s'.id).status ≠ .failed || s'.onFailure ≠ s.onFailure || s'.id = s.id)

instance : Decidable (Resuming d run) :=
  decidable_of_iff (∀ id ∈ run.steps.keys, (run.step id).status ≠ .cancelled ∧
      ((run.step id).status = .failed → d.isAux id = false) ∧
      (isAtWork run id → isCompensation d id = false)) <| by
    constructor
    · intro h
      have hidle : ∀ id, id ∉ run.steps.keys → (run.step id).status = .pending := fun id hid => by
        rw [step_of_not_has (by simpa [Table.mem_keys] using hid)]
      refine ⟨fun id => ?_, fun id => ?_, fun id => ?_⟩ <;> by_cases hid : id ∈ run.steps.keys
      · exact (h id hid).1
      · simp [hidle id hid]
      · exact (h id hid).2.1
      · simp [hidle id hid]
      · exact (h id hid).2.2
      · simp [isAtWork, hidle id hid]
    · exact fun h id _ => ⟨h.status id, h.failed id, h.forward id⟩

/-- No step is a planner, and none was generated by one. -/
def planless (run : WorkflowRun) : Bool :=
  run.dynamicSteps.isEmpty && d.steps.all (·.type ≠ .planner)

/-! ## What a move does -/

/-- What a move does to one step. -/
inductive Effects (d : WorkflowDef) (run run' : WorkflowRun) (id : String) : Prop where
  | same : (run'.step id).status = (run.step id).status → Effects d run run' id
  | skipped : (run.step id).status = .pending → (run'.step id).status = .skipped →
      id ∈ d.steps.map (·.id) → Effects d run run' id
  | dispatched : (run.step id).status = .pending → (run'.step id).status = .queued →
      id ∈ d.steps.map (·.id) → d.isAux id = false → Effects d run run' id
  | started : (run.step id).status = .queued → (run'.step id).status = .running →
      Effects d run run' id
  | completed : isAtWork run id → (run'.step id).status = .completed → Effects d run run' id
  | recovered : (run.step id).status = .failed → (run'.step id).status = .recovered →
      Effects d run run' id

/-- What a move does to the run. The completion of an on-failure step recovers one
of the failed steps that name it. -/
structure Moved (run run' : WorkflowRun) : Prop where
  effect : ∀ id, Effects d run run' id
  recovers : ∀ id, isAtWork run id → (run'.step id).status = .completed → recovers d run id = true →
      ∃ s ∈ d.steps, s.onFailure = id ∧ (run.step s.id).status = .failed ∧
        (run'.step s.id).status = .recovered
  source : ∀ id, (run.step id).status = .failed → (run'.step id).status = .recovered →
    ∃ s ∈ d.steps, s.id = id ∧ s.onFailure ∈ d.steps.map (·.id) ∧
      isAtWork run s.onFailure ∧ (run'.step s.onFailure).status = .completed
  single : ∀ id id', (run.step id).status = .failed → (run'.step id).status = .recovered →
    (run.step id').status = .failed → (run'.step id').status = .recovered → id = id'
  less : movesLeft d run' < movesLeft d run

end

lemma Effects.movesLeft_le (h : Effects d run run' id) :
    (run'.step id).status.movesLeft ≤ (run.step id).status.movesLeft := by
  cases h with
  | same h => rw [h]
  | skipped _ h _ | completed _ h | recovered _ h => simp [h, StepStatus.movesLeft]
  | dispatched hp hq _ _ => simp [hp, hq, StepStatus.movesLeft]
  | started hq hr => simp [hq, hr, StepStatus.movesLeft]

lemma Moved.of_effects (heffect : ∀ id, Effects d run run' id)
    (hkept : ∀ id, (run.step id).status = .failed → (run'.step id).status = .failed)
    (hopen : ∀ id, isAtWork run id → (run'.step id).status ≠ .completed)
    (hid : id ∈ d.steps.map (·.id))
    (hless : (run'.step id).status.movesLeft < (run.step id).status.movesLeft) :
    Moved d run run' := by
  have hnever : ∀ id, (run.step id).status = .failed →
      (run'.step id).status = .recovered → False := fun id hfailed hrecov => by
    rw [hkept id hfailed] at hrecov
    cases hrecov
  exact ⟨heffect, fun id hwork hdone _ => absurd hdone (hopen id hwork),
    fun id hf hr => (hnever id hf hr).elim, fun id _ hf hr => (hnever id hf hr).elim,
    movesLeft_lt hid (fun other => (heffect other).movesLeft_le) hless⟩

lemma step_resolveSkips (h : ∀ id, (run.step id).status ≠ .cancelled) (id : String) :
    (run.step id).status = .pending ∧ ((resolveSkips d run).step id).status = .skipped ∧
    id ∈ d.steps.map (·.id) ∨ (resolveSkips d run).step id = run.step id := by
  by_cases hin : id ∈ (skippedNow d run).map (·.id)
  · obtain ⟨s, hs, rfl⟩ := List.mem_map.mp hin
    exact .inl ⟨(resolveSkipped_open hs).2.resolve_right (h s.id),
      status_markSkipped_of_mem hin, mem_ids_of_mem_skippedNow hin⟩
  · exact .inr (step_markSkipped_of_not_mem hin)

lemma Resuming.moved_skip (h : Resuming d run) (hsome : skippedNow d run ≠ []) :
    Moved d run (resolveSkips d run) := by
  obtain ⟨s, hs⟩ := List.exists_mem_of_ne_nil _ hsome
  have hin : s.id ∈ (skippedNow d run).map (·.id) := List.mem_map_of_mem hs
  refine Moved.of_effects (fun id => ?_) (fun id hf => ?_) (fun id hw => ?_)
    (mem_ids_of_mem_skippedNow hin) ?_
  · rcases step_resolveSkips h.status id with ⟨hp, hskip, hid⟩ | hsame
    · exact .skipped hp hskip hid
    · exact .same (by rw [hsame])
  · rcases step_resolveSkips h.status id with ⟨hp, -⟩ | hsame
    · rw [hp] at hf
      cases hf
    · rw [hsame, hf]
  · rcases step_resolveSkips h.status id with ⟨-, hskip, -⟩ | hsame
    · rw [hskip]
      decide
    · rw [hsame]
      rcases hw with hw | hw <;> simp [hw]
  · rw [show ((resolveSkips d run).step s.id).status = .skipped from
      status_markSkipped_of_mem hin, (resolveSkipped_open hs).2.resolve_right (h.status s.id)]
    decide

lemma moved_setStep {s : StepState} (hid : id ∈ d.steps.map (·.id))
    (heffect : Effects d run (run.setStep id s) id)
    (hopen : s.status = .queued ∨ s.status = .running) (hbefore : (run.step id).status ≠ .failed)
    (hless : s.status.movesLeft < (run.step id).status.movesLeft) :
    Moved d run (run.setStep id s) := by
  refine Moved.of_effects (fun other => ?_) (fun other hf => ?_) (fun other hw => ?_) hid ?_
  · by_cases heq : id = other
    · exact heq ▸ heffect
    · exact .same (by rw [run.step_setStep_of_ne s heq])
  · rw [status_setStep, if_neg fun (heq : id = other) => hbefore (heq ▸ hf)]
    exact hf
  · rw [status_setStep]
    split
    · rcases hopen with ho | ho <;> simp [ho]
    · rcases hw with hw | hw <;> simp [hw]
  · rw [WorkflowRun.step_setStep_self]
    exact hless

lemma Resuming.moved_dispatch (h : Resuming d run)
    (hs : s ∈ resolveReady d (completedSet run) (queuedSet run)) :
    Moved d run (run.setStep s.id { run.step s.id with status := .queued }) := by
  have hpend := status_of_ready (h.status s.id) hs
  refine moved_setStep (mem_ids_of_ready hs) ?_ (.inl rfl) (by simp [hpend]) ?_
  · exact .dispatched hpend (by rw [WorkflowRun.step_setStep_self]) (mem_ids_of_ready hs)
      (plain_of_ready hs)
  · rw [hpend]
    simp [StepStatus.movesLeft]

/-! ## The completion of a step -/

lemma step_skipDependents_mem (d : WorkflowDef) (run : WorkflowRun) (stepID id : String) :
    (skipDependents d run stepID).step id = run.step id ∨ ((run.step id).status = .pending ∧
        ((skipDependents d run stepID).step id).status = .skipped ∧
        id ∈ d.steps.map (·.id)) := by
  by_cases hid : id ∈ d.steps.map (·.id)
  · rcases step_skipDependents d run stepID id with h | ⟨hp, hs⟩
    · exact .inl h
    · exact .inr ⟨hp, hs, hid⟩
  · left
    unfold skipDependents
    refine List.foldlRecOn (motive := fun r : WorkflowRun => r.step id = run.step id) _ _ rfl
      fun r hr s hs => ?_
    split
    · have hne : s.id ≠ id := fun heq =>
        hid (heq ▸ List.mem_map_of_mem (List.mem_filter.mp hs).1)
      rw [r.step_setStep_of_ne _ hne]
      exact hr
    · exact hr

/-- The recovery: nothing, or one failed step that names the completed one. -/
lemma recoverIfOnFailure_cases :
    (recovers d run h = false ∧ recoverIfOnFailure d run h = run) ∨
      ∃ s ∈ d.steps, s.onFailure = h ∧ (run.step s.id).status = .failed ∧
        ((recoverIfOnFailure d run h).step s.id).status = .recovered ∧
        ∀ id, s.id ≠ id → (recoverIfOnFailure d run h).step id = run.step id ∨
          ((run.step id).status = .pending ∧
            ((recoverIfOnFailure d run h).step id).status = .skipped ∧
            id ∈ d.steps.map (·.id)) := by
  cases hrecovers : recovers d run h with
  | false => exact .inl ⟨rfl, recoverIfOnFailure_of_not_recovers hrecovers⟩
  | true =>
    obtain ⟨s, hs, hnames, hfailed, heq, hrecov⟩ := recoverIfOnFailure_of_recovers hrecovers
    refine .inr ⟨s, hs, hnames, hfailed, hrecov, fun id hne => ?_⟩
    have hskip := step_skipDependents_mem d
      (run.setStep s.id { run.step s.id with status := .recovered }) s.id id
    rwa [run.step_setStep_of_ne _ hne, ← heq] at hskip

lemma Resuming.step_advanced (h : Resuming d run) (id : String) (output : Raw) (other : String) :
    if other = id then
      ((resolveSkips d (completedRun run id output)).step other).status = .completed
    else
      (resolveSkips d (completedRun run id output)).step other = run.step other ∨
        ((run.step other).status = .pending ∧
          ((resolveSkips d (completedRun run id output)).step other).status = .skipped ∧
          other ∈ d.steps.map (·.id)) := by
  have hsteps : ∀ other, (completedRun run id output).step other =
      if id = other then { run.step id with status := .completed, output := output }
      else run.step other := fun other => run.step_setStep _ _ _
  have hcancelled : ∀ other, ((completedRun run id output).step other).status ≠
      .cancelled := fun other => by
    rw [hsteps]
    split
    · simp
    · exact h.status other
  have hskip := step_resolveSkips (d := d) hcancelled other
  rw [hsteps] at hskip
  split
  · next heq =>
    rw [if_pos heq.symm] at hskip
    rcases hskip with ⟨hp, -⟩ | hsame
    · simp at hp
    · rw [hsame]
  · next hne =>
    rw [if_neg (Ne.symm hne)] at hskip
    exact hskip.symm

lemma Resuming.failed_advanced (h : Resuming d run) (hwork : isAtWork run id)
    (other : String) : ((resolveSkips d (completedRun run id output)).step other).status = .failed ↔
    (run.step other).status = .failed := by
  have hstep := h.step_advanced id output other
  split at hstep
  · next heq =>
    subst heq
    rcases hwork with hw | hw <;> simp [hstep, hw]
  · rcases hstep with hsame | ⟨hp, hskip, -⟩
    · rw [hsame]
    · simp [hp, hskip]

lemma Resuming.recovers_advanced (h : Resuming d run) (hwork : isAtWork run id) :
    recovers d (resolveSkips d (completedRun run id output)) id = recovers d run id := by
  unfold recovers
  congr 1
  funext s
  rw [decide_eq_decide.mpr (h.failed_advanced hwork s.id)]

def Kept (d : WorkflowDef) (run run' : WorkflowRun) (id : String) : Prop :=
  (run'.step id).status = (run.step id).status ∨
    ((run.step id).status = .pending ∧ (run'.step id).status = .skipped ∧ id ∈ d.steps.map (·.id))

lemma Kept.effects (h : Kept d run run' id) : Effects d run run' id := by
  rcases h with h | ⟨hp, hs, hid⟩
  · exact .same h
  · exact .skipped hp hs hid

lemma Kept.not_recovered (h : Kept d run run' id)
    (hfailed : (run.step id).status = .failed) : (run'.step id).status ≠ .recovered := by
  rcases h with h | ⟨hp, -⟩
  · simp [h, hfailed]
  · simp [hfailed] at hp

lemma Kept.not_completed (h : Kept d run run' id) (hwork : isAtWork run id) :
    (run'.step id).status ≠ .completed := by
  rcases h with h | ⟨hp, -⟩
  · rcases hwork with hw | hw <;> simp [h, hw]
  · rcases hwork with hw | hw <;> simp [hw] at hp

lemma Resuming.step_concludes (h : Resuming d run) (hwork : isAtWork run id) :
    ((concludes d run id output).step id).status = .completed ∧ ((recovers d run id = false ∧
          ∀ other, other ≠ id → Kept d run (concludes d run id output) other) ∨
        ∃ s ∈ d.steps, s.onFailure = id ∧ (run.step s.id).status = .failed ∧
          ((concludes d run id output).step s.id).status = .recovered ∧
          ∀ other, other ≠ id → other ≠ s.id → Kept d run (concludes d run id output) other) := by
  have hstep := h.step_advanced id output
  have hdone : ((resolveSkips d (completedRun run id output)).step id).status =
      .completed := by simpa using hstep id
  have hkept : ∀ other, other ≠ id →
      Kept d run (resolveSkips d (completedRun run id output)) other := fun other hne => by
    have ho := hstep other
    rw [if_neg hne] at ho
    exact ho.imp_left fun heq => by rw [heq]
  unfold concludes
  rcases recoverIfOnFailure_cases with
    ⟨hnone, hsame⟩ | ⟨s, hs, hnames, hfailed, hrecov, hothers⟩
  · rw [hsame]
    exact ⟨hdone, .inl ⟨h.recovers_advanced hwork ▸ hnone, hkept⟩⟩
  · refine ⟨?_, .inr ⟨s, hs, hnames, (h.failed_advanced hwork s.id).mp hfailed,
      hrecov, fun other hne hs => ?_⟩⟩
    · have hne : s.id ≠ id := fun heq => by simp [heq, hdone] at hfailed
      rcases hothers id hne with heq | ⟨hp, -⟩
      · rw [heq, hdone]
      · simp [hdone] at hp
    · rcases hothers other (Ne.symm hs) with heq | ⟨hp, hskip, hid⟩
      · rw [Kept, heq]
        exact hkept other hne
      · rcases hkept other hne with heq | ⟨-, hskipped, -⟩
        · exact .inr ⟨heq ▸ hp, hskip, hid⟩
        · simp [hskipped] at hp

lemma Resuming.moved_complete (h : Resuming d run) (hknown : id ∈ d.steps.map (·.id))
    (hwork : isAtWork run id) (output : Raw) : Moved d run (concludes d run id output) := by
  obtain ⟨hdone, hrest⟩ := h.step_concludes hwork
  have hless : ((concludes d run id output).step id).status.movesLeft <
      (run.step id).status.movesLeft := by
    rw [hdone]
    rcases hwork with hw | hw <;> simp [hw, StepStatus.movesLeft]
  rcases hrest with ⟨hnone, hkept⟩ | ⟨s, hs, hnames, hfailed, hrecov, hkept⟩
  · have heffect : ∀ other, Effects d run (concludes d run id output) other := fun other => by
      by_cases heq : other = id
      · rw [heq]
        exact .completed hwork hdone
      · exact (hkept other heq).effects
    have hnever : ∀ other, (run.step other).status = .failed →
        ((concludes d run id output).step other).status ≠ .recovered := fun other hf => by
      by_cases heq : other = id
      · simp [heq, hdone]
      · exact (hkept other heq).not_recovered hf
    refine ⟨heffect, fun other hw hcompleted hrec => ?_, fun other hf hr =>
      absurd hr (hnever other hf), fun other _ hf hr => absurd hr (hnever other hf),
      movesLeft_lt hknown (fun other => (heffect other).movesLeft_le) hless⟩
    by_cases heq : other = id
    · rw [heq, hnone] at hrec
      cases hrec
    · exact absurd hcompleted ((hkept other heq).not_completed hw)
  · have hsid : s.id ≠ id := fun heq => by
      rw [heq] at hfailed
      rcases hwork with hw | hw <;> simp [hw] at hfailed
    have hunique : ∀ other, (run.step other).status = .failed →
        ((concludes d run id output).step other).status = .recovered → other = s.id := by
      intro other hf hr
      by_contra hne
      by_cases heq : other = id
      · simp [heq, hdone] at hr
      · exact (hkept other heq hne).not_recovered hf hr
    have heffect : ∀ other, Effects d run (concludes d run id output) other := fun other => by
      by_cases heq : other = id
      · rw [heq]
        exact .completed hwork hdone
      · by_cases hes : other = s.id
        · rw [hes]
          exact .recovered hfailed hrecov
        · exact (hkept other heq hes).effects
    refine ⟨heffect, fun other hw hcompleted _ => ?_, fun other hf hr => ?_,
      fun other other' hf hr hf' hr' => ?_,
      movesLeft_lt hknown (fun other => (heffect other).movesLeft_le) hless⟩
    · by_cases heq : other = id
      · exact ⟨s, hs, hnames.trans heq.symm, hfailed, hrecov⟩
      · by_cases hes : other = s.id
        · rw [hes, hrecov] at hcompleted
          cases hcompleted
        · exact absurd hcompleted ((hkept other heq hes).not_completed hw)
    · exact ⟨s, hs, (hunique other hf hr).symm, hnames ▸ hknown, hnames ▸ hwork, hnames ▸ hdone⟩
    · rw [hunique other hf hr, hunique other' hf' hr']

lemma Resuming.moved (h : Resuming d run) (hmove : Resumes d run run') : Moved d run run' := by
  cases hmove with
  | skip hsome => exact h.moved_skip hsome
  | dispatch hs => exact h.moved_dispatch hs
  | start hid hs =>
    refine moved_setStep hid ?_ (.inr rfl) (by simp [hs]) ?_
    · exact .started hs (by rw [WorkflowRun.step_setStep_self])
    · rw [hs]
      simp [StepStatus.movesLeft]
  | complete output hid hs => exact h.moved_complete hid hs output

/-! ## What every move keeps -/

lemma Resuming.move (h : Resuming d run) (hmoved : Moved d run run') : Resuming d run' := by
  have hwork : ∀ id, isAtWork run' id → isAtWork run id ∨ d.isAux id = false := by
    intro id hw
    cases hmoved.effect id with
    | same heq => exact .inl (by rwa [isAtWork, ← heq])
    | skipped _ hs _ => rcases hw with hw | hw <;> simp [hs] at hw
    | dispatched _ _ _ hplain => exact .inr hplain
    | started hq _ => exact .inl (.inl hq)
    | completed hw' _ => exact .inl hw'
    | recovered _ hr => rcases hw with hw | hw <;> simp [hr] at hw
  refine ⟨fun id hc => ?_, fun id hf => ?_, fun id hw => ?_⟩
  · cases hmoved.effect id with
    | same heq => exact h.status id (heq ▸ hc)
    | skipped _ hs _ | dispatched _ hs _ _ | started _ hs | completed _ hs
    | recovered _ hs => simp [hs] at hc
  · cases hmoved.effect id with
    | same heq => exact h.failed id (heq ▸ hf)
    | skipped _ hs _ | dispatched _ hs _ _ | started _ hs | completed _ hs
    | recovered _ hs => simp [hs] at hf
  · rcases hwork id hw with hw | hplain
    · exact h.forward id hw
    · simp [isCompensation, hplain]

lemma Moved.failed_or_recovered (hmoved : Moved d run run')
    (hfailed : (run.step id).status = .failed) :
    (run'.step id).status = .failed ∨ (run'.step id).status = .recovered := by
  cases hmoved.effect id with
  | same heq => exact .inl (heq.trans hfailed)
  | skipped hp _ _ | dispatched hp _ _ _ => simp [hfailed] at hp
  | started hq _ => simp [hfailed] at hq
  | completed hw _ => rcases hw with hw | hw <;> simp [hfailed] at hw
  | recovered _ hr => exact .inr hr

lemma Moved.failed_before (hmoved : Moved d run run')
    (hfailed : (run'.step id).status = .failed) : (run.step id).status = .failed := by
  cases hmoved.effect id with
  | same heq => exact heq.symm.trans hfailed
  | skipped _ hs _ | dispatched _ hs _ _ | started _ hs | completed _ hs
  | recovered _ hs => simp [hs] at hfailed

lemma Moved.work_or_completed (hmoved : Moved d run run') (hwork : isAtWork run id) :
    isAtWork run' id ∨ (run'.step id).status = .completed := by
  cases hmoved.effect id with
  | same heq => exact .inl (by rwa [isAtWork, heq])
  | skipped hp _ _ => rcases hwork with hw | hw <;> simp [hp] at hw
  | dispatched _ hs _ _ => exact .inl (.inl hs)
  | started _ hs => exact .inl (.inr hs)
  | completed _ hs => exact .inr hs
  | recovered hf _ => rcases hwork with hw | hw <;> simp [hf] at hw

/-- Every failed step waits for its own on-failure step. -/
structure Covers (d : WorkflowDef) (run : WorkflowRun) : Prop where
  named : ∀ s ∈ d.steps, (run.step s.id).status = .failed → s.onFailure ≠ ""
  atWork : ∀ s ∈ d.steps, (run.step s.id).status = .failed → isAtWork run s.onFailure
  own : ∀ s ∈ d.steps, ∀ s' ∈ d.steps, (run.step s.id).status = .failed →
    (run.step s'.id).status = .failed → s'.onFailure = s.onFailure → s'.id = s.id

lemma covered_iff : covered d run = true ↔ Covers d run := by
  simp only [covered, List.all_eq_true, Bool.or_eq_true, Bool.and_eq_true, decide_eq_true_eq, ne_eq]
  constructor
  · intro h
    have hfailed : ∀ s ∈ d.steps, (run.step s.id).status = .failed → _ :=
      fun s hs hf => (h s hs).resolve_left (not_not_intro hf)
    refine ⟨fun s hs hf => (hfailed s hs hf).1.1, fun s hs hf => (hfailed s hs hf).1.2,
      fun s hs s' hs' hf hf' hsame => ?_⟩
    exact ((hfailed s hs hf).2 s' hs').resolve_left fun hn => hn.elim (absurd hf') (absurd hsame)
  · intro h s hs
    by_cases hf : (run.step s.id).status = .failed
    · refine .inr ⟨⟨h.named s hs hf, h.atWork s hs hf⟩, fun s' hs' => ?_⟩
      by_cases hf' : (run.step s'.id).status = .failed
      · by_cases hsame : s'.onFailure = s.onFailure
        · exact .inr (h.own s hs s' hs' hf hf' hsame)
        · exact .inl (.inr hsame)
      · exact .inl (.inl hf')
    · exact .inl hf

lemma Covers.recovered (hcovers : Covers d run) (hmoved : Moved d run run') (hs : s ∈ d.steps)
    (hfailed : (run.step s.id).status = .failed)
    (hdone : (run'.step s.onFailure).status = .completed) :
    (run'.step s.id).status = .recovered := by
  have hnames : recovers d run s.onFailure = true := List.any_eq_true.mpr ⟨s, hs, by simp [hfailed]⟩
  obtain ⟨t, ht, hsame, hfailed', hrecov⟩ :=
    hmoved.recovers s.onFailure (hcovers.atWork s hs hfailed) hdone hnames
  rwa [hcovers.own s hs t ht hfailed hfailed' hsame] at hrecov

lemma Covers.move (hcovers : Covers d run) (hmoved : Moved d run run') : Covers d run' := by
  refine ⟨fun s hs hf => hcovers.named s hs (hmoved.failed_before hf), fun s hs hf => ?_,
    fun s hs s' hs' hf hf' =>
      hcovers.own s hs s' hs' (hmoved.failed_before hf) (hmoved.failed_before hf')⟩
  have hbefore := hmoved.failed_before hf
  refine (hmoved.work_or_completed (hcovers.atWork s hs hbefore)).resolve_right fun hdone => ?_
  rw [hcovers.recovered hmoved hs hbefore hdone] at hf
  cases hf

/-! ## Where every failed step is covered -/

lemma validate_id_ne_empty {x : Externals} (h : validate x d = .ok ()) :
    "" ∉ d.steps.map (·.id) := by
  obtain ⟨-, h⟩ := checks_eq_ok h
  obtain ⟨hrequired, -⟩ := checks_eq_ok h
  obtain ⟨-, hsteps⟩ := checks_eq_ok hrequired
  rintro hin
  obtain ⟨s, hs, hid⟩ := List.mem_map.mp hin
  have hne := check_eq_ok (checks_eq_ok (forM_eq_ok hsteps s hs)).1
  simp [hid] at hne

lemma validate_onFailure {x : Externals} (h : validate x d = .ok ()) (hs : s ∈ d.steps)
    (hne : s.onFailure ≠ "") : s.onFailure ∈ d.steps.map (·.id) := by
  obtain ⟨t, ht, hid, -⟩ := validate_handler h (mem_buildAuxSteps.mpr ⟨hne, s, hs, .inl rfl⟩)
  exact hid ▸ List.mem_map_of_mem ht

lemma Covers.complete_of_stuck {x : Externals} (hvalid : validate x d = .ok ())
    (hfree : independentOfAux d = true) (hcovers : Covers d run) (h : Resuming d run)
    (hstuck : ∀ run', ¬Resumes d run run') : isComplete d (completedSet run) = true := by
  have hidle : ∀ id ∈ d.steps.map (·.id), ¬isAtWork run id := fun id hid hwork =>
    hstuck _ (.complete .nil hid hwork)
  refine complete_of_none_ready hvalid hfree (fun id hid => ?_) fun s hs => hstuck _ (.dispatch hs)
  have hfailed : (run.step id).status ≠ .failed := by
    obtain ⟨s, hs, rfl⟩ := List.mem_map.mp hid
    intro hf
    exact hidle s.onFailure (validate_onFailure hvalid hs (hcovers.named s hs hf))
      (hcovers.atWork s hs hf)
  have hnot := hidle id hid
  have hcancelled := h.status id
  unfold isAtWork at hnot
  unfold completedSet
  cases hs : (run.step id).status <;> simp_all

lemma Covers.completes {x : Externals} (hvalid : validate x d = .ok ())
    (hfree : independentOfAux d = true) (n : ℕ) (hcovers : Covers d run)
    (h : Resuming d run) (hn : movesLeft d run ≤ n) : Completes d run := by
  induction n generalizing run with
  | zero =>
    refine .complete (hcovers.complete_of_stuck hvalid hfree h fun run' hmove => ?_)
    exact absurd (h.moved hmove).less (by omega)
  | succ n ih =>
    by_cases hmove : ∃ run', Resumes d run run'
    · refine .move hmove fun run' hmove => ?_
      have hmoved := h.moved hmove
      exact ih (hcovers.move hmoved) (h.move hmoved) (by have := hmoved.less; omega)
    · exact .complete (hcovers.complete_of_stuck hvalid hfree h (not_exists.mp hmove))

/-! ## Where a failed step is left behind -/

/-- The failed step `s` waits for nothing, or for a completion that another failed
step waits for as well. -/
structure LeftBehind (d : WorkflowDef) (run : WorkflowRun) (s : StepDef) : Prop where
  mem : s ∈ d.steps
  failed : (run.step s.id).status = .failed
  reason : s.onFailure = "" ∨ ¬isAtWork run s.onFailure ∨
    ∃ s' ∈ d.steps, (run.step s'.id).status = .failed ∧ s'.onFailure = s.onFailure ∧ s'.id ≠ s.id

lemma exists_leftBehind (h : ¬Covers d run) : ∃ s, LeftBehind d run s := by
  by_contra hnone
  simp only [not_exists] at hnone
  refine h ⟨fun s hs hf hempty => hnone s ⟨hs, hf, .inl hempty⟩, fun s hs hf => ?_,
    fun s hs s' hs' hf hf' hsame => ?_⟩
  · by_contra hidle
    exact hnone s ⟨hs, hf, .inr (.inl hidle)⟩
  · by_contra hne
    exact hnone s ⟨hs, hf, .inr (.inr ⟨s', hs', hf', hsame, hne⟩)⟩

lemma Moved.not_atWork (hmoved : Moved d run run') (haux : d.isAux id = true)
    (h : ¬isAtWork run id) : ¬isAtWork run' id := by
  rintro hwork
  cases hmoved.effect id with
  | same heq => exact h (by rwa [isAtWork, ← heq])
  | skipped _ hs _ => rcases hwork with hw | hw <;> simp [hs] at hw
  | dispatched _ _ _ hplain => simp [haux] at hplain
  | started hq _ => exact h (.inl hq)
  | completed hw _ => exact h hw
  | recovered _ hr => rcases hwork with hw | hw <;> simp [hr] at hw

lemma not_atWork_of_completed (h : (run.step id).status = .completed) : ¬isAtWork run id := by
  rintro (hw | hw) <;> simp [h] at hw

section

variable {x : Externals} (hvalid : validate x d = .ok ())
  (haux : (buildAuxSteps d.steps).all d.isAux = true) (hleft : LeftBehind d run s)
include hvalid haux hleft

lemma LeftBehind.move (hmoved : Moved d run run') : ∃ s', LeftBehind d run' s' := by
  -- A step is recovered by the completion of its own on-failure step only.
  have hsource : ∀ t ∈ d.steps, (run.step t.id).status = .failed →
      (run'.step t.id).status = .recovered → t.onFailure ≠ "" ∧
        isAtWork run t.onFailure ∧ (run'.step t.onFailure).status = .completed := by
    intro t ht hf hr
    obtain ⟨t', ht', hid, hknown, hwork, hdone⟩ := hmoved.source t.id hf hr
    obtain rfl : t' = t := List.inj_on_of_nodup_map (validate_nodup hvalid) ht' ht hid
    exact ⟨fun hempty => validate_id_ne_empty hvalid (hempty ▸ hknown), hwork, hdone⟩
  rcases hleft.reason with hempty | hidle | ⟨s', hs', hf', hsame, hne⟩
  · refine ⟨s, hleft.mem, (hmoved.failed_or_recovered hleft.failed).resolve_right
      fun hr => ?_, .inl hempty⟩
    exact (hsource s hleft.mem hleft.failed hr).1 hempty
  · have hfailed := (hmoved.failed_or_recovered hleft.failed).resolve_right fun hr =>
      hidle (hsource s hleft.mem hleft.failed hr).2.1
    by_cases hempty : s.onFailure = ""
    · exact ⟨s, hleft.mem, hfailed, .inl hempty⟩
    · have hisAux := List.all_eq_true.mp haux s.onFailure
        (mem_buildAuxSteps.mpr ⟨hempty, s, hleft.mem, .inl rfl⟩)
      exact ⟨s, hleft.mem, hfailed, .inr (.inl (hmoved.not_atWork hisAux hidle))⟩
  · rcases hmoved.failed_or_recovered hleft.failed with hfailed | hr
    · rcases hmoved.failed_or_recovered hf' with hfailed' | hr'
      · exact ⟨s, hleft.mem, hfailed, .inr (.inr ⟨s', hs', hfailed', hsame, hne⟩)⟩
      · refine ⟨s, hleft.mem, hfailed, .inr (.inl ?_)⟩
        rw [← hsame]
        exact not_atWork_of_completed (hsource s' hs' hf' hr').2.2
    · have hfailed' := (hmoved.failed_or_recovered hf').resolve_right fun hr' =>
        hne (hmoved.single _ _ hf' hr' hleft.failed hr)
      refine ⟨s', hs', hfailed', .inr (.inl ?_)⟩
      rw [hsame]
      exact not_atWork_of_completed (hsource s hleft.mem hleft.failed hr).2.2

lemma LeftBehind.not_completes (h : Resuming d run) : ¬Completes d run := by
  intro hcompletes
  induction hcompletes generalizing s with
  | complete hcomplete =>
    have hdone := List.all_eq_true.mp hcomplete s hleft.mem
    simp [completedSet, hleft.failed, h.failed _ hleft.failed] at hdone
  | move hmove _ ih =>
    obtain ⟨run', hmove⟩ := hmove
    have hmoved := h.moved hmove
    obtain ⟨s', hleft'⟩ := hleft.move hvalid haux hmoved
    exact ih run' hmove hleft' (h.move hmoved)

end

lemma planless.effectiveDef (h : planless d run = true) : effectiveDef d run = d := by
  simp only [planless, Bool.and_eq_true] at h
  rw [Dagnats.effectiveDef, if_pos h.1]

lemma planless.ordinary (h : planless d run = true) (id : String) : Ordinary d id := by
  simp only [planless, Bool.and_eq_true, List.all_eq_true, decide_eq_true_eq] at h
  rintro hplanner
  obtain ⟨s, hs, htype⟩ := Option.map_eq_some_iff.mp hplanner
  exact h.2 s (List.mem_of_find?_eq_some hs) htype

namespace Shared

/-- `a` and `b` both name `h`. -/
def workflow : WorkflowDef where
  name := "shared"
  steps := [{ id := "a", task := "work", onFailure := "h" },
    { id := "b", task := "work", onFailure := "h" }, { id := "h", task := "mend" }]
  auxSteps := ["h"]

/-- `h` has completed and `a` is recovered, but `b` is still failed: the run goes on
with nothing at work, ready or to be skipped. -/
def stranded (run : WorkflowRun) : Bool :=
  (run.step "h").status = .completed && (run.step "a").status = .recovered &&
    (run.step "b").status = .failed && run.status = .running &&
    countActiveSteps run = 0 &&
    (resolveReady workflow (completedSet run) (queuedSet run)).isEmpty &&
    (skippedNow workflow run).isEmpty && !isComplete workflow (completedSet run)

end Shared

end Dagnats
