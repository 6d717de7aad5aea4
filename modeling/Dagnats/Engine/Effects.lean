import Mathlib.Data.Finset.Card
import Dagnats.Engine.Cataloguing.Running

/-!
# What the entries of the catalogue do to a step

For every copy that the catalogue is made of, the step it is about and what
happens to all others. The properties of single writes are read off these
lemmas.
-/

namespace Dagnats

open Interaction

variable {stepID : String} {n : ℕ} {t : Time} {o : Orchestrator} {d : WorkflowDef}
  {run run' new : WorkflowRun} {e : Event} {id : String}

/-- The step keeps its status, or it was open and is skipped. -/
def Passes (s s' : StepStatus) : Prop :=
  s' = s ∨ ((s = .pending ∨ s = .cancelled) ∧ s' = .skipped)

lemma Passes.refl (s : StepStatus) : Passes s s := .inl rfl

lemma passes_resolveSkips (d : WorkflowDef) (run : WorkflowRun) (id : String) :
    Passes (run.step id).status ((resolveSkips d run).step id).status := by
  by_cases hin : id ∈ (resolveSkipped d (completedSet run) (queuedSet run) run).map (·.id)
  · obtain ⟨s, hs, rfl⟩ := List.mem_map.mp hin
    rcases step_markSkipped (resolveSkipped d (completedSet run) (queuedSet run) run) run
      s.id with hsame | hskip
    · exact .inl (congrArg StepState.status hsame)
    · exact .inr ⟨(resolveSkipped_open hs).2, hskip⟩
  · exact .inl (congrArg StepState.status (step_markSkipped_of_not_mem hin))

lemma Passes.failed {s s' : StepStatus} (h : Passes s s') (hs : s' = .failed) : s = .failed := by
  rcases h with heq | ⟨-, hskip⟩
  · exact heq.symm.trans hs
  · simp [hskip] at hs

lemma status_markSkipped_congr {skipped : List StepDef}
    (h : (run'.step id).status = (run.step id).status) :
    ((markSkipped run' skipped).step id).status = ((markSkipped run skipped).step id).status := by
  induction skipped generalizing run run' with
  | nil => exact h
  | cons s rest ih =>
    refine ih ?_
    simp only [WorkflowRun.step_setStep]
    split
    · rfl
    · exact h

section

variable (hstatus : ∀ id, (run'.step id).status = (run.step id).status)
    (houtput : ∀ id, (run'.step id).output = (run.step id).output)
include hstatus houtput

lemma resolveSkipped_congr :
    resolveSkipped d (completedSet run') (queuedSet run') run' =
    resolveSkipped d (completedSet run) (queuedSet run) run := by
  have hdone : completedSet run' = completedSet run := by
    funext id
    simp only [completedSet, hstatus id]
  have hqueued : queuedSet run' = queuedSet run := by
    funext id
    simp only [queuedSet, hstatus id]
  simp only [resolveSkipped, hdone, hqueued,
    fun c : ParentCond => c.evaluate_congr (houtput c.stepID)]

lemma status_resolveSkips_congr :
    ((resolveSkips d run').step id).status = ((resolveSkips d run).step id).status := by
  unfold resolveSkips
  rw [resolveSkipped_congr hstatus houtput]
  exact status_markSkipped_congr (hstatus id)

end

section

variable (d run)

lemma step_advancedCopy :
    (advancedCopy d run).step id = (resolveSkips d run).step id := by
  unfold advancedCopy
  split <;> rfl

lemma passes_or_recovers (stepID id : String) : Passes (run.step id).status
        ((recoverIfOnFailure d (advancedCopy d run) stepID).step id).status ∨
      ((run.step id).status = .failed ∧
        ((recoverIfOnFailure d (advancedCopy d run) stepID).step id).status = .recovered) := by
  have hskips := passes_resolveSkips d run id
  rw [← step_advancedCopy] at hskips
  rcases step_recoverIfOnFailure d (advancedCopy d run) stepID id with
    hsame | ⟨hpend, hskip⟩ | ⟨hfailed, hrecov⟩
  · rw [hsame]
    exact .inl hskips
  · rcases hskips with heq | ⟨hopen, -⟩
    · exact .inl (.inr ⟨.inl (heq.symm.trans hpend), hskip⟩)
    · exact .inl (.inr ⟨hopen, hskip⟩)
  · exact .inr ⟨hskips.failed hfailed, hrecov⟩

lemma recovered_recording (stepID : String) :
    (recoverIfOnFailure d (advancedCopy d run) stepID).recording = run.recording := by
  have hadvanced : (advancedCopy d run).recording = run.recording := by
    unfold advancedCopy
    split <;> exact Catalogued.resolveSkips_recording
  unfold recoverIfOnFailure
  split
  · exact hadvanced
  · refine List.foldlRecOn (motive := fun r : WorkflowRun =>
      r.recording = run.recording) _ _ hadvanced fun r hr s _ => ?_
    split <;> exact hr

end

/-! ## Steps that are put to work -/

def Rests (run run' : WorkflowRun) : Prop :=
  ∀ id, (run'.step id).atWork = true → (run.step id).atWork = true

lemma Rests.refl (run : WorkflowRun) : Rests run run := fun _ h => h

lemma Rests.trans {run'' : WorkflowRun} (h : Rests run run') (h' : Rests run' run'') :
    Rests run run'' :=
  fun id hwork => h id (h' id hwork)

lemma Alike.rests (h : Alike run run') : Rests run run' := by
  intro id hwork
  rwa [StepState.atWork_of_core (h.core id)] at hwork

lemma Rests.of_passes (h : ∀ id, Passes (run.step id).status (run'.step id).status) :
    Rests run run' := by
  intro id hwork
  rcases h id with hsame | ⟨-, hskip⟩
  · simpa [StepState.atWork, hsame] using hwork
  · simp [StepState.atWork, hskip] at hwork

lemma rests_setStep {s : StepState} (h : s.atWork = true → (run.step id).atWork = true) :
    Rests run (run.setStep id s) := by
  intro other hwork
  rw [WorkflowRun.step_setStep] at hwork
  split at hwork
  · next hid => exact hid ▸ h hwork
  · exact hwork

lemma rests_failed {error : String} :
    Rests run (run.setStep id { run.step id with status := .failed, error := error }) :=
  rests_setStep fun h => nomatch h

lemma rests_acting {fenced : Bool} {s : StepState}
    (h : s.atWork = true → (run.step id).atWork = true) :
    Rests run ((run.acting e fenced).setStep id s) :=
  let acting := run.acting e fenced
  (rests_setStep h : Rests acting (acting.setStep id s))

lemma rests_resolveSkips (d : WorkflowDef) (run : WorkflowRun) : Rests run (resolveSkips d run) :=
  .of_passes (passes_resolveSkips d run)

lemma rests_recovered :
    Rests run (recoverIfOnFailure d (advancedCopy d run) stepID) := by
  intro id hwork
  rcases passes_or_recovers d run stepID id with (hsame | ⟨-, hskip⟩) | ⟨-, hrecov⟩
  · simpa [StepState.atWork, hsame] using hwork
  · simp [StepState.atWork, hskip] at hwork
  · simp [StepState.atWork, hrecov] at hwork

/-! ## Queues -/

lemma step_requeued_of_ne {id other : String}
    (h : id ≠ other) : (run.requeued id n t).step other = run.step other :=
  run.step_setStep_of_ne _ h

section

variable {ids : List String} (h : Requeued ids run run')
include h

lemma Requeued.step_of_not_mem (hid : id ∉ ids) : run'.step id = run.step id := by
  induction h with
  | nil run => rfl
  | cons n t _ ih =>
    rw [List.mem_cons, not_or] at hid
    exact (ih hid.2).trans (step_requeued_of_ne (Ne.symm hid.1))

lemma Requeued.same : run'.status = run.status ∧ run'.recording = run.recording ∧
    run'.dynamicSteps = run.dynamicSteps := by
  induction h with
  | nil run => exact ⟨rfl, rfl, rfl⟩
  | cons n t _ ih => exact ih

end

/-! ## Reports -/

section

variable (h : CompletedBy o d run e run')
include h

lemma CompletedBy.status : (run'.step e.stepID).status = .completed := by
  cases h <;> simp [WorkflowRun.acting]

lemma CompletedBy.other (hid : e.stepID ≠ id) : run'.step id = run.step id := by
  cases h <;> exact WorkflowRun.step_setStep_of_ne _ _ hid

lemma CompletedBy.rests : Rests run run' := by
  intro id hwork
  by_cases hid : e.stepID = id
  · subst hid
    simp [StepState.atWork, h.status] at hwork
  · rwa [h.other hid] at hwork

end

lemma step_failedCopy_self :
    (failedCopy run e).step e.stepID = { failing (run.step e.stepID) e with status := .failed } :=
  (run.acting e true).step_setStep_self e.stepID _

lemma step_failedCopy_of_ne (run : WorkflowRun) (h : e.stepID ≠ id) :
    (failedCopy run e).step id = run.step id :=
  (run.acting e true).step_setStep_of_ne _ h

section

variable (h : FailedBy o d run e run')
include h

lemma FailedBy.status : (run'.step e.stepID).status = .failed := by
  have hcopy : ((failedCopy run e).step e.stepID).status = .failed := by
    rw [step_failedCopy_self]
  cases h with
  | exhausted => exact hcopy
  | refused =>
    rcases passes_resolveSkips d (failedCopy run e) e.stepID with h | ⟨h, -⟩
    · exact h.trans hcopy
    · rcases h with h | h <;> simp [hcopy] at h

lemma FailedBy.other (hid : e.stepID ≠ id) : Passes (run.step id).status (run'.step id).status := by
  cases h with
  | exhausted =>
    rw [step_failedCopy_of_ne run hid]
    exact .refl _
  | refused =>
    have hskips := passes_resolveSkips d (failedCopy run e) id
    rwa [step_failedCopy_of_ne run hid] at hskips

lemma FailedBy.rests : Rests run run' ∧ (run'.step e.stepID).atWork = false := by
  refine ⟨fun id hwork => ?_, by simp [StepState.atWork, h.status]⟩
  by_cases hid : e.stepID = id
  · subst hid
    simp [StepState.atWork, h.status] at hwork
  · rcases h.other hid with hsame | ⟨-, hskip⟩
    · simpa [StepState.atWork, hsame] using hwork
    · simp [StepState.atWork, hskip] at hwork

lemma FailedBy.accepts :
    Accepts o run e ∧ e.type = .stepFailed ∧ run'.recording = some ⟨e, true⟩ := by
  cases h with
  | exhausted haccepts htype => exact ⟨haccepts, htype, rfl⟩
  | refused haccepts htype =>
    exact ⟨haccepts, htype, Catalogued.resolveSkips_recording⟩

end

/-- The run in which the failure that `e` reports has been noted; a failure that
may not be retried is followed by a look for steps to skip. -/
def afterFailure (d : WorkflowDef) (run : WorkflowRun) (e : Event) : WorkflowRun :=
  if (parseFailPayload e.payload).failureType = .nonRetriable then
    resolveSkips d (failedCopy run e)
  else failedCopy run e

lemma FailedBy.eq (h : FailedBy o d run e run') : run' = afterFailure d run e := by
  cases h with
  | exhausted _ _ hretriable => rw [afterFailure, if_neg hretriable]
  | refused _ _ hrefused => rw [afterFailure, if_pos hrefused]

lemma output_failedCopy :
    ((failedCopy run e).step id).output = (run.step id).output := by
  by_cases hid : e.stepID = id
  · subst hid
    rw [step_failedCopy_self]
    unfold failing adopted
    dsimp only
    split <;> rfl
  · rw [step_failedCopy_of_ne run hid]

lemma status_failedCopy :
    ((failedCopy run e).step id).status = if e.stepID =
    id then .failed else (run.step id).status := by
  split
  · next hid => rw [← hid, step_failedCopy_self]
  · next hid => rw [step_failedCopy_of_ne run hid]

lemma status_afterFailure_congr (h : Alike run run') :
    ((afterFailure d run' e).step id).status = ((afterFailure d run e).step id).status := by
  have hcopy : ∀ id, ((failedCopy run' e).step id).status =
      ((failedCopy run e).step id).status := by
    intro id
    rw [status_failedCopy, status_failedCopy, h.stepStatus]
  unfold afterFailure
  split
  · refine status_resolveSkips_congr hcopy (fun id => ?_)
    rw [output_failedCopy, output_failedCopy, h.output]
  · exact hcopy id

section

variable {status : StepStatus} (h : Instance run e id status run')
include h

lemma Instance.step : (run'.step id).status = status := by
  cases h
  simp [WorkflowRun.acting]

lemma Instance.other {other : String} (hid : id ≠ other) : run'.step other = run.step other := by
  cases h
  exact WorkflowRun.step_setStep_of_ne _ _ hid

lemma Instance.rests
    (hstatus : status = (run.step id).status ∨ status = .completed ∨ status = .failed) :
    Rests run run' := by
  intro other hwork
  by_cases hid : id = other
  · subst hid
    rw [StepState.atWork, h.step] at hwork
    rcases hstatus with rfl | rfl | rfl
    · exact hwork
    · simp at hwork
    · simp at hwork
  · rwa [h.other hid] at hwork

lemma Instance.recording : run'.recording = some ⟨e, false⟩ ∧ isMapInstanceID e.stepID = true := by
  cases h with
  | intro _ _ _ _ _ hmap => exact ⟨rfl, hmap⟩

lemma Instance.parse : ∃ index, parseMapInstanceID e.stepID = .ok (id, index) := by
  cases h with
  | intro _ _ _ index _ _ hparse => exact ⟨index, hparse⟩

end

lemma status_cancelUnfinishedSteps :
    ((Orchestrator.cancelUnfinishedSteps run).step id).status = (run.step id).status ∨
      (((run.step id).status = .pending ∨ (run.step id).atWork = true) ∧
        ((Orchestrator.cancelUnfinishedSteps run).step id).status = .cancelled) := by
  simp only [Orchestrator.cancelUnfinishedSteps, WorkflowRun.step, Table.find?_mapVals]
  cases run.steps.find? id with
  | none => exact .inl rfl
  | some s =>
    simp only [Option.map_some, Option.getD_some]
    split
    · next hs => exact .inr ⟨.inr (by simp [StepState.atWork, hs]), rfl⟩
    · next hs => exact .inr ⟨.inr (by simp [StepState.atWork, hs]), rfl⟩
    · next hs => exact .inr ⟨.inl hs, rfl⟩
    · exact .inl rfl

lemma idle_cancelUnfinishedSteps (run : WorkflowRun) (id : String) :
    ((Orchestrator.cancelUnfinishedSteps run).step id).atWork = false := by
  simp only [Orchestrator.cancelUnfinishedSteps, WorkflowRun.step, Table.find?_mapVals]
  cases run.steps.find? id with
  | none => rfl
  | some s =>
    simp only [Option.map_some, Option.getD_some]
    split
    · rfl
    · rfl
    · rfl
    · next hqueued hrunning _ => simpa [StepState.atWork] using ⟨hqueued, hrunning⟩

lemma rests_cancelUnfinishedSteps :
    Rests run (Orchestrator.cancelUnfinishedSteps run) := by
  intro id hwork
  rw [idle_cancelUnfinishedSteps] at hwork
  cases hwork

section

variable (fragment : List StepDef) (run : WorkflowRun)

lemma step_generated (id : String) :
    (fragment.foldl (fun (r : WorkflowRun) s => r.setStep s.id {}) run).step id = {} ∨
    (fragment.foldl (fun (r : WorkflowRun) s => r.setStep s.id {}) run).step id = run.step id := by
  induction fragment generalizing run with
  | nil => exact .inr rfl
  | cons s rest ih =>
    rw [List.foldl_cons]
    rcases ih (run.setStep s.id {}) with h | h
    · exact .inl h
    · rw [h, WorkflowRun.step_setStep]
      split
      · exact .inl rfl
      · exact .inr rfl

lemma generated_recording :
    (fragment.foldl (fun (r : WorkflowRun) s => r.setStep s.id {}) run).recording = run.recording :=
  List.foldlRecOn (motive := fun r : WorkflowRun => r.recording = run.recording) _ _ rfl
    fun _ hr _ _ => hr

lemma rests_generated : Rests run (fragment.foldl (fun (r : WorkflowRun) s => r.setStep s.id {})
      { run with dynamicSteps := run.dynamicSteps ++ fragment }) := by
  intro id hwork
  rcases step_generated fragment
    { run with dynamicSteps := run.dynamicSteps ++ fragment } id with hnew | hold
  · rw [hnew] at hwork
    cases hwork
  · rwa [hold] at hwork

end

lemma Closes.rests (h : Closes run new) : Rests run new := by
  cases h with
  | completed t => exact .refl run
  | violated id error t => exact rests_failed

lemma Concludes.rests {site : Site} (h : Concludes o d run site new) : Rests run new := by
  cases h with
  | reported e run' hdone =>
    exact hdone.rests.trans rests_recovered
  | planned e _ hdone => exact hdone.rests
  | mapped e id _ _ hinst => exact hinst.rests (.inr (.inl rfl))
  | awaited site id output => exact rests_setStep fun h => nomatch h

/-! ## The steps at work -/

/-- The steps that are queued or running. -/
def WorkflowRun.working (run : WorkflowRun) : Finset String :=
  (run.steps.keys.filter fun id => (run.step id).atWork).toFinset

lemma mem_working : id ∈ run.working ↔ (run.step id).atWork = true := by
  rw [WorkflowRun.working, List.mem_toFinset, List.mem_filter, and_iff_right_iff_imp]
  intro hwork
  rw [Table.mem_keys]
  by_contra hnew
  rw [step_of_not_has (by simpa using hnew)] at hwork
  cases hwork

lemma Rests.working (h : Rests run run') : run'.working ⊆ run.working :=
  fun id hid => mem_working.mpr (h id (mem_working.mp hid))

lemma Alike.atWork (h : Alike run run') (id : String) :
    (run'.step id).atWork = (run.step id).atWork :=
  StepState.atWork_of_core (h.core id)

lemma Alike.working (h : Alike run run') : run'.working = run.working :=
  h.rests.working.antisymm h.symm.rests.working

def instanceAtWork (run : WorkflowRun) (e : Event) : Bool :=
  match parseMapInstanceID e.stepID with
  | .ok (id, _) => (run.step id).atWork
  | .error _ => true

lemma Alike.instanceAtWork (h : Alike run run') (e : Event) :
    instanceAtWork run' e = instanceAtWork run e := by
  unfold Dagnats.instanceAtWork
  split
  · exact h.atWork _
  · rfl

def healsWith (test : WorkflowDef → Bool) (log : List Entry) (runID : String) : Bool :=
  log.all fun
    | .event e => e.type ≠ .workflowSpawn ||
        (Orchestrator.decodeSpawn e.payload).all fun p => p.childRunID ≠ runID || log.all fun
            | .definition (.latest name) d => name ≠ p.childWorkflow || test d
            | _ => true
    | _ => true

lemma healsWith_definition {test : WorkflowDef → Bool} {log : List Entry} {runID : String}
    {p : Orchestrator.SpawnPayload} (h : healsWith test log runID = true)
    (hmem : .event e ∈ log) (htype : e.type = .workflowSpawn)
    (hdecode : Orchestrator.decodeSpawn e.payload = some p) (hid : p.childRunID = runID)
    (hdef : .definition (.latest p.childWorkflow) d ∈ log) : test d = true := by
  have hevent := List.all_eq_true.mp h _ hmem
  simp only [htype, ne_eq, not_true_eq_false, decide_false, Bool.false_or, hdecode,
    Option.all_some, hid] at hevent
  have hdefinition := List.all_eq_true.mp hevent _ hdef
  simpa using hdefinition

end Dagnats
