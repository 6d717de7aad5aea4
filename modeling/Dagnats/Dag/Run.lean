import Dagnats.Interaction.Table
import Dagnats.Protocol

/-!
# Run state

The persisted state of a run, `dag/types.go`: `MapInstanceState`, `StepState`
and `WorkflowRun`.
-/

namespace Dagnats

open Interaction

structure MapInstanceState where
  status : StepStatus := .pending
  output : Raw := .nil
  error : String := ""

/-- A dispatch nonce is a number; `none` is the empty string of an entry written before
nonces existed. -/
structure StepState where
  status : StepStatus := .pending
  attempts : ℕ := 0
  iterations : ℕ := 0
  loopStartedAt : Option Time := none
  output : Raw := .nil
  error : String := ""
  mapInstances : List MapInstanceState := []
  wakeAt : Option Time := none
  childRunID : String := ""
  dispatchNonce : Option ℕ := none
  startedAt : Option Time := none
  completedAt : Option Time := none
  attemptStartedAt : Option Time := none
  retryDispatchAt : Option Time := none
  dispatchUnsent : Bool := false
  loopState : Raw := .nil
  waitUntil : Option Time := none
  waitInput : Bool := false
  hasInputs : Bool := false

/-- A completion, continuation or failure that a handler acts on; `fenced` tells
whether the fence has compared it with the dispatch of its step. -/
structure Report where
  event : Event
  fenced : Bool

/-- `revision` is what `SnapshotRevision` tracks: the write this copy was read from or
last saved as. `recording` is no field of the source and no modelled function reads it:
it remembers the event whose result the next save records. -/
structure WorkflowRun where
  runID : String
  workflowID : String
  status : RunStatus := .pending
  steps : Table String StepState := .empty
  input : Raw := .nil
  createdAt : Time := 0
  dynamicSteps : List StepDef := []
  parentRunID : String := ""
  rootRunID : String := ""
  parentStepID : String := ""
  deadline : Option Time := none
  priorityOffset : ℤ := 0
  singletonKey : String := ""
  completedAt : Option Time := none
  triggerDepth : ℕ := 0
  releasePending : Bool := false
  releaseAttempts : ℕ := 0
  defHash : String := ""
  revision : Option ℕ := none
  recording : Option Report := none

namespace WorkflowRun

variable (run : WorkflowRun) (id : String)

/-- Indexing the step map: an absent key reads as the zero state. -/
def step : StepState :=
  (run.steps.find? id).getD {}

/-- Assigning into the step map. -/
def setStep (s : StepState) : WorkflowRun :=
  { run with steps := run.steps.set id s }

@[simp] lemma step_setStep_self (s : StepState) : (run.setStep id s).step id = s := by
  simp [step, setStep]

lemma step_setStep (run : WorkflowRun) (id other : String) (s : StepState) :
    (run.setStep id s).step other = if id = other then s else run.step other := by
  by_cases h : id = other <;> simp [step, setStep, Table.find?_set, h]

lemma step_setStep_of_ne (run : WorkflowRun) {id other : String} (s : StepState)
    (h : id ≠ other) : (run.setStep id s).step other = run.step other := by
  rw [step_setStep, if_neg h]

variable {steps : List StepDef} {f : WorkflowRun → StepDef → StepState}

lemma foldl_setStep (run : WorkflowRun) : steps.foldl (fun r s => r.setStep s.id (f r s)) run =
    { run with steps := (steps.foldl (fun r s => r.setStep s.id (f r s)) run).steps } := by
  induction steps generalizing run with
  | nil => rfl
  | cons s rest ih => exact ih _

lemma step_foldl_setStep {run : WorkflowRun} {id : String} (h : id ∉ steps.map (·.id)) :
    (steps.foldl (fun r s => r.setStep s.id (f r s)) run).step id = run.step id := by
  induction steps generalizing run with
  | nil => rfl
  | cons s rest ih =>
    rw [List.map_cons, List.mem_cons, not_or] at h
    exact (ih h.2).trans (run.step_setStep_of_ne _ (Ne.symm h.1))

lemma proj_setStep {α : Type} (g : StepState → α) {s : StepState} {id : String}
    (h : g s = g (run.step id)) (other : String) :
    g ((run.setStep id s).step other) = g (run.step other) := by
  rw [step_setStep]
  split
  · next hid => rw [h, hid]
  · rfl

@[simp] lemma setStep_setStep (s s' : StepState) :
    (run.setStep id s).setStep id s' = run.setStep id s' := by
  simp [setStep]

end WorkflowRun

end Dagnats
