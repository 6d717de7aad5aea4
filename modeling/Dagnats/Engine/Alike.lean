import Dagnats.Engine.Refinement.Dispatching

/-!
# Copies that differ in bookkeeping

`markSent` and the settling of agent inputs write a run again without changing
what its steps are doing: only marks, input flags and completion stamps differ.
Two such copies are `Alike`. The number of steps at work is among the things
they share; how it changes with one step is stated here as well.
-/

namespace Dagnats

open Interaction

lemma countActiveSteps_eq (run : WorkflowRun) :
    countActiveSteps run = run.steps.keys.countP fun id => (run.step id).atWork :=
  rfl

section

variable {run : WorkflowRun} {id : String}

lemma step_of_not_has (h : run.steps.has id = false) : run.step id = {} := by
  have hnone : run.steps.find? id = none := by
    simpa [Table.has] using h
  simp [WorkflowRun.step, hnone]

lemma keys_setStep (s : StepState) :
    (run.setStep id s).steps.keys =
    if run.steps.has id then run.steps.keys else run.steps.keys ++ [id] :=
  Table.keys_set run.steps id s

lemma countActiveSteps_setStep {s : StepState} (h : s.atWork = (run.step id).atWork) :
    countActiveSteps (run.setStep id s) = countActiveSteps run := by
  have hsame := run.proj_setStep StepState.atWork h
  rw [countActiveSteps_eq, countActiveSteps_eq, keys_setStep]
  simp only [hsame]
  split
  · rfl
  · next hnew =>
    have hidle : (run.step id).atWork = false := by
      rw [step_of_not_has (by simpa using hnew)]
      rfl
    simp [List.countP_append, hidle]

lemma countP_lt_of_mem {α : Type} {p q : α → Bool} {as : List α} {a : α}
    (hpq : ∀ b, p b = true → q b = true) (ha : a ∈ as) (hp : p a = false)
    (hq : q a = true) : as.countP p + 1 ≤ as.countP q := by
  have hfilter : (as.filter q).countP p = as.countP p := by
    rw [List.countP_filter]
    exact List.countP_congr fun b _ => by simpa using hpq b
  rw [← hfilter, List.countP_eq_length_filter (p := q)]
  apply Nat.lt_of_le_of_ne List.countP_le_length
  intro hall
  have hpa := List.countP_eq_length.mp hall a (List.mem_filter.mpr ⟨ha, hq⟩)
  exact absurd hpa (by simp [hp])

lemma countActiveSteps_setStep_atWork
    {s : StepState} (hidle : (run.step id).atWork = false) (hs : s.atWork = true) :
    countActiveSteps run + 1 ≤ countActiveSteps (run.setStep id s) := by
  have hmono : ∀ other, (run.step other).atWork = true →
      ((run.setStep id s).step other).atWork = true := by
    intro other hother
    rw [WorkflowRun.step_setStep]
    split
    · exact hs
    · exact hother
  have hid : ((run.setStep id s).step id).atWork = true := by simpa using hs
  rw [countActiveSteps_eq, countActiveSteps_eq, keys_setStep]
  split
  · next hhas =>
    exact countP_lt_of_mem hmono ((Table.mem_keys _ _).mpr hhas) hidle hid
  · have hrest : run.steps.keys.countP (fun id => (run.step id).atWork) ≤
        run.steps.keys.countP fun other =>
          ((run.setStep id s).step other).atWork :=
      List.countP_mono_left fun other _ => hmono other
    rw [List.countP_append, List.countP_singleton, if_pos hid]
    omega

end

def StepState.core (s : StepState) : StepState :=
  { s with completedAt := none, dispatchUnsent := false, hasInputs := false }

lemma StepState.atWork_of_core {s s' : StepState} (h : s.core = s'.core) :
    s.atWork = s'.atWork := by
  have hstatus : s.core.status = s'.core.status := congrArg StepState.status h
  have hsame : s.status = s'.status := hstatus
  simp only [atWork, hsame]

/-- The copies differ in bookkeeping at most. -/
structure Alike (run run' : WorkflowRun) : Prop where
  runID : run'.runID = run.runID
  status : run'.status = run.status
  completedAt : run'.completedAt = run.completedAt
  defHash : run'.defHash = run.defHash
  dynamicSteps : run'.dynamicSteps = run.dynamicSteps
  active : countActiveSteps run' = countActiveSteps run
  core : ∀ id, (run'.step id).core = (run.step id).core

namespace Alike

variable {run run' run'' : WorkflowRun}

lemma refl (run : WorkflowRun) : Alike run run :=
  ⟨rfl, rfl, rfl, rfl, rfl, rfl, fun _ => rfl⟩

section

variable (h : Alike run run')
include h

lemma symm : Alike run' run :=
  ⟨h.runID.symm, h.status.symm, h.completedAt.symm, h.defHash.symm,
    h.dynamicSteps.symm, h.active.symm, fun id => (h.core id).symm⟩

lemma trans (h' : Alike run' run'') : Alike run run'' :=
  ⟨h'.runID.trans h.runID, h'.status.trans h.status, h'.completedAt.trans h.completedAt,
    h'.defHash.trans h.defHash, h'.dynamicSteps.trans h.dynamicSteps, h'.active.trans h.active,
    fun id => (h'.core id).trans (h.core id)⟩

lemma field {α : Type} (f : StepState → α) (hf : ∀ s, f s = f s.core) (id : String) :
    f (run'.step id) = f (run.step id) := by
  rw [hf (run'.step id), hf (run.step id), h.core id]

lemma stepStatus (id : String) : (run'.step id).status = (run.step id).status :=
  h.field StepState.status (fun _ => rfl) id

lemma completedSet : Dagnats.completedSet run' = Dagnats.completedSet run := by
  funext id
  simp only [Dagnats.completedSet, h.stepStatus id]

lemma output (id : String) : (run'.step id).output = (run.step id).output :=
  h.field StepState.output (fun _ => rfl) id

end

lemma persisted (run : WorkflowRun) : Alike run (World.persisted run) :=
  ⟨rfl, rfl, rfl, rfl, rfl, rfl, fun _ => rfl⟩

lemma received (rev : ℕ) (run : WorkflowRun) : Alike run (World.received rev run) :=
  ⟨rfl, rfl, rfl, rfl, rfl, rfl, fun _ => rfl⟩

lemma recorded (run : WorkflowRun) (rev : Option ℕ) :
    Alike run { run with revision := rev, recording := none } :=
  ⟨rfl, rfl, rfl, rfl, rfl, rfl, fun _ => rfl⟩

lemma setStep {id : String} {s : StepState} (h : s.core = (run.step id).core) :
    Alike run (run.setStep id s) :=
  ⟨rfl, rfl, rfl, rfl, rfl, countActiveSteps_setStep (StepState.atWork_of_core h),
    run.proj_setStep StepState.core h⟩

lemma stampTerminalSteps (run : WorkflowRun) (t : Time) :
    Alike run (Dagnats.stampTerminalSteps run t) := by
  have hcore : ∀ id, ((Dagnats.stampTerminalSteps run t).step id).core = (run.step id).core := by
    intro id
    rw [step_stampTerminalSteps, StepState.stampTerminal]
    split <;> rfl
  refine ⟨rfl, rfl, rfl, rfl, rfl, ?_, hcore⟩
  have hkeys : (Dagnats.stampTerminalSteps run t).steps.keys = run.steps.keys := by
    simp [Dagnats.stampTerminalSteps, Table.mapVals, Table.keys]
  rw [countActiveSteps_eq, countActiveSteps_eq, hkeys]
  simp only [fun id => StepState.atWork_of_core (hcore id)]

lemma clearInputs (ids : List String) (run : WorkflowRun) :
    Alike run (Dagnats.clearInputs run ids) := by
  induction ids generalizing run with
  | nil => exact refl run
  | cons id ids ih =>
    have hclear : Alike run (run.setStep id { run.step id with hasInputs := false }) := setStep rfl
    exact hclear.trans (ih _)

lemma clearUnsent (nonces : List (String × Option ℕ)) (run : WorkflowRun) :
    Alike run (Dagnats.clearUnsent run nonces) := by
  induction nonces generalizing run with
  | nil => exact refl run
  | cons sent nonces ih =>
    have hmark : Alike run (clearMark run sent) := by
      unfold clearMark
      dsimp only
      split
      · exact setStep rfl
      · exact refl run
    exact hmark.trans (ih _)

end Alike

end Dagnats
