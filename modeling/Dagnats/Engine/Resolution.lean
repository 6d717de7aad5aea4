import Dagnats.Engine.Alike
import Dagnats.Engine.Refinement.Enqueueing

/-!
# What a resolution does to a run

The pure part of `enqueueReady` and of the recovery: which entries of the step
map `resolveSkips` and `recoverIfOnFailure` change, and which steps
`resolveReadySteps` finds.
-/

namespace Dagnats

variable {d : WorkflowDef} {run run' : WorkflowRun} {ready : List StepDef} {skipped : List StepDef}
  {id : String}

lemma ParentCond.evaluate_congr {c : ParentCond}
    (h : (run'.step c.stepID).output = (run.step c.stepID).output) :
    c.evaluate run' = c.evaluate run := by
  unfold ParentCond.evaluate
  cases hs' : run'.steps.find? c.stepID with
  | none | some s' =>
    cases hs : run.steps.find? c.stepID with
    | none | some s => grind [WorkflowRun.step]

lemma step_markSkipped_of_not_mem (h : id ∉ skipped.map (·.id)) :
    (markSkipped run skipped).step id = run.step id :=
  WorkflowRun.step_foldl_setStep h

lemma countActiveSteps_markSkipped (h : ∀ s ∈ skipped, (run.step s.id).atWork = false) :
    countActiveSteps (markSkipped run skipped) = countActiveSteps run := by
  induction skipped generalizing run with
  | nil => rfl
  | cons s rest ih =>
    have hs : ({ run.step s.id with status := .skipped } : StepState).atWork =
        (run.step s.id).atWork := (h s (.head _)).symm ▸ rfl
    refine Eq.trans (ih fun s' hs' => ?_) (countActiveSteps_setStep hs)
    rw [WorkflowRun.step_setStep]
    split
    · rfl
    · exact h s' (.tail _ hs')

lemma not_atWork_of_open {s : StepState}
    (h : s.status = .pending ∨ s.status = .cancelled) : s.atWork = false := by
  rcases h with h | h <;> simp [StepState.atWork, h]

lemma countActiveSteps_resolveSkips :
    countActiveSteps (resolveSkips d run) = countActiveSteps run :=
  countActiveSteps_markSkipped fun _ hs =>
    not_atWork_of_open (resolveSkipped_open hs).2

lemma allDepsCompleted_mono {deps : List String} {completed completed' : String → Bool}
    (h : allDepsCompleted deps completed = true)
    (hmono : ∀ dep ∈ deps, completed dep = true → completed' dep = true) :
    allDepsCompleted deps completed' = true :=
  List.all_eq_true.mpr fun dep hdep => hmono dep hdep (List.all_eq_true.mp h dep hdep)

lemma completedSet_of_skipped (h : (run.step id).status = .skipped) :
    completedSet run id = true := by
  simp [completedSet, h]

def openSteps (d : WorkflowDef) (run : WorkflowRun) : List StepDef :=
  (resolveReady d (completedSet (resolveSkips d run)) (queuedSet run)).filter
    fun s => ((resolveSkips d run).step s.id).status ≠ .skipped

lemma resolveReadySteps_limit (h : resolveReadySteps d run = .ready run' ready) :
    limitSteps d (resolveSkips d run) (openSteps d run) = some ready := by
  unfold resolveReadySteps at h
  dsimp only at h
  split at h
  · cases h
  · split at h
    · cases h
    · next limited hlimit =>
      cases h
      exact hlimit

lemma mem_openSteps {s : StepDef} (hmem : s ∈ d.steps)
    (hpend : ((resolveSkips d run).step s.id).status = .pending)
    (hres : allDepsCompleted s.dependsOn (completedSet (resolveSkips d run)) = true)
    (hplain : d.isAux s.id = false) : s ∈ openSteps d run := by
  have hsame : (resolveSkips d run).step s.id = run.step s.id := by
    rcases step_markSkipped (resolveSkipped d (completedSet run) (queuedSet run) run)
      run s.id with h | h
    · exact h
    · exact absurd (h.symm.trans hpend) (by decide)
  have hbefore : (run.step s.id).status = .pending := hsame ▸ hpend
  refine List.mem_filter.mpr ⟨List.mem_filter.mpr ⟨hmem, ?_⟩, by simp [hpend]⟩
  simp [completedSet, queuedSet, hpend, hbefore, hplain, hres]

lemma openSteps_eq_nil (h : resolveReadySteps d run = .ready run' []) : openSteps d run = [] := by
  have hlimit := resolveReadySteps_limit h
  unfold limitSteps at hlimit
  split at hlimit
  · exact Option.some.inj hlimit
  · split at hlimit
    · dsimp only at hlimit
      split at hlimit
      · cases hlimit
      · next havailable =>
        rcases List.take_eq_nil_iff.mp (Option.some.inj hlimit) with hzero | hnil
        · omega
        · exact hnil
    · exact Option.some.inj hlimit

lemma markSkipped_dynamicSteps (run : WorkflowRun) (skipped : List StepDef) :
    (markSkipped run skipped).dynamicSteps = run.dynamicSteps := by
  induction skipped generalizing run with
  | nil => rfl
  | cons s rest ih => exact (ih _).trans rfl

lemma step_resolveSkips_of_closed
    (h : (run.step id).status = .completed ∨ (run.step id).status = .recovered) :
    (resolveSkips d run).step id = run.step id := by
  refine step_markSkipped_of_not_mem fun hin => ?_
  obtain ⟨s, hs, rfl⟩ := List.mem_map.mp hin
  rcases (resolveSkipped_open hs).2 with h' | h' <;> simp [h'] at h

lemma ready_not_completed (h : resolveReadySteps d run = .ready run' ready)
    {s : StepDef} (hs : s ∈ ready) : (run.step s.id).status ≠ .completed := by
  obtain ⟨rfl, hopen⟩ := resolveReadySteps_ready h
  intro hdone
  have hstatus := (hopen s hs).2
  rw [step_resolveSkips_of_closed (.inl hdone)] at hstatus
  rcases hstatus with h | h <;> simp [h] at hdone

lemma limitSteps_sublist {ready limited : List StepDef}
    (h : limitSteps d run ready = some limited) : List.Sublist limited ready := by
  unfold limitSteps at h
  split at h
  · exact Option.some.inj h ▸ .refl _
  · split at h
    · dsimp only at h
      split at h
      · cases h
      · exact Option.some.inj h ▸ List.take_sublist _ _
    · exact Option.some.inj h ▸ .refl _

lemma ready_nodup (hnodup : (d.steps.map (·.id)).Nodup)
    (h : resolveReadySteps d run = .ready run' ready) : (ready.map (·.id)).Nodup := by
  have hsub : List.Sublist ready d.steps :=
    (limitSteps_sublist (resolveReadySteps_limit h)).trans
      (List.filter_sublist.trans List.filter_sublist)
  exact hnodup.sublist (hsub.map _)

def isCompensation (d : WorkflowDef) (stepID : String) : Bool :=
  d.isAux stepID && (findCompensateSource d stepID).isSome

lemma step_skipDependents (d : WorkflowDef) (run : WorkflowRun) (stepID id : String) :
    (skipDependents d run stepID).step id = run.step id ∨ ((run.step id).status = .pending ∧
        ((skipDependents d run stepID).step id).status = .skipped) := by
  unfold skipDependents
  induction d.steps.filter fun s => s.dependsOn.contains stepID generalizing run with
  | nil => exact .inl rfl
  | cons s rest ih =>
    rw [List.foldl_cons]
    by_cases hpend : (run.step s.id).status = .pending
    · rw [if_pos hpend]
      have hrest := ih (run.setStep s.id { run.step s.id with status := .skipped })
      by_cases hid : s.id = id
      · subst hid
        simp only [WorkflowRun.step_setStep_self] at hrest
        refine .inr ⟨hpend, hrest.elim (fun h => ?_) fun h => h.2⟩
        rw [h]
      · rwa [run.step_setStep_of_ne _ hid] at hrest
    · rw [if_neg hpend]
      exact ih run

lemma step_recoverIfOnFailure (d : WorkflowDef) (run : WorkflowRun) (stepID id : String) :
    (recoverIfOnFailure d run stepID).step id = run.step id ∨ ((run.step id).status = .pending ∧
        ((recoverIfOnFailure d run stepID).step id).status = .skipped) ∨
      ((run.step id).status = .failed ∧
        ((recoverIfOnFailure d run stepID).step id).status = .recovered) := by
  unfold recoverIfOnFailure
  split
  · exact .inl rfl
  · next s hs =>
    have hfailed := List.find?_some hs
    simp only [Bool.and_eq_true, decide_eq_true_eq] at hfailed
    have hskip := step_skipDependents d
      (run.setStep s.id { run.step s.id with status := .recovered }) s.id id
    by_cases hid : s.id = id
    · subst hid
      simp only [WorkflowRun.step_setStep_self, reduceCtorEq, false_and, or_false] at hskip
      exact .inr (.inr ⟨hfailed.2, by rw [hskip]⟩)
    · rw [run.step_setStep_of_ne _ hid] at hskip
      exact hskip.imp_right .inl

lemma completedSet_recoverIfOnFailure {stepID : String} (h : completedSet run id = true) :
    completedSet (recoverIfOnFailure d run stepID) id = true := by
  rcases step_recoverIfOnFailure d run stepID id with hsame | ⟨-, hskip⟩ | ⟨-, hrec⟩
  · exact (completedSet_congr hsame).trans h
  · exact completedSet_of_skipped hskip
  · simp [completedSet, hrec]

lemma recoverIfOnFailure_dynamicSteps (d : WorkflowDef) (run : WorkflowRun) (stepID : String) :
    (recoverIfOnFailure d run stepID).dynamicSteps = run.dynamicSteps := by
  unfold recoverIfOnFailure
  split
  · rfl
  · unfold skipDependents
    refine List.foldlRecOn (motive := fun r : WorkflowRun =>
      r.dynamicSteps = run.dynamicSteps) _ _ rfl fun r hr s _ => ?_
    split <;> exact hr

/-! ## Runs with the same work -/

/-- What a resolution and a dispatch see of a step. -/
def StepState.work (s : StepState) : StepStatus × Raw × Option ℕ :=
  (s.status, s.output, s.dispatchNonce)

/-- The steps of the runs have the same statuses, outputs and nonces. -/
def SameWork (run run' : WorkflowRun) : Prop :=
  ∀ id, (run'.step id).work = (run.step id).work

lemma Alike.work (h : Alike run run') : SameWork run run' :=
  h.field StepState.work fun _ => rfl

lemma StepState.work_status {s s' : StepState} (h : s'.work = s.work) (status : StepStatus) :
    StepState.work { s' with status := status } = StepState.work { s with status := status } := by
  exact congrArg (Prod.mk status) (congrArg Prod.snd h)

namespace SameWork

lemma refl (run : WorkflowRun) : SameWork run run := fun _ => rfl

section

variable (h : SameWork run run')
include h

lemma symm : SameWork run' run := fun id => (h id).symm

lemma trans {run'' : WorkflowRun} (h' : SameWork run' run'') : SameWork run run'' :=
  fun id => (h' id).trans (h id)

lemma status (id : String) : (run'.step id).status = (run.step id).status :=
  congrArg Prod.fst (h id)

lemma output (id : String) : (run'.step id).output = (run.step id).output :=
  congrArg (·.2.1) (h id)

lemma completedSet : Dagnats.completedSet run' = Dagnats.completedSet run := by
  funext id
  simp only [Dagnats.completedSet, h.status id]

lemma queuedSet : Dagnats.queuedSet run' = Dagnats.queuedSet run := by
  funext id
  simp only [Dagnats.queuedSet, h.status id]

lemma resolveSkipped : Dagnats.resolveSkipped d (Dagnats.completedSet run')
    (Dagnats.queuedSet run') run' = Dagnats.resolveSkipped d (Dagnats.completedSet run)
    (Dagnats.queuedSet run) run := by
  unfold Dagnats.resolveSkipped
  rw [h.completedSet, h.queuedSet]
  refine List.filter_congr fun s _ => ?_
  cases s.skipIf with
  | none => rfl
  | some c => simp only [ParentCond.evaluate_congr (h.output c.stepID)]

lemma setStep {s s' : StepState} (hs : s'.work = s.work) :
    SameWork (run.setStep id s) (run'.setStep id s') := by
  intro other
  rw [WorkflowRun.step_setStep, WorkflowRun.step_setStep]
  split
  · exact hs
  · exact h other

/-- Whatever is done to the steps in turn by their statuses. -/
lemma foldl {f : WorkflowRun → StepDef → WorkflowRun}
    (hf : ∀ {r r'} s, SameWork r r' → SameWork (f r s) (f r' s)) (steps : List StepDef) :
    SameWork (steps.foldl f run) (steps.foldl f run') := by
  induction steps generalizing run run' with
  | nil => exact h
  | cons s rest ih => exact ih (hf s h)

lemma resolveSkips : SameWork (Dagnats.resolveSkips d run) (Dagnats.resolveSkips d run') := by
  unfold Dagnats.resolveSkips markSkipped
  rw [h.resolveSkipped]
  refine h.foldl (fun s hr => ?_) _
  exact hr.setStep (StepState.work_status (hr s.id) _)

lemma recoverIfOnFailure {stepID : String} :
    SameWork (Dagnats.recoverIfOnFailure d run stepID)
      (Dagnats.recoverIfOnFailure d run' stepID) := by
  unfold Dagnats.recoverIfOnFailure
  simp only [h.status]
  split
  · exact h
  · refine (h.setStep (StepState.work_status (h _) _)).foldl (fun {r r'} s hr => ?_) _
    rw [hr.status]
    split
    · exact hr.setStep (StepState.work_status (hr s.id) _)
    · exact hr

end

end SameWork

end Dagnats
