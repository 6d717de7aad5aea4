import Mathlib.Algebra.Order.BigOperators.Group.List
import Mathlib.Algebra.Order.Ring.Nat
import Dagnats.Properties.SkipConditions

/-!
# Definitions that do not deadlock

A run in which every step that is dispatched completes: the steps to be skipped
are skipped, the ready ones dispatched, and those at work complete with any
output, in any order. An aux step takes no part in it, and a step that depends on
one waits forever; where no step does, the run completes.
-/

namespace Dagnats

open Interaction

variable {d : WorkflowDef} {run run' : WorkflowRun} {id : String} {s : StepDef} {aux : String}

/-- One move of a run in which no step fails. -/
inductive Advances (d : WorkflowDef) : WorkflowRun → WorkflowRun → Prop where
  | skip {run : WorkflowRun} : skippedNow d run ≠ [] → Advances d run (resolveSkips d run)
  | dispatch {run : WorkflowRun} {s : StepDef} :
      s ∈ resolveReady d (completedSet run) (queuedSet run) →
      Advances d run (run.setStep s.id { run.step s.id with status := .queued })
  | start {run : WorkflowRun} {id : String} : (run.step id).status = .queued →
      Advances d run (run.setStep id { run.step id with status := .running })
  | complete {run : WorkflowRun} {id : String} (output : Raw) :
      (run.step id).status = .queued ∨ (run.step id).status = .running →
      Advances d run (run.setStep id { run.step id with status := .completed, output := output })

/-- However it moves, the run is complete after finitely many moves. -/
inductive Finishes (d : WorkflowDef) : WorkflowRun → Prop where
  | complete {run : WorkflowRun} : isComplete d (completedSet run) = true → Finishes d run
  | move {run : WorkflowRun} :
      (∃ run', Advances d run run') → (∀ run', Advances d run run' → Finishes d run') →
      Finishes d run

def independentOfAux (d : WorkflowDef) : Bool :=
  d.steps.all fun s => d.isAux s.id || s.dependsOn.all fun dep => !d.isAux dep

/-- The state of a run after some moves: no step has failed, and only steps of
the definition have left the start. -/
structure Moving (d : WorkflowDef) (run : WorkflowRun) : Prop where
  status : ∀ id, (run.step id).status = .pending ∨ (run.step id).status = .queued ∨
    (run.step id).status = .running ∨ completedSet run id = true
  known : ∀ id, (run.step id).status ≠ .pending → id ∈ d.steps.map (·.id)

lemma status_setStep (id other : String) (s : StepState) :
    ((run.setStep id s).step other).status = if id =
    other then s.status else (run.step other).status := by
  rw [WorkflowRun.step_setStep]
  split <;> rfl

lemma Moving.setStep (h : Moving d run) {s : StepState} (hid : id ∈ d.steps.map (·.id))
    (hs : s.status = .queued ∨ s.status = .running ∨ s.status = .completed) :
    Moving d (run.setStep id s) := by
  refine ⟨fun other => ?_, fun other hother => ?_⟩
  · by_cases heq : id = other
    · subst heq
      simp only [completedSet, WorkflowRun.step_setStep_self]
      rcases hs with hs | hs | hs <;> simp [hs]
    · rw [run.step_setStep_of_ne s heq, completedSet_congr (run.step_setStep_of_ne s heq)]
      exact h.status other
  · by_cases heq : id = other
    · exact heq ▸ hid
    · rw [run.step_setStep_of_ne s heq] at hother
      exact h.known other hother

lemma mem_ids_of_mem_skippedNow (h : id ∈ (skippedNow d run).map (·.id)) :
    id ∈ d.steps.map (·.id) :=
  List.map_subset _ (List.filter_subset_self _) h

lemma Moving.resolveSkips (h : Moving d run) : Moving d (Dagnats.resolveSkips d run) := by
  refine ⟨fun id => ?_, fun id hid => ?_⟩
  · by_cases hin : id ∈ (skippedNow d run).map (·.id)
    · exact .inr (.inr (.inr (completedSet_of_skipped (status_markSkipped_of_mem hin))))
    · have hsame : (Dagnats.resolveSkips d run).step id = run.step id :=
        step_markSkipped_of_not_mem hin
      rw [hsame, completedSet_congr hsame]
      exact h.status id
  · by_cases hin : id ∈ (skippedNow d run).map (·.id)
    · exact mem_ids_of_mem_skippedNow hin
    · have hsame : (Dagnats.resolveSkips d run).step id = run.step id :=
        step_markSkipped_of_not_mem hin
      exact h.known id (hsame ▸ hid)

lemma mem_ids_of_ready (h : s ∈ resolveReady d (completedSet run) (queuedSet run)) :
    s.id ∈ d.steps.map (·.id) :=
  List.mem_map_of_mem (List.mem_filter.mp h).1

lemma Moving.move (h : Moving d run) (hmove : Advances d run run') : Moving d run' := by
  cases hmove with
  | skip _ => exact h.resolveSkips
  | dispatch hs => exact h.setStep (mem_ids_of_ready hs) (.inl rfl)
  | start hs => exact h.setStep (h.known _ (by simp [hs])) (.inr (.inl rfl))
  | complete output hs =>
    refine h.setStep (h.known _ ?_) (.inr (.inr rfl))
    rcases hs with hs | hs <;> simp [hs]

def StepStatus.movesLeft : StepStatus → ℕ
  | .pending => 3
  | .queued => 2
  | .running => 1
  | .completed | .failed | .skipped | .cancelled | .recovered => 0

def movesLeft (d : WorkflowDef) (run : WorkflowRun) : ℕ :=
  (d.steps.map fun s => (run.step s.id).status.movesLeft).sum

lemma movesLeft_lt (hid : id ∈ d.steps.map (·.id))
    (hle : ∀ other, (run'.step other).status.movesLeft ≤ (run.step other).status.movesLeft)
    (hlt : (run'.step id).status.movesLeft < (run.step id).status.movesLeft) :
    movesLeft d run' < movesLeft d run := by
  obtain ⟨s, hs, rfl⟩ := List.mem_map.mp hid
  exact List.sum_lt_sum _ _ (fun s' _ => hle s'.id) ⟨s, hs, hlt⟩

lemma movesLeft_setStep_lt {s : StepState} {status status' : StepStatus}
    (hid : id ∈ d.steps.map (·.id)) (hstatus : (run.step id).status = status)
    (hs : s.status = status') (hlt : status'.movesLeft < status.movesLeft) :
    movesLeft d (run.setStep id s) < movesLeft d run := by
  refine movesLeft_lt hid (fun other => ?_) ?_
  · rw [status_setStep]
    split
    · next heq =>
      rw [← heq, hs, hstatus]
      exact hlt.le
    · exact le_rfl
  · rw [WorkflowRun.step_setStep_self, hs, hstatus]
    exact hlt

lemma Moving.not_cancelled (h : Moving d run) :
    (run.step id).status ≠ .cancelled := by
  intro hid
  rcases h.status id with h | h | h | h <;> simp [completedSet, hid] at h

lemma status_of_mem_skippedNow (hmoving : Moving d run) (h : s ∈ skippedNow d run) :
    (run.step s.id).status = .pending :=
  (resolveSkipped_open h).2.resolve_right (hmoving.not_cancelled)

lemma status_of_ready (hne : (run.step s.id).status ≠ .cancelled)
    (h : s ∈ resolveReady d (completedSet run) (queuedSet run)) :
    (run.step s.id).status = .pending := by
  have hs := (List.mem_filter.mp h).2
  simp only [Bool.and_eq_true, Bool.not_eq_true', Bool.or_eq_false_iff] at hs
  exact (status_of_not_resolved hs.1.1.1 hs.1.1.2).resolve_right hne

lemma Advances.movesLeft_lt (hmoving : Moving d run) (h : Advances d run run') :
    movesLeft d run' < movesLeft d run := by
  cases h with
  | skip hsome =>
    obtain ⟨s, hs⟩ := List.exists_mem_of_ne_nil _ hsome
    have hid : s.id ∈ (skippedNow d run).map (·.id) := List.mem_map_of_mem hs
    have hskipped : ∀ {id}, id ∈ (skippedNow d run).map (·.id) →
        ((resolveSkips d run).step id).status.movesLeft = 0 := fun hin => by
      rw [show ((resolveSkips d run).step _).status = .skipped from status_markSkipped_of_mem hin]
      rfl
    refine Dagnats.movesLeft_lt (mem_ids_of_mem_skippedNow hid) (fun other => ?_) ?_
    · by_cases hin : other ∈ (skippedNow d run).map (·.id)
      · rw [hskipped hin]
        exact Nat.zero_le _
      · rw [show (resolveSkips d run).step other = run.step other from
          step_markSkipped_of_not_mem hin]
    · rw [hskipped hid, status_of_mem_skippedNow hmoving hs]
      decide
  | dispatch hs =>
    exact movesLeft_setStep_lt (mem_ids_of_ready hs)
      (status_of_ready (hmoving.not_cancelled) hs) rfl
      (by simp [StepStatus.movesLeft])
  | start hs =>
    exact movesLeft_setStep_lt (hmoving.known _ (by simp [hs])) hs rfl
      (by simp [StepStatus.movesLeft])
  | complete output hs =>
    rcases hs with hs | hs
    all_goals
      exact movesLeft_setStep_lt (hmoving.known _ (by simp [hs])) hs rfl
        (by simp [StepStatus.movesLeft])

section

variable {x : Externals} (hvalid : validate x d = .ok ()) (hfree : independentOfAux d = true)
include hvalid hfree

lemma complete_of_none_ready (hidle : ∀ id ∈ d.steps.map (·.id),
      (run.step id).status = .pending ∨ completedSet run id = true)
    (hnone : ∀ s, s ∉ resolveReady d (completedSet run) (queuedSet run)) :
    isComplete d (completedSet run) = true := by
  have hnodup := validate_nodup hvalid
  obtain ⟨order, hordered, hall⟩ := exists_ordered_of_detectCycle (validate_nodup hvalid)
    (validate_detectCycle hvalid)
  -- In dependency order, every step that is not aux has been resolved: otherwise
  -- it would be ready.
  have hdone : ∀ id ∈ order, id ∈ d.steps.map (·.id) → d.isAux id = false →
      completedSet run id = true := by
    refine hordered.forall_of_step fun id _ hdeps hid hplain => ?_
    obtain ⟨s, hs, rfl⟩ := List.mem_map.mp hid
    rw [depsOf_of_mem hnodup hs] at hdeps
    rcases hidle s.id hid with hpend | hdone
    · have hindependent := List.all_eq_true.mp hfree s hs
      rw [hplain, Bool.false_or, List.all_eq_true] at hindependent
      have hres : allDepsCompleted s.dependsOn (completedSet run) = true := by
        refine List.all_eq_true.mpr fun dep hdep => hdeps dep hdep ?_ ?_
        · exact validate_dependsOn hvalid hs hdep
        · simpa using hindependent dep hdep
      refine absurd (List.mem_filter.mpr ⟨hs, ?_⟩) (hnone s)
      simp [completedSet, queuedSet, hpend, hplain, hres]
    · exact hdone
  refine List.all_eq_true.mpr fun s hs => ?_
  have hid : s.id ∈ d.steps.map (·.id) := List.mem_map_of_mem hs
  cases haux : d.isAux s.id with
  | true => simp
  | false => simp [hdone s.id (hall hid) hid haux]

lemma complete_of_no_move (hmoving : Moving d run) (hstuck : ∀ run', ¬Advances d run run') :
    isComplete d (completedSet run) = true := by
  refine complete_of_none_ready hvalid hfree (fun id _ => ?_) fun s hs => hstuck _ (.dispatch hs)
  rcases hmoving.status id with h | h | h | h
  · exact .inl h
  · exact absurd (.start h) (hstuck _)
  · exact absurd (.complete .nil (.inr h)) (hstuck _)
  · exact .inr h

lemma finishes_of_independent (n : ℕ) (hmoving : Moving d run) (hn : movesLeft d run ≤ n) :
    Finishes d run := by
  induction n generalizing run with
  | zero =>
    refine .complete (complete_of_no_move hvalid hfree hmoving fun run' hmove => ?_)
    exact absurd (hmove.movesLeft_lt hmoving) (by omega)
  | succ n ih =>
    by_cases hmove : ∃ run', Advances d run run'
    · refine .move hmove fun run' hmove => ih (hmoving.move hmove) ?_
      have := hmove.movesLeft_lt hmoving
      omega
    · exact .complete (complete_of_no_move hvalid hfree hmoving (not_exists.mp hmove))

end

/-- Nothing was ever put out, and neither the aux step `aux` nor the step `id`
that depends on it has left the start. -/
structure Blocked (run : WorkflowRun) (id aux : String) : Prop where
  outputs : ∀ id, (run.step id).output = .nil
  step : (run.step id).status = .pending
  aux : (run.step aux).status = .pending

lemma Blocked.setStep {other : String} {s : StepState} (h : Blocked run id aux) (hid : other ≠ id)
    (haux : other ≠ aux) (houtput : s.output = .nil) : Blocked (run.setStep other s) id aux := by
  refine ⟨fun id' => ?_, ?_, ?_⟩
  · rw [WorkflowRun.step_setStep]
    split
    · exact houtput
    · exact h.outputs id'
  · rw [run.step_setStep_of_ne s hid]
    exact h.step
  · rw [run.step_setStep_of_ne s haux]
    exact h.aux

lemma skippedNow_of_outputs (h : ∀ id, (run.step id).output = .nil) : skippedNow d run = [] := by
  refine List.filter_eq_nil_iff.mpr fun s _ => ?_
  have hfalse : ∀ c : ParentCond, c.evaluate run = false := fun c => by
    let blank : WorkflowRun := { runID := "", workflowID := "" }
    have hblank : (run.step c.stepID).output = (blank.step c.stepID).output := h c.stepID
    rw [ParentCond.evaluate_congr hblank]
    rfl
  cases s.skipIf with
  | none => simp
  | some c => simp [hfalse c]

/-- Whatever happens next, it can happen without ending the blockade. -/
lemma Blocked.exists_move (hnodup : (d.steps.map (·.id)).Nodup) (hs : s ∈ d.steps)
    (hdep : aux ∈ s.dependsOn) (haux : d.isAux aux = true) (h : Blocked run s.id aux)
    (hmove : Advances d run run') : ∃ run'', Advances d run run'' ∧ Blocked run'' s.id aux := by
  cases hmove with
  | skip hsome => exact absurd (skippedNow_of_outputs h.outputs) hsome
  | @dispatch s' hready =>
    obtain ⟨hmem, hs'⟩ := List.mem_filter.mp hready
    simp only [Bool.and_eq_true, Bool.not_eq_true'] at hs'
    refine ⟨_, .dispatch hready, h.setStep (fun heq => ?_) (fun heq => ?_) (h.outputs s'.id)⟩
    · obtain rfl : s' = s := List.inj_on_of_nodup_map hnodup hmem hs heq
      have hdone := List.all_eq_true.mp hs'.2 aux hdep
      simp [completedSet, h.aux] at hdone
    · rw [heq, haux] at hs'
      simp at hs'
  | @start id hqueued =>
    refine ⟨_, .start hqueued, h.setStep (fun heq => ?_) (fun heq => ?_) (h.outputs id)⟩
    · simp [heq, h.step] at hqueued
    · simp [heq, h.aux] at hqueued
  | @complete id output hactive =>
    refine ⟨_, .complete .nil hactive, h.setStep (fun heq => ?_) (fun heq => ?_) rfl⟩
    · simp [heq, h.step] at hactive
    · simp [heq, h.aux] at hactive

lemma Blocked.not_finishes (hnodup : (d.steps.map (·.id)).Nodup) (hs : s ∈ d.steps)
    (hplain : d.isAux s.id = false) (hdep : aux ∈ s.dependsOn) (haux : d.isAux aux = true)
    (h : Blocked run s.id aux) : ¬Finishes d run := by
  intro hfinishes
  induction hfinishes with
  | complete hcomplete =>
    have hdone := List.all_eq_true.mp hcomplete s hs
    simp [completedSet, h.step, hplain] at hdone
  | move hmove _ ih =>
    obtain ⟨run', hmove⟩ := hmove
    obtain ⟨run'', hmove', h'⟩ := h.exists_move hnodup hs hdep haux hmove
    exact ih run'' hmove' h'

lemma moving_newWorkflowRun (d : WorkflowDef) (runID defHash : String) (t : Time) :
    Moving d (newWorkflowRun d runID defHash t) := by
  refine ⟨fun id => .inl ?_, fun id hid => absurd ?_ hid⟩ <;> rw [step_newWorkflowRun]

lemma moving_of_reflTransGen (h : Moving d run)
    (hmoves : Relation.ReflTransGen (Advances d) run run') : Moving d run' := by
  induction hmoves with
  | refl => exact h
  | tail _ hmove ih => exact ih.move hmove

/-- **An accepted definition does not deadlock** exactly where no step that is not
aux depends on an aux step: however its steps are skipped, dispatched and
completed, the run is complete after finitely many moves, and it is complete
wherever it cannot move. -/
theorem accepted_completes_iff {o : Orchestrator} (hvalid : Valid o d)
    (runID defHash : String) (t : Time) : (Finishes d (newWorkflowRun d runID defHash t) ∧
      ∀ run, Relation.ReflTransGen (Advances d) (newWorkflowRun d runID defHash t) run →
        (∀ run', ¬Advances d run run') → isComplete d (completedSet run) = true) ↔
    independentOfAux d = true := by
  have hstart := moving_newWorkflowRun d runID defHash t
  constructor
  · rintro ⟨hfinishes, -⟩
    by_contra hfree
    simp only [independentOfAux, List.all_eq_true, not_forall, Bool.not_eq_true,
      Bool.or_eq_false_iff] at hfree
    obtain ⟨s, hs, hplain, hdeps⟩ := hfree
    obtain ⟨aux, hdep, haux⟩ := List.all_eq_false.mp hdeps
    refine Blocked.not_finishes (validate_nodup hvalid) hs hplain hdep
      (by simpa using haux) ⟨fun id => ?_, ?_, ?_⟩ hfinishes
    all_goals rw [step_newWorkflowRun]
  · intro hfree
    exact ⟨finishes_of_independent hvalid hfree _ hstart le_rfl, fun run hmoves hstuck =>
      complete_of_no_move hvalid hfree (moving_of_reflTransGen hstart hmoves) hstuck⟩

namespace Handlers

/-- `h` is dispatched when `a` fails, and `b` comes after `h`. -/
def workflow : WorkflowDef where
  name := "handlers"
  steps := [{ id := "a", task := "work", onFailure := "h" }, { id := "h", task := "mend" },
    { id := "b", task := "work", dependsOn := ["h"] }]
  auxSteps := ["h"]

/-- The same with `b` after `a`. -/
def mended : WorkflowDef where
  name := "mended"
  steps := [{ id := "a", task := "work", onFailure := "h" }, { id := "h", task := "mend" },
    { id := "b", task := "work", dependsOn := ["a"] }]
  auxSteps := ["h"]

def deadlocked (run : WorkflowRun) : Bool :=
  run.status = .running && countActiveSteps run = 0 &&
    (resolveReady workflow (completedSet run) (queuedSet run)).isEmpty &&
    (skippedNow workflow run).isEmpty && !isComplete workflow (completedSet run)

/-- A run of `mended` completes. -/
theorem mended_completes : Valid Orchestrator.plain mended ∧
    Finishes mended (newWorkflowRun mended "r" "" 0) ∧ ∀ run,
    Relation.ReflTransGen (Advances mended) (newWorkflowRun mended "r" "" 0) run →
    (∀ run', ¬Advances mended run run') → isComplete mended (completedSet run) = true := by
  have hvalid : Valid Orchestrator.plain mended := by decide +kernel
  exact ⟨hvalid, (accepted_completes_iff hvalid "r" "" 0).mpr (by decide)⟩

/-- Once `a` has completed, nothing of the run is at work, ready or to be skipped,
but `b` still waits for `h`. -/
theorem run_deadlocked : Valid Orchestrator.plain workflow ∧
    ∃ (p : Pool Orchestrator.plain.system) (rev : ℕ) (run : WorkflowRun),
    Pool.Reaches Conditions.free (emptyPool Orchestrator.plain) p ∧ p.state.latest "r" =
    some (rev, run) ∧ deadlocked run = true := by
  refine ⟨by decide +kernel, ?_⟩
  obtain ⟨p, hp, htest⟩ := reaches_free Orchestrator.plain
    (launched _ workflow ++ replied .stepCompleted "a" 5 10)
    (fun p => (p.state.latest "r").any fun x => deadlocked x.2)
  obtain ⟨⟨rev, run⟩, hlatest, hrun⟩ := (Option.any_eq_true ..).mp htest
  exact ⟨p, rev, run, hp, hlatest, hrun⟩

end Handlers

/-! ## Graphs -/

def Precedes (d : WorkflowDef) (dep id : String) : Prop :=
  ∃ s ∈ d.steps, s.id = id ∧ dep ∈ s.dependsOn

/-- The steps and their dependencies are a directed acyclic graph. -/
structure IsDag (d : WorkflowDef) : Prop where
  distinct : (d.steps.map (·.id)).Nodup
  closed : ∀ dep id, Precedes d dep id → dep ∈ d.steps.map (·.id)
  acyclic : WellFounded (Precedes d)

/-- **Accepted definitions are acyclic.** The order in which Kahn's algorithm takes the
steps shows that no chain of dependencies goes back forever. -/
theorem accepted_isDag {o : Orchestrator} (h : Valid o d) : IsDag d := by
  have hnodup := validate_nodup h
  have hclosed : ∀ dep id, Precedes d dep id → dep ∈ d.steps.map (·.id) := by
    rintro dep _ ⟨s, hs, rfl, hdep⟩
    exact validate_dependsOn h hs hdep
  obtain ⟨order, hordered, hall⟩ := exists_ordered_of_detectCycle hnodup (validate_detectCycle h)
  have hacc : ∀ id ∈ order, Acc (Precedes d) id := by
    refine hordered.forall_of_step fun id _ hdeps => Acc.intro id ?_
    rintro dep ⟨s, hs, rfl, hdep⟩
    rw [depsOf_of_mem hnodup hs] at hdeps
    exact hdeps dep hdep
  exact ⟨hnodup, hclosed, ⟨fun id => Acc.intro id fun dep hdep =>
    hacc dep (hall (hclosed dep id hdep))⟩⟩

theorem Handlers.mended_isDag : IsDag mended :=
  accepted_isDag (show Valid Orchestrator.plain mended by decide +kernel)

end Dagnats
