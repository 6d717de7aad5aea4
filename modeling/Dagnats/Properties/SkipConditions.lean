import Dagnats.Dag.Acyclic
import Dagnats.Engine.Scenario
import Dagnats.Properties.Overdue

/-!
# Skip conditions at a dispatch

A call of `enqueueReady` skips once, on the outputs and statuses it finds, and
then dispatches what is ready after these skips. A step that becomes ready by a
skip of the same call is not asked for its own condition.
-/

namespace Dagnats

open Interaction

variable {d : WorkflowDef} {run : WorkflowRun} {s : StepDef}

section

variable (d run)

/-- The steps that a call of `enqueueReady` puts into its dispatch plan. -/
def plannedSteps : List StepDef :=
  match resolveReadySteps d run with
  | .ready _ ready => ready
  | .complete _ | .full => []

/-- The step may be dispatched: its dependencies are resolved and its condition
does not hold. -/
structure Dispatchable (run : WorkflowRun) (s : StepDef) : Prop where
  resolved : allDepsCompleted s.dependsOn (completedSet run) = true
  wanted : skipHolds run s = false

def skippedNow : List StepDef :=
  resolveSkipped d (completedSet run) (queuedSet run) run

/-- The step is resolved, or the call skips it. -/
def resolvedNow (id : String) : Bool :=
  completedSet run id || (skippedNow d run).any (·.id = id)

/-- The step has not been dispatched or skipped and waits for nothing, or only for
steps that the call skips. -/
def freed (s : StepDef) : Bool :=
  !(resolvedNow d run s.id || queuedSet run s.id) &&
    !d.isAux s.id && allDepsCompleted s.dependsOn (resolvedNow d run)

def candidates : List StepDef :=
  d.steps.filter (freed d run)

def inRoom (steps : List StepDef) : List StepDef :=
  match d.concurrency with
  | none => steps
  | some limit =>
    if 0 < limit.maxSteps then
      steps.take (limit.maxSteps - countActiveSteps run).toNat
    else steps

/-- The step waits for a step that the call skips, and its condition holds. -/
structure Overlooked (s : StepDef) : Prop where
  freed : freed d run s = true
  waits : allDepsCompleted s.dependsOn (completedSet run) = false
  unwanted : skipHolds run s = true

/-- The steps at work and the freed ones among `before` leave no room. -/
def NoRoom (before : List StepDef) : Prop :=
  ∃ limit, d.concurrency = some limit ∧ 0 < limit.maxSteps ∧
    limit.maxSteps ≤ countActiveSteps run + before.countP (freed d run)

end

lemma status_markSkipped_of_mem {skipped : List StepDef} {id : String}
    (h : id ∈ skipped.map (·.id)) : ((markSkipped run skipped).step id).status = .skipped := by
  induction skipped generalizing run with
  | nil => cases h
  | cons s rest ih =>
    by_cases hrest : id ∈ rest.map (·.id)
    · exact ih hrest
    · obtain rfl : s.id = id := by simpa [hrest, eq_comm] using h
      exact (congrArg StepState.status (step_markSkipped_of_not_mem hrest)).trans (by simp)

lemma step_markSkipped_output (skipped : List StepDef) (run : WorkflowRun)
    (id : String) : ((markSkipped run skipped).step id).output = (run.step id).output := by
  induction skipped generalizing run with
  | nil => rfl
  | cons s rest ih =>
    exact (ih _).trans (run.proj_setStep StepState.output (by rfl) id)

lemma completedSet_resolveSkips :
    completedSet (resolveSkips d run) = resolvedNow d run := by
  funext id
  by_cases h : id ∈ (skippedNow d run).map (·.id)
  · have hnow : (skippedNow d run).any (·.id = id) = true := by
      simpa [List.any_eq_true] using h
    rw [resolvedNow, hnow, Bool.or_true]
    exact completedSet_of_skipped (status_markSkipped_of_mem h)
  · have hnow : (skippedNow d run).any (·.id = id) = false := by
      simpa [List.any_eq_false] using h
    rw [resolvedNow, hnow, Bool.or_false]
    exact completedSet_congr (step_markSkipped_of_not_mem h)

lemma openSteps_eq : openSteps d run = candidates d run := by
  unfold openSteps candidates freed resolveReady
  rw [List.filter_filter, completedSet_resolveSkips]
  refine List.filter_congr fun s _ => ?_
  by_cases hnow : resolvedNow d run s.id = true
  · simp [hnow]
  · have hnot : ((resolveSkips d run).step s.id).status ≠ .skipped := by
      rw [← completedSet_resolveSkips] at hnow
      exact fun hskip => hnow (completedSet_of_skipped hskip)
    simp [hnot]

lemma candidates_of_complete (h : isComplete d (completedSet (resolveSkips d run)) = true) :
    candidates d run = [] := by
  rw [completedSet_resolveSkips] at h
  refine List.filter_eq_nil_iff.mpr fun s hs => ?_
  have hdone := List.all_eq_true.mp h s hs
  rw [Bool.or_eq_true] at hdone
  rcases hdone with hdone | haux
  · simp [freed, hdone]
  · simp [freed, haux]

section

variable (d run)

lemma limitSteps_resolveSkips (steps : List StepDef) :
    limitSteps d (resolveSkips d run) steps = some (inRoom d run steps) ∨
    limitSteps d (resolveSkips d run) steps = none ∧ inRoom d run steps = [] := by
  unfold limitSteps inRoom
  rw [countActiveSteps_resolveSkips]
  cases d.concurrency with
  | none => exact .inl rfl
  | some limit =>
    dsimp only
    split
    · split
      · next hfull =>
        exact .inr ⟨rfl, by rw [Int.toNat_of_nonpos hfull, List.take_zero]⟩
      · exact .inl rfl
    · exact .inl rfl

lemma inRoom_nil : inRoom d run [] = [] := by
  unfold inRoom
  split
  · rfl
  · split <;> simp

lemma resolveReadySteps_eq : resolveReadySteps d run =
      if !(skippedNow d run).isEmpty && isComplete d (completedSet (resolveSkips d run))
      then .complete (resolveSkips d run)
      else
        match limitSteps d (resolveSkips d run) (openSteps d run) with
        | none => .full
        | some ready => .ready (resolveSkips d run) ready :=
  rfl

lemma plannedSteps_eq : plannedSteps d run = inRoom d run (candidates d run) := by
  unfold plannedSteps
  rw [resolveReadySteps_eq, openSteps_eq]
  by_cases hdone : (!(skippedNow d run).isEmpty &&
      isComplete d (completedSet (resolveSkips d run))) = true
  · rw [if_pos hdone]
    rw [Bool.and_eq_true] at hdone
    rw [candidates_of_complete hdone.2, inRoom_nil]
  · rw [if_neg hdone]
    rcases limitSteps_resolveSkips d run (candidates d run) with hroom | ⟨hfull, hnone⟩
    · rw [hroom]
    · rw [hfull, hnone]

end

lemma inRoom_subset {steps : List StepDef} (h : s ∈ inRoom d run steps) : s ∈ steps := by
  unfold inRoom at h
  split at h
  · exact h
  · split at h
    · exact List.mem_of_mem_take h
    · exact h

lemma skipHolds_resolveSkips :
    skipHolds (resolveSkips d run) s = skipHolds run s := by
  have houtput : ∀ id, ((resolveSkips d run).step id).output = (run.step id).output :=
    fun id => step_markSkipped_output _ run id
  unfold skipHolds
  congr 1
  funext c
  exact ParentCond.evaluate_congr (houtput c.stepID)

/-- A freed step whose condition holds was waiting for a step that the call skips. -/
lemma waits_of_freed (hmem : s ∈ d.steps) (h : freed d run s = true)
    (hskip : skipHolds run s = true) : Overlooked d run s := by
  refine ⟨h, Bool.eq_false_iff.mpr fun hdeps => ?_, hskip⟩
  -- With all dependencies resolved before, the call would have skipped it.
  simp only [freed, Bool.and_eq_true, Bool.not_eq_true', Bool.or_eq_false_iff] at h
  obtain ⟨⟨⟨hopen, hqueued⟩, -⟩, -⟩ := h
  rw [resolvedNow, Bool.or_eq_false_iff] at hopen
  obtain ⟨c, hc, heval⟩ := (Option.any_eq_true ..).mp hskip
  have hnow : s ∈ skippedNow d run :=
    List.mem_filter.mpr ⟨hmem, by simp [hopen.1, hqueued, hc, hdeps, heval]⟩
  exact List.any_eq_false.mp hopen.2 s hnow (decide_eq_true rfl)

/-- The first `n` of the elements that pass a test have fewer than `n` of them before. -/
lemma mem_take_filter {α : Type} {test : α → Bool} {xs : List α} {x : α} {n : ℕ} :
    x ∈ (xs.filter test).take n ↔ ∃ before after, xs = before ++ x :: after ∧
      test x = true ∧ before.countP test < n := by
  induction xs generalizing n with
  | nil => simp
  | cons y ys ih =>
    have hsplit : ∀ {m : ℕ}, (∃ before after, y :: ys = before ++ x :: after ∧ test x = true ∧
        before.countP test < m) ↔ (y = x ∧ test x = true ∧ 0 < m) ∨
        ∃ before after, ys = before ++ x :: after ∧ test x = true ∧
          (y :: before).countP test < m := by
      intro m
      constructor
      · rintro ⟨before, after, heq, hx, hlt⟩
        cases before with
        | nil =>
          obtain ⟨rfl, -⟩ := List.cons.inj heq
          exact .inl ⟨rfl, hx, hlt⟩
        | cons z before =>
          obtain ⟨rfl, hys⟩ := List.cons.inj heq
          exact .inr ⟨before, after, hys, hx, hlt⟩
      · rintro (⟨rfl, hx, hlt⟩ | ⟨before, after, rfl, hx, hlt⟩)
        · exact ⟨[], ys, rfl, hx, hlt⟩
        · exact ⟨y :: before, after, rfl, hx, hlt⟩
    rw [hsplit]
    by_cases hy : test y = true
    · cases n with
      | zero => simp
      | succ n =>
        simp only [List.filter_cons_of_pos hy, List.take_succ_cons, List.mem_cons, ih,
          List.countP_cons_of_pos hy, Nat.add_lt_add_iff_right, Nat.zero_lt_succ, and_true]
        refine or_congr_left ⟨?_, fun h => h.1.symm⟩
        rintro rfl
        exact ⟨rfl, hy⟩
    · simp only [List.filter_cons_of_neg hy, ih, List.countP_cons_of_neg hy]
      refine ⟨.inr, ?_⟩
      rintro (⟨rfl, hx, -⟩ | h)
      · exact absurd hx hy
      · exact h

lemma mem_plannedSteps : s ∈ plannedSteps d run ↔ ∃ before after,
    d.steps = before ++ s :: after ∧ freed d run s = true ∧ ¬NoRoom d run before := by
  rw [plannedSteps_eq, inRoom, candidates]
  have hall : s ∈ d.steps.filter (freed d run) ↔ ∃ before after,
      d.steps = before ++ s :: after ∧ freed d run s = true := by
    rw [List.mem_filter, List.mem_iff_append]
    exact ⟨fun ⟨⟨before, after, h⟩, hs⟩ => ⟨before, after, h, hs⟩,
      fun ⟨before, after, h, hs⟩ => ⟨⟨before, after, h⟩, hs⟩⟩
  cases hlimit : d.concurrency with
  | none => simpa [NoRoom, hlimit] using hall
  | some limit =>
    dsimp only
    split
    · next hpos =>
      rw [mem_take_filter]
      refine exists₂_congr fun before after => and_congr_right fun _ => and_congr_right fun _ => ?_
      simp only [NoRoom, hlimit, Option.some.injEq, exists_eq_left', hpos, true_and]
      omega
    · next hpos => simpa [NoRoom, hlimit, hpos] using hall

/-- **Skip conditions are respected** by a call exactly where every step that waits,
with a condition that holds, for a step that the call skips finds no room. -/
theorem skipIf_respected_iff (d : WorkflowDef) (run : WorkflowRun) :
    (∀ s ∈ plannedSteps d run, Dispatchable (resolveSkips d run) s) ↔
    ∀ before s after, d.steps = before ++ s :: after → Overlooked d run s →
      NoRoom d run before := by
  constructor
  · intro h before s after hsplit hover
    by_contra hroom
    have hwanted := (h s (mem_plannedSteps.mpr ⟨before, after, hsplit, hover.freed, hroom⟩)).wanted
    rw [skipHolds_resolveSkips, hover.unwanted] at hwanted
    cases hwanted
  · intro h s hs
    obtain ⟨before, after, hsplit, hfreed, hroom⟩ := mem_plannedSteps.mp hs
    refine ⟨?_, Bool.eq_false_iff.mpr fun hskip => hroom (h before s after hsplit ?_)⟩
    · rw [completedSet_resolveSkips]
      exact (Bool.and_eq_true_iff.mp hfreed).2
    · rw [skipHolds_resolveSkips] at hskip
      exact waits_of_freed (hsplit ▸ by simp) hfreed hskip

namespace Unwanted

/-- The output of `a` tells that a step is not wanted. -/
def condition : ParentCond where
  stepID := "a"
  field := "k"
  op := "=="
  value := .str "v"

/-- None of `b`, `c` and `e` is wanted, and each comes after the one before. -/
def workflow : WorkflowDef where
  name := "unwanted"
  steps := [{ id := "a", task := "work" },
    { id := "b", task := "work", dependsOn := ["a"], skipIf := some condition },
    { id := "c", task := "work", dependsOn := ["a", "b"], skipIf := some condition },
    { id := "e", task := "work", dependsOn := ["a", "c"], skipIf := some condition }]

def script : List (Order Orchestrator.plain.system) :=
  launched _ workflow ++
  [publish { answered .stepCompleted "a" 5 with payload := .doc (.obj [("k", .str "v")]) }] ++
  perform (.handle 10)

/-- The run is stored with a plan that contains a step whose condition holds. -/
def plansUnwanted (run : WorkflowRun) : Bool :=
  run.runID = "r" && (plannedSteps workflow run).any fun s =>
    s.id = "e" && skipHolds (resolveSkips workflow run) s

/-- The completion of `a` skips `b`, the dispatch that follows skips `c`, and `e`
is sent although its condition holds. -/
theorem unwanted_step_dispatched : Valid Orchestrator.plain workflow ∧ ∃ p :
    Pool Orchestrator.plain.system, Pool.Reaches Conditions.free (emptyPool Orchestrator.plain) p ∧
    (∃ i run, Wrote p.state.log i run ∧ plansUnwanted run = true) ∧ ∃ t, .task t ∈ p.state.log ∧
    t.runID = "r" ∧ t.stepID = "e" := by
  refine ⟨by decide +kernel, ?_⟩
  obtain ⟨p, hp, htest⟩ := reaches_free Orchestrator.plain
    script (fun p => p.state.wroteAt 11 plansUnwanted &&
      p.state.sentTask fun t => t.runID = "r" && t.stepID = "e")
  rw [Bool.and_eq_true] at htest
  obtain ⟨run, hwrote, hplans⟩ := World.wroteAt_wrote htest.1
  obtain ⟨t, hmem, htask⟩ := World.sentTask_iff.mp htest.2
  rw [Bool.and_eq_true, decide_eq_true_eq, decide_eq_true_eq] at htask
  exact ⟨p, hp, ⟨11, run, hwrote, hplans⟩, t, hmem, htask.1, htask.2⟩

end Unwanted

/-- `ResolveSkipped` asks for the condition of the step. -/
def asked (run : WorkflowRun) (s : StepDef) : Bool :=
  !(completedSet run s.id || queuedSet run s.id) && allDepsCompleted s.dependsOn (completedSet run)

/-- A later state of the run in which the resolved steps are as they were. -/
def KeepsResolved (run later : WorkflowRun) : Prop :=
  ∀ id, completedSet run id = true →
    completedSet later id = true ∧ (later.step id).output = (run.step id).output

/-- The condition has a known operator and speaks of a dependency, which is
resolved whenever the condition is evaluated; the answer is final. -/
structure Meaningful (s : StepDef) (c : ParentCond) : Prop where
  op : c.op ∈ validOps
  parent : c.stepID ∈ s.dependsOn
  resolved : ∀ run, asked run s = true → completedSet run c.stepID = true
  final : ∀ run later, asked run s = true → Relation.ReflTransGen KeepsResolved run later →
    c.evaluate later = c.evaluate run

lemma KeepsResolved.output {id : String} {later : WorkflowRun}
    (h : Relation.ReflTransGen KeepsResolved run later) (hid : completedSet run id = true) :
    completedSet later id = true ∧ (later.step id).output = (run.step id).output := by
  induction h with
  | refl => exact ⟨hid, rfl⟩
  | tail _ hstep ih =>
    obtain ⟨hdone, houtput⟩ := hstep id ih.1
    exact ⟨hdone, houtput.trans ih.2⟩

lemma Meaningful.of_parent {c : ParentCond} (hop : c.op ∈ validOps)
    (hparent : c.stepID ∈ s.dependsOn) : Meaningful s c := by
  have hres : ∀ run, asked run s = true → completedSet run c.stepID = true := by
    intro run hasked
    rw [asked, Bool.and_eq_true] at hasked
    exact List.all_eq_true.mp hasked.2 _ hparent
  refine ⟨hop, hparent, hres, fun run later hasked hlater => ?_⟩
  exact ParentCond.evaluate_congr (KeepsResolved.output hlater (hres run hasked)).2

/-- Of a step that names a task, validation checks the condition. -/
lemma validate_skipIf {x : Externals} {c : ParentCond} (h : validate x d = .ok ())
    (hs : s ∈ d.steps) (hc : s.skipIf = some c) (htask : s.task ≠ "") :
    c.op ∈ validOps ∧ c.stepID ∈ s.dependsOn := by
  obtain ⟨hfirst, -⟩ := checks_eq_ok (validate_references h)
  obtain ⟨hsingle, -⟩ := checks_eq_ok (forM_eq_ok hfirst s hs)
  unfold validateSingleStep at hsingle
  iterate 4 replace hsingle := (checks_eq_ok hsingle).2
  have hskip := (checks_eq_ok hsingle).1
  simp only [validateSkipIf, hc, if_neg htask] at hskip
  obtain ⟨hop, hskip⟩ := checks_eq_ok hskip
  have hparent := check_eq_ok (checks_eq_ok hskip).2
  exact ⟨by simpa using check_eq_ok hop, by simpa using hparent⟩

/-- **Every condition is meaningful** in an accepted definition exactly where the
conditions of the steps without a task are well formed. -/
theorem skipIf_meaningful_iff {x : Externals} (h : validate x d = .ok ()) :
    (∀ s ∈ d.steps, ∀ c, s.skipIf = some c → Meaningful s c) ↔
    ∀ s ∈ d.steps, ∀ c, s.skipIf = some c → s.task = "" →
      c.op ∈ validOps ∧ c.stepID ∈ s.dependsOn := by
  constructor
  · intro hall s hs c hc _
    exact ⟨(hall s hs c hc).op, (hall s hs c hc).parent⟩
  · intro hbare s hs c hc
    by_cases htask : s.task = ""
    · obtain ⟨hop, hparent⟩ := hbare s hs c hc htask
      exact .of_parent hop hparent
    · obtain ⟨hop, hparent⟩ := validate_skipIf h hs hc htask
      exact .of_parent hop hparent

namespace Unwanted

/-- In the chain every step has a task. -/
theorem conditions_meaningful : Valid Orchestrator.plain workflow ∧
    ∀ s ∈ workflow.steps, ∀ c, s.skipIf = some c → Meaningful s c := by
  have hvalid : Valid Orchestrator.plain workflow := by decide +kernel
  refine ⟨hvalid, (skipIf_meaningful_iff hvalid).mpr fun s hs c _ htask => ?_⟩
  simp only [workflow, List.mem_cons, List.not_mem_nil, or_false] at hs
  rcases hs with rfl | rfl | rfl | rfl <;> simp at htask

/-- Two pauses whose conditions nobody checks: one speaks of a step that it does
not wait for, the other has no operator. -/
def pauses : WorkflowDef where
  name := "pauses"
  steps := [{ id := "a", task := "work" }, { id := "b", task := "work" },
    { id := "p", type := .sleep, config := .doc { duration := second }
      dependsOn := ["b"], skipIf := some condition },
    { id := "q", type := .sleep, config := .doc { duration := second }
      dependsOn := ["a"], skipIf := some { condition with op := "" } }]

/-- `b` is completed and `a` is not. -/
def early : WorkflowRun :=
  ({ runID := "r", workflowID := "pauses" } : WorkflowRun).setStep "b" { status := .completed }

def late : WorkflowRun :=
  early.setStep "a" { status := .completed, output := .doc (.obj [("k", .str "v")]) }

theorem pause_decision_changes : Valid Orchestrator.plain pauses ∧
    ∃ p ∈ pauses.steps, p.skipIf = some condition ∧ "a" ∉ p.dependsOn ∧
    asked early p = true ∧ completedSet early "a" = false ∧ KeepsResolved early late ∧
    condition.evaluate early = false ∧ condition.evaluate late = true ∧
    ∃ q ∈ pauses.steps, q.skipIf = some { condition with op := "" } ∧ "" ∉ validOps := by
  refine ⟨by decide +kernel, pauses.steps[2], by simp [pauses], rfl, by decide,
    by decide, by decide, fun id hid => ?_, by decide +kernel, by decide +kernel,
    pauses.steps[3], by simp [pauses], rfl, by decide⟩
  have hne : "a" ≠ id := by
    rintro rfl
    exact absurd hid (by decide)
  have hstep : late.step id = early.step id := WorkflowRun.step_setStep_of_ne _ _ hne
  exact ⟨(completedSet_congr hstep).trans hid, by rw [hstep]⟩

end Unwanted

end Dagnats
