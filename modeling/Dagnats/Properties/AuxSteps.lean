import Dagnats.Properties.SkipConditions

/-!
# Steps that run as handlers only

A step that another one names as its on-failure or compensation step is to be
left alone by the ordinary resolution. The resolution looks at the set of aux
steps that the definition carries: the builder computes it, a definition that was
decoded brings its own, and with the first generated step it is computed anew from
all steps, the generated ones included.
-/

namespace Dagnats

open Interaction

variable {d : WorkflowDef} {run : WorkflowRun} {s : StepDef} {id : String}

/-- Steps that others name as handlers take no part in the ordinary resolution,
and the generated steps of the run do not change which static steps do. -/
structure HandlersOnly (d : WorkflowDef) (run : WorkflowRun) : Prop where
  /-- `ResolveReady` returns none of them. -/
  ready : ∀ completed queued, ∀ s ∈ resolveReady (effectiveDef d run) completed queued,
      s.id ∉ buildAuxSteps (effectiveDef d run).steps
  /-- `enqueueReady` plans none of them, whatever copy it is given. -/
  planned : ∀ copy, ∀ s ∈ plannedSteps (effectiveDef d run) copy,
    s.id ∉ buildAuxSteps (effectiveDef d run).steps
  /-- Where `IsComplete` does not hold, another step is missing. -/
  complete : ∀ completed, isComplete (effectiveDef d run) completed = false →
    ∃ s ∈ (effectiveDef d run).steps,
      s.id ∉ buildAuxSteps (effectiveDef d run).steps ∧ completed s.id = false
  static : ∀ s ∈ d.steps, (effectiveDef d run).isAux s.id = d.isAux s.id

/-- Without generated steps, the definition carries all of its handlers; with
them, it carries exactly those of its steps that a static or a generated step
names. -/
def auxConsistent (d : WorkflowDef) (run : WorkflowRun) : Bool :=
  if run.dynamicSteps.isEmpty then (buildAuxSteps d.steps).all d.isAux
  else d.steps.all fun s =>
    d.isAux s.id = (buildAuxSteps (d.steps ++ run.dynamicSteps)).contains s.id

lemma planned_subset_ready (h : s ∈ plannedSteps d run) :
    s ∈ resolveReady d (resolvedNow d run) (queuedSet run) := by
  rw [plannedSteps_eq] at h
  exact inRoom_subset h

lemma plain_of_ready {completed queued : String → Bool} (h : s ∈ resolveReady d completed queued) :
    d.isAux s.id = false := by
  have hs := (List.mem_filter.mp h).2
  simp only [Bool.and_eq_true, Bool.not_eq_true'] at hs
  exact hs.1.2

lemma isAux_effectiveDef (h : run.dynamicSteps.isEmpty = false) :
    (effectiveDef d run).isAux id = (buildAuxSteps (d.steps ++ run.dynamicSteps)).contains id := by
  unfold effectiveDef
  rw [h]
  rfl

lemma steps_effectiveDef (h : run.dynamicSteps.isEmpty = false) :
    (effectiveDef d run).steps = d.steps ++ run.dynamicSteps := by
  unfold effectiveDef
  rw [h]
  rfl

/-- A definition that carries all of its handlers keeps them out of the
resolution. -/
lemma handlersOnly_of_aux
    (haux : ∀ id ∈ buildAuxSteps (effectiveDef d run).steps, (effectiveDef d run).isAux id = true)
    (hstatic : ∀ s ∈ d.steps, (effectiveDef d run).isAux s.id = d.isAux s.id) :
    HandlersOnly d run := by
  have hready : ∀ completed queued, ∀ s ∈ resolveReady (effectiveDef d run) completed queued,
        s.id ∉ buildAuxSteps (effectiveDef d run).steps := by
    intro completed queued s hs hin
    have hplain := plain_of_ready hs
    rw [haux s.id hin] at hplain
    cases hplain
  refine ⟨hready, fun copy s hs => hready _ _ s (planned_subset_ready hs),
    fun completed hnot => ?_, hstatic⟩
  obtain ⟨s, hs, hmissing⟩ := List.all_eq_false.mp hnot
  rw [Bool.not_eq_true, Bool.or_eq_false_iff] at hmissing
  refine ⟨s, hs, fun hin => ?_, hmissing.1⟩
  rw [haux s.id hin] at hmissing
  cases hmissing.2

lemma mem_buildAuxSteps {steps : List StepDef} : id ∈ buildAuxSteps steps ↔
    id ≠ "" ∧ ∃ s ∈ steps, s.onFailure = id ∨ s.compensate = id := by
  unfold buildAuxSteps
  rw [List.mem_flatMap]
  constructor
  · rintro ⟨s, hs, hid⟩
    rcases List.mem_append.mp hid with hid | hid
    · split at hid
      · cases hid
      · next hne =>
        rw [List.mem_singleton] at hid
        exact ⟨hid ▸ hne, s, hs, .inl hid.symm⟩
    · split at hid
      · cases hid
      · next hne =>
        rw [List.mem_singleton] at hid
        exact ⟨hid ▸ hne, s, hs, .inr hid.symm⟩
  · rintro ⟨hne, s, hs, rfl | rfl⟩ <;> exact ⟨s, hs, by simp [hne]⟩

lemma findStepDef_of_mem_ids (h : id ∈ d.steps.map (·.id)) :
    ∃ s ∈ d.steps, s.id = id ∧ findStepDef d id = some s := by
  obtain ⟨s, hs, rfl⟩ := List.mem_map.mp h
  have hsome : (findStepDef d s.id).isSome = true :=
    List.find?_isSome.mpr ⟨s, hs, decide_eq_true rfl⟩
  obtain ⟨t, ht⟩ := Option.isSome_iff_exists.mp hsome
  exact ⟨t, List.mem_of_find?_eq_some ht, by simpa using List.find?_some ht, ht⟩

lemma validateAuxTarget_dependsOn {field target : String}
    (h : validateAuxTarget d s field target = .ok ()) (hne : target ≠ "")
    {t : StepDef} (ht : findStepDef d target = some t) : t.dependsOn = [] := by
  unfold validateAuxTarget at h
  rw [if_neg hne] at h
  have hdeps := check_eq_ok (checks_eq_ok h).2
  rw [ht] at hdeps
  simpa using hdeps

lemma validate_handler {x : Externals} (h : validate x d = .ok ())
    (hid : id ∈ buildAuxSteps d.steps) : ∃ s ∈ d.steps, s.id = id ∧ s.dependsOn = [] := by
  obtain ⟨hne, source, hsource, hnames⟩ := mem_buildAuxSteps.mp hid
  obtain ⟨hsteps, htargets⟩ := checks_eq_ok (validate_references h)
  obtain ⟨hsingle, -⟩ := checks_eq_ok (forM_eq_ok hsteps source hsource)
  obtain ⟨honFailure, hcomp⟩ := checks_eq_ok (forM_eq_ok htargets source hsource)
  -- The references are checked after ten other fields of the step.
  unfold validateSingleStep at hsingle
  iterate 10 replace hsingle := (checks_eq_ok hsingle).2
  obtain ⟨hfirst, hsingle⟩ := checks_eq_ok hsingle
  have hexists : id ∈ d.steps.map (·.id) := by
    rcases hnames with rfl | rfl
    · simpa [hne] using check_eq_ok hfirst
    · simpa [hne] using check_eq_ok (checks_eq_ok hsingle).1
  obtain ⟨s, hs, hsid, hfind⟩ := findStepDef_of_mem_ids hexists
  refine ⟨s, hs, hsid, ?_⟩
  rcases hnames with rfl | rfl
  · exact validateAuxTarget_dependsOn honFailure hne hfind
  · exact validateAuxTarget_dependsOn hcomp hne hfind

/-- **Handlers run as handlers only** exactly where the definition carries the
handlers of the run's steps. -/
theorem handlersOnly_iff {o : Orchestrator} (hvalid : Valid o d) (run : WorkflowRun) :
    HandlersOnly d run ↔ auxConsistent d run = true := by
  unfold auxConsistent
  cases hempty : run.dynamicSteps.isEmpty with
  | true =>
    rw [if_pos rfl, List.all_eq_true]
    have hsame : effectiveDef d _ = d := if_pos hempty
    constructor
    · intro h id hid
      by_contra hplain
      obtain ⟨s, hs, rfl, hdeps⟩ := validate_handler hvalid hid
      -- A handler that is not carried depends on nothing, so it is ready at once.
      have hready : s ∈ resolveReady d (fun _ => false) (fun _ => false) :=
        List.mem_filter.mpr ⟨hs, by simp [hplain, hdeps, allDepsCompleted]⟩
      have hnot := h.ready (fun _ => false) (fun _ => false)
      rw [hsame] at hnot
      exact hnot s hready hid
    · intro h
      exact handlersOnly_of_aux (by rw [hsame]; exact h) (by rw [hsame]; simp)
  | false =>
    rw [if_neg (by decide), List.all_eq_true]
    constructor
    · intro h s hs
      rw [decide_eq_true_eq, ← isAux_effectiveDef hempty]
      exact (h.static s hs).symm
    · intro h
      refine handlersOnly_of_aux (fun id hid => ?_) fun s hs => ?_
      · rw [isAux_effectiveDef hempty]
        rw [steps_effectiveDef hempty] at hid
        simpa using hid
      · rw [isAux_effectiveDef hempty]
        exact (of_decide_eq_true (h s hs)).symm

namespace Decoded

/-- A definition without its set of aux steps, as it may be decoded. -/
def bare : WorkflowDef where
  name := "bare"
  steps := [{ id := "a", task := "work", onFailure := "h" }, { id := "h", task := "mend" }]

/-- The same as the builder makes it. -/
def built : WorkflowDef :=
  { bare with auxSteps := buildAuxSteps bare.steps }

/-- `x` is to follow the planner. -/
def planned : WorkflowDef where
  name := "planned"
  steps := [{ id := "p", task := "plan", type := .planner
              config := .doc { maxSteps := 5, maxDepth := 5, allowedTasks := ["work"] } },
    { id := "x", task := "work", dependsOn := ["p"] }]

/-- The planner generates a step that names `x` as its handler. -/
def planning : Orchestrator :=
  { Orchestrator.plain with
    decodeFragment := fun _ => some [{ id := "g", task := "work", onFailure := "x" }] }

/-- A handler of the built definition runs as a handler only. -/
theorem built_handlersOnly : Valid Orchestrator.plain built ∧
    HandlersOnly built (newWorkflowRun built "r" "" 0) := by
  have hvalid : Valid Orchestrator.plain built := by decide +kernel
  exact ⟨hvalid, (handlersOnly_iff hvalid _).mpr (by decide)⟩

/-- The handler of a definition without aux steps is sent when the run starts;
and a generated step turns the static step `x` into an aux step. -/
theorem handlers_lost : (Valid Orchestrator.plain bare ∧ ∃ p : Pool Orchestrator.plain.system,
        Pool.Reaches Conditions.free (emptyPool Orchestrator.plain) p ∧
        ∃ t, .task t ∈ p.state.log ∧ t.runID = "r" ∧ t.stepID = "h") ∧
    (Valid planning planned ∧ ∃ (p : Pool planning.system) (rev : ℕ) (run : WorkflowRun),
        Pool.Reaches Conditions.free (emptyPool planning) p ∧
        p.state.latest "r" = some (rev, run) ∧
        planned.isAux "x" = false ∧ (effectiveDef planned run).isAux "x" = true) := by
  refine ⟨⟨by decide +kernel, ?_⟩, by decide +kernel, ?_⟩
  · obtain ⟨p, hp, htest⟩ := reaches_free Orchestrator.plain
      (launched _ bare) (fun p => p.state.sentTask fun t => t.runID = "r" && t.stepID = "h")
    obtain ⟨t, hmem, htask⟩ := World.sentTask_iff.mp htest
    rw [Bool.and_eq_true, decide_eq_true_eq, decide_eq_true_eq] at htask
    exact ⟨p, hp, t, hmem, htask.1, htask.2⟩
  · obtain ⟨p, hp, htest⟩ := reaches_free planning
      (launched _ planned ++ [publish { answered .stepCompleted "p" 5 with
          payload := .doc (.str "fragment") }] ++ perform (.handle 8))
          (fun p => (p.state.latest "r").any fun x =>
          (effectiveDef planned x.2).isAux "x")
    obtain ⟨⟨rev, run⟩, hlatest, haux⟩ := (Option.any_eq_true ..).mp htest
    exact ⟨p, rev, run, hp, hlatest, by decide, haux⟩

end Decoded

end Dagnats
