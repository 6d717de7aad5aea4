import Dagnats.Properties.CompletionWrites

/-!
# The pure core and the orchestrator

`Advance` of `advance.go` with the side effects it returns, next to what
`handleStepCompleted` writes for the same completion. The handler takes the run from
`Advance`, but none of the effects: it recovers and compensates, and `enqueueReady`
resolves the run once more.
-/

namespace Dagnats

open Interaction

variable {d : WorkflowDef} {run run' : WorkflowRun} {stepID : String} {payload : Raw}

/-- As far as a completion produces them. -/
inductive SideEffect where
  | enqueueTask (step : StepDef) (input : Raw)
  | completeWorkflow
  | skipStep (stepID : String)

section

variable (d : WorkflowDef) (run : WorkflowRun)

/-- `none` is its panic. -/
def resolveNextSteps : Option (WorkflowRun × List SideEffect) :=
  let skipped := (skippedNow d run).map fun s => SideEffect.skipStep s.id
  let run := resolveSkips d run
  if isComplete d (completedSet run) then
    some ({ run with status := .completed }, skipped ++ [.completeWorkflow])
  else
    let ready := (resolveReady d (completedSet run) (queuedSet run)).filter fun s =>
      (run.step s.id).status ≠ .skipped
    (ready.mapM fun s => (resolveInput s run).map (SideEffect.enqueueTask s)).map
      fun tasks => (run, skipped ++ tasks)

/-- `Advance` on `step.completed`. -/
def advance (stepID : String) (payload : Raw) : Option (WorkflowRun × List SideEffect) :=
  resolveNextSteps d (completedRun run stepID payload)

variable (effects : List SideEffect)

def enqueuedSteps : List StepDef :=
  effects.filterMap fun
    | .enqueueTask s _ => some s
    | _ => none

def skippedIDs : List String :=
  effects.filterMap fun
    | .skipStep id => some id
    | _ => none

def declaresComplete : Bool :=
  effects.any fun
    | .completeWorkflow => true
    | _ => false

lemma filter_ready_resolveSkips :
    ((resolveReady d (completedSet run) (queuedSet run)).filter fun s =>
      (run.step s.id).status ≠ .skipped) =
      resolveReady d (completedSet run) (queuedSet run) := by
  refine List.filter_eq_self.mpr fun s hs => ?_
  have hopen := (List.mem_filter.mp hs).2
  simp only [Bool.and_eq_true, Bool.not_eq_true', Bool.or_eq_false_iff] at hopen
  have hnot : (run.step s.id).status ≠ .skipped := fun hskip => by
    simp [completedSet, hskip] at hopen
  simpa using hnot

end

/-- The effects that enqueue `ready`. -/
structure Enqueues (ready : List StepDef) (tasks : List SideEffect) : Prop where
  enqueued : enqueuedSteps tasks = ready
  skipped : skippedIDs tasks = []
  complete : declaresComplete tasks = false

lemma enqueues_of_mapM {ready : List StepDef} {tasks : List SideEffect}
    (h : (ready.mapM fun s => (resolveInput s run).map (SideEffect.enqueueTask s)) = some tasks) :
    Enqueues ready tasks := by
  induction ready generalizing tasks with
  | nil =>
    cases h
    exact ⟨rfl, rfl, rfl⟩
  | cons s rest ih =>
    rw [List.mapM_cons] at h
    cases hinput : resolveInput s run with
    | none => simp [hinput] at h
    | some input =>
      cases hrest : rest.mapM fun s =>
          (resolveInput s run).map (SideEffect.enqueueTask s) with
      | none => simp [hinput, hrest] at h
      | some more =>
        obtain rfl : SideEffect.enqueueTask s input :: more = tasks := by
          simpa [hinput, hrest] using h
        have hmore := ih hrest
        exact ⟨congrArg (s :: ·) hmore.enqueued, hmore.skipped, hmore.complete⟩

variable (xs ys : List SideEffect)

lemma skippedIDs_append : skippedIDs (xs ++ ys) = skippedIDs xs ++ skippedIDs ys :=
  List.filterMap_append

lemma enqueuedSteps_append : enqueuedSteps (xs ++ ys) = enqueuedSteps xs ++ enqueuedSteps ys :=
  List.filterMap_append

lemma declaresComplete_append :
    declaresComplete (xs ++ ys) = (declaresComplete xs || declaresComplete ys) :=
  List.any_append

lemma skips_effects (steps : List StepDef) :
    skippedIDs (steps.map fun s => SideEffect.skipStep s.id) = steps.map (·.id) ∧
    enqueuedSteps (steps.map fun s => SideEffect.skipStep s.id) = [] ∧
    declaresComplete (steps.map fun s => SideEffect.skipStep s.id) = false := by
  induction steps with
  | nil => exact ⟨rfl, rfl, rfl⟩
  | cons s rest ih => exact ⟨congrArg (s.id :: ·) ih.1, ih.2.1, ih.2.2⟩

/-- What `Advance` returns: the run after one round of skips, declared complete or
with every ready step enqueued. -/
structure CoreResult (d : WorkflowDef) (run : WorkflowRun) (stepID : String)
    (payload : Raw) (run' : WorkflowRun) (effects : List SideEffect) : Prop where
  steps : run'.steps = (resolveSkips d (completedRun run stepID payload)).steps
  skipped : skippedIDs effects = (skippedNow d (completedRun run stepID payload)).map (·.id)
  complete : declaresComplete effects = isComplete d (completedSet run')
  enqueued : enqueuedSteps effects =
    if isComplete d (completedSet run') then []
    else resolveReady d (completedSet run') (queuedSet run')

variable {effects : List SideEffect}

lemma advance_spec (h : advance d run stepID payload = some (run', effects)) :
    CoreResult d run stepID payload run' effects := by
  unfold advance resolveNextSteps at h
  dsimp only at h
  rw [filter_ready_resolveSkips] at h
  obtain ⟨hskipped, hnone, hopen⟩ := skips_effects (skippedNow d (completedRun run stepID payload))
  split at h
  · next hdone =>
    cases h
    have hdone' : isComplete d (completedSet { resolveSkips d
      (completedRun run stepID payload) with status := .completed }) = true := hdone
    refine ⟨rfl, ?_, ?_, ?_⟩
    · rw [skippedIDs_append, hskipped]
      exact List.append_nil _
    · rw [declaresComplete_append, hopen, hdone']
      rfl
    · rw [enqueuedSteps_append, hnone, if_pos hdone']
      rfl
  · next hdone =>
    obtain ⟨tasks, htasks, heq⟩ := Option.map_eq_some_iff.mp h
    cases heq
    have henqueues := enqueues_of_mapM htasks
    refine ⟨rfl, ?_, ?_, ?_⟩
    · rw [skippedIDs_append, hskipped, henqueues.skipped, List.append_nil]
    · rw [declaresComplete_append, hopen, henqueues.complete, Bool.eq_false_iff.mpr hdone]
      rfl
    · rw [enqueuedSteps_append, hnone, henqueues.enqueued, if_neg hdone, List.nil_append]

/-! ## What the orchestrator writes -/

def recovers (d : WorkflowDef) (run : WorkflowRun) (stepID : String) : Bool :=
  d.steps.any fun s => s.onFailure = stepID && (run.step s.id).status = .failed

/-- What `Advance` asks for. -/
def proposes (effects : List SideEffect) : Decision where
  complete := declaresComplete effects
  skips := id
  closes _ := false
  planned _ := enqueuedSteps effects

lemma step_congr {run run' : WorkflowRun} (h : run.steps = run'.steps) : run.step = run'.step := by
  funext id
  rw [WorkflowRun.step, h, ← WorkflowRun.step]

lemma recoverIfOnFailure_of_not_recovers (h : recovers d run stepID = false) :
    recoverIfOnFailure d run stepID = run := by
  unfold recoverIfOnFailure
  rw [List.find?_eq_none.mpr fun s hs => by
    have := List.any_eq_false.mp h s hs
    simpa using this]

/-- A step that the completion recovers stays recovered in the conclusion. -/
lemma recoverIfOnFailure_of_recovers (h : recovers d run stepID = true) : ∃ s ∈ d.steps,
    s.onFailure = stepID ∧ (run.step s.id).status = .failed ∧
    recoverIfOnFailure d run stepID =
      skipDependents d (run.setStep s.id { run.step s.id with status := .recovered }) s.id ∧
    ((recoverIfOnFailure d run stepID).step s.id).status = .recovered := by
  unfold recoverIfOnFailure
  split
  · next hnone =>
    obtain ⟨s, hs, hnames⟩ := List.any_eq_true.mp h
    exact absurd hnames (by simpa using List.find?_eq_none.mp hnone s hs)
  · next s hs =>
    have hfailed := List.find?_some hs
    simp only [Bool.and_eq_true, decide_eq_true_eq] at hfailed
    refine ⟨s, List.mem_of_find?_eq_some hs, hfailed.1, hfailed.2, rfl, ?_⟩
    rcases step_skipDependents d
      (run.setStep s.id { run.step s.id with status := .recovered }) s.id s.id with h | h
    · rw [h, WorkflowRun.step_setStep_self]
    · simp at h

lemma resolveSkips_of_nothing (h : skippedNow d run = []) : resolveSkips d run = run := by
  rw [show resolveSkips d run = markSkipped run (skippedNow d run) from rfl, h]
  rfl

lemma candidates_of_nothing (h : skippedNow d run = []) :
    candidates d run = resolveReady d (completedSet run) (queuedSet run) := by
  have hres : resolvedNow d run = completedSet run := by
    rw [← completedSet_resolveSkips, resolveSkips_of_nothing h]
  unfold candidates freed
  rw [hres]
  rfl

/-- The definition does not limit the steps of a run. -/
def unlimited (d : WorkflowDef) : Bool :=
  d.concurrency.all (·.maxSteps ≤ 0)

lemma inRoom_of_unlimited (h : unlimited d = true) (steps : List StepDef) :
    inRoom d run steps = steps := by
  unfold inRoom
  split
  · rfl
  · next limit hlimit =>
    refine if_neg ?_
    simpa [unlimited, hlimit] using h

/-- What `Advance` skips is what was not skipped before and is afterwards. -/
lemma CoreResult.skipped_iff (h : CoreResult d run stepID payload run' effects) (id : String) :
    id ∈ skippedIDs effects ↔
    ((completedRun run stepID payload).step id).status ≠ .skipped ∧ (run'.step id).status =
    .skipped := by
  rw [h.skipped, step_congr h.steps]
  constructor
  · intro hin
    obtain ⟨s, hs, rfl⟩ := List.mem_map.mp hin
    refine ⟨?_, status_markSkipped_of_mem hin⟩
    rcases (resolveSkipped_open hs).2 with h' | h' <;> simp [h']
  · rintro ⟨hbefore, hafter⟩
    by_contra hout
    rw [show (resolveSkips d (completedRun run stepID payload)).step id = _ from
      step_markSkipped_of_not_mem hout] at hafter
    exact hbefore hafter

lemma unlimited_effectiveDef : unlimited (effectiveDef d run) = unlimited d := by
  unfold effectiveDef
  split <;> rfl

/-- The snapshot of a completion that recovers nothing is that of `Advance`. -/
lemma CoreResult.work (h : CoreResult d run stepID payload run' effects)
    (hrecovers : recovers d run' stepID = false) :
    SameWork run' (concludes d run stepID payload) := by
  have hstep := step_congr h.steps
  unfold recovers at hrecovers
  rw [hstep] at hrecovers
  intro id
  rw [concludes, recoverIfOnFailure_of_not_recovers hrecovers, hstep]

/-- Where a second round skips nothing, the dispatch takes up what `Advance` enqueues. -/
lemma CoreResult.decides (h : CoreResult d run stepID payload run' effects)
    (hlimit : unlimited d = true) (hopen : isComplete d (completedSet run') = false)
    (hnone : skippedNow d run' = []) {result stored : WorkflowRun} (hwork : SameWork run' stored) :
    (proposes effects).skips stored = (Dagnats.decides d result).skips stored ∧
    (proposes effects).closes stored = (Dagnats.decides d result).closes stored ∧
    (proposes effects).planned stored = (Dagnats.decides d result).planned stored := by
  have hnone' : skippedNow d stored = [] := hwork.skippedNow.trans hnone
  refine ⟨(resolveSkips_of_nothing hnone').symm, by simp [proposes, Dagnats.decides, hnone'], ?_⟩
  simp only [proposes, Dagnats.decides]
  rw [plannedSteps_eq, inRoom_of_unlimited hlimit, candidates_of_nothing hnone', h.enqueued,
    if_neg (by simp [hopen]), hwork.completedSet, hwork.queuedSet]

/-- The stored run is the one that `Advance` and its effects lead to: the enqueued
steps were dispatched, and the others are as `Advance` left them. -/
def followsCore (run' : WorkflowRun) (effects : List SideEffect) (stored : WorkflowRun) : Bool :=
  stored.steps.keys.all fun id =>
    if (enqueuedSteps effects).any (·.id = id) then
      (stored.step id).dispatchNonce ≠ (run'.step id).dispatchNonce
    else (stored.step id).status = (run'.step id).status &&
      (stored.step id).dispatchNonce = (run'.step id).dispatchNonce

/-- In some run of a valid definition without `MaxSteps`, the handler of an accepted
completion leads elsewhere than `Advance`. -/
def Differs (o : Orchestrator) (d : WorkflowDef) (e : Event) : Prop :=
  Valid o d ∧ unlimited d = true ∧
  ∃ (p : Pool o.system) (rev rev' : ℕ) (run run' stored : WorkflowRun) (effects : List SideEffect)
    (w : World), Pool.Reaches Conditions.free (emptyPool o) p ∧ p.state.latest e.runID = some
    (rev, run) ∧ awaiting o d e run = true ∧ advance (effectiveDef d run) run e.stepID e.payload =
    some (run', effects) ∧ Runs o.system (Apart e.runID) p.state (o.handleStepCompleted e) w
    (.pure ()) ∧ w.latest e.runID = some (rev', stored) ∧ followsCore run' effects stored = false

def differsAfter (o : Orchestrator) (d : WorkflowDef) (e : Event)
    (script : List (Order o.system)) : Bool :=
  ((emptyPool o).follow Checks.free script).any fun p =>
    (p.state.latest e.runID).any fun x => awaiting o d e x.2 &&
      (advance (effectiveDef d x.2) x.2 e.stepID e.payload).any fun result =>
        (Prog.play o.system World.calm 400 p.state (o.handleStepCompleted e)).any fun y =>
          y.2.isPure && (y.1.latest e.runID).any fun z =>
            !followsCore result.1 result.2 z.2

lemma differs_of_script {o : Orchestrator} {d : WorkflowDef} {e : Event}
    (script : List (Order o.system)) (hvalid : Valid o d) (hlimit : unlimited d = true)
    (h : differsAfter o d e script = true) : Differs o d e := by
  obtain ⟨p, hp, htest⟩ := Pool.exists_reaches_of_follow Checks.free_sound h
  obtain ⟨⟨rev, run⟩, hlatest, htest⟩ := (Option.any_eq_true ..).mp htest
  rw [Bool.and_eq_true] at htest
  obtain ⟨⟨run', effects⟩, hadvance, htest'⟩ := (Option.any_eq_true ..).mp htest.2
  obtain ⟨⟨w, q⟩, hplay, hend⟩ := (Option.any_eq_true ..).mp htest'
  rw [Bool.and_eq_true] at hend
  obtain ⟨a, rfl⟩ := Prog.eq_pure_of_isPure hend.1
  obtain ⟨⟨rev', stored⟩, hlatest', hfollows⟩ := (Option.any_eq_true ..).mp hend.2
  exact ⟨hvalid, hlimit, p, rev, rev', run, run', stored, effects, w, hp, hlatest, htest.1,
    hadvance, Prog.play_runs Apart.refl hplay, hlatest', by simpa using hfollows⟩

namespace Cores

/-- The steps of a chain are not wanted. -/
def unwanted : WorkflowDef where
  name := "unwanted"
  steps := [{ id := "a", task := "work" }, { id := "x", task := "work" },
    { id := "b", task := "work", dependsOn := ["a"], skipIf := some Unwanted.condition },
    { id := "c", task := "work", dependsOn := ["a", "b"]
      skipIf := some Unwanted.condition }]

/-- `h` makes up for a failure of `a`. -/
def mended : WorkflowDef where
  name := "mended"
  steps := [{ id := "a", task := "work", onFailure := "h" }, { id := "x", task := "work" },
    { id := "h", task := "mend" }]
  auxSteps := ["h"]

/-- `a` and `b` are undone when `c` fails. -/
def undone : WorkflowDef where
  name := "undone"
  steps := [{ id := "a", task := "work", compensate := "ua" },
    { id := "b", task := "work", compensate := "ub", dependsOn := ["a"] },
    { id := "c", task := "work", dependsOn := ["b"] },
    { id := "ua", task := "undo" }, { id := "ub", task := "undo" }]
  auxSteps := ["ua", "ub"]

def planned : WorkflowDef where
  name := "planned"
  steps := [Restarts.planner "p", { id := "x", task := "work" }]

def completedWith (stepID : String) (nonce : ℕ) (payload : Raw) : Event :=
  { answered .stepCompleted stepID nonce with payload := payload }

/-- `a` and `b` complete, and `c` fails. -/
def undoneScript : List (Order Orchestrator.plain.system) :=
  launched _ undone ++ [publish (answered .stepCompleted "a" 5)] ++ perform (.handle 10) ++
  [publish (answered .stepCompleted "b" 12)] ++ perform (.handle 17) ++
  [publish (answered .stepFailed "c" 19)] ++ perform (.handle 24)

end Cores

end Dagnats
