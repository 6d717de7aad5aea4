import Dagnats.Engine.Recovery

/-!
# Completion of a step

The pure state machine `advance.go`, and the handler of `step.completed`, which
`step.sleep.completed` and `step.wait.matched` share, with the map instances
(`map_handlers.go`) and the planner output (`planner.go`) it branches into.
-/

namespace Dagnats

variable (d : WorkflowDef) (run : WorkflowRun)

/-- One round of skipping. -/
def resolveSkips : WorkflowRun :=
  markSkipped run (resolveSkipped d (completedSet run) (queuedSet run) run)

/-- `Advance` on `step.completed`. The status of a completed run is set in
memory here; the caller finalizes. -/
def advanceCompleted (stepID : String) (payload : Raw) : M WorkflowRun :=
  let run := resolveSkips d (run.setStep stepID
    { run.step stepID with status := .completed, output := payload })
  if isComplete d (completedSet run) then
    return { run with status := .completed }
  else if (resolveReady d (completedSet run) (queuedSet run)).all fun s =>
      (resolveInput s run).isSome then return run
  else panic "resolveNextSteps: ResolveInput"

/-- `Advance` on a permanent `step.failed`, with the run status put back. -/
def advanceFailed (stepID : String) (error : String) : WorkflowRun :=
  resolveSkips d (run.setStep stepID { run.step stepID with status := .failed, error := error })

def maxIterationsError (limit : ℤ) : String :=
  "agent loop exceeded max iterations (" ++ toString limit ++ ")"

/-- `Advance` on `step.continue`: the run, and the error text of a loop that
has reached its last iteration. -/
def advanceContinue (step : StepDef) (run : WorkflowRun) : M (WorkflowRun × Option String) :=
  match parseAgentLoopConfig step with
  | none => panic "advanceContinue"
  | some cfg =>
    let state := { run.step step.id with
      iterations := (run.step step.id).iterations + 1 }
    if 0 < cfg.maxIterations ∧ cfg.maxIterations ≤ state.iterations then
      let error := maxIterationsError cfg.maxIterations
      return ({ run.setStep step.id
          { state with status := .failed, error := error } with
        status := .failed }, some error)
    else
      let run := run.setStep step.id state
      if (resolveInput step run).isSome then return (run, none)
      else panic "advanceContinue: ResolveInput"

def lateEventForTerminalRun (run : WorkflowRun) (evt : Event) : M Bool :=
  if run.runID ≠ evt.runID then
    panic "lateEventForTerminalRun: event and run must name the same run"
  else if evt.stepID = "" then
    panic "lateEventForTerminalRun: only step events are guarded here"
  else return run.status.isTerminal

namespace Orchestrator

variable (o : Orchestrator) (d : WorkflowDef) (run : WorkflowRun)

def finishOrEnqueue (site : Site) : M Unit := do
  if isComplete d (completedSet run) then
    o.completeWorkflow o.enqueueReady run
  else do
    let run ← saveSnapshot site run
    o.enqueueReady d run

def createBinding (d : WorkflowDef) (evt : Event) : M Unit :=
  if o.hasSticky ∧ d.sticky ≠ .none ∧ evt.workerID ≠ "" then
    ignoring (request (.notify (.bindWorker evt.runID evt.workerID)))
  else return ()

def allMapInstancesDone (instances : List MapInstanceState) : Bool :=
  instances.all fun i => i.status = .completed

def mapInstance (run : WorkflowRun) (evt : Event) : M (String × StepState × ℕ) := do
  let (baseID, index) ← ofFault (parseMapInstanceID evt.stepID)
  let state := run.step baseID
  if index < 0 ∨ state.mapInstances.length ≤ index then
    throw (.other "map instance index out of range")
  else return (baseID, state, index.toNat)

/-- The output array of a finished map step. -/
def mapOutputs (instances : List MapInstanceState) : Option Raw :=
  (instances.mapM fun (i : MapInstanceState) => i.output.marshal).map fun items => .doc (.arr items)

def handleMapInstanceCompleted (evt : Event) : M Unit := do
  let (baseID, state, index) ← mapInstance run evt
  let instances := state.mapInstances.modify index fun i =>
    { i with status := .completed, output := evt.payload }
  let state := { state with mapInstances := instances }
  if !allMapInstancesDone instances then do
    let _ ← saveSnapshot .mapInstance (run.setStep baseID state)
    return ()
  else
    match mapOutputs instances with
    | none => throw (.other "marshal map outputs")
    | some collected =>
      o.finishOrEnqueue d (run.setStep baseID
        { state with status := .completed, output := collected }) .mapCompleted

def runMapOnFailure (baseID : String) (state : StepState) (step : StepDef) : M Unit := do
  match findStepDef d step.onFailure with
  | none => return ()
  | some target => do
    let run ← requeue run target.id
    let nonce := (run.step target.id).dispatchNonce
    let run ← saveSnapshot .mapOnFailure run
    o.publish run.runID target (failureInput o.toExternals baseID state.error) run run.workflowID nonce

def failMapStep (baseID : String) (state : StepState) : M Unit := do
  let step := (findStepDef d baseID).getD { id := "" }
  if step.onFailure ≠ "" then o.runMapOnFailure d run baseID state step
  else do
    let run ← finalizeRun run .failed (o.releaseAdmission o.enqueueReady run)
    publishDeadLetter run step state.error
    notifyParentIfChild run (some state.error)

def handleMapInstanceFailed (evt : Event) : M Unit := do
  let (baseID, state, index) ← mapInstance run evt
  let instances := state.mapInstances.modify index fun i =>
    { i with
      status := .failed
      error := if evt.payload.isEmpty then i.error else evt.payload.toText }
  let reason := ((instances[index]?).map (·.error)).getD ""
  let state := { state with
    mapInstances := instances, status := .failed
    error := "map instance " ++ toString index ++ " failed: " ++ reason }
  o.failMapStep d (run.setStep baseID state) baseID state

def failPlannerStep (run : WorkflowRun) (step : StepDef) (reason : String) : M Unit :=
  let state := { run.step step.id with status := .failed, error := reason }
  o.failWorkflow o.enqueueReady (run.setStep step.id state) step state

def parsePlannerPayload (payload : Raw) : Option (List StepDef) :=
  if payload.isEmpty then some [] else o.decodeFragment payload

def wireEntrySteps (fragment : List StepDef) (plannerID : String) : List StepDef :=
  fragment.map fun s =>
    if s.dependsOn.isEmpty then { s with dependsOn := [plannerID] } else s

def maxTotalDynamicSteps : ℕ := 500

def applyFragment (step : StepDef) (fragment : List StepDef) : M Unit := do
  let run := fragment.foldl (fun r s => r.setStep s.id {})
    { run with dynamicSteps := run.dynamicSteps ++ fragment }
  let run ← saveSnapshot .plannerFragment run
  ignoring (publishEvent { type := .plannerMaterialized, runID := run.runID, stepID := step.id })
  o.enqueueReady (effectiveDef d run) run

def materializePlannerOutput (step : StepDef) (payload : Raw) : M Unit := do
  match parsePlannerConfig step with
  | none => o.failPlannerStep run step "parse planner config"
  | some cfg =>
    match o.parsePlannerPayload payload with
    | none => o.failPlannerStep run step "parse planner output"
    | some [] => o.finishOrEnqueue d run .plannerEmpty
    | some fragment =>
      if maxTotalDynamicSteps < run.dynamicSteps.length + fragment.length then
        o.failPlannerStep run step "total dynamic steps"
      else
        let namespaced := namespaceFragment step.id fragment
        match validateFragment namespaced cfg (d.steps.map (·.id)) with
        | .error (.panic msg) => panic msg
        | .error (.error msg) =>
          o.failPlannerStep run step ("validate fragment: " ++ msg)
        | .ok _ =>
          o.applyFragment d run step (wireEntrySteps namespaced step.id)

def completePlannerStep (step : StepDef) (evt : Event) : M Unit := do
  let run := run.setStep evt.stepID
    { run.step evt.stepID with status := .completed, output := evt.payload }
  o.releaseTaskSlot d evt.runID evt.stepID
  o.materializePlannerOutput d run step evt.payload

def completeStep (evt : Event) : M Unit := do
  let run ← advanceCompleted d run evt.stepID evt.payload
  o.releaseTaskSlot d evt.runID evt.stepID
  o.createBinding d evt
  let run := recoverIfOnFailure d run evt.stepID
  if ← o.handleCompensateCompleted o.enqueueReady d run evt.stepID then
    return ()
  else o.finishOrEnqueue d run .stepCompleted

def fenceCompletion (step : Option StepDef) (run : WorkflowRun) (evt : Event) :
    M (Option WorkflowRun) :=
  if (step.map (·.type)) = some .respond then
    return some { run with recording := some ⟨evt, false⟩ }
  else o.fenceStepEvent run evt

def handleStepCompleted (evt : Event) : M Unit := do
  if evt.stepID = "" then panic "handleStepCompleted: StepID must not be empty"
  else do
    let (d, run) ← o.loadRunAndDef evt.runID
    if ← lateEventForTerminalRun run evt then return ()
    else if isMapInstanceID evt.stepID then
      o.handleMapInstanceCompleted d { run with recording := some ⟨evt, false⟩ } evt
    else
      let step := findStepDef d evt.stepID
      match ← o.fenceCompletion step run evt with
      | none => return ()
      | some run =>
        match step with
        | some s =>
          if s.type = .planner then o.completePlannerStep d run s evt
          else o.completeStep d run evt
        | none => o.completeStep d run evt

end Orchestrator

end Dagnats
