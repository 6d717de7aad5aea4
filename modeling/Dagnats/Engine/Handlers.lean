import Dagnats.Engine.Attempts

/-!
# The other handlers

Waits, approvals, child workflows, agent inputs, cancellation and the start of
a run: `wait_handlers.go`, `approval.go`, `spawn_handlers.go`,
`agent_inputs.go` and the rest of `orchestrator.go`.
-/

namespace Dagnats

open Interaction

namespace Orchestrator

variable (o : Orchestrator)

def completeRunning (d : WorkflowDef) (run : WorkflowRun) (stepID : String)
    (output : Raw) (site : Site) : M Unit :=
  o.finishOrEnqueue d (run.setStep stepID
    { run.step stepID with status := .completed, output := output }) site

def failRunning (d : WorkflowDef) (run : WorkflowRun) (stepID error : String) : M Unit :=
  let state := { run.step stepID with status := .failed, error := error }
  o.failWorkflow o.enqueueReady (run.setStep stepID state)
    ((findStepDef d stepID).getD { id := "" }) state

/-- The status of the run is not looked at. -/
def handleWaitTimeout (evt : Event) : M Unit := do
  if evt.stepID = "" then panic "handleWaitTimeout: StepID must not be empty"
  else do
    let (d, run) ← o.loadRunAndDef evt.runID
    if (run.step evt.stepID).status ≠ .running then return ()
    else do
      ignoring (request (.removeWaiters evt.runID))
      o.completeRunning d run evt.stepID (.doc (.obj [("timeout", .bool true)])) .waitTimeout

variable (evt : Event)

/-- The status of the run is not looked at. -/
def handleGranted : M Unit := do
  if evt.stepID = "" then panic "HandleGranted: StepID must not be empty"
  else do
    let (d, run) ← o.loadRunAndDef evt.runID
    if (run.step evt.stepID).status ≠ .running then return ()
    else o.completeRunning d run evt.stepID evt.payload .approvalGranted

def handleRejected : M Unit := do
  if evt.stepID = "" then panic "HandleRejected: StepID must not be empty"
  else do
    let (d, run) ← o.loadRunAndDef evt.runID
    if (run.step evt.stepID).status ≠ .running then return ()
    else
      o.failRunning d run evt.stepID
        (if evt.payload.isEmpty then "approval rejected" else evt.payload.toText)

def handleExpired : M Unit := do
  if evt.stepID = "" then panic "HandleExpired: StepID must not be empty"
  else do
    let (d, run) ← o.loadRunAndDef evt.runID
    if (run.step evt.stepID).status ≠ .running then return ()
    else o.failRunning d run evt.stepID "approval timed out"

def loadChildTerminalOutputs (childRunID : String) : M Raw := do
  if childRunID = "" then panic "loadChildTerminalOutputs: childRunID empty"
  else do
    let (d, run) ← o.loadRunAndDef childRunID
    ofFault (collectTerminalOutputs d run)

/-- The status of the run is not looked at. -/
def handleChildCompleted (evt : Event) : M Unit := do
  if evt.stepID = "" then panic "handleChildCompleted: StepID must not be empty"
  else do
    let (d, run) ← o.loadRunAndDef evt.runID
    let state := run.step evt.stepID
    if state.status ≠ .running then return ()
    else do
      let output ← o.loadChildTerminalOutputs state.childRunID
      o.completeRunning d run evt.stepID output .childCompleted

/-- The error text of a `workflow.child.failed` payload. -/
def childError : Raw → Option String
  | .nil => some ""
  | .doc (.obj fields) => (Json.obj fields).strField "error"
  | .doc .null => some ""
  | _ => none

def handleChildFailed (evt : Event) : M Unit := do
  if evt.stepID = "" then panic "handleChildFailed: StepID must not be empty"
  else do
    let (d, run) ← o.loadRunAndDef evt.runID
    if (run.step evt.stepID).status ≠ .running then return ()
    else
      match childError evt.payload with
      | none => throw (.other "unmarshal child failed payload")
      | some error =>
        o.failRunning d run evt.stepID ("child workflow failed: " ++ error)

/-- The payload of a `workflow.spawn` event. -/
structure SpawnPayload where
  childRunID : String
  childWorkflow : String
  parentStepID : String
  input : Raw
  detach : Bool

def decodeSpawn : Raw → Option SpawnPayload
  | .doc (.obj fields) => do
    let j := Json.obj fields
    let childRunID ← j.strField "child_run_id"
    let childWorkflow ← j.strField "child_workflow"
    let parentStepID ← j.strField "parent_step_id"
    let detach ← j.boolField "detach"
    return { childRunID := childRunID, childWorkflow := childWorkflow
             parentStepID := parentStepID, input := j.rawField "input"
             detach := detach }
  | _ => none

def maxNestingDepth : ℕ := 3

/-- Looking at most so many runs up. -/
def nestingDepth : ℕ → String → M ℕ
  | 0, _ => return 0
  | n + 1, runID => do
    match ← outcome (load runID) with
    | .error _ => return 0
    | .ok run =>
      if run.parentRunID = "" then return 0
      else return (← nestingDepth n run.parentRunID) + 1

def inheritParentLineage (child : WorkflowRun) (parentRunID parentStepID : String)
    (detach : Bool) : M WorkflowRun := do
  match ← outcome (load parentRunID) with
  | .ok parent =>
    let root := if parent.rootRunID = "" then parent.runID else parent.rootRunID
    return { child with
      triggerDepth := parent.triggerDepth
      parentRunID := if detach then child.parentRunID else parentRunID
      parentStepID := if detach then child.parentStepID else parentStepID
      rootRunID := if detach then child.runID else root }
  | .error .runNotFound =>
    return { child with
      parentRunID := if detach then child.parentRunID else parentRunID
      parentStepID := if detach then child.parentStepID else parentStepID
      rootRunID := child.runID }
  | .error e => throw e

/-- With `healExistingChild` for a child that exists. -/
def createChildRun (parentRunID : String) (p : SpawnPayload) : M Unit := do
  if p.childWorkflow = "" then
    panic "createChildRun: childWorkflow must not be empty"
  else do
    let d ← loadDef p.childWorkflow
    match ← outcome (load p.childRunID) with
    | .ok existing =>
      if d.name = "" then panic "healExistingChild: childDef must have a name"
      else if existing.status ≠ .running then return ()
      else o.enqueueReady d existing
    | .error .runNotFound => do
      let t ← now
      let child := { newWorkflowRun d p.childRunID (o.defHash d) t with
        input := p.input, status := .running }
      let child ← inheritParentLineage child parentRunID p.parentStepID p.detach
      let child ← saveInitialSnapshot .childInitial child
      o.enqueueReady d child
    | .error e => throw e

def handleWorkflowSpawn (evt : Event) : M Unit := do
  match decodeSpawn evt.payload with
  | none => throw (.other "unmarshal spawn payload")
  | some p =>
    if p.childRunID = "" then
      panic "handleWorkflowSpawn: child_run_id must not be empty"
    else do
      let depth ← nestingDepth (maxNestingDepth + 1) evt.runID
      if maxNestingDepth ≤ depth + 1 then
        throw (.other "max nesting depth 3 exceeded")
      else o.createChildRun evt.runID p

def wakeStep (run : WorkflowRun) (step : StepDef) (input : Bool) : M Unit := do
  let state := run.step step.id
  if !waiting state then panic "wakeStep: step is not waiting"
  else do
    let state := { state with
      waitUntil := none, waitInput := false
      hasInputs := state.hasInputs || input, dispatchUnsent := true }
    let run ← saveSnapshot .wake (run.setStep step.id state)
    o.publishIterationNow run step state
    let _ ← markSent run [step.id]
    return ()

def handleInputQueued (evt : Event) : M Unit := do
  if evt.stepID = "" then panic "handleInputQueued: run and step must not be empty"
  else
    match ← outcome (o.loadRunAndDef evt.runID) with
    | .error _ => return ()
    | .ok (d, run) =>
      let state := run.step evt.stepID
      match findStepDef d evt.stepID with
      | none => return ()
      | some step =>
        if !run.steps.has evt.stepID then return ()
        else if run.status.isTerminal || stepFinished state then
          ignoring (request (.notify (.settleInputs run.runID evt.stepID)))
        else if state.waitInput then o.wakeStep run step true
        else if state.hasInputs then return ()
        else do
          let _ ← saveSnapshot .inputQueued
            (run.setStep evt.stepID { state with hasInputs := true })
          return ()

def handleWaitElapsed (evt : Event) : M Unit := do
  if evt.stepID = "" then panic "handleWaitElapsed: run and step must not be empty"
  else
    match ← outcome (o.loadRunAndDef evt.runID) with
    | .error _ => return ()
    | .ok (d, run) =>
      let state := run.step evt.stepID
      match findStepDef d evt.stepID with
      | none => return ()
      | some step =>
        if run.status.isTerminal || stepFinished state || state.waitUntil.isNone ||
            !evt.hasIdentity || evt.iteration ≠ some state.iterations ||
            evt.dispatchNonce ≠ state.dispatchNonce then return ()
        else o.wakeStep run step false

def cancelUnfinishedSteps (run : WorkflowRun) : WorkflowRun :=
  { run with steps := run.steps.mapVals fun _ s =>
      match s.status with
      | .queued | .running | .pending => { s with status := .cancelled }
      | _ => s }

def cascadeCancelChildren (run : WorkflowRun) : M Unit :=
  Prog.fold (fun _ id => do
    let childRunID := (run.step id).childRunID
    if childRunID = "" then return ()
    else
      match ← outcome (load childRunID) with
      | .error _ => return ()
      | .ok child =>
        if child.parentRunID = "" ∨ child.status ≠ .running then return ()
        else
          ignoring (publishEvent { type := .workflowCancelled, runID := childRunID }))
    run.steps.keys ()

/-- The slots and approval tokens of the cancelled steps; errors are logged.
Without a definition they are found from the run alone. -/
def releaseCancelled (d : Option WorkflowDef) (run : WorkflowRun) : M Unit := do
  Prog.fold (fun _ id =>
    if (run.step id).status ≠ .cancelled then return ()
    else
      match d with
      | some d => o.releaseTaskSlot d run.runID id
      | none => ignoring (request (.notify (.releaseTask "" run.runID id))))
    run.steps.keys ()
  ignoring (request (.notify (.deleteTokens run.runID)))

/-- `handleWorkflowCancelled`, with `d` the definition if it still exists. -/
def cancelRun (d : Option WorkflowDef) (run : WorkflowRun) : M Unit := do
  let run := cancelUnfinishedSteps run
  o.releaseCancelled d run
  ignoring (request (.removeWaiters run.runID))
  cascadeCancelChildren run
  o.deleteBinding run.runID
  let run ← finalizeRun run .cancelled (o.releaseAdmission o.enqueueReady run)
  ignoring (request (.notify (.signalCancel run.runID)))
  notifyParentIfChild run (some "cancelled")

def handleWorkflowCancelled : M Unit := do
  let run ← load evt.runID
  if run.status ≠ .running then return ()
  else
    match ← outcome (o.loadPinnedOrLatestDef run) with
    | .ok d => o.cancelRun (some (effectiveDef d run)) run
    | .error e =>
      if isDefUnresolvable e then o.cancelRun none run else throw e

end Orchestrator

end Dagnats
