import Dagnats.Engine.Publish

/-!
# Ending a run

`finalizeRun` and its callers `completeWorkflow` and `failWorkflow`, the release
of what a run holds, and the queue advance that it triggers: the oldest pending
run of the workflow is moved to running and its first steps are dispatched.

Dispatching may end a run in turn; the source recurses there. The functions
below take the dispatch as an argument, `next`, and `Engine.Dispatch` ties the
knot.
-/

namespace Dagnats

/-- `enqueueReady` as the functions of this module call it. -/
abbrev Next := WorkflowDef → WorkflowRun → M Unit

variable (run : WorkflowRun) (status : RunStatus)

def markTerminal (t : Time) : WorkflowRun :=
  { run with status := status, completedAt := some t }

def publishHistoryTerminalEvent (runID : String) : M Unit :=
  match status with
  | .completed => publishEvent { type := .workflowCompleted, runID := runID }
  | .failed => publishEvent { type := .workflowFailed, runID := runID }
  | _ => return ()

def releaseDebtSaveAttemptsMax : ℕ := 3

/-- With the rounds that are left. -/
def saveReleaseDebt : ℕ → WorkflowRun → M WorkflowRun
  | 0, _ => throw .conflict
  | n + 1, run => do
    match ← outcome (saveSnapshot .releaseDebt
        { run with releasePending := true }) with
    | .ok saved => return saved
    | .error .conflict => do
      let fresh ← load run.runID
      if !fresh.status.isTerminal then
        throw (.other "run lost its terminal status")
      else saveReleaseDebt n fresh
    | .error e => throw e

def finalizeWithReleaseDebt : M WorkflowRun := do
  let run ← saveReleaseDebt releaseDebtSaveAttemptsMax run
  request (.notify (.createActive run.runID))
  ignoring (publishHistoryTerminalEvent status run.runID)
  ignoring (request (.notify (.runEvent run.runID run.status)))
  return run

/-- The one way to a terminal status. A run that is terminal already is returned as it
is. -/
def finalizeRun (afterPersist : M Unit) : M WorkflowRun := do
  if run.status.isTerminal && run.completedAt.isSome then return run
  else do
    let t ← now
    let run ← saveSnapshot .finalize (markTerminal run status t)
    match ← outcome afterPersist with
    | .error _ => finalizeWithReleaseDebt run status
    | .ok _ => do
      ignoring (request (.notify (.deleteActive run.runID)))
      publishHistoryTerminalEvent status run.runID
      ignoring (request (.notify (.runEvent run.runID run.status)))
      return run

def childPayload (error : String) : Raw :=
  .doc (.obj [("child_run_id", .str run.runID), ("error", .str error),
    ("parent_step_id", .str run.parentStepID)])

/-- An error text means the child failed. -/
def notifyParentIfChild (childErr : Option String) : M Unit :=
  if run.parentRunID = "" then return ()
  else
    publishEvent
      { type := match childErr with
          | none => .workflowChildCompleted
          | some _ => .workflowChildFailed
        runID := run.parentRunID, stepID := run.parentStepID
        payload := childPayload run (childErr.getD "") }

def WorkflowRun.effectiveTime : Time :=
  run.createdAt - run.priorityOffset * second

/-- `oldestPendingFromEntries`. -/
def oldestPending (workflowID : String) (runs : List WorkflowRun) : Option WorkflowRun :=
  runs.foldl (fun oldest run =>
    if run.workflowID ≠ workflowID ∨ run.status ≠ .pending then oldest
    else
      match oldest with
      | none => some run
      | some old =>
        if run.effectiveTime < old.effectiveTime then some run else some old)
    none

def listRuns : M (List WorkflowRun) := request .listRuns

namespace Orchestrator

variable (o : Orchestrator) (next : Next)

/-- The status of the loaded run is not looked at. -/
def transitionPendingToRunning (runID : String) : M Unit := do
  let (d, run) ← o.loadRunAndDef runID
  let acquired ← o.acquireSlot d run.runID
  if !acquired then return ()
  else do
    let t ← now
    let run ← saveSnapshot .queueAdvance
      { run with
        status := .running
        deadline := if 0 < d.timeout then some (t + d.timeout) else run.deadline }
    next d run

def startNextPendingRun (workflowID : String) : M Unit := do
  let runs ← listRuns
  match oldestPending workflowID runs with
  | none => return ()
  | some run => o.transitionPendingToRunning next run.runID

variable (run : WorkflowRun)

def releaseAdmission : M Unit := do
  o.releaseSingletonLock run
  if o.hasConcurrency then do
    request (.notify (.releaseRun run.workflowID run.runID))
    ignoring (o.startNextPendingRun next run.workflowID)

def deleteBinding (runID : String) : M Unit :=
  if o.hasSticky then ignoring (request (.notify (.unbindWorker runID)))
  else return ()

/-- What completing or failing a run does after the terminal save. -/
def afterTerminal : M Unit := do
  o.deleteBinding run.runID
  o.releaseAdmission next run

/-- Its errors are logged. -/
def publishDeadLetter (step : StepDef) (reason : String) : M Unit :=
  if step.id = "" then panic "PublishDeadLetter: stepDef.ID must not be empty"
  else ignoring (request (.notify (.deadLetter run.runID step.id reason)))

def failWorkflow (step : StepDef) (state : StepState) : M Unit := do
  let run ← finalizeRun run .failed (o.afterTerminal next run)
  ignoring (loadDef run.workflowID)
  publishDeadLetter run step state.error
  notifyParentIfChild run (some state.error)

/-- The offending step. Without a definition the output is not validated. -/
def outputSchemaViolation : M (Option String) := do
  match ← outcome (loadDef run.workflowID) with
  | .error _ => return none
  | .ok d => return validateRunOutput o.schemaAccepts d run

def failOnOutputSchema (stepID : String) : M Unit :=
  let state := { run.step stepID with
    status := .failed
    error := "output schema violation in step \"" ++ stepID ++ "\"" }
  o.failWorkflow next (run.setStep stepID state) { id := stepID } state

def completeWorkflow : M Unit := do
  match ← o.outputSchemaViolation run with
  | some stepID => o.failOnOutputSchema next run stepID
  | none => do
    let run ← finalizeRun run .completed (o.afterTerminal next run)
    notifyParentIfChild run none

end Orchestrator

end Dagnats
