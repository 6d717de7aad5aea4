import Dagnats.Engine.Handlers

/-!
# Starting a run, routing events, timers and the reconciler

`handleWorkflowStarted` with the paths that create, refuse, skip, queue or heal
a run; `dispatchEvent`, which wraps every handler; the actions of a timer that
fires (`sleeptimer.go`); and the periodic `reconcileOneRun`.
-/

namespace Dagnats

open Interaction

/-- `finalizeRun` on a run that was never stored, with nothing to release. -/
def finalizeFresh (run : WorkflowRun) (status : RunStatus) : M Unit := do
  let _ ← finalizeRun run status (Prog.pure ())
  return ()

/-- Errors are logged. -/
def persistFailedStartRun (runID workflowID : String) : M Unit := do
  let t ← now
  ignoring (finalizeFresh { runID := runID, workflowID := workflowID, createdAt := t } .failed)

/-- A run whose only step entry says why it never started. -/
def refusedRun (run : WorkflowRun) (entry reason : String) : WorkflowRun :=
  { run with
    steps := Table.empty.set entry { status := .failed, error := reason }
    singletonKey := "" }

def persistSkippedRun (run : WorkflowRun) (skippedBy : String) : M Unit :=
  if skippedBy = "" then panic "persistSkippedRun: skippedBy must not be empty"
  else
    finalizeFresh (refusedRun run "<admission-skip>"
      ("singleton skip: run already active: " ++ skippedBy)) .cancelled

def persistAdmissionFailedRun (run : WorkflowRun) : M Unit :=
  finalizeFresh (refusedRun run "<admission-failed>" "admission failed") .failed

/-- Errors are logged. -/
def registerCancelWaiters (d : WorkflowDef) (run : WorkflowRun) : M Unit :=
  Prog.fold (fun _ entry => do
    let (cancel, i) := entry
    match cancel.match_.resolve run false with
    | .error (.panic msg) => panic msg
    | .error (.error _) => return ()
    | .ok resolved =>
      if cancel.event = "" then
        panic "Correlator.AddWaiter: EventType must not be empty"
      else
        ignoring (request (.waiter
          { runID := run.runID, stepID := "__cancel_" ++ toString i
            eventType := cancel.event, match_ := resolved
            cancels := true } none)))
    d.cancelOn.zipIdx ()

namespace Orchestrator

variable (o : Orchestrator)

def dispatchNewRun (d : WorkflowDef) (run : WorkflowRun) (doEnqueue : Bool) : M Unit := do
  if !doEnqueue then return ()
  else do
    o.enqueueReady d run
    registerCancelWaiters d run

/-- Dispatch what a started run still owes. -/
def healRun (run : WorkflowRun) : M Unit := do
  if run.status ≠ .running then return ()
  else do
    let d ← o.loadPinnedOrLatestDef run
    let d := effectiveDef d run
    o.enqueueReady d run
    registerCancelWaiters d run

/-- Only a run of a chain is created conditionally. -/
def createOrHealRun (isRunTerminal : Bool) (d : WorkflowDef) (run : WorkflowRun)
    (doEnqueue : Bool) : M Unit := do
  if !isRunTerminal then do
    let run ← saveInitialSnapshot .initial run
    o.dispatchNewRun d run doEnqueue
  else
    match ← createSnapshot .chainInitial run with
    | some run => o.dispatchNewRun d run doEnqueue
    | none =>
      if !doEnqueue then return ()
      else do
        let existing ← load run.runID
        o.healRun existing

def hasReadyPendingSteps (run : WorkflowRun) : M Bool := do
  if run.status ≠ .running then return false
  else do
    let d ← o.loadPinnedOrLatestDef run
    return !(resolveReady (effectiveDef d run) (completedSet run) (queuedSet run)).isEmpty

/-- True where the run exists and the event is done. -/
def startExistingRun (runID : String) (isRunTerminal : Bool) : M Bool := do
  match ← outcome (load runID) with
  | .ok existing => do
    let stranded ← o.hasReadyPendingSteps existing
    if isRunTerminal || stranded then o.healRun existing
    return true
  | .error .runNotFound => return false
  | .error e => throw e

def loadDefOrFail (runID workflowID : String) : M WorkflowDef := do
  match ← outcome (loadDef workflowID) with
  | .ok d => return d
  | .error _ => do
    persistFailedStartRun runID workflowID
    throw .startPayloadHandled

variable (evt : Event)

/-- Definition, input and trigger depth. -/
def resolveStartPayload : M (WorkflowDef × Raw × ℕ) :=
  match evt.start with
  | .malformed => throw (.other "unmarshal WorkflowDef")
  | .inline d input => return (d, input, 0)
  | .chain workflowID input depth => do
    return (← loadDefOrFail evt.runID workflowID, input, depth)
  | .trigger workflowID envelope => do
    return (← loadDefOrFail evt.runID workflowID, envelope, 0)
  | .bare d => return (d, .nil, 0)

/-- True where the start is refused. -/
def rejectInvalidStart (runID : String) (d : WorkflowDef) (input : Raw) : M Bool := do
  match validate o.toExternals d with
  | .error (.panic msg) => panic msg
  | .error (.error _) => do
    persistFailedStartRun runID d.name
    return true
  | .ok _ =>
    if d.inputSchema.isEmpty || o.schemaAccepts d.inputSchema input then
      return false
    else do
      let t ← now
      ignoring (finalizeFresh
        { newWorkflowRun d runID (o.defHash d) t with rootRunID := runID }
        .failed)
      throw (.other "input validation")

def startAdmitted (isRunTerminal : Bool) (d : WorkflowDef) (run : WorkflowRun)
    (admission : AdmissionResult) : M Unit := do
  if admission.cancelID ≠ "" then
    publishEvent { type := .workflowCancelled, runID := admission.cancelID }
  let run := { run with
    priorityOffset := admission.offset, singletonKey := admission.singletonKey }
  match admission.action with
  | .skip => persistSkippedRun run admission.skippedBy
  | .queue =>
    o.createOrHealRun isRunTerminal d { run with status := .pending } false
  | .proceed => do
    let t ← now
    o.createOrHealRun isRunTerminal d
      { run with
        status := .running
        deadline := if 0 < d.timeout then some (t + d.timeout) else none } true

def isChain : StartPayload → Bool
  | .chain .. => true
  | _ => false

def handleWorkflowStarted : M Unit := do
  let isRunTerminal := isChain evt.start
  if ← o.startExistingRun evt.runID isRunTerminal then return ()
  else
    match ← outcome (resolveStartPayload evt) with
    | .error .startPayloadHandled => return ()
    | .error e => throw e
    | .ok (d, input, depth) => do
      if ← o.rejectInvalidStart evt.runID d input then return ()
      else do
        let t ← now
        let run := { newWorkflowRun d evt.runID (o.defHash d) t with
          rootRunID := evt.runID, input := input, triggerDepth := depth }
        match ← outcome (o.admitRun d run.runID input) with
        | .error .admissionPermanent => persistAdmissionFailedRun run
        | .error e => throw e
        | .ok admission => o.startAdmitted isRunTerminal d run admission

def routeEvent : M Unit :=
  match evt.type with
  | .workflowStarted => o.handleWorkflowStarted evt
  | .stepCompleted | .stepSleepCompleted | .stepWaitMatched =>
    o.handleStepCompleted evt
  | .stepWaitTimeout => o.handleWaitTimeout evt
  | .stepContinue => o.handleStepContinue evt
  | .stepFailed => o.handleStepFailed evt
  | .stepStarted => handleStepStarted evt
  | .stepQueued => handleStepQueued evt
  | .workflowSpawn => o.handleWorkflowSpawn evt
  | .workflowChildCompleted => o.handleChildCompleted evt
  | .workflowChildFailed => o.handleChildFailed evt
  | .workflowCancelled => o.handleWorkflowCancelled evt
  | .approvalGranted => o.handleGranted evt
  | .approvalRejected => o.handleRejected evt
  | .approvalExpired => o.handleExpired evt
  | .stepInputQueued => o.handleInputQueued evt
  | .stepWaitElapsed => o.handleWaitElapsed evt
  | _ => return ()

def dispatchBody : M Unit := do
  match ← outcome (load evt.runID) with
  | .error _ => o.routeEvent evt
  | .ok run => do
    let t ← now
    if run.deadline.any (· < t) ∧ run.status = .running then
      o.handleWorkflowCancelled evt
    else do
      o.routeEvent evt
      if hasUnsentStep run then do
        let run ← load evt.runID
        o.resendUnsent run

/-- A panic of a handler becomes an error. -/
def dispatchEvent : M Unit := do
  match ← Prog.attempt (fun _ => true) (o.dispatchBody evt) with
  | .ok _ => return ()
  | .error (.panic msg) => throw (.other ("handler panic: " ++ msg))
  | .error e => throw e

/-- `retrySnapshotConflict` around `dispatchEvent`. -/
def handleEventRounds (evt : Event) : ℕ → M Unit
  | 0 => throw .conflict
  | n + 1 => do
    match ← outcome (o.dispatchEvent evt) with
    | .ok _ => return ()
    | .error .conflict => handleEventRounds evt n
    | .error e => throw e

/-- `handleEventWithConflictRetry`. -/
def handleEvent : M Unit :=
  o.handleEventRounds evt snapshotConflictAttemptsMax

end Orchestrator

variable (tm : TimerMessage)

/-- The timer's dispatch is no longer the step's. -/
def redispatchStale (state : StepState) : Bool :=
  match tm.action with
  | .retryAfter | .retryBackoff =>
    !(state.status = .queued || state.status = .running) || state.retryDispatchAt.isNone ||
      (0 < tm.attempt && tm.attempt ≠ state.attempts)
  | .rateRetry | .taskConcurRetry =>
    !(state.status = .pending || state.status = .queued) ||
      (tm.dispatchNonce ≠ none && tm.dispatchNonce ≠ state.dispatchNonce)
  | _ => false

/-- Where a timer that publishes a task sends it from. -/
def TimerAction.route : TimerAction → TaskRoute
  | .retryAfter => .retryAfter
  | .retryBackoff => .retryBackoff
  | .loopDelay => .continued
  | _ => .rateRetry

def TimerMessage.task (attempt iteration : ℕ) (nonce : Option ℕ) (state : Raw) : TaskPayload :=
  { task := tm.taskType, runID := tm.runID, stepID := tm.stepID
    attempt := attempt, iteration := iteration, input := tm.input
    dispatchNonce := nonce, state := state, workflowName := tm.workflowName
    requiredCapabilities := tm.requiredCapabilities, metadata := tm.metadata
    -- None of the timers sets `AgentLoop`.
    agentLoop := false
    subject := tm.dispatchSubject, route := tm.action.route }

/-- The task a timer publishes: a new attempt of the step as it is stored, or
an unnumbered one where the run cannot be read. -/
def redispatchTask : M (Option TaskPayload) := do
  let fallback ← nonceOrMint tm.runID tm.stepID tm.dispatchNonce
  match ← outcome (load tm.runID) with
  | .error _ => return some (tm.task 0 0 (some fallback) .nil)
  | .ok run =>
    let state := run.step tm.stepID
    if redispatchStale tm state then return none
    else
      let identity := dispatchIdentity run tm.stepID .newAttempt
      return some (tm.task identity.1 identity.2
        (some (state.dispatchNonce.getD fallback)) state.loopState)

/-- `fireRateRetry` and `republishTask`; the error of the publish is dropped. -/
def fireRedispatch : M Unit := do
  if tm.taskType = "" then panic "TaskType must not be empty"
  else
    match ← redispatchTask tm with
    | none => return ()
    | some task => ignoring (request (.task task))

def fireLoopDelay : M Unit := do
  match ← outcome (load tm.runID) with
  | .error _ => return ()
  | .ok run =>
    let state := run.step tm.stepID
    if !(state.status = .running || state.status = .queued) || state.iterations ≠ tm.iteration ||
        state.dispatchNonce ≠ tm.dispatchNonce then return ()
    else
      ignoring (request (.task (tm.task state.attempts state.iterations
        tm.dispatchNonce state.loopState)))

def firePublish (type : EventType) (tm : TimerMessage) : M Unit :=
  ignoring (publishEvent { type := type, runID := tm.runID, stepID := tm.stepID })

/-- What a timer does when it fires. -/
def fireTimer : M Unit :=
  match tm.action with
  | .sleepComplete => firePublish .stepSleepCompleted tm
  | .waitTimeout => firePublish .stepWaitTimeout tm
  | .approvalTimeout => firePublish .approvalExpired tm
  | .rateRetry | .taskConcurRetry | .retryAfter | .retryBackoff =>
    fireRedispatch tm
  | .stepTimeout => fireStepTimeout tm
  | .loopDelay => fireLoopDelay tm
  | .loopWait =>
    ignoring (publishEvent (Event.setIdentity
      { type := .stepWaitElapsed, runID := tm.runID, stepID := tm.stepID }
      tm.iteration (max tm.attempt 1) tm.dispatchNonce))

def hasInFlightStep (run : WorkflowRun) : Bool :=
  run.steps.keys.any fun id =>
    match (run.step id).status with
    | .pending | .queued | .running => true
    | _ => false

namespace Orchestrator

variable (o : Orchestrator)

def reconcileWedged (run : WorkflowRun) : M Unit :=
  o.failWorkflow o.enqueueReady run { id := "<reconciler>" }
    { status := .failed
      error := "wedged: no in-flight work and no path to completion" }

def releaseAttemptsMax : ℕ := 10

/-- With `reconcileReleaseFailed`. -/
def reconcileReleasePending (run : WorkflowRun) : M Unit := do
  match ← outcome (o.releaseAdmission o.enqueueReady run) with
  | .ok _ => do
    let run ← saveSnapshot .releaseDone
      { run with releasePending := false, releaseAttempts := 0 }
    ignoring (request (.notify (.deleteActive run.runID)))
  | .error _ => do
    let attempts := run.releaseAttempts + 1
    let abandon := releaseAttemptsMax ≤ attempts
    let run ← saveSnapshot .releaseRetry
      { run with
        releaseAttempts := attempts
        releasePending := run.releasePending && !abandon }
    if abandon then
      ignoring (request (.notify (.deleteActive run.runID)))

/-- For a run the reconciler found in the active index. -/
def reconcileOneRun (runID : String) : M Unit := do
  let (d, run) ← o.loadRunAndDef runID
  if run.status ≠ .running then return ()
  else if hasUnsentStep run then o.resendUnsent run
  else if isComplete d (completedSet run) then
    o.completeWorkflow o.enqueueReady run
  else if hasInFlightStep run then return ()
  else o.reconcileWedged run

def reconcileReleasePendingRun (runID : String) : M Unit := do
  let run ← load runID
  if run.status.isTerminal ∧ run.releasePending then
    o.reconcileReleasePending run
  else return ()

end Orchestrator

end Dagnats
