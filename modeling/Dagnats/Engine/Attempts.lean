import Dagnats.Engine.Completion

/-!
# Attempts, iterations and failures of a step

`step_handlers.go` and `retry_handlers.go`: the handlers of `step.queued` and
`step.started`, which keep the attempt counter, of `step.continue`, which opens
the next iteration of an agent loop, and of `step.failed`, which schedules a
retry or fails the step for good; and the step timeout that publishes a
`step.failed` of its own.
-/

namespace Dagnats

def handleStepQueued (evt : Event) : M Unit := do
  if evt.stepID = "" then panic "handleStepQueued: evt.StepID must not be empty"
  else do
    let run ← load evt.runID
    let state := run.step evt.stepID
    if !run.steps.has evt.stepID then return ()
    else if state.status = .completed ∨ state.status = .failed ∨
        state.status = .running then return ()
    else if ← lateEventForTerminalRun run evt then return ()
    else do
      let _ ← saveSnapshot .stepQueued (run.setStep evt.stepID
        { state with
          status := .queued
          attempts := max state.attempts evt.attemptNumber })
      return ()

def startedForOtherDispatch (state : StepState) (evt : Event) : Bool :=
  evt.dispatchNonce ≠ none && state.dispatchNonce ≠ none && evt.dispatchNonce ≠ state.dispatchNonce

/-- The state, and the time the attempt has run. -/
def startAttemptClock (state : StepState) (t : Time) : StepState × Duration :=
  match state.attemptStartedAt with
  | some started => (state, max (t - started) 0)
  | none =>
    match state.retryDispatchAt with
    | some dispatchAt =>
      -- Before the retry is due a step.started is a leftover.
      if t < dispatchAt then (state, 0)
      else ({ state with attemptStartedAt := some t
                         retryDispatchAt := none }, 0)
    | none => ({ state with attemptStartedAt := some t
                            retryDispatchAt := none }, 0)

def scheduleStepTimeout (runID : String) (step : StepDef) (stepID : String)
    (attempt : ℕ) (elapsed : Duration) : M Unit :=
  if attempt < 1 then panic "scheduleStepTimeout: attempt must be >= 1"
  else
    schedule
      { action := .stepTimeout, runID := runID, stepID := stepID
        durationMs := min (max (milliseconds (step.timeout - elapsed)) 1) 86400000
        taskType := step.task, attempt := attempt } none

/-- By the latest definition of the workflow. -/
def armStepWatchdog (run : WorkflowRun) (stepID : String) (attempts : ℕ)
    (elapsed : Duration) : M Unit := do
  match ← outcome (loadDef run.workflowID) with
  | .error _ => return ()
  | .ok d =>
    match findStepDef d stepID with
    | none => return ()
    | some step =>
      if step.timeout ≤ 0 then return ()
      else scheduleStepTimeout run.runID step stepID attempts elapsed

def startedState (state : StepState) (evt : Event) (t : Time) : StepState × Duration :=
  startAttemptClock
    { state with
      status := .running, dispatchUnsent := false
      attempts := max state.attempts evt.attemptNumber } t

lemma startedState_status (s : StepState) (e : Event) (t : Time) :
    (startedState s e t).1.status = .running := by
  unfold startedState startAttemptClock
  split
  · rfl
  · split
    · split <;> rfl
    · rfl

lemma startedState_attempts (s : StepState) (e : Event) (t : Time) :
    (startedState s e t).1.attempts = max s.attempts e.attemptNumber := by
  unfold startedState startAttemptClock
  split
  · rfl
  · split
    · split <;> rfl
    · rfl

def handleStepStarted (evt : Event) : M Unit := do
  if evt.stepID = "" then
    panic "handleStepStarted: evt.StepID must not be empty"
  else do
    let run ← load evt.runID
    let state := run.step evt.stepID
    if !run.steps.has evt.stepID then return ()
    else if state.status = .completed ∨ state.status = .failed then return ()
    else if ← lateEventForTerminalRun run evt then return ()
    else if startedForOtherDispatch state evt then return ()
    else do
      let t ← now
      let started := startedState state evt t
      let run ← saveSnapshot .stepStarted (run.setStep evt.stepID started.1)
      armStepWatchdog run evt.stepID started.1.attempts started.2

def continueWait (evt : Event) : M (Option ContinueWait) :=
  if !evt.hasIdentity || evt.payload.isEmpty then return none
  else
    match decodeStepContinue evt.payload with
    | none => throw (.other "decode step.continue payload")
    | some p => return if ContinueWait.isZero p.wait then none else p.wait

/-- Inputs that are queued already end a wait for input. -/
def applyWait (runID stepID : String) (state : StepState)
    (wait : Option ContinueWait) : M StepState := do
  let state := { state with waitUntil := none, waitInput := false }
  match wait with
  | none => return state
  | some w => do
    let t ← now
    let state := { state with waitUntil := w.wakeAt t }
    if !w.input then return state
    else
      match ← outcome (request (.inputsQueued runID stepID)) with
      | .ok true =>
        return { state with
          waitUntil := none, waitInput := false, hasInputs := true }
      | _ => return { state with waitInput := true }

/-- Why the loop may not go on. -/
def checkLoopBounds (step : StepDef) (state : StepState) (t : Time) : Option String :=
  match parseAgentLoopConfig step with
  | none => none
  | some cfg =>
    if 0 < cfg.maxIterations ∧ cfg.maxIterations ≤ state.iterations then
      some (maxIterationsError cfg.maxIterations)
    else
      match state.loopStartedAt with
      | none => none
      | some started =>
        if 0 < cfg.maxDuration ∧ cfg.maxDuration ≤ t - started then
          some "agent loop exceeded max duration"
        else none

def startLoopClock (state : StepState) (t : Time) : StepState :=
  if state.iterations = 1 then { state with loopStartedAt := some t } else state

def Orchestrator.dispatchNextIteration (o : Orchestrator) (run : WorkflowRun) (step : StepDef)
    (state : StepState) (loopState : Raw) (wait : Option ContinueWait) : M Unit := do
  let stamped ← stampDispatch run.runID step.id .iteration state
  let state ← applyWait run.runID step.id
    { stamped with dispatchUnsent := true, loopState := loopState } wait
  let run ← saveSnapshot .stepContinue (run.setStep step.id state)
  o.publishContinueTask run step state
  let _ ← markSent run [step.id]
  return ()

namespace Orchestrator

variable (o : Orchestrator)

def failLoopStep (run : WorkflowRun) (stepID : String) (state : StepState)
    (reason : String) : M Unit := do
  let run := run.setStep stepID { state with status := .failed, error := reason }
  let run ← finalizeRun run .failed (o.releaseAdmission o.enqueueReady run)
  notifyParentIfChild run (some reason)

/-- The part of `handleStepContinue` after the fence. -/
def continueStep (step : StepDef) (run : WorkflowRun) (evt : Event) : M Unit := do
  let carried ← continueState evt
  let wait ← continueWait evt
  match loopStateOverCap ((carried.map Raw.size).getD 0) o.loopStateMaxBytes with
  | some reason => o.failLoopStep run evt.stepID (run.step evt.stepID) reason
  | none => do
    let (run, failed) ← advanceContinue step run
    let state := run.step evt.stepID
    match failed with
    | some reason => o.failLoopStep run evt.stepID state reason
    | none => do
      let state := startLoopClock state (← now)
      match checkLoopBounds step state (← now) with
      | some reason => o.failLoopStep run evt.stepID state reason
      | none =>
        o.dispatchNextIteration run step state (carried.getD state.loopState) wait

def handleStepContinue (evt : Event) : M Unit := do
  if evt.stepID = "" then panic "handleStepContinue: StepID must not be empty"
  else do
    let (d, run) ← o.loadRunAndDef evt.runID
    match findStepDef d evt.stepID with
    | none => throw (.other "step not found in workflow def")
    | some step =>
      match ← o.fenceStepEvent run evt with
      | none => return ()
      | some run => o.continueStep step run evt

end Orchestrator

/-- `json.Unmarshal` of a `StepFailedPayload`. -/
def decodeStepFailed : Raw → Option StepFailedPayload
  | .doc (.obj fields) => do
    let j := Json.obj fields
    let error ← j.strField "error"
    let failureType ← j.strField "failure_type"
    let retryAfterMs ← j.intField "retry_after_ms"
    return {
      error := error
      failureType :=
        if failureType = "non_retriable" then .nonRetriable
        else if failureType = "retry_after" then .retryAfter
        else .retriable
      retryAfterMs := retryAfterMs }
  | .doc .null => some ⟨"", .retriable, 0⟩
  | _ => none

/-- A payload, a bare string, or any text. -/
def parseFailPayload (data : Raw) : StepFailedPayload :=
  if data.isEmpty then ⟨"", .retriable, 0⟩
  else
    match (decodeStepFailed data).filter fun p => p.error ≠ "" with
    | some p => p
    | none =>
      match data with
      | .doc (.str s) => ⟨s, .retriable, 0⟩
      | .doc .null => ⟨"", .retriable, 0⟩
      | _ => ⟨data.toText, .retriable, 0⟩

def retryAfterDelayMs (ms : ℤ) : ℤ :=
  if ms ≤ 0 then 100 else if 3600000 < ms then 3600000 else ms

/-- For at least one attempt. -/
def retryBackoffDelayMs (p : RetryPolicy) (attempts : ℕ) : ℤ :=
  min (max (milliseconds (calculateDelay p attempts)) 1) 3600000

def markRetryPending (state : StepState) (t : Time) (delayMs : ℤ) : StepState :=
  { state with
    attemptStartedAt := none
    retryDispatchAt := some (t + delayMs * millisecond) }

def Orchestrator.retryTimer (o : Orchestrator) (action : TimerAction)
    (run : WorkflowRun) (stepID : String) (step : StepDef) (input : Raw)
    (delayMs : ℤ) (workflowName : String) : TimerMessage :=
  { action := action, runID := run.runID, stepID := stepID
    durationMs := delayMs, taskType := step.task, input := input
    attempt := (run.step stepID).attempts
    dispatchNonce := (run.step stepID).dispatchNonce
    workflowName := workflowName, metadata := step.metadata
    subject := o.stepSubject step run.runID }

/-- `scheduleRetryBackoff` and `scheduleRetryAfter`. -/
def Orchestrator.scheduleRetry (o : Orchestrator) (action : TimerAction) (run : WorkflowRun)
    (stepID : String) (step : StepDef) (delayMs : ℤ) (workflowName : String) : M Unit := do
  let input ← resolvedInput step run
  requireTask step
  schedule (o.retryTimer action run stepID step input delayMs workflowName)
    (run.step stepID).dispatchNonce

/-- Save the step under a new nonce, as waiting for its retry. -/
def dispatchRetry (run : WorkflowRun) (stepID : String) (state : StepState)
    (delayMs : ℤ) : M WorkflowRun := do
  let state ← stampDispatch run.runID stepID .retry state
  let t ← now
  saveSnapshot .stepRetry (run.setStep stepID (markRetryPending state t delayMs))

namespace Orchestrator

variable (o : Orchestrator) (d : WorkflowDef) (run : WorkflowRun)

def failPermanently (step : StepDef) (state : StepState) (stepID : String) : M Unit :=
  let state := { state with status := .failed }
  o.handlePermanentFailure o.enqueueReady d (run.setStep stepID state) step state stepID

def dispatchRetriableFailure (state : StepState) (step : StepDef) (stepID : String)
    (policy : Option RetryPolicy) : M Unit := do
  match policy.filter fun p => (state.attempts : ℤ) ≤ p.maxAttempts with
  | some p => do
    let run ← dispatchRetry run stepID state (retryBackoffDelayMs p state.attempts)
    let attempts := (run.step stepID).attempts
    if attempts < 1 then panic "scheduleRetryBackoff: attempts must be >= 1"
    else if retryAttemptCountMax < attempts then
      panic "scheduleRetryBackoff: attempts exceeds RetryAttemptCountMax"
    else
      o.scheduleRetry .retryBackoff run stepID step (retryBackoffDelayMs p attempts) d.name
  | none => o.failPermanently d run step state stepID

def handleRetryAfter (state : StepState) (step : StepDef) (stepID : String) (retryAfterMs : ℤ)
    (policy : Option RetryPolicy) : M Unit := do
  match policy.filter fun p => (state.attempts : ℤ) ≤ p.maxAttempts with
  | some _ => do
    let run ← dispatchRetry run stepID state (retryAfterDelayMs retryAfterMs)
    o.scheduleRetry .retryAfter run stepID step (retryAfterDelayMs retryAfterMs) d.name
  | none => o.failPermanently d run step state stepID

/-- The part of `handleStepFailed` after the fence. -/
def failStep (evt : Event) : M Unit :=
  let state := { run.step evt.stepID with
    attempts := max (run.step evt.stepID).attempts 1 }
  let run := run.setStep evt.stepID state
  let payload := parseFailPayload evt.payload
  let state := { state with error := payload.error }
  let step := (findStepDef d evt.stepID).getD { id := "" }
  let policy := resolveRetryPolicy d step
  match payload.failureType with
  | .nonRetriable =>
    let run := advanceFailed d run evt.stepID payload.error
    o.handlePermanentFailure o.enqueueReady d run step (run.step evt.stepID) evt.stepID
  | .retryAfter =>
    o.handleRetryAfter d run state step evt.stepID payload.retryAfterMs policy
  | .retriable =>
    o.dispatchRetriableFailure d run state step evt.stepID policy

def handleStepFailed (evt : Event) : M Unit := do
  if evt.stepID = "" then panic "handleStepFailed: StepID must not be empty"
  else do
    let (d, run) ← o.loadRunAndDef evt.runID
    if ← lateEventForTerminalRun run evt then return ()
    else if isMapInstanceID evt.stepID then
      o.handleMapInstanceFailed d { run with recording := some ⟨evt, false⟩ } evt
    else
      match ← o.fenceStepEvent run evt with
      | none => return ()
      | some run => o.failStep d run evt

end Orchestrator

/-- `Duration.Round(time.Millisecond)`. -/
def roundToMillisecond (d : Duration) : Duration :=
  let rounded : Duration := (d.natAbs + 500000) / 1000000 * 1000000
  if d < 0 then -rounded else rounded

/-- What a timer reports as the length of the attempt: its own delay, or how long the
attempt has run if that is longer. -/
def attemptLength (tm : TimerMessage) (state : StepState) : M Duration := do
  let dur := (tm.durationMs * millisecond).bmod (2 ^ 64)
  match state.attemptStartedAt with
  | none => return dur
  | some started => do
    let t ← now
    return max dur (roundToMillisecond (t - started))

/-- Fail the attempt that is still running. -/
def fireStepTimeout (tm : TimerMessage) : M Unit := do
  match ← outcome (load tm.runID) with
  | .error _ => return ()
  | .ok run =>
    let state := run.step tm.stepID
    if !run.steps.has tm.stepID ∨ state.status ≠ .running ∨
        state.attempts ≠ tm.attempt then return ()
    else do
      let dur ← attemptLength tm state
      ignoring (publishEvent (Event.setIdentity
        { type := .stepFailed, runID := tm.runID, stepID := tm.stepID
          payload := .doc (.obj
            [("error", .str ("step timeout exceeded (" ++ durationText dur ++ ")")),
              ("failure_type", .str "retriable")]) }
        state.iterations tm.attempt state.dispatchNonce))

end Dagnats
