import Dagnats.Engine.Finish

/-!
# Dispatching steps

`enqueueReady` and what it is made of: the ready steps are marked queued under a
new nonce and, where a lost send can be repeated, unsent; the type of each step
plans its send; one save stores all of it; the sends follow; and `markSent`
clears the marks of those that were accepted. `resendUnsent` repeats the sends
of the steps that are still marked.

Chaos checkpoints are left out: a program may be dropped before any call.
-/

namespace Dagnats

open Interaction

def milliseconds (d : Duration) : ℤ := d.tdiv millisecond

def waiting (s : StepState) : Bool :=
  s.waitUntil.isSome || s.waitInput

/-- An iteration that waits for an input alone has no timer. -/
def sendWait (run : WorkflowRun) (step : StepDef) (state : StepState) : M Unit :=
  match state.waitUntil with
  | none => return ()
  | some wakeAt => do
    let t ← now
    schedule
      { action := .loopWait, runID := run.runID, stepID := step.id
        durationMs := max (milliseconds (wakeAt - t)) 1
        attempt := state.attempts, iteration := state.iterations
        dispatchNonce := state.dispatchNonce } state.dispatchNonce

def resolvedInput (step : StepDef) (run : WorkflowRun) : M Raw :=
  match resolveInput step run with
  | some input => return input
  | none => throw (.other ("resolve input for step " ++ step.id))

namespace Orchestrator

variable (o : Orchestrator)

def publishIterationNow (run : WorkflowRun) (step : StepDef) (state : StepState) : M Unit := do
  if waiting state then panic "publishIterationNow: step is still waiting"
  else do
    let input ← resolvedInput step run
    let identity := dispatchIdentity run step.id .sameAttempt
    o.publishIteration run.runID step input identity.1 identity.2 run.workflowID
      state.dispatchNonce state.loopState

def loopDelayTimer (run : WorkflowRun) (step : StepDef) (input : Raw)
    (delay : Duration) : TimerMessage :=
  let identity := dispatchIdentity run step.id .sameAttempt
  { action := .loopDelay, runID := run.runID, stepID := step.id
    durationMs := milliseconds delay, taskType := step.task
    input := input, attempt := identity.1, iteration := identity.2
    dispatchNonce := (run.step step.id).dispatchNonce
    workflowName := run.workflowID
    requiredCapabilities := o.effectiveCapabilities step.requiredCapabilities run.workflowID
    metadata := step.metadata, subject := o.stepSubject step run.runID }

/-- A wait, a delayed iteration, or the iteration. -/
def publishContinueTask (run : WorkflowRun) (step : StepDef) (state : StepState) : M Unit := do
  if waiting state then sendWait run step state
  else do
    let input ← resolvedInput step run
    let cfg := (parseAgentLoopConfig step).getD {}
    if 0 < cfg.loopDelay then do
      requireTask step
      schedule (o.loopDelayTimer run step input cfg.loopDelay) (run.step step.id).dispatchNonce
    else o.publishIterationNow run step state

end Orchestrator

/-- `dispatchEffect`: what a planned step sends after the save. -/
inductive Effect where
  | spawn (payload : Raw)
  | map (workflowName : String) (step : StepDef) (items : List Json)
  | sleep (durationMs : ℤ)
  | wait (w : Waiter) (timeout : Duration)
  | approval (timeout : Duration)
  | respond (body : Raw)
  | iteration (step : StepDef) (state : StepState)

def sendTimer (runID stepID : String) (durationMs : ℤ) (nonce : Option ℕ) : M Unit := do
  ignoring (publishEvent { type := .stepSleepStarted, runID := runID, stepID := stepID })
  schedule
    { action := .sleepComplete, runID := runID, stepID := stepID
      durationMs := durationMs } nonce

/-- The waiter, then the timer that bounds the wait. -/
def startWaitForEvent (w : Waiter) (timeout : Duration) (nonce : Option ℕ) : M Unit := do
  if w.eventType = "" then
    panic "Correlator.AddWaiter: EventType must not be empty"
  else do
    ignoring (publishEvent { type := .stepWaitStarted, runID := w.runID, stepID := w.stepID })
    request (.waiter w nonce)
    schedule
      { action := .waitTimeout, runID := w.runID, stepID := w.stepID
        durationMs := if milliseconds timeout ≤ 0 then 1 else
          milliseconds timeout } nonce

/-- The closure that `ApprovalGate.activate` returns. -/
def startApproval (runID stepID : String) (timeout : Duration) (nonce : Option ℕ) : M Unit := do
  request (.notify (.storeToken runID stepID))
  ignoring (publishEvent { type := .approvalRequested, runID := runID, stepID := stepID })
  schedule
    { action := .approvalTimeout, runID := runID, stepID := stepID
      durationMs := milliseconds timeout } nonce

def Orchestrator.sendEffect (o : Orchestrator) (run : WorkflowRun)
    (stepID : String) : Effect → M Unit
  | .spawn payload =>
    publishEvent { type := .workflowSpawn, runID := run.runID, stepID := stepID
                   payload := payload }
  | .map workflowName step items => o.publishMapTasks run workflowName step items
  | .sleep durationMs =>
    sendTimer run.runID stepID durationMs (run.step stepID).dispatchNonce
  | .wait w timeout =>
    startWaitForEvent w timeout (run.step stepID).dispatchNonce
  | .approval timeout =>
    startApproval run.runID stepID timeout (run.step stepID).dispatchNonce
  | .respond body => do
    request (.notify (.response run.runID stepID))
    publishEvent { type := .stepCompleted, runID := run.runID, stepID := stepID
                   payload := body }
  | .iteration step state => o.publishContinueTask run step state

structure DispatchPlan where
  effects : List (String × Effect) := []
  normalSteps : List StepDef := []
  alreadySent : List String := []
  continueRun : Bool := false

def resendable : StepType → Bool
  | .normal | .agentLoop | .sleep | .waitForEvent => true
  | _ => false

variable (run : WorkflowRun)

def hasUnsentStep : Bool :=
  run.status = .running && run.steps.keys.any fun id => (run.step id).dispatchUnsent

def clearMark (sent : String × Option ℕ) : WorkflowRun :=
  let s := run.step sent.1
  if s.dispatchUnsent ∧ s.dispatchNonce = sent.2 then
    run.setStep sent.1 { s with dispatchUnsent := false }
  else run

def clearUnsent (nonces : List (String × Option ℕ)) : WorkflowRun :=
  nonces.foldl clearMark run

/-- Does `clearUnsent` clear a mark? -/
def hasMark (nonces : List (String × Option ℕ)) : Bool :=
  nonces.any fun sent =>
    (run.step sent.1).dispatchUnsent && (run.step sent.1).dispatchNonce = sent.2

def snapshotConflictAttemptsMax : ℕ := 6

def markSentRounds (nonces : List (String × Option ℕ)) : ℕ → WorkflowRun → M WorkflowRun
  | 0, _ => throw .conflict
  | n + 1, run => do
    if run.steps.keys.length < (nonces.map (·.1)).dedup.length then
      panic "clearUnsent: more sent steps than the run has"
    else if !hasMark run nonces then return run
    else
      match ← outcome (saveSnapshot .markSent (clearUnsent run nonces)) with
      | .ok saved => return saved
      | .error .conflict => do
        let fresh ← load run.runID
        markSentRounds nonces n fresh
      | .error e => throw e

/-- The marks of the steps in `sent`, under the nonces `run` has. -/
def markSent (sent : List String) : M WorkflowRun :=
  markSentRounds (sent.map fun id => (id, (run.step id).dispatchNonce))
    snapshotConflictAttemptsMax run

/-- `errors.Join`, as far as callers look at the result. -/
def Err.join : Option Err → Option Err → Option Err
  | none, e => e
  | e, none => e
  | some .conflict, _ => some .conflict
  | _, some .conflict => some .conflict
  | some e, _ => some e

/-- Send one effect and note what came of it. -/
def Orchestrator.sendPlanned (o : Orchestrator) (run : WorkflowRun)
    (result : List String × Option Err) (effect : String × Effect) :
    M (List String × Option Err) := do
  match ← outcome (o.sendEffect run effect.1 effect.2) with
  | .ok _ => return (result.1 ++ [effect.1], result.2)
  | .error e => return (result.1, Err.join result.2 (some e))

/-- The steps whose sends were accepted, and the joined error. -/
def Orchestrator.sendPlan (o : Orchestrator) (run : WorkflowRun)
    (plan : DispatchPlan) : M (List String × Option Err) := do
  let result ← Prog.fold (o.sendPlanned run) plan.effects (plan.alreadySent, none)
  if plan.normalSteps.isEmpty then return result
  else
    match ← outcome (o.publishBatch run plan.normalSteps) with
    | .ok _ => return (result.1 ++ plan.normalSteps.map (·.id), result.2)
    | .error e => return (result.1, Err.join result.2 (some e))

end Dagnats
