import Dagnats.Engine.Admission

/-!
# Publishing tasks, timers and lifecycle events

`task_publisher.go`, `task_publish.go` and `sticky.go`: a task is rate limited,
then admitted by its concurrency limit, then sent to the worker the run sticks
to or to the shared queue. A task that must wait is replaced by a timer that
publishes it later.

Every accepted publish is an entry of the log, also one that the stream drops
for its message identifier.
-/

namespace Dagnats

open Interaction

/-- The message carries the input as it is, and is no document where the input is none. -/
def requireMarshal (message : String) (input : Raw) : M Unit :=
  if input.marshal.isNone then throw (.other ("marshal " ++ message)) else return ()

def schedule (t : TimerMessage) (dispatch : Option ℕ) : M Unit := do
  requireMarshal "TimerMessage" t.input
  request (.timer t dispatch)

/-- `publishLifecycleEvent`. -/
def publishEvent (e : Event) : M Unit :=
  request (.event e)

/-- `dispatchIdentityMode`. -/
inductive DispatchMode where
  | newAttempt | sameAttempt

/-- The attempt and the iteration a task carries. -/
def dispatchIdentity (run : WorkflowRun) (stepID : String) : DispatchMode → ℕ × ℕ
  | .newAttempt => ((run.step stepID).attempts + 1, (run.step stepID).iterations)
  | .sameAttempt => ((run.step stepID).attempts, (run.step stepID).iterations)

/-- A task is never sent without a nonce. -/
def nonceOrMint (runID stepID : String) : Option ℕ → M ℕ
  | some n => return n
  | none => request (.newNonce
      { runID := runID, stepID := stepID, origin := .unstamped
        attempts := 0, iterations := 0 })

/-- `StepSubject` asserts that the step names a task. -/
def requireTask (step : StepDef) : M Unit :=
  if step.task = "" then panic "StepSubject: step.Task must not be empty"
  else return ()

def stripControlPlaneCapability (caps : List String) : List String :=
  caps.filter (· ≠ "control-plane")

namespace Orchestrator

variable (o : Orchestrator)

def grantsControlPlane (workflowName : String) : Bool :=
  workflowName ≠ "" && o.controlPlaneGrants.contains workflowName

def effectiveCapabilities (caps : List String) (workflowName : String) : List String :=
  if o.grantsControlPlane workflowName then caps
  else stripControlPlaneCapability caps

def stepSubject (step : StepDef) (runID : String) : String :=
  let subject := (o.stepRoutes step.type).getD "task" ++ "." ++ step.task
  let subject :=
    if step.workerGroup ≠ "" then subject ++ ".=" ++ step.workerGroup else subject
  subject ++ "." ++ runID

variable (runID : String) (step : StepDef) (input : Raw) (run : WorkflowRun) (workflowName : String)

section

variable (nonce : Option ℕ)

/-- The task of a new attempt, as `doPublish` builds it. -/
def newAttemptTask : TaskPayload :=
  let identity := dispatchIdentity run step.id .newAttempt
  { task := step.task, runID := runID, stepID := step.id, attempt := identity.1
    iteration := identity.2, input := input, dispatchNonce := nonce
    state := (run.step step.id).loopState, workflowName := workflowName
    requiredCapabilities := o.effectiveCapabilities step.requiredCapabilities workflowName
    metadata := step.metadata, agentLoop := step.type = .agentLoop
    subject := o.stepSubject step runID, route := .queued }

/-- The timer of a task that is put off, as `scheduleRateRetry` and
`scheduleConcurrencyRetry` build it. -/
def deferralTimer (action : TimerAction) (runID : String) (step : StepDef) (input : Raw)
    (durationMs : ℤ) (workflowName : String) (nonce : Option ℕ) : TimerMessage :=
  { action := action, runID := runID, stepID := step.id
    durationMs := durationMs, taskType := step.task, input := input
    dispatchNonce := nonce, workflowName := workflowName
    requiredCapabilities := o.effectiveCapabilities step.requiredCapabilities workflowName
    metadata := step.metadata, subject := o.stepSubject step runID }

def scheduleRateRetry (retryAfterMs : ℤ) (workflowName : String) (nonce : Option ℕ) : M Unit := do
  requireTask step
  schedule (o.deferralTimer .rateRetry runID step input
    (if retryAfterMs ≤ 0 then 100 else retryAfterMs) workflowName nonce) nonce

def scheduleConcurrencyRetry (workflowName : String) (nonce : Option ℕ) : M Unit := do
  requireTask step
  schedule (o.deferralTimer .taskConcurRetry runID step input 1000 workflowName nonce) nonce

def applyRateLimit (workflowName : String) (nonce : Option ℕ) : M Bool := do
  match ← request (.allow step.task runID step.id nonce) with
  | none => return false
  | some retryAfterMs => do
    o.scheduleRateRetry runID step input retryAfterMs workflowName nonce
    return true

def checkRateLimit (workflowName : String) (nonce : Option ℕ) : M Bool := do
  if !o.hasRateLimiter then return false
  else if step.task = "" then
    panic "TaskPublisher.checkRateLimit: step.Task must not be empty"
  else if step.rateLimit.isSome then
    o.applyRateLimit runID step input workflowName nonce
  else
    match step.keyedRateLimit with
    | none => return false
    | some limit => do
      let _ ← ofFault (extractDotPath limit.key input)
      o.applyRateLimit runID step input workflowName nonce

def doPublish : M Unit := do
  let n ← nonceOrMint runID step.id nonce
  requireMarshal "TaskPayload" input
  requireTask step
  request (.task (o.newAttemptTask runID step input run workflowName (some n)))

def stickyTask (run : WorkflowRun) (worker workflowName : String) (nonce : Option ℕ) :
    TaskPayload :=
  { o.newAttemptTask runID step input run workflowName nonce with
    requiredCapabilities := []
    subject := "sticky." ++ step.task ++ "." ++ worker ++ "." ++ runID
    route := .sticky }

/-- The timer of `scheduleSoftFallback`, without capabilities. -/
def fallbackTimer (attempt : ℕ) (workflowName : String) (nonce : Option ℕ) : TimerMessage :=
  { action := .rateRetry, runID := runID, stepID := step.id
    durationMs := 5000, taskType := step.task, input := input
    attempt := attempt, dispatchNonce := nonce, workflowName := workflowName
    metadata := step.metadata, subject := o.stepSubject step runID }

/-- `StickyRouter.PublishTask`. A soft binding also arms a fallback. -/
def publishSticky (run : WorkflowRun) (worker : String) (strategy : StickyStrategy)
    (workflowName : String) (nonce : Option ℕ) : M Unit := do
  requireTask step
  requireMarshal "TaskPayload" input
  let task := o.stickyTask runID step input run worker workflowName nonce
  request (.task task)
  if strategy = .soft then
    ignoring (schedule (o.fallbackTimer runID step input task.attempt workflowName nonce) nonce)
  else return ()

/-- `StickyRouter.GetWorker`: empty without a binding. -/
def getWorker (runID : String) : M String := do
  if o.hasSticky then
    match ← outcome (request (.getWorker runID)) with
    | .ok worker => return worker
    | .error _ => return ""
  else return ""

/-- The part of `TaskPublisher.Publish` after admission. -/
def publishAdmitted : M Unit := do
  let worker ← o.getWorker runID
  if worker = "" then o.doPublish runID step input run workflowName nonce
  else
    match ← outcome (o.loadRunAndDef runID) with
    | .ok (d, _) =>
      if d.sticky = .none then o.doPublish runID step input run workflowName nonce
      else o.publishSticky runID step input run worker d.sticky workflowName nonce
    | .error _ => o.doPublish runID step input run workflowName nonce

def publish : M Unit := do
  if ← o.checkRateLimit runID step input workflowName nonce then return ()
  else if 0 < step.maxTaskConcurrency ∧ o.hasConcurrency then
    if ← acquireTask step.task runID step.id step.maxTaskConcurrency then
      o.publishAdmitted runID step input run workflowName nonce
    else o.scheduleConcurrencyRetry runID step input workflowName nonce
  else o.publishAdmitted runID step input run workflowName nonce

end

/-- The task that `PublishIteration` sends. -/
def iterationTask (attempt iteration : ℕ) (workflowName : String) (nonce : Option ℕ)
    (loopState : Raw) : TaskPayload :=
  { task := step.task, runID := runID, stepID := step.id, attempt := attempt
    iteration := iteration, input := input, dispatchNonce := nonce
    state := loopState, workflowName := workflowName
    requiredCapabilities := o.effectiveCapabilities step.requiredCapabilities workflowName
    metadata := step.metadata, agentLoop := step.type = .agentLoop
    subject := o.stepSubject step runID, route := .continued }

def publishIteration (attempt iteration : ℕ) (workflowName : String) (nonce : Option ℕ)
    (loopState : Raw) : M Unit := do
  let n ← nonceOrMint runID step.id nonce
  requireMarshal "TaskPayload" input
  requireTask step
  request (.task (o.iterationTask runID step input attempt iteration workflowName
    (some n) loopState))

/-- One send of a batch, with the first error so far. -/
def sendRound (failed : Option Err) (send : M Unit) : M (Option Err) := do
  match ← outcome send with
  | .ok _ => return failed
  | .error e => return failed.orElse fun _ => some e

/-- Run every send and fail if one of them failed. The source sends from one
goroutine per task and waits for all of them. -/
def sendAll (sends : List (M Unit)) : M Unit := do
  let failed ← Prog.fold sendRound sends none
  match failed with
  | none => return ()
  | some e => throw e

def batchSends (run : WorkflowRun) : List StepDef → List (M Unit)
  | [] => []
  | step :: steps =>
    match resolveInput step run with
    | none => [throw (.other ("resolve input for step " ++ step.id))]
    | some input =>
      o.publish run.runID step input run run.workflowID (run.step step.id).dispatchNonce ::
        batchSends run steps

def publishBatch (run : WorkflowRun) (ready : List StepDef) : M Unit :=
  sendAll (o.batchSends run ready)

def mapInstanceStep (step : StepDef) (index : ℕ) : StepDef :=
  { step with
    id := mapInstanceID step.id index
    requiredCapabilities := stripControlPlaneCapability step.requiredCapabilities }

def publishMapTask (step : StepDef) (item : Json × ℕ) : M Unit := do
  let instanceStep := mapInstanceStep step item.2
  let nonce ← request (.newNonce
    { runID := run.runID, stepID := instanceStep.id, origin := .mapInstance
      attempts := 0, iterations := 0 })
  o.publish run.runID instanceStep (.doc item.1) run workflowName (some nonce)

def publishMapTasks (step : StepDef) (items : List Json) : M Unit :=
  sendAll (items.zipIdx.map (o.publishMapTask run workflowName step))

end Orchestrator

end Dagnats
