import Dagnats.Dag.Types

/-!
# Messages

The history events, task messages and timer messages of `protocol/protocol.go`
and `internal/engine/sleeptimer.go`, with the decoders of the payloads that the
engine reads.

A dispatch nonce is a number here; the empty string of the source is `none`.
Bytes that a payload carries in base64 are identified with the encoded string,
and an instant in a payload is the number of its nanoseconds.
-/

namespace Dagnats

inductive EventType where
  | workflowStarted | workflowCompleted | workflowFailed | workflowCancelled
  | workflowSpawn | workflowChildCompleted | workflowChildFailed
  | stepQueued | stepStarted | stepCompleted | stepFailed | stepContinue
  | stepMapStarted | stepMapCompleted | stepMapInstanceCompleted | stepCancelled
  | stepSleepStarted | stepSleepCompleted
  | stepWaitStarted | stepWaitMatched | stepWaitTimeout | stepWaitElapsed
  | stepInputQueued
  | compensateStarted | compensateStepCompleted | compensateFailed
  | compensateCompleted
  | approvalRequested | approvalGranted | approvalRejected | approvalExpired
  | plannerMaterialized
  deriving DecidableEq

/-- The payload of a `workflow.started` event, by the form
`resolveStartPayload` recognises. -/
inductive StartPayload where
  | malformed
  /-- An envelope that carries the definition and the input. -/
  | inline (d : WorkflowDef) (input : Raw)
  /-- A run-terminal trigger: the run continues a chain of runs. -/
  | chain (workflowID : String) (input : Raw) (depth : ℕ)
  /-- Any other trigger; the payload itself becomes the input. -/
  | trigger (workflowID : String) (envelope : Raw)
  /-- The definition alone. -/
  | bare (d : WorkflowDef)

structure Event where
  type : EventType
  runID : String
  stepID : String := ""
  payload : Raw := .nil
  start : StartPayload := .malformed
  workerID : String := ""
  attemptNumber : ℕ := 0
  iteration : Option ℕ := none
  dispatchNonce : Option ℕ := none
  inputRequestID : String := ""

def EventType.name : EventType → String
  | .workflowStarted => "workflow.started"
  | .workflowCompleted => "workflow.completed"
  | .workflowFailed => "workflow.failed"
  | .workflowCancelled => "workflow.cancelled"
  | .workflowSpawn => "workflow.spawn"
  | .workflowChildCompleted => "workflow.child.completed"
  | .workflowChildFailed => "workflow.child.failed"
  | .stepQueued => "step.queued"
  | .stepStarted => "step.started"
  | .stepCompleted => "step.completed"
  | .stepFailed => "step.failed"
  | .stepContinue => "step.continue"
  | .stepMapStarted => "step.map.started"
  | .stepMapCompleted => "step.map.completed"
  | .stepMapInstanceCompleted => "step.map.instance.completed"
  | .stepCancelled => "step.cancelled"
  | .stepSleepStarted => "step.sleep.started"
  | .stepSleepCompleted => "step.sleep.completed"
  | .stepWaitStarted => "step.wait.started"
  | .stepWaitMatched => "step.wait.matched"
  | .stepWaitTimeout => "step.wait.timeout"
  | .stepWaitElapsed => "step.wait.elapsed"
  | .stepInputQueued => "step.input.queued"
  | .compensateStarted => "compensate.started"
  | .compensateStepCompleted => "compensate.step.completed"
  | .compensateFailed => "compensate.failed"
  | .compensateCompleted => "compensate.completed"
  | .approvalRequested => "approval.requested"
  | .approvalGranted => "approval.granted"
  | .approvalRejected => "approval.rejected"
  | .approvalExpired => "approval.expired"
  | .plannerMaterialized => "planner.materialized"

def Event.hasIdentity (e : Event) : Bool :=
  e.iteration.isSome && 0 < e.attemptNumber

def Event.setIdentity (e : Event) (iteration attempt : ℕ) (nonce : Option ℕ) : Event :=
  { e with iteration := some iteration, attemptNumber := attempt
           dispatchNonce := nonce }

/-- The identifier under which the history stream drops a second publish of the event.
-/
def Event.natsMsgID (e : Event) : String :=
  if e.stepID = "" then e.runID ++ "." ++ e.type.name
  else
    let base := e.runID ++ "." ++ e.stepID ++ "." ++ e.type.name
    if e.type = .stepInputQueued ∧ e.inputRequestID ≠ "" then
      base ++ "." ++ e.inputRequestID
    else
      let base :=
        if 0 < e.attemptNumber then base ++ "." ++ toString e.attemptNumber
        else base
      if e.hasIdentity then base ++ "." ++ toString (e.iteration.getD 0) else base

/-- At most 128 characters, each of which `SubjectToken` leaves alone. -/
def validateRequestID (id : String) : Bool :=
  id ≠ "" && id.length ≤ 128 && id.toList.all fun c => c.isAlphanum || c = '_' || c = '-'

/-- The places that send a task, as its message identifier tells them apart. -/
inductive TaskRoute where
  /-- `doPublish`. -/
  | queued
  /-- `StickyRouter.PublishTask`. -/
  | sticky
  /-- `PublishIteration` and `fireLoopDelay`. -/
  | continued
  /-- `fireRateRetry`, for every deferred task. -/
  | rateRetry
  /-- `republishTask`. -/
  | retryAfter | retryBackoff
  deriving DecidableEq

/-- A task message with the subject it is published on; `task` is the type the subject
names. Left out are the identifier of the task and the cap on its loop state, the same
functions of the run, the step and the engine wherever a task is built. -/
structure TaskPayload where
  task : String
  runID : String
  stepID : String
  iteration : ℕ
  attempt : ℕ
  input : Raw
  dispatchNonce : Option ℕ
  state : Raw
  workflowName : String
  requiredCapabilities : List String
  metadata : List (String × String)
  agentLoop : Bool
  subject : String
  route : TaskRoute

/-- What the message identifier of a task says after its run and step. -/
def TaskPayload.msgSuffix (t : TaskPayload) : String :=
  match t.route with
  | .queued => "queued"
  | .sticky => "queued.sticky"
  | .continued => "continue." ++ toString t.iteration
  | .rateRetry => "rate_retry"
  | .retryAfter => "retry_after." ++ toString t.attempt
  | .retryBackoff => "retry_backoff." ++ toString t.attempt

/-- The identifier under which the task stream drops a second publish. -/
def TaskPayload.msgID (t : TaskPayload) : String :=
  t.runID ++ "." ++ t.stepID ++ "." ++ t.msgSuffix

inductive TimerAction where
  | sleepComplete | rateRetry | waitTimeout | retryAfter | retryBackoff
  | taskConcurRetry | stepTimeout | loopDelay | loopWait | approvalTimeout
  deriving DecidableEq

structure TimerMessage where
  action : TimerAction
  runID : String
  stepID : String
  durationMs : ℤ := 0
  taskType : String := ""
  input : Raw := .nil
  attempt : ℕ := 0
  iteration : ℕ := 0
  dispatchNonce : Option ℕ := none
  workflowName : String := ""
  requiredCapabilities : List String := []
  metadata : List (String × String) := []
  subject : String := ""

/-- An old timer carries no subject. -/
def TimerMessage.dispatchSubject (tm : TimerMessage) : String :=
  if tm.subject ≠ "" then tm.subject
  else "task." ++ tm.taskType ++ "." ++ tm.runID

variable (j : Json) (name : String)

/-- An optional string field; `none` where the value has another type. -/
def Json.strField : Option String :=
  match j.field? name with
  | none | some .null => some ""
  | some (.str s) => some s
  | _ => none

def Json.boolField : Option Bool :=
  match j.field? name with
  | none | some .null => some false
  | some (.bool b) => some b
  | _ => none

def Json.intField : Option ℤ :=
  match j.field? name with
  | none | some .null => some 0
  | some (.num q) => if q.den = 1 then some q.num else none
  | _ => none

def Json.rawField : Raw :=
  match j.field? name with
  | none => .nil
  | some v => .doc v

inductive FailureType where
  | retriable | nonRetriable | retryAfter
  deriving DecidableEq

structure StepFailedPayload where
  error : String
  failureType : FailureType
  retryAfterMs : ℤ

structure ContinueWait where
  delayMs : ℤ := 0
  until? : Option Time := none
  input : Bool := false

def ContinueWait.isZero : Option ContinueWait → Bool
  | none => true
  | some w => w.delayMs ≤ 0 && w.until?.isNone && !w.input

/-- An instant wins over a delay. -/
def ContinueWait.wakeAt (w : ContinueWait) (now : Time) : Option Time :=
  match w.until? with
  | some t => some t
  | none => if 0 < w.delayMs then some (now + w.delayMs * millisecond) else none

structure StepContinuePayload where
  state : Raw := .nil
  stateSet : Bool := false
  wait : Option ContinueWait := none

def decodeContinueWait (j : Json) : Option (Option ContinueWait) :=
  match j.field? "wait" with
  | none | some .null => some none
  | some (.obj fields) => do
    let w := Json.obj fields
    let delay ← w.intField "delay_ms"
    let input ← w.boolField "input"
    let until? ← match w.field? "until" with
      | none | some .null => some none
      | some (.num q) => some (some q.num)
      | _ => none
    return some { delayMs := delay, until? := until?, input := input }
  | _ => none

def decodeStepContinue (payload : Raw) : Option StepContinuePayload :=
  match payload with
  | .doc (.obj fields) => do
    let j := Json.obj fields
    let state ← j.strField "state"
    let stateSet ← j.boolField "state_set"
    let wait ← decodeContinueWait j
    return { state := if state = "" then .nil else .text state
             stateSet := stateSet, wait := wait }
  | .doc .null => some {}
  | _ => none

end Dagnats
