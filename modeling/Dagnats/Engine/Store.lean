import Dagnats.Engine.World

/-!
# Loading, stamping, fencing and saving a run

The functions through which every handler reads and writes a run:
`snapshot.go` (`Load`, `Save`), `dispatch_stamp.go`, `step_event_fence.go`, and
`saveSnapshot`, `loadRunAndDef` and `settleFinishedSteps` of the orchestrator.

A Go copy of a run shares its step map and its revision with the copy it was
made from; functions that change them return the changed run instead.
Assertions that a run has an identifier, metrics, traces and log output are
left out.
-/

namespace Dagnats

open Interaction

structure Orchestrator extends Externals where
  legacyStepEvents : Bool := false
  loopStateMaxBytes : ℕ := 262144
  /-- `AdmissionController.HasConcurrency`. -/
  hasConcurrency : Bool := true
  /-- Is there a bucket for singleton locks? -/
  hasSingleton : Bool := true
  hasRateLimiter : Bool := true
  hasSticky : Bool := true
  /-- The workflows that `GrantPolicy` grants the control plane. -/
  controlPlaneGrants : List String := []
  /-- The first token of the subjects of a step type, where it is not `task`. -/
  stepRoutes : StepType → Option String := fun _ => none
  /-- How deep `enqueueReady` may nest; the source has the stack for it. -/
  callDepth : ℕ := 8

def load (runID : String) : M WorkflowRun :=
  request (.load runID)

def now : M Time := request .now

variable (site : Site) (run : WorkflowRun)

/-- `SnapshotStore.Save`: compare-and-set where the copy knows its revision. -/
def save : M WorkflowRun :=
  match run.revision with
  | none => do
    let _ ← request (.put site run)
    return { run with recording := none }
  | some rev => do
    let rev' ← request (.update site run rev)
    return { run with revision := some rev', recording := none }

variable (run : WorkflowRun)

/-- Only runs the reconciler owns get an active entry; the run index write is best
effort and left out. -/
def createEntryIndexes : M Unit :=
  if !run.status.isTerminal || run.releasePending then
    request (.notify (.createActive run.runID))
  else return ()

/-- `SaveInitial`: an unconditional write. -/
def saveInitialSnapshot : M WorkflowRun := do
  let rev ← request (.put site run)
  createEntryIndexes run
  return { run with revision := some rev, recording := none }

/-- `none` where the run exists already. -/
def createSnapshot : M (Option WorkflowRun) := do
  match ← request (.create site run) with
  | none => return none
  | some rev =>
    createEntryIndexes run
    return some { run with revision := some rev, recording := none }

/-- `stampDispatch` with the nonce it mints. -/
def StepState.stamped (s : StepState) (nonce : ℕ) (t : Time) : StepState :=
  { s with
    dispatchNonce := some nonce, startedAt := some t, completedAt := none
    attemptStartedAt := none, retryDispatchAt := none, dispatchUnsent := false }

def stampDispatch (runID stepID : String) (origin : Origin) (s : StepState) : M StepState := do
  let t ← now
  let nonce ← request (.newNonce
    { runID := runID, stepID := stepID, origin := origin
      attempts := s.attempts, iterations := s.iterations })
  return s.stamped nonce t

def StepState.stampTerminal (s : StepState) (t : Time) : StepState :=
  if s.completedAt.isNone ∧ (s.status = .completed ∨ s.status = .failed) then
    { s with completedAt := some t }
  else s

def stampTerminalSteps (t : Time) : WorkflowRun :=
  { run with steps := run.steps.mapVals fun _ s => s.stampTerminal t }

def stepFinished (s : StepState) : Bool :=
  match s.status with
  | .completed | .failed | .cancelled | .skipped => true
  | _ => false

def settleSaveAttemptsMax : ℕ := 3

def clearInputs (ids : List String) : WorkflowRun :=
  ids.foldl (fun r id => r.setStep id { r.step id with hasInputs := false }) run

/-- The later rounds of `settleFinishedSteps`, on copies of its own. -/
def resettle (runID : String) (ids : List String) : ℕ → M Unit
  | 0 => ignoring (load runID)
  | n + 1 => do
    match ← outcome (load runID) with
    | .error _ => return ()
    | .ok fresh =>
      match ← outcome (save .settleInputs (clearInputs fresh ids)) with
      | .error .conflict => resettle runID ids n
      | _ => return ()

/-- The steps of `run` whose queued inputs no iteration can take any more and
whose sweep succeeds. -/
def sweepInputs : M (List String) :=
  Prog.fold (fun swept id => do
    let s := run.step id
    if s.hasInputs && (stepFinished s || run.status.isTerminal) then
      match ← outcome (request (.notify (.settleInputs run.runID id))) with
      | .ok _ => return swept ++ [id]
      | .error _ => return swept
    else return swept) run.steps.keys []

/-- With the caller's copy as it is left. -/
def settleFinishedSteps : M WorkflowRun := do
  let swept ← sweepInputs run
  if swept.isEmpty then return run
  let cleared := clearInputs run swept
  match ← outcome (save .settleInputs cleared) with
  | .ok saved => return saved
  | .error .conflict => do
    resettle run.runID swept (settleSaveAttemptsMax - 1)
    return cleared
  | .error _ => return cleared

def saveSnapshot : M WorkflowRun := do
  let t ← now
  let saved ← save site (stampTerminalSteps run t)
  settleFinishedSteps saved

def loadDef (workflowID : String) : M WorkflowDef :=
  request (.getDef (.latest workflowID))

namespace Orchestrator

variable (o : Orchestrator)

def selfHealMissingVersion (run : WorkflowRun) : M WorkflowDef := do
  let d ← loadDef run.workflowID
  if o.defHash d ≠ run.defHash then
    throw (.other "pointer content hash does not match pinned def_hash")
  else do
    request (.createDef (.version run.workflowID run.defHash) d)
    return d

def loadPinnedOrLatestDef (run : WorkflowRun) : M WorkflowDef := do
  if run.defHash = "" then loadDef run.workflowID
  else
    match ← outcome (request (.getDef (.version run.workflowID run.defHash))) with
    | .ok d =>
      if o.defHash d ≠ run.defHash then
        throw (.other "pinned workflow def corrupt")
      else return d
    | .error .defNotFound =>
      match ← outcome (o.selfHealMissingVersion run) with
      | .ok d => return d
      | .error _ => throw .pinnedDefMissing
    | .error e => throw e

end Orchestrator

def isDefUnresolvable : Err → Bool
  | .pinnedDefMissing | .defNotFound => true
  | _ => false

/-- The run and its effective definition. -/
def Orchestrator.loadRunAndDef (o : Orchestrator) (runID : String) :
    M (WorkflowDef × WorkflowRun) := do
  let run ← load runID
  match ← outcome (o.loadPinnedOrLatestDef run) with
  | .ok d => return (effectiveDef d run, run)
  | .error e =>
    if run.status.isTerminal && isDefUnresolvable e then
      throw .terminalRunDefGone
    else throw e

/-- The rejection reasons of `step_event_fence.go`. -/
inductive Rejection where
  | noIdentity | notRunning | iteration | attempt | nonce
  deriving DecidableEq

def fencedEventType : EventType → Bool
  | .stepContinue | .stepCompleted | .stepFailed => true
  | _ => false

/-- `none` accepts. Its two assertions are made by `fenceStepEvent` first. -/
def acceptStepEvent (state : StepState) (evt : Event) (legacyAccepted : Bool) : Option Rejection :=
  if !evt.hasIdentity then
    if legacyAccepted then none else some .noIdentity
  else if state.status ≠ .running ∧ state.status ≠ .queued then
    some .notRunning
  else if evt.iteration ≠ some state.iterations then some .iteration
  else if state.status = .queued then
    -- Only the nonce tells the dispatch: `attempts` lags until step.started.
    if evt.dispatchNonce = none ∨ evt.dispatchNonce ≠ state.dispatchNonce then
      some .nonce
    else none
  else if evt.attemptNumber ≠ state.attempts then some .attempt
  else if evt.dispatchNonce ≠ none ∧ evt.dispatchNonce ≠ state.dispatchNonce then
    some .nonce
  else none

/-- For a step that is queued. -/
def adoptDispatchAttempt (run : WorkflowRun) (evt : Event) : WorkflowRun :=
  let state := run.step evt.stepID
  if state.attempts < evt.attemptNumber then
    run.setStep evt.stepID { state with attempts := evt.attemptNumber }
  else run

/-- The run to go on with, or `none` for an event that belongs to another dispatch and
is dropped. -/
def Orchestrator.fenceStepEvent (o : Orchestrator) (run : WorkflowRun)
    (evt : Event) : M (Option WorkflowRun) :=
  if run.runID ≠ evt.runID then
    panic "fenceStepEvent: event and run must name the same run"
  else if evt.stepID = "" then
    panic "fenceStepEvent: StepID must not be empty"
  else if !fencedEventType evt.type then
    return some { run with recording := some ⟨evt, false⟩ }
  else
    let state := run.step evt.stepID
    match acceptStepEvent state evt o.legacyStepEvents with
    | some _ => return none
    | none =>
      let run :=
        if state.status = .queued ∧ 0 < evt.attemptNumber then
          adoptDispatchAttempt run evt
        else run
      return some { run with recording := some ⟨evt, true⟩ }

/-- The state a `step.continue` carries, if it carries one. -/
def continueState (evt : Event) : M (Option Raw) :=
  if !evt.hasIdentity || evt.payload.isEmpty then return none
  else
    match decodeStepContinue evt.payload with
    | none => throw (.other "decode step.continue payload")
    | some p =>
      return if p.stateSet || !p.state.isEmpty then some p.state else none

def loopStateOverCap (size cap : ℕ) : Option String :=
  if size ≤ cap then none
  else some ("agent loop state is " ++ toString size ++ " bytes, over the " ++
    toString cap ++ " byte cap (loop_state_max_bytes)")

end Dagnats
