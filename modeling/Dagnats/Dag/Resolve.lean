import Dagnats.Dag.Run

/-!
# Resolving a definition against a run

The pure functions of `dag/resolve.go`, `dag/condition.go`, `dag/retry.go`,
`dag/config.go` and `dag/dynamic.go` that the engine calls: which steps are
ready or skipped, the input of a step, completion, the compensation chain, the
retry policy, and the effective definition of a run with generated steps.

A set of step ids (`map[string]bool` in the source) is a predicate.
-/

namespace Dagnats

/-- `compareFloat64` and `compareString`: the six operators over an order. -/
def compareOrdered {α : Type} [LT α] [DecidableEq α] [DecidableLT α]
    (a : α) (op : String) (b : α) : Bool :=
  if op = "==" then a = b
  else if op = "!=" then a ≠ b
  else if op = "<" then a < b
  else if op = ">" then b < a
  else if op = "<=" then ¬b < a
  else if op = ">=" then ¬a < b
  else false

def compareValues (a : Json) (op : String) (b : Json) : Bool :=
  match a, b with
  | .num x, .num y => compareOrdered x op y
  | .str x, .str y => compareOrdered x op y
  | .bool x, .bool y =>
    if op = "==" then x = y else if op = "!=" then x ≠ y else false
  | _, _ => false

/-- `ParentCond.Evaluate`: false unless the parent's output is a document with
that field. -/
def ParentCond.evaluate (c : ParentCond) (run : WorkflowRun) : Bool :=
  match run.steps.find? c.stepID with
  | none => false
  | some state =>
    match state.output with
    | .doc j =>
      match j.field? c.field with
      | some v => compareValues v c.op c.value
      | none => false
    | _ => false

/-- `completedSet` and `buildCompletedSet`. -/
def completedSet (run : WorkflowRun) (id : String) : Bool :=
  match (run.step id).status with
  | .completed | .skipped | .recovered => true
  | _ => false

/-- `queuedSet` and `buildQueuedSet`. -/
def queuedSet (run : WorkflowRun) (id : String) : Bool :=
  match (run.step id).status with
  | .queued | .running | .completed | .failed | .skipped => true
  | _ => false

def allDepsCompleted (deps : List String) (completed : String → Bool) : Bool :=
  deps.all completed

variable (d : WorkflowDef)

def WorkflowDef.isAux (id : String) : Bool :=
  d.auxSteps.contains id

def resolveReady (completed queued : String → Bool) : List StepDef :=
  d.steps.filter fun s =>
    !(completed s.id || queued s.id) && !d.isAux s.id && allDepsCompleted s.dependsOn completed

/-- Unlike `resolveReady` it does not leave aux steps out. -/
def resolveSkipped (completed queued : String → Bool) (run : WorkflowRun) : List StepDef :=
  d.steps.filter fun s =>
    !(completed s.id || queued s.id) &&
      match s.skipIf with
      | none => false
      | some c => allDepsCompleted s.dependsOn completed && c.evaluate run

def isComplete (completed : String → Bool) : Bool :=
  d.steps.all fun s => completed s.id || d.isAux s.id

/-- `json.Marshal` of a raw message: absent is `null`, bytes that are no JSON
document are an error. -/
def Raw.marshal : Raw → Option Json
  | .nil => some .null
  | .text _ => none
  | .doc j => some j

/-- The run input, the only dependency's output, or the object of all dependencies'
outputs. `none` is its marshalling error. -/
def resolveInput (s : StepDef) (run : WorkflowRun) : Option Raw :=
  match s.dependsOn with
  | [] => some run.input
  | [dep] => some (run.step dep).output
  | deps =>
    (deps.mapM fun dep =>
      ((run.step dep).output.marshal).map fun j => (dep, j)).map fun fields => .doc (.obj fields)

def findStepDef (id : String) : Option StepDef :=
  d.steps.find? (·.id = id)

def buildAuxSteps (steps : List StepDef) : List String :=
  steps.flatMap fun s =>
    (if s.onFailure = "" then [] else [s.onFailure]) ++
      if s.compensate = "" then [] else [s.compensate]

/-- The definition together with the run's generated steps. -/
def effectiveDef (run : WorkflowRun) : WorkflowDef :=
  if run.dynamicSteps.isEmpty then d
  else
    let all := d.steps ++ run.dynamicSteps
    { d with steps := all, auxSteps := buildAuxSteps all }

/-- The compensation targets of the completed steps, last declared first, each depending
on the one before it. -/
def resolveCompensateChain (completed : String → Bool) : List StepDef :=
  let targets := (d.steps.filter fun s => s.compensate ≠ "" ∧ completed s.id).map
    fun s => (d.steps.reverse.find? (·.id = s.compensate)).getD { id := "" }
  link none targets.reverse
where
  link (prev : Option String) : List StepDef → List StepDef
    | [] => []
    | s :: rest =>
      { s with dependsOn := prev.toList } :: link (some s.id) rest

def retryAttemptCountMax : ℤ := 100000

/-- The step's own policy, the workflow's default, or the fixed policy the `retries`
shorthand stands for. -/
def resolveRetryPolicy (s : StepDef) : Option RetryPolicy :=
  match s.retry with
  | some p => some p
  | none =>
    match d.defaultRetry with
    | some p => some p
    | none =>
      if 0 < s.retries then
        some { maxAttempts := s.retries, strategy := .fixed
               initialDelay := 5 * second, maxDelay := 5 * second }
      else none

/-- The conversion of a float64 to an int64, with the answer of amd64 to a number out of
range. -/
def toInt64 (x : ℚ) : ℤ :=
  if -2 ^ 63 ≤ x ∧ x < 2 ^ 63 then if x < 0 then x.ceil else x.floor else -2 ^ 63

/-- For an attempt number of at least one; the integer product wraps around. The
exponential delay is computed exactly, not rounded to a float64. -/
def calculateDelay (p : RetryPolicy) (attempt : ℕ) : Duration :=
  let delay : Duration :=
    match p.strategy with
    | .fixed => p.initialDelay
    | .linear => (p.initialDelay * attempt).bmod (2 ^ 64)
    | .exponential =>
      let multiplier := if p.multiplier ≤ 0 then 2 else p.multiplier
      toInt64 ((p.initialDelay : ℚ) * multiplier ^ (attempt - 1))
  if 0 < p.maxDelay ∧ p.maxDelay < delay then p.maxDelay else delay

def parseConfig (expected : StepType) (s : StepDef) : Option ConfigDoc :=
  if s.type = expected then
    match s.config with
    | .doc c => some c
    | _ => none
  else none

def parseAgentLoopConfig : StepDef → Option ConfigDoc := parseConfig .agentLoop

def parseMapConfig : StepDef → Option ConfigDoc := parseConfig .map

def parseSubWorkflowConfig : StepDef → Option ConfigDoc :=
  parseConfig .subWorkflow

def parseWaitForEventConfig : StepDef → Option ConfigDoc :=
  parseConfig .waitForEvent

def parseApprovalConfig : StepDef → Option ConfigDoc := parseConfig .approval

def parsePlannerConfig : StepDef → Option ConfigDoc := parseConfig .planner

def ConfigDoc.formCount (c : ConfigDoc) : ℕ :=
  (if c.duration ≠ 0 then 1 else 0) + (if c.cron ≠ "" then 1 else 0) +
    if c.untilInputPath ≠ "" then 1 else 0

/-- `checkCronZoneFields`: zone fields only with a cron form, at most one. -/
def ConfigDoc.cronZoneFieldsOk (c : ConfigDoc) : Bool :=
  if c.cronTimezone = "" ∧ c.cronTimezoneInputPath = "" then true
  else c.cron ≠ "" ∧ ¬(c.cronTimezone ≠ "" ∧ c.cronTimezoneInputPath ≠ "")

/-- Exactly one form, and consistent zone fields. -/
def parseSleepConfig (s : StepDef) : Option ConfigDoc :=
  match parseConfig .sleep s with
  | some c => if c.formCount = 1 ∧ c.cronZoneFieldsOk then some c else none
  | none => none

/-- Every step pending. -/
def newWorkflowRun (runID defHash : String) (now : Time) : WorkflowRun :=
  { runID := runID, workflowID := d.name, status := .pending
    steps := d.steps.foldl (fun t s => t.set s.id {}) .empty
    createdAt := now, defHash := defHash }

end Dagnats
