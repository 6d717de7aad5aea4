import Mathlib.Algebra.Ring.Rat

/-!
# The vocabulary of the `dag` package

Workflow definitions and step definitions as `dag/types.go` declares them. A zero value of the
source is the default of the field here; the empty string stands for "absent" exactly where the
source uses it so. Byte slices that the engine treats as JSON are `Raw`.

Left out are fields that no function of the engine reads: trace context and labels.
-/

namespace Dagnats

/-- Instants and durations, in nanoseconds. -/
abbrev Time := ℤ

abbrev Duration := ℤ

def second : Duration := 1000000000

def millisecond : Duration := 1000000

/-- `v` with its last `digits` digits behind the point, without zeros at the end. -/
def pointed (v digits : ℕ) : String :=
  let fraction := ((toString (10 ^ digits + v % 10 ^ digits)).toList.drop 1).reverse
  let kept := (fraction.dropWhile (· = '0')).reverse
  toString (v / 10 ^ digits) ++ if kept.isEmpty then "" else "." ++ String.ofList kept

/-- `Duration.String`. -/
def durationText (d : Duration) : String :=
  let u := d.natAbs
  (if d < 0 then "-" else "") ++
    if u = 0 then "0s"
    else if u < 1000 then toString u ++ "ns"
    else if u < 1000000 then pointed u 3 ++ "µs"
    else if u < 1000000000 then pointed u 6 ++ "ms"
    else
      let minutes := u / 60000000000
      (if 60 ≤ minutes then toString (minutes / 60) ++ "h" else "") ++
        (if 1 ≤ minutes then toString (minutes % 60) ++ "m" else "") ++
        pointed (u % 60000000000) 9 ++ "s"

example : durationText (5400 * second + 250 * millisecond) = "1h30m0.25s" := by decide +kernel

/-- A JSON document. A number is the value of the float64 it decodes to. -/
inductive Json where
  | null
  | bool (b : Bool)
  | num (q : ℚ)
  | str (s : String)
  | arr (items : List Json)
  | obj (fields : List (String × Json))

/-- The last field of that name wins, as in `encoding/json`. -/
def Json.field? (j : Json) (name : String) : Option Json :=
  match j with
  | .obj fields => (fields.reverse.find? (·.1 = name)).map (·.2)
  | _ => none

/-- Put a field where its key belongs; a later field of that name replaces it. -/
def insertField {α : Type} (key : String) (value : α) : List (String × α) → List (String × α)
  | [] => [(key, value)]
  | (k, v) :: fields =>
    if key = k then (k, value) :: fields
    else if key < k then (key, value) :: (k, v) :: fields
    else (k, v) :: insertField key value fields

/-- A byte slice: empty, bytes that are no JSON document, or a document. -/
inductive Raw where
  | nil
  | text (s : String)
  | doc (j : Json)

def Raw.isEmpty : Raw → Bool
  | .nil => true
  | _ => false

/-- The length in bytes of a document in its compact form. -/
def Json.size : Json → ℕ
  | .null => 4
  | .bool b => if b then 4 else 5
  | .num q => (toString q).utf8ByteSize
  | .str s => s.utf8ByteSize + 2
  | .arr items => 2 + sizes items
  | .obj fields => 2 + fieldSizes fields
where
  sizes : List Json → ℕ
    | [] => 0
    | j :: js => j.size + 1 + sizes js
  fieldSizes : List (String × Json) → ℕ
    | [] => 0
    | (k, j) :: fs => k.utf8ByteSize + 4 + j.size + fieldSizes fs

def Raw.size : Raw → ℕ
  | .nil => 0
  | .text s => s.utf8ByteSize
  | .doc j => j.size

inductive StepType where
  | normal | agentLoop | subWorkflow | agent | map | sleep | waitForEvent
  | approval | planner | respond
  deriving DecidableEq

inductive RunStatus where
  | pending | running | completed | failed | cancelled | compensated
  | compensateFailed
  deriving DecidableEq

def RunStatus.isTerminal : RunStatus → Bool
  | .completed | .failed | .cancelled | .compensated | .compensateFailed => true
  | .pending | .running => false

inductive StepStatus where
  | pending | queued | running | completed | failed | skipped | cancelled
  | recovered
  deriving DecidableEq

inductive RetryStrategy where
  | fixed | linear | exponential
  deriving DecidableEq

inductive SingletonMode where
  | skip | cancel | other
  deriving DecidableEq

inductive StickyStrategy where
  | none | soft | hard
  deriving DecidableEq

/-- Skip a step on a field of a parent's output. -/
structure ParentCond where
  stepID : String
  field : String
  op : String
  value : Json

structure RetryPolicy where
  maxAttempts : ℤ
  strategy : RetryStrategy := .fixed
  initialDelay : Duration := 0
  maxDelay : Duration := 0
  multiplier : ℚ := 0
  deriving DecidableEq

structure RateLimit where
  limit : ℤ
  period : Duration
  deriving DecidableEq

structure KeyedRateLimit where
  key : String
  limit : ℤ
  period : Duration
  units : ℤ
  deriving DecidableEq

structure ConcurrencyLimit where
  maxRuns : ℤ := 0
  maxSteps : ℤ := 0
  deriving DecidableEq

structure Match where
  left : String := ""
  op : String := ""
  right : String := ""
  deriving DecidableEq

structure CancelOn where
  event : String
  match_ : Match
  deriving DecidableEq

structure SingletonConfig where
  mode : SingletonMode
  key : String := ""
  deriving DecidableEq

/-- The fields of the type-specific configurations, from `AgentLoopConfig` to
`RespondConfig`. Decoding a document into one of these reads that type's fields and
leaves the absent ones at zero. -/
structure ConfigDoc where
  maxIterations : ℤ := 0
  maxDuration : Duration := 0
  loopDelay : Duration := 0
  maxItems : ℤ := 0
  duration : Duration := 0
  cron : String := ""
  untilInputPath : String := ""
  cronTimezone : String := ""
  cronTimezoneInputPath : String := ""
  workflow : String := ""
  detach : Bool := false
  event : String := ""
  match_ : Match := {}
  timeout : Duration := 0
  subject : String := ""
  maxSteps : ℤ := 0
  maxDepth : ℤ := 0
  allowedTasks : List String := []
  status : ℤ := 0
  bodyFrom : String := ""
  deriving DecidableEq

/-- `StepDef.Config`: absent, bytes that do not decode, or a document. -/
inductive StepConfig where
  | absent
  | malformed
  | doc (c : ConfigDoc)
  deriving DecidableEq

structure StepDef where
  id : String
  task : String := ""
  dependsOn : List String := []
  retries : ℤ := 0
  timeout : Duration := 0
  type : StepType := .normal
  config : StepConfig := .absent
  skipIf : Option ParentCond := none
  retry : Option RetryPolicy := none
  workerGroup : String := ""
  onFailure : String := ""
  compensate : String := ""
  rateLimit : Option RateLimit := none
  keyedRateLimit : Option KeyedRateLimit := none
  maxTaskConcurrency : ℤ := 0
  requiredCapabilities : List String := []
  metadata : List (String × String) := []

structure PriorityConfig where
  key : String
  rules : List (String × ℤ)
  defaultOffset : ℤ := 0
  deriving DecidableEq

/-- `auxSteps` lists the keys the source maps to true. -/
structure WorkflowDef where
  name : String
  version : String := ""
  steps : List StepDef
  defaultRetry : Option RetryPolicy := none
  concurrency : Option ConcurrencyLimit := none
  timeout : Duration := 0
  inputSchema : Raw := .nil
  outputSchema : Raw := .nil
  auxSteps : List String := []
  sticky : StickyStrategy := .none
  cancelOn : List CancelOn := []
  singleton : Option SingletonConfig := none
  idempotencyKey : String := ""
  priority : Option PriorityConfig := none

/-- The functions of other packages that the modelled code calls. -/
structure Externals where
  /-- `dag.DefHash`: a SHA-256 of the definition. -/
  defHash : WorkflowDef → String
  /-- SHA-256 of a string, in hex. -/
  digest : String → String
  /-- Does a cron sleep name a valid expression and zone? -/
  cronOk : ConfigDoc → Bool
  /-- The delay of the cron and until forms of a sleep; `none` is an error. -/
  sleepDelay : ConfigDoc → Raw → Time → Option Duration
  /-- Does a schema decode? -/
  schemaParses : Raw → Bool
  /-- Does a document satisfy a schema? -/
  schemaAccepts : Raw → Raw → Bool
  /-- The steps of a planner's output; `none` is a decoding error. -/
  decodeFragment : Raw → Option (List StepDef)
  /-- The document that a text is, as `encoding/json` reads it. -/
  readJSON : String → Option Json
  /-- `strconv.IsPrint`. -/
  isPrint : Char → Bool

end Dagnats
