import Dagnats.Dag.Resolve

/-!
# The records of an agent journal

`journal/journal.go` and `journal/replay.go`: a step journal is one subject of
the stream `AGENT_JOURNAL`. A record carries the identity of the claim that
wrote it in its headers, so that a tail read can classify it. A body is here
what its readers decode it to.

Left out are the timestamps of the records, which no modelled function reads,
and the limit on the size of an input.
-/

namespace Dagnats.AgentJournal

/-- The type of a record. Handlers may write types of their own. -/
inductive RecordType where
  | claim | pause | commit | entry | modelResponse | toolIntent | toolResult | inputPlaced
  | custom (name : String)
  deriving DecidableEq

/-- What the lifecycle event of an iteration will say. -/
inductive Action where
  | continues | complete | fail
  deriving DecidableEq

structure Commit where
  action : Action
  output : Raw := .nil
  state : Raw := .nil
  error : String := ""
  failureType : String := ""
  retryAfterMs : ℤ := 0
  wait : Raw := .nil

/-- `Safe` or `Unsafe`. -/
inductive Replay where
  | safe | notSafe
  deriving DecidableEq

structure ToolCall where
  name : String
  input : Raw := .nil
  call : ℕ := 0
  key : String := ""

structure ToolIntent extends ToolCall where
  replay : Replay

structure ToolResult where
  call : ℕ
  key : String
  output : Raw := .nil
  error : String := ""
  interrupted : Bool := false
  partialOutput : Raw := .nil

/-- As it is written. -/
structure InputPlaced where
  requestID : String
  mode : String
  content : Raw := .nil

/-- The body of a record, decoded; `raw` is one that has no structure of its
own. -/
inductive Body where
  | claim
  | pause (name : String) (durationMs : ℤ)
  | commit (c : Commit)
  | toolIntent (intent : ToolIntent)
  | toolResult (result : ToolResult)
  | modelResponse (call : ℕ) (output : Raw)
  | inputPlaced (p : InputPlaced)
  | raw (data : Raw)

/-- One delivery of one dispatch of a step. -/
structure Task where
  runID : String
  stepID : String
  iteration : ℕ
  attempt : ℕ
  dispatchNonce : String
  delivered : ℕ
  streamSeq : ℕ
  deriving DecidableEq

def msgID (task : Task) (index : ℕ) : String :=
  task.runID ++ "." ++ task.stepID ++ "." ++ toString task.attempt ++ "." ++
    toString task.iteration ++ "." ++ toString task.streamSeq ++ "." ++
    toString task.delivered ++ "." ++ toString index

/-- With the id of the message that it came in. -/
structure Record where
  seq : ℕ
  type : RecordType
  iteration : ℕ
  attempt : ℕ
  dispatchNonce : String
  delivered : ℕ
  streamSeq : ℕ
  index : ℕ
  data : Body
  msgID : String

/-- The message of one record, with the sequence it expects at the tail. -/
structure Message where
  record : ℕ → Record
  expected : ℕ

def recordMessage (task : Task) (type : RecordType) (index expected : ℕ) (data : Body) :
    Message where
  record seq :=
    { seq := seq, type := type, iteration := task.iteration, attempt := task.attempt
      dispatchNonce := task.dispatchNonce, delivered := task.delivered
      streamSeq := task.streamSeq, index := index, data := data
      msgID := msgID task index }
  expected := expected

namespace Record

variable (r : Record)

def sameClaim (task : Task) : Bool :=
  r.iteration = task.iteration && r.attempt = task.attempt && r.dispatchNonce =
    task.dispatchNonce && r.delivered = task.delivered && r.streamSeq = task.streamSeq

def olderDeliveryClaim (task : Task) : Bool :=
  r.type = .claim && task.streamSeq ≠ 0 && r.streamSeq = task.streamSeq &&
    r.delivered < task.delivered

def taskOf : Task where
  runID := "-"
  stepID := "-"
  iteration := r.iteration
  attempt := r.attempt
  dispatchNonce := r.dispatchNonce
  delivered := r.delivered
  streamSeq := r.streamSeq

def commitState : Raw :=
  match r.data with
  | .commit c => c.state
  | _ => .nil

def pauseName : String :=
  match r.data with
  | .pause name _ => name
  | _ => ""

def placedInput : Option InputPlaced :=
  match r.data with
  | .inputPlaced p => if p.requestID = "" then none else some p
  | _ => none

def intent? : Option ToolIntent :=
  match r.type, r.data with
  | .toolIntent, .toolIntent intent => some intent
  | _, _ => none

def result? : Option ToolResult :=
  match r.type, r.data with
  | .toolResult, .toolResult result => some result
  | _, _ => none

end Record

/-- The text of a JSON string. -/
def quote (s : String) : String :=
  "\"" ++ String.ofList (s.toList.flatMap fun c =>
    if c = '"' ∨ c = '\\' then ['\\', c] else [c]) ++ "\""

mutual

/-- The text of a document with its keys sorted. -/
def canonicalText : Json → String
  | .null => "null"
  | .bool b => if b then "true" else "false"
  | .num q => toString q
  | .str s => quote s
  | .arr items => "[" ++ ",".intercalate (canonicalItems items) ++ "]"
  | .obj fields =>
    "\x7b" ++ ",".intercalate ((canonicalFields fields []).map fun f =>
      quote f.1 ++ ":" ++ f.2) ++ "\x7d"

def canonicalItems : List Json → List String
  | [] => []
  | j :: js => canonicalText j :: canonicalItems js

def canonicalFields : List (String × Json) → List (String × String) → List (String × String)
  | [], acc => acc
  | (k, j) :: fields, acc => canonicalFields fields (insertField k (canonicalText j) acc)

end

def canonicalJSON : Raw → String
  | .nil => ""
  | .text s => if s.toList.all Char.isWhitespace then "" else s
  | .doc j => canonicalText j

def ToolCall.content (call : ToolCall) : String × String :=
  (call.name, canonicalJSON call.input)

def sameCall (recorded current : ToolCall) : Bool :=
  recorded.content = current.content

inductive Violation where
  | noClaim (seq : ℕ)
  | fenced (seq attempt claimSeq claimAttempt : ℕ)

/-- The newest of these claims that wrote the record. -/
def ownClaim (claims : List Record) (r : Record) : Option Record :=
  claims.reverse.find? fun c => c.sameClaim r.taskOf

def checkRecord (claims : List Record) (r : Record) : List Violation :=
  match ownClaim claims r with
  | none => [.noClaim r.seq]
  | some own =>
    match claims.find? fun c =>
        own.seq < c.seq && c.seq < r.seq && r.iteration ≤ c.iteration with
    | some c => [.fenced r.seq r.attempt c.seq c.attempt]
    | none => []

def checkFencingLoop : List Record → List Record → List Violation
  | _, [] => []
  | claims, r :: rs =>
    if r.type = .claim then checkFencingLoop (claims ++ [r]) rs
    else checkRecord claims r ++ checkFencingLoop claims rs

/-- Over the records in journal order. -/
def checkFencing (records : List Record) : List Violation :=
  checkFencingLoop [] records

end Dagnats.AgentJournal
