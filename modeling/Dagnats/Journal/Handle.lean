import Dagnats.Interaction.Program
import Dagnats.Journal.Records

/-!
# Writers of an agent journal

`journal.go`, `replay.go` and `inputs.go`: a `Journal` is one claim on one
delivery of a step. Its operations are programs over the calls of the stream,
and a handler is any way of using them: it goes on with the result of each, an
error included, and a tool function may use the journal that runs it.

The stream appends a message only at the tail that it expects, and answers a
stored id with its sequence. A stored message may be reported as failed.
`observe` is no call of the source: it records what happens at the handle.

Left out are the crash seam of the tests, the guard against use from several
goroutines, and the relay of a program's journal.
-/

namespace Dagnats.AgentJournal

open Interaction

inductive Err where
  | stale | fenced | committed | replayMismatch
  /-- A publish or a read that failed, for all the caller knows. -/
  | transport
  | resyncs
  | tooManyCalls
  | notJSON
  | marshal
  | modelFailed
  | panic (msg : String)

inductive Operation where
  | append (type : RecordType) (data : Body)
  | pause (name : String) (durationMs : ℤ)
  | placeInput (p : InputPlaced)
  | tool (call : ToolCall) (replay : Replay)
  | model
  | commit (c : Commit)

/-- What happens at the handle of a task. -/
inductive Observation where
  | issued (task : Task) (op : Operation)
  /-- An operation returned an error. -/
  | failed (task : Task)
  /-- The tool function is started; `recorded` is what the intent of an earlier
  holder said of the call, if there is one. -/
  | started (task : Task) (call : ToolCall) (replay : Replay) (recorded : Option Replay)
  /-- `Open` has read the records up to this tail. -/
  | rebuilt (task : Task) (tailSeq : ℕ)
  /-- `append` returned this sequence for this record. -/
  | stored (task : Task) (type : RecordType) (data : Body) (seq : ℕ)
  /-- `Open` ended, after it had read the tail `tailSeq`, with this commit. -/
  | opened (task : Task) (tailSeq : ℕ) (result : Except Err (Option (Commit × ℕ)))

/-- Whose handle it is. -/
def Observation.task : Observation → Task
  | .issued task _ => task
  | .failed task => task
  | .started task _ _ _ => task
  | .rebuilt task _ => task
  | .stored task _ _ _ => task
  | .opened task _ _ => task

inductive Call where
  /-- Take the next delivery of a message of the task stream. -/
  | receive (streamSeq : ℕ)
  | readTail
  | readUpTo (seq : ℕ)
  | publish (msg : Message)
  | observe (o : Observation)

/-- The answer to a publish. -/
inductive Ack where
  | ok (seq : ℕ)
  | wrongLastSequence
  | failed

def Answer : Call → Type
  | .receive _ => ℕ
  | .readTail => Except Err (Option Record)
  | .readUpTo _ => Except Err (List Record)
  | .publish _ => Ack
  | .observe _ => Unit

abbrev M := Prog Call Answer Err

def perform (op : Call) : M (Answer op) := .call op .pure

def observe (o : Observation) : M Unit := perform (.observe o)

structure Journal where
  task : Task
  seq : ℕ := 0
  next : ℕ := 0
  fenced : Bool := false
  done : Bool := false
  state : Raw := .nil
  records : List Record := []
  committed : Option Commit := none
  committedSeq : ℕ := 0
  resume : String := ""
  lastCommitSeq : ℕ := 0
  restarts : ℕ := 0
  toolCalls : ℕ := 0
  modelCalls : ℕ := 0
  heldPositions : List ℕ := []
  honoured : List ℕ := []
  placed : List InputPlaced := []

def appendRetryMax : ℕ := 8

def recordsMax : ℕ := 10000

def callsMax : ℕ := recordsMax

/-- The sequence of a tail; zero where the subject is empty. -/
def tailSeq : Option Record → ℕ
  | none => 0
  | some r => r.seq

namespace Journal

variable (j : Journal)

def advance (seq : ℕ) : Except Err ℕ × Journal :=
  if seq < j.seq then (.error .fenced, { j with fenced := true })
  else (.ok seq, { j with seq := seq, next := j.next + 1 })

/-- What a rejected append makes of the tail. -/
inductive Verdict where
  | resync
  | landed (seq : ℕ)
  | fenced

/-- The switch of `append` over the tail. -/
def judge (expected : ℕ) : Option Record → Verdict
  | none => .resync
  | some tail =>
    if tail.seq = expected then .resync
    else if tail.msgID = msgID j.task j.next then .landed tail.seq
    else if tail.sameClaim j.task ∨ tail.iteration < j.task.iteration then .resync
    else if tail.olderDeliveryClaim j.task then .resync
    else .fenced

/-- The loop of `append`, with the tries that are left. -/
def appendLoop (j : Journal) (type : RecordType) (data : Body) : ℕ → ℕ → M (Except Err ℕ × Journal)
  | 0, _ => return (.error .resyncs, j)
  | n + 1, expected => do
    match ← perform (.publish (recordMessage j.task type j.next expected data)) with
    | .ok seq => return j.advance seq
    | .failed => return (.error .transport, j)
    | .wrongLastSequence => do
      match ← perform .readTail with
      | .error e => return (.error e, j)
      | .ok tail =>
        match j.judge expected tail with
        | .resync => j.appendLoop type data n (tailSeq tail)
        | .landed seq => return j.advance seq
        | .fenced => return (.error .fenced, { j with fenced := true })

def append (type : RecordType) (data : Body) : M (Except Err ℕ × Journal) := do
  if j.fenced then return (.error .fenced, j)
  else if j.done then return (.error .committed, j)
  else do
    let r ← j.appendLoop type data appendRetryMax j.seq
    match r.1 with
    | .ok seq => do
      observe (.stored j.task type data seq)
      return r
    | .error _ => return r

/-! ## Recovery -/

def priorAttempt (r : Record) : Bool :=
  r.seq ≤ j.lastCommitSeq || r.attempt < j.task.attempt

def priorUnsafePositions : List ℕ :=
  j.records.filterMap fun r =>
    if j.priorAttempt r then
      r.intent?.bind fun intent =>
        if intent.replay = .notSafe then some intent.call else none
    else none

def placedBy (r : Record) : List InputPlaced :=
  match r.type, r.placedInput with
  | .inputPlaced, some p => [p]
  | _, _ => []

/-- What `rebuild` makes of a commit of the iteration. -/
def rebuildCommit (r : Record) : Journal :=
  match r.data with
  | .commit c =>
    if r.attempt = j.task.attempt then
      { j with
        resume := "", lastCommitSeq := r.seq, committed := some c, committedSeq := r.seq }
    else { j with resume := "", lastCommitSeq := r.seq }
  | _ => { j with resume := "", lastCommitSeq := r.seq }

/-- What `rebuild` makes of a record of the iteration. -/
def rebuildCurrent (r : Record) : Journal :=
  let j := { j with
    records := j.records ++ [r]
    restarts := if r.type = RecordType.claim then j.restarts + 1 else 0 }
  match r.type with
  | .pause => { j with resume := r.pauseName }
  | .commit => j.rebuildCommit r
  | _ => { j with resume := "" }

/-- One round of the loop of `rebuild`. -/
def rebuildRecord (r : Record) : Journal :=
  let j := { j with placed := j.placed ++ placedBy r }
  if r.iteration < j.task.iteration then
    if r.type = .commit then { j with state := r.commitState } else j
  else j.rebuildCurrent r

/-- For a new handle. -/
def rebuild (task : Task) (records : List Record) : Journal :=
  let j := records.foldl rebuildRecord { task := task }
  { j with heldPositions := j.priorUnsafePositions }

def supersededDelivery : Bool :=
  j.task.streamSeq ≠ 0 && j.records.any fun r =>
    r.type = .claim && r.streamSeq = j.task.streamSeq && j.task.delivered < r.delivered

/-- The records that `Open` rebuilds from. -/
def readRecords : Option Record → M (Except Err (List Record))
  | none => return .ok []
  | some tail => perform (.readUpTo tail.seq)

def appendClaim : M (Except Err Journal) := do
  observe (.rebuilt j.task j.seq)
  let r ← j.append .claim .claim
  match r.1 with
  | .error e => return .error e
  | .ok _ => return .ok r.2

/-- `Open`, with the rebuilt handle. -/
def openRebuilt : M (Except Err Journal) :=
  if j.committed.isSome then return .ok { j with done := true }
  else if j.supersededDelivery then return .error .fenced
  else j.appendClaim

/-- `Open`, after its read of the tail. -/
def openAt (task : Task) (tail : Option Record) : M (Except Err Journal) := do
  if tail.any fun r => task.iteration < r.iteration then return .error .stale
  else
    match ← readRecords tail with
    | .error e => return .error e
    | .ok records => openRebuilt { rebuild task records with seq := tailSeq tail }

def commitFound : Option (Commit × ℕ) :=
  j.committed.map fun c => (c, j.committedSeq)

/-- `Open`. -/
def «open» (task : Task) : M (Except Err Journal) := do
  match ← perform .readTail with
  | .error e => return .error e
  | .ok tail => do
    let r ← openAt task tail
    observe (.opened task (tailSeq tail) (r.map commitFound))
    return r

/-! ## Operations -/

/-- `Append`. -/
def appendRecord (type : RecordType) (data : Body) : M (Except Err ℕ × Journal) :=
  if type = .claim ∨ type = .commit then
    .fail (.panic "journal.Append: claim and commit are written by Open and Commit")
  else j.append type data

def pause (name : String) (durationMs : ℤ) : M (Except Err ℕ × Journal) :=
  j.append .pause (.pause name durationMs)

def inputPlaced (requestID : String) : Bool :=
  j.placed.any (·.requestID = requestID)

def placeInput (p : InputPlaced) : M (Except Err ℕ × Journal) := do
  if j.inputPlaced p.requestID then
    .fail (.panic ("journal.PlaceInput: " ++ p.requestID ++ " is already placed"))
  else do
    let r ← j.append .inputPlaced (.inputPlaced p)
    match r.1 with
    | .error _ => return r
    | .ok seq => return (.ok seq, { r.2 with placed := r.2.placed ++ [p] })

def commit (c : Commit) : M (Except Err ℕ × Journal) := do
  let r ← j.append .commit (.commit c)
  match r.1 with
  | .error _ => return r
  | .ok seq =>
    return (.ok seq, { r.2 with done := true, committed := some c, committedSeq := seq })

/-! ## Tools -/

/-- The loop of `nextToolPosition`, with the rounds that are left. -/
def skipHeld (held : List ℕ) : ℕ → ℕ → ℕ
  | 0, position => position
  | n + 1, position => if held.contains position then skipHeld held n (position + 1) else position

def nextToolPosition : ℕ :=
  skipHeld j.heldPositions j.heldPositions.length j.toolCalls

/-- The idempotency key of a call. -/
def toolKey (position : ℕ) : String :=
  j.task.runID ++ "." ++ j.task.stepID ++ "." ++ toString j.task.iteration ++ "." ++
    toString position

def priorUnsafeIntent (call : ToolCall) : Option (ToolIntent × Record) :=
  j.records.findSome? fun r =>
    if j.priorAttempt r ∧ r.seq ∉ j.honoured then
      r.intent?.bind fun intent =>
        if intent.replay = .notSafe ∧ sameCall intent.toToolCall call then some (intent, r)
        else none
    else none

/-- The newest one at the position. -/
def recordedToolIntent (position : ℕ) : Option (ToolIntent × Record) :=
  j.records.reverse.findSome? fun r =>
    if j.priorAttempt r then none
    else r.intent?.bind fun intent =>
      if intent.call = position then some (intent, r) else none

/-- The newest one behind the intent. -/
def recordedToolResult (position intentSeq : ℕ) : Option ToolResult :=
  j.records.reverse.findSome? fun r =>
    if r.seq ≤ intentSeq then none
    else r.result?.bind fun result => if result.call = position then some result else none

def entryData (r : Record) : Raw :=
  match r.data with
  | .raw data => data
  | _ => .nil

def partialOutput (intent : Record) : Raw :=
  let entries := j.records.filter fun r =>
    r.type = .entry && intent.seq < r.seq && r.sameClaim intent.taskOf
  if entries.isEmpty then .nil
  else
    match entries.mapM fun r => (entryData r).marshal with
    | some items => .doc (.arr items)
    | none => .nil

def interruptedResult (call : ToolCall) (partialOutput : Raw) : ToolResult where
  call := call.call
  key := call.key
  error := "interrupted"
  interrupted := true
  partialOutput := partialOutput

def appendToolResult (result : ToolResult) : M (Except Err ToolResult × Journal) := do
  let r ← j.append .toolResult (.toolResult result)
  match r.1 with
  | .error e => return (.error e, r.2)
  | .ok _ => return (.ok result, r.2)

/-- What a tool function or a model request returns. -/
structure Reply where
  output : Raw := .nil
  error : Option String := none

abbrev ToolFunc := ToolCall → Journal → M (Reply × Journal)

/-- Is the output neither empty nor a document? -/
def notJSON : Raw → Bool
  | .text _ => true
  | _ => false

def runTool (call : ToolCall) (replay : Replay) (recorded : Option Replay) (fn : ToolFunc) :
    M (Except Err ToolResult × Journal) := do
  observe (.started j.task call replay recorded)
  let r ← fn call j
  if notJSON r.1.output then return (.error .notJSON, r.2)
  else (r.2.appendToolResult
    { call := call.call, key := call.key, output := r.1.output, error := r.1.error.getD "" })

def honourPrior (intent : ToolIntent) (record : Record) : M (Except Err ToolResult × Journal) := do
  let j := { j with honoured := record.seq :: j.honoured }
  match j.recordedToolResult intent.call record.seq with
  | some result => return (.ok result, j)
  | none => j.appendToolResult (interruptedResult intent.toToolCall (j.partialOutput record))

variable (call : ToolCall) (replay : Replay) (fn : ToolFunc)

def freshTool : M (Except Err ToolResult × Journal) := do
  if call.input.marshal.isNone then return (.error .marshal, j)
  else do
    let r ← j.append .toolIntent (.toolIntent { call with replay := replay })
    match r.1 with
    | .error e => return (.error e, r.2)
    | .ok _ =>
      let j := { r.2 with toolCalls := call.call + 1 }
      j.runTool call replay none fn

/-- `Tool`, for a call that this attempt has recorded. -/
def replayTool (intent : ToolIntent) (recorded : Record) : M (Except Err ToolResult × Journal) := do
  if !sameCall intent.toToolCall call then return (.error .replayMismatch, j)
  else
    let j := { j with toolCalls := call.call + 1 }
    match j.recordedToolResult call.call recorded.seq with
    | some result => return (.ok result, j)
    | none =>
      if intent.replay = .safe ∧ replay = .safe then
        j.runTool call replay (some intent.replay) fn
      else (j.appendToolResult (interruptedResult intent.toToolCall (j.partialOutput recorded)))

def locate (call : ToolCall) : ToolCall :=
  { call with call := j.nextToolPosition, key := j.toolKey j.nextToolPosition }

/-- `Tool`, for a call that has its position. -/
def toolAt : M (Except Err ToolResult × Journal) :=
  match j.priorUnsafeIntent call with
  | some prior => j.honourPrior prior.1 prior.2
  | none =>
    match j.recordedToolIntent call.call with
    | none => j.freshTool call replay fn
    | some recorded => j.replayTool call replay fn recorded.1 recorded.2

def tool : M (Except Err ToolResult × Journal) :=
  if callsMax ≤ j.nextToolPosition then return (.error .tooManyCalls, j)
  else j.toolAt (j.locate call) replay fn

def recordedModelResponse (position : ℕ) : Option Raw :=
  j.records.findSome? fun r =>
    if j.priorAttempt r then none
    else
      match r.type, r.data with
      | .modelResponse, .modelResponse call output =>
        if call = position then some output else none
      | _, _ => none

/-- The tail of an empty journal is of sequence and iteration zero. -/
def resync : M (Except Err Unit × Journal) := do
  if j.fenced then return (.error .fenced, j)
  else
    match ← perform .readTail with
    | .error e => return (.error e, j)
    | .ok tail =>
      if tailSeq tail = j.seq ∨ tail.elim 0 (·.iteration) < j.task.iteration then
        return (.ok (), j)
      else if tail.any (·.sameClaim j.task) then
        return (.ok (), { j with seq := tailSeq tail })
      else return (.error .fenced, { j with fenced := true })

def model (fn : Journal → M (Reply × Journal)) : M (Except Err Raw × Journal) := do
  if callsMax ≤ j.modelCalls then return (.error .tooManyCalls, j)
  else
    let call := j.modelCalls
    match j.recordedModelResponse call with
    | some output => return (.ok output, { j with modelCalls := j.modelCalls + 1 })
    | none => do
      let s ← j.resync
      match s.1 with
      | .error e => return (.error e, s.2)
      | .ok _ => do
        let r ← fn s.2
        match r.1.error with
        | some _ => return (.error .modelFailed, r.2)
        | none =>
          if r.1.output.marshal.isNone then return (.error .marshal, r.2)
          else do
            let a ← r.2.append .modelResponse (.modelResponse call r.1.output)
            match a.1 with
            | .error e => return (.error e, a.2)
            | .ok _ =>
              return (.ok r.1.output, { a.2 with modelCalls := a.2.modelCalls + 1 })

end Journal

/-! ## Handlers -/

/-- A handler of a task, or a function that it hands to the journal. -/
inductive Handler where
  | done (r : Journal.Reply)
  | append (type : RecordType) (data : Body) (k : Except Err ℕ → Handler)
  | pause (name : String) (durationMs : ℤ) (k : Except Err ℕ → Handler)
  | placeInput (p : InputPlaced) (k : Except Err ℕ → Handler)
  | tool (call : ToolCall) (replay : Replay) (fn : ToolCall → Handler)
      (k : Except Err ToolResult → Handler)
  | model (fn : Handler) (k : Except Err Raw → Handler)
  | commit (c : Commit) (k : Except Err ℕ → Handler)

def noteFailure {α : Type} (task : Task) : Except Err α → M Unit
  | .ok _ => return ()
  | .error _ => observe (.failed task)

def issue {α : Type} (j : Journal) (op : Operation) (p : M (Except Err α × Journal)) :
    M (Except Err α × Journal) := do
  observe (.issued j.task op)
  let r ← p
  noteFailure j.task r.1
  return r

namespace Handler

def run : Handler → Journal → M (Journal.Reply × Journal)
  | .done r, j => return (r, j)
  | .append type data k, j => do
    let r ← issue j (.append type data) (j.appendRecord type data)
    (k r.1).run r.2
  | .pause name durationMs k, j => do
    let r ← issue j (.pause name durationMs) (j.pause name durationMs)
    (k r.1).run r.2
  | .placeInput p k, j => do
    let r ← issue j (.placeInput p) (j.placeInput p)
    (k r.1).run r.2
  | .tool call replay fn k, j => do
    let r ← issue j (.tool call replay) (j.tool call replay fun call j => (fn call).run j)
    (k r.1).run r.2
  | .model fn k, j => do
    let r ← issue j .model (j.model fun j => fn.run j)
    (k r.1).run r.2
  | .commit c k, j => do
    let r ← issue j (.commit c) (j.commit c)
    (k r.1).run r.2

end Handler

end Dagnats.AgentJournal
