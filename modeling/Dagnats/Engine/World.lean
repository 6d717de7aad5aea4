import Dagnats.Interaction.Program
import Dagnats.Interaction.Semaphore
import Dagnats.Dag.Validate

/-!
# The outside world of the engine

The calls of the engine to JetStream (buckets of runs, definitions, locks, slots
and waiters, the history, task and timer streams) and to a few services, and
their meaning.

The world is one append-only log of all that the server has accepted, newest
entry first. The position of an entry is the revision of a run written there and
the nonce minted there. A read of a run answers its last write; `update` is a
compare-and-set on the revision, as are the writes of a singleton lock. Taking
and giving back a slot are single calls (`Engine.Concurrency` is the protocol
behind them). The server may refuse a call, lose the acknowledgement of one it
accepts, and answer the unmodelled services as it likes.
-/

namespace Dagnats

open Interaction

inductive Err where
  /-- `ErrSnapshotConflict`. -/
  | conflict
  /-- `ErrRunNotFound`. -/
  | runNotFound
  | defNotFound
  /-- `errPinnedDefMissing`. -/
  | pinnedDefMissing
  /-- `errTerminalRunDefGone`. -/
  | terminalRunDefGone
  /-- `errRunFinalized`. -/
  | runFinalized
  /-- `errStartPayloadHandled`. -/
  | startPayloadHandled
  /-- `errAdmissionPermanent`. -/
  | admissionPermanent
  /-- A call that the server refused or whose acknowledgement was lost. -/
  | unavailable
  | other (msg : String)
  /-- A Go panic; `dispatchEvent` recovers it. -/
  | panic (msg : String)
  deriving DecidableEq

def Err.isValue : Err → Bool
  | .panic _ => false
  | _ => true

/-! ## Calls -/

/-- The places of the source that write a run. -/
inductive Site where
  | initial | chainInitial | childInitial
  | finalize | releaseDebt | releaseDone | releaseRetry
  | queueAdvance
  | enqueue | markSent | settleInputs
  | stepCompleted | stepContinue | stepStarted | stepQueued | stepRetry
  | onFailure | mapOnFailure | compensateStart | compensateNext
  | waitTimeout | childCompleted | approvalGranted
  | mapInstance | mapCompleted | plannerEmpty | plannerFragment
  | inputQueued | wake
  deriving DecidableEq

/-- `EventWaiter`: an event that wakes a step, or cancels the run. -/
structure Waiter where
  runID : String
  stepID : String
  eventType : String
  match_ : ResolvedMatch
  cancels : Bool

/-- The value of a lock; `unsaved` is not part of it and notes for the log that the
claimer took it over from a run of which it found no snapshot. -/
structure SingletonLock where
  runID : String
  displaced : String := ""
  unsaved : Bool := false

/-- A member set of the concurrency manager: the slots of a workflow or those of
a task type. -/
inductive SlotKey where
  | run (workflowID : String)
  | task (task : String)
  deriving DecidableEq

def taskSlotHolder (runID stepID : String) : String :=
  runID ++ "/" ++ stepID

/-- Messages without an answer. The empty task of `releaseTask` stands for every
task type. -/
inductive Notice where
  | deadLetter (runID stepID reason : String)
  | runEvent (runID : String) (status : RunStatus)
  | createActive (runID : String)
  | deleteActive (runID : String)
  | releaseRun (workflowID runID : String)
  | releaseTask (task runID stepID : String)
  | bindWorker (runID workerID : String)
  | unbindWorker (runID : String)
  | signalCancel (runID : String)
  | storeToken (runID stepID : String)
  | deleteTokens (runID : String)
  | response (runID stepID : String)
  | settleInputs (runID stepID : String)

/-- The holder whose slot of this kind the message gives back. -/
def Notice.frees : Notice → SlotKey → Option String
  | .releaseRun workflowID runID, .run workflowID' =>
    if workflowID = workflowID' then some runID else none
  | .releaseTask task runID stepID, .task task' =>
    if task = task' ∨ task = "" then some (taskSlotHolder runID stepID) else none
  | _, _ => none

/-- A key of the definition bucket: the pointer to the latest definition of
that name, or a version pinned by its hash. -/
inductive DefKey where
  | latest (name : String)
  | version (name hash : String)
  deriving DecidableEq

/-- Why a nonce is minted. -/
inductive Origin where
  /-- `enqueueReady` dispatches a step of this type. -/
  | enqueue (type : StepType)
  /-- The next iteration of an agent loop. -/
  | iteration
  | retry
  /-- An on-failure or compensation step is put in the queue. -/
  | requeue
  | mapInstance
  /-- A task whose dispatch carries no nonce. -/
  | unstamped
  deriving DecidableEq

/-- The dispatch a nonce is minted for, with the counters of the step at that
time. The source mints a random string; the label only tells nonces apart. -/
structure Mint where
  runID : String
  stepID : String
  origin : Origin
  attempts : ℕ
  iterations : ℕ

inductive Call where
  | now
  | newNonce (m : Mint)
  | newID
  | load (runID : String)
  | put (site : Site) (run : WorkflowRun)
  | create (site : Site) (run : WorkflowRun)
  | update (site : Site) (run : WorkflowRun) (rev : ℕ)
  | listRuns
  | getDef (key : DefKey)
  | createDef (key : DefKey) (d : WorkflowDef)
  | task (t : TaskPayload)
  /-- A timer; `dispatch` names the dispatch it is sent for and is not part of
  the message. -/
  | timer (t : TimerMessage) (dispatch : Option ℕ)
  | event (e : Event)
  | waiter (w : Waiter) (dispatch : Option ℕ)
  | removeWaiters (runID : String)
  | taskQueued (runID stepID : String) (nonce : Option ℕ)
  | createLock (key : String) (lock : SingletonLock)
  | getLock (key : String)
  | updateLock (key : String) (lock : SingletonLock) (rev : ℕ)
  /-- A release; `runID` names the run that gives the lock back and is not part
  of the request. -/
  | deleteLock (key runID : String) (rev : ℕ)
  /-- A question to the rate limiter; `dispatch` names the dispatch it is asked
  for and is not part of the request. -/
  | allow (task runID stepID : String) (dispatch : Option ℕ)
  | acquire (key : SlotKey) (holder : String) (limit : ℤ)
  | getWorker (runID : String)
  | inputsQueued (runID stepID : String)
  | notify (n : Notice)

/-- What a call yields when it succeeds. -/
def Value : Call → Type
  | .now => Time
  | .newNonce _ => ℕ
  | .newID => String
  | .load _ => WorkflowRun
  | .put .. => ℕ
  | .create .. => Option ℕ
  | .update .. => ℕ
  | .listRuns => List WorkflowRun
  | .getDef _ => WorkflowDef
  | .createDef .. => Unit
  | .task _ => Unit
  | .timer .. => Unit
  | .event _ => Unit
  | .waiter .. => Unit
  | .removeWaiters _ => Unit
  | .taskQueued .. => Bool
  | .createLock .. => Bool
  | .getLock _ => Option (ℕ × SingletonLock × Time)
  | .updateLock .. => Bool
  | .deleteLock .. => Bool
  | .allow .. => Option ℤ
  | .acquire .. => Bool
  | .getWorker _ => String
  | .inputsQueued .. => Bool
  | .notify _ => Unit

def Answer (op : Call) : Type := Except Err (Value op)

/-- The engine's code: a program over these calls. -/
abbrev M := Prog Call Answer Err

/-- Make a call and hand its error on. -/
def request (op : Call) : M (Value op) :=
  .call op fun
    | .ok v => .pure v
    | .error e => .fail e

def throw {α : Type} (e : Err) : M α := .fail e

def panic {α : Type} (msg : String) : M α := .fail (.panic msg)

/-- Go's `err := f()`: the error becomes a value, a panic passes through. -/
def outcome {α : Type} (p : M α) : M (Except Err α) := p.attempt Err.isValue

/-- A call whose error is logged and dropped. -/
def ignoring {α : Type} (p : M α) : M Unit := do
  let _ ← outcome p
  return ()

/-! ## The log -/

inductive Entry where
  /-- A write of a run; `base` is the revision it was compared with. -/
  | snapshot (site : Site) (base : Option ℕ) (run : WorkflowRun)
  | minted (m : Mint)
  | mintedID (s : String)
  | definition (key : DefKey) (d : WorkflowDef)
  | task (t : TaskPayload)
  /-- A timer, with the instant it was published. -/
  | timer (t : TimerMessage) (dispatch : Option ℕ) (at_ : Time)
  | event (e : Event)
  | waiter (w : Waiter) (dispatch : Option ℕ)
  | waitersRemoved (runID : String)
  /-- A singleton lock is taken or moved, with the instant. -/
  | lock (key : String) (lock : SingletonLock) (at_ : Time)
  /-- A singleton lock is deleted by a release of this run. -/
  | unlocked (key runID : String)
  | acquired (key : SlotKey) (holder : String)
  /-- A token of the rate limiter is taken for this dispatch of a step. -/
  | token (task runID stepID : String) (dispatch : Option ℕ)
  | notice (n : Notice)
  /-- A message that was refused. It has no effect. -/
  | refused (n : Notice)

structure World where
  log : List Entry := []
  now : Time := 0

namespace World

variable (w : World)

def push (e : Entry) : World :=
  { w with log := e :: w.log }

/-- The last write of a run, with its revision. -/
def latestIn (runID : String) : List Entry → Option (ℕ × WorkflowRun)
  | [] => none
  | .snapshot _ _ run :: older =>
    if run.runID = runID then some (older.length, run)
    else latestIn runID older
  | _ :: older => latestIn runID older

def latest (runID : String) : Option (ℕ × WorkflowRun) :=
  latestIn runID w.log

def entryAt (i : ℕ) : Option Entry :=
  w.log.reverse[i]?

/-- A run as a reader receives it: the copy remembers its revision. -/
def received (rev : ℕ) (run : WorkflowRun) : WorkflowRun :=
  { run with revision := some rev, recording := none }

def runsAt (positions : List ℕ) : Option (List WorkflowRun) :=
  positions.mapM fun i =>
    match w.entryAt i with
    | some (.snapshot _ _ run) => some (received i run)
    | _ => none

def hasTask (runID stepID : String) (nonce : Option ℕ) : Bool :=
  w.log.any fun
    | .task t => t.runID = runID ∧ t.stepID = stepID ∧ t.dispatchNonce = nonce
    | _ => false

/-- The lock stored under a key, with its revision and the instant it was
written. -/
def lockIn (key : String) : List Entry → Option (ℕ × SingletonLock × Time)
  | [] => none
  | .lock key' lock at_ :: older =>
    if key' = key then some (older.length, lock, at_) else lockIn key older
  | .unlocked key' _ :: older =>
    if key' = key then none else lockIn key older
  | _ :: older => lockIn key older

def slotsIn (key : SlotKey) : List Entry → List String
  | [] => []
  | .acquired key' holder :: older =>
    if key' = key then slotsIn key older ++ [holder] else slotsIn key older
  | .notice n :: older =>
    match n.frees key with
    | some holder => Semaphore.release holder (slotsIn key older)
    | none => slotsIn key older
  | _ :: older => slotsIn key older

def hasMintedID (s : String) : Bool :=
  w.log.any fun
    | .mintedID s' => s = s'
    | _ => false

end World

/-! ## The meaning of the calls -/

/-- What the outside decides about one call. -/
inductive Choice where
  /-- The call takes effect and is answered. -/
  | done
  /-- The call is refused. -/
  | fail
  /-- The call takes effect and the answer is lost. -/
  | lost
  | absent
  | entry (i : ℕ)
  | entries (positions : List ℕ)
  | fresh (s : String)
  | flag (b : Bool)
  | wait (ms : Option ℤ)
  | worker (s : String)
  /-- The call is refused for good: the key is invalid. -/
  | permanent
  deriving DecidableEq

namespace World

/-- A write that is accepted, refused, or accepted without an answer. -/
def commit {α : Type} (w : World) (e : Entry) (v : α) : Choice → Option (Except Err α × World)
  | .done => some (.ok v, w.push e)
  | .lost => some (.error .unavailable, w.push e)
  | .fail => some (.error .unavailable, w)
  | _ => none

variable (w : World)

/-- A yes-or-no question to a service. -/
def question : Choice → Option (Except Err Bool × World)
  | .flag b => some (.ok b, w)
  | .fail => some (.error .unavailable, w)
  | _ => none

/-- The copy of a run that a write persists. -/
def persisted (run : WorkflowRun) : WorkflowRun :=
  { run with revision := none }

/-- The clock is always readable. -/
def tell {α : Type} (w : World) (v : α) : Choice → Option (Except Err α × World)
  | .done => some (.ok v, w)
  | _ => none

def mint (m : Mint) : Choice → Option (Except Err ℕ × World)
  | .done => some (.ok w.log.length, w.push (.minted m))
  | _ => none

/-- A run identifier that was never used. -/
def mintID : Choice → Option (Except Err String × World)
  | .fresh s =>
    if s ≠ "" ∧ w.hasMintedID s = false ∧ (w.latest s).isNone then
      some (.ok s, w.push (.mintedID s))
    else none
  | _ => none

def read (runID : String) : Choice → Option (Except Err WorkflowRun × World)
  | .done =>
    match w.latest runID with
    | some (rev, run) => some (.ok (received rev run), w)
    | none => some (.error .runNotFound, w)
  | .fail => some (.error .unavailable, w)
  | _ => none

/-- The KV `Create`: `none` where the key exists. -/
def writeNew (site : Site) (run : WorkflowRun) (c : Choice) :
    Option (Except Err (Option ℕ) × World) :=
  match w.latest run.runID with
  | none =>
    w.commit (.snapshot site none (persisted run)) (some w.log.length) c
  | some _ =>
    match c with
    | .done => some (.ok none, w)
    | .fail => some (.error .unavailable, w)
    | _ => none

/-- The KV `Update`: a compare-and-set on the revision. -/
def compareAndSet (site : Site) (run : WorkflowRun) (rev : ℕ) (c : Choice) :
    Option (Except Err ℕ × World) :=
  if (w.latest run.runID).map (·.1) = some rev then
    w.commit (.snapshot site (some rev) (persisted run)) w.log.length c
  else
    match c with
    | .done => some (.error .conflict, w)
    | .fail => some (.error .unavailable, w)
    | _ => none

/-- Listing the runs reads each key at some moment. -/
def list : Choice → Option (Except Err (List WorkflowRun) × World)
  | .entries positions => (w.runsAt positions).map fun runs => (.ok runs, w)
  | .fail => some (.error .unavailable, w)
  | _ => none

def readDef (key : DefKey) : Choice → Option (Except Err WorkflowDef × World)
  | .entry i =>
    match w.entryAt i with
    | some (.definition key' d) =>
      if key = key' then some (.ok d, w) else none
    | _ => none
  | .absent => some (.error .defNotFound, w)
  | .fail => some (.error .unavailable, w)
  | _ => none

/-- A write that takes effect only where its condition holds: false where it does
not. -/
def conditional (condition : Bool) (e : Entry) (c : Choice) : Option (Except Err Bool × World) :=
  if condition then w.commit e true c
  else
    match c with
    | .done => some (.ok false, w)
    | .fail => some (.error .unavailable, w)
    | _ => none

/-- The KV `Create` of a lock; an invalid key is refused for good. -/
def claimLock (key : String) (lock : SingletonLock) (c : Choice) :
    Option (Except Err Bool × World) :=
  if c = .permanent then some (.error .admissionPermanent, w)
  else w.conditional (lockIn key w.log).isNone (.lock key lock w.now) c

def readLock (key : String) :
    Choice → Option (Except Err (Option (ℕ × SingletonLock × Time)) × World)
  | .done => some (.ok (lockIn key w.log), w)
  | .fail => some (.error .unavailable, w)
  | _ => none

/-- The KV `Update` and `Delete` of a lock, at a revision. -/
def moveLock (key : String) (e : Entry) (rev : ℕ) (c : Choice) : Option (Except Err Bool × World) :=
  w.conditional ((lockIn key w.log).map (·.1) = some rev) e c

/-- `AcquireRun` and `AcquireTask`. -/
def acquire (key : SlotKey) (holder : String) (limit : ℤ) (c : Choice) :
    Option (Except Err Bool × World) :=
  if holder ∈ slotsIn key w.log then
    match c with
    | .done => some (.ok true, w)
    | .fail => some (.error .unavailable, w)
    | _ => none
  else
    w.conditional ((slotsIn key w.log).length < limit) (.acquired key holder) c

/-- The rate limiter: how long to wait, or a token. -/
def allowance (e : Entry) : Choice → Option (Except Err (Option ℤ) × World)
  | .wait none => some (.ok none, w.push e)
  | .wait (some ms) => some (.ok (some ms), w)
  | .lost => some (.error .unavailable, w.push e)
  | .fail => some (.error .unavailable, w)
  | _ => none

/-- A message that is accepted, refused, or accepted without an answer. -/
def announce (n : Notice) : Choice → Option (Except Err Unit × World)
  | .done => some (.ok (), w.push (.notice n))
  | .lost => some (.error .unavailable, w.push (.notice n))
  | .fail => some (.error .unavailable, w.push (.refused n))
  | _ => none

def boundWorker : Choice → Option (Except Err String × World)
  | .worker s => some (.ok s, w)
  | .fail => some (.error .unavailable, w)
  | _ => none

def exec : (op : Call) → Choice → Option (Answer op × World)
  | .now => w.tell w.now
  | .newNonce m => w.mint m
  | .newID => w.mintID
  | .load runID => w.read runID
  | .put site run =>
    w.commit (.snapshot site none (persisted run)) w.log.length
  | .create site run => w.writeNew site run
  | .update site run rev => w.compareAndSet site run rev
  | .listRuns => w.list
  | .getDef key => w.readDef key
  | .createDef key d => w.commit (.definition key d) ()
  | .task t => w.commit (.task t) ()
  | .timer t dispatch => w.commit (.timer t dispatch w.now) ()
  | .event e => w.commit (.event e) ()
  | .waiter wt dispatch => w.commit (.waiter wt dispatch) ()
  | .removeWaiters runID => w.commit (.waitersRemoved runID) ()
  | .taskQueued runID stepID nonce => fun c =>
    -- The task stream cannot show a task that was never accepted.
    if c = .flag true ∧ w.hasTask runID stepID nonce = false then none
    else w.question c
  | .createLock key lock => w.claimLock key lock
  | .getLock key => w.readLock key
  | .updateLock key lock rev => w.moveLock key (.lock key lock w.now) rev
  | .deleteLock key runID rev => w.moveLock key (.unlocked key runID) rev
  | .allow task runID stepID dispatch =>
    w.allowance (.token task runID stepID dispatch)
  | .acquire key holder limit => w.acquire key holder limit
  | .getWorker _ => w.boundWorker
  | .inputsQueued .. => w.question
  | .notify n => w.announce n

end World

end Dagnats
