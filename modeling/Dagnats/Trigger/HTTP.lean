import Dagnats.Dag.Types
import Dagnats.Interaction.Program
import Dagnats.Interaction.Table

/-!
# Requests of HTTP triggers

`internal/trigger/http.go`: a request starts a run and waits for its response.
Where the trigger names an idempotency header, the run is first claimed in a
bucket, under the trigger and the value of the header; a request that finds the
claim taken waits for that run and starts none.

The bucket and the history stream are two linearizable stores. Which keys the
bucket accepts is a matter of its client, so it is a parameter. The response and
its stored copy are left out: nothing here depends on them.
-/

namespace Dagnats.HTTPTrigger

open Interaction

/-- What a handler knows of its trigger, and the header of the request. -/
structure Request where
  triggerID : String
  /-- `IdempotencyHeader`, empty if the trigger has none. -/
  header : String
  /-- The handler has found the bucket. -/
  idkv : Bool
  /-- The value of the header, empty if the request has none. -/
  value : String
  deriving DecidableEq

variable (r : Request)

/-- The request names what it is a repetition of. -/
def Request.Keyed : Prop :=
  r.header ≠ "" ∧ r.value ≠ ""

instance (r : Request) : Decidable r.Keyed :=
  inferInstanceAs (Decidable (_ ∧ _))

def idempotencyKey (triggerID headerValue : String) : String :=
  "claim." ++ triggerID ++ "." ++ headerValue

/-- The id that `publishTrigger` makes from the header. -/
def idempotentMsgID (triggerID headerValue : String) : String :=
  "http-idem-" ++ triggerID ++ "-" ++ headerValue

/-- The key of the claim. -/
def Request.key : String :=
  idempotencyKey r.triggerID r.value

/-- `Nats-Msg-Id` of a start. `NATSMsgID` is built from the random id of the run. -/
inductive MsgID where
  | event (runID : ℕ)
  | header (text : String)
  deriving DecidableEq

def Request.msgID (runID : ℕ) : MsgID :=
  if r.Keyed then .header (idempotentMsgID r.triggerID r.value) else .event runID

/-- A request has been given a run. -/
structure Resolved where
  request : Request
  runID : ℕ
  replay : Bool
  deriving DecidableEq

inductive Call where
  /-- `runid.New`. -/
  | newRunID (r : Request)
  /-- No answer is an error as well as a key without an entry. -/
  | get (key : String)
  | create (key : String) (runID : ℕ)
  | subscribeResponse (runID : ℕ)
  | startFailureObserver (runID : ℕ)
  /-- `JSPublish` of the start of the run. -/
  | publish (r : Request) (runID : ℕ)
  /-- Notes for the history: a run was found, and the request that was to start it
  has been answered. -/
  | resolved (x : Resolved)
  | answered (runID : ℕ)

def Answer : Call → Type
  | .newRunID _ => ℕ
  | .get _ => Option ℕ
  | .create .. | .subscribeResponse _ | .startFailureObserver _ | .publish .. => Bool
  | .resolved _ | .answered _ => Unit

abbrev M := Prog Call Answer Empty

def perform (op : Call) : M (Answer op) :=
  Prog.perform op

def resolveIdempotentRunID (newRunID : ℕ) : M (ℕ × Bool) :=
  if r.idkv = false ∨ r.header = "" ∨ r.value = "" then return (newRunID, false)
  else do
    let entry : Option ℕ ← perform (.get r.key)
    match entry with
    | some runID => return (runID, true)
    | none => do
      let created : Bool ← perform (.create r.key newRunID)
      match created with
      | true => return (newRunID, false)
      | false => do
        -- Another request was faster, or the bucket is out of order.
        let entry : Option ℕ ← perform (.get r.key)
        match entry with
        | some runID => return (runID, true)
        | none => return (newRunID, false)

/-- Up to the wait. -/
def dispatchAndAwait (runID : ℕ) (replay : Bool) : M Unit := do
  let subscribed : Bool ← perform (.subscribeResponse runID)
  match subscribed with
  | false => return ()
  | true => do
    let observing : Bool ← perform (.startFailureObserver runID)
    match observing, replay with
    | true, false => do let _ ← perform (.publish r runID); return ()
    | _, _ => return ()

/-- Of a request that is well formed. -/
def serveHTTP : M Unit := do
  let newRunID : ℕ ← perform (.newRunID r)
  let (runID, replay) ← resolveIdempotentRunID r newRunID
  let _ ← perform (.resolved ⟨r, runID, replay⟩)
  dispatchAndAwait r runID replay
  match replay with
  | true => return ()
  | false => do let _ ← perform (.answered runID); return ()

/-- How the stores treat calls at the moment. -/
inductive Fault where
  | none
  /-- Calls fail. -/
  | refused
  /-- Calls take effect, and their answers are lost. -/
  | lost
  deriving DecidableEq

/-- A stored start. -/
structure Start where
  request : Request
  runID : ℕ
  time : Time

structure State where
  now : Time
  fault : Fault
  /-- For which request the id of a run was made. -/
  owner : Table ℕ Request
  claims : Table String ℕ
  starts : List Start
  resolved : List Resolved
  /-- The runs whose requests, not being replays, have been answered. -/
  answered : List ℕ

namespace State

def empty : State := ⟨0, .none, Table.empty, Table.empty, [], [], []⟩

/-- `Duplicates` of the history stream. -/
def duplicates : Duration := 5 * second

/-- The stream stores a start, unless it has seen its id a short while ago. -/
def store (s : State) (r : Request) (runID : ℕ) : State :=
  if s.starts.any fun m =>
      decide (m.request.msgID m.runID = r.msgID runID ∧ s.now - m.time ≤ duplicates) then s
  else { s with starts := ⟨r, runID, s.now⟩ :: s.starts }

variable (keyValid : String → Bool)

def exec (s : State) : (op : Call) → ℕ → Option (Answer op × State)
  | .newRunID r, n =>
    if s.owner.find? n = none then some (n, { s with owner := s.owner.set n r }) else none
  | .get key, _ =>
    some (if s.fault = .none ∧ keyValid key = true then s.claims.find? key else none, s)
  | .create key runID, _ =>
    if s.fault ≠ .refused ∧ keyValid key = true ∧ s.claims.find? key = none then
      some (decide (s.fault = .none), { s with claims := s.claims.set key runID })
    else some (false, s)
  | .subscribeResponse _, _ => some (decide (s.fault = .none), s)
  | .startFailureObserver _, _ => some (decide (s.fault = .none), s)
  | .publish r runID, _ =>
    some (decide (s.fault = .none), if s.fault = .refused then s else s.store r runID)
  | .resolved x, _ => some ((), { s with resolved := x :: s.resolved })
  | .answered runID, _ => some ((), { s with answered := runID :: s.answered })

end State

inductive Move where
  | fault (f : Fault)
  | wait (d : ℕ)
  /-- The claim has reached the age that the bucket allows. -/
  | expire (key : String)

def State.move (s : State) : Move → State
  | .fault f => { s with fault := f }
  | .wait d => { s with now := s.now + d }
  | .expire key => { s with claims := ⟨s.claims.entries.filter fun e => e.1 ≠ key⟩ }

/-- Any number of requests to any number of triggers. -/
def system (keyValid : String → Bool) : System Call Answer Empty State where
  Choice := ℕ
  exec := State.exec keyValid
  Job := Request
  start _ r := some (serveHTTP r)
  Move := Move
  move s m := some (s.move m)

end Dagnats.HTTPTrigger
