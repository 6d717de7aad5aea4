import Dagnats.Interaction.Delivery
import Dagnats.Engine.System

/-!
# The sleep timer

`sleeptimer.go` and `trigger/debounce.go`: a timer is a message of the stream
`SLEEP_TIMERS`. `handleTimerJS` answers its first delivery by a negative
acknowledgement with the delay, takes any later delivery for the end of the
delay, does what the message says, and acknowledges it: a timer of a step does
`fireTimer`, a debounce timer starts the run of a trigger whose window is over.

A delivered message always comes with its metadata here, as JetStream sends it;
the branch for a message without is kept.
-/

namespace Dagnats

open Interaction Delivery

/-- A message of the stream: a timer of a step, or that of a debounce window. -/
inductive SleepMessage where
  | step (tm : TimerMessage)
  | debounce (triggerID debounceKey : String) (durationMs : ℤ)

def SleepMessage.durationMs : SleepMessage → ℤ
  | .step tm => tm.durationMs
  | .debounce _ _ durationMs => durationMs

/-- What a key of a bucket holds. -/
inductive KeyValue (α : Type) where
  | absent
  | corrupt
  | value (a : α)

/-- The last event of the window and the timer that ends it. -/
structure DebounceEntry where
  lastEvent : Raw
  timerSeq : ℕ

/-- As far as a debounce timer reads it. -/
structure TriggerDef where
  id : String
  workflowID : String
  enabled : Bool
  subject : Bool
  debounce : Bool

inductive SleepCall where
  /-- Take the next delivery of the message. -/
  | receive
  | settle (s : Settlement)
  | engine (op : Call)
  | getWindow (key : String)
  | getTrigger (triggerID : String)
  | deleteWindow (key : String)

/-- A delivery shows its number and the position of the message in the stream. -/
def SleepAnswer : SleepCall → Type
  | .receive => Option (ℕ × ℕ)
  | .settle _ => Unit
  | .engine op => Answer op
  | .getWindow _ => Except Err (KeyValue DebounceEntry)
  | .getTrigger _ => Except Err (KeyValue TriggerDef)
  | .deleteWindow _ => Except Err Unit

abbrev SleepProg := Prog SleepCall SleepAnswer Err

/-- A program of the engine, run by the handler of a timer. -/
def onEngine {α : Type} : M α → SleepProg α
  | .pure a => .pure a
  | .fail e => .fail e
  | .call op k => .call (.engine op) fun r => onEngine (k r)

/-- The trigger still asks for runs. -/
def TriggerDef.live (d : TriggerDef) (triggerID : String) : Bool :=
  d.enabled && d.subject && d.debounce && d.id = triggerID && d.workflowID ≠ ""

def loadLiveTrigger (triggerID : String) : SleepProg (Option TriggerDef) :=
  .call (.getTrigger triggerID) fun
    | .ok (.value d) => .pure (if d.live triggerID then some d else none)
    | _ => .pure none

def publishSubjectFire (d : TriggerDef) (data : Raw) : M Unit := do
  let t ← now
  let runID ← request .newID
  publishEvent
    { type := .workflowStarted, runID := runID
      start := .trigger d.workflowID (.doc (.obj
        [("trigger", .str "subject"), ("source", .str d.id),
         ("workflow_id", .str d.workflowID), ("timestamp", .num (t : ℚ)),
         ("data", data.marshal.getD .null)])) }

/-- Remove the window; the error is logged. -/
def deleteWindow (key : String) : SleepProg Unit :=
  .call (.deleteWindow key) fun _ => .pure ()

def handleTimerFire (triggerID key : String) (timerSeq : ℕ) : SleepProg Unit :=
  if key = "" ∨ triggerID = "" then .pure ()
  else
    .call (.getWindow key) fun
      | .ok (.value entry) =>
        if entry.timerSeq ≠ timerSeq then .pure ()
        else do
          match ← loadLiveTrigger triggerID with
          | some d => do
            match ← onEngine (outcome (publishSubjectFire d entry.lastEvent)) with
            | .error _ => return ()
            | .ok _ => deleteWindow key
          | none => deleteWindow key
      | _ => .pure ()

/-- Go's product of a number of milliseconds and a millisecond: nanoseconds in
64 bits. -/
def goMilliseconds (ms : ℤ) : Duration :=
  (ms * millisecond).bmod (2 ^ 64)

/-- The delay that the first delivery asks for. -/
def timerDelay (durationMs : ℤ) : Duration :=
  if goMilliseconds durationMs ≤ 0 then millisecond else goMilliseconds durationMs

/-- A debounce timer fires only where a handler is wired. -/
structure SleepTimer where
  onDebounce : Bool

namespace SleepTimer

variable (st : SleepTimer)

/-- The switch of `handleTimerJS` over the action. -/
def fire (timerSeq : ℕ) : SleepMessage → SleepProg Unit
  | .step tm => onEngine (fireTimer tm)
  | .debounce triggerID key _ =>
    if st.onDebounce then handleTimerFire triggerID key timerSeq else .pure ()

/-- The answer to a delivery. `none` stands for missing metadata, and for a body that
does not decode. -/
def handleTimerJS : Option (ℕ × ℕ) → Option SleepMessage → SleepProg Settlement
  | none, _ => .pure (.nak 0)
  | some _, none => .pure .ack
  | some (numDelivered, timerSeq), some msg =>
    if numDelivered = 1 then .pure (.nak (timerDelay msg.durationMs))
    else (st.fire timerSeq msg).bind fun _ => .pure .ack

/-- One delivery from its start to the answer. -/
def consume (msg : SleepMessage) : SleepProg Unit :=
  .call .receive fun metadata =>
    (st.handleTimerJS metadata (some msg)).bind fun s => .call (.settle s) fun _ => .pure ()

end SleepTimer

/-- The message, the world and the buckets of the triggers; `acted` lists the
instants of the calls that were made on behalf of the timer's action. -/
structure SleepState where
  message : Message
  sequence : ℕ
  world : World
  windows : String → KeyValue DebounceEntry
  triggers : String → KeyValue TriggerDef
  acted : List Time

namespace SleepState

def now (s : SleepState) : Time :=
  s.world.now

def act (s : SleepState) : SleepState :=
  { s with acted := s.now :: s.acted }

def read {α : Type} (s : SleepState) (a : α) : Choice → Option (Except Err α × SleepState)
  | .done => some (.ok a, s.act)
  | .fail => some (.error .unavailable, s.act)
  | _ => none

def receive (s : SleepState) : Choice → Option (Option (ℕ × ℕ) × SleepState)
  | .done =>
    (s.message.deliver s.now).map fun m =>
      (some (m.delivered, s.sequence), { s with message := m })
  | _ => none

def settle (s : SleepState) (answer : Settlement) : Choice → Option (Unit × SleepState)
  | .done => some ((), { s with message := s.message.settle s.now answer })
  | .fail => some ((), s)
  | _ => none

def removeWindow (s : SleepState) (key : String) : Choice → Option (Except Err Unit × SleepState)
  | .done => some (.ok (), { s.act with
    windows := fun key' => if key' = key then .absent else s.windows key' })
  | .lost => some (.error .unavailable, { s.act with
    windows := fun key' => if key' = key then .absent else s.windows key' })
  | .fail => some (.error .unavailable, s.act)
  | _ => none

def exec (s : SleepState) : (op : SleepCall) → Choice → Option (SleepAnswer op × SleepState)
  | .receive => s.receive
  | .settle answer => s.settle answer
  | .engine op => fun c =>
    (s.world.exec op c).map fun r => (r.1, { s.act with world := r.2 })
  | .getWindow key => s.read (s.windows key)
  | .getTrigger triggerID => s.read (s.triggers triggerID)
  | .deleteWindow key => s.removeWindow key

end SleepState

/-- `AckWait` of the consumer. -/
def ackWait : Duration := 30 * second

inductive SleepMove where
  | tick (d : ℕ)
  /-- The consumer gives up waiting for an answer. -/
  | expire
  /-- Everyone else changes what the handler reads. -/
  | others (log : List Entry) (windows : String → KeyValue DebounceEntry)
      (triggers : String → KeyValue TriggerDef)

def SleepState.move (s : SleepState) : SleepMove → Option SleepState
  | .tick d => some { s with world := { s.world with now := s.world.now + d } }
  | .expire =>
    (s.message.expire ackWait s.now).map fun m => { s with message := m }
  | .others log windows triggers =>
    some { s with world := { s.world with log := log }
                  windows := windows, triggers := triggers }

/-- Any number of handlers, of engines that come and go, over one message. -/
def SleepTimer.system (st : SleepTimer) (msg : SleepMessage) :
    System SleepCall SleepAnswer Err SleepState where
  Choice := Choice
  exec := SleepState.exec
  Job := Unit
  start _ _ := some (st.consume msg)
  Move := SleepMove
  move := SleepState.move

end Dagnats
