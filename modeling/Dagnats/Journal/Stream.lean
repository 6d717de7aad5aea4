import Dagnats.Interaction.Segments
import Dagnats.Journal.Handle

/-!
# The stream of a step journal

Any number of writers over one subject. A writer takes a delivery of a message
of the task stream, opens the journal for it, and hands it to a handler. The
deliveries of one message are counted, and share its iteration, its attempt and
its nonce.
-/

namespace Dagnats.AgentJournal

open Interaction

/-- The dispatches of a step: what the messages of the task stream say. -/
structure Dispatches where
  runID : String
  stepID : String
  iteration : ℕ → ℕ
  attempt : ℕ → ℕ
  nonce : ℕ → String

/-- One delivery of a message. -/
def Dispatches.task (d : Dispatches) (streamSeq delivered : ℕ) : Task where
  runID := d.runID
  stepID := d.stepID
  iteration := d.iteration streamSeq
  attempt := d.attempt streamSeq
  dispatchNonce := d.nonce streamSeq
  delivered := delivered
  streamSeq := streamSeq

/-- The log of the subject with the newest record first, how often each task
message was delivered, and what happened at the handles. -/
structure Stream where
  log : List Record
  deliveries : ℕ → ℕ
  trace : List Observation

namespace Stream

def empty : Stream := ⟨[], fun _ => 0, []⟩

variable (s : Stream)

def last : ℕ := tailSeq s.log.head?

def push (m : Message) : Stream :=
  { s with log := m.record (s.last + 1) :: s.log }

def find (s : Stream) (id : String) : Option Record :=
  s.log.find? (·.msgID = id)

/-- How the stream treats a call. -/
inductive Choice where
  | done | fail | lost
  /-- The expected sequence is wrong, or another append is in process. -/
  | reject

def publish (m : Message) : Choice → Option (Ack × Stream)
  | .reject => some (.wrongLastSequence, s)
  | .fail => some (.failed, s)
  | .done =>
    match s.find (m.record 0).msgID with
    | some r => some (.ok r.seq, s)
    | none =>
      if m.expected = s.last then some (.ok (s.last + 1), s.push m)
      else some (.wrongLastSequence, s)
  | .lost =>
    if (s.find (m.record 0).msgID).isNone ∧ m.expected = s.last then some (.failed, s.push m)
    else none

def readUpTo (seq : ℕ) : Except Err (List Record) :=
  let records := (s.log.filter (·.seq ≤ seq)).reverse
  if recordsMax < records.length then .error .transport else .ok records

def exec : (op : Call) → Choice → Option (Answer op × Stream)
  | .receive n => fun
      | .done =>
        if 0 < n then
          some (s.deliveries n + 1,
            { s with deliveries := Function.update s.deliveries n (s.deliveries n + 1) })
        else none
      | _ => none
  | .readTail => fun
      | .done => some (.ok s.log.head?, s)
      | .fail => some (.error .transport, s)
      | _ => none
  | .readUpTo seq => fun
      | .done => some (s.readUpTo seq, s)
      | .fail => some (.error .transport, s)
      | _ => none
  | .publish m => s.publish m
  | .observe o => fun
      | .done => some ((), { s with trace := o :: s.trace })
      | _ => none

end Stream

/-- What is done with a delivery. -/
structure Job where
  streamSeq : ℕ
  handler : Journal → Handler

def work (d : Dispatches) (job : Job) : M Unit := do
  let delivered : ℕ ← perform (.receive job.streamSeq)
  let r ← Journal.open (d.task job.streamSeq delivered)
  match r with
  | .error _ => return ()
  | .ok j =>
    if j.done then return ()
    else do
      let _ ← (job.handler j).run j
      return ()

/-- Any number of workers, which come and go. -/
def system (d : Dispatches) : System Call Answer Err Stream where
  Choice := Stream.Choice
  exec := Stream.exec
  Job := Job
  start _ job := some (work d job)
  Move := Empty
  move _ m := nomatch m

end Dagnats.AgentJournal
