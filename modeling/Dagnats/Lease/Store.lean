import Dagnats.Dag.Types
import Dagnats.Interaction.Program

/-!
# Leases

`internal/lease`: a lease is the one message that the stream of the bucket keeps
for a key, and its sequence is the fence of the holder. A release or an expiry
puts a marker in its place, which goes away after a while, so a key may again
have no message; but the sequences of the stream never come back.

Every write expects a sequence to be the last of its key: an acquisition the one
it has just read, a renewal and a release the one that their caller presents.

A stored record is always well formed here, and a server that has no bucket is a
read that fails.
-/

namespace Dagnats.Leases

open Interaction

/-- What is stored. -/
structure Record where
  holder : String
  acquiredAt : Time
  ttlMs : ℤ

structure Lease where
  key : String
  holder : String
  revision : ℕ
  acquiredAt : Time
  expiresAt : Time
  ttl : Duration

/-- The last message of a key: a lease, or a marker of its end. -/
structure Message where
  seq : ℕ
  time : Time
  /-- Nothing behind a marker. -/
  record : Option Record

structure Current where
  lease : Option Lease := none
  revision : ℕ := 0

inductive Err where
  | invalid (field : String)
  /-- `ErrLost`: nobody holds it, another one does, or the write came too late. -/
  | notHeld | heldBy (holder : String) | lostRevision
  | transport
  | unsettled

def keyLengthMax : ℕ := 128

def holderLengthMax : ℕ := 128

def ttlMin : Duration := second

def ttlMax : Duration := 10 * 60 * second

def isTokenChar (c : Char) : Bool :=
  ('a' ≤ c && c ≤ 'z') || ('A' ≤ c && c ≤ 'Z') || ('0' ≤ c && c ≤ '9') || c = '_' || c = '-'

def validateToken (field s : String) (lengthMax : ℕ) : Except Err Unit :=
  if s = "" ∨ lengthMax < s.utf8ByteSize ∨ ¬s.toList.all isTokenChar then
    .error (.invalid field)
  else .ok ()

def validateTTL (ttl : Duration) : Except Err Unit :=
  if ttl < ttlMin ∨ ttlMax < ttl ∨ ttl.tmod second ≠ 0 then .error (.invalid "ttl_ms")
  else .ok ()

def validateFence (key holder : String) (revision : ℕ) : Except Err Unit := do
  validateToken "key" key keyLengthMax
  validateToken "holder" holder holderLengthMax
  if revision = 0 then .error (.invalid "revision") else .ok ()

/-- What a write stores: a lease as acquired or as renewed, or the marker of a
release. The marker does not say who released the lease; here it is kept for the
history. -/
inductive Content where
  | acquired (record : Record)
  | renewed (record : Record)
  | released (holder : String)

def Content.record : Content → Option Record
  | .acquired record | .renewed record => some record
  | .released _ => none

/-- On whose behalf something is written. -/
def Content.holder : Content → String
  | .acquired record | .renewed record => record.holder
  | .released holder => holder

/-- A write and the sequence it expects. -/
structure Write where
  key : String
  content : Content
  expect : ℕ

inductive Call where
  | now
  | getLast (key : String)
  | publish (w : Write)

inductive Ack where
  | ok (seq : ℕ)
  | wrongLastSequence
  | failed

def Answer : Call → Type
  | .now => Time
  | .getLast _ => Except Err (Option Message)
  | .publish _ => Ack

abbrev M := Prog Call Answer Err

def perform (op : Call) : M (Answer op) :=
  Prog.perform op

def demand (r : Except Err Unit) : M Unit :=
  match r with
  | .ok () => .pure ()
  | .error e => .fail e

def Message.current (msg : Message) (key : String) : Current where
  revision := msg.seq
  lease := msg.record.map fun rec =>
    { key := key, holder := rec.holder, revision := msg.seq, acquiredAt := rec.acquiredAt
      expiresAt := msg.time + rec.ttlMs * millisecond, ttl := rec.ttlMs * millisecond }

def read (key : String) : M Current := do
  let r ← perform (.getLast key)
  match r with
  | .error e => .fail e
  | .ok none => return {}
  | .ok (some msg) => return msg.current key

/-- `write`, and `purge` for the marker. -/
def write (w : Write) : M Ack :=
  perform (.publish w)

def milliseconds (d : Duration) : ℤ :=
  d.tdiv millisecond

section

variable (key holder : String)

/-- In one attempt of `Acquire`; `none` is a write that came too late. -/
def create (ttl : Duration) (expect : ℕ) : M (Option Lease) := do
  let now : Time ← perform .now
  let ack : Ack ← write
    { key := key, expect := expect
      content := .acquired { holder := holder, acquiredAt := now, ttlMs := milliseconds ttl } }
  match ack with
  | .ok seq =>
    return (some { key := key, holder := holder, revision := seq, acquiredAt := now
                   expiresAt := now + ttl, ttl := ttl })
  | .wrongLastSequence => return none
  | .failed => .fail .transport

def acquireAttemptsMax : ℕ := 3

def acquireLoop (key holder : String) (ttl : Duration) : ℕ → M (Lease × Bool)
  | 0 => .fail .unsettled
  | attempts + 1 => do
    let cur ← read key
    match cur.lease with
    | some lease => return (lease, decide (lease.holder = holder))
    | none => do
      match ← create key holder ttl cur.revision with
      | some lease => return (lease, true)
      | none => acquireLoop key holder ttl attempts

def acquire (ttl : Duration) : M (Lease × Bool) := do
  demand (validateToken "key" key keyLengthMax)
  demand (validateToken "holder" holder holderLengthMax)
  demand (validateTTL ttl)
  acquireLoop key holder ttl acquireAttemptsMax

def checkHolder (cur : Current) (holder : String) : M Lease :=
  match cur.lease with
  | none => .fail .notHeld
  | some lease => if lease.holder = holder then .pure lease else .fail (.heldBy lease.holder)

def renew (revision : ℕ) (ttl : Duration) : M Lease := do
  demand (validateFence key holder revision)
  demand (validateTTL ttl)
  let cur ← read key
  let lease ← checkHolder cur holder
  let now : Time ← perform .now
  let ack : Ack ← write
    { key := key, expect := revision
      content := .renewed
        { holder := holder, acquiredAt := lease.acquiredAt, ttlMs := milliseconds ttl } }
  match ack with
  | .ok seq =>
    return ({ key := key, holder := holder, revision := seq, acquiredAt := lease.acquiredAt
              expiresAt := now + ttl, ttl := ttl } : Lease)
  | .wrongLastSequence => .fail .lostRevision
  | .failed => .fail .transport

def release (revision : ℕ) : M Unit := do
  demand (validateFence key holder revision)
  let cur ← read key
  let _ ← checkHolder cur holder
  let ack : Ack ← write { key := key, expect := revision, content := .released holder }
  match ack with
  | .ok _ => return ()
  | .wrongLastSequence => .fail .lostRevision
  | .failed => .fail .transport

end

def owner (key : String) : M (Option Lease) := do
  demand (validateToken "key" key keyLengthMax)
  let cur ← read key
  return cur.lease

/-- A write that took effect: its sequence, and what it took the place of. -/
structure Effect where
  write : Write
  seq : ℕ
  before : Option Message

/-- The stream of the bucket: its last sequence, the message of each key, and the
writes that took effect, the newest first. -/
structure Stream where
  last : ℕ
  message : String → Option Message
  history : List Effect

namespace Stream

def empty : Stream := ⟨0, fun _ => none, []⟩

variable (s : Stream) (key : String)

def lastOf : ℕ :=
  ((s.message key).map (·.seq)).getD 0

def store (time : Time) (record : Option Record) : Stream :=
  { s with
    last := s.last + 1
    message := Function.update s.message key (some ⟨s.last + 1, time, record⟩) }

lemma store_message_self (time : Time) (record : Option Record) :
    (s.store key time record).message key = some ⟨s.last + 1, time, record⟩ :=
  Function.update_self ..

lemma store_message_of_ne (s : Stream) {key key' : String} (h : key' ≠ key) (time : Time)
    (record : Option Record) : (s.store key time record).message key' = s.message key' :=
  Function.update_of_ne h ..

/-- The message of a key goes away. -/
def erase : Stream :=
  { s with message := Function.update s.message key none }

lemma message_of_erase {s : Stream} {key key' : String} {msg : Message}
    (h : (s.erase key).message key' = some msg) : s.message key' = some msg := by
  change Function.update s.message key none key' = some msg at h
  by_cases hkey : key' = key
  · subst hkey
    rw [Function.update_self] at h
    cases h
  · rwa [Function.update_of_ne hkey] at h

def push (s : Stream) (w : Write) (time : Time) : Stream :=
  { s.store w.key time w.content.record with
    history := ⟨w, s.last + 1, s.message w.key⟩ :: s.history }

inductive Choice where
  | done (time : Time)
  | fail
  /-- The write is stored, and its acknowledgement is lost. -/
  | lost (time : Time)

def publish (s : Stream) (w : Write) : Choice → Option (Ack × Stream)
  | .done time =>
    if w.expect = s.lastOf w.key then some (.ok (s.last + 1), s.push w time)
    else some (.wrongLastSequence, s)
  | .fail => some (.failed, s)
  | .lost time =>
    if w.expect = s.lastOf w.key then some (.failed, s.push w time) else none

def exec (s : Stream) : (op : Call) → Choice → Option (Answer op × Stream)
  | .now => fun
      | .done time => some (time, s)
      | _ => none
  | .getLast key => fun
      | .done _ => some (.ok (s.message key), s)
      | .fail => some (.error .transport, s)
      | _ => none
  | .publish w => s.publish w

/-- The server lets the message of a key expire: a lease leaves a marker, a
marker leaves nothing. -/
def expire (time : Time) : Option Stream :=
  (s.message key).map fun msg =>
    match msg.record with
    | some _ => s.store key time none
    | none => s.erase key

end Stream

inductive Job where
  | acquire (key holder : String) (ttl : Duration)
  | renew (key holder : String) (revision : ℕ) (ttl : Duration)
  | release (key holder : String) (revision : ℕ)
  | owner (key : String)

/-- Serve a request; what it returns goes to its caller. -/
def serve : Job → M Unit
  | .acquire key holder ttl => do let _ ← acquire key holder ttl; return ()
  | .renew key holder revision ttl => do let _ ← renew key holder revision ttl; return ()
  | .release key holder revision => release key holder revision
  | .owner key => do let _ ← owner key; return ()

/-- Any number of callers over one bucket, and a server that lets messages
expire at any time. -/
def system : System Call Answer Err Stream where
  Choice := Stream.Choice
  exec := Stream.exec
  Job := Job
  start _ job := some (serve job)
  Move := String × Time
  move s m := s.expire m.1 m.2

end Dagnats.Leases
