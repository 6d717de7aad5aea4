import Mathlib.Data.Int.Order.Basic

/-!
# At-least-once delivery

A consumer hands a message of a stream to a handler and counts the deliveries.
An acknowledgement settles the message, a negative one makes it wait for a
delay, and a message without an answer is handed out again when the waiting time
of the consumer is over.

A message may serve as a timer: its first delivery is answered by a negative
acknowledgement with a delay, and the second one is taken for the end of it.
`Patient` is what this rests on: the first delivery is answered before the
consumer gives up waiting.
-/

namespace Interaction.Delivery

/-- Where a message stands: it waits until an instant, a handler has had it since
one, or it was acknowledged. -/
inductive Phase where
  | waiting (notBefore : ℤ)
  | outstanding (since : ℤ)
  | settled
  deriving DecidableEq

inductive Settlement where
  | ack
  | nak (delay : ℤ)

/-- A message as its consumer keeps it. -/
structure Message where
  publishedAt : ℤ
  delivered : ℕ
  phase : Phase

namespace Message

def published (now : ℤ) : Message :=
  ⟨now, 0, .waiting now⟩

variable (m : Message) (now : ℤ)

/-- The message is handed to a handler, if it is waiting and its time has come. -/
def deliver : Option Message :=
  match m.phase with
  | .waiting notBefore =>
    if notBefore ≤ now then
      some { m with delivered := m.delivered + 1, phase := .outstanding now }
    else none
  | _ => none

/-- The consumer gives up waiting for an answer. -/
def expire (m : Message) (ackWait now : ℤ) : Option Message :=
  match m.phase with
  | .outstanding since =>
    if since + ackWait ≤ now then some { m with phase := .waiting now } else none
  | _ => none

/-- An answer arrives, perhaps that of an earlier delivery. -/
def settle : Settlement → Message
  | .ack => { m with phase := .settled }
  | .nak delay =>
    if m.phase = .settled then m else { m with phase := .waiting (now + delay) }

@[simp] lemma settle_publishedAt (s : Settlement) :
    (m.settle now s).publishedAt = m.publishedAt := by
  cases s with
  | ack => rfl
  | nak delay => rw [settle]; split <;> rfl

@[simp] lemma settle_delivered (s : Settlement) : (m.settle now s).delivered = m.delivered := by
  cases s with
  | ack => rfl
  | nak delay => rw [settle]; split <;> rfl

/-- The message is not handed out a second time before `delay` is over. -/
structure Patient (delay now : ℤ) (m : Message) : Prop where
  published : m.publishedAt ≤ now
  again : 2 ≤ m.delivered → m.publishedAt + delay ≤ now
  waiting : m.delivered = 1 → ∀ notBefore, m.phase = .waiting notBefore →
    m.publishedAt + delay ≤ notBefore

variable {delay now ackWait : ℤ} {m m' : Message}

lemma patient_published : Patient delay now (published now) where
  published := Int.le_refl now
  again := fun h => absurd h (by simp [Message.published])
  waiting := fun h => absurd h (by simp [Message.published])

lemma deliver_eq (hdeliver : m.deliver now = some m') :
    ∃ notBefore, m.phase = .waiting notBefore ∧ notBefore ≤ now ∧
      m' = { m with delivered := m.delivered + 1, phase := .outstanding now } := by
  unfold deliver at hdeliver
  split at hdeliver
  · next notBefore hphase =>
    split at hdeliver
    · next hle => exact ⟨notBefore, hphase, hle, (Option.some.inj hdeliver).symm⟩
    · cases hdeliver
  · cases hdeliver

section

variable (h : Patient delay now m)
include h

lemma Patient.later {later : ℤ} (hle : now ≤ later) :
    Patient delay later m where
  published := Int.le_trans h.published hle
  again := fun htwice => Int.le_trans (h.again htwice) hle
  waiting := h.waiting

lemma Patient.deliver (hdeliver : m.deliver now = some m') :
    Patient delay now m' := by
  obtain ⟨notBefore, hphase, hle, rfl⟩ := deliver_eq hdeliver
  constructor
  · exact h.published
  · intro htwice
    change 2 ≤ m.delivered + 1 at htwice
    by_cases hfirst : m.delivered = 1
    · exact Int.le_trans (h.waiting hfirst notBefore hphase) hle
    · exact h.again (by omega)
  · intro _ _ hwaiting
    cases hwaiting

/-- The consumer may give up on a first delivery only when the delay is over. -/
lemma Patient.expire (hexpire : m.expire ackWait now = some m')
    (hdue : m.delivered = 1 → m.publishedAt + delay ≤ now) : Patient delay now m' := by
  unfold Message.expire at hexpire
  split at hexpire
  · split at hexpire
    · cases hexpire
      refine ⟨h.published, h.again, fun hfirst notBefore hwaiting => ?_⟩
      cases hwaiting
      exact hdue hfirst
    · cases hexpire
  · cases hexpire

/-- A negative answer to the first delivery asks for at least the delay. -/
lemma Patient.settle {s : Settlement}
    (hs : ∀ d, s = .nak d → m.delivered = 1 → delay ≤ d) : Patient delay now (m.settle now s) := by
  constructor
  · rw [settle_publishedAt]
    exact h.published
  · rw [settle_publishedAt, settle_delivered]
    exact h.again
  · rw [settle_publishedAt, settle_delivered]
    intro hfirst notBefore hwaiting
    cases s with
    | ack => cases hwaiting
    | nak d =>
      rw [Message.settle] at hwaiting
      split at hwaiting
      · exact h.waiting hfirst notBefore hwaiting
      · cases hwaiting
        have hpublished := h.published
        have hd := hs d rfl hfirst
        omega

end

lemma expire_eq (hexpire : m.expire ackWait now = some m') :
    m'.publishedAt = m.publishedAt ∧ m'.delivered = m.delivered := by
  unfold expire at hexpire
  split at hexpire
  · split at hexpire
    · cases hexpire
      exact ⟨rfl, rfl⟩
    · cases hexpire
  · cases hexpire

end Message

end Interaction.Delivery
