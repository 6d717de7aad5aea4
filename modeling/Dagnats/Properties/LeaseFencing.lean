import Dagnats.Interaction.Contract
import Dagnats.Interaction.Script
import Dagnats.Lease.Store
import Mathlib.Data.List.Nodup

/-!
# The fence of a lease

A renewal and a release look at the holder in one call and write in another, and
the write is guarded by the sequence that the caller presents, not by the one
that was read. A caller who presents a sequence that is still to come is let
through by its own lease and may then hit what has come in between: the marker
of its expiry, or the lease of the next holder.

A sequence that the stream has already given out cannot do so. If it is the last
one of the key at the write, it was the last one at the read as well.
-/

namespace Dagnats.Leases

open Interaction

variable {s t u : Stream} {key holder : String} {e : Effect} {w : Write} {msg : Message}
  {revision : ℕ}

def Content.fenced : Content → Bool
  | .acquired _ => false
  | .renewed _ | .released _ => true

def Message.IsLease (msg : Message) (holder : String) (seq : ℕ) : Prop :=
  msg.seq = seq ∧ ∃ rec, msg.record = some rec ∧ rec.holder = holder

/-- What the write found in its place is the lease of its holder, at the sequence
that it expected. -/
def Effect.Entitled (e : Effect) : Prop :=
  ∃ msg, e.before = some msg ∧ msg.IsLease e.write.content.holder e.write.expect

def Live (s : Stream) (e : Effect) : Prop :=
  ∃ msg, s.message e.write.key = some msg ∧ msg.IsLease e.write.content.holder e.seq

structure Fenced (s : Stream) : Prop where
  /-- Sequences increase from write to write, so from grant to grant. -/
  increasing : s.history.Pairwise fun newer older => older.seq < newer.seq
  /-- Whatever is stored as a lease was granted. -/
  granted : ∀ key msg rec, s.message key = some msg → msg.record = some rec →
    ∃ e ∈ s.history, e.write.key = key ∧ e.seq = msg.seq ∧ e.write.content.record = some rec
  /-- One grant at a time is live. -/
  single : ∀ e ∈ s.history, ∀ e' ∈ s.history, e.write.key = e'.write.key →
    Live s e → Live s e' → e = e'
  /-- Only the holder of the lease renews and releases it, at its sequence. -/
  entitled : ∀ e ∈ s.history, e.write.content.fenced = true → e.Entitled

/-- Sequences come from the stream, and a message of an old sequence is an old
message. -/
structure Later (s t : Stream) : Prop where
  last : s.last ≤ t.last
  old : ∀ key msg, t.message key = some msg → msg.seq ≤ s.last → s.message key = some msg

lemma Later.refl (s : Stream) : Later s s :=
  ⟨le_rfl, fun _ _ h _ => h⟩

lemma Later.trans (hst : Later s t) (htu : Later t u) : Later s u := by
  constructor
  · exact hst.last.trans htu.last
  · intro key msg hmsg hle
    exact hst.old key msg (htu.old key msg hmsg (hle.trans hst.last)) hle

lemma Later.store (s : Stream) (key : String) (time : Time) (record : Option Record) :
    Later s (s.store key time record) := by
  constructor
  · exact Nat.le_succ s.last
  · intro key' msg hmsg hle
    by_cases hkey : key' = key
    · subst hkey
      rw [Stream.store_message_self] at hmsg
      cases hmsg
      exact absurd hle (Nat.not_succ_le_self s.last)
    · rwa [Stream.store_message_of_ne s hkey] at hmsg

lemma Later.erase (s : Stream) (key : String) : Later s (s.erase key) :=
  ⟨le_rfl, fun _ _ hmsg _ => Stream.message_of_erase hmsg⟩

lemma Later.push (s : Stream) (w : Write) (time : Time) : Later s (s.push w time) :=
  ⟨(Later.store s w.key time w.content.record).last,
    (Later.store s w.key time w.content.record).old⟩

lemma publish_cases {c : Stream.Choice} {ack : Ack} (h : s.publish w c = some (ack, t)) :
    t = s ∨ ∃ time, t = s.push w time ∧ w.expect = s.lastOf w.key := by
  unfold Stream.publish at h
  split at h
  · split at h
    · next hexpect => cases h; exact .inr ⟨_, rfl, hexpect⟩
    · cases h; exact .inl rfl
  · cases h; exact .inl rfl
  · split at h
    · next hexpect => cases h; exact .inr ⟨_, rfl, hexpect⟩
    · cases h

section

variable {op : Call} {c : Stream.Choice} {a : Answer op} (h : s.exec op c = some (a, t))
include h

lemma exec_cases :
    t = s ∨ ∃ w time, op = .publish w ∧ t = s.push w time ∧ w.expect = s.lastOf w.key := by
  cases op with
  | now =>
    cases c with
    | done time => cases h; exact .inl rfl
    | _ => cases h
  | getLast key =>
    cases c with
    | done time | fail => cases h; exact .inl rfl
    | lost time => cases h
  | publish w =>
    rcases publish_cases h with rfl | ⟨time, rfl, hexpect⟩
    · exact .inl rfl
    · exact .inr ⟨w, time, rfl, rfl, hexpect⟩

lemma exec_later : Later s t := by
  rcases exec_cases h with rfl | ⟨w, time, -, rfl, -⟩
  · exact Later.refl t
  · exact Later.push s w time

end

/-! ## The invariant -/

structure Inv (s : Stream) : Prop where
  increasing : s.history.Pairwise fun newer older => older.seq < newer.seq
  granted : ∀ key msg rec, s.message key = some msg → msg.record = some rec →
    ∃ e ∈ s.history, e.write.key = key ∧ e.seq = msg.seq ∧ e.write.content.record = some rec
  entitled : ∀ e ∈ s.history, e.write.content.fenced = true → e.Entitled
  messages : ∀ key msg, s.message key = some msg → 0 < msg.seq ∧ msg.seq ≤ s.last
  writes : ∀ e ∈ s.history, e.seq ≤ s.last

namespace Inv

lemma empty : Inv Stream.empty := by
  constructor
  · exact List.Pairwise.nil
  · exact fun _ _ _ h => nomatch h
  · exact fun _ h => nomatch h
  · exact fun _ _ h => nomatch h
  · exact fun _ h => nomatch h

variable (h : Inv s)
include h

lemma eq_of_seq_eq {e e' : Effect} (he : e ∈ s.history) (he' : e' ∈ s.history)
    (hseq : e.seq = e'.seq) : e = e' := by
  have hseqs : (s.history.map (·.seq)).Nodup := by
    rw [List.nodup_iff_pairwise_ne, List.pairwise_map]
    exact h.increasing.imp fun hlt => (ne_of_lt hlt).symm
  exact List.inj_on_of_nodup_map hseqs he he' hseq

lemma fenced : Fenced s := by
  constructor
  · exact h.increasing
  · exact h.granted
  · rintro e he e' he' hkey ⟨msg, hmsg, hlease⟩ ⟨msg', hmsg', hlease'⟩
    rw [← hkey, hmsg] at hmsg'
    cases hmsg'
    exact h.eq_of_seq_eq he he' (hlease.1.symm.trans hlease'.1)
  · exact h.entitled

lemma messages_store {key' : String} {time : Time} {record : Option Record}
    (hmsg : (s.store key time record).message key' = some msg) :
    0 < msg.seq ∧ msg.seq ≤ s.last + 1 := by
  by_cases hkey : key' = key
  · subst hkey
    rw [Stream.store_message_self] at hmsg
    cases hmsg
    exact ⟨Nat.succ_pos s.last, le_rfl⟩
  · rw [Stream.store_message_of_ne s hkey] at hmsg
    obtain ⟨hpos, hle⟩ := h.messages key' msg hmsg
    exact ⟨hpos, hle.trans (Nat.le_succ s.last)⟩

lemma marker (key : String) (time : Time) : Inv (s.store key time none) := by
  constructor
  · exact h.increasing
  · intro key' msg rec hmsg hrec
    by_cases hkey : key' = key
    · subst hkey
      rw [Stream.store_message_self] at hmsg
      cases hmsg
      cases hrec
    · rw [Stream.store_message_of_ne s hkey] at hmsg
      exact h.granted key' msg rec hmsg hrec
  · exact h.entitled
  · exact fun key' msg hmsg => h.messages_store hmsg
  · exact fun e he => (h.writes e he).trans (Nat.le_succ s.last)

lemma erase (key : String) : Inv (s.erase key) := by
  constructor
  · exact h.increasing
  · exact fun key' msg rec hmsg => h.granted key' msg rec (Stream.message_of_erase hmsg)
  · exact h.entitled
  · exact fun key' msg hmsg => h.messages key' msg (Stream.message_of_erase hmsg)
  · exact h.writes

lemma push (time : Time)
    (hentitled : w.content.fenced = true → (⟨w, s.last + 1, s.message w.key⟩ : Effect).Entitled) :
    Inv (s.push w time) := by
  constructor
  · refine List.pairwise_cons.mpr ⟨?_, h.increasing⟩
    intro e he
    exact Nat.lt_succ_of_le (h.writes e he)
  · intro key msg rec hmsg hrec
    by_cases hkey : key = w.key
    · subst hkey
      have hself := Stream.store_message_self s w.key time w.content.record
      cases hself.symm.trans hmsg
      exact ⟨_, .head _, rfl, rfl, hrec⟩
    · have hold := Stream.store_message_of_ne s hkey time w.content.record
      obtain ⟨e, he, hfacts⟩ := h.granted key msg rec (hold.symm.trans hmsg) hrec
      exact ⟨e, .tail _ he, hfacts⟩
  · intro e he hfenced
    rcases List.mem_cons.mp he with rfl | he
    · exact hentitled hfenced
    · exact h.entitled e he hfenced
  · exact fun key msg hmsg => h.messages_store (s := s) hmsg
  · intro e he
    rcases List.mem_cons.mp he with rfl | he
    · exact le_rfl
    · exact (h.writes e he).trans (Nat.le_succ s.last)

end Inv

/-! ## The contract of a request -/

/-- A write that finds what it expects is entitled to it. -/
def Guarded (s : Stream) : Call → Prop
  | .publish w => w.content.fenced = true → w.expect = s.lastOf w.key →
      (⟨w, s.last + 1, s.message w.key⟩ : Effect).Entitled
  | _ => True

def contract : Contract system where
  inv := Inv
  rely := Later
  grows := Later
  ok _ _ := True
  guar s op _ _ := Guarded s op
  rely_refl := Later.refl
  rely_trans := Later.trans
  grows_trans := Later.trans
  rely_grows := id
  exec_grows := exec_later

/-- The request keeps the contract. -/
abbrev Serves {α : Type} (p : M α) (s : Stream) : Prop :=
  Safe contract (fun _ _ => True) p s

section Rules

variable {α β : Type} {p : M α} {f : α → M β}

lemma serves_pure (a : α) : Serves (.pure a) s :=
  fun _ _ _ => trivial

lemma serves_fail (e : Err) : Serves (.fail e : M α) s :=
  fun _ _ _ => trivial

lemma serves_discard (h : Serves p s) : Serves (p.bind fun _ => .pure ()) s :=
  h.bind (fun _ _ _ _ _ => serves_pure ()) fun _ _ _ _ _ => trivial

lemma serves_demand {r : Except Err Unit} {f : Unit → M β}
    (h : r = .ok () → Serves (f ()) s) : Serves ((demand r).bind f) s := by
  cases r with
  | ok a => exact h rfl
  | error e => exact serves_fail e

lemma serves_now {f : Time → M β} (h : ∀ now t, Inv t → Later s t → Serves (f now) t) :
    Serves ((perform .now).bind f) s := by
  intro t ht hst _ c now u hexec
  refine ⟨trivial, fun _ => ?_⟩
  cases c with
  | done time =>
    cases hexec
    exact h _ t ht hst
  | _ => cases hexec

lemma serves_read {f : Current → M β}
    (h : ∀ t, Inv t → Later s t → Serves (f ((t.message key).elim {} (·.current key))) t) :
    Serves ((read key).bind f) s := by
  intro t ht hst _ c r u hexec
  refine ⟨trivial, fun _ => ?_⟩
  cases c with
  | done time =>
    cases hexec
    have hrest := h t ht hst
    cases hmsg : t.message key with
    | none | some msg => rw [hmsg] at hrest; exact hrest
  | fail =>
    cases hexec
    exact serves_fail _
  | lost time => cases hexec

lemma serves_write {f : Ack → M β} (hguard : ∀ t, Inv t → Later s t → Guarded t (.publish w))
    (hrest : ∀ ack t, Serves (f ack) t) : Serves ((write w).bind f) s :=
  fun t ht hst _ _ ack u _ => ⟨hguard t ht hst, fun _ => hrest ack u⟩

end Rules

/-! ## The requests -/

lemma serves_create (ttl : Duration) (expect : ℕ) :
    Serves (create key holder ttl expect) s := by
  apply serves_now
  intro now t _ _
  apply serves_write
  · exact fun _ _ _ hfenced => nomatch hfenced
  · intro ack u
    cases ack with
    | ok seq | wrongLastSequence => exact serves_pure _
    | failed => exact serves_fail _

lemma serves_acquireLoop (ttl : Duration) (attempts : ℕ) (s : Stream) :
    Serves (acquireLoop key holder ttl attempts) s := by
  induction attempts generalizing s with
  | zero => exact serves_fail _
  | succ attempts ih =>
    apply serves_read
    intro t _ _
    generalize (t.message key).elim {} (·.current key) = cur
    obtain ⟨lease, revision⟩ := cur
    cases lease with
    | some lease => exact serves_pure _
    | none =>
      apply (serves_create ttl revision).bind
      · intro granted u _ _ _
        cases granted with
        | some lease => exact serves_pure _
        | none => exact ih u
      · exact fun _ _ _ _ _ => trivial

lemma ne_zero_of_validateFence (h : validateFence key holder revision = .ok ()) : revision ≠ 0 := by
  rintro rfl
  unfold validateFence at h
  cases hkey : validateToken "key" key keyLengthMax with
  | error e => rw [hkey] at h; cases h
  | ok a =>
    cases hholder : validateToken "holder" holder holderLengthMax with
    | error e | ok a => rw [hkey, hholder] at h; cases h

/-- A sequence that was given out before the read: if it is the last one of the
key at the write, then it is the one of the lease that was read. -/
lemma guarded_of_read {content : Content} {rec : Record} (hpos : revision ≠ 0)
    (hpast : revision ≤ s.last) (hst : Later s t) (hmsg : s.message key = some msg)
    (hrec : msg.record = some rec) (hholder : rec.holder = content.holder) :
    Guarded t (.publish ⟨key, content, revision⟩) := by
  intro _ hexpect
  unfold Stream.lastOf at hexpect
  cases hnow : t.message key with
  | none =>
    simp only [hnow] at hexpect
    exact absurd hexpect hpos
  | some msg' =>
    simp only [hnow] at hexpect
    have hseq : revision = msg'.seq := hexpect
    have hold := hst.old key msg' hnow (hseq ▸ hpast)
    rw [hmsg] at hold
    cases hold
    exact ⟨msg, rfl, hexpect.symm, rec, hrec, hholder⟩

lemma serves_checkHolder {α : Type} {f : Lease → M α}
    (h : ∀ t msg rec lease, Later s t → t.message key = some msg → msg.record = some rec →
      rec.holder = holder → Serves (f lease) t) :
    Serves ((read key).bind fun cur => (checkHolder cur holder).bind f) s := by
  apply serves_read
  intro t _ hst
  cases hmsg : t.message key with
  | none => exact serves_fail _
  | some msg =>
    obtain ⟨seq, time, record⟩ := msg
    cases record with
    | none => exact serves_fail _
    | some rec =>
      simp only [Option.elim, Message.current, Option.map_some, checkHolder]
      split
      · next hholder => exact h t _ rec _ hst hmsg rfl hholder
      · exact serves_fail _

lemma serves_renew (ttl : Duration) (hpast : revision ≤ s.last) :
    Serves (renew key holder revision ttl) s := by
  apply serves_demand
  intro hfence
  apply serves_demand
  intro _
  apply serves_checkHolder
  intro t msg rec lease hst hmsg hrec hholder
  apply serves_now
  intro now u _ htu
  apply serves_write
  · intro v _ huv
    exact guarded_of_read (ne_zero_of_validateFence hfence) (hpast.trans hst.last)
      (htu.trans huv) hmsg hrec hholder
  · intro ack u
    cases ack with
    | ok seq => exact serves_pure _
    | wrongLastSequence | failed => exact serves_fail _

lemma serves_release (hpast : revision ≤ s.last) : Serves (release key holder revision) s := by
  apply serves_demand
  intro hfence
  apply serves_checkHolder
  intro t msg rec lease hst hmsg hrec hholder
  apply serves_write
  · intro v _ htv
    exact guarded_of_read (ne_zero_of_validateFence hfence) (hpast.trans hst.last)
      htv hmsg hrec hholder
  · intro ack u
    cases ack with
    | ok seq => exact serves_pure _
    | wrongLastSequence | failed => exact serves_fail _

/-! ## Fencing -/

/-- Renewals and releases present sequences that the stream has given out. -/
def Job.Past (s : Stream) : Job → Prop
  | .renew _ _ revision _ | .release _ _ revision => revision ≤ s.last
  | _ => True

def past : Conditions system where
  call _ _ := True
  job := fun s job => job.Past s
  move _ _ := True

lemma serves_serve {job : Job} (hpast : job.Past s) : Serves (serve job) s := by
  cases job with
  | acquire key holder ttl =>
    apply serves_discard
    apply serves_demand
    intro _
    apply serves_demand
    intro _
    apply serves_demand
    intro _
    exact serves_acquireLoop ttl acquireAttemptsMax s
  | renew key holder revision ttl => exact serves_discard (serves_renew ttl hpast)
  | release key holder revision => exact serves_release hpast
  | owner key =>
    apply serves_discard
    apply serves_demand
    intro _
    apply serves_read
    exact fun _ _ _ => serves_pure _

lemma contract_sound : contract.Sound past where
  ok _ := trivial
  call := by
    intro s op c a t hinv hexec hguard
    refine ⟨?_, exec_later hexec⟩
    rcases exec_cases hexec with rfl | ⟨w, time, rfl, rfl, hexpect⟩
    · exact hinv
    · exact hinv.push time fun hfenced => hguard hfenced hexpect
  move := by
    intro s m t hinv _ hmove
    obtain ⟨msg, hmsg, rfl⟩ := Option.map_eq_some_iff.mp hmove
    cases msg.record with
    | some rec => exact ⟨hinv.marker m.1 m.2, Later.store s m.1 m.2 none⟩
    | none => exact ⟨hinv.erase m.1, Later.erase s m.1⟩
  jobs := by
    intro s job p _ hpast hstart
    cases hstart
    exact serves_serve hpast

/-- **Fencing.**  In every run in which the renewals and releases present
sequences that the stream has already given out, the leases are fenced. -/
theorem leases_fenced {p : Pool system} (h : Pool.Reaches past (Pool.initial Stream.empty) p) :
    Fenced p.state :=
  (contract_sound.reaches Inv.empty h).1.fenced

namespace Example

def pastChecks : Checks system where
  call _ _ := true
  job s job :=
    match job with
    | .renew _ _ revision _ | .release _ _ revision => revision ≤ s.last
    | _ => true
  move _ _ := true

lemma pastChecks_sound : pastChecks.Sound past where
  call _ := trivial
  job := by
    intro s job h
    cases job with
    | acquire key holder ttl | owner key => trivial
    | renew key holder revision ttl | release key holder revision =>
      exact of_decide_eq_true (p := revision ≤ s.last) h
  move _ := trivial

def request (job : Job) : Order system :=
  .act (.start job)

/-- The request at a position goes on, and every call is answered. -/
def answered (i n : ℕ) : Order system :=
  .drive (fun _ _ => Stream.Choice.done 0) i n

/-- The lease of the key, or its marker, expires. -/
def expires (key : String) : Order system :=
  .act (.ext (key, 0))

/-- Whose lease a write took the place of, and who wrote. -/
def Effect.parties (e : Effect) : Option String × String :=
  ((e.before.bind (·.record)).map (·.holder), e.write.content.holder)

/-- A holder renews its lease, loses it, and comes back too late. -/
theorem late_holder_fenced : ∃ p : Pool system, Pool.Reaches past (Pool.initial Stream.empty) p ∧
    p.state.history.map Effect.parties = [(none, "b"), (some "a", "a"), (none, "a")] ∧
    Fenced p.state := by
  obtain ⟨p, hp, htest⟩ := Pool.reaches_of_script pastChecks_sound (Pool.initial Stream.empty)
    [request (.acquire "k" "a" second), answered 0 9,
      request (.renew "k" "a" 1 second), answered 1 9, request (.release "k" "a" 2),
      answered 2 1, expires "k", request (.acquire "k" "b" second), answered 3 9,
      answered 2 9] (fun p => decide
        (p.state.history.map Effect.parties = [(none, "b"), (some "a", "a"), (none, "a")]))
  exact ⟨p, hp, of_decide_eq_true htest, leases_fenced hp⟩

/-- A holder presents a sequence that is still to come. It has the lease when it
is asked for it; then the lease expires, and the next holder is granted the very
sequence. -/
theorem next_holder_overwritten : ∃ p : Pool system,
    Pool.Reaches Conditions.free (Pool.initial Stream.empty) p ∧ ∃ e ∈ p.state.history,
    e.write.content.fenced = true ∧ Effect.parties e = (some "b", "a") ∧ ¬e.Entitled := by
  obtain ⟨p, hp, htest⟩ := Pool.reaches_of_script Checks.free_sound (Pool.initial Stream.empty)
    [request (.acquire "k" "a" second), answered 0 9,
      request (.renew "k" "a" 3 second), answered 1 1, expires "k",
      request (.acquire "k" "b" second), answered 2 9, answered 1 9]
      (fun p => p.state.history.any fun e =>
          e.write.content.fenced && decide (Effect.parties e = (some "b", "a")))
  obtain ⟨e, he, hparties⟩ := List.any_eq_true.mp htest
  obtain ⟨hfenced, hparties⟩ := Bool.and_eq_true_iff.mp hparties
  have hparties := of_decide_eq_true hparties
  refine ⟨p, hp, e, he, hfenced, hparties, ?_⟩
  rintro ⟨msg, hmsg, -, rec, hrec, hholder⟩
  obtain ⟨hfound, hwriter⟩ := Prod.mk.inj hparties
  simp only [hmsg, Option.bind_some, hrec, Option.map_some, Option.some.injEq] at hfound
  rw [hfound, hwriter] at hholder
  exact absurd hholder (by decide)

end Example

end Dagnats.Leases
