import Dagnats.Journal.Views

/-!
# Appends to a step journal

The calls of a writer, and the loop of `append` over them. The rule of the loop
leaves open why the writer may append where it expects the tail (`Grounds`): a
claim may because of what stands before it, any other record because the tail is
one of its own. What an append can have done is said once (`Wrote`).
-/

namespace Dagnats.AgentJournal

open Interaction

variable {d : Dispatches} {honest : Prop} {v w : View} {s t : Stream} {c : Choice}
  {result : Except Err ℕ × Journal} {id : String} {task : Task} {n : ℕ} {R : ℕ → Stream → Prop}
  {r : Record} {u : Stream} {o : Observation}

def Shows (d : Dispatches) (honest : Prop) (v : View) (s : Stream) : Prop :=
  ∃ G, Inv d honest s (some v ::ₘ G)

namespace Stream

lemma find_some (h : s.find id = some r) : r ∈ s.log ∧ r.msgID = id :=
  ⟨List.mem_of_find?_eq_some h, by simpa using List.find?_some h⟩

lemma find_none (h : s.find id = none) : ∀ r ∈ s.log, r.msgID ≠ id := by
  intro r hr hid
  exact absurd (decide_eq_true hid) (List.find?_eq_none.mp h r hr)

lemma readTail_cases {a : Answer .readTail} (h : s.exec .readTail c = some (a, u)) :
    u = s ∧ (a = .ok s.log.head? ∨ a = .error .transport) := by
  cases c with
  | done => cases h; exact ⟨rfl, .inl rfl⟩
  | fail => cases h; exact ⟨rfl, .inr rfl⟩
  | lost | reject => cases h

lemma readUpTo_cases {a : Answer (.readUpTo n)} (h : s.exec (.readUpTo n) c = some (a, u)) :
    u = s ∧ (a = .ok (s.log.filter (·.seq ≤ n)).reverse ∨ a = .error .transport) := by
  cases c with
  | done =>
    cases h
    by_cases hmax : recordsMax < (s.log.filter (·.seq ≤ n)).reverse.length
    · exact ⟨rfl, .inr (if_pos hmax)⟩
    · exact ⟨rfl, .inl (if_neg hmax)⟩
  | fail => cases h; exact ⟨rfl, .inr rfl⟩
  | lost | reject => cases h

lemma receive_cases {a : Answer (.receive n)} (h : s.exec (.receive n) c = some (a, u)) :
    0 < n ∧ a = s.deliveries n + 1 ∧
      u = { s with deliveries := Function.update s.deliveries n (s.deliveries n + 1) } := by
  cases c with
  | done =>
    simp only [exec] at h
    split at h
    · next hn =>
      cases h
      exact ⟨hn, rfl, rfl⟩
    · cases h
  | fail | lost | reject => cases h

lemma observe_cases {a : Answer (.observe o)}
    (h : s.exec (.observe o) c = some (a, u)) : u = { s with trace := o :: s.trace } := by
  cases c with
  | done => cases h; rfl
  | fail | lost | reject => cases h

lemma publish_cases {m : Message} {a : Answer (.publish m)}
    (h : s.exec (.publish m) c = some (a, u)) : (u = s ∧ (a = .wrongLastSequence ∨ a = .failed ∨
      ∃ r, s.find (m.record 0).msgID = some r ∧ a = .ok r.seq)) ∨
    (s.find (m.record 0).msgID = none ∧ m.expected = s.last ∧ u = s.push m ∧
      (a = .ok (s.last + 1) ∨ a = .failed)) := by
  cases c with
  | reject => cases h; exact .inl ⟨rfl, .inl rfl⟩
  | fail => cases h; exact .inl ⟨rfl, .inr (.inl rfl)⟩
  | done =>
    simp only [exec, publish] at h
    split at h
    · next r hfound =>
      cases h
      exact .inl ⟨rfl, .inr (.inr ⟨r, hfound, rfl⟩)⟩
    · next hnone =>
      split at h
      · next hexpected =>
        cases h
        exact .inr ⟨hnone, hexpected, rfl, .inl rfl⟩
      · cases h
        exact .inl ⟨rfl, .inl rfl⟩
  | lost =>
    simp only [exec, publish] at h
    split at h
    · next hcond =>
      cases h
      exact .inr ⟨Option.isNone_iff_eq_none.mp hcond.1, hcond.2, rfl, .inr rfl⟩
    · cases h

end Stream

/-! ## The judgement -/

/-- From this view, the writer ends with `X`, unless it panics. -/
def Gives (d : Dispatches) (honest : Prop) {α : Type} (X : α → View → Stream → Prop) (p : M α)
    (v : View) (s : Stream) : Prop :=
  Polite (concert d honest) (fun r g t => ∀ a, r = .ok a → ∃ w, g = some w ∧ X a w t) p (some v) s

section Rules

variable {α β : Type} {X X' : α → View → Stream → Prop} {Y : β → View → Stream → Prop} {p : M α}
  {f : α → M β}

lemma gives_pure {a : α} (h : ∀ t, s.Grows t → X a v t) : Gives d honest X (Prog.pure a) v s := by
  intro t hst b hb
  cases hb
  exact ⟨v, rfl, h t hst⟩

lemma gives_fail {e : Err} : Gives d honest X (Prog.fail e) v s :=
  fun _ _ _ hb => nomatch hb

lemma Gives.bind (hp : Gives d honest X p v s)
    (hf : ∀ a w t, s.Grows t → X a w t → Gives d honest Y (f a) w t) :
    Gives d honest Y (p.bind f) v s := by
  refine Polite.bind (Polite.since hp (Stream.Grows.refl s)) ?_ ?_
  · rintro a g t ⟨hX, hst⟩
    obtain ⟨w, rfl, hw⟩ := hX a rfl
    exact hf a w t hst hw
  · exact fun _ _ _ _ _ h => nomatch h

lemma Gives.conseq (hp : Gives d honest X p v s)
    (h : ∀ a w t, s.Grows t → X a w t → X' a w t) : Gives d honest X' p v s := by
  refine Polite.conseq (Polite.since hp (Stream.Grows.refl s)) ?_
  rintro r g t ⟨hX, hst⟩ a hr
  obtain ⟨w, hg, hw⟩ := hX a hr
  exact ⟨w, hg, h a w t hst hw⟩

lemma gives_perform {op : Call} {X : Answer op → View → Stream → Prop}
    (h : ∀ t G, s.Grows t → Inv d honest t (some v ::ₘ G) → (honest → Honest t op) → ∀ c a u,
      t.exec op c = some (a, u) →
        t.Grows u ∧ ∃ w, Inv d honest u (some w ::ₘ G) ∧ ∀ x, u.Grows x → X a w x) :
    Gives d honest X (perform op) v s := by
  refine fun t G hst hinv hok => ⟨trivial, fun c a u hu => ?_⟩
  obtain ⟨htu, w, hinv', hX⟩ := h t G hst hinv hok c a u hu
  exact ⟨htu, some w, hinv', gives_pure hX⟩

end Rules

lemma gives_readTail : Gives d honest
    (fun a w t => w = v ∧ ∃ u, s.Grows u ∧ Shows d honest v u ∧ u.Grows t ∧
      (a = .ok u.log.head? ∨ a = .error .transport)) (perform .readTail) v s := by
  apply gives_perform
  intro t G hst hinv _ c a u hu
  obtain ⟨rfl, ha⟩ := Stream.readTail_cases hu
  exact ⟨.refl _, v, hinv, fun x hx => ⟨rfl, u, hst, ⟨G, hinv⟩, hx, ha⟩⟩

lemma gives_readUpTo : Gives d honest (fun a w _ => w = v ∧ ∃ u, s.Grows u ∧ Shows d honest v u ∧
      (a = .ok (u.log.filter (·.seq ≤ n)).reverse ∨ a = .error .transport))
    (perform (.readUpTo n)) v s := by
  apply gives_perform
  intro t G hst hinv _ c a u hu
  obtain ⟨rfl, ha⟩ := Stream.readUpTo_cases hu
  exact ⟨.refl _, v, hinv, fun x hx => ⟨rfl, u, hst, ⟨G, hinv⟩, ha⟩⟩

/-- What has to hold so that something may be observed. -/
structure Notes (honest : Prop) (t : Stream) (o : Observation) : Prop where
  stored : StoredOk honest t.log (o :: t.trace)
  opened : honest → OpenedOk t.log (o :: t.trace)

lemma gives_observe (ho : o.task = v.task)
    (h : ∀ t, s.Grows t → Shows d honest v t → Notes honest t o) :
    Gives d honest (fun _ w _ => w = v.note o) (observe o) v s := by
  apply gives_perform
  intro t G hst hinv _ c a u hu
  obtain rfl := Stream.observe_cases hu
  have hnotes := h t hst ⟨G, hinv⟩
  exact ⟨⟨List.suffix_rfl, List.suffix_cons _ _⟩, v.note o, hinv.note ho hnotes.stored
    hnotes.opened, fun _ _ => rfl⟩

/-- Nothing is claimed of these observations. -/
def Observation.isQuiet : Observation → Bool
  | .issued .. | .failed .. | .started .. | .rebuilt .. => true
  | _ => false

lemma gives_observe_quiet (hquiet : o.isQuiet = true) (ho : o.task = v.task) :
    Gives d honest (fun _ w _ => w = v.note o) (observe o) v s := by
  refine gives_observe ho fun t _ hshows => ?_
  obtain ⟨G, hinv⟩ := hshows
  refine ⟨hinv.stored.note ?_, fun hhonest => (hinv.opened hhonest).note ?_⟩
  · cases o <;> first | rfl | cases hquiet
  · rintro task n result rfl
    cases hquiet

/-! ## Records -/

/-- The record that an append writes. -/
def newRecord (task : Task) (type : RecordType) (index : ℕ) (data : Body) (seq : ℕ) : Record :=
  (recordMessage task type index 0 data).record seq

variable {type : RecordType} {index : ℕ} {data : Body} {j : Journal}

lemma View.Of.dispatched (h : v.Of d s) (type : RecordType) (index : ℕ) (data : Body)
    (seq : ℕ) : Dispatched d (newRecord v.task type index data seq) where
  streamSeq := h.streamSeq
  iteration := congrArg Task.iteration h.task
  attempt := congrArg Task.attempt h.task
  nonce := congrArg Task.dispatchNonce h.task
  id := congrArg (msgID · index) h.task

/-- A stored record with the id of a message of the writer is one of its own. -/
lemma Shows.of_msgID (h : Shows d honest v s) (hr : r ∈ s.log)
    (hid : r.msgID = msgID v.task index) :
    r ∈ v.own ∧ r.index = index := by
  obtain ⟨G, hinv⟩ := h
  have hown := hinv.view.dispatched .claim index .claim 0
  obtain ⟨hdelivery, hindex⟩ := hown.of_msgID (hinv.log.dispatched hr) hid
  exact ⟨hinv.view.mem_own.mpr ⟨hr, hdelivery⟩, hindex⟩

lemma Shows.msgID_own (h : Shows d honest v s) (hr : r ∈ v.own) :
    r ∈ s.log ∧ r.msgID = msgID v.task r.index := by
  obtain ⟨G, hinv⟩ := h
  obtain ⟨hlog, hdelivery⟩ := hinv.view.mem_own.mp hr
  obtain ⟨hstream, hdeliv⟩ := Prod.mk.inj hdelivery
  refine ⟨hlog, ?_⟩
  rw [(hinv.log.dispatched hlog).id, hstream, hdeliv, ← hinv.view.task]

/-- The writer may append the record here. -/
structure Lands (d : Dispatches) (honest : Prop) (v : View) (t : Stream) (r : Record) : Prop where
  follows : Follows d t.log r
  sealed : honest → ∀ x ∈ t.log, x.type = .commit → x.execution ≠ r.execution
  quiet : v.own = [] → ∀ n result, .opened v.task n result ∉ v.seen

/-- What a publish can have done. -/
inductive Published (v : View) (type : RecordType) (index : ℕ) (data : Body) :
    Ack → View → Prop where
  | rejected : Published v type index data .wrongLastSequence v
  | failed : Published v type index data .failed v
  | known {r : Record} : r ∈ v.own → r.index = index → Published v type index data (.ok r.seq) v
  | stored (seq : ℕ) : (∀ x ∈ v.own, x.index ≠ index) →
      Published v type index data (.ok seq) (v.push (newRecord v.task type index data seq))
  | lost (seq : ℕ) :
      Published v type index data .failed (v.push (newRecord v.task type index data seq))

/-- Among honest writers, what is stored under the index is what the writer wants to
store there. -/
def Heeds (honest : Prop) (v : View) (type : RecordType) (index : ℕ) (data : Body) : Prop :=
  honest → ∀ x ∈ v.own, x.index = index → x.type = type ∧ x.data = data

lemma gives_publish (htask : task = v.task) {expected : ℕ}
    (h : ∀ t, s.Grows t → Shows d honest v t → expected = t.log.length →
      (∀ x ∈ t.log, x.msgID ≠ msgID v.task index) →
      Lands d honest v t (newRecord v.task type index data (t.log.length + 1))) :
    Gives d honest (fun a w _ => Published v type index data a w ∧ Heeds honest v type index data)
      (perform (.publish (recordMessage task type index expected data))) v s := by
  subst htask
  apply gives_perform
  intro t G hst hinv hok c a u hu
  have hshows : Shows d honest v t := ⟨G, hinv⟩
  have hheeds : Heeds honest v type index data := by
    intro hhonest x hx hindex
    obtain ⟨hlog, hid⟩ := hshows.msgID_own hx
    rw [hindex] at hid
    exact hok hhonest x hlog hid
  rcases Stream.publish_cases hu with ⟨rfl, ha⟩ | ⟨hnone, hexpected, rfl, ha⟩
  · refine ⟨.refl _, v, hinv, fun x hx => ⟨?_, hheeds⟩⟩
    rcases ha with rfl | rfl | ⟨r, hfound, rfl⟩
    · exact .rejected
    · exact .failed
    · obtain ⟨hlog, hid⟩ := Stream.find_some hfound
      obtain ⟨hown, hindex⟩ := hshows.of_msgID hlog hid
      exact .known hown hindex
  · have hlast : t.last = t.log.length := hinv.log.tailSeq_eq
    have hunsent : ∀ x ∈ t.log, x.msgID ≠ msgID v.task index := Stream.find_none hnone
    have hlands := h t hst hshows (hexpected.trans hlast) hunsent
    have hpush : t.push (recordMessage v.task type index expected data) =
        { t with log := newRecord v.task type index data (t.log.length + 1) :: t.log } := by
      rw [Stream.push, hlast]
      rfl
    rw [hpush]
    refine ⟨⟨List.suffix_cons _ _, List.suffix_rfl⟩, _,
      hinv.push hlands.follows rfl hlands.sealed hlands.quiet, fun x hx => ⟨?_, hheeds⟩⟩
    rcases ha with rfl | rfl
    · rw [hlast]
      refine .stored _ fun x hx hindex => ?_
      obtain ⟨hlog, hid⟩ := hshows.msgID_own hx
      rw [hindex] at hid
      exact hunsent x hlog hid
    · exact .lost _

/-! ## The loop -/

/-- What the loop of `append` can have done. -/
inductive Appended (honest : Prop) (v : View) (j : Journal) (type : RecordType) (data : Body) :
    Except Err ℕ × Journal → View → Prop where
  | refused (e : Err) (fenced : Bool) :
      Appended honest v j type data (.error e, { j with fenced := fenced }) v
  | lost (e : Err) (seq : ℕ) :
      Appended honest v j type data (.error e, j) (v.push (newRecord v.task type j.next data seq))
  | known {r : Record} : r ∈ v.own → r.index = j.next → Heeds honest v type j.next data →
      Appended honest v j type data (j.advance r.seq) v
  | stored (seq : ℕ) : (∀ x ∈ v.own, x.index ≠ j.next) →
      Appended honest v j type data (j.advance seq) (v.push (newRecord v.task type j.next data seq))

/-- Why the writer may append where it expects the tail. -/
structure Grounds (d : Dispatches) (honest : Prop) (v : View) (j : Journal) (type : RecordType)
    (data : Body) (R : ℕ → Stream → Prop) : Prop where
  stable : ∀ {e s t}, R e s → s.Grows t → R e t
  lands : ∀ {e t}, j.done = false → R e t → Shows d honest v t → e = t.log.length →
    (∀ x ∈ t.log, x.msgID ≠ msgID v.task j.next) →
    Lands d honest v t (newRecord v.task type j.next data (t.log.length + 1))
  judge : ∀ {e t}, R e t → Shows d honest v t → j.judge e t.log.head? = .resync →
    R (tailSeq t.log.head?) t

lemma judge_landed {e seq : ℕ} {tail : Option Record} (h : j.judge e tail = .landed seq) :
    ∃ r, tail = some r ∧ r.msgID = msgID j.task j.next ∧ r.seq = seq := by
  unfold Journal.judge at h
  split at h
  · cases h
  · next r =>
    split at h
    · cases h
    · split at h
      · next hid =>
        cases h
        exact ⟨r, rfl, hid, rfl⟩
      · split at h
        · cases h
        · split at h <;> cases h

lemma gives_appendLoop (hj : j.task = v.task) (hdone : j.done = false)
    (h : Grounds d honest v j type data R) :
    ∀ e s, R e s → Gives d honest (fun a w _ => Appended honest v j type data a w)
      (j.appendLoop type data n e) v s := by
  induction n with
  | zero => exact fun e s _ => gives_pure fun _ _ => .refused .resyncs j.fenced
  | succ n ih =>
    intro e s hR
    refine Gives.bind (gives_publish hj fun t hst => h.lands hdone (h.stable hR hst)) ?_
    rintro a w t hst ⟨hpublished, hheeds⟩
    cases hpublished with
    | failed => exact gives_pure fun _ _ => .refused .transport j.fenced
    | lost seq => exact gives_pure fun _ _ => .lost .transport seq
    | known hown hindex => exact gives_pure fun _ _ => .known hown hindex hheeds
    | stored seq hfresh => exact gives_pure fun _ _ => .stored seq hfresh
    | rejected =>
      -- The tail is read again, and classified.
      refine Gives.bind gives_readTail ?_
      rintro tail w x - ⟨rfl, y, hty, hshows, hyx, rfl | rfl⟩
      · dsimp only
        cases hverdict : j.judge e y.log.head? with
        | resync =>
          have hnext := h.judge (h.stable hR (hst.trans hty)) hshows hverdict
          exact ih (tailSeq y.log.head?) x (h.stable hnext hyx)
        | landed seq =>
          obtain ⟨r, htail, hid, rfl⟩ := judge_landed hverdict
          rw [hj] at hid
          obtain ⟨hown, hindex⟩ := hshows.of_msgID (List.mem_of_mem_head? htail) hid
          exact gives_pure fun _ _ => .known hown hindex hheeds
        | fenced => exact gives_pure fun _ _ => .refused .fenced true
      · exact gives_pure fun _ _ => .refused .transport j.fenced

/-! ## The whole append -/

/-- A successful append may be observed once for each record of the writer. -/
lemma Shows.storedOk (h : Shows d honest v t) (hr : r ∈ v.own)
    (hwritten : honest → r.type = type ∧ r.data = data)
    (hnew : ∀ type' data', .stored v.task type' data' r.seq ∉ v.seen) :
    StoredOk honest t.log (.stored v.task type data r.seq :: t.trace) := by
  obtain ⟨G, hinv⟩ := h
  obtain ⟨hlog, hdelivery⟩ := hinv.view.mem_own.mp hr
  constructor
  · intro task type' data' seq hmem
    rcases List.mem_cons.mp hmem with heq | hmem
    · cases heq
      exact ⟨r, hlog, rfl, hdelivery, hwritten⟩
    · exact hinv.stored.found hmem
  · rw [List.filterMap_cons_some (f := Observation.storedSeq?) (b := r.seq) rfl, List.nodup_cons]
    refine ⟨fun hseq => ?_, hinv.stored.distinct⟩
    obtain ⟨o, ho, hoseq⟩ := List.mem_filterMap.mp hseq
    cases o with
    | stored task type' data' seq =>
      cases hoseq
      -- The earlier append has the same record, so it is one of this handle.
      obtain ⟨x, hx, hxseq, hxdelivery, -⟩ := hinv.stored.found ho
      obtain rfl := hinv.log.eq_of_seq hx hlog hxseq
      obtain rfl : task = v.task := task_eq_of_delivery (hinv.observed _ ho).1
        hinv.view.task (hxdelivery.symm.trans hdelivery)
      exact hnew type' data' (hinv.view.mem_seen.mpr ⟨ho, rfl⟩)
    | issued | failed | started | rebuilt | opened => cases hoseq

/-- The handle counts the records of its writer: those below the next index are the ones
that successful appends returned. -/
structure Numbered (j : Journal) (v : View) : Prop where
  task : j.task = v.task
  index_le : ∀ x ∈ v.own, x.index ≤ j.next
  stored : ∀ {type data seq}, .stored v.task type data seq ∈ v.seen →
    ∃ x ∈ v.own, x.seq = seq ∧ x.index < j.next

/-- What an append can have done. -/
inductive Wrote (honest : Prop) (v : View) (j : Journal) (type : RecordType) (data : Body) :
    Except Err ℕ × Journal → View → Prop where
  | refused (e : Err) (fenced : Bool) :
      Wrote honest v j type data (.error e, { j with fenced := fenced }) v
  | lost (e : Err) (fenced : Bool) (seq : ℕ) :
      Wrote honest v j type data (.error e, { j with fenced := fenced })
        (v.push (newRecord v.task type j.next data seq))
  | known {r : Record} : r ∈ v.own → r.index = j.next → Heeds honest v type j.next data →
      Wrote honest v j type data (.ok r.seq, { j with seq := r.seq, next := j.next + 1 })
        (v.note (.stored v.task type data r.seq))
  | stored (seq : ℕ) : (∀ x ∈ v.own, x.index ≠ j.next) →
      Wrote honest v j type data (.ok seq, { j with seq := seq, next := j.next + 1 })
        ((v.push (newRecord v.task type j.next data seq)).note (.stored v.task type data seq))

lemma Wrote.task_eq (h : Wrote honest v j type data result w) : w.task = v.task := by
  cases h <;> rfl

lemma Numbered.wrote (h : Numbered j v) (hw : Wrote honest v j type data result w) :
    Numbered result.2 w := by
  cases hw with
  | refused _ _ => exact ⟨h.task, h.index_le, h.stored⟩
  | lost _ _ seq =>
    refine ⟨h.task, fun x hx => ?_, fun hmem => ?_⟩
    · rcases List.mem_cons.mp hx with rfl | hx
      · exact le_rfl
      · exact h.index_le x hx
    · obtain ⟨x, hx, hrest⟩ := h.stored hmem
      exact ⟨x, .tail _ hx, hrest⟩
  | @known r hr hindex _ =>
    refine ⟨h.task, fun x hx => (h.index_le x hx).trans (Nat.le_succ _), fun hmem => ?_⟩
    rcases List.mem_cons.mp hmem with heq | hmem
    · cases heq
      exact ⟨r, hr, rfl, Nat.lt_succ_of_le hindex.le⟩
    · obtain ⟨x, hx, hseq, hlt⟩ := h.stored hmem
      exact ⟨x, hx, hseq, hlt.trans (Nat.lt_succ_self _)⟩
  | stored seq _ =>
    refine ⟨h.task, fun x hx => ?_, fun hmem => ?_⟩
    · rcases List.mem_cons.mp hx with rfl | hx
      · exact Nat.le_succ _
      · exact (h.index_le x hx).trans (Nat.le_succ _)
    · rcases List.mem_cons.mp hmem with heq | hmem
      · cases heq
        exact ⟨_, .head _, rfl, Nat.lt_succ_self _⟩
      · obtain ⟨x, hx, hseq, hlt⟩ := h.stored hmem
        exact ⟨x, .tail _ hx, hseq, hlt.trans (Nat.lt_succ_self _)⟩

lemma Numbered.unreturned (h : Numbered j v) (hshows : Shows d honest v t) (hr : r ∈ v.own)
    (hindex : r.index = j.next) (type' : RecordType) (data' : Body) :
    .stored v.task type' data' r.seq ∉ v.seen := by
  intro hmem
  obtain ⟨x, hx, hseq, hlt⟩ := h.stored hmem
  obtain ⟨G, hinv⟩ := hshows
  obtain rfl := hinv.log.eq_of_seq (hinv.view.mem_own.mp hx).1 (hinv.view.mem_own.mp hr).1 hseq
  exact absurd hindex (Nat.ne_of_lt hlt)

lemma gives_stored (htask : task = v.task) (hj : Numbered j v) (hr : r ∈ v.own)
    (hindex : r.index = j.next) (hwritten : honest → r.type = type ∧ r.data = data) :
    Gives d honest (fun _ w _ => w = v.note (.stored v.task type data r.seq))
      (observe (.stored task type data r.seq)) v s := by
  subst htask
  refine gives_observe rfl fun t _ hshows => ?_
  have hstored := hshows.storedOk hr hwritten (hj.unreturned hshows hr hindex)
  obtain ⟨G, hinv⟩ := hshows
  exact ⟨hstored, fun hhonest => (hinv.opened hhonest).note (by simp)⟩

lemma gives_append (hj : Numbered j v) (h : Grounds d honest v j type data R) (hR : R j.seq s) :
    Gives d honest (fun a w _ => Wrote honest v j type data a w) (j.append type data) v s := by
  unfold Journal.append
  by_cases hfenced : j.fenced = true
  · rw [if_pos hfenced]
    exact gives_pure fun _ _ => .refused .fenced j.fenced
  rw [if_neg hfenced]
  by_cases hdone : j.done = true
  · rw [if_pos hdone]
    exact gives_pure fun _ _ => .refused .committed j.fenced
  rw [if_neg hdone]
  refine Gives.bind (gives_appendLoop hj.task (by simpa using hdone) h j.seq s hR) ?_
  intro result w t _ happended
  -- Success is observed; an older sequence than the handle's fences it.
  cases happended with
  | refused e fenced => exact gives_pure fun _ _ => .refused e fenced
  | lost e seq => exact gives_pure fun _ _ => .lost e j.fenced seq
  | @known r hr hindex hheeds =>
    unfold Journal.advance
    by_cases hold : r.seq < j.seq
    · rw [if_pos hold]
      exact gives_pure fun _ _ => .refused .fenced true
    rw [if_neg hold]
    refine Gives.bind (gives_stored hj.task hj hr hindex fun hhonest =>
      hheeds hhonest r hr hindex) ?_
    rintro a w u - rfl
    exact gives_pure fun _ _ => .known hr hindex hheeds
  | stored seq hfresh =>
    have hlost : Wrote honest v j type data (.error .transport, j)
      (v.push (newRecord v.task type j.next data seq)) := .lost .transport j.fenced seq
    unfold Journal.advance
    by_cases hold : seq < j.seq
    · rw [if_pos hold]
      exact gives_pure fun _ _ => .lost .fenced true seq
    rw [if_neg hold]
    refine Gives.bind (gives_stored (v := v.push (newRecord v.task type j.next data seq))
      hj.task (hj.wrote hlost) (r := newRecord v.task type j.next data seq) (.head _) rfl
      fun _ => ⟨rfl, rfl⟩) ?_
    rintro a w u - rfl
    exact gives_pure fun _ _ => .stored seq hfresh

end Dagnats.AgentJournal
