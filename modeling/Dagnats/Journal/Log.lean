import Dagnats.Interaction.Log
import Dagnats.Journal.Stream

/-!
# Logs of a step journal

What a log looks like when every record was appended where it belongs
(`Follows`): a claim behind the claims of older deliveries of its message, any
other record right behind a record of its own claim. So the records of a claim
stand in one block.
-/

namespace Dagnats.AgentJournal

open Interaction

/-- The delivery that a claim belongs to. -/
def Record.delivery (r : Record) : ℕ × ℕ := (r.streamSeq, r.delivered)

def Task.delivery (t : Task) : ℕ × ℕ := (t.streamSeq, t.delivered)

lemma msgID_inj {d : Dispatches} {n k i n' k' i' : ℕ}
    (h : msgID (d.task n k) i = msgID (d.task n' k') i') : n = n' ∧ k = k' ∧ i = i' := by
  have htext : ∀ (t : Task) (i : ℕ), (msgID t i).toList =
      behind '.' (t.runID.toList ++ '.' :: t.stepID.toList)
        ([i, t.delivered, t.streamSeq, t.iteration, t.attempt].map
          fun n => (toString n).toList) := by
    intro t i
    simp [msgID, behind]
  have hchars := congrArg String.toList h
  rw [htext, htext] at hchars
  obtain ⟨hnumbers, -⟩ := behind_numbers_inj (by decide) (by rfl) hchars
  simp only [Dispatches.task, List.cons.injEq] at hnumbers
  exact ⟨hnumbers.2.2.1, hnumbers.2.1, hnumbers.1⟩

/-- The record names a delivery of the dispatches, and has its id. -/
structure Dispatched (d : Dispatches) (r : Record) : Prop where
  streamSeq : r.streamSeq ≠ 0
  iteration : r.iteration = d.iteration r.streamSeq
  attempt : r.attempt = d.attempt r.streamSeq
  nonce : r.dispatchNonce = d.nonce r.streamSeq
  id : r.msgID = msgID (d.task r.streamSeq r.delivered) r.index

variable {d : Dispatches} {r x c : Record} {log older : List Record} {task : Task}

lemma Record.sameClaim_iff : r.sameClaim task = true ↔ r.iteration = task.iteration ∧ r.attempt =
    task.attempt ∧ r.dispatchNonce = task.dispatchNonce ∧ r.delivery = task.delivery := by
  simp [Record.sameClaim, Record.delivery, Task.delivery]
  tauto

lemma Dispatched.sameClaim_taskOf (hr : Dispatched d r) (hx : Dispatched d x) :
    x.sameClaim r.taskOf = true ↔ x.delivery = r.delivery := by
  rw [Record.sameClaim_iff]
  constructor
  · exact fun h => h.2.2.2
  · intro hdelivery
    have hstream : x.streamSeq = r.streamSeq := congrArg Prod.fst hdelivery
    refine ⟨?_, ?_, ?_, hdelivery⟩
    · rw [hx.iteration, hstream]
      exact hr.iteration.symm
    · rw [hx.attempt, hstream]
      exact hr.attempt.symm
    · rw [hx.nonce, hstream]
      exact hr.nonce.symm

/-- Records with one id are records of one delivery, at one index. -/
lemma Dispatched.of_msgID (hr : Dispatched d r) (hx : Dispatched d x)
    (h : x.msgID = r.msgID) : x.delivery = r.delivery ∧ x.index = r.index := by
  rw [hr.id, hx.id] at h
  obtain ⟨hn, hk, hi⟩ := msgID_inj h
  exact ⟨Prod.ext hn hk, hi⟩

/-- The record is appended where it belongs. -/
structure Follows (d : Dispatches) (older : List Record) (r : Record) : Prop where
  dispatched : Dispatched d r
  seq : r.seq = older.length + 1
  unsent : ∀ x ∈ older, x.msgID ≠ r.msgID
  monotone : ∀ x ∈ older, x.iteration ≤ r.iteration
  own : r.type ≠ .claim → ∃ x ∈ older.head?, x.delivery = r.delivery
  claim : r.type = .claim → ∀ x ∈ older, x.streamSeq = r.streamSeq → x.delivered < r.delivered
  commit : r.type = .commit → ∃ c, r.data = .commit c

/-- Every record was appended where it belongs; the newest record comes first. -/
abbrev LogOk (d : Dispatches) : List Record → Prop := History (Follows d)

namespace LogOk

section

variable (h : LogOk d log)
include h

lemma dispatched (hr : r ∈ log) : Dispatched d r := by
  induction h with
  | nil => cases hr
  | cons _ hfollows ih =>
    rcases List.mem_cons.mp hr with rfl | hr
    · exact hfollows.dispatched
    · exact ih hr

lemma seq_le (hr : r ∈ log) : r.seq ≤ log.length := by
  induction h with
  | nil => cases hr
  | cons _ hfollows ih =>
    rcases List.mem_cons.mp hr with rfl | hr
    · exact hfollows.seq.le
    · exact (ih hr).trans (Nat.le_succ _)

lemma tailSeq_eq : tailSeq log.head? = log.length := by
  cases h with
  | nil => rfl
  | cons _ hfollows => exact hfollows.seq

/-- What comes later has the higher sequence, the later iteration and another id. -/
lemma pairwise :
    log.Pairwise fun r x => x.seq < r.seq ∧ x.iteration ≤ r.iteration ∧ x.msgID ≠ r.msgID := by
  induction h with
  | nil => exact .nil
  | cons hlog hfollows ih =>
    refine .cons (fun x hx => ⟨?_, hfollows.monotone x hx, hfollows.unsent x hx⟩) ih
    rw [hfollows.seq]
    exact Nat.lt_succ_of_le (LogOk.seq_le hlog hx)

section

variable (hr : r ∈ log) (hx : x ∈ log)
include hr hx

lemma ordered : r = x ∨ (x.seq < r.seq ∧ ∃ older, Follows d older r ∧ x ∈ older) ∨
    (r.seq < x.seq ∧ ∃ older, Follows d older x ∧ r ∈ older) := by
  induction h with
  | nil => cases hr
  | cons hlog hfollows ih =>
    have hlt := fun y (hy : y ∈ _) => Nat.lt_of_le_of_lt (LogOk.seq_le hlog hy) hfollows.seq.ge
    rcases List.mem_cons.mp hr with rfl | hr' <;> rcases List.mem_cons.mp hx with rfl | hx'
    · exact .inl rfl
    · exact .inr (.inl ⟨hlt x hx', _, hfollows, hx'⟩)
    · exact .inr (.inr ⟨hlt r hr', _, hfollows, hr'⟩)
    · exact ih hr' hx'

lemma eq_of_seq (hseq : r.seq = x.seq) : r = x := by
  rcases h.ordered hr hx with heq | ⟨hlt, -⟩ | ⟨hlt, -⟩
  · exact heq
  · exact absurd hseq hlt.ne'
  · exact absurd hseq hlt.ne

lemma iteration_le (hseq : x.seq ≤ r.seq) : x.iteration ≤ r.iteration := by
  rcases h.ordered hr hx with rfl | ⟨-, _, hfollows, hmem⟩ | ⟨hlt, -⟩
  · exact le_rfl
  · exact hfollows.monotone x hmem
  · exact absurd hlt hseq.not_gt

lemma claim_unique (hrc : r.type = .claim) (hxc : x.type = .claim)
    (hdelivery : r.delivery = x.delivery) : r = x := by
  obtain ⟨hstream, hdeliv⟩ := Prod.mk.inj hdelivery
  rcases h.ordered hr hx with heq | ⟨-, _, hfollows, hmem⟩ | ⟨-, _, hfollows, hmem⟩
  · exact heq
  · exact absurd hdeliv (hfollows.claim hrc x hmem hstream.symm).ne'
  · exact absurd hdeliv (hfollows.claim hxc r hmem hstream).ne

end

lemma delivered_lt (hr : r ∈ log) (hrc : r.type = .claim) (hx : x ∈ log) (hseq : x.seq < r.seq)
    (hstream : x.streamSeq = r.streamSeq) : x.delivered < r.delivered := by
  rcases h.ordered hr hx with rfl | ⟨-, _, hfollows, hmem⟩ | ⟨hlt, -⟩
  · exact absurd hseq (lt_irrefl _)
  · exact hfollows.claim hrc x hmem hstream
  · exact absurd hlt hseq.not_gt

/-- What was stored up to a moment can be told by the sequences. -/
lemma filter_seq_le (hold : older <:+ log) : log.filter (·.seq ≤ older.length) = older := by
  induction h with
  | nil =>
    rw [List.suffix_nil.mp hold]
    rfl
  | @cons rest r hlog hfollows ih =>
    rcases List.suffix_cons_iff.mp hold with rfl | hold
    · rw [List.filter_eq_self]
      intro x hx
      exact decide_eq_true (LogOk.seq_le (.cons hlog hfollows) hx)
    · rw [List.filter_cons_of_neg ?_, ih hold]
      have hle := hold.length_le
      have hseq := hfollows.seq
      rw [decide_eq_true_eq]
      omega

/-- The records of a claim, up to any of them, stand in one block behind it. -/
lemma exists_claim (hr : r ∈ log) : ∃ c ∈ log, c.type = .claim ∧ c.delivery = r.delivery ∧ c.seq ≤
    r.seq ∧ ∀ x ∈ log, c.seq ≤ x.seq → x.seq ≤ r.seq → x.delivery = r.delivery := by
  induction h generalizing r with
  | nil => cases hr
  | @cons older newest hlog hfollows ih =>
    have hle : ∀ {x}, x ∈ older → x.seq < newest.seq := fun hx => by
      rw [hfollows.seq]
      exact Nat.lt_succ_of_le (LogOk.seq_le hlog hx)
    rcases List.mem_cons.mp hr with rfl | hr'
    · by_cases htype : r.type = .claim
      · refine ⟨r, .head _, htype, rfl, le_rfl, fun x hx hge _ => ?_⟩
        rcases List.mem_cons.mp hx with rfl | hx
        · rfl
        · exact absurd (hle hx) (Nat.not_lt.mpr hge)
      · -- The record stands right behind one of its own claim.
        obtain ⟨tail, htail, hdelivery⟩ := hfollows.own htype
        have hmem := List.mem_of_mem_head? htail
        obtain ⟨c, hc, hclaim, hown, hseq, hblock⟩ := ih hmem
        refine ⟨c, .tail _ hc, hclaim, hown.trans hdelivery,
          hseq.trans (hle hmem).le, fun x hx hge _ => ?_⟩
        rcases List.mem_cons.mp hx with rfl | hx
        · rfl
        · refine (hblock x hx hge ?_).trans hdelivery
          have htailSeq : tail.seq = older.length := by
            rw [← LogOk.tailSeq_eq hlog, Option.mem_def.mp htail]
            rfl
          exact (LogOk.seq_le hlog hx).trans htailSeq.ge
    · obtain ⟨c, hc, hclaim, hown, hseq, hblock⟩ := ih hr'
      refine ⟨c, .tail _ hc, hclaim, hown, hseq, fun x hx hge hxr => ?_⟩
      rcases List.mem_cons.mp hx with rfl | hx'
      · exact absurd (hle hr') (Nat.not_lt.mpr hxr)
      · exact hblock x hx' hge hxr

lemma no_claim_between (hr : r ∈ log) (hc : c ∈ log) (hclaim : c.type = .claim)
    (hown : c.delivery = r.delivery) (hx : x ∈ log) (hxc : x.type = .claim) (hcx : c.seq < x.seq) :
    ¬x.seq ≤ r.seq := by
  intro hxr
  obtain ⟨c', hc', hclaim', hown', -, hblock⟩ := h.exists_claim hr
  obtain rfl := h.claim_unique hc' hc hclaim' hclaim (hown'.trans hown.symm)
  have hdelivery := hblock x hx hcx.le hxr
  have heq := h.claim_unique hx hc hxc hclaim (hdelivery.trans hown.symm)
  rw [heq] at hcx
  exact lt_irrefl _ hcx

end

end LogOk

lemma checkFencingLoop_append (claims front back : List Record) :
    checkFencingLoop claims (front ++ back) = checkFencingLoop claims front ++
        checkFencingLoop (claims ++ front.filter fun r => r.type = .claim) back := by
  induction front generalizing claims with
  | nil => simp [checkFencingLoop]
  | cons r front ih =>
    by_cases htype : r.type = .claim <;> simp [checkFencingLoop, htype, ih]

lemma LogOk.checkRecord_eq_nil (h : LogOk d (r :: older)) (htype : r.type ≠ .claim) :
    checkRecord (older.reverse.filter fun r => r.type = .claim) r = [] := by
  cases h with
  | cons hlog hfollows =>
    have hok : LogOk d (r :: older) := .cons hlog hfollows
    obtain ⟨c, hc, hclaim, hown, -, -⟩ := hok.exists_claim (.head _)
    have hcolder : c ∈ older := by
      rcases List.mem_cons.mp hc with rfl | hc
      · exact absurd hclaim htype
      · exact hc
    have hsame : c.sameClaim r.taskOf = true :=
      (hfollows.dispatched.sameClaim_taskOf (LogOk.dispatched hlog hcolder)).mpr hown
    unfold checkRecord
    split
    · next hnone =>
      -- The own claim is among the claims.
      have := List.find?_eq_none.mp hnone c (by simp [hcolder, hclaim])
      exact absurd hsame this
    · next own hfound =>
      have hmem := List.mem_of_find?_eq_some hfound
      simp only [List.mem_reverse, List.mem_filter, decide_eq_true_eq] at hmem
      have hownClaim := List.find?_some hfound
      have hdelivery : own.delivery = r.delivery :=
        (hfollows.dispatched.sameClaim_taskOf (LogOk.dispatched hlog hmem.1)).mp hownClaim
      split
      · next x hx =>
        have hxmem := List.mem_of_find?_eq_some hx
        have hbetween := List.find?_some hx
        simp only [List.mem_reverse, List.mem_filter, decide_eq_true_eq] at hxmem
        simp only [Bool.and_eq_true, decide_eq_true_eq] at hbetween
        have := hok.no_claim_between (.head _) (.tail _ hmem.1) hmem.2
          hdelivery (.tail _ hxmem.1) hxmem.2 hbetween.1.1
        exact absurd hbetween.1.2.le this
      · rfl

lemma LogOk.checkFencing_eq_nil (h : LogOk d log) : checkFencing log.reverse = [] := by
  induction h with
  | nil => rfl
  | @cons older r hlog hfollows ih =>
    rw [checkFencing, List.reverse_cons, checkFencingLoop_append]
    rw [checkFencing] at ih
    rw [ih, List.nil_append, List.nil_append]
    by_cases htype : r.type = .claim
    · simp [checkFencingLoop, htype]
    · have hrecord := LogOk.checkRecord_eq_nil (.cons hlog hfollows) htype
      rw [checkFencingLoop, if_neg htype, hrecord]
      rfl

end Dagnats.AgentJournal
