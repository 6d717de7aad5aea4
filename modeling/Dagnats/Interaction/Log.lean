import Mathlib.Data.List.Infix

/-!
# Append-only logs

A log is a list with its newest entry first. The position of an entry is the
number of entries before it, so it does not change when the log grows.
`History P` says that every entry was appended in accordance with `P`, which
sees the log as it was before the entry.
-/

namespace Interaction

variable {α : Type} {log log' : List α} {i j : ℕ} {a b : α}

/-- The entry `a` stands at position `i` of the log. -/
def At (log : List α) (i : ℕ) (a : α) : Prop :=
  ∃ older, (a :: older) <:+ log ∧ older.length = i

namespace At

lemma mono (h : At log i a) (hlog : log <:+ log') : At log' i a := by
  obtain ⟨older, hsuffix, hlen⟩ := h
  exact ⟨older, hsuffix.trans hlog, hlen⟩

/-- An entry stands in every part of the log that reaches so far. -/
lemma restrict (h : At log' i a) (hlog : log <:+ log') (hi : i < log.length) : At log i a := by
  obtain ⟨older, hsuffix, rfl⟩ := h
  exact ⟨older, List.suffix_of_suffix_length_le hsuffix hlog hi, rfl⟩

lemma lt (h : At log i a) : i < log.length := by
  obtain ⟨older, hsuffix, rfl⟩ := h
  exact hsuffix.length_le

lemma mem (h : At log i a) : a ∈ log := by
  obtain ⟨older, hsuffix, _⟩ := h
  exact hsuffix.subset (by simp)

lemma head (log : List α) (a : α) : At (a :: log) log.length a :=
  ⟨log, List.suffix_rfl, rfl⟩

lemma of_mem (h : a ∈ log) : ∃ i, At log i a := by
  induction log with
  | nil => cases h
  | cons b log ih =>
    rcases List.mem_cons.mp h with rfl | hmem
    · exact ⟨log.length, head log a⟩
    · obtain ⟨i, hat⟩ := ih hmem
      exact ⟨i, hat.mono (List.suffix_cons b log)⟩

lemma unique (ha : At log i a) (hb : At log i b) : a = b := by
  obtain ⟨older, hsuffix, hlen⟩ := ha
  obtain ⟨older', hsuffix', hlen'⟩ := hb
  have hpre := List.suffix_of_suffix_length_le hsuffix hsuffix' (by simp [hlen, hlen'])
  have heq : a :: older = b :: older' := hpre.eq_of_length (by simp [hlen, hlen'])
  exact (List.cons.inj heq).1

lemma cons_iff : At (b :: log) i a ↔ (i = log.length ∧ a = b) ∨ At log i a := by
  constructor
  · rintro ⟨older, hsuffix, hlen⟩
    rcases List.suffix_cons_iff.mp hsuffix with heq | hin
    · obtain ⟨rfl, rfl⟩ := List.cons.inj heq
      exact .inl ⟨hlen.symm, rfl⟩
    · exact .inr ⟨older, hin, hlen⟩
  · rintro (⟨rfl, rfl⟩ | h)
    · exact head log a
    · exact h.mono (List.suffix_cons b log)

lemma of_getElem? (h : log.reverse[i]? = some a) : At log i a := by
  induction log with
  | nil => simp at h
  | cons b log ih =>
    rw [List.reverse_cons, List.getElem?_append] at h
    split at h
    · exact (ih h).mono (List.suffix_cons b log)
    · next hlt =>
      simp only [List.length_reverse, not_lt] at hlt
      rw [List.getElem?_singleton] at h
      split at h
      · next hz =>
        rw [List.length_reverse] at hz
        have hi : i = log.length := by omega
        rw [hi, ← Option.some.inj h]
        exact head log b
      · cases h

end At

/-- Every entry of the log was appended in accordance with `P`. -/
inductive History (P : List α → α → Prop) : List α → Prop where
  | nil : History P []
  | cons {older : List α} {a : α} : History P older → P older a → History P (a :: older)

namespace History

variable {P Q : List α → α → Prop}

lemma tail (h : History P (a :: log)) : History P log := by
  cases h with
  | cons h _ => exact h

lemma head (h : History P (a :: log)) : P log a := by
  cases h with
  | cons _ h => exact h

variable (h : History P log)
include h

lemma suffix (hlog : log' <:+ log) : History P log' := by
  induction h with
  | nil => rw [List.suffix_nil.mp hlog]; exact .nil
  | @cons older a hold ha ih =>
    rcases List.suffix_cons_iff.mp hlog with rfl | hin
    · exact .cons hold ha
    · exact ih hin

/-- What was known when the entry at a position was appended. -/
lemma entry (hat : At log i a) : ∃ older, (a :: older) <:+ log ∧
    older.length = i ∧ History P older ∧ P older a := by
  obtain ⟨older, hsuffix, hlen⟩ := hat
  have hcons := h.suffix hsuffix
  exact ⟨older, hsuffix, hlen, hcons.tail, hcons.head⟩

/-- A history can refer to the log it is part of. -/
lemma within :
    History (fun older a => (a :: older) <:+ log ∧ P older a) log := by
  have hpart : ∀ {part : List α}, History P part → part <:+ log →
      History (fun older a => (a :: older) <:+ log ∧ P older a) part := by
    intro part hpart
    induction hpart with
    | nil => exact fun _ => .nil
    | @cons older a _ ha ih =>
      intro hin
      exact .cons (ih ((List.suffix_cons a older).trans hin)) ⟨hin, ha⟩
  exact hpart h List.suffix_rfl

end History

end Interaction
