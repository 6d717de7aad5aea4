import Mathlib.Data.List.Basic

/-!
# Filters over token sequences

A subject is a sequence of tokens behind separators. A filter is one too, in
which one token stands for any single token and another one, at the end, for
the rest of the subject. A filter of plain tokens with such a token at its end
is matched by the subjects that start with the plain tokens.
-/

namespace Interaction

variable {τ : Type*} [DecidableEq τ] {one rest : τ}

def tokensMatch (one rest : τ) : List τ → List τ → Bool
  | [], [] => true
  | [], _ :: _ => false
  | _ :: _, [] => false
  | f :: fs, t :: ts =>
    (f = rest && fs.isEmpty) || ((f = one || f = t) && tokensMatch one rest fs ts)

/-- A filter token that stands for itself only. -/
def Literal (one rest : τ) (f : τ) : Prop :=
  f ≠ one ∧ f ≠ rest

lemma tokensMatch_literal {f : τ} (hf : Literal one rest f) (fs ts : List τ) (t : τ) :
    tokensMatch one rest (f :: fs) (t :: ts) = true ↔ f = t ∧ tokensMatch one rest fs ts =
    true := by
  simp [tokensMatch, hf.1, hf.2]

lemma tokensMatch_append {fs : List τ} (hfs : ∀ f ∈ fs, Literal one rest f) (gs ts : List τ) :
    tokensMatch one rest (fs ++ gs) ts = true ↔ ∃ us, ts = fs ++ us ∧ tokensMatch one rest gs us =
    true := by
  induction fs generalizing ts with
  | nil => simp
  | cons f fs ih =>
    have hf := hfs f (.head _)
    cases ts with
    | nil => simp [tokensMatch]
    | cons t ts =>
      rw [List.cons_append, tokensMatch_literal hf, ih (fun g hg => hfs g (.tail f hg))]
      constructor
      · rintro ⟨rfl, us, rfl, h⟩
        exact ⟨us, rfl, h⟩
      · rintro ⟨us, hus, h⟩
        obtain ⟨rfl, rfl⟩ := List.cons.inj hus
        exact ⟨rfl, us, rfl, h⟩

lemma tokensMatch_append_self {gs : List τ} (hgs : gs ≠ []) (fs us : List τ) :
    tokensMatch one rest (fs ++ gs) (fs ++ us) = tokensMatch one rest gs us := by
  induction fs with
  | nil => rfl
  | cons f fs ih =>
    have hmore : (fs ++ gs).isEmpty = false := by simp [hgs]
    simp [tokensMatch, hmore, ih]

lemma tokensMatch_one (hne : one ≠ rest) (us : List τ) :
    tokensMatch one rest [one] us = true ↔ ∃ t, us = [t] := by
  cases us with
  | nil => simp [tokensMatch]
  | cons t ts => cases ts <;> simp [tokensMatch, hne]

lemma tokensMatch_rest (us : List τ) : tokensMatch one rest [rest] us = true ↔ us ≠ [] := by
  cases us with
  | nil | cons t ts => simp [tokensMatch]

end Interaction
