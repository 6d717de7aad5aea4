import Mathlib.Data.List.Pairwise
import Mathlib.Order.Lattice

/-!
# Lists that only go up

A list that takes in a new element only if it exceeds all it has. Over a sequence
of candidates it keeps those that are larger than everything before them.
-/

namespace Interaction

variable {α : Type*} [LinearOrder α] {L as bs : List α} {a b : α}

/-- Add an element that exceeds the last one. -/
def climb (L : List α) (a : α) : List α :=
  if L.getLast?.all (· < a) then L ++ [a] else L

section

variable (h : L.Pairwise (· < ·))
include h

lemma forall_lt_iff_getLast? :
    L.getLast?.all (· < a) = true ↔ ∀ x ∈ L, x < a := by
  rcases List.eq_nil_or_concat L with rfl | ⟨L, y, rfl⟩
  · simp
  · rw [List.concat_eq_append] at h ⊢
    simp only [List.getLast?_append, List.getLast?_singleton, Option.some_or,
      Option.all_some, decide_eq_true_eq]
    constructor
    · intro hy x hx
      rcases List.mem_append.mp hx with hx | hx
      · exact lt_trans ((List.pairwise_append.mp h).2.2 x hx y (List.mem_singleton_self y)) hy
      · rwa [List.mem_singleton.mp hx]
    · intro hall
      exact hall y (List.mem_append_right L (List.mem_singleton_self y))

lemma climb_of_lt (ha : ∀ x ∈ L, x < a) : climb L a = L ++ [a] :=
  if_pos ((forall_lt_iff_getLast? h).mpr ha)

lemma climb_pairwise : (climb L a).Pairwise (· < ·) := by
  unfold climb
  split
  · next hlast =>
    apply List.pairwise_append.mpr
    refine ⟨h, List.pairwise_singleton _ a, ?_⟩
    intro x hx y hy
    rw [List.mem_singleton.mp hy]
    exact (forall_lt_iff_getLast? h).mp hlast x hx
  · exact h

end

lemma mem_climb (h : b ∈ climb L a) : b ∈ L ∨ b = a := by
  unfold climb at h
  split at h
  · simpa using h
  · exact .inl h

lemma subset_climb : L ⊆ climb L a := by
  unfold climb
  split
  · exact List.subset_append_left L [a]
  · exact List.Subset.refl L

lemma foldl_climb_pairwise (h : L.Pairwise (· < ·)) : (as.foldl climb L).Pairwise (· < ·) := by
  induction as generalizing L with
  | nil => exact h
  | cons a as ih => exact ih (climb_pairwise h)

lemma mem_foldl_climb (h : b ∈ as.foldl climb L) : b ∈ L ∨ b ∈ as := by
  induction as generalizing L with
  | nil => exact .inl h
  | cons a as ih =>
    rcases ih h with hL | has
    · rcases mem_climb hL with hL | rfl
      · exact .inl hL
      · exact .inr (.head _)
    · exact .inr (.tail a has)

lemma subset_foldl_climb (L as : List α) : L ⊆ as.foldl climb L := by
  induction as generalizing L with
  | nil => exact List.Subset.refl L
  | cons a as ih => exact List.Subset.trans subset_climb (ih (climb L a))

lemma foldl_climb_eq_append (h : (L ++ as).Pairwise (· < ·)) : as.foldl climb L = L ++ as := by
  induction as generalizing L with
  | nil => simp
  | cons a as ih =>
    obtain ⟨hL, -, hcross⟩ := List.pairwise_append.mp h
    have hclimb : climb L a = L ++ [a] :=
      climb_of_lt hL fun x hx => hcross x hx a (.head _)
    rw [List.foldl_cons, hclimb, ih]
    · simp
    · simpa using h

lemma mem_foldl_climb_of_least (hL : L.Pairwise (· < ·)) (hlt : ∀ x ∈ L, x < a)
    (has : as.Pairwise (· ≤ ·)) (ha : a ∈ as) (hle : ∀ x ∈ as, a ≤ x) : a ∈ as.foldl climb L := by
  cases as with
  | nil => cases ha
  | cons b as =>
    have hab : b = a := by
      apply le_antisymm
      · rcases List.mem_cons.mp ha with rfl | ha
        · exact le_rfl
        · exact List.rel_of_pairwise_cons has ha
      · exact hle b (.head _)
    subst hab
    rw [List.foldl_cons, climb_of_lt hL hlt]
    exact subset_foldl_climb _ as (List.mem_append_right L (List.mem_singleton_self b))

end Interaction
