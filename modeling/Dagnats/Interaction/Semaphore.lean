import Mathlib.Data.Int.Notation
import Mathlib.Data.List.Nodup

/-!
# Counting semaphores with named holders

A semaphore is the list of those who hold one of its slots. Asking for a slot
that one holds already is granted and changes nothing, and giving back a slot
that one does not hold changes nothing.
-/

namespace Interaction

namespace Semaphore

variable {α : Type} {limit : ℤ} {m m' : α} {members : List α}

/-- Nobody holds two slots, and there are no more holders than slots. -/
structure InBounds (limit : ℤ) (members : List α) : Prop where
  nodup : members.Nodup
  bounded : (members.length : ℤ) ≤ limit

lemma InBounds.nil (h : 0 ≤ limit) : InBounds limit ([] : List α) :=
  ⟨List.nodup_nil, h⟩

lemma InBounds.append (h : InBounds limit members) (hmem : m ∉ members)
    (hroom : (members.length : ℤ) < limit) : InBounds limit (members ++ [m]) := by
  refine ⟨?_, ?_⟩
  · rw [List.nodup_append]
    refine ⟨h.nodup, List.nodup_singleton m, ?_⟩
    intro a ha b hb
    rw [List.mem_singleton] at hb
    rintro rfl
    exact hmem (hb ▸ ha)
  · rw [List.length_append, List.length_singleton]
    push_cast
    omega

variable [DecidableEq α]

/-- The members after `m` gave its slot back. -/
def release (m : α) (members : List α) : List α :=
  members.filter (· ≠ m)

lemma InBounds.release (h : InBounds limit members) (m : α) :
    InBounds limit (release m members) := by
  refine ⟨h.nodup.filter _, ?_⟩
  have hle : (Semaphore.release m members).length ≤ members.length := List.length_filter_le _ _
  have := h.bounded
  omega

lemma mem_release : m' ∈ release m members ↔ m' ∈ members ∧ m' ≠ m := by
  simp [release]

end Semaphore

end Interaction
