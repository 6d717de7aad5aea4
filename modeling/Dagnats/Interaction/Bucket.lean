import Mathlib.Logic.Function.Basic
import Dagnats.Interaction.Contract

/-!
# Key-value buckets with revisions

A bucket holds the last value written to each key. Every write gets the next
revision of the bucket, `create` is refused where the key exists, and `update`
is a compare-and-set on the revision of the value that is replaced. The server
may refuse a call, or accept a write and lose the answer; the caller sees an
error either way.

`Later` is what a caller may rely on between two of its calls: revisions only
grow, so a value found under a revision seen before is the value that was seen.
-/

namespace Interaction

variable {κ ν ε : Type} {key : κ} {v : ν} {rev : ℕ}

/-- The last value of each key with its revision, and the last revision that was
given out. -/
structure Bucket (κ ν : Type) where
  entries : κ → Option (ℕ × ν)
  last : ℕ

namespace Bucket

/-- No revision is beyond the last one, and none is zero. -/
def Numbered (b : Bucket κ ν) : Prop :=
  ∀ key rev v, b.entries key = some (rev, v) → 0 < rev ∧ rev ≤ b.last

/-- `b'` may be found some time after `b`. -/
def Later (b b' : Bucket κ ν) : Prop :=
  b.last ≤ b'.last ∧
    ∀ key rev v, b'.entries key = some (rev, v) → rev ≤ b.last → b.entries key = some (rev, v)

lemma Later.refl (b : Bucket κ ν) : b.Later b :=
  ⟨Nat.le_refl _, fun _ _ _ h _ => h⟩

lemma Later.trans {a b c : Bucket κ ν} (hab : a.Later b) (hbc : b.Later c) : a.Later c := by
  refine ⟨Nat.le_trans hab.1 hbc.1, fun key rev v h hle => ?_⟩
  exact hab.2 key rev v (hbc.2 key rev v h (Nat.le_trans hle hab.1)) hle

/-- A value under a revision that was read before is the value read then. -/
lemma Later.value_eq {b b' : Bucket κ ν} (h : b.Later b') (hb : b.Numbered) {v' : ν}
    (hread : b.entries key = some (rev, v)) (hnow : b'.entries key = some (rev, v')) : v' = v := by
  have hold := h.2 key rev v' hnow (hb key rev v hread).2
  rw [hread] at hold
  exact (Prod.mk.inj (Option.some.inj hold)).2.symm

variable [DecidableEq κ] (b : Bucket κ ν)

/-- An accepted write. -/
def write (key : κ) (v : ν) : Bucket κ ν :=
  ⟨Function.update b.entries key (some (b.last + 1, v)), b.last + 1⟩

@[simp] lemma write_self (key : κ) (v : ν) :
    (b.write key v).entries key = some (b.last + 1, v) := by
  simp [write]

lemma write_of_ne {other : κ} (v : ν) (h : other ≠ key) :
    (b.write key v).entries other = b.entries other := by
  simp [write, h]

lemma Numbered.write {b : Bucket κ ν} (hb : b.Numbered) (key : κ) (v : ν) :
    (b.write key v).Numbered := by
  intro key' rev v' h
  by_cases hkey : key' = key
  · subst hkey
    rw [write_self] at h
    obtain ⟨rfl, -⟩ := Prod.mk.inj (Option.some.inj h)
    exact ⟨Nat.succ_pos _, Nat.le_refl _⟩
  · rw [write_of_ne b v hkey] at h
    obtain ⟨hpos, hle⟩ := hb key' rev v' h
    exact ⟨hpos, Nat.le_succ_of_le hle⟩

lemma later_write (key : κ) (v : ν) : b.Later (b.write key v) := by
  refine ⟨Nat.le_succ _, fun key' rev v' h hle => ?_⟩
  by_cases hkey : key' = key
  · subst hkey
    rw [write_self] at h
    obtain ⟨rfl, -⟩ := Prod.mk.inj (Option.some.inj h)
    exact absurd hle (Nat.not_succ_le_self _)
  · rwa [write_of_ne b v hkey] at h

inductive Call (κ ν : Type) where
  | get (key : κ)
  | create (key : κ) (v : ν)
  | update (key : κ) (v : ν) (rev : ℕ)

/-- A read yields an error or what the key holds; a write tells whether it is
known to be accepted. -/
def Answer : Call κ ν → Type
  | .get _ => Option (Option (ℕ × ν))
  | .create .. => Bool
  | .update .. => Bool

/-- How the server treats a call. -/
inductive Choice where
  | done | fail | lost

def attempt (condition : Bool) (key : κ) (v : ν) : Choice → Option (Bool × Bucket κ ν)
  | .done => if condition then some (true, b.write key v) else some (false, b)
  | .lost => if condition then some (false, b.write key v) else none
  | .fail => some (false, b)

def exec : (op : Call κ ν) → Choice → Option (Answer op × Bucket κ ν)
  | .get key, .done => some (some (b.entries key), b)
  | .get _, .fail => some (none, b)
  | .get _, .lost => none
  | .create key v, c => b.attempt (b.entries key).isNone key v c
  | .update key v rev, c =>
    b.attempt ((b.entries key).map (·.1) = some rev) key v c

variable {b b' : Bucket κ ν}

/-- A write leaves the bucket as it is and is not known to be accepted, or its
condition holds and it is carried out. -/
lemma attempt_cases {condition : Bool} {c : Choice} {a : Bool}
    (h : b.attempt condition key v c = some (a, b')) :
    (b' = b ∧ a = false) ∨ (condition = true ∧ b' = b.write key v) := by
  cases c with
  | done =>
    simp only [attempt] at h
    split at h
    · next hcond => cases h; exact .inr ⟨hcond, rfl⟩
    · cases h; exact .inl ⟨rfl, rfl⟩
  | fail => cases h; exact .inl ⟨rfl, rfl⟩
  | lost =>
    simp only [attempt] at h
    split at h
    · next hcond => cases h; exact .inr ⟨hcond, rfl⟩
    · cases h

lemma get_cases {c : Choice} {a : Option (Option (ℕ × ν))}
    (h : b.exec (.get key) c = some (a, b')) : b' = b ∧ (a = none ∨ a = some (b.entries key)) := by
  cases c with
  | done => cases h; exact ⟨rfl, .inr rfl⟩
  | fail => cases h; exact ⟨rfl, .inl rfl⟩
  | lost => cases h

lemma create_cases {c : Choice} {a : Bool} (h : b.exec (.create key v) c = some (a, b')) :
    (b' = b ∧ a = false) ∨ (b.entries key = none ∧ b' = b.write key v) := by
  refine (attempt_cases h).imp id fun ⟨hcond, hb'⟩ => ?_
  exact ⟨Option.isNone_iff_eq_none.mp hcond, hb'⟩

lemma update_cases {c : Choice} {a : Bool} (h : b.exec (.update key v rev) c = some (a, b')) :
    (b' = b ∧ a = false) ∨ ((∃ old, b.entries key = some (rev, old)) ∧ b' = b.write key v) := by
  refine (attempt_cases h).imp id fun ⟨hcond, hb'⟩ => ?_
  obtain ⟨⟨_, old⟩, hold, rfl⟩ := Option.map_eq_some_iff.mp (of_decide_eq_true hcond)
  exact ⟨⟨old, hold⟩, hb'⟩

variable {op : Call κ ν} {c : Choice} {a : Answer op} (h : b.exec op c = some (a, b'))
include h

lemma exec_cases : b' = b ∨ ∃ key v, b' = b.write key v := by
  cases op with
  | get key => exact .inl (get_cases h).1
  | create key v => exact (create_cases h).imp And.left fun h => ⟨key, v, h.2⟩
  | update key v rev => exact (update_cases h).imp And.left fun h => ⟨key, v, h.2⟩

lemma exec_later : b.Later b' := by
  rcases exec_cases h with rfl | ⟨key, v, rfl⟩
  · exact Later.refl b'
  · exact later_write b key v

lemma exec_numbered (hb : b.Numbered) : b'.Numbered := by
  rcases exec_cases h with rfl | ⟨key, v, rfl⟩
  · exact hb
  · exact hb.write key v

end Bucket

end Interaction
