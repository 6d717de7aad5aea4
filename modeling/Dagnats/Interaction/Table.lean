import Mathlib.Data.List.Basic

/-!
# Finite tables

A finite table maps keys to values and is read with `find?`. It is kept as an
association list, so that tables can be evaluated and iterated over; the lemmas
below speak only of lookups.
-/

namespace Interaction

/-- A finite table from keys to values. -/
structure Table (κ ν : Type) where
  entries : List (κ × ν)
  deriving DecidableEq

namespace Table

variable {κ ν : Type} [DecidableEq κ]

def empty : Table κ ν := ⟨[]⟩

private def lookup : List (κ × ν) → κ → Option ν
  | [], _ => none
  | (k, v) :: rest, key => if k = key then some v else lookup rest key

private def insert : List (κ × ν) → κ → ν → List (κ × ν)
  | [], key, value => [(key, value)]
  | (k, v) :: rest, key, value =>
    if k = key then (key, value) :: rest
    else (k, v) :: insert rest key value

variable (t : Table κ ν) (key : κ)

def find? : Option ν :=
  lookup t.entries key

def has : Bool :=
  (t.find? key).isSome

def set (value : ν) : Table κ ν :=
  ⟨insert t.entries key value⟩

def keys : List κ :=
  t.entries.map (·.1)

def mapVals (f : κ → ν → ν) : Table κ ν :=
  ⟨t.entries.map fun e => (e.1, f e.1 e.2)⟩

private theorem lookup_insert (es : List (κ × ν)) (key other : κ) (value : ν) :
    lookup (insert es key value) other = if key = other then some value else lookup es other := by
  induction es with
  | nil => simp [insert, lookup]
  | cons e es ih =>
    obtain ⟨k, v⟩ := e
    by_cases hk : k = key
    · subst hk
      by_cases ho : k = other <;> simp [insert, lookup, ho]
    · by_cases ho : k = other
      · subst ho
        simp [insert, lookup, hk, Ne.symm hk]
      · simp [insert, lookup, hk, ho, ih]

private theorem insert_insert (es : List (κ × ν)) (key : κ) (v v' : ν) :
    insert (insert es key v) key v' = insert es key v' := by
  induction es with
  | nil => simp [insert]
  | cons e es ih =>
    obtain ⟨k, u⟩ := e
    by_cases hk : k = key <;> simp [insert, hk, ih]

@[simp] lemma set_set (v v' : ν) : (t.set key v).set key v' = t.set key v' := by
  simp [set, insert_insert]

lemma find?_set (key other : κ) (value : ν) :
    (t.set key value).find? other = if key = other then some value else t.find? other :=
  lookup_insert t.entries key other value

@[simp] lemma find?_set_self (value : ν) : (t.set key value).find? key = some value := by
  simp [find?_set]

lemma find?_set_of_ne {key other : κ} (value : ν) (h : key ≠ other) :
    (t.set key value).find? other = t.find? other := by
  simp [find?_set, h]

@[simp] lemma find?_mapVals (f : κ → ν → ν) (key : κ) :
    (t.mapVals f).find? key = (t.find? key).map (f key) := by
  obtain ⟨es⟩ := t
  induction es with
  | nil => rfl
  | cons e es ih =>
    obtain ⟨k, v⟩ := e
    by_cases hk : k = key
    · subst hk
      simp [mapVals, find?, lookup]
    · simpa [mapVals, find?, lookup, hk] using ih

lemma mem_keys : key ∈ t.keys ↔ t.has key = true := by
  obtain ⟨es⟩ := t
  induction es with
  | nil => simp [keys, has, find?, lookup]
  | cons e es ih =>
    obtain ⟨k, v⟩ := e
    by_cases hk : k = key
    · simp [keys, has, find?, lookup, hk]
    · have hk' : ¬key = k := fun h => hk h.symm
      simpa [keys, has, find?, lookup, hk, hk'] using ih

private theorem insert_keys (es : List (κ × ν)) (key : κ) (value : ν) :
    (insert es key value).map (·.1) =
    if (lookup es key).isSome then es.map (·.1) else es.map (·.1) ++ [key] := by
  induction es with
  | nil => simp [insert, lookup]
  | cons e es ih =>
    obtain ⟨k, v⟩ := e
    by_cases hk : k = key
    · simp [insert, lookup, hk]
    · by_cases hin : (lookup es key).isSome <;> simp_all [insert, lookup]

lemma keys_set (value : ν) :
    (t.set key value).keys = if t.has key then t.keys else t.keys ++ [key] :=
  insert_keys t.entries key value

end Table

end Interaction
