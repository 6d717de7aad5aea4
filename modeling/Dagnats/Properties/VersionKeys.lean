import Dagnats.Dag.Path

/-!
# Keys of stored definitions

The latest definition of a workflow is stored under its name, and each version under
the name, `.v.` and the hash. Names may contain dots and `.v.` themselves; the length
of a hash tells where the name ends.
-/

namespace Dagnats

/-- Sixty-four lower-case hexadecimal digits. -/
def isHex64 (s : List Char) : Bool :=
  s.length = 64 && s.all fun c => ('0' ≤ c && c ≤ '9') || ('a' ≤ c && c ≤ 'f')

def defVersionKey (name hash : String) : Except Fault String :=
  if name = "" then .error (.panic "DefVersionKey: name must not be empty")
  else if hash = "" then .error (.panic "DefVersionKey: hash must not be empty")
  else .ok (name ++ ".v." ++ hash)

/-- The key ends in `.v.` and a hash. -/
def isDefVersionKey (key : String) : Bool :=
  let tail := key.toList.drop (key.toList.length - 67)
  tail.take 3 = ".v.".toList && isHex64 (tail.drop 3)

/-- `none` stands for false. -/
def defHashFromVersionKey (key name : String) : Except Fault (Option String) :=
  if name = "" then .error (.panic "DefHashFromVersionKey: name must not be empty")
  else
    let start := (name ++ ".v.").toList
    let candidate := key.toList.drop start.length
    if key.toList.length = start.length + 64 && key.toList.take start.length = start &&
      isHex64 candidate then .ok (some (String.ofList candidate))
    else .ok none

/-- `registerWorkflowInner` accepts the name: it is not empty, and not of the form of the
key of a version. -/
def Registrable (name : String) : Prop :=
  name ≠ "" ∧ isDefVersionKey name = false

variable {name name' hash hash' key : String}

lemma length_of_isHex64 {s : List Char} (h : isHex64 s = true) : s.length = 64 := by
  unfold isHex64 at h
  simp only [Bool.and_eq_true, decide_eq_true_eq] at h
  exact h.1

section

variable (hname : name ≠ "") (hhash : isHex64 hash.toList = true)
include hname hhash

lemma defVersionKey_eq_iff : defVersionKey name hash = .ok key ↔
    key.toList = (name ++ ".v.").toList ++ hash.toList := by
  have hne : hash ≠ "" := by
    rintro rfl
    cases length_of_isHex64 hhash
  rw [defVersionKey, if_neg hname, if_neg hne, Except.ok.injEq, ← String.toList_append,
    String.toList_inj]
  exact eq_comm

lemma defHashFromVersionKey_eq_iff : defHashFromVersionKey key name = .ok (some hash) ↔
    defVersionKey name hash = .ok key := by
  have hlength := length_of_isHex64 hhash
  rw [defVersionKey_eq_iff hname hhash, defHashFromVersionKey, if_neg hname]
  dsimp only
  constructor
  · intro h
    split at h
    · next hshape =>
      simp only [Bool.and_eq_true, decide_eq_true_eq] at hshape
      cases h
      have hsplit := (List.take_append_drop (name ++ ".v.").toList.length key.toList).symm
      rw [hshape.1.2] at hsplit
      rw [String.toList_ofList]
      exact hsplit
    · cases h
  · intro h
    rw [h, List.take_left, List.drop_left, List.length_append, hlength, hhash]
    simp

lemma isDefVersionKey_of_eq (h : defVersionKey name hash = .ok key) :
    isDefVersionKey key = true := by
  have hkey := (defVersionKey_eq_iff hname hhash).mp h
  rw [String.toList_append, List.append_assoc] at hkey
  have hlength : key.toList.length - 67 = name.toList.length := by
    rw [hkey]
    simp [length_of_isHex64 hhash]
  rw [isDefVersionKey, hlength, hkey, List.drop_left]
  simp [hhash]

end

/-- The hash read from a key is the one it was made with, two keys are equal only for
the same name and hash, and no key of a version is a name. -/
theorem version_keys_unambiguous (hname : Registrable name) (hname' : Registrable name')
    (hhash : isHex64 hash.toList = true) (hhash' : isHex64 hash'.toList = true) :
    (∀ key, defHashFromVersionKey key name = .ok (some hash) ↔
      defVersionKey name hash = .ok key) ∧
    (defVersionKey name hash = defVersionKey name' hash' → name = name' ∧ hash = hash') ∧
    defVersionKey name hash ≠ .ok name' := by
  refine ⟨fun key => defHashFromVersionKey_eq_iff hname.1 hhash, fun h => ?_, fun h => ?_⟩
  · obtain ⟨key, hkey⟩ : ∃ key, defVersionKey name hash = .ok key :=
      ⟨_, (defVersionKey_eq_iff hname.1 hhash).mpr String.toList_append⟩
    have hleft := (defVersionKey_eq_iff hname.1 hhash).mp hkey
    have hright := (defVersionKey_eq_iff hname'.1 hhash').mp (h ▸ hkey)
    have hlength := (length_of_isHex64 hhash).trans (length_of_isHex64 hhash').symm
    obtain ⟨hstart, hend⟩ := List.append_inj' (hleft.symm.trans hright) hlength
    rw [String.toList_inj] at hstart hend
    rw [String.append_left_inj] at hstart
    exact ⟨hstart, hend⟩
  · exact absurd (isDefVersionKey_of_eq hname.1 hhash h) (by simp [hname'.2])

theorem orders_versions_apart : let zeros := String.ofList (List.replicate 64 '0')
    defVersionKey "orders" zeros ≠ .ok "orders.v" :=
  have hzeros : isHex64 (String.ofList (List.replicate 64 '0')).toList = true := by decide +kernel
  (version_keys_unambiguous ⟨by decide, by decide +kernel⟩ ⟨by decide, by decide +kernel⟩
    hzeros hzeros).2.2

end Dagnats
