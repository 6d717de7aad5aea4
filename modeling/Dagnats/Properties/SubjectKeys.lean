import Dagnats.Engine.Scenario

/-!
# Keys of singleton locks and debounce windows

Both are a name, followed by a dot and the text of a value of the data. The key
tells neither where the name ends nor of which value the text is.
-/

namespace Dagnats

/-- For a trigger and the key of its `Debounce`. -/
def debounceKey (id : String) (debounce : Option String) (data : Raw) : Except Fault String :=
  if id = "" then .error (.panic "debounceKey: def.ID must not be empty")
  else
    match debounce with
    | none => .error (.panic "debounceKey: def.Debounce must not be nil")
    | some key =>
      if key = "" then .ok id
      else
        match extractDotPath key data with
        | .error (.panic msg) => .error (.panic msg)
        | .error (.error _) | .ok .null => .ok id
        | .ok v => .ok (if v.display = "" then id else id ++ "." ++ v.display)

/-- The name, and the value that the configured key selects if there is one. -/
abbrev Subject := String × Option Json

def subject (name key : String) (data : Raw) : Except Fault Subject :=
  if key = "" then .ok (name, none)
  else
    match extractDotPath key data with
    | .ok v => .ok (name, some v.decoded)
    | .error (.error _) => .ok (name, none)
    | .error (.panic msg) => .error (.panic msg)

/-- The text by which a selected value enters a lock key. -/
def lockText : Option Json → Option String :=
  Option.map Json.print

/-- The text by which a selected value enters the key of a window. -/
def windowText : Option Json → Option String
  | none | some .null => none
  | some v => if v.print = "" then none else some v.print

def tail : Option String → String
  | none => ""
  | some t => "." ++ t

variable {digest encode : String → String} {text : Option Json → Option String}
  {name name' : String} {data : Raw} {s s' : Except Fault Subject} {a b : Subject}

/-- Two values of one name have the same text, or the second name goes on after a dot
with the beginning of the first value's text. -/
inductive Confusable (text : Option Json → Option String) : Subject → Subject → Prop
  | sameText (name : String) {v v' : Option Json} :
      v ≠ v' → text v = text v' → Confusable text (name, v) (name, v')
  | longerName (name more : String) {v v' : Option Json} :
      text v = some (more ++ tail (text v')) → Confusable text (name, v) (name ++ "." ++ more, v')

/-- Two keys are equal only if their subjects are. -/
def Separate (k k' : Except Fault String) (s s' : Except Fault Subject) : Prop :=
  ∀ key, k = .ok key → k' = .ok key → s = s'

/-- The subjects are not confused, where there are any. -/
def Unconfused (text : Option Json → Option String) (s s' : Except Fault Subject) : Prop :=
  ∀ a b, s = .ok a → s' = .ok b → ¬Confusable text a b ∧ ¬Confusable text b a

lemma append_eq_append {a b c d : String} : a ++ b = c ++ d ↔
    ∃ more, (c = a ++ more ∧ b = more ++ d) ∨ (a = c ++ more ∧ d = more ++ b) := by
  constructor
  · intro h
    rw [← String.toList_inj, String.toList_append, String.toList_append] at h
    rcases List.append_eq_append_iff.mp h with ⟨m, h₁, h₂⟩ | ⟨m, h₁, h₂⟩
    · exact ⟨.ofList m, .inl (by simp [← String.toList_inj, h₁, h₂])⟩
    · exact ⟨.ofList m, .inr (by simp [← String.toList_inj, h₁, h₂])⟩
  · rintro ⟨more, ⟨rfl, rfl⟩ | ⟨rfl, rfl⟩⟩ <;> rw [String.append_assoc]

lemma tail_inj {t t' : Option String} (h : tail t = tail t') : t = t' := by
  have hlist := congrArg String.toList h
  cases t <;> cases t' <;> simp_all [tail]

/-- What stands before a tail, where the whole is a tail itself. -/
lemma tail_eq_append {t : Option String} {more rest : String} (h : tail t = more ++ rest) :
    more = "" ∨ ∃ m, more = "." ++ m ∧ t = some (m ++ rest) := by
  cases t with
  | none =>
    have hlist := congrArg String.toList h
    simp only [tail, String.toList_append] at hlist
    exact .inl (by simpa using (List.append_eq_nil_iff.mp hlist.symm).1)
  | some t =>
    rcases append_eq_append.mp h with ⟨m, ⟨rfl, rfl⟩ | ⟨hdot, hrest⟩⟩
    · exact .inr ⟨m, rfl, rfl⟩
    · have hlist := congrArg String.toList hdot
      rw [String.toList_append] at hlist
      rcases List.append_eq_singleton_iff.mp (by simpa using hlist.symm) with ⟨hnil, -⟩ | ⟨hone, hnil⟩
      · exact .inl (by simpa using hnil)
      · refine .inr ⟨"", ?_, ?_⟩
        · rw [String.append_empty, ← String.toList_inj, hone]
          rfl
        · have hm : m = "" := by simpa using hnil
          simp [hrest, hm]

lemma Confusable.ne (h : Confusable text a b) : a ≠ b := by
  cases h with
  | sameText name hne => exact fun heq => hne (Prod.mk.inj heq).2
  | longerName name more =>
    intro heq
    have hlength := congrArg (fun x : Subject => x.1.toList.length) heq
    simp at hlength

lemma Confusable.key_eq (h : Confusable text a b) :
    a.1 ++ tail (text a.2) = b.1 ++ tail (text b.2) := by
  cases h with
  | sameText name _ htext => rw [htext]
  | longerName name more htext => simp [htext, tail, String.append_assoc]

/-- Subjects whose texts are joined to one key are the same or confusable. -/
lemma confusable_of_key_eq (h : a.1 ++ tail (text a.2) = b.1 ++ tail (text b.2)) :
    a = b ∨ Confusable text a b ∨ Confusable text b a := by
  have hlonger : ∀ {a b : Subject} {more : String}, b.1 = a.1 ++ more →
      tail (text a.2) = more ++ tail (text b.2) → a = b ∨ Confusable text a b := by
    rintro ⟨name, v⟩ ⟨name', v'⟩ more hname htail
    dsimp only at hname htail
    subst hname
    rcases tail_eq_append htail with rfl | ⟨m, rfl, htext⟩
    · rw [String.append_empty]
      by_cases hv : v = v'
      · exact .inl (by rw [hv])
      · exact .inr (.sameText name hv (tail_inj (by simpa using htail)))
    · rw [← String.append_assoc]
      exact .inr (.longerName name m htext)
  rcases append_eq_append.mp h with ⟨more, ⟨hname, htail⟩ | ⟨hname, htail⟩⟩
  · exact (hlonger hname htail).imp_right .inl
  · exact (hlonger hname htail).imp Eq.symm .inr

/-- An injective encoding separates what the text of the key separates. -/
lemma separate_iff (h : Function.Injective encode) :
    Separate (s.map fun a => encode (a.1 ++ tail (text a.2)))
      (s'.map fun a => encode (a.1 ++ tail (text a.2))) s s' ↔ Unconfused text s s' := by
  rcases s with f | a
  · simp [Separate, Unconfused, Except.map]
  rcases s' with f | b
  · simp [Separate, Unconfused, Except.map]
  constructor
  · rintro hsep _ _ ⟨⟩ ⟨⟩
    refine ⟨fun hconf => hconf.ne ?_, fun hconf => hconf.ne ?_⟩
    · exact Except.ok.inj (hsep _ rfl (by simp [Except.map, hconf.key_eq]))
    · exact (Except.ok.inj (hsep _ rfl (by simp [Except.map, hconf.key_eq]))).symm
  · intro hclear key ha hb
    have heq := h ((Except.ok.inj ha).trans (Except.ok.inj hb).symm)
    obtain ⟨hab, hba⟩ := hclear a b rfl rfl
    rcases confusable_of_key_eq heq with rfl | hconf | hconf
    · rfl
    · exact absurd hconf hab
    · exact absurd hconf hba

/-- The last step of `singletonLockKey`. -/
def encodeLockKey (digest : String → String) (key : String) : String :=
  if validKVKey key && !key.startsWith singletonDigestPrefix then key
  else singletonDigestPrefix ++ digest key

/-- Digests and plain keys are told apart by the head of a digest. -/
lemma encodeLockKey_injective (h : Function.Injective digest) :
    Function.Injective (encodeLockKey digest) := by
  have hplain : ∀ {key s : String}, (validKVKey key && !key.startsWith singletonDigestPrefix) =
      true → key ≠ singletonDigestPrefix ++ s := by
    rintro _ s hkey rfl
    simp at hkey
  intro a b heq
  unfold encodeLockKey at heq
  split at heq
  · next ha =>
    split at heq
    · exact heq
    · exact absurd heq (hplain ha)
  · split at heq
    · next hb => exact absurd heq.symm (hplain hb)
    · exact h ((String.append_right_inj _).mp heq)

lemma singletonLockKey_eq {cfg : SingletonConfig} : singletonLockKey digest name cfg data =
    (subject name cfg.key data).map fun a =>
      encodeLockKey digest (a.1 ++ tail (lockText a.2)) := by
  unfold singletonLockKey rawLockKey subject
  by_cases hkey : cfg.key = ""
  · simp [hkey, Except.map, lockText, tail, encodeLockKey]
  · rw [if_neg hkey, if_neg hkey]
    rcases extractDotPath cfg.key data with (msg | msg) | v <;>
      simp [Except.map, lockText, tail, encodeLockKey, Json.display, String.append_assoc]

lemma debounceKey_eq {key : String} (hname : name ≠ "") : debounceKey name (some key) data =
    (subject name key data).map fun a => a.1 ++ tail (windowText a.2) := by
  unfold debounceKey subject
  rw [if_neg hname]
  by_cases hkey : key = ""
  · simp [hkey, Except.map, windowText, tail]
  · simp only [if_neg hkey]
    rcases extractDotPath key data with (msg | msg) | v
    · simp [Except.map, windowText, tail]
    · simp [Except.map]
    · cases v with
      | null => simp [Except.map, windowText, tail, Json.decoded]
      | bool _ | num _ | str _ | arr _ | obj _ =>
        simp only [Except.map, windowText, Json.display, Json.decoded]
        split <;> simp_all [tail, String.append_assoc]

/-- **Keys separate their subjects** exactly where these are not confused. -/
theorem keys_separate_iff (hdigest : Function.Injective digest) (hname : name ≠ "")
    (hname' : name' ≠ "") (cfg cfg' : SingletonConfig) (key key' : String) (data data' : Raw) :
    (Separate (singletonLockKey digest name cfg data) (singletonLockKey digest name' cfg' data')
        (subject name cfg.key data) (subject name' cfg'.key data') ↔
      Unconfused lockText (subject name cfg.key data) (subject name' cfg'.key data')) ∧
    (Separate (debounceKey name (some key) data) (debounceKey name' (some key') data')
        (subject name key data) (subject name' key' data') ↔
      Unconfused windowText (subject name key data) (subject name' key' data')) := by
  constructor
  · rw [singletonLockKey_eq, singletonLockKey_eq]
    exact separate_iff (encodeLockKey_injective hdigest)
  · rw [debounceKey_eq hname, debounceKey_eq hname']
    exact separate_iff Function.injective_id

namespace Alike

def keyed (key : String) : SingletonConfig := { mode := .skip, key := key }

def named (name key : String) : WorkflowDef :=
  { name := name, steps := [{ id := "a", task := "work" }], singleton := some (keyed key) }

def given (v : Json) : Raw := .doc (.obj [("k", v)])

theorem other_names_separate : Separate (singletonLockKey id "a" (keyed "k") (given .null))
    (singletonLockKey id "b" (keyed "k") (given .null)) (subject "a" "k" (given .null))
    (subject "b" "k" (given .null)) := by
  refine (keys_separate_iff Function.injective_id (by simp) (by simp) (keyed "k") (keyed "k") ""
    "" _ _).1.mpr ?_
  have hnot : ∀ {v v' : Option Json} {x y : String}, x.toList.length = y.toList.length →
      x ≠ y → ¬Confusable lockText (x, v) (y, v') := by
    rintro v v' x y hlength hne (_ | _)
    · exact hne rfl
    · simp at hlength
  rintro _ _ ⟨⟩ ⟨⟩
  exact ⟨hnot rfl (by decide), hnot rfl (by decide)⟩

/-- Where a name ends, and of which value the text is, both go unnoticed. -/
theorem subjects_share_keys :
    (Valid Orchestrator.plain (named "a" "k") ∧ Valid Orchestrator.plain (named "a.b" "")) ∧
    singletonLockKey id "a" (keyed "k") (given (.str "b")) = .ok "a.b" ∧
    singletonLockKey id "a.b" (keyed "") (given .null) = .ok "a.b" ∧
    singletonLockKey id "a" (keyed "k") (given (.num 1)) = .ok "a.1" ∧
    singletonLockKey id "a" (keyed "k") (given (.str "1")) = .ok "a.1" ∧
    singletonLockKey id "a" (keyed "k") (given (.num (3 / 2))) = .ok "a.1.5" ∧
    singletonLockKey id "a.1" (keyed "k") (given (.num 5)) = .ok "a.1.5" ∧
    debounceKey "t" (some "k") (given (.str "x")) = .ok "t.x" ∧
    debounceKey "t.x" (some "k") (given .null) = .ok "t.x" ∧
    debounceKey "t.x" (some "k") (given (.str "")) = .ok "t.x" := by
  refine ⟨⟨?_, ?_⟩, ?_, ?_, ?_, ?_, ?_, ?_, ?_, ?_, ?_⟩ <;> decide +kernel

end Alike

end Dagnats
