import Mathlib.Data.List.Basic

/-!
# Words behind separators

An identifier is often a free text followed by words, each behind a separator.
The free text may hold separators of its own, so such an identifier cannot be
split from the left; but words without a separator can be read off from the
right. The words are therefore listed with the last one first.
-/

namespace Interaction

variable {α : Type*} {sep : α} {a b : List α} {w v : List α} {ws vs : List (List α)}

/-- `base` followed by the words, each behind a separator; the last word comes
first in the list. -/
def behind (sep : α) (base : List α) : List (List α) → List α
  | [] => base
  | w :: ws => behind sep base ws ++ sep :: w

/-- None of the words holds a separator. -/
def Unsplit (sep : α) (ws : List (List α)) : Prop :=
  ∀ w ∈ ws, sep ∉ w

lemma Unsplit.append (hws : Unsplit sep ws) (hvs : Unsplit sep vs) : Unsplit sep (ws ++ vs) := by
  intro w hw
  rcases List.mem_append.mp hw with hw | hw
  · exact hws w hw
  · exact hvs w hw

lemma behind_append (base : List α) :
    behind sep base (ws ++ vs) = behind sep (behind sep base vs) ws := by
  induction ws with
  | nil => rfl
  | cons w ws ih => rw [List.cons_append, behind, behind, ih]

lemma append_sep_inj (hw : sep ∉ w) (hv : sep ∉ v)
    (h : a ++ sep :: w = b ++ sep :: v) : a = b ∧ w = v := by
  rcases List.append_eq_append_iff.mp h with ⟨c, hb, hc⟩ | ⟨c, ha, hc⟩
  · cases c with
    | nil =>
      rw [List.append_nil] at hb
      exact ⟨hb.symm, (List.cons.inj hc).2⟩
    | cons x c =>
      -- Otherwise the separator of the right side lies within `w`.
      have hmem : sep ∈ w := by rw [(List.cons.inj hc).2]; simp
      exact absurd hmem hw
  · cases c with
    | nil =>
      rw [List.append_nil] at ha
      exact ⟨ha, (List.cons.inj hc).2.symm⟩
    | cons x c =>
      have hmem : sep ∈ v := by rw [(List.cons.inj hc).2]; simp
      exact absurd hmem hv

/-- Two identifiers agree only if the words of one are the last words of the
other, whose remaining words are the end of the first one's text. -/
lemma behind_eq_iff (hws : Unsplit sep ws) (hvs : Unsplit sep vs) : behind sep a ws =
    behind sep b vs ↔ (∃ us, ws = vs ++ us ∧ b = behind sep a us) ∨ ∃ us, vs = ws ++ us ∧ a =
    behind sep b us := by
  constructor
  · intro h
    induction ws generalizing vs with
    | nil => exact .inr ⟨vs, rfl, h⟩
    | cons w ws ih =>
      cases vs with
      | nil => exact .inl ⟨w :: ws, rfl, h.symm⟩
      | cons v vs =>
        obtain ⟨hrest, hword⟩ := append_sep_inj (hws w (.head _)) (hvs v (.head _)) h
        have hind := ih (fun u hu => hws u (.tail w hu)) (fun u hu => hvs u (.tail v hu)) hrest
        subst hword
        rcases hind with ⟨us, hus, hb⟩ | ⟨us, hus, ha⟩
        · exact .inl ⟨us, by rw [hus, List.cons_append], hb⟩
        · exact .inr ⟨us, by rw [hus, List.cons_append], ha⟩
  · rintro (⟨us, rfl, rfl⟩ | ⟨us, rfl, rfl⟩)
    · exact behind_append a
    · exact (behind_append b).symm

def Numeral (w : List Char) : Bool :=
  w.all Char.isDigit

lemma isDigit_of_mem_toString {n : ℕ} {c : Char} (h : c ∈ (toString n).toList) :
    c.isDigit = true := by
  rw [Nat.toString_eq_ofList_toDigits, String.toList_ofList] at h
  exact Nat.isDigit_of_mem_toDigits (by decide) (by decide) h

lemma numeral_toString (n : ℕ) : Numeral (toString n).toList = true :=
  List.all_eq_true.mpr fun _ => isDigit_of_mem_toString

lemma toString_toList_inj {m n : ℕ} : (toString m).toList = (toString n).toList ↔ m = n := by
  constructor
  · intro h
    rw [Nat.toString_eq_ofList_toDigits, Nat.toString_eq_ofList_toDigits,
      String.toList_ofList, String.toList_ofList] at h
    rw [← Nat.ofDigitChars_ten_toDigits (n := m), h, Nat.ofDigitChars_ten_toDigits]
  · intro h
    rw [h]

/-- Numerals in front of a word that is none can be told from it. -/
lemma numerals_append_inj {xs ys ws vs : List (List Char)} {w v : List Char}
    (hxs : ∀ x ∈ xs, Numeral x = true) (hys : ∀ y ∈ ys, Numeral y = true) (hw : Numeral w = false)
    (hv : Numeral v = false) (h : xs ++ w :: ws = ys ++ v :: vs) : xs = ys ∧ w :: ws = v :: vs := by
  have htake : ∀ {xs ws : List (List Char)} {w : List Char},
      (∀ x ∈ xs, Numeral x = true) → Numeral w = false →
        (xs ++ w :: ws).takeWhile Numeral = xs := by
    intro xs ws w hxs hw
    rw [List.takeWhile_append_of_pos hxs, List.takeWhile_cons_of_neg (by simp [hw]),
      List.append_nil]
  have heq := congrArg (List.takeWhile Numeral) h
  rw [htake hxs hw, htake hys hv] at heq
  subst heq
  exact ⟨rfl, List.append_cancel_left h⟩

lemma behind_numbers_inj {sep : Char} (hsep : sep.isDigit = false) {a b : List Char}
    {ms ns : List ℕ} (hlen : ms.length = ns.length)
    (h : behind sep a (ms.map fun n => (toString n).toList) =
      behind sep b (ns.map fun n => (toString n).toList)) : ms = ns ∧ a = b := by
  induction ms generalizing ns with
  | nil =>
    obtain rfl : ns = [] := List.length_eq_zero_iff.mp hlen.symm
    exact ⟨rfl, h⟩
  | cons m ms ih =>
    cases ns with
    | nil => cases hlen
    | cons n ns =>
      have hword : ∀ k : ℕ, sep ∉ (toString k).toList := by
        intro k hmem
        rw [isDigit_of_mem_toString hmem] at hsep
        cases hsep
      obtain ⟨hrest, heq⟩ := append_sep_inj (hword m) (hword n) h
      obtain ⟨rfl, hab⟩ := ih (Nat.succ.inj hlen) hrest
      rw [toString_toList_inj.mp heq]
      exact ⟨rfl, hab⟩

end Interaction
