import Dagnats.Engine.Scenario
import Dagnats.Interaction.Segments
import Dagnats.Properties.Overdue

/-!
# Identifiers of generated steps

A map step names its instances, and a planner the steps that it generates, by
writing an identifier behind its own. What a history event names is read off the
identifier again, by a search for `.map.`.
-/

namespace Dagnats

open Interaction

variable {id : String} {i : ℕ} {sep w cs rest : List Char}

/-- No occurrence of the separator in `w ++ rest` starts in `w`. -/
def Clear (sep w rest : List Char) : Prop :=
  ∀ t, t ≠ [] → t <:+ w → ¬sep <+: t ++ rest

lemma Clear.tail {c : Char} (h : Clear sep (c :: w) rest) : Clear sep w rest :=
  fun t hne ht => h t hne (ht.trans (List.suffix_cons c w))

lemma splitChars_ne_nil (skip : ℕ) : splitChars sep cs skip ≠ [] := by
  induction cs, skip using splitChars.induct sep with
  | case1 => exact List.cons_ne_nil _ _
  | case2 c cs skip ih => exact ih
  | case3 c cs hfound ih => rw [splitChars, if_pos hfound]; exact List.cons_ne_nil _ _
  | case4 c cs hnot hnil ih => exact absurd hnil ih
  | case5 c cs hnot word words hwords ih =>
    rw [splitChars, if_neg hnot, hwords]
    exact List.cons_ne_nil _ _

lemma splitChars_skip (u : List Char) :
    splitChars sep (u ++ rest) u.length = splitChars sep rest 0 := by
  induction u with
  | nil => rfl
  | cons c u ih => exact ih

/-- The words before and behind the leftmost occurrence. -/
lemma splitChars_of_clear (hsep : sep ≠ []) (h : Clear sep w (sep ++ rest)) :
    splitChars sep (w ++ (sep ++ rest)) 0 = w :: splitChars sep rest 0 := by
  induction w with
  | nil =>
    obtain ⟨c, u, rfl⟩ := List.exists_cons_of_ne_nil hsep
    have hfound : (c :: u).isPrefixOf (c :: (u ++ rest)) = true :=
      List.isPrefixOf_iff_prefix.mpr ⟨rest, rfl⟩
    rw [List.nil_append, List.cons_append, splitChars, if_pos hfound]
    exact congrArg _ (splitChars_skip u)
  | cons c w ih =>
    have hnot : ¬sep.isPrefixOf (c :: (w ++ (sep ++ rest))) = true := fun hfound =>
      h _ (List.cons_ne_nil c w) List.suffix_rfl (List.isPrefixOf_iff_prefix.mp hfound)
    rw [List.cons_append, splitChars, if_neg hnot, ih h.tail]

lemma clear_of_splitChars {ws : List (List Char)} (h : splitChars sep cs 0 = w :: ws) :
    ∃ rest, cs = w ++ rest ∧ Clear sep w rest := by
  have hnil : ∀ rest, Clear sep [] rest := fun rest t hne ht =>
    absurd (List.suffix_nil.mp ht) hne
  induction cs generalizing w ws with
  | nil =>
    obtain ⟨rfl, -⟩ := List.cons_eq_cons.mp h
    exact ⟨[], rfl, hnil []⟩
  | cons c cs ih =>
    rw [splitChars] at h
    split at h
    · obtain ⟨rfl, -⟩ := List.cons_eq_cons.mp h
      exact ⟨c :: cs, rfl, hnil _⟩
    · next hnot =>
      rw [List.isPrefixOf_iff_prefix] at hnot
      split at h
      · next hempty =>
        exact absurd hempty (splitChars_ne_nil 0)
      · next word words hwords =>
        obtain ⟨rfl, -⟩ := List.cons_eq_cons.mp h
        obtain ⟨rest, rfl, hclear⟩ := ih hwords
        refine ⟨rest, rfl, fun t hne ht => ?_⟩
        rcases List.suffix_cons_iff.mp ht with rfl | ht
        · exact hnot
        · exact hclear t hne ht

/-- The separator of a map step and an index. -/
def mapMark : List Char := ['.', 'm', 'a', 'p', '.']

/-- An instance of the step has an earlier `.map.` than its own. -/
def ambiguous (id : String) : Prop := mapMark <:+: id.toList ++ ['.']

/-- An occurrence that ends in the mark of an instance ends in its first dot. -/
lemma clear_iff (digits : List Char) :
    Clear mapMark id.toList (mapMark ++ digits) ↔ ¬ambiguous id := by
  unfold ambiguous
  constructor
  · rintro hclear ⟨before, behind, heq⟩
    rcases List.eq_nil_or_concat (mapMark ++ behind) with hnil | ⟨t, c, ht⟩
    · cases hnil
    rw [List.concat_eq_append] at ht
    rw [List.append_assoc, ht, ← List.append_assoc] at heq
    obtain ⟨hid, hc⟩ := List.append_inj' heq rfl
    obtain rfl : c = '.' := by simpa using hc
    refine hclear t ?_ ⟨before, hid⟩ ⟨behind ++ (mapMark.tail ++ digits), ?_⟩
    · rintro rfl
      simp [mapMark] at ht
    · rw [← List.append_assoc, ht, List.append_assoc]
      rfl
  · intro hnot t hne ⟨before, hbefore⟩ hfound
    rw [← hbefore] at hnot
    rcases List.prefix_or_prefix_of_prefix hfound (List.prefix_append t _) with h | h
    · exact hnot ((h.isInfix.trans ⟨before, ['.'], rfl⟩))
    · -- Only the first dot of the mark can be the last of an occurrence.
      have hmem := (List.mem_inits _ _).mpr h
      simp only [mapMark, List.inits, List.map_cons, List.map_nil, List.mem_cons,
        List.not_mem_nil, or_false] at hmem
      rcases hmem with rfl | rfl | rfl | rfl | rfl | rfl
      · exact hne rfl
      · simp [mapMark] at hfound
      · simp [mapMark] at hfound
      · simp [mapMark] at hfound
      · exact hnot ⟨before, [], by simp [mapMark]⟩
      · exact hnot ⟨before, ['.'], rfl⟩

lemma splitChars_digits (h : '.' ∉ cs) : splitChars mapMark cs 0 = [cs] := by
  induction cs with
  | nil => rfl
  | cons c cs ih =>
    rw [List.mem_cons, not_or] at h
    have hnot : ¬mapMark.isPrefixOf (c :: cs) = true := by simp [mapMark, h.1]
    rw [splitChars, if_neg hnot, ih h.2]

lemma signedDigits_toString : signedDigits (toString i) = some (i : ℤ) := by
  have hdigits : ∀ c ∈ (toString i).toList, c.isDigit = true := fun c => isDigit_of_mem_toString
  have hparse : parseDigits (toString i).toList = some i := by
    have hne : (toString i).toList ≠ [] := by
      rw [Nat.toString_eq_ofList_toDigits, String.toList_ofList]
      exact Nat.toDigits_ne_nil
    rw [parseDigits, if_neg (by simpa [hne] using hdigits)]
    rw [Nat.toString_eq_ofList_toDigits, String.toList_ofList]
    exact congrArg some Nat.ofDigitChars_ten_toDigits
  unfold signedDigits
  split
  · next heq => exact absurd (hdigits '-' (heq ▸ (.head _) ..)) (by decide)
  · next heq => exact absurd (hdigits '+' (heq ▸ (.head _) ..)) (by decide)
  · rw [hparse]; rfl

lemma atoi_toString (h : i < 2 ^ 63) : atoi (toString i) = some (i : ℤ) := by
  have hrange : (decide (-2 ^ 63 ≤ (i : ℤ)) && decide ((i : ℤ) < 2 ^ 63)) = true := by
    rw [Bool.and_eq_true, decide_eq_true_eq, decide_eq_true_eq]
    omega
  rw [atoi, signedDigits_toString, Option.filter_some, if_pos hrange]

lemma mapInstanceID_toList :
    (mapInstanceID id i).toList = id.toList ++ (mapMark ++ (toString i).toList) := by
  simp [mapInstanceID, mapMark]

lemma splitString_mapInstanceID {id : String} (h : ¬ambiguous id) :
    splitString (mapInstanceID id i) ".map." = [id, toString i] := by
  have hdot : '.' ∉ (toString i).toList := fun hmem =>
    absurd (isDigit_of_mem_toString hmem) (by decide)
  have hclear := (clear_iff (toString i).toList).mpr h
  rw [splitString, mapInstanceID_toList, show ".map.".toList = mapMark by decide,
    splitChars_of_clear (by decide) hclear, splitChars_digits hdot]
  simp only [List.map_cons, List.map_nil, String.ofList_toList]

lemma parseMapInstanceID_iff (hindex : i < 2 ^ 63) :
    parseMapInstanceID (mapInstanceID id i) = .ok (id, (i : ℤ)) ↔ ¬ambiguous id := by
  constructor
  · intro h
    unfold parseMapInstanceID splitString at h
    rw [mapInstanceID_toList, show ".map.".toList = mapMark by decide] at h
    split at h
    · next base index hsplit =>
      obtain ⟨u, rest, hwords, rfl, -⟩ := List.map_eq_cons_iff.mp hsplit
      obtain ⟨behind, heq, hclear⟩ := clear_of_splitChars hwords
      split at h
      · have hbase : String.ofList u = id := congrArg Prod.fst (Except.ok.inj h)
        obtain rfl : u = id.toList := by rw [← hbase, String.toList_ofList]
        exact (clear_iff _).mp (List.append_cancel_left heq ▸ hclear)
      · cases h
    · cases h
  · intro hnot
    rw [parseMapInstanceID, splitString_mapInstanceID hnot]
    simp only [atoi_toString hindex]

/-- Whom a history event names: a step, or an instance of a map step. -/
def addressee (stepID : String) : Except Fault (String × Option ℤ) :=
  if isMapInstanceID stepID then (parseMapInstanceID stepID).map fun (base, i) => (base, some i)
  else .ok (stepID, none)

/-- Events reach exactly the step, or the instance of it, that they name. An index is a
64-bit integer. -/
structure Unambiguous (s : StepDef) : Prop where
  own : isMapInstanceID s.id = false
  instances : s.type = .map → ∀ i < 2 ^ 63,
    parseMapInstanceID (mapInstanceID s.id i) = .ok (s.id, (i : ℤ))
  routed : addressee s.id = .ok (s.id, none)
  instancesRouted : s.type = .map → ∀ i < 2 ^ 63,
    addressee (mapInstanceID s.id i) = .ok (s.id, some (i : ℤ))

/-- **Map instances are unambiguous** exactly for the identifiers without the mark
that, on a map step, do not end in `.map` either. -/
theorem unambiguous_iff (s : StepDef) : Unambiguous s ↔
    isMapInstanceID s.id = false ∧ (s.type = .map → ¬ambiguous s.id) := by
  constructor
  · intro h
    exact ⟨h.own, fun hmap =>
      (parseMapInstanceID_iff (by decide)).mp (h.instances hmap 0 (by decide))⟩
  · rintro ⟨hown, hclear⟩
    have hparse : s.type = .map → ∀ i < 2 ^ 63,
        parseMapInstanceID (mapInstanceID s.id i) = .ok (s.id, (i : ℤ)) :=
      fun hmap i hi => (parseMapInstanceID_iff hi).mpr (hclear hmap)
    refine ⟨hown, hparse, by simp [addressee, hown], fun hmap i hi => ?_⟩
    have hinstance : isMapInstanceID (mapInstanceID s.id i) = true := by
      rw [isMapInstanceID, hasSubstring, splitString_mapInstanceID (hclear hmap)]
      rfl
    rw [addressee, if_pos hinstance, hparse hmap i hi]
    rfl

namespace Marked

/-- Accepted, with two identifiers that hold the mark or end before its last dot. -/
def workflow : WorkflowDef where
  name := "marked"
  steps := [{ id := "a.map.b", task := "work" },
    { id := "x.map", task := "work", type := .map, dependsOn := ["a.map.b"]
      config := .doc { maxItems := 10 } },
    { id := "p", task := "plan", type := .planner, config := .doc { maxSteps := 5 } }]

def fragment : List StepDef := [{ id := "map.1", task := "work" }]

/-- A step is taken for an instance and makes the handler panic, an instance of a
map step does so too, and a generated step is taken for an instance of its planner. -/
theorem marked_ids_misrouted : Valid Orchestrator.plain workflow ∧
    addressee "a.map.b" = .error (.panic "parseMapInstanceID: invalid index: b") ∧
    parseMapInstanceID (mapInstanceID "x.map" 0) =
      .error (.panic "parseMapInstanceID: invalid index: map.0") ∧
    validateFragment (namespaceFragment "p" fragment) { maxSteps := 5 }
      (workflow.steps.map (·.id)) = .ok () ∧
    (namespaceFragment "p" fragment).map (fun s => addressee s.id) = [.ok ("p", some 1)] := by
  refine ⟨by decide +kernel, by decide +kernel, by decide +kernel,
    by decide +kernel, by decide +kernel⟩

end Marked

/-- `s'` is the step `s` of the fragment with the given identifiers under its new
name. So is each step of the fragment that it refers to, and it is skipped as in
a run of the fragment alone. -/
structure Renamed (rename : String → String) (ids : List String) (s s' : StepDef) : Prop where
  id : s'.id = rename s.id
  dependsOn : s'.dependsOn = s.dependsOn.map rename
  skipIf : ∀ c, s.skipIf = some c → c.stepID ∈ ids →
    s'.skipIf = some { c with stepID := rename c.stepID }
  onFailure : s.onFailure ∈ ids → s'.onFailure = rename s.onFailure
  compensate : s.compensate ∈ ids → s'.compensate = rename s.compensate
  skips : ∀ alone run : WorkflowRun, (∀ id ∈ ids, run.step (rename id) = alone.step id) →
    (∀ c, s.skipIf = some c → c.stepID ∈ ids) → skipHolds run s' = skipHolds alone s

/-- The fragment under new names: its steps one by one, distinct ones distinct. -/
structure Renaming (rename : String → String) (fragment result : List StepDef) : Prop where
  injective : Function.Injective rename
  steps : List.Forall₂ (Renamed rename (fragment.map (·.id))) fragment result

/-- The step refers to a step of the fragment other than by a dependency. -/
def Entangled (ids : List String) (s : StepDef) : Prop :=
  (∃ c, s.skipIf = some c ∧ c.stepID ∈ ids) ∨ s.onFailure ∈ ids ∨ s.compensate ∈ ids

lemma ne_namespaced (plannerID id : String) : id ≠ plannerID ++ "." ++ id := by
  intro h
  have hlength := congrArg String.length h
  simp at hlength

/-- **Namespacing is a renaming** exactly of the fragments in which no condition,
on-failure step or compensation refers to a step of the fragment. -/
theorem namespaceFragment_renames_iff (plannerID : String) (fragment : List StepDef) :
    Renaming (fun id => plannerID ++ "." ++ id) fragment (namespaceFragment plannerID fragment) ↔
    ∀ s ∈ fragment, ¬Entangled (fragment.map (·.id)) s := by
  constructor
  · rintro ⟨-, hsteps⟩ s hs h
    rw [namespaceFragment, List.forall₂_map_right_iff, List.forall₂_same] at hsteps
    have hrenamed := hsteps s hs
    rcases h with ⟨c, hc, hin⟩ | hin | hin
    · have heq := hc.symm.trans (hrenamed.skipIf c hc hin)
      exact ne_namespaced _ _ (congrArg ParentCond.stepID (Option.some.inj heq))
    · exact ne_namespaced _ _ (hrenamed.onFailure hin)
    · exact ne_namespaced _ _ (hrenamed.compensate hin)
  · intro h
    refine ⟨fun a b hab => by simpa using hab, ?_⟩
    rw [namespaceFragment, List.forall₂_map_right_iff, List.forall₂_same]
    intro s hs
    have hskip : ∀ c, s.skipIf = some c → c.stepID ∉ fragment.map (·.id) := fun c hc hin =>
      h s hs (.inl ⟨c, hc, hin⟩)
    refine ⟨rfl, rfl, fun c hc hin => absurd hin (hskip c hc),
      fun hin => absurd (.inr (.inl hin)) (h s hs),
      fun hin => absurd (.inr (.inr hin)) (h s hs), fun alone run _ hin => ?_⟩
    have hnone : s.skipIf = none :=
      Option.eq_none_iff_forall_ne_some.mpr fun c hc => hskip c hc (hin c hc)
    simp [skipHolds, hnone]

namespace Tangled

/-- `y` is skipped on what `x` found, and handled by `h`. -/
def fragment : List StepDef :=
  [{ id := "x", task := "work" }, { id := "h", task := "work" },
   { id := "y", task := "work", dependsOn := ["x"], onFailure := "h", compensate := "h"
     skipIf := some { stepID := "x", field := "k", op := "==", value := .str "v" } }]

def found : StepState := { status := .completed, output := .doc (.obj [("k", .str "v")]) }

/-- The accepted fragment refers to steps that are not in its result; the step that
is skipped in the fragment alone is not skipped in the run. -/
theorem references_dangle : validateFragment fragment { maxSteps := 5 } ["p"] = .ok () ∧
    validateFragment (namespaceFragment "p" fragment) { maxSteps := 5 } ["p"] = .ok () ∧
    ∃ y ∈ fragment, ∃ y' ∈ namespaceFragment "p" fragment, y'.id = "p." ++ y.id ∧
      y'.onFailure = "h" ∧ y'.compensate = "h" ∧
      "h" ∉ (namespaceFragment "p" fragment).map (·.id) ∧
      skipHolds (({ runID := "r", workflowID := "w" } : WorkflowRun).setStep "x" found) y = true ∧
      skipHolds (({ runID := "r", workflowID := "w" } : WorkflowRun).setStep "p.x" found) y' =
        false := by
  refine ⟨by decide +kernel, by decide +kernel, fragment[2], by simp [fragment],
    (namespaceFragment "p" fragment)[2], by simp [fragment, namespaceFragment], by decide +kernel,
    rfl, rfl, by decide +kernel, by decide +kernel, by decide +kernel⟩

end Tangled

end Dagnats
