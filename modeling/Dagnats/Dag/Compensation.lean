import Dagnats.Dag.Resolve

/-!
# The compensation chain

Which steps `resolveCompensateChain` lists: the targets of the completed steps
that name one, the last declared first.
-/

namespace Dagnats

variable {d : WorkflowDef} {completed : String → Bool}

lemma link_ids (prev : Option String) (steps : List StepDef) :
    (resolveCompensateChain.link prev steps).map (·.id) = steps.map (·.id) := by
  induction steps generalizing prev with
  | nil => rfl
  | cons s rest ih =>
    rw [resolveCompensateChain.link, List.map_cons, List.map_cons, ih]

/-- A declared target is found, whichever end of the list it is looked for from. -/
lemma target_id {target : String} (hfound : (findStepDef d target).isSome = true) :
    ((d.steps.reverse.find? (·.id = target)).getD { id := "" }).id = target := by
  obtain ⟨s, hs⟩ := Option.isSome_iff_exists.mp hfound
  have hmem : s ∈ d.steps.reverse := List.mem_reverse.mpr (List.mem_of_find?_eq_some hs)
  have hid : s.id = target := by simpa using List.find?_some hs
  obtain ⟨found, hfind⟩ : ∃ found,
      d.steps.reverse.find? (fun t => decide (t.id = target)) = some found :=
    Option.isSome_iff_exists.mp (List.find?_isSome.mpr ⟨s, hmem, by simpa using hid⟩)
  have hfoundID : found.id = target := by simpa using List.find?_some hfind
  rw [hfind, Option.getD_some, hfoundID]

lemma chain_ids :
    (resolveCompensateChain d completed).map (·.id) =
      ((d.steps.filter fun s => s.compensate ≠ "" ∧ completed s.id).map fun s =>
        ((d.steps.reverse.find? (·.id = s.compensate)).getD { id := "" }).id).reverse := by
  rw [resolveCompensateChain, link_ids, List.map_reverse, List.map_map]
  rfl

lemma exists_of_mem_chain {id : String}
    (hdeclared : ∀ s ∈ d.steps, s.compensate ≠ "" → (findStepDef d s.compensate).isSome = true)
    (h : id ∈ (resolveCompensateChain d completed).map (·.id)) : ∃ s ∈ d.steps, s.compensate ≠ "" ∧
    completed s.id = true ∧ s.compensate = id := by
  rw [chain_ids, List.mem_reverse, List.mem_map] at h
  obtain ⟨s, hs, rfl⟩ := h
  simp only [List.mem_filter, decide_eq_true_eq] at hs
  exact ⟨s, hs.1, hs.2.1, hs.2.2, (target_id (hdeclared s hs.1 hs.2.1)).symm⟩

end Dagnats
