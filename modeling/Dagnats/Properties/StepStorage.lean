import Dagnats.Engine.Scenario
import Dagnats.Interaction.Segments
import Dagnats.Subjects

/-!
# The storage of a step

The journal, the inputs and the logs of a step lie under its run and the token of
its id. `SubjectToken` writes an underscore for every character that is no task
character and keeps 128 characters, while a definition is refused only for two
equal ids. So two steps share their storage exactly when their ids blur into one
another.
-/

namespace Dagnats

open Interaction

variable {runID s t : String}

/-- A character that the token shows as an underscore. -/
def Blurred (c : Char) : Prop :=
  isTaskChar c = false ∨ c = '_'

/-- Two ids of equal length, up to the 128 characters that count, that differ only
where both show an underscore. -/
def Confused (s t : String) : Prop :=
  List.Forall₂ (fun c d => c = d ∨ Blurred c ∧ Blurred d)
    (s.toList.take subjectTokenMaxLen) (t.toList.take subjectTokenMaxLen)

lemma blur_eq_iff {c d : Char} : (if isTaskChar c then c else '_') =
    (if isTaskChar d then d else '_') ↔ c = d ∨ Blurred c ∧ Blurred d := by
  have hunder : isTaskChar '_' = true := by decide
  unfold Blurred
  by_cases hc : isTaskChar c = true
  · by_cases hd : isTaskChar d = true
    · simp only [hc, hd, if_true, Bool.true_eq_false, false_or]
      constructor
      · exact Or.inl
      · rintro (rfl | ⟨rfl, rfl⟩) <;> rfl
    · simp only [hc, hd, if_true, Bool.true_eq_false, false_or]
      constructor
      · intro h
        exact .inr ⟨h, .inl trivial⟩
      · rintro (rfl | ⟨h, -⟩)
        · exact absurd hc hd
        · exact h
  · by_cases hd : isTaskChar d = true
    · simp only [hc, hd, if_true, Bool.true_eq_false, false_or]
      constructor
      · intro h
        exact .inr ⟨.inl trivial, h.symm⟩
      · rintro (rfl | ⟨-, h⟩)
        · exact absurd hd hc
        · exact h.symm
    · simp [hc, hd]

lemma subjectToken_eq_iff : subjectToken s = subjectToken t ↔ Confused s t := by
  unfold subjectToken Confused
  rw [String.ofList_inj, ← List.map_take, ← List.map_take, ← List.forall₂_eq_eq_eq,
    List.forall₂_map_left_iff, List.forall₂_map_right_iff]
  simp only [blur_eq_iff]

lemma isTaskChar_of_mem_subjectToken {c : Char} (h : c ∈ (subjectToken s).toList) :
    isTaskChar c = true := by
  unfold subjectToken at h
  rw [String.toList_ofList] at h
  obtain ⟨d, -, rfl⟩ := List.mem_map.mp (List.mem_of_mem_take h)
  split
  · next htask => exact htask
  · rfl

lemma dot_notMem_subjectToken : '.' ∉ (subjectToken s).toList := by
  intro hmem
  exact absurd (isTaskChar_of_mem_subjectToken hmem) (by decide)

/-- Nothing of one step is found where the other one looks. -/
structure Isolated (runID s t : String) : Prop where
  journal : journalSubject runID s ≠ journalSubject runID t
  inputs : ∀ q r, subjectToken q = q → subjectToken r = r →
    submissionKey runID s q ≠ submissionKey runID t r
  owners : submissionKeyPrefix runID s ≠ submissionKeyPrefix runID t
  /-- The listing of one step does not show the inputs of the other. -/
  listed : ∀ q, subjectToken q = q →
    subjectMatches (listingFilter (submissionKeyPrefix runID s)) (submissionKey runID t q) = false
  logs : ∀ attempt iteration,
    logSubject runID s attempt iteration ≠ logSubject runID t attempt iteration
  programLogs : ∀ program attempt iteration, programLogSubject program runID s attempt iteration ≠
      programLogSubject program runID t attempt iteration
  chunks : ∀ attempt iteration seq attempt' iteration' seq',
    logMsgID runID s attempt iteration seq ≠ logMsgID runID t attempt' iteration' seq'

lemma journalSubject_inj (h : journalSubject runID s = journalSubject runID t) :
    subjectToken s = subjectToken t := by
  unfold journalSubject at h
  exact String.append_right_inj _ |>.mp h

lemma submissionKey_inj {q r : String} (hq : subjectToken q = q) (hr : subjectToken r = r)
    (h : submissionKey runID s q = submissionKey runID t r) : subjectToken s = subjectToken t := by
  have hchars := congrArg String.toList h
  simp only [submissionKey, String.toList_append] at hchars
  have hdot : ".".toList = ['.'] := rfl
  rw [hdot, List.append_assoc, List.append_assoc _ ['.'] r.toList] at hchars
  have hword : ∀ x, subjectToken x = x → '.' ∉ x.toList := by
    intro x hx
    rw [← hx]
    exact dot_notMem_subjectToken
  obtain ⟨howner, -⟩ := append_sep_inj (hword q hq) (hword r hr) hchars
  exact String.toList_injective (List.append_cancel_left howner)

lemma listed_iff {q : String} (hq : subjectToken q = q) :
    subjectMatches (listingFilter (submissionKeyPrefix runID s)) (submissionKey runID t q) = true ↔
    subjectToken s = subjectToken t := by
  have hquery : '.' ∉ q.toList := by
    rw [← hq]
    exact dot_notMem_subjectToken
  have hfilter : (listingFilter (submissionKeyPrefix runID s)).toList.splitOn '.' =
      runID.toList.splitOn '.' ++ [(subjectToken s).toList, ['>']] := by
    have htext : (listingFilter (submissionKeyPrefix runID s)).toList =
        runID.toList ++ '.' :: ((subjectToken s).toList ++ '.' :: ['>']) := by
      simp [listingFilter, submissionKeyPrefix]
    rw [htext, List.splitOn_append_cons_self, List.splitOn_append_cons_self,
      List.splitOn_eq_singleton dot_notMem_subjectToken]
    rfl
  have hkey : (submissionKey runID t q).toList.splitOn '.' =
      runID.toList.splitOn '.' ++ [(subjectToken t).toList, q.toList] := by
    have htext : (submissionKey runID t q).toList =
        runID.toList ++ '.' :: ((subjectToken t).toList ++ '.' :: q.toList) := by
      simp [submissionKey]
    rw [htext, List.splitOn_append_cons_self, List.splitOn_append_cons_self,
      List.splitOn_eq_singleton dot_notMem_subjectToken, List.splitOn_eq_singleton hquery]
    rfl
  have hliteral : Literal ['*'] ['>'] (subjectToken s).toList := by
    have hchar : ∀ c : Char, isTaskChar c = false → (subjectToken s).toList ≠ [c] := by
      intro c hc heq
      have hmem : c ∈ (subjectToken s).toList := by rw [heq]; exact List.mem_singleton_self c
      rw [isTaskChar_of_mem_subjectToken hmem] at hc
      cases hc
    exact ⟨hchar '*' (by decide), hchar '>' (by decide)⟩
  unfold subjectMatches
  rw [hfilter, hkey, tokensMatch_append_self (by simp), tokensMatch_literal hliteral,
    tokensMatch_rest, String.toList_inj]
  simp

lemma logMsgID_inj {a i n a' i' n' : ℕ} (h : logMsgID runID s a i n = logMsgID runID t a' i' n') :
    subjectToken s = subjectToken t := by
  have htext : ∀ (s : String) (a i n : ℕ), (logMsgID runID s a i n).toList =
      behind '-' ("log-".toList ++ runID.toList ++ '-' :: (subjectToken s).toList)
        ([n, i, a].map fun k => (toString k).toList) := by
    intro s a i n
    simp [logMsgID, behind]
  have hchars := congrArg String.toList h
  rw [htext, htext] at hchars
  obtain ⟨-, hbase⟩ := behind_numbers_inj (by decide) (by rfl) hchars
  exact String.toList_injective (List.cons.inj (List.append_cancel_left hbase)).2

/-- **Two steps of a run have storage of their own exactly when their ids do not
blur into one another.** -/
theorem step_storage_isolated (runID s t : String) : Isolated runID s t ↔ ¬Confused s t := by
  rw [← subjectToken_eq_iff]
  constructor
  · intro h heq
    apply h.journal
    unfold journalSubject
    rw [heq]
  · intro hne
    constructor
    · exact fun h => hne (journalSubject_inj h)
    · exact fun q r hq hr h => hne (submissionKey_inj hq hr h)
    · exact fun h => hne (String.append_right_inj _ |>.mp h)
    · intro q hq
      rw [Bool.eq_false_iff, Ne, listed_iff hq]
      exact hne
    · intro a i h
      unfold logSubject at h
      iterate 4 replace h := (String.append_left_inj _).mp h
      exact hne ((String.append_right_inj _).mp h)
    · intro program a i h
      unfold programLogSubject at h
      iterate 4 replace h := (String.append_left_inj _).mp h
      exact hne ((String.append_right_inj _).mp h)
    · exact fun a i n a' i' n' h => hne (logMsgID_inj h)

namespace Blurring

/-- A definition with two steps whose ids differ in one character. -/
def workflow : WorkflowDef where
  name := "build"
  steps := [{ id := "build.linux", task := "work" }, { id := "build_linux", task := "work" }]

/-- Validation accepts the two ids together, and the steps share everything. -/
theorem storage_shared : Valid Orchestrator.plain workflow ∧ "build.linux" ≠ "build_linux" ∧
    journalSubject "r1" "build.linux" = journalSubject "r1" "build_linux" ∧
    submissionKey "r1" "build.linux" "q" = submissionKey "r1" "build_linux" "q" ∧
    logSubject "r1" "build.linux" 1 0 = logSubject "r1" "build_linux" 1 0 ∧
    logMsgID "r1" "build.linux" 1 0 0 = logMsgID "r1" "build_linux" 1 0 0 := by
  have hvalid : Valid Orchestrator.plain workflow := by decide +kernel
  exact ⟨hvalid, by decide, by decide +kernel, by decide +kernel, by decide +kernel,
    by decide +kernel⟩

end Blurring

end Dagnats
