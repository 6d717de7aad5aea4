import Dagnats.Dag.Validate

/-!
# Runs selected by their labels

A filter lists labels with their values. `LabelsMatch` reads an absent label as the
empty text, so that a filter for an empty value selects the runs without the label.
-/

namespace Dagnats

open Interaction

abbrev Labels := Table String String

def labelsCountMax : ℕ := 16

def validateLabel (key value : String) : Except Fault Unit := do
  check (key ≠ "" && key.toList.all fun c => ('a' ≤ c && c ≤ 'z') || ('0' ≤ c && c ≤ '9') ||
    c = '_' || c = '.' || c = '-') ("labels: key " ++ quoted key ++ " must match ^[a-z0-9_.-]+$")
  check (key.utf8ByteSize ≤ 64) ("labels: key " ++ quoted key ++ " exceeds max length 64")
  check (value.utf8ByteSize ≤ 256)
    ("labels: value for key " ++ quoted key ++ " exceeds max length 256")

def validateLabels (labels : Labels) : Except Fault Unit := do
  check (labels.keys.length ≤ labelsCountMax) ("labels: at most 16 labels allowed, got " ++
    toString labels.keys.length)
  (labels.keys.mergeSort (· ≤ ·)).forM fun key =>
    validateLabel key ((labels.find? key).getD "")

/-- Of the labels that a filter wants and those that a run has. -/
def labelsMatch (want labels : Labels) : Except Fault Bool :=
  if labelsCountMax < want.keys.length then
    .error (.panic "LabelsMatch: want exceeds LabelsCountMax; caller must validate first")
  else if labelsCountMax < labels.keys.length then
    .error (.panic "LabelsMatch: have exceeds LabelsCountMax; run was stored unvalidated")
  else .ok (want.keys.all fun key => (labels.find? key).getD "" = (want.find? key).getD "")

structure RunsFilter where
  workflow : String := ""
  state : Option RunStatus := none
  since : Option Time := none
  labels : Labels

/-- `matches`, of a listing or a count; the labels of the run stand beside it. -/
def RunsFilter.accepts (f : RunsFilter) (run : WorkflowRun) (labels : Labels) : Except Fault Bool :=
  if (f.workflow = "" || run.workflowID = f.workflow) && f.state.all (run.status = ·) &&
    f.since.all (· ≤ run.createdAt) then labelsMatch f.labels labels
  else .ok false

def matchesStatusFilter (status : RunStatus) (filter : String) : Bool :=
  (filter = "all" && (status = .running || status = .pending)) ||
    (filter = "running" && status = .running) || (filter = "pending" && status = .pending)

def runMatchesBulkCancel (run : WorkflowRun) (labels : Labels) (workflowID status : String)
    (after before : Option Time) (want : Labels) : Except Fault Bool :=
  if workflowID = "" then .error (.panic "runMatchesBulkCancel: workflowID must not be empty")
  else if status = "" then .error (.panic "runMatchesBulkCancel: status must not be empty")
  else if run.workflowID = workflowID && matchesStatusFilter run.status status &&
    after.all (· ≤ run.createdAt) && before.all (run.createdAt ≤ ·) then labelsMatch want labels
  else .ok false

variable {want labels : Labels}

def Carries (want labels : Labels) : Prop :=
  ∀ key value, want.find? key = some value → labels.find? key = some value

/-- The wanted labels are told from others, and whatever is listed, counted or cancelled
by them carries them. -/
structure SelectsByLabel (want labels : Labels) : Prop where
  exact : labelsMatch want labels = .ok true ↔ Carries want labels
  listed : ∀ (f : RunsFilter) run, f.labels = want → f.accepts run labels = .ok true →
    Carries want labels
  cancelled : ∀ run workflowID status after before,
    runMatchesBulkCancel run labels workflowID status after before want = .ok true →
    Carries want labels

/-- No label wanted empty is absent, or another label is refused. -/
def TellsEmpty (want labels : Labels) : Prop :=
  (∀ key, want.find? key = some "" → labels.has key = true) ∨
    ∃ key value, want.find? key = some value ∧ (labels.find? key).getD "" ≠ value

lemma count_of_validateLabels (h : validateLabels want = .ok ()) :
    want.keys.length ≤ labelsCountMax := by
  simpa using check_eq_ok (checks_eq_ok h).1

section

variable (hwant : validateLabels want = .ok ()) (hlabels : validateLabels labels = .ok ())
include hwant hlabels

lemma labelsMatch_iff : labelsMatch want labels = .ok true ↔
    ∀ key value, want.find? key = some value → (labels.find? key).getD "" = value := by
  rw [labelsMatch, if_neg (count_of_validateLabels hwant).not_gt,
    if_neg (count_of_validateLabels hlabels).not_gt, Except.ok.injEq, List.all_eq_true]
  constructor
  · intro h key value hvalue
    have hmem : key ∈ want.keys := (want.mem_keys key).mpr (by simp [Table.has, hvalue])
    simpa [hvalue] using h key hmem
  · intro h key hmem
    obtain ⟨value, hvalue⟩ := Option.isSome_iff_exists.mp ((want.mem_keys key).mp hmem)
    simpa [hvalue] using h key value hvalue

lemma labelsMatch_exact_iff :
    (labelsMatch want labels = .ok true ↔ Carries want labels) ↔ TellsEmpty want labels := by
  rw [labelsMatch_iff hwant hlabels]
  constructor
  · intro h
    by_cases hall : ∀ key value, want.find? key = some value → (labels.find? key).getD "" = value
    · refine .inl fun key hkey => ?_
      simp [Table.has, h.mp hall key "" hkey]
    · push Not at hall
      exact .inr hall
  · intro htells
    constructor
    · intro hall key value hvalue
      have heq := hall key value hvalue
      rcases htells with hempty | ⟨other, v, hother, hne⟩
      · cases hfound : labels.find? key with
        | some found => rw [← heq, hfound, Option.getD_some]
        | none =>
          -- An absent label passes only for the empty text.
          rw [hfound, Option.getD_none] at heq
          subst heq
          simpa [Table.has, hfound] using hempty key hvalue
      · exact absurd (hall other v hother) hne
    · intro hcarries key value hvalue
      rw [hcarries key value hvalue, Option.getD_some]

/-- Labels select exactly the runs that carry them unless one that is wanted empty is
absent and no other is refused. -/
theorem selectsByLabel_iff : SelectsByLabel want labels ↔ TellsEmpty want labels := by
  constructor
  · intro h
    exact (labelsMatch_exact_iff hwant hlabels).mp h.exact
  · intro htells
    have hexact := (labelsMatch_exact_iff hwant hlabels).mpr htells
    constructor
    · exact hexact
    · rintro f run rfl h
      unfold RunsFilter.accepts at h
      split at h
      · exact hexact.mp h
      · cases h
    · intro run workflowID status after before h
      unfold runMatchesBulkCancel at h
      split_ifs at h
      · exact hexact.mp h
      · cases h

end

namespace Unlabelled

def wanted : Labels := ⟨[("tenant", "")]⟩

theorem labelled_selected : SelectsByLabel wanted wanted :=
  (selectsByLabel_iff (by decide +kernel) (by decide +kernel)).mpr
    (.inl fun key hkey => by rw [Table.has, hkey]; rfl)

/-- The runs whose tenant is empty are to be cancelled, and one without a tenant is. -/
theorem unlabelled_run_cancelled : validateLabels wanted = .ok () ∧
    validateLabels .empty = .ok () ∧
    runMatchesBulkCancel { runID := "r", workflowID := "w" } .empty "w" "all" none none wanted =
      .ok true ∧ wanted.find? "tenant" = some "" ∧ (Table.empty : Labels).find?
      "tenant" = none := by
  decide +kernel

end Unlabelled

end Dagnats
