import Dagnats.Interaction.Segments
import Dagnats.Protocol
import Mathlib.Tactic.Tauto

/-!
# The identifiers of history events

The history stream drops an event whose identifier it has just seen, so two
occurrences need two identifiers. `NATSMsgID` joins the run, the step, the event
type and a few numbers by dots, and a step may be named by any text.

Read from the right, an identifier shows its numbers and its type. One type is
the end of another, `compensate.step.completed`, and neither the child that a
parent is told about nor the child it spawns is part of the identifier. These
are the only two ways in which two occurrences share one.
-/

namespace Dagnats

open Interaction

variable {type : EventType} {payload : Raw} {e e' : Event} {us : List (List Char)}

section

variable (e : Event)

def Event.child : String :=
  match e.type, e.payload with
  | .workflowSpawn, .doc j | .workflowChildCompleted, .doc j
  | .workflowChildFailed, .doc j => (j.strField "child_run_id").getD ""
  | _, _ => ""

/-- What tells the events of a run apart. -/
structure Occurrence where
  type : EventType
  stepID : String
  attemptNumber : ℕ
  iteration : Option ℕ
  inputRequestID : String
  child : String
  deriving DecidableEq

def Event.occurrence : Occurrence :=
  ⟨e.type, e.stepID, e.attemptNumber, e.iteration, e.inputRequestID, e.child⟩

/-- An event as the constructors of `protocol.go` leave it: the events of a
workflow carry no numbers, an iteration comes with an attempt, and a request
belongs to `step.input.queued`, where the API has checked it. -/
structure Event.WellFormed : Prop where
  unnumbered : e.stepID = "" → e.attemptNumber = 0 ∧ e.iteration = none
  numbered : e.iteration ≠ none → 0 < e.attemptNumber
  input : e.type = .stepInputQueued → e.stepID ≠ "" ∧ validateRequestID e.inputRequestID = true ∧
      e.attemptNumber = 0 ∧ e.iteration = none
  other : e.type ≠ .stepInputQueued → e.inputRequestID = ""

/-! ## Reading an identifier from the right -/

/-- The words that event types are made of. -/
inductive Word where
  | workflow | step | started | completed | failed | cancelled | spawn | child
  | queued | continue_ | map | instance_ | sleep | wait | matched | timeout
  | elapsed | input | compensate | approval | requested | granted | rejected
  | expired | planner | materialized
  deriving DecidableEq

def Word.text : Word → String
  | .workflow => "workflow"
  | .step => "step"
  | .started => "started"
  | .completed => "completed"
  | .failed => "failed"
  | .cancelled => "cancelled"
  | .spawn => "spawn"
  | .child => "child"
  | .queued => "queued"
  | .continue_ => "continue"
  | .map => "map"
  | .instance_ => "instance"
  | .sleep => "sleep"
  | .wait => "wait"
  | .matched => "matched"
  | .timeout => "timeout"
  | .elapsed => "elapsed"
  | .input => "input"
  | .compensate => "compensate"
  | .approval => "approval"
  | .requested => "requested"
  | .granted => "granted"
  | .rejected => "rejected"
  | .expired => "expired"
  | .planner => "planner"
  | .materialized => "materialized"

def Word.chars (w : Word) : List Char :=
  w.text.toList

def EventType.words : EventType → List Word
  | .workflowStarted => [.started, .workflow]
  | .workflowCompleted => [.completed, .workflow]
  | .workflowFailed => [.failed, .workflow]
  | .workflowCancelled => [.cancelled, .workflow]
  | .workflowSpawn => [.spawn, .workflow]
  | .workflowChildCompleted => [.completed, .child, .workflow]
  | .workflowChildFailed => [.failed, .child, .workflow]
  | .stepQueued => [.queued, .step]
  | .stepStarted => [.started, .step]
  | .stepCompleted => [.completed, .step]
  | .stepFailed => [.failed, .step]
  | .stepContinue => [.continue_, .step]
  | .stepMapStarted => [.started, .map, .step]
  | .stepMapCompleted => [.completed, .map, .step]
  | .stepMapInstanceCompleted => [.completed, .instance_, .map, .step]
  | .stepCancelled => [.cancelled, .step]
  | .stepSleepStarted => [.started, .sleep, .step]
  | .stepSleepCompleted => [.completed, .sleep, .step]
  | .stepWaitStarted => [.started, .wait, .step]
  | .stepWaitMatched => [.matched, .wait, .step]
  | .stepWaitTimeout => [.timeout, .wait, .step]
  | .stepWaitElapsed => [.elapsed, .wait, .step]
  | .stepInputQueued => [.queued, .input, .step]
  | .compensateStarted => [.started, .compensate]
  | .compensateStepCompleted => [.completed, .step, .compensate]
  | .compensateFailed => [.failed, .compensate]
  | .compensateCompleted => [.completed, .compensate]
  | .approvalRequested => [.requested, .approval]
  | .approvalGranted => [.granted, .approval]
  | .approvalRejected => [.rejected, .approval]
  | .approvalExpired => [.expired, .approval]
  | .plannerMaterialized => [.materialized, .planner]

/-- What stands before the event type. -/
def Event.text : List Char :=
  if e.stepID = "" then e.runID.toList else e.runID.toList ++ '.' :: e.stepID.toList

/-- The words behind the event type, the last one first. -/
def Event.numbers : List (List Char) :=
  if e.stepID = "" then []
  else if e.type = .stepInputQueued ∧ e.inputRequestID ≠ "" then
    [e.inputRequestID.toList]
  else
    (if e.hasIdentity then [(toString (e.iteration.getD 0)).toList] else []) ++
      if 0 < e.attemptNumber then [(toString e.attemptNumber).toList] else []

def joined : List Word → String
  | [] => ""
  | [w] => w.text
  | w :: v :: ws => joined (v :: ws) ++ "." ++ w.text

lemma EventType.name_eq (t : EventType) : t.name = joined t.words := by
  cases t <;> decide +kernel

lemma behind_joined (base : List Char) (w : Word) (ws : List Word) :
    behind '.' base ((w :: ws).map Word.chars) = base ++ '.' :: (joined (w :: ws)).toList := by
  induction ws generalizing w with
  | nil => rfl
  | cons v ws ih =>
    rw [List.map_cons, behind, ih v, joined, String.toList_append, String.toList_append]
    simp [Word.chars]

lemma EventType.words_eq_cons (t : EventType) : ∃ w v ws, t.words = w :: v :: ws := by
  cases t <;> exact ⟨_, _, _, rfl⟩

lemma Word.text_injective : Function.Injective Word.text := by
  intro w v
  cases w <;> cases v <;> decide

lemma Word.chars_injective : Function.Injective Word.chars :=
  fun _ _ h => Word.text_injective (String.toList_inj.mp h)

lemma Word.not_mem_chars (w : Word) : '.' ∉ w.chars := by
  cases w <;> simp [chars, text]

lemma Word.not_numeral (w : Word) : Numeral w.chars = false := by
  cases w <;> simp [Numeral, chars, text]

/-- All words behind the text of an event, the last one first. -/
def Event.words (e : Event) : List (List Char) :=
  e.numbers ++ e.type.words.map Word.chars

lemma Event.toList_natsMsgID : e.natsMsgID.toList = behind '.' e.text e.words := by
  obtain ⟨w, v, ws, hwords⟩ := e.type.words_eq_cons
  rw [words, behind_append, hwords, behind_joined, ← hwords, ← EventType.name_eq]
  unfold natsMsgID numbers text
  split_ifs <;> simp [behind]

end

/-! ## The numbers -/

section

variable (h : e.WellFormed)
include h

lemma Event.WellFormed.numbers_cases (hinput : e.type ≠ .stepInputQueued) :
    (e.numbers = [] ∧ e.attemptNumber = 0 ∧ e.iteration = none) ∨
    (e.numbers = [(toString e.attemptNumber).toList] ∧ 0 < e.attemptNumber ∧ e.iteration = none) ∨
    ∃ i, e.numbers = [(toString i).toList, (toString e.attemptNumber).toList] ∧
    0 < e.attemptNumber ∧ e.iteration = some i := by
  by_cases hstep : e.stepID = ""
  · exact .inl ⟨by simp [numbers, hstep], h.unnumbered hstep⟩
  · rcases Nat.eq_zero_or_pos e.attemptNumber with hatt | hatt
    · have hiter : e.iteration = none := by
        by_contra hne
        exact absurd (h.numbered hne) (by omega)
      exact .inl ⟨by simp [numbers, hinput, hatt, hasIdentity], hatt, hiter⟩
    · cases hiter : e.iteration with
      | none =>
        exact .inr (.inl ⟨by simp [numbers, hstep, hinput, hatt, hasIdentity,
          hiter], hatt, rfl⟩)
      | some i =>
        exact .inr (.inr ⟨i, by simp [numbers, hstep, hinput, hatt, hasIdentity,
          hiter], hatt, rfl⟩)

lemma Event.WellFormed.numbers_input (hinput : e.type = .stepInputQueued) :
    e.numbers = [e.inputRequestID.toList] := by
  obtain ⟨hstep, hrequest, -, -⟩ := h.input hinput
  have hne : e.inputRequestID ≠ "" := by
    rintro hempty
    rw [hempty] at hrequest
    exact absurd hrequest (by decide)
  simp [numbers, hstep, hinput, hne]

lemma Event.WellFormed.numerals (hinput : e.type ≠ .stepInputQueued) :
    ∀ w ∈ e.numbers, Numeral w = true := by
  rcases h.numbers_cases hinput with ⟨hn, -⟩ | ⟨hn, -⟩ | ⟨i, hn, -⟩
  · rw [hn]
    exact List.forall_mem_nil _
  · rw [hn, List.forall_mem_singleton]
    exact numeral_toString _
  · rw [hn, List.forall_mem_cons, List.forall_mem_singleton]
    exact ⟨numeral_toString _, numeral_toString _⟩

lemma Event.WellFormed.unsplit_words : Unsplit '.' e.words := by
  have hnumbers : Unsplit '.' e.numbers := by
    intro w hw hmem
    by_cases hinput : e.type = .stepInputQueued
    · obtain ⟨-, hrequest, -, -⟩ := h.input hinput
      rw [h.numbers_input hinput, List.mem_singleton] at hw
      subst hw
      simp only [validateRequestID, Bool.and_eq_true] at hrequest
      exact absurd (List.all_eq_true.mp hrequest.2 '.' hmem) (by decide)
    · exact absurd (List.all_eq_true.mp (h.numerals hinput w hw) '.' hmem) (by decide)
  refine hnumbers.append ?_
  intro w hw
  obtain ⟨v, -, rfl⟩ := List.mem_map.mp hw
  exact v.not_mem_chars

lemma Event.WellFormed.numbers_inj (h' : e'.WellFormed)
    (hinput : e.type = .stepInputQueued ↔ e'.type = .stepInputQueued)
    (heq : e.numbers = e'.numbers) : e.attemptNumber = e'.attemptNumber ∧ e.iteration =
    e'.iteration ∧ e.inputRequestID = e'.inputRequestID := by
  by_cases htype : e.type = .stepInputQueued
  · have htype' := hinput.mp htype
    obtain ⟨-, -, hatt, hiter⟩ := h.input htype
    obtain ⟨-, -, hatt', hiter'⟩ := h'.input htype'
    rw [h.numbers_input htype, h'.numbers_input htype'] at heq
    refine ⟨hatt.trans hatt'.symm, hiter.trans hiter'.symm, ?_⟩
    exact String.toList_inj.mp (List.cons.inj heq).1
  · have htype' : e'.type ≠ .stepInputQueued := fun hi => htype (hinput.mpr hi)
    have hrequest : e.inputRequestID = e'.inputRequestID :=
      (h.other htype).trans (h'.other htype').symm
    have hnumbers : e.attemptNumber = e'.attemptNumber ∧ e.iteration = e'.iteration := by
      rcases h.numbers_cases htype with ⟨hn, ha, hi⟩ | ⟨hn, ha, hi⟩ | ⟨i, hn, ha, hi⟩ <;>
      rcases h'.numbers_cases htype' with
        ⟨hn', ha', hi'⟩ | ⟨hn', ha', hi'⟩ | ⟨i', hn', ha', hi'⟩ <;>
      rw [hn, hn'] at heq <;>
      simp only [List.cons.injEq, toString_toList_inj, and_true, List.nil_eq,
        List.cons_ne_nil, and_false] at heq
      · exact ⟨ha.trans ha'.symm, hi.trans hi'.symm⟩
      · exact ⟨heq, hi.trans hi'.symm⟩
      · exact ⟨heq.2, by rw [hi, hi', heq.1]⟩
    exact ⟨hnumbers.1, hnumbers.2, hrequest⟩

lemma Event.WellFormed.numbers_congr (h' : e'.WellFormed) (hinput : e.type ≠ .stepInputQueued)
    (hinput' : e'.type ≠ .stepInputQueued) (hatt : e.attemptNumber = e'.attemptNumber)
    (hiter : e.iteration = e'.iteration) : e.numbers = e'.numbers := by
  rcases h.numbers_cases hinput with ⟨hn, ha, hi⟩ | ⟨hn, ha, hi⟩ | ⟨i, hn, ha, hi⟩ <;>
  rcases h'.numbers_cases hinput' with
    ⟨hn', ha', hi'⟩ | ⟨hn', ha', hi'⟩ | ⟨i', hn', ha', hi'⟩ <;>
  rw [hn, hn'] <;> rw [hi, hi'] at hiter <;> simp at hiter <;> first
    | omega
    | rw [hatt]
  rw [hiter]

end

/-! ## The types -/

def EventType.all : List EventType :=
  [.workflowStarted, .workflowCompleted, .workflowFailed, .workflowCancelled,
    .workflowSpawn, .workflowChildCompleted, .workflowChildFailed, .stepQueued,
    .stepStarted, .stepCompleted, .stepFailed, .stepContinue, .stepMapStarted,
    .stepMapCompleted, .stepMapInstanceCompleted, .stepCancelled,
    .stepSleepStarted, .stepSleepCompleted, .stepWaitStarted, .stepWaitMatched,
    .stepWaitTimeout, .stepWaitElapsed, .stepInputQueued, .compensateStarted,
    .compensateStepCompleted, .compensateFailed, .compensateCompleted,
    .approvalRequested, .approvalGranted, .approvalRejected, .approvalExpired,
    .plannerMaterialized]

lemma EventType.mem_all (t : EventType) : t ∈ all := by
  cases t <;> decide

/-- Of two different types, only `step.completed` is the end of another. -/
lemma EventType.words_eq_append {t t' : EventType}
    (h : t.words.map Word.chars = t'.words.map Word.chars ++ us) : (t = t' ∧ us = []) ∨
    (t = .compensateStepCompleted ∧ t' = .stepCompleted ∧ us = [Word.chars .compensate]) := by
  have htypes : ∀ t ∈ all, ∀ t' ∈ all, t'.words.isPrefixOf t.words = true →
      t = t' ∨ (t = .compensateStepCompleted ∧ t' = .stepCompleted) := by
    decide +kernel
  obtain ⟨ws, vs, hwords, hws, rfl⟩ := List.map_eq_append_iff.mp h
  obtain rfl := List.map_injective_iff.mpr Word.chars_injective hws
  have hprefix : t'.words.isPrefixOf t.words = true := by
    rw [hwords, List.isPrefixOf_iff_prefix]
    exact List.prefix_append _ _
  rcases htypes t t.mem_all t' t'.mem_all hprefix with rfl | ⟨rfl, rfl⟩
  · exact .inl ⟨rfl, by simpa using hwords⟩
  · refine .inr ⟨rfl, rfl, ?_⟩
    have hvs : [Word.compensate] = vs := (List.cons.inj (List.cons.inj hwords).2).2
    rw [← hvs, List.map_singleton]

lemma Event.WellFormed.ne_input (h : e.WellFormed) (hinput : e.type ≠ .stepInputQueued)
    (w : List Char) (us vs : List (List Char)) :
    e.words ++ us ≠ w :: (EventType.stepInputQueued.words.map Word.chars ++ vs) := by
  have hsecond : e.type.words[1]? ≠ some .queued := by
    cases e.type <;> decide
  have hfirst : e.type.words.take 2 ≠ [.queued, .input] := by
    intro htake
    cases htype : e.type <;> rw [htype] at htake hinput <;> first
      | exact absurd htake (by decide)
      | exact hinput rfl
  obtain ⟨x, y, ws, hwords⟩ := e.type.words_eq_cons
  intro heq
  rw [words, hwords] at heq
  rcases h.numbers_cases hinput with ⟨hn, -⟩ | ⟨hn, -⟩ | ⟨i, hn, -⟩
  · rw [hn] at heq
    have hy : y.chars = Word.chars .queued := (List.cons.inj (List.cons.inj heq).2).1
    exact hsecond (by rw [hwords, Word.chars_injective hy]; rfl)
  · rw [hn] at heq
    have hx : x.chars = Word.chars .queued := (List.cons.inj (List.cons.inj heq).2).1
    have hy : y.chars = Word.chars .input :=
      (List.cons.inj (List.cons.inj (List.cons.inj heq).2).2).1
    exact hfirst (by
      rw [hwords, Word.chars_injective hx, Word.chars_injective hy]; rfl)
  · rw [hn] at heq
    have hatt : (toString e.attemptNumber).toList = Word.chars .queued :=
      (List.cons.inj (List.cons.inj heq).2).1
    have hnumeral := numeral_toString e.attemptNumber
    rw [hatt, Word.not_numeral] at hnumeral
    cases hnumeral

/-- Where the words of one event start like those of another, the numbers agree
and the types are left. -/
lemma Event.WellFormed.words_append (h : e.WellFormed) (h' : e'.WellFormed)
    (heq : e.words = e'.words ++ us) : e.numbers = e'.numbers ∧ e.type.words.map Word.chars =
    e'.type.words.map Word.chars ++ us := by
  by_cases hinput : e.type = .stepInputQueued
  · by_cases hinput' : e'.type = .stepInputQueued
    · rw [words, words, h.numbers_input hinput, h'.numbers_input hinput', hinput, hinput'] at heq
      rw [h.numbers_input hinput, h'.numbers_input hinput', hinput, hinput']
      obtain ⟨hrequest, hrest⟩ := List.cons.inj heq
      exact ⟨by rw [hrequest], hrest⟩
    · rw [words, h.numbers_input hinput, hinput] at heq
      have hne := h'.ne_input hinput' e.inputRequestID.toList us []
      rw [List.append_nil] at hne
      exact absurd heq.symm hne
  · by_cases hinput' : e'.type = .stepInputQueued
    · have hne := h.ne_input hinput e'.inputRequestID.toList [] us
      rw [heq, words, h'.numbers_input hinput', hinput', List.append_nil] at hne
      exact absurd rfl hne
    · obtain ⟨w, v, ws, hwords⟩ := e.type.words_eq_cons
      obtain ⟨w', v', ws', hwords'⟩ := e'.type.words_eq_cons
      rw [words, words, List.append_assoc, hwords, hwords'] at heq
      rw [hwords, hwords']
      exact numerals_append_inj (h.numerals hinput) (h'.numerals hinput')
        w.not_numeral w'.not_numeral heq

lemma Event.text_inj (hrun : e.runID = e'.runID) (h : e.text = e'.text) : e.stepID = e'.stepID := by
  unfold text at h
  rw [hrun] at h
  split_ifs at h with hstep hstep' hstep'
  · rw [hstep, hstep']
  · simp at h
  · simp at h
  · exact String.toList_inj.mp (by simpa using h)

/-- The step whose `step.completed` reads like a `compensate.step.completed` of
the given step. -/
def compensateOf (stepID : String) : String :=
  if stepID = "" then "compensate" else stepID ++ ".compensate"

lemma Event.text_compensate (hrun : e.runID = e'.runID) : e'.text =
    behind '.' e.text [Word.chars .compensate] ↔ e'.stepID = compensateOf e.stepID := by
  have htoList : e'.stepID = compensateOf e.stepID ↔
      e'.stepID.toList = (compensateOf e.stepID).toList := String.toList_inj.symm
  rw [htoList]
  unfold text compensateOf
  rw [hrun]
  split_ifs with hstep' hstep hstep
  · simp [behind, hstep']
  · simp [behind, hstep']
  · simp [behind, Word.chars, Word.text]
  · simp [behind, Word.chars, Word.text]

/-! ## Events with one identifier -/

/-- The two events differ at most in the child they are about. -/
def Event.SameButChild (e e' : Event) : Prop :=
  { e.occurrence with child := e'.child } = e'.occurrence

/-- Both events are about children of one parent step, and about two of them. -/
def Event.Siblings (e e' : Event) : Prop :=
  e.SameButChild e' ∧ e.child ≠ e'.child

/-- `e` is the `compensate.step.completed` of a step, and `e'` the
`step.completed` of the step whose name goes on with `compensate`. -/
def Event.ReadsLike (e e' : Event) : Prop :=
  e.type = .compensateStepCompleted ∧ e'.type = .stepCompleted ∧
    e'.stepID = compensateOf e.stepID ∧ e.attemptNumber = e'.attemptNumber ∧
      e.iteration = e'.iteration

lemma Event.occurrence_eq_iff :
    e.occurrence = e'.occurrence ↔ e.SameButChild e' ∧ e.child = e'.child := by
  constructor
  · intro h
    have hchild : e.child = e'.child := congrArg Occurrence.child h
    refine ⟨?_, hchild⟩
    rw [SameButChild, ← hchild]
    exact h
  · rintro ⟨hsame, hchild⟩
    rw [SameButChild, ← hchild] at hsame
    exact hsame

lemma Event.natsMsgID_of_sameButChild (hrun : e.runID = e'.runID) (h : e.SameButChild e') :
    e.natsMsgID = e'.natsMsgID := by
  cases e
  cases e'
  simp only [SameButChild, occurrence, Occurrence.mk.injEq, and_true] at h hrun
  obtain ⟨rfl, rfl, rfl, rfl, rfl⟩ := h
  subst hrun
  rfl

section

variable (h : e.WellFormed) (h' : e'.WellFormed) (hrun : e.runID = e'.runID)
include h h' hrun

/-- What it takes that the words of one identifier start like those of another. -/
lemma Event.WellFormed.read_off (heq : e.words = e'.words ++ us)
    (htext : e'.text = behind '.' e.text us) : e.SameButChild e' ∨ e.ReadsLike e' := by
  obtain ⟨hnumbers, hwords⟩ := h.words_append h' heq
  rcases EventType.words_eq_append hwords with ⟨htype, rfl⟩ | ⟨htype, htype', rfl⟩
  · left
    obtain ⟨ha, hi, hr⟩ := h.numbers_inj h' (by rw [htype]) hnumbers
    have hstep := text_inj hrun htext.symm
    simp only [SameButChild, occurrence, htype, hstep, ha, hi, hr]
  · right
    obtain ⟨ha, hi, -⟩ := h.numbers_inj h' (by rw [htype, htype']; decide) hnumbers
    exact ⟨htype, htype', (text_compensate hrun).mp htext, ha, hi⟩

lemma Event.WellFormed.natsMsgID_of_readsLike (hreads : e.ReadsLike e') :
    e.natsMsgID = e'.natsMsgID := by
  obtain ⟨htype, htype', hstep, ha, hi⟩ := hreads
  have hnumbers := h.numbers_congr h' (by rw [htype]; decide) (by rw [htype']; decide) ha hi
  have hwords : e.words = e'.words ++ [Word.chars .compensate] := by
    rw [words, words, hnumbers, htype, htype', List.append_assoc]
    rfl
  rw [← String.toList_inj, toList_natsMsgID, toList_natsMsgID, hwords, behind_append,
    (text_compensate hrun).mpr hstep]

/-- Two events of a run share an identifier only if they differ at most in the
child they are about, or if one reads like the other. -/
lemma Event.WellFormed.natsMsgID_eq_iff :
    e.natsMsgID = e'.natsMsgID ↔ e.SameButChild e' ∨ e.ReadsLike e' ∨ e'.ReadsLike e := by
  constructor
  · intro heq
    rw [← String.toList_inj, toList_natsMsgID, toList_natsMsgID,
      behind_eq_iff h.unsplit_words h'.unsplit_words] at heq
    rcases heq with ⟨us, hus, htext⟩ | ⟨us, hus, htext⟩
    · rcases h.read_off h' hrun hus htext with hsame | hreads
      · exact .inl hsame
      · exact .inr (.inl hreads)
    · rcases h'.read_off h hrun.symm hus htext with hsame | hreads
      · refine .inl ?_
        simp only [SameButChild, occurrence, Occurrence.mk.injEq, and_true] at hsame ⊢
        simp only [hsame, and_self]
      · exact .inr (.inr hreads)
  · rintro (hsame | hreads | hreads)
    · exact natsMsgID_of_sameButChild hrun hsame
    · exact h.natsMsgID_of_readsLike h' hrun hreads
    · exact (h'.natsMsgID_of_readsLike h hrun.symm hreads).symm

end

/-- Two history events of a run carry one identifier exactly if they are the same
occurrence, unless they are about two children of one parent step, or one is the
completion of a compensation that reads like the completion of another step. -/
theorem natsMsgID_separates_iff {e e' : Event} (h : e.WellFormed) (h' : e'.WellFormed)
    (hrun : e.runID = e'.runID) : (e.natsMsgID = e'.natsMsgID ↔ e.occurrence = e'.occurrence) ↔
    ¬(e.Siblings e' ∨ e.ReadsLike e' ∨ e'.ReadsLike e) := by
  have hid := h.natsMsgID_eq_iff h' hrun
  have hnot : e.ReadsLike e' ∨ e'.ReadsLike e → ¬e.SameButChild e' := by
    rintro (⟨htype, htype', -⟩ | ⟨htype, htype', -⟩) hsame
    all_goals
      have := congrArg Occurrence.type hsame
      simp [Event.occurrence, htype, htype'] at this
  rw [hid, Event.occurrence_eq_iff, Event.Siblings]
  tauto

lemma Event.wellFormed_step (runID stepID : String) (attempt : ℕ) (htype : type ≠ .stepInputQueued)
    (hstep : stepID ≠ "") : Event.WellFormed
      { type := type, runID := runID, stepID := stepID, payload := payload
        attemptNumber := attempt } where
  unnumbered := fun h => absurd h hstep
  numbered := fun h => absurd rfl h
  input := fun h => absurd h htype
  other := fun _ => rfl

theorem natsMsgID_separates_attempts :
    let e : Event := { type := .stepStarted, runID := "r", stepID := "a", attemptNumber := 1 }
    let e' : Event := { type := .stepStarted, runID := "r", stepID := "a", attemptNumber := 2 }
    e.WellFormed ∧ e'.WellFormed ∧ ¬(e.natsMsgID = e'.natsMsgID) := by
  intro e e'
  have h : e.WellFormed := Event.wellFormed_step "r" "a" 1 (by decide) (by decide)
  have h' : e'.WellFormed :=
    Event.wellFormed_step "r" "a" 2 (by decide) (by decide)
  refine ⟨h, h', ?_⟩
  have hiff := (natsMsgID_separates_iff h h' rfl).mpr (by
    rintro (⟨-, hchild⟩ | ⟨htype, -⟩ | ⟨htype, -⟩)
    · exact hchild rfl
    · cases htype
    · cases htype)
  rw [hiff]
  decide

def spawnEvent (parentStepID childRunID : String) : Event where
  type := .workflowSpawn
  runID := "r"
  stepID := parentStepID
  payload := .doc (.obj [("child_run_id", .str childRunID)])

/-- A step that spawns two children publishes two events under one identifier. -/
theorem natsMsgID_shared_by_children : (spawnEvent "a" "c1").WellFormed ∧
    (spawnEvent "a" "c2").WellFormed ∧ (spawnEvent "a" "c1").child ≠ (spawnEvent "a" "c2").child ∧
    (spawnEvent "a" "c1").natsMsgID = (spawnEvent "a" "c2").natsMsgID :=
  ⟨Event.wellFormed_step "r" "a" 0 (by decide) (by decide),
    Event.wellFormed_step "r" "a" 0 (by decide) (by decide),
    by decide, rfl⟩

end Dagnats
