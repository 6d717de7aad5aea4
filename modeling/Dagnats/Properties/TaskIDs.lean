import Dagnats.Interaction.Segments
import Dagnats.Engine.Scenario

/-!
# The identifiers of task messages

The task stream drops a message whose identifier it has just seen. The
identifier joins the run, the step and a suffix of the place that sends the
task; three of the six suffixes end in a number, the others are the same for
every task of the step.

Whatever the step is called, the identifier shows the step, the place and the
number. So dispatches are told apart where a step is dispatched once more only with
a higher number, and where tasks are sent for the current dispatch, from a place for
dispatches of its kind.
-/

namespace Dagnats

open Interaction

variable {t t' : TaskPayload} {us : List (List Char)}

/-- The number that the identifier shows. -/
def TaskPayload.msgNumber (t : TaskPayload) : Option ℕ :=
  match t.route with
  | .queued | .sticky | .rateRetry => none
  | .continued => some t.iteration
  | .retryAfter | .retryBackoff => some t.attempt

/-- The words of a suffix, the last one first. -/
def TaskRoute.words : TaskRoute → List String
  | .queued => ["queued"]
  | .sticky => ["sticky", "queued"]
  | .continued => ["continue"]
  | .rateRetry => ["rate_retry"]
  | .retryAfter => ["retry_after"]
  | .retryBackoff => ["retry_backoff"]

/-- The words behind the run and the step, the last one first. -/
def TaskPayload.words (t : TaskPayload) : List (List Char) :=
  (t.msgNumber.map fun n => (toString n).toList).toList ++ t.route.words.map String.toList

lemma TaskPayload.toList_msgID (t : TaskPayload) : t.msgID.toList =
    behind '.' (t.runID.toList ++ '.' :: t.stepID.toList) t.words := by
  unfold msgID msgSuffix words msgNumber TaskRoute.words
  cases t.route <;> simp [behind]

lemma TaskRoute.words_eq_cons (r : TaskRoute) :
    ∃ w ws, r.words.map String.toList = w :: ws ∧ Numeral w = false := by
  cases r <;> exact ⟨_, _, rfl, by simp [Numeral]⟩

lemma TaskRoute.not_mem_words (r : TaskRoute) : ∀ w ∈ r.words.map String.toList, '.' ∉ w := by
  cases r <;> simp [words]

lemma TaskRoute.words_eq_append {r r' : TaskRoute}
    (h : r.words.map String.toList = r'.words.map String.toList ++ us) : r = r' ∧ us = [] := by
  obtain ⟨ws, vs, hwords, hws, rfl⟩ := List.map_eq_append_iff.mp h
  obtain rfl := List.map_injective_iff.mpr (fun _ _ => String.toList_injective) hws
  have hroute : r = r' := by
    have hprefix : r'.words.isPrefixOf r.words = true := by
      rw [hwords, List.isPrefixOf_iff_prefix]
      exact List.prefix_append _ _
    revert hprefix
    cases r <;> cases r' <;> decide
  subst hroute
  exact ⟨rfl, by simpa using hwords⟩

namespace TaskPayload

lemma numerals (t : TaskPayload) :
    ∀ w ∈ (t.msgNumber.map fun n => (toString n).toList).toList, Numeral w = true := by
  intro w hw
  obtain ⟨n, -, rfl⟩ := Option.map_eq_some_iff.mp (Option.mem_toList.mp hw)
  exact numeral_toString n

lemma unsplit_words (t : TaskPayload) : Unsplit '.' t.words := by
  apply Unsplit.append
  · intro w hw hmem
    exact absurd (List.all_eq_true.mp (t.numerals w hw) '.' hmem) (by decide)
  · exact t.route.not_mem_words

lemma words_eq_append (h : t.words = t'.words ++ us) :
    t.route = t'.route ∧ t.msgNumber = t'.msgNumber ∧ us = [] := by
  obtain ⟨w, ws, hwords, hw⟩ := t.route.words_eq_cons
  obtain ⟨w', ws', hwords', hw'⟩ := t'.route.words_eq_cons
  rw [words, words, List.append_assoc, hwords, hwords', List.cons_append] at h
  obtain ⟨hnumber, hroute⟩ := numerals_append_inj t.numerals t'.numerals hw hw' h
  rw [← hwords, ← List.cons_append, ← hwords'] at hroute
  obtain ⟨hroute, hus⟩ := TaskRoute.words_eq_append hroute
  refine ⟨hroute, ?_, hus⟩
  have hinjective : Function.Injective fun n : ℕ => (toString n).toList :=
    fun _ _ => toString_toList_inj.mp
  have hhead := congrArg List.head? hnumber
  rw [Option.head?_toList, Option.head?_toList] at hhead
  exact Option.map_injective hinjective hhead

/-- The two tasks are sent from one place for one step, with the same number if
the place shows one. -/
def SameSend (t t' : TaskPayload) : Prop :=
  t.stepID = t'.stepID ∧ t.route = t'.route ∧ t.msgNumber = t'.msgNumber

instance (t t' : TaskPayload) : Decidable (t.SameSend t') :=
  inferInstanceAs (Decidable (_ ∧ _))

lemma SameSend.symm (h : t.SameSend t') : t'.SameSend t :=
  ⟨h.1.symm, h.2.1.symm, h.2.2.symm⟩

lemma msgID_eq_iff (hrun : t.runID = t'.runID) : t.msgID = t'.msgID ↔ t.SameSend t' := by
  constructor
  · intro h
    have hchars := congrArg String.toList h
    rw [toList_msgID, toList_msgID, hrun, behind_eq_iff t.unsplit_words t'.unsplit_words] at hchars
    rcases hchars with ⟨us, hwords, hbase⟩ | ⟨us, hwords, hbase⟩
    · obtain ⟨hroute, hnumber, rfl⟩ := words_eq_append hwords
      have hstep : t'.stepID.toList = t.stepID.toList := by simpa [behind] using hbase
      exact ⟨(String.toList_inj.mp hstep).symm, hroute, hnumber⟩
    · obtain ⟨hroute, hnumber, rfl⟩ := words_eq_append hwords
      have hstep : t.stepID.toList = t'.stepID.toList := by simpa [behind] using hbase
      exact ⟨String.toList_inj.mp hstep, hroute.symm, hnumber.symm⟩
  · rintro ⟨hstep, hroute, hnumber⟩
    apply String.toList_inj.mp
    rw [toList_msgID, toList_msgID, words, words, hrun, hstep, hroute, hnumber]

end TaskPayload

section

variable (log : List Entry)

/-- The tasks that were sent, also those the stream dropped for their
identifiers, the last one first. -/
def sentTasks : List TaskPayload :=
  log.filterMap fun
    | .task t => some t
    | _ => none

/-- Two tasks of one run with one identifier belong to one dispatch. -/
def IDsSeparate : Prop :=
  ∀ t ∈ sentTasks log, ∀ t' ∈ sentTasks log, t.runID = t'.runID → t.msgID = t'.msgID →
    t.stepID = t'.stepID ∧ t.dispatchNonce = t'.dispatchNonce

end

/-! ## Dispatches that are told apart -/

/-- A first dispatch, a further iteration or a retry. -/
inductive DispatchKind where
  | first | iteration | retry
  deriving DecidableEq

def Origin.kind : Origin → DispatchKind
  | .iteration => .iteration
  | .retry => .retry
  | .enqueue _ | .requeue | .mapInstance | .unstamped => .first

/-- The dispatches that a place is there for. -/
def TaskRoute.kind : TaskRoute → DispatchKind
  | .queued | .sticky | .rateRetry => .first
  | .continued => .iteration
  | .retryAfter | .retryBackoff => .retry

/-- The last nonce that was minted for the step. -/
def lastStamp (runID stepID : String) : List Entry → Option (ℕ × Mint)
  | [] => none
  | .minted m :: older =>
    if m.runID = runID ∧ m.stepID = stepID then some (older.length, m)
    else lastStamp runID stepID older
  | _ :: older => lastStamp runID stepID older

/-- A step is dispatched once more only as an iteration with a higher number than all
tasks sent for it, or as a retry after all attempts they were sent for. -/
def countsOn (log : List Entry) (m : Mint) : Bool :=
  (sentTasks log).all fun t => t.runID ≠ m.runID || t.stepID ≠ m.stepID ||
    match m.origin.kind with
    | .first => false
    | .iteration => t.iteration < m.iterations
    | .retry => t.attempt ≤ m.attempts

/-- The task belongs to the last dispatch of the step and is sent from a place for
such dispatches; a timer has found the run. -/
def isCurrent (log : List Entry) (t : TaskPayload) : Bool :=
  t.attempt ≠ 0 && (lastStamp t.runID t.stepID log).any fun x =>
    t.dispatchNonce = some x.1 && x.2.origin.kind = t.route.kind

/-- Dispatches count on, and tasks are sent for the current one. -/
def keepsCount (log : List Entry) : Entry → Bool
  | .minted m => countsOn log m
  | .task t => isCurrent log t
  | _ => true

variable {o : Orchestrator} {log older : List Entry} {runID stepID : String} {n : ℕ} {m : Mint}

lemma lastStamp_at (h : lastStamp runID stepID log = some (n, m)) :
    At log n (.minted m) ∧ m.runID = runID ∧ m.stepID = stepID := by
  induction log with
  | nil => cases h
  | cons e older ih =>
    have hold : lastStamp runID stepID older = some (n, m) →
        At (e :: older) n (.minted m) ∧ m.runID = runID ∧ m.stepID = stepID :=
      fun h => ⟨(ih h).1.mono (List.suffix_cons e older), (ih h).2⟩
    cases e with
    | minted m' =>
      rw [lastStamp] at h
      split at h
      · next hids =>
        cases h
        exact ⟨.head older _, hids⟩
      · exact hold h
    | _ => exact hold h

lemma lastStamp_since (hlog : older <:+ log) :
    lastStamp runID stepID log = lastStamp runID stepID older ∨
      ∃ n m, lastStamp runID stepID log = some (n, m) ∧ older.length ≤ n := by
  induction log with
  | nil => exact .inl (by rw [List.suffix_nil.mp hlog])
  | cons e rest ih =>
    rcases List.suffix_cons_iff.mp hlog with rfl | hrest
    · exact .inl rfl
    · cases e with
      | minted m =>
        rw [lastStamp]
        split
        · exact .inr ⟨_, m, rfl, hrest.length_le⟩
        · exact ih hrest
      | _ => exact ih hrest

/-- A task of an iteration or a retry shows a number that its dispatch has not shown
before. -/
lemma TaskOk.counts {K : Terms} (h : TaskOk o log t) (hlog : LogOk o K log) (hatt : t.attempt ≠ 0)
    (hnonce : t.dispatchNonce = some n) (hat : At log n (.minted m))
    (hkind : m.origin.kind ≠ .first) :
    m.iterations ≤ t.iteration ∧ (t.route ≠ .continued → m.attempts < t.attempt) := by
  rcases h with ⟨hzero, -⟩ | ⟨s, hheld, hiter, hown, hnumber⟩
  · exact absurd hzero hatt
  · have htraced := hheld.traced hlog
    have hboard : ¬OffBoard log t.dispatchNonce := by
      rintro ⟨n', m', hn', hat', horigin⟩
      rw [hnonce] at hn'
      cases hn'
      cases hat.unique hat'
      rcases horigin with horigin | horigin <;> exact hkind (by rw [horigin]; rfl)
    have hsame : s.dispatchNonce = some n := by
      rcases hown with hown | hoff | ⟨hnone, hdue⟩
      · exact hown.symm.trans hnonce
      · exact absurd hoff hboard
      · obtain ⟨n', m', hn', -⟩ := htraced.retries hdue
        rw [hnone] at hn'
        cases hn'
    obtain ⟨n', m', hn', hat', -, -, ha, hi⟩ := htraced.minted (by simp [hsame])
    rw [hsame] at hn'
    cases hn'
    cases hat.unique hat'
    refine ⟨hiter ▸ hi, fun hroute => ?_⟩
    rcases hnumber with hnext | ⟨-, hcontinued, -⟩
    · omega
    · exact absurd hcontinued hroute

section

variable (hlog : LogOk o (Terms.onMessages keepsCount) log)
include hlog

lemma current_of_sent (h : (.task t :: older) <:+ log) :
    TaskOk o older t ∧ t.attempt ≠ 0 ∧ ∃ n m, lastStamp t.runID t.stepID older = some (n, m) ∧
      t.dispatchNonce = some n ∧ m.origin.kind = t.route.kind := by
  rcases (hlog.suffix h).head with ⟨⟨hok, -⟩, hK⟩ | ⟨hout, -⟩
  · have hcurrent : isCurrent older t = true := hK
    rw [isCurrent, Bool.and_eq_true, decide_eq_true_eq] at hcurrent
    obtain ⟨⟨n, m⟩, hstamp, htest⟩ := (Option.any_eq_true _ _).mp hcurrent.2
    rw [Bool.and_eq_true, decide_eq_true_eq, decide_eq_true_eq] at htest
    exact ⟨hok, hcurrent.1, n, m, hstamp, htest⟩
  · exact hout.elim

/-- A task that repeats an earlier send belongs to the same dispatch. -/
lemma nonce_eq_of_sameSend {older' : List Entry} (h : (.task t :: older) <:+ log)
    (h' : (.task t' :: older') <:+ older) (hrun : t.runID = t'.runID) (hsame : t.SameSend t') :
    t.dispatchNonce = t'.dispatchNonce := by
  obtain ⟨hstep, hroute, hnumber⟩ := hsame
  have holder : older <:+ log := (List.suffix_cons _ older).trans h
  obtain ⟨hok, hatt, n, m, hstamp, hnonce, hkind⟩ := current_of_sent hlog h
  obtain ⟨-, -, n', m', hstamp', hnonce', -⟩ := current_of_sent hlog (h'.trans holder)
  rcases lastStamp_since h' with hunchanged | ⟨n₁, m₁, hlast, hlater⟩
  · have heq : some (n, m) = some (n', m') := by
      rw [← hstamp, ← hstamp', ← hrun, ← hstep]
      exact hunchanged
    cases heq
    rw [hnonce, hnonce']
  · -- the step was stamped anew after the first of the two, and counted on
    exfalso
    rw [hstamp] at hlast
    cases hlast
    obtain ⟨hat, hmrun, hmstep⟩ := lastStamp_at hstamp
    obtain ⟨before, hbefore, rfl, -, happended⟩ := hlog.entry (hat.mono holder)
    have hcounts : countsOn before m = true := happended.elim (fun h => h.2) fun h => h.1.elim
    have hin : (.task t' :: older') <:+ before :=
      List.suffix_of_suffix_length_le (h'.trans holder) ((List.suffix_cons _ _).trans hbefore)
        hlater
    have hsent : t' ∈ sentTasks before :=
      List.mem_filterMap.mpr ⟨.task t', hin.subset (.head _), rfl⟩
    have htest := List.all_eq_true.mp hcounts t' hsent
    rw [hkind] at htest
    simp only [hmrun, hmstep, hrun, hstep, ne_eq, not_true_eq_false, decide_false,
      Bool.false_or] at htest
    have hmore := hok.counts (hlog.suffix holder) hatt hnonce hat
    rw [hkind] at hmore
    unfold TaskPayload.msgNumber at hnumber
    rw [← hroute] at hnumber
    cases hplace : t.route <;> simp only [hplace, TaskRoute.kind, Bool.false_eq_true,
      decide_eq_true_eq, Option.some.injEq, ne_eq, reduceCtorEq, not_false_eq_true,
      true_implies, not_true_eq_false, false_implies, and_true] at htest hnumber hmore
    · omega
    · omega
    · omega

end

/-- **Message identifiers separate dispatches.**  In every run of the engines in which
dispatches of a step count on and tasks are sent for the current one, two tasks of one
run have the same identifier only if they belong to the same dispatch. -/
theorem ids_separate {p : Pool o.system}
    (hp : Pool.Reaches ((Terms.onMessages keepsCount).conditions o) (emptyPool o) p) :
    IDsSeparate p.state.log := by
  have hlog := reaches_logOk hp
  intro t ht t' ht' hrun hid
  have hsame := (TaskPayload.msgID_eq_iff hrun).mp hid
  refine ⟨hsame.1, ?_⟩
  have hsent : ∀ {t : TaskPayload}, t ∈ sentTasks p.state.log →
      ∃ older, (.task t :: older) <:+ p.state.log := by
    intro t ht
    obtain ⟨e, hmem, he⟩ := List.mem_filterMap.mp ht
    cases e with
    | task t' =>
      cases he
      obtain ⟨i, older, hsuffix, -⟩ := At.of_mem hmem
      exact ⟨older, hsuffix⟩
    | _ => cases he
  obtain ⟨older, h⟩ := hsent ht
  obtain ⟨older', h'⟩ := hsent ht'
  rcases Nat.lt_trichotomy older'.length older.length with hlt | heq | hlt
  · exact nonce_eq_of_sameSend hlog h (List.suffix_of_suffix_length_le h'
      ((List.suffix_cons _ older).trans h) hlt) hrun hsame
  · have hentry : Entry.task t = Entry.task t' := At.unique ⟨older, h, rfl⟩ ⟨older', h', heq⟩
    cases hentry
    rfl
  · exact (nonce_eq_of_sameSend hlog h' (List.suffix_of_suffix_length_le h
      ((List.suffix_cons _ older').trans h') hlt) hrun.symm hsame.symm).symm

namespace Counting

/-- `a` may be retried. -/
def workflow : WorkflowDef where
  name := "counting"
  steps := [{ id := "a", task := "work", retry := some { maxAttempts := 3 } }]

/-- `a` fails once and is sent again under a nonce and an identifier of its own. -/
theorem retry_separate : ∃ (p : Pool Orchestrator.plain.system) (t t' : TaskPayload),
    Pool.Reaches ((Terms.onMessages keepsCount).conditions Orchestrator.plain)
      (emptyPool Orchestrator.plain) p ∧
    t ∈ sentTasks p.state.log ∧ t' ∈ sentTasks p.state.log ∧ t.runID = t'.runID ∧
    t.stepID = t'.stepID ∧ t.dispatchNonce ≠ t'.dispatchNonce ∧ t.msgID ≠ t'.msgID := by
  obtain ⟨p, hp, htest⟩ := Pool.reaches_of_script (Terms.messageChecks_sound keepsCount)
    (emptyPool Orchestrator.plain)
    (launched _ workflow ++ replied .stepFailed "a" 5 10 ++ [pass 1000000000] ++ perform (.fire 13))
    (fun p => (sentTasks p.state.log).any fun t => (sentTasks p.state.log).any fun t' =>
      t.runID = t'.runID && t.stepID = t'.stepID && t.dispatchNonce ≠ t'.dispatchNonce)
  obtain ⟨t, ht, htest⟩ := List.any_eq_true.mp htest
  obtain ⟨t', ht', htest⟩ := List.any_eq_true.mp htest
  simp only [Bool.and_eq_true, decide_eq_true_eq, and_assoc] at htest
  obtain ⟨hrun, hstep, hnonce⟩ := htest
  exact ⟨p, t, t', hp, ht, ht', hrun, hstep, hnonce, fun hid =>
    hnonce (ids_separate hp t ht t' ht' hrun hid).2⟩

end Counting

namespace SharedHandler

/-- `a` and `b` both name `h`. -/
def workflow : WorkflowDef where
  name := "shared"
  steps := [{ id := "a", task := "work", onFailure := "h" },
    { id := "b", task := "work", onFailure := "h" }, { id := "h", task := "mend" }]
  auxSteps := ["h"]

/-- Two dispatches of one step under one identifier. -/
def clashing (t t' : TaskPayload) : Bool :=
  t.runID = t'.runID && t.msgID = t'.msgID && t.dispatchNonce ≠ t'.dispatchNonce

/-- `h` is dispatched for the failure of `a` and again for that of `b`: the stream
drops the second task, and the first one answers under a nonce that the run no
longer holds. -/
theorem second_dispatch_same_id : Valid Orchestrator.plain workflow ∧
    ∃ (p : Pool Orchestrator.plain.system) (t t' : TaskPayload),
    Pool.Reaches Conditions.free (emptyPool Orchestrator.plain) p ∧ t ∈ sentTasks p.state.log ∧
    t' ∈ sentTasks p.state.log ∧ t.runID = t'.runID ∧ t.msgID = t'.msgID ∧
    t.dispatchNonce ≠ t'.dispatchNonce := by
  refine ⟨by decide +kernel, ?_⟩
  obtain ⟨p, hp, htest⟩ := reaches_free Orchestrator.plain
    (launched _ workflow ++ replied .stepFailed "a" 5 13 ++ replied .stepFailed "b" 6 17)
    (fun p => (sentTasks p.state.log).any fun t =>
      (sentTasks p.state.log).any fun t' => clashing t t')
  obtain ⟨t, ht, htest⟩ := List.any_eq_true.mp htest
  obtain ⟨t', ht', hclash⟩ := List.any_eq_true.mp htest
  simp only [clashing, Bool.and_eq_true, decide_eq_true_eq, and_assoc] at hclash
  obtain ⟨hrun, hid, hnonce⟩ := hclash
  exact ⟨p, t, t', hp, ht, ht', hrun, hid, hnonce⟩

end SharedHandler

end Dagnats
