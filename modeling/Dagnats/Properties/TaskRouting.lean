import Mathlib.Data.Bool.Basic
import Dagnats.Engine.Scenario
import Dagnats.Subjects

/-!
# Which consumer a task reaches

A task is published under its type, its group and its run; a consumer filters by
a type and a group. Types are dotted names, so both are sequences of tokens of
any length. A group is told from the last token of a type by its sentinel, which
no accepted name holds.

A step type may be given a route of its own. Its tasks then leave the subjects
that `FilterFor` speaks of.
-/

namespace Dagnats

open Interaction

variable {o : Orchestrator} {step : StepDef} {task group task' group' runID : String}

/-- A task type and a worker group that `validateStepDispatch` lets pass. -/
structure AcceptedPair (task group : String) : Prop where
  task : validTaskType task = true
  group : group = "" ∨ validWorkerGroup group = true

lemma splitChars_singleton (sep : Char) (cs : List Char) :
    splitChars [sep] cs 0 = cs.splitOn sep := by
  induction cs with
  | nil => rfl
  | cons c cs ih =>
    have hwords : splitChars [sep] (c :: cs) 0 =
        if sep == c then [] :: splitChars [sep] cs 0
        else (splitChars [sep] cs 0).modifyHead (c :: ·) := by
      rw [splitChars]
      simp only [List.isPrefixOf, Bool.and_true, List.length_singleton, Nat.sub_self]
      split
      · rfl
      · cases htail : splitChars [sep] cs 0 with
        | nil =>
          rw [ih] at htail
          exact absurd htail (List.splitOn_ne_nil sep cs)
        | cons w ws => rfl
    rw [hwords, ih, List.splitOn, List.splitOn, List.splitOnP_cons_eq_if_modifyHead, Bool.beq_comm]

def nameTokens (s : String) : List (List Char) :=
  s.toList.splitOn '.'

lemma isTaskChar_of_valid (h : validTaskType task = true) {token : List Char}
    (htoken : token ∈ nameTokens task) {c : Char} (hc : c ∈ token) : isTaskChar c = true := by
  unfold validTaskType splitString at h
  have hdot : ".".toList = ['.'] := rfl
  rw [hdot, splitChars_singleton] at h
  simp only [Bool.and_eq_true, List.all_map, List.all_eq_true, Function.comp,
    String.toList_ofList] at h
  exact (h.2 token htoken).2 c hc

lemma AcceptedPair.dot_notMem (h : AcceptedPair task group) : '.' ∉ group.toList := by
  rcases h.group with rfl | hvalid
  · simp
  · unfold validWorkerGroup at hvalid
    simpa using (Bool.and_eq_true_iff.mp hvalid).2

def groupTokens (group : String) : List (List Char) :=
  if group = "" then [] else ['=' :: group.toList]

lemma groupTokens_empty : groupTokens "" = [] := rfl

def pairTokens (task group : String) : List (List Char) :=
  "task".toList :: (nameTokens task ++ groupTokens group)

lemma splitOn_pair (h : '.' ∉ group.toList) {last : List Char} (hlast : '.' ∉ last) :
    ("task".toList ++ '.' :: task.toList ++
        (if group = "" then [] else '.' :: '=' :: group.toList) ++ '.' :: last).splitOn '.' =
      pairTokens task group ++ [last] := by
  have htask : "task".toList.splitOn '.' = ["task".toList] := List.splitOn_eq_singleton (by decide)
  rw [List.splitOn_append_cons_self, List.splitOn_eq_singleton hlast, pairTokens, groupTokens]
  congr 1
  split
  · rw [List.append_nil, List.splitOn_append_cons_self, htask]
    simp [nameTokens]
  · have hgroup : ('=' :: group.toList).splitOn '.' = ['=' :: group.toList] :=
      List.splitOn_eq_singleton (by simpa using h)
    rw [List.append_assoc, List.cons_append, List.splitOn_append_cons_self,
      List.splitOn_append_cons_self, htask, hgroup]
    simp [nameTokens]

lemma splitOn_stepSubject (hroute : o.stepRoutes step.type = none)
    (h : AcceptedPair step.task step.workerGroup) (hrun : '.' ∉ runID.toList) :
    (o.stepSubject step runID).toList.splitOn '.' =
    pairTokens step.task step.workerGroup ++ [runID.toList] := by
  rw [← splitOn_pair h.dot_notMem hrun]
  congr 1
  unfold Orchestrator.stepSubject
  rw [hroute]
  by_cases hgroup : step.workerGroup = "" <;> simp [hgroup]

section

variable (h : AcceptedPair task group)
include h

lemma splitOn_filterFor :
    (filterFor task group).toList.splitOn '.' = pairTokens task group ++ [['*']] := by
  rw [← splitOn_pair h.dot_notMem (by decide)]
  congr 1
  unfold filterFor groupSentinel
  by_cases hgroup : group = "" <;> simp [hgroup]

lemma AcceptedPair.literal {f : List Char} (hf : f ∈ pairTokens task group) :
    Literal ['*'] ['>'] f := by
  have hchar : ∀ c : Char, isTaskChar c = false → f ∈ nameTokens task → f ≠ [c] := by
    rintro c hc hmem rfl
    rw [isTaskChar_of_valid h.task hmem (List.mem_singleton_self c)] at hc
    cases hc
  rcases List.mem_cons.mp hf with rfl | hf
  · exact ⟨by decide, by decide⟩
  · rcases List.mem_append.mp hf with hf | hf
    · exact ⟨hchar '*' (by decide) hf, hchar '>' (by decide) hf⟩
    · unfold groupTokens at hf
      split at hf
      · cases hf
      · rw [List.mem_singleton.mp hf]
        constructor
        all_goals
          intro heq
          cases (List.cons.inj heq).1

lemma subjectMatches_filterFor (subject : String) : subjectMatches (filterFor task group) subject =
    true ↔ ∃ t, subject.toList.splitOn '.' = pairTokens task group ++ [t] := by
  unfold subjectMatches
  rw [splitOn_filterFor h, tokensMatch_append (fun f hf => h.literal hf)]
  constructor
  · rintro ⟨us, hus, hmatch⟩
    obtain ⟨t, rfl⟩ := (tokensMatch_one (by decide) us).mp hmatch
    exact ⟨t, hus⟩
  · rintro ⟨t, ht⟩
    exact ⟨[t], ht, (tokensMatch_one (by decide) [t]).mpr ⟨t, rfl⟩⟩

/-- A group is not the last token of a type: it has the sentinel in front. -/
lemma groupTokens_ne (hgroup' : group' ≠ "") :
    nameTokens task ≠ nameTokens task' ++ groupTokens group' := by
  intro heq
  have hmem : '=' :: group'.toList ∈ nameTokens task := by
    rw [heq, groupTokens, if_neg hgroup']
    simp
  have hchar := isTaskChar_of_valid h.task hmem (.head _)
  exact absurd hchar (by decide)

end

lemma nameTokens_inj (h : nameTokens task = nameTokens task') : task = task' := by
  apply String.toList_injective
  calc
    task.toList = ['.'].intercalate (nameTokens task) := (List.intercalate_splitOn '.').symm
    _ = ['.'].intercalate (nameTokens task') := by rw [h]
    _ = task'.toList := List.intercalate_splitOn '.'

lemma pairTokens_inj (h : AcceptedPair task group) (h' : AcceptedPair task' group')
    (heq : pairTokens task group = pairTokens task' group') : task = task' ∧ group = group' := by
  have htokens := (List.cons.inj heq).2
  by_cases hgroup : group = ""
  · by_cases hgroup' : group' = ""
    · subst hgroup hgroup'
      rw [groupTokens_empty, List.append_nil, List.append_nil] at htokens
      exact ⟨nameTokens_inj htokens, rfl⟩
    · subst hgroup
      rw [groupTokens_empty, List.append_nil] at htokens
      exact absurd htokens (groupTokens_ne h hgroup')
  · by_cases hgroup' : group' = ""
    · subst hgroup'
      rw [groupTokens_empty, List.append_nil] at htokens
      exact absurd htokens.symm (groupTokens_ne h' hgroup)
    · simp only [groupTokens, if_neg hgroup, if_neg hgroup'] at htokens
      obtain ⟨htask, hlast⟩ := List.append_inj' htokens rfl
      simp only [List.cons.injEq, true_and, and_true] at hlast
      exact ⟨nameTokens_inj htask, String.toList_injective hlast⟩

namespace Routes

def agentStep : StepDef :=
  { id := "review", task := "dagger.call", type := .agent, workerGroup := "gpu" }

def routing : Orchestrator :=
  { Orchestrator.plain with
    stepRoutes := fun type => if type = .agent then some "agent.task" else none }

end Routes

/-! ## Filters of earlier releases -/

/-- A filter is recognised if and only if it is a legacy filter of the pair, and only
a consumer with such a filter is deleted. -/
structure RecognisesLegacy (task group old : String) : Prop where
  exact : filterIsLegacyUpgrade (filterFor task group) old = .ok true ↔
    old ∈ legacyFilterFor task group
  deletes : adoptConsumer (filterFor task group) old = .ok .deletes →
    old ∈ legacyFilterFor task group

/-- The sentinel with the earlier wildcard, which no release has had. -/
def mixedFilter (task group : String) : String :=
  "task." ++ task ++ "." ++ groupSentinel ++ group ++ ".>"

variable {old filter : String} {cs rest : List Char}

lemma upgrade_of_deletes (h : adoptConsumer filter old = .ok .deletes) :
    filterIsLegacyUpgrade filter old = .ok true := by
  unfold adoptConsumer at h
  cases hlegacy : filterIsLegacyUpgrade filter old with
  | error e | ok legacy => grind [Except.map]

lemma AcceptedPair.sentinel_notMem (h : AcceptedPair task group) : '=' ∉ task.toList := by
  have hjoin : ∀ ts : List (List Char), (∀ t ∈ ts, '=' ∉ t) → '=' ∉ ['.'].intercalate ts := by
    intro ts hts
    induction ts with
    | nil => simp
    | cons t ts ih => cases ts <;> simp_all
  have htask : ['.'].intercalate (nameTokens task) = task.toList := List.intercalate_splitOn '.'
  rw [← htask]
  exact hjoin _ fun t ht hmem => absurd (isTaskChar_of_valid h.task ht hmem) (by decide)

/-- The search for the sentinel passes over all of the type. -/
lemma findIdx?_sentinel (h : '=' ∉ cs) :
    (cs ++ '.' :: rest).tails.findIdx? ['.', '='].isPrefixOf =
      (('.' :: rest).tails.findIdx? ['.', '='].isPrefixOf).map (cs.length + ·) := by
  induction cs with
  | nil => simp
  | cons c cs ih =>
    rw [List.mem_cons, not_or] at h
    have hnot : ['.', '='].isPrefixOf (c :: (cs ++ '.' :: rest)) = false := by
      cases cs <;> simp_all [List.isPrefixOf]
    rw [List.cons_append, List.tails_cons, List.findIdx?_cons, hnot, ih h.2]
    simp [Function.comp_def, Nat.add_right_comm]

lemma filterIsLegacyUpgrade_iff (hdot : ".*".toList <:+ filter.toList)
    (hcs : filter.toList.dropLast = cs) : filterIsLegacyUpgrade filter old = .ok true ↔
      (∃ i, cs.tails.findIdx? ['.', '='].isPrefixOf = some i ∧
        ∃ c ∈ ['>', '*'], old.toList = cs.take (i + 1) ++ cs.drop (i + 2) ++ [c]) ∨
      old.toList = cs ++ ['>'] := by
  have hne : filter ≠ "" := by
    rintro rfl
    simp at hdot
  have hlength : "=".length = 1 := rfl
  unfold filterIsLegacyUpgrade groupSentinel
  simp only [hcs, hdot]
  by_cases hold : old = ""
  · simp [hne, hold]
  · -- Without a sentinel only the other wildcard is left to compare.
    cases hi : cs.tails.findIdx? ['.', '='].isPrefixOf with
    | none | some i => grind

/-- For an accepted pair one filter is recognised besides the legacy ones. -/
lemma upgrade_iff (h : AcceptedPair task group) :
    filterIsLegacyUpgrade (filterFor task group) old = .ok true ↔
    old ∈ legacyFilterFor task group ∨ group ≠ "" ∧ old = mixedFilter task group := by
  have hstem : '=' ∉ ("task." ++ task).toList := by
    simpa using h.sentinel_notMem
  have hdot : ".*".toList <:+ (filterFor task group).toList := by
    unfold filterFor
    split <;> exact ⟨_, (String.toList_append ..).symm⟩
  have hcs : (filterFor task group).toList.dropLast = ("task." ++ task).toList ++ '.' ::
      if group = "" then [] else '=' :: (group.toList ++ ['.']) := by
    unfold filterFor groupSentinel
    split <;> rw [String.toList_append, List.dropLast_append_of_ne_nil (by decide)] <;> simp
  rw [filterIsLegacyUpgrade_iff hdot hcs, findIdx?_sentinel hstem]
  unfold legacyFilterFor mixedFilter groupSentinel
  by_cases hgroup : group = "" <;>
    simp [hgroup, ← String.toList_inj, List.findIdx?_cons, List.isPrefixOf,
      List.take_length_add_append, List.drop_length_add_append]

lemma mixedFilter_notMem (hgroup : group ≠ "") :
    mixedFilter task group ∉ legacyFilterFor task group := by
  intro h
  rw [legacyFilterFor, if_neg hgroup] at h
  have hlength : (mixedFilter task group).length ∈ _ := List.mem_map_of_mem h
  simp [mixedFilter, groupSentinel, String.length] at hlength

/-- Recognition is exact but for the filter that has both the sentinel and the earlier
wildcard. -/
theorem recognisesLegacy_iff (h : AcceptedPair task group) : RecognisesLegacy task group old ↔
    group = "" ∨ old ≠ mixedFilter task group := by
  constructor
  · intro hexact
    by_contra hmixed
    rw [not_or, not_not] at hmixed
    obtain ⟨hgroup, rfl⟩ := hmixed
    exact mixedFilter_notMem hgroup (hexact.exact.mp ((upgrade_iff h).mpr (.inr ⟨hgroup, rfl⟩)))
  · intro hother
    have hexact : filterIsLegacyUpgrade (filterFor task group) old = .ok true ↔
        old ∈ legacyFilterFor task group := by
      rw [upgrade_iff h]
      exact or_iff_left fun hmixed => hother.elim hmixed.1 (absurd hmixed.2)
    exact ⟨hexact, fun hdeletes => hexact.mp (upgrade_of_deletes hdeletes)⟩

namespace Legacy

theorem build_recognised : RecognisesLegacy "build" "gpu" "task.build.gpu.>" :=
  (recognisesLegacy_iff ⟨by decide +kernel, .inr (by decide +kernel)⟩).mpr (.inr (by decide))

/-- A consumer with a filter that no release has had is deleted. -/
theorem mixed_filter_deleted : AcceptedPair "build" "gpu" ∧
    filterIsLegacyUpgrade (filterFor "build" "gpu") "task.build.=gpu.>" = .ok true ∧
    adoptConsumer (filterFor "build" "gpu") "task.build.=gpu.>" = .ok .deletes ∧
    "task.build.=gpu.>" ∉ legacyFilterFor "build" "gpu" :=
  ⟨⟨by decide +kernel, .inr (by decide +kernel)⟩, by decide +kernel, by decide +kernel,
    by decide +kernel⟩

end Legacy

/-! ## Durable names -/

lemma sentinel_notMem_sanitize (s : String) : '=' ∉ (sanitize s).toList := by
  simp only [sanitize, String.toList_ofList, List.mem_flatMap, not_exists, not_and]
  intro c _ hmem
  split at hmem
  · next h =>
    rw [← List.mem_singleton.mp hmem] at h
    cases h
  · split at hmem <;> simp at hmem

lemma sentinel_mem_nameFor : '=' ∈ (nameFor task group).toList ↔ group ≠ "" := by
  unfold nameFor groupSentinel
  split
  · next h => simpa [h] using sentinel_notMem_sanitize task
  · next h => simp [h]

lemma filterFor_ne_empty : filterFor task group ≠ "" := by
  unfold filterFor
  split <;> simp

lemma wildcards_ne (a b : String) : a ++ ".*" ≠ b ++ ".>" := by
  intro heq
  have hlast := congrArg (fun s => s.toList.getLast?) heq
  simp at hlast

/-- Today's filter of a pair with a group, or without one, is no legacy filter of another
such pair. -/
lemma not_upgrade_of_group (h : AcceptedPair task group) (hgroup : group = "" ↔ group' = "") :
    filterIsLegacyUpgrade (filterFor task group) (filterFor task' group') ≠ .ok true := by
  rw [Ne, upgrade_iff h]
  unfold legacyFilterFor mixedFilter filterFor groupSentinel
  by_cases hempty : group = ""
  · rw [if_pos hempty, if_pos (hgroup.mp hempty)]
    simp [hempty, wildcards_ne]
  · rw [if_neg hempty, if_neg (mt hgroup.mpr hempty)]
    have hplain : '=' ∉ ("task." ++ task ++ "." ++ group ++ ".*").toList := by
      have hvalid : validTaskType group = true :=
        (Bool.and_eq_true_iff.mp (h.group.resolve_left hempty)).1
      have hpair : AcceptedPair group "" := ⟨hvalid, .inl rfl⟩
      simp [h.sentinel_notMem, hpair.sentinel_notMem]
    rintro (hmem | ⟨-, hmixed⟩)
    · rcases List.mem_pair.mp hmem with heq | heq
      · exact wildcards_ne _ _ heq
      · rw [← heq] at hplain
        simp at hplain
    · exact wildcards_ne _ _ hmixed

/-- **Shared names are safe.** Of the pairs that share a durable name, whoever finds the
consumer of its own pair adopts it, and every other one refuses it; none deletes it. -/
theorem shared_names_safe (h : AcceptedPair task group) (h' : AcceptedPair task' group')
    (hname : nameFor task group = nameFor task' group') :
    adoptConsumer (filterFor task group) (filterFor task' group') =
      .ok (if task = task' ∧ group = group' then .adopts else .refuses) := by
  have hgroup : group = "" ↔ group' = "" := by
    rw [← not_iff_not, ← Ne, ← sentinel_mem_nameFor, hname, sentinel_mem_nameFor]
  have hsame : filterFor task' group' = filterFor task group ↔ task = task' ∧ group = group' := by
    constructor
    · intro heq
      have htokens := splitOn_filterFor h
      rw [← heq, splitOn_filterFor h'] at htokens
      exact pairTokens_inj h h' (List.append_inj' htokens rfl).1.symm
    · rintro ⟨rfl, rfl⟩
      rfl
  have hdecided : ∃ legacy, filterIsLegacyUpgrade (filterFor task group) (filterFor task' group') =
      .ok legacy := by
    rw [filterIsLegacyUpgrade, if_neg filterFor_ne_empty, if_neg filterFor_ne_empty]
    split
    · exact ⟨_, rfl⟩
    · dsimp only
      split
      · exact ⟨_, rfl⟩
      · split <;> exact ⟨_, rfl⟩
  obtain ⟨_ | _, hlegacy⟩ := hdecided
  · rw [adoptConsumer, if_neg filterFor_ne_empty, hlegacy]
    simp only [hsame]
    split <;> rfl
  · exact absurd hlegacy (not_upgrade_of_group h hgroup)

theorem Routes.email_refused : nameFor "send.email" "" = nameFor "send-email" "" ∧
    adoptConsumer (filterFor "send.email" "") (filterFor "send-email" "") = .ok .refuses := by
  have hname : nameFor "send.email" "" = nameFor "send-email" "" := by decide +kernel
  have hfound := shared_names_safe ⟨by decide +kernel, .inl rfl⟩ ⟨by decide +kernel, .inl rfl⟩ hname
  rw [if_neg (by decide)] at hfound
  exact ⟨hname, hfound⟩

end Dagnats
