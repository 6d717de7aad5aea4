import Mathlib.Data.List.Perm.Subperm
import Dagnats.Engine.Lineage
import Dagnats.Engine.Scenario
import Dagnats.Interaction.Segments

/-!
# The limit on the tasks of one type

The publisher takes a slot of the task type before it sends a task, and never
more slots are taken than the limit says. The timers that send a deferred task
or a retry, and the further iterations of an agent loop, take none. Slots are
given back when a step reports, but also for steps that were cancelled and are
still at work. A slot is taken for the step and covers one task of it. So the limit
holds where those who take no slot send only for a step that has one, no step is
sent a task while it still has another, and a slot is given back only after the
step has reported.
-/

namespace Dagnats

open Interaction

variable {o : Orchestrator} {task : String} {limit : ℤ} {runID stepID : String} {older : List Entry}
  {t : TaskPayload}

def reports (runID stepID : String) : Entry → Bool
  | .event e => (e.type = .stepCompleted || e.type = .stepFailed) && e.runID = runID &&
      e.stepID = stepID
  | _ => false

/-- The step has reported since the log reached position `n`. -/
def reportedSince (runID stepID : String) (n : ℕ) : List Entry → Bool
  | [] => false
  | e :: older =>
    (n ≤ older.length && reports runID stepID e) || reportedSince runID stepID n older

lemma reportedSince_mono {n : ℕ} {log : List Entry} (h : reportedSince runID stepID n older = true)
    (hlog : older <:+ log) : reportedSince runID stepID n log = true := by
  induction log with
  | nil => rwa [List.suffix_nil.mp hlog] at h
  | cons e rest ih =>
    rcases List.suffix_cons_iff.mp hlog with rfl | hrest
    · exact h
    · rw [reportedSince, ih hrest, Bool.or_true]

def reported (log : List Entry) (t : TaskPayload) : Bool :=
  t.dispatchNonce.any fun n => reportedSince t.runID t.stepID n log

lemma reported_mono {log : List Entry} (h : reported older t = true) (hlog : older <:+ log) :
    reported log t = true := by
  obtain ⟨n, hn, hreported⟩ := (Option.any_eq_true _ _).mp h
  exact (Option.any_eq_true _ _).mpr ⟨n, hn, reportedSince_mono hreported hlog⟩

/-- The step of a task of the type, unless it has reported. -/
def atWork (task : String) (log : List Entry) : Entry → Option (String × String)
  | .task t => if t.task = task ∧ reported log t = false then some (t.runID, t.stepID) else none
  | _ => none

/-- The run and step of every task of the type that was published and that the step has
not yet reported on. -/
def tasksAtWork (task : String) (log : List Entry) : List (String × String) :=
  log.filterMap (atWork task log)

lemma atWork_eq_some {log : List Entry} {e : Entry} (h : atWork task log e = some (runID, stepID)) :
    ∃ t, e = .task t ∧ t.task = task ∧ reported log t = false ∧ t.runID = runID ∧
      t.stepID = stepID := by
  cases e with
  | task t =>
    simp only [atWork] at h
    split at h
    · next ht =>
      cases h
      exact ⟨t, rfl, ht.1, ht.2, rfl, rfl⟩
    · cases h
  | _ => cases h

lemma mem_tasksAtWork {log : List Entry} (h : (runID, stepID) ∈ tasksAtWork task log) : ∃ t,
    .task t ∈ log ∧ t.task = task ∧ reported log t = false ∧ t.runID = runID ∧ t.stepID =
    stepID := by
  obtain ⟨e, hmem, he⟩ := List.mem_filterMap.mp h
  obtain ⟨t, rfl, ht⟩ := atWork_eq_some he
  exact ⟨t, hmem, ht⟩

def stampReported (holder : String) (log : List Entry) (i : ℕ) : Entry → Bool
  | .minted m => taskSlotHolder m.runID m.stepID ≠ holder || reportedSince m.runID m.stepID i log
  | _ => true

/-- Every stamp of the steps that share the holder was followed by a report. -/
def stampsReported (holder : String) (log : List Entry) : List Entry → Bool
  | [] => true
  | e :: older => stampReported holder log older.length e && stampsReported holder log older

lemma reportedSince_of_stampsReported {log part : List Entry} {n : ℕ} {m : Mint}
    (hat : At part n (.minted m)) (hrun : m.runID = runID) (hstep : m.stepID = stepID)
    (h : stampsReported (taskSlotHolder runID stepID) log part = true) :
    reportedSince runID stepID n log = true := by
  induction part with
  | nil => exact absurd hat.lt (by simp)
  | cons e older ih =>
    rw [stampsReported, Bool.and_eq_true] at h
    rcases At.cons_iff.mp hat with ⟨rfl, rfl⟩ | hold
    · have hhead := h.1
      rw [stampReported, hrun, hstep] at hhead
      simpa using hhead
    · exact ih hold h.2

/-- Nothing is owed for the holder: its steps have reported on every task that was
sent for them and since each of their stamps. -/
def clearToRelease (task : String) (log : List Entry) (holder : String) : Bool :=
  stampsReported holder log log && log.all fun
    | .task t => t.task ≠ task || taskSlotHolder t.runID t.stepID ≠ holder || reported log t
    | _ => true

/-- The timer sends tasks for the step. -/
def timerFor (runID stepID : String) : Entry → Bool
  | .timer tm _ _ => tm.action.redispatches && tm.runID = runID && tm.stepID = stepID
  | _ => false

/-- The step has reported on every task of the type that was sent for it. -/
def noneOut (task : String) (log : List Entry) (runID stepID : String) : Bool :=
  log.all fun
    | .task t => t.task ≠ task || t.runID ≠ runID || t.stepID ≠ stepID || reported log t
    | _ => true

/-- A task is sent only when its step has no other one; a further iteration, and a task
of a step for which a timer was set, only while the step has its slot; a slot is given
back only when its step has reported. -/
def keepsTaskSlots (task : String) (log : List Entry) : Entry → Bool
  | .task t => t.task ≠ task || (noneOut task log t.runID t.stepID &&
      (decide (taskSlotHolder t.runID t.stepID ∈ World.slotsIn (.task task) log) ||
        (t.iteration = 0 && !log.any (timerFor t.runID t.stepID))))
  | .notice n => (n.frees (.task task)).all (clearToRelease task log)
  | _ => true

def limitsTasks (task : String) (limit : ℤ) (s : StepDef) : Bool :=
  s.task ≠ task || s.maxTaskConcurrency = limit

lemma StepOf.maxTaskConcurrency {log : List Entry} {step : StepDef} (h : StepOf o log runID step)
    (hsteps : allSteps (limitsTasks step.task limit) log = true) :
    step.maxTaskConcurrency = limit := by
  obtain ⟨s, id, dependsOn, caps, htest, rfl⟩ := h.of_allSteps hsteps
  simpa [limitsTasks] using htest

section Slots

variable {log : List Entry} (hlog : LogOk o (Terms.onMessages (keepsTaskSlots task)) log)
include hlog

lemma cleared_of_freed {i : ℕ} {n : Notice} {holder : String} (hat : At log i (.notice n))
    (hfrees : n.frees (.task task) = some holder) : ∃ older, (.notice n :: older) <:+ log ∧ i =
    older.length ∧ clearToRelease task older holder = true := by
  obtain ⟨older, hsuffix, hi, -, happ⟩ := hlog.entry hat
  refine ⟨older, hsuffix, hi.symm, ?_⟩
  rcases happ with ⟨-, hK⟩ | ⟨hout, -⟩
  · have hallowed : keepsTaskSlots task older (.notice n) = true := hK
    simpa [keepsTaskSlots, hfrees] using hallowed
  · exact hout.elim

lemma kept_of_sent (hsuffix : (.task t :: older) <:+ log) :
    EntryOk o older (.task t) ∧ keepsTaskSlots task older (.task t) = true := by
  rcases (hlog.suffix hsuffix).head with ⟨hok, hK⟩ | ⟨hout, -⟩
  · exact ⟨hok, hK⟩
  · exact hout.elim

/-- No two of the tasks at work belong to one step. -/
lemma tasksAtWork_nodup : (tasksAtWork task log).Nodup := by
  -- over the parts of the log, with reports looked up in the whole log
  suffices h : ∀ part, part <:+ log → (part.filterMap (atWork task log)).Nodup from
    h log List.suffix_rfl
  intro part
  induction part with
  | nil => exact fun _ => List.nodup_nil
  | cons e older ih =>
    intro hsuffix
    have holder : older <:+ log := (List.suffix_cons e older).trans hsuffix
    cases hwork : atWork task log e with
    | none =>
      rw [List.filterMap_cons_none hwork]
      exact ih holder
    | some pair =>
      rw [List.filterMap_cons_some hwork, List.nodup_cons]
      refine ⟨fun hmem => ?_, ih holder⟩
      obtain ⟨t, rfl, htask, -, hrun, hstep⟩ := atWork_eq_some hwork
      obtain ⟨e', hmem', hwork'⟩ := List.mem_filterMap.mp hmem
      obtain ⟨t', rfl, htask', hopen, hrun', hstep'⟩ := atWork_eq_some hwork'
      have hkept := (kept_of_sent hlog hsuffix).2
      simp only [keepsTaskSlots, htask, ne_eq, not_true_eq_false, decide_false, Bool.false_or,
        Bool.and_eq_true] at hkept
      have hreported : reported older t' = true := by
        simpa [htask', hrun.trans hrun'.symm, hstep.trans hstep'.symm] using
          List.all_eq_true.mp hkept.1 _ hmem'
      rw [reported_mono hreported holder] at hopen
      cases hopen

lemma slot_of_held (hsuffix : (.task t :: older) <:+ log) (htask : t.task = task)
    (hopen : reported log t = false)
    (hheld : taskSlotHolder t.runID t.stepID ∈ World.slotsIn (.task task) older) :
    taskSlotHolder t.runID t.stepID ∈ World.slotsIn (.task task) log := by
  have hheld' : taskSlotHolder t.runID t.stepID ∈
      World.slotsIn (.task task) (.task t :: older) := hheld
  rcases World.mem_slotsIn_since hsuffix hheld' with hmem | ⟨i, n, hi, hat, hfrees⟩
  · exact hmem
  · exfalso
    obtain ⟨later, hlater, rfl, hclear⟩ := cleared_of_freed hlog hat hfrees
    have hin : later <:+ log := (List.suffix_cons _ later).trans hlater
    have hsent : Entry.task t ∈ later :=
      (List.suffix_of_suffix_length_le hsuffix hin hi).subset (.head _)
    rw [clearToRelease, Bool.and_eq_true, List.all_eq_true] at hclear
    have hreported : reported later t = true := by
      simpa [htask] using hclear.2 _ hsent
    rw [reported_mono hreported hin] at hopen
    cases hopen

lemma slot_of_taken {n : ℕ} (holder : older <:+ log) (hnonce : t.dispatchNonce = some n)
    (hmint : MintedNonce older t.runID t.stepID (some n)) (hopen : reported log t = false)
    (hslot : HadSlotSince n older (.task task) (taskSlotHolder t.runID t.stepID)) :
    taskSlotHolder t.runID t.stepID ∈ World.slotsIn (.task task) log := by
  obtain ⟨taken, htaken, hn, hmem⟩ := hslot
  rcases World.mem_slotsIn_since (htaken.trans holder) hmem with
    hmem | ⟨i, notice, hi, hat, hfrees⟩
  · exact hmem
  · exfalso
    obtain ⟨later, hlater, rfl, hclear⟩ := cleared_of_freed hlog hat hfrees
    have hin : later <:+ log := (List.suffix_cons _ later).trans hlater
    obtain ⟨n', m, hn', hat', hrun, hstep⟩ := hmint
    cases hn'
    have hstamp : At log n (.minted m) := hat'.mono holder
    -- The stamp comes before the slot was taken, so before it was given back.
    have hlt : n < later.length := by
      refine lt_of_le_of_ne (hn.trans hi) fun heq => ?_
      have heq' := hstamp.unique (heq ▸ hat)
      cases heq'
    rw [clearToRelease, Bool.and_eq_true] at hclear
    have hreported : reportedSince t.runID t.stepID n later = true :=
      reportedSince_of_stampsReported (hstamp.restrict hin hlt) hrun hstep hclear.1
    have hdone : reported log t = true :=
      (Option.any_eq_true _ _).mpr ⟨n, hnonce, reportedSince_mono hreported hin⟩
    rw [hdone] at hopen
    cases hopen

lemma slot_of_atWork (hservice : o.hasConcurrency = true) (hpos : 0 < limit)
    (hsteps : allSteps (limitsTasks task limit) log = true) (hmem : .task t ∈ log)
    (htask : t.task = task) (hopen : reported log t = false) :
    taskSlotHolder t.runID t.stepID ∈ World.slotsIn (.task task) log := by
  obtain ⟨i, hat⟩ := At.of_mem hmem
  obtain ⟨older, hsuffix, -⟩ := hat
  have holder : older <:+ log := (List.suffix_cons _ older).trans hsuffix
  obtain ⟨⟨-, hfrom⟩, hallowed⟩ := kept_of_sent hlog hsuffix
  by_cases hheld : taskSlotHolder t.runID t.stepID ∈ World.slotsIn (.task task) older
  · exact slot_of_held hlog hsuffix htask hopen hheld
  · have hplain : t.iteration = 0 ∧ older.any (timerFor t.runID t.stepID) = false := by
      simp only [keepsTaskSlots, htask, hheld, ne_eq, not_true_eq_false, decide_false,
        Bool.false_or, Bool.and_eq_true, decide_eq_true_eq, Bool.not_eq_true'] at hallowed
      exact hallowed.2
    cases hfrom with
    | published step n hstep hid htype hnonce hmint _ hslot =>
      have hlimit : step.maxTaskConcurrency = limit :=
        hstep.maxTaskConcurrency ((htype.trans htask) ▸ allSteps_older hsteps holder)
      have hhad := hslot hservice (hlimit ▸ hpos)
      rw [htype, htask, hid] at hhad
      exact slot_of_taken hlog holder hnonce hmint hopen hhad
    | iterated hiter => exact absurd hplain.1 hiter.ne'
    | timer tm dispatch publishedAt htimer haction hrun hstep _ _ =>
      have hnone := List.any_eq_false.mp hplain.2 _ htimer
      simp [timerFor, haction, hrun, hstep] at hnone

omit hlog in
lemma LogOk.taskSlots_inBounds {K : Terms} (hlog : LogOk o K log) (hpos : 0 < limit)
    (hsteps : allSteps (limitsTasks task limit) log = true) :
    Semaphore.InBounds limit (World.slotsIn (.task task) log) := by
  refine World.slotsIn_inBounds (Int.le_of_lt hpos) hlog.within ?_
  rintro older holder ⟨hin, happ⟩
  have hok : SlotOk o older (.task task) holder := happ.elim (fun h => h.1) fun h => h.1.elim
  obtain ⟨hmem, runID, step, hstep, htask, hroom⟩ := hok
  have hsteps' := allSteps_older hsteps ((List.suffix_cons _ older).trans hin)
  rw [hstep.maxTaskConcurrency (htask ▸ hsteps')] at hroom
  exact ⟨hmem, hroom⟩

end Slots

/-- A holder names one step where the names of runs have no slash. -/
lemma taskSlotHolder_injective {r r' s s' : String} (hr : '/' ∉ r.toList) (hr' : '/' ∉ r'.toList)
    (h : taskSlotHolder r s = taskSlotHolder r' s') : r = r' ∧ s = s' := by
  have hlist := congrArg (List.reverse ∘ String.toList) h
  simp only [taskSlotHolder, Function.comp, String.toList_append, List.reverse_append] at hlist
  rw [← List.mem_reverse] at hr hr'
  obtain ⟨hstep, hrun⟩ := append_sep_inj hr hr' hlist
  exact ⟨String.toList_injective (List.reverse_injective hrun),
    String.toList_injective (List.reverse_injective hstep)⟩

/-- **The limit on tasks holds.**  In every interleaving of any number of engines,
wherever they crash, in which the engines keep to the slots of the task type: never
have more tasks of the type been published that their steps have not yet reported on
than the limit that all its definitions set. -/
theorem task_limit_holds {p : Pool o.system}
    (hp : Pool.Reaches ((Terms.onMessages (keepsTaskSlots task)).conditions o) (emptyPool o) p)
    (hservice : o.hasConcurrency = true) (hpos : 0 < limit)
    (hsteps : allSteps (limitsTasks task limit) p.state.log = true)
    (hids : ∀ t, .task t ∈ p.state.log → '/' ∉ t.runID.toList) :
    ((tasksAtWork task p.state.log).length : ℤ) ≤ limit := by
  have hlog := reaches_logOk hp
  have hbounds := hlog.taskSlots_inBounds hpos hsteps
  let holders := (tasksAtWork task p.state.log).map fun x => taskSlotHolder x.1 x.2
  have hsubset : holders ⊆ World.slotsIn (.task task) p.state.log := by
    intro holder hmem
    obtain ⟨⟨runID, stepID⟩, hwork, rfl⟩ := List.mem_map.mp hmem
    obtain ⟨t, ht, htask, hopen, rfl, rfl⟩ := mem_tasksAtWork hwork
    exact slot_of_atWork hlog hservice hpos hsteps ht htask hopen
  have hnodup : holders.Nodup := by
    refine List.Nodup.map_on ?_ (tasksAtWork_nodup hlog)
    rintro ⟨r, s⟩ hwork ⟨r', s'⟩ hwork' heq
    obtain ⟨t, ht, -, -, rfl, rfl⟩ := mem_tasksAtWork hwork
    obtain ⟨t', ht', -, -, rfl, rfl⟩ := mem_tasksAtWork hwork'
    obtain ⟨hrun, hstep⟩ := taskSlotHolder_injective (hids t ht) (hids t' ht') heq
    exact Prod.ext hrun hstep
  calc ((tasksAtWork task p.state.log).length : ℤ) = holders.length := by rw [List.length_map]
    _ ≤ (World.slotsIn (.task task) p.state.log).length :=
        Int.ofNat_le.mpr (List.subperm_of_subset hnodup hsubset).length_le
    _ ≤ limit := hbounds.bounded

namespace TaskLimited

/-- Two steps, and one task of their type at a time. -/
def workflow : WorkflowDef where
  name := "pair"
  steps := [{ id := "a", task := "work", maxTaskConcurrency := 1 },
    { id := "b", task := "work", maxTaskConcurrency := 1 }]

/-- The executable form of the condition on the names of runs. -/
def slashless (log : List Entry) : Bool :=
  log.all fun
    | .task t => !t.runID.toList.contains '/'
    | _ => true

lemma slashless_tasks {log : List Entry} (h : slashless log = true) (t : TaskPayload)
    (ht : .task t ∈ log) : '/' ∉ t.runID.toList := by
  simpa using List.all_eq_true.mp h _ ht

/-- The second step has to wait for a slot; a second later its timer sends the task
although the first step is still at work. -/
theorem limit_exceeded_by_timer : Valid limiting workflow ∧ limiting.hasConcurrency = true ∧
    ∃ p : Pool limiting.system, Pool.Reaches Conditions.free (emptyPool limiting) p ∧
    allSteps (limitsTasks "work" 1) p.state.log = true ∧
    (∀ t, .task t ∈ p.state.log → '/' ∉ t.runID.toList) ∧ tasksAtWork "work" p.state.log =
    [("r", "b"), ("r", "a")] := by
  refine ⟨by decide +kernel, rfl, ?_⟩
  obtain ⟨p, hp, htest⟩ := reaches_free limiting
    (launched limiting workflow ++ [pass 1000000000] ++ perform (.fire 12))
    (fun p => allSteps (limitsTasks "work" 1) p.state.log &&
        slashless p.state.log &&
        tasksAtWork "work" p.state.log = [("r", "b"), ("r", "a")])
  simp only [Bool.and_eq_true, decide_eq_true_eq] at htest
  exact ⟨p, hp, htest.1.1, slashless_tasks htest.1.2, htest.2⟩

def single : WorkflowDef where
  name := "single"
  steps := [{ id := "a", task := "work", maxTaskConcurrency := 1 }]

/-- The step of one run completes and gives its slot back, and a second run takes
it. -/
def oneByOne : List (Order limiting.system) :=
  launched limiting single ++ [publish (answered .stepCompleted "a" 5)] ++ perform (.handle 11) ++
    [publish { type := .workflowStarted, runID := "s", start := .inline single .nil }] ++
    perform (.handle 18)

theorem second_run_takes_slot : ∃ p : Pool limiting.system,
      Pool.Reaches ((Terms.onMessages (keepsTaskSlots "work")).conditions limiting)
        (emptyPool limiting) p ∧
      tasksAtWork "work" p.state.log = [("s", "a")] ∧
      ((tasksAtWork "work" p.state.log).length : ℤ) ≤ 1 := by
  obtain ⟨p, hp, htest⟩ := Pool.reaches_of_script (Terms.messageChecks_sound
    (keepsTaskSlots "work")) (emptyPool limiting)
    oneByOne (fun p =>
        allSteps (limitsTasks "work" 1) p.state.log && slashless p.state.log &&
        tasksAtWork "work" p.state.log = [("s", "a")])
  simp only [Bool.and_eq_true, decide_eq_true_eq] at htest
  obtain ⟨⟨hsteps, hids⟩, hwork⟩ := htest
  exact ⟨p, hp, hwork, task_limit_holds hp rfl (by decide) hsteps (slashless_tasks hids)⟩

end TaskLimited

end Dagnats
