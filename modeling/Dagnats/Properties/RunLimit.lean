import Mathlib.Data.List.Dedup
import Mathlib.Data.List.Perm.Subperm
import Dagnats.Engine.Lineage
import Dagnats.Engine.Scenario

/-!
# The limit on the runs of a workflow

A run of a workflow that limits its runs becomes Running with a slot: admission
takes one before the first snapshot is written, the queue advance before the run
is moved. A slot is given back once its run has ended. So every Running run
holds a slot unless it became Running on another way: a child is created Running
without admission, a second engine may write the first snapshot of a run over
one that has ended, and the queue advance does not look at the status of the run
that it moves.
-/

namespace Dagnats

open Interaction

variable {o : Orchestrator} {name : String} {limit : ℤ} {log : List Entry} {runID : String}

/-- The runs that were ever written. -/
def World.runIDs (log : List Entry) : List String :=
  log.filterMap fun
    | .snapshot _ _ run => some run.runID
    | _ => none

def runningRuns (name : String) (log : List Entry) : List String :=
  (World.runIDs log).dedup.filter fun runID =>
    (World.latestIn runID log).any fun x =>
      x.2.workflowID = name && x.2.status = .running

lemma mem_runningRuns (h : runID ∈ runningRuns name log) : ∃ rev run, World.latestIn runID log =
    some (rev, run) ∧ run.workflowID = name ∧ run.status = .running := by
  rw [runningRuns, List.mem_filter] at h
  obtain ⟨⟨rev, run⟩, hlatest, htest⟩ := Option.any_eq_true _ _ |>.mp h.2
  rw [Bool.and_eq_true, decide_eq_true_eq, decide_eq_true_eq] at htest
  exact ⟨rev, run, hlatest, htest⟩

/-- A run of the workflow is not written as a child, its first snapshot replaces
nothing, and it is moved out of the queue only while it is Pending. -/
def keepsToSlots (name : String) (log : List Entry) (site : Site) (prior : Option ℕ)
    (run : WorkflowRun) : Bool :=
  run.workflowID ≠ name ||
    match prior, site with
    | none, .childInitial => false
    | none, .finalize => true
    | none, _ => (World.latestIn run.runID log).isNone
    | some _, .queueAdvance =>
      (World.latestIn run.runID log).all fun x => x.2.status = .pending
    | some _, _ => true

/-- Every definition of the workflow sets the limit. -/
def Limits (o : Orchestrator) (log : List Entry) (name : String) (limit : ℤ) : Prop :=
  ∀ d, Stored o log name d → ∃ c, d.concurrency = some c ∧ c.maxRuns = limit

lemma Limits.older {older : List Entry} (h : Limits o log name limit) (hlog : older <:+ log) :
    Limits o older name limit :=
  fun d hd => h d (hd.mono hlog)

lemma Limits.hadSlot {d : WorkflowDef} (h : Limits o log name limit)
    (hservice : o.hasConcurrency = true) (hpos : 0 < limit) (hd : Stored o log name d)
    (hslot : SlotGranted o log d runID) : HadSlot log (.run name) runID := by
  obtain ⟨c, hc, rfl⟩ := h d hd
  have hhad := hslot c hc hservice hpos
  rwa [hd.name_eq] at hhad

/-- What is known of a stored run of the workflow that has not ended: no run of this
workflow has ended under its name, and if it is Running it was given a slot. -/
structure Slotted (name : String) (log : List Entry) (run : WorkflowRun) : Prop where
  alive : ∀ old, Ended log old → old.runID = run.runID → old.workflowID ≠ name
  slot : run.status = .running → HadSlot log (.run name) run.runID

lemma stored_slotted (hlog : LogOk o (Terms.onWrites (keepsToSlots name)) log)
    (hservice : o.hasConcurrency = true) (hpos : 0 < limit) (hlimits : Limits o log name limit)
    {rev : ℕ} {run : WorkflowRun} (hlatest : World.latestIn runID log = some (rev, run))
    (hname : run.workflowID = name) (halive : run.status.isTerminal = false) :
    Slotted name log run := by
  refine hlog.current (P := fun log run => run.workflowID = name →
    run.status.isTerminal = false → Slotted name log run) ?_ ?_ ?_ hlatest hname halive
  · intro older e run _ hother ih hname halive
    obtain ⟨hnone, hslot⟩ := ih hname halive
    constructor
    · intro old hended hid
      exact hnone old (hended.of_cons hid hother) hid
    · intro hrunning
      exact (hslot hrunning).mono (List.suffix_cons e older)
  · intro older site run hin hcreate hintro hallowed hname halive
    have hrefused : site ≠ .finalize := by
      intro hsite
      rw [hcreate.status.mpr hsite] at halive
      cases halive
    have hkeeps := hallowed site none run rfl
    have hfirst : site ≠ .childInitial ∧ World.latestIn run.runID older = none := by
      rcases hcreate.place with rfl | rfl | rfl | rfl
      · exact ⟨by decide, by simpa [keepsToSlots, hname] using hkeeps⟩
      · exact ⟨by decide, by simpa [keepsToSlots, hname] using hkeeps⟩
      · simp [keepsToSlots, hname] at hkeeps
      · exact absurd rfl hrefused
    constructor
    · intro old hended hid
      exact absurd (hended.of_snapshot halive) (not_ended_of_none hfirst.2 hid)
    · intro hrunning
      obtain ⟨d, hd, -, hslot⟩ := hintro.source hrefused
      have holder : older <:+ log := (List.suffix_cons _ older).trans hin
      have hhad := (hlimits.older holder).hadSlot hservice hpos (hname ▸ hd)
        (hslot hfirst.1 hrunning)
      exact hhad.mono (List.suffix_cons _ older)
  · intro older site rev base run hin hbase hwrite hallowed ih hname halive
    have hid : base.runID = run.runID := (World.latestIn_wrote hbase).2
    have hbasename : base.workflowID = name := hwrite.workflowID.symm.trans hname
    have holder : older <:+ log := (List.suffix_cons _ older).trans hin
    -- the base has not ended, and what is written as Running has a slot
    have hopen : base.status.isTerminal = false ∧
        (run.status = .running → base.status = .running ∨ HadSlot older (.run name) run.runID) := by
      rcases hwrite.status_cases halive with hsame | rfl
      · exact ⟨hsame ▸ halive, fun hrunning => .inl (hsame ▸ hrunning)⟩
      · have hkeeps := hallowed .queueAdvance (some rev) run rfl
        simp only [keepsToSlots, hname, hbase, ne_eq, not_true_eq_false, decide_false,
          Bool.false_or, Option.all_some, decide_eq_true_eq] at hkeeps
        obtain ⟨d, -, hd, hslot⟩ := hwrite.advances rfl
        refine ⟨by rw [hkeeps]; rfl, fun _ => .inr ?_⟩
        rw [hid] at hslot
        exact (hlimits.older holder).hadSlot hservice hpos (hbasename ▸ hd) hslot
    obtain ⟨hnone, hslot⟩ := ih hbasename hopen.1
    rw [hid] at hnone hslot
    constructor
    · intro old hended hold
      exact hnone old (hended.of_snapshot halive) hold
    · intro hrunning
      rcases hopen.2 hrunning with hrun | hhad
      · exact (hslot hrun).mono (List.suffix_cons _ older)
      · exact hhad.mono (List.suffix_cons _ older)

lemma LogOk.ended_of_freed {K : Terms} {n : Notice} (hlog : LogOk o K log)
    (hmem : .notice n ∈ log) (hfrees : n.frees (.run name) = some runID) :
    ∃ run, Ended log run ∧ run.runID = runID ∧ run.workflowID = name := by
  obtain ⟨i, hat⟩ := At.of_mem hmem
  obtain ⟨older, hin, -, -, happ⟩ := hlog.entry hat
  have hok : NoticeOk older n := happ.elim (fun h => h.1) fun h => h.1.elim
  cases n with
  | releaseRun workflowID runID' =>
    simp only [Notice.frees] at hfrees
    split at hfrees
    · next heq =>
      cases hfrees
      obtain ⟨run, hended, hid, hworkflow⟩ := hok
      refine ⟨run, hended.mono ((List.suffix_cons _ older).trans hin), hid, ?_⟩
      exact hworkflow.trans heq
    · cases hfrees
  | _ => cases hfrees

lemma LogOk.slots_inBounds {K : Terms} (hlog : LogOk o K log) (hpos : 0 < limit)
    (hlimits : Limits o log name limit) :
    Semaphore.InBounds limit (World.slotsIn (.run name) log) := by
  refine World.slotsIn_inBounds (Int.le_of_lt hpos) hlog.within ?_
  rintro older holder ⟨hin, happ⟩
  have holder' : older <:+ log := (List.suffix_cons _ older).trans hin
  have hok : SlotOk o older (.run name) holder := happ.elim (fun h => h.1) fun h => h.1.elim
  obtain ⟨hmem, d, c, hd, hc, hroom⟩ := hok
  obtain ⟨c', hc', rfl⟩ := hlimits.older holder' d hd
  rw [hc] at hc'
  cases hc'
  exact ⟨hmem, hroom⟩

/-- **The limit on runs holds.**  In every interleaving of any number of engines,
wherever they crash, in which the runs of the workflow are written only where they
keep to the slots: never more of them are Running than its definitions allow. -/
theorem run_limit_holds {p : Pool o.system}
    (hp : Pool.Reaches ((Terms.onWrites (keepsToSlots name)).conditions o) (emptyPool o) p)
    (hservice : o.hasConcurrency = true) (hpos : 0 < limit)
    (hlimits : Limits o p.state.log name limit) :
    ((runningRuns name p.state.log).length : ℤ) ≤ limit := by
  have hlog := reaches_logOk hp
  have hbounds := hlog.slots_inBounds hpos hlimits
  have hsubset : runningRuns name p.state.log ⊆ World.slotsIn (.run name) p.state.log := by
    intro runID hmem
    obtain ⟨rev, run, hlatest, hname, hrunning⟩ := mem_runningRuns hmem
    have halive : run.status.isTerminal = false := by rw [hrunning]; rfl
    have hid : run.runID = runID := (World.latestIn_wrote hlatest).2
    obtain ⟨hnone, hslot⟩ := stored_slotted hlog hservice hpos hlimits hlatest hname halive
    rw [hid] at hnone hslot
    refine (hslot hrunning).mem fun n hn hfrees => ?_
    obtain ⟨old, hended, hold, hworkflow⟩ := hlog.ended_of_freed hn hfrees
    exact hnone old hended hold hworkflow
  have hnodup : (runningRuns name p.state.log).Nodup := (List.nodup_dedup _).filter _
  calc ((runningRuns name p.state.log).length : ℤ)
      ≤ (World.slotsIn (.run name) p.state.log).length :=
        Int.ofNat_le.mpr (List.subperm_of_subset hnodup hsubset).length_le
    _ ≤ limit := hbounds.bounded

/-- The executable form of `Limits`. -/
def setsLimit (name : String) (limit : ℤ) (log : List Entry) : Bool :=
  let sets (d : WorkflowDef) : Bool :=
    d.name ≠ name || d.concurrency.any fun c => c.maxRuns = limit
  log.all fun
    | .definition _ d => sets d
    | .event e => e.start.carried.all sets
    | _ => true

lemma limits_of_setsLimit (h : setsLimit name limit log = true) : Limits o log name limit := by
  intro d hd
  have hsets : (d.name ≠ name || d.concurrency.any fun c => c.maxRuns = limit) = true := by
    rw [setsLimit, List.all_eq_true] at h
    cases hd.inPlay with
    | registered key hmem => exact h _ hmem
    | started e hmem hcarried =>
      have hall := h _ hmem
      dsimp only at hall
      rw [hcarried] at hall
      exact hall
  simp only [hd.name_eq, ne_eq, not_true_eq_false, decide_false, Bool.false_or] at hsets
  obtain ⟨c, hc, hlimit⟩ := (Option.any_eq_true _ _).mp hsets
  exact ⟨c, hc, of_decide_eq_true hlimit⟩

namespace Limited

/-- One run at a time. -/
def workflow : WorkflowDef where
  name := "single"
  steps := [{ id := "a", task := "work" }]
  concurrency := some { maxRuns := 1 }

def start (runID : String) : Order limiting.system :=
  publish { type := .workflowStarted, runID := runID
            start := .inline workflow .nil }

def spawn : Order limiting.system :=
  publish { type := .workflowSpawn, runID := "r", stepID := "a"
            payload := .doc (.obj [("child_run_id", .str "c"), ("child_workflow", .str "single"),
                ("parent_step_id", .str "a"), ("detach", .bool false)]) }

/-- A child of the only run that may be at work is at work beside it. -/
theorem limit_exceeded_by_child : Valid limiting workflow ∧ limiting.hasConcurrency = true ∧
    ∃ p : Pool limiting.system, Pool.Reaches Conditions.free (emptyPool limiting) p ∧
    Limits limiting p.state.log "single" 1 ∧ runningRuns "single" p.state.log = ["c", "r"] := by
  refine ⟨by decide +kernel, rfl, ?_⟩
  obtain ⟨p, hp, htest⟩ := reaches_free limiting
    (launched limiting workflow ++ [spawn] ++ perform (.handle 11)) (fun p =>
      setsLimit "single" 1 p.state.log &&
      runningRuns "single" p.state.log = ["c", "r"])
  rw [Bool.and_eq_true, decide_eq_true_eq] at htest
  exact ⟨p, hp, limits_of_setsLimit htest.1, htest.2⟩

/-- The second start has to wait. -/
theorem second_start_waits : ∃ p : Pool limiting.system,
    Pool.Reaches ((Terms.onWrites (keepsToSlots "single")).conditions limiting) (emptyPool limiting) p ∧
    runningRuns "single" p.state.log = ["r"] ∧
    ((runningRuns "single" p.state.log).length : ℤ) ≤ 1 := by
  obtain ⟨p, hp, htest⟩ :=
    Pool.reaches_of_script (Terms.checks_sound (keepsToSlots "single")) (emptyPool limiting)
    (launched limiting workflow ++ [start "s"] ++ perform (.handle 11)) (fun p =>
      setsLimit "single" 1 p.state.log &&
      runningRuns "single" p.state.log = ["r"])
  rw [Bool.and_eq_true, decide_eq_true_eq] at htest
  exact ⟨p, hp, htest.2, run_limit_holds hp rfl (by decide) (limits_of_setsLimit htest.1)⟩

end Limited

end Dagnats
