import Dagnats.Engine.Lineage
import Dagnats.Engine.Scenario

/-!
# A terminal status is final

A status becomes terminal in `finalizeRun`, which refuses a run that is
terminal and has its completion time. So a terminal status is final where it
comes with a completion time, and where the two writes that do not look at the
stored status are kept away from terminal runs: the queue advance, and the
write that creates a run.
-/

namespace Dagnats

open Interaction

variable {o : Orchestrator} {log : List Entry} {run : WorkflowRun} {rev : ℕ}

/-- The write does not replace a stored status that it has not looked at:
nothing is stored where a run is created, the run that is moved out of the
queue is not terminal, and a compensation stores no status that was only set in
memory. -/
def looksAtStatus (log : List Entry) (site : Site) (prior : Option ℕ) (run : WorkflowRun) : Bool :=
  match prior, site with
  | none, _ => (World.latestIn run.runID log).isNone
  | some _, .queueAdvance =>
    (World.latestIn run.runID log).all fun x => !x.2.status.isTerminal
  | some _, .compensateNext => !run.status.isTerminal
  | some _, _ => true

def Settled (run : WorkflowRun) : Prop :=
  run.status.isTerminal = true ↔ run.completedAt.isSome = true

def StatusFinal (run run' : WorkflowRun) : Prop :=
  run.status.isTerminal = true → run'.status = run.status

lemma StatusFinal.trans {a b c : WorkflowRun} (hab : StatusFinal a b)
    (hbc : StatusFinal b c) : StatusFinal a c := by
  intro ha
  have hb : b.status.isTerminal = true := by rw [hab ha]; exact ha
  rw [hbc hb, hab ha]

lemma single_looksAtStatus : LogOk.Single (Terms.onWrites looksAtStatus) := by
  intro log site run h
  simpa [looksAtStatus] using h site none run rfl

lemma WriteOk.settled {site : Site} {base : WorkflowRun} (h : WriteOk o log site rev base run)
    (hlatest : World.latestIn run.runID log = some (rev, base))
    (hlooks : looksAtStatus log site (some rev) run = true) (hbase : Settled base) :
    StatusFinal base run ∧ Settled run := by
  obtain ⟨copy, edited, hchanges, hedit, rfl⟩ := h.changes
  have hsame := hchanges.sameRun
  have hstatus : copy.status = base.status := hsame.status
  have hcompleted : copy.completedAt = base.completedAt := hsame.completedAt
  cases hedit with
  | plain | release =>
    refine ⟨fun _ => hstatus, ?_⟩
    change copy.status.isTerminal = true ↔ copy.completedAt.isSome = true
    rw [hstatus, hcompleted]
    exact hbase
  | finalize status time hopen hterminal =>
    refine ⟨fun hterm => ?_, fun _ => rfl, fun _ => hterminal⟩
    rw [hstatus, hcompleted] at hopen
    exact absurd ⟨hterm, hbase.mp hterm⟩ hopen
  | queueAdvance deadline =>
    simp only [looksAtStatus, hlatest, Option.all_some, Bool.not_eq_true'] at hlooks
    refine ⟨fun hterm => ?_, Iff.intro (fun hterm => ?_) fun hdone => ?_⟩
    · rw [hterm] at hlooks
      cases hlooks
    · have hrunning : RunStatus.running.isTerminal = true := hterm
      cases hrunning
    · have hsome : copy.completedAt.isSome = true := hdone
      rw [hcompleted] at hsome
      rw [hbase.mpr hsome] at hlooks
      cases hlooks
  | compensateNext hopen => cases hlooks

lemma stored_settled (hlog : LogOk o (Terms.onWrites looksAtStatus) log)
    (hrun : Wrote log rev run) : Settled run := by
  refine hlog.stored (P := fun _ run => Settled run) (fun _ h => h) ?_ ?_ hrun
  · intro log site run hcreate _
    exact hcreate.status.trans hcreate.completedAt.symm
  · intro log site rev base run _ hlatest hwrite hlooks hbase
    exact (hwrite.settled hlatest (hlooks _ _ _ rfl) hbase).2

/-- **A terminal status is final.**  In every interleaving of any number of
engines, wherever they crash, as long as no write replaces a stored status
without looking at it: once a write has stored a run with a terminal status,
every later write of the run stores that status. -/
theorem terminal_status_final {p : Pool o.system}
    (hp : Pool.Reaches ((Terms.onWrites looksAtStatus).conditions o) (emptyPool o) p)
    {i j : ℕ} {run run' : WorkflowRun} (hi : Wrote p.state.log i run)
    (hj : Wrote p.state.log j run') (hid : run'.runID = run.runID) (hij : i < j)
    (hterm : run.status.isTerminal = true) : run'.status = run.status := by
  refine (reaches_logOk hp).later (R := StatusFinal) single_looksAtStatus
    (fun _ _ => rfl) StatusFinal.trans ?_ hi hj hid hij.le hterm
  intro log site rev base run hlog hlatest hwrite hlooks
  have hbase := stored_settled hlog (World.latestIn_wrote hlatest).1
  exact (hwrite.settled hlatest (hlooks _ _ _ rfl) hbase).1

namespace Queued

def workflow : WorkflowDef where
  name := "single"
  steps := [{ id := "a", task := "work" }]
  concurrency := some { maxRuns := 2 }

def start (runID : String) : Order limiting.system :=
  publish { type := .workflowStarted, runID := runID
            start := .inline workflow .nil }

/-- A worker completes the step under the nonce of its task. -/
def complete (runID : String) (nonce : ℕ) : Order limiting.system :=
  publish { type := .stepCompleted, runID := runID, stepID := "a"
            attemptNumber := 1, iteration := some 0, dispatchNonce := some nonce }

def listing : World → Call → Choice :=
  World.except fun w op =>
    match op with
    | .listRuns =>
      some (.entries (["r1", "r2", "r3"].filterMap fun runID =>
        (w.latest runID).map (·.1)))
    | _ => none

/-- Two runs hold the slots of the workflow and end at the same time. The engine that
ends `r1` finds `r3` in the queue; before it goes on, the other one moves `r3` out and
`r3` completes. -/
def script : List (Order limiting.system) :=
  [register workflow, start "r1"] ++ perform (.handle 2) ++
  [start "r2"] ++ perform (.handle 11) ++
  [start "r3"] ++ perform (.handle 20) ++
  [complete "r1" 6, complete "r2" 15, .act (.start (.handle 23)), .drive listing 0 10,
    .act (.start (.handle 24)), .drive listing 1 100, .act (.drop 1),
    complete "r3" 31,
    .act (.start (.handle 39)), .drive listing 1 100, .act (.drop 1),
    .drive listing 0 100]

/-- The queue advance stores a run that has completed as running. -/
theorem completed_run_reopened : Valid limiting workflow ∧ ∃ p : Pool limiting.system,
    Pool.Reaches Conditions.free (emptyPool limiting) p ∧ ∃ i j run run', i < j ∧
    Wrote p.state.log i run ∧ Wrote p.state.log j run' ∧ run'.runID = run.runID ∧ run.status =
    .completed ∧ run'.status = .running := by
  refine ⟨by decide +kernel, ?_⟩
  obtain ⟨p, hp, htest⟩ := reaches_free limiting script (fun p =>
      p.state.wroteAt 40 (fun run => run.runID = "r3" && run.status = .completed) &&
      p.state.wroteAt 46 (fun run => run.runID = "r3" && run.status = .running))
  simp only [Bool.and_eq_true] at htest
  obtain ⟨run, hrun, hcompleted⟩ := World.wroteAt_wrote htest.1
  obtain ⟨run', hrun', hrunning⟩ := World.wroteAt_wrote htest.2
  simp only [Bool.and_eq_true, decide_eq_true_eq] at hcompleted hrunning
  exact ⟨p, hp, 40, 46, run, run', by decide, hrun, hrun',
    hrunning.1.trans hcompleted.1.symm, hcompleted.2, hrunning.2⟩

/-- The slot of the run is not released at once. -/
def releaseFails : World → Call → Choice :=
  World.except fun _ op =>
    match op with
    | .notify (.releaseRun ..) => some .fail
    | _ => none

/-- `r1` completes and is written once more, with the slot it still owes. -/
def debtScript : List (Order limiting.system) :=
  [register workflow, start "r1"] ++ perform (.handle 2) ++
  [complete "r1" 6] ++ performUnder releaseFails (.handle 11)

/-- The second write of a completed run stores the status of the first. -/
theorem completed_run_final : ∃ p : Pool limiting.system,
    Pool.Reaches ((Terms.onWrites looksAtStatus).conditions limiting) (emptyPool limiting) p ∧
    ∃ i j run run', i < j ∧ Wrote p.state.log i run ∧ Wrote p.state.log j run' ∧ run'.runID =
    run.runID ∧ run.status.isTerminal = true ∧ run'.status = run.status := by
  obtain ⟨p, hp, htest⟩ :=
    Pool.reaches_of_script (Terms.checks_sound looksAtStatus) (emptyPool limiting)
    debtScript (fun p =>
      p.state.wroteAt 12 (fun run => run.runID = "r1" && run.status.isTerminal) &&
      p.state.wroteAt 14 (fun run => run.runID = "r1"))
  simp only [Bool.and_eq_true] at htest
  obtain ⟨run, hrun, hterminal⟩ := World.wroteAt_wrote htest.1
  obtain ⟨run', hrun', hsame⟩ := World.wroteAt_wrote htest.2
  simp only [Bool.and_eq_true, decide_eq_true_eq] at hterminal hsame
  have hid : run'.runID = run.runID := hsame.trans hterminal.1.symm
  exact ⟨p, hp, 12, 14, run, run', by decide, hrun, hrun', hid, hterminal.2,
    terminal_status_final hp hrun hrun' hid (by decide) hterminal.2⟩

end Queued

end Dagnats
