import Dagnats.Engine.Scenario

/-!
# No lost update

A copy of a run is written back by a compare-and-set on the revision it was
loaded at. The first write of a run is different: `SaveInitial` and the record
of a refused start put the snapshot without looking, after a separate read that
found nothing. So the snapshots of a run are a chain, each computed from the
one it replaces, exactly as far as these writes find nothing stored.
-/

namespace Dagnats

open Interaction

variable {o : Orchestrator} {K : Terms} {log : List Entry}

/-- The snapshot `y` replaced exactly the stored `x`, and was computed from it. -/
def Replaces (o : Orchestrator) (log : List Entry) (x y : ℕ × WorkflowRun) : Prop :=
  ∃ older site, (.snapshot site (some x.1) y.2 :: older) <:+ log ∧ older.length = y.1 ∧
    World.latestIn y.2.runID older = some x ∧ WriteOk o older site x.1 x.2 y.2

/-- No saved transition of a run is overwritten by a write that did not see it. -/
structure NoLostUpdate (o : Orchestrator) (log : List Entry) : Prop where
  /-- A write of a stored run replaces the revision its content was computed
  from. -/
  replaces : ∀ {older : List Entry} {site : Site} {prior : Option ℕ} {run : WorkflowRun}
    {stored : ℕ × WorkflowRun}, (.snapshot site prior run :: older) <:+ log →
    World.latestIn run.runID older = some stored →
    prior = some stored.1 ∧ Replaces o log stored (older.length, run)
  /-- Of two snapshots of a run the later one descends from the earlier one. -/
  chain : ∀ {i j : ℕ} {run run' : WorkflowRun}, Wrote log i run → Wrote log j run' → run'.runID =
    run.runID → i ≤ j → Relation.ReflTransGen (Replaces o log) (i, run) (j, run')

/-- A snapshot that is written without a revision finds nothing stored. -/
def blindWritesFirst : List Entry → Bool
  | [] => true
  | .snapshot _ none run :: older =>
    (World.latestIn run.runID older).isNone && blindWritesFirst older
  | _ :: older => blindWritesFirst older

lemma blindWritesFirst_iff : blindWritesFirst log = true ↔
    ∀ {older : List Entry} {site : Site} {run : WorkflowRun},
    (.snapshot site none run :: older) <:+ log → World.latestIn run.runID older = none := by
  induction log with
  | nil => simp [blindWritesFirst]
  | cons e log ih =>
    -- The newest entry is looked at by itself, the others by induction.
    have hcons : blindWritesFirst (e :: log) = true ↔ (∀ site run, e = .snapshot site none run →
          World.latestIn run.runID log = none) ∧ blindWritesFirst log = true := by
      cases e with
      | snapshot site prior run => cases prior <;> simp [blindWritesFirst]
      | _ => simp [blindWritesFirst]
    rw [hcons, ih]
    constructor
    · rintro ⟨hnew, hold⟩ older site run hin
      rcases List.suffix_cons_iff.mp hin with heq | hin
      · obtain ⟨rfl, rfl⟩ := List.cons.inj heq
        exact hnew site run rfl
      · exact hold hin
    · intro h
      constructor
      · rintro site run rfl
        exact h List.suffix_rfl
      · intro older site run hin
        exact h (hin.trans (List.suffix_cons e log))

lemma LogOk.replaces (hlog : LogOk o K log) (hblind : blindWritesFirst log = true)
    {older : List Entry} {site : Site} {prior : Option ℕ} {run : WorkflowRun}
    {stored : ℕ × WorkflowRun} (hin : (.snapshot site prior run :: older) <:+ log)
    (hstored : World.latestIn run.runID older = some stored) :
    prior = some stored.1 ∧ Replaces o log stored (older.length, run) := by
  have hcons : LogOk o K (.snapshot site prior run :: older) := hlog.suffix hin
  rcases hcons.write with ⟨rev, base, rfl, hlatest, hwrite⟩ | ⟨rfl, -⟩
  · rw [hlatest] at hstored
    cases hstored
    exact ⟨rfl, older, site, hin, rfl, hlatest, hwrite⟩
  · rw [blindWritesFirst_iff.mp hblind hin] at hstored
    cases hstored

/-- Induction on the position of the later snapshot: the one it replaces is no
older than the earlier snapshot. -/
lemma LogOk.chain (hlog : LogOk o K log) (hblind : blindWritesFirst log = true)
    {i j : ℕ} {run run' : WorkflowRun} (hi : Wrote log i run) (hj : Wrote log j run')
    (hid : run'.runID = run.runID) (hij : i ≤ j) :
    Relation.ReflTransGen (Replaces o log) (i, run) (j, run') := by
  induction j using Nat.strong_induction_on generalizing run' with
  | _ j ih =>
    obtain ⟨site, prior, hat⟩ := hi
    obtain ⟨site', prior', hat'⟩ := hj
    by_cases heq : i = j
    · subst heq
      cases hat.unique hat'
      exact .refl
    · have hlt : i < j := lt_of_le_of_ne hij heq
      obtain ⟨older, hin, rfl⟩ := hat'
      have hold : Wrote older i run :=
        ⟨site, prior, hat.restrict ((List.suffix_cons _ older).trans hin) hlt⟩
      obtain ⟨rev, base, hstored⟩ := World.exists_latestIn hold hid.symm
      obtain ⟨hbase, hbaseID⟩ := World.latestIn_wrote hstored
      have hrev : rev < older.length := by
        obtain ⟨_, _, hbaseAt⟩ := hbase
        exact hbaseAt.lt
      have hbefore : Wrote log rev base := hbase.mono ((List.suffix_cons _ older).trans hin)
      have hdescends := ih rev hrev hbefore (hbaseID.trans hid)
        (World.le_of_latestIn hstored hold hid.symm)
      exact hdescends.tail (hlog.replaces hblind hin hstored).2

lemma LogOk.noLostUpdate_iff (hlog : LogOk o K log) :
    blindWritesFirst log = true ↔ NoLostUpdate o log := by
  constructor
  · intro hblind
    exact ⟨hlog.replaces hblind, hlog.chain hblind⟩
  · intro h
    rw [blindWritesFirst_iff]
    intro older site run hin
    by_contra hstored
    obtain ⟨stored, hstored⟩ := Option.ne_none_iff_exists'.mp hstored
    exact absurd (h.replaces hin hstored).1 nofun

/-- **No lost updates on run snapshots.**  In every interleaving of any number of
engines, wherever they crash: no write of a run erases one that it has not seen
exactly if every snapshot that was written without a revision found nothing
stored. -/
theorem snapshots_chained_iff {p : Pool o.system}
    (hp : Pool.Reaches Conditions.free (emptyPool o) p) :
    blindWritesFirst p.state.log = true ↔ NoLostUpdate o p.state.log :=
  (reaches_logOk_free hp).noLostUpdate_iff

namespace Twice

def workflow : WorkflowDef where
  name := "single"
  steps := [{ id := "a", task := "work" }]

/-- An engine has found no run `r` and is about to store it when another one gets
the message again, stores the run and sees it to its end. -/
def script : List (Order Orchestrator.plain.system) :=
  [register workflow, publish { type := .workflowStarted, runID := "r"
                                start := .inline workflow .nil },
    .act (.start (.handle 2)), .drive World.calm 0 4,
    .act (.start (.handle 2)), .drive World.calm 1 100, .act (.drop 1),
    publish (answered .stepCompleted "a" 5),
    .act (.start (.handle 10)), .drive World.calm 1 100, .act (.drop 1),
    .drive World.calm 0 1]

/-- The completed run is stored as one that is just started. -/
theorem completion_overwritten : Valid Orchestrator.plain workflow ∧
    ∃ p : Pool Orchestrator.plain.system,
      Pool.Reaches Conditions.free (emptyPool Orchestrator.plain) p ∧
      (∃ i j run run', i < j ∧ Wrote p.state.log i run ∧ Wrote p.state.log j run' ∧
        run'.runID = run.runID ∧ run.status = .completed ∧ run'.status = .running) ∧
      ¬NoLostUpdate Orchestrator.plain p.state.log := by
  refine ⟨by decide +kernel, ?_⟩
  obtain ⟨p, hp, htest⟩ := reaches_free Orchestrator.plain script (fun p =>
      p.state.wroteAt 11 (fun run => run.runID = "r" && run.status = .completed) &&
      p.state.wroteAt 15 (fun run => run.runID = "r" && run.status = .running) &&
      !blindWritesFirst p.state.log)
  simp only [Bool.and_eq_true, Bool.not_eq_true'] at htest
  obtain ⟨⟨hdone, hagain⟩, hblind⟩ := htest
  obtain ⟨run, hrun, hcompleted⟩ := World.wroteAt_wrote hdone
  obtain ⟨run', hrun', hrunning⟩ := World.wroteAt_wrote hagain
  simp only [Bool.and_eq_true, decide_eq_true_eq] at hcompleted hrunning
  refine ⟨p, hp, ⟨11, 15, run, run', by decide, hrun, hrun',
    hrunning.1.trans hcompleted.1.symm, hcompleted.2, hrunning.2⟩, fun h => ?_⟩
  rw [(reaches_logOk_free hp).noLostUpdate_iff.mpr h] at hblind
  cases hblind

/-- The message comes again when the run is stored. -/
def redelivered : List (Order Orchestrator.plain.system) :=
  launched Orchestrator.plain workflow ++ perform (.handle 2) ++
    [publish (answered .stepCompleted "a" 5)] ++ perform (.handle 10)

theorem redelivery_loses_nothing : ∃ p : Pool Orchestrator.plain.system,
    Pool.Reaches Conditions.free (emptyPool Orchestrator.plain) p ∧
    (∃ run, Wrote p.state.log 11 run ∧ run.status = .completed) ∧
    NoLostUpdate Orchestrator.plain p.state.log := by
  obtain ⟨p, hp, htest⟩ := reaches_free Orchestrator.plain
    redelivered (fun p => p.state.wroteAt 11 (fun run => run.status = .completed) &&
      blindWritesFirst p.state.log)
  rw [Bool.and_eq_true] at htest
  obtain ⟨run, hrun, hcompleted⟩ := World.wroteAt_wrote htest.1
  exact ⟨p, hp, ⟨run, hrun, of_decide_eq_true hcompleted⟩, (snapshots_chained_iff hp).mp htest.2⟩

end Twice

end Dagnats
