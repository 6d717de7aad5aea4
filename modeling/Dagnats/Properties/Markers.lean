import Dagnats.Engine.Scenario
import Dagnats.Engine.SoloDispatch

/-!
# `step.queued` and `step.started`

The two handlers keep the attempt counter and the status of a step. They never
lower the counter and never take a running step back, but of the statuses a step
can rest in they look at `completed` and `failed` only: a step that was skipped,
recovered or cancelled is put to work again by a late event.
-/

namespace Dagnats

open Interaction

variable {site : Site} {s : StepState} {α : Type} {run' : WorkflowRun} {v : World}

/-! ## Steps that do not fall back -/

/-- The statuses that a step does not leave by itself. -/
def StepStatus.isSettled : StepStatus → Bool
  | .completed | .failed | .skipped | .recovered | .cancelled => true
  | .pending | .queued | .running => false

/-- The step has not fallen back from `s` to `s'`. -/
structure StepState.Holds (s s' : StepState) : Prop where
  settled : s.status.isSettled = true → s'.status ≠ .queued ∧ s'.status ≠ .running
  running : s.status = .running → s'.status ≠ .queued
  attempts : s.attempts ≤ s'.attempts

/-- No step has fallen back. -/
def StepsHold (run run' : WorkflowRun) : Prop :=
  ∀ id, (run.step id).Holds (run'.step id)

def revives (run : WorkflowRun) (e : Event) : Bool :=
  e.stepID ≠ "" && run.steps.has e.stepID && !run.status.isTerminal &&
    ((run.step e.stepID).status = .skipped || (run.step e.stepID).status = .recovered ||
      (run.step e.stepID).status = .cancelled) &&
    !(e.type = .stepStarted && startedForOtherDispatch (run.step e.stepID) e)

lemma StepState.Holds.refl (s : StepState) : s.Holds s :=
  ⟨fun h => by constructor <;> (intro hs; simp [hs, StepStatus.isSettled] at h),
    fun h hs => by simp [h] at hs, le_rfl⟩

lemma StepsHold.alike {run run'' : WorkflowRun} (h : StepsHold run run')
    (hlike : Alike run' run'') : StepsHold run run'' := by
  intro id
  have hstatus := hlike.stepStatus id
  have hattempts := hlike.field StepState.attempts (fun _ => rfl) id
  exact ⟨hstatus ▸ (h id).settled, hstatus ▸ (h id).running, hattempts ▸ (h id).attempts⟩

lemma StepsHold.setStep {run : WorkflowRun} {id : String} (h : (run.step id).Holds s) :
    StepsHold run (run.setStep id s) := by
  intro other
  rw [WorkflowRun.step_setStep]
  split
  · next hid => exact hid ▸ h
  · exact .refl _

/-- The watch over a handler that should let no step of `run` fall back. -/
def holding (runID : String) (base : World) (run : WorkflowRun) : Watch where
  runID := runID
  base := base
  keeps ws := base.writes runID <:+ ws ∧ ∃ stored, lastRun ws = some stored ∧ StepsHold run stored
  extends_start h := h.1
  keeps_tended := by
    intro ws site prior stored run' _ hlast hlike h
    obtain ⟨hstart, stored', hlast', hhold⟩ := h
    rw [hlast] at hlast'
    cases hlast'
    exact ⟨hstart.trans (List.suffix_cons _ _), run', rfl, hhold.alike hlike⟩

section Handling

variable {o : Orchestrator} {e : Event} {w base : World} {rev : ℕ} {run : WorkflowRun}

lemma holding_keeps (hstart : base.writes e.runID <:+ w.writes e.runID) (h : StepsHold run run') :
    ∀ prior stored, Alike run' stored → (holding e.runID base run).keeps
      (.snapshot site prior stored :: w.writes e.runID) := fun _ stored hlike =>
  ⟨hstart.trans (List.suffix_cons _ _), stored, rfl, h.alike hlike⟩

lemma holds_of_not_settled {s' : StepState} (hopen : s.status.isSettled = false)
    (hrunning : s.status = .running → s'.status ≠ .queued) (hattempts : s.attempts ≤ s'.attempts) :
    s.Holds s' :=
  ⟨fun h => absurd (h.symm.trans hopen) (by decide), hrunning, hattempts⟩

lemma open_of_not_revives (hstep : e.stepID ≠ "") (hhas : run.steps.has e.stepID = true)
    (hlive : run.status.isTerminal = false) (hcompleted : (run.step e.stepID).status ≠ .completed)
    (hfailed : (run.step e.stepID).status ≠ .failed)
    (hother : e.type = .stepStarted → startedForOtherDispatch (run.step e.stepID) e = false)
    (h : revives run e = false) : (run.step e.stepID).status.isSettled = false := by
  have hnot : (e.type = .stepStarted && startedForOtherDispatch (run.step e.stepID) e) = false := by
    by_cases htype : e.type = .stepStarted
    · simp [htype, hother htype]
    · simp [htype]
  simp only [revives, hnot, hhas, hlive] at h
  cases hstatus : (run.step e.stepID).status <;> simp_all [StepStatus.isSettled]

section

variable (hlast : lastRun (w.writes e.runID) = some run)
include hlast

lemma Attends.saveMarked
    (hstart : base.writes e.runID <:+ w.writes e.runID) (h : (run.step e.stepID).Holds s) :
    Attends o (holding e.runID base run) w
      (Dagnats.saveSnapshot site ((World.received rev run).setStep e.stepID s))
      fun _ _ => True := by
  have hid : run.runID = e.runID := runID_of_lastRun (W := holding e.runID base run) hlast
  have hhold : StepsHold run ((World.received rev run).setStep e.stepID s) := StepsHold.setStep h
  exact (saveSnapshot (W := holding e.runID base run) (by exact hid)
    (holding_keeps hstart hhold)).conseq fun _ _ _ _ => trivial

lemma Attends.marking {P : WorkflowRun → Prop} {_ : DecidablePred P} {msg : String}
    {k : WorkflowRun → M Unit}
    (hk : ∀ rev u, Apart e.runID w u → e.stepID ≠ "" → run.steps.has e.stepID = true →
      ¬P (World.received rev run) → run.status.isTerminal = false →
      Attends o (holding e.runID base run) u (k (World.received rev run)) fun _ _ => True) :
    Attends o (holding e.runID base run) w
      (if e.stepID = "" then Dagnats.panic msg else (Dagnats.load e.runID).bind fun run =>
        if (!run.steps.has e.stepID) = true then Prog.pure () else if P run then Prog.pure () else
          (lateEventForTerminalRun run e).bind fun late =>
            if late = true then Prog.pure () else k run) fun _ _ => True := by
  have hdone : ∀ {t : World}, Attends o (holding e.runID base run) t
      (Prog.pure ()) fun _ _ => True := pure fun _ _ _ => trivial
  refine ite (fun _ => fail (by simp)) fun hstep => ?_
  refine bind (load (W := holding e.runID base run)) fun copy t _ hcopy => ?_
  obtain ⟨hwt, rev, stored, hstored, rfl⟩ := hcopy
  obtain rfl : stored = run := Option.some.inj (hstored.symm.trans hlast)
  refine ite (fun _ => hdone) fun hhas => ite (fun _ => hdone) fun hpast => ?_
  refine bind Quiet.lateEvent.attends fun late u _ hlate => ?_
  obtain ⟨rfl, htu⟩ := hlate
  exact ite (fun _ => hdone) fun hlive =>
    hk rev u (hwt.trans htu) hstep (by simpa [World.received] using hhas) hpast
      (by simpa [World.received] using hlive)

lemma Attends.handleStepQueued (htype : e.type = .stepQueued) (h : revives run e = false)
    (hstart : base.writes e.runID <:+ w.writes e.runID) :
    Attends o (holding e.runID base run) w (Dagnats.handleStepQueued e) fun _ _ => True := by
  refine marking hlast fun rev u hwu hstep hhas hpast hlive => ?_
  have hopen : (run.step e.stepID).status.isSettled = false :=
    open_of_not_revives hstep hhas hlive (fun h => hpast (.inl h))
      (fun h => hpast (.inr (.inl h))) (fun h => by simp [htype] at h) h
  refine bind (saveMarked (hwu.writes ▸ hlast) (hwu.writes ▸ hstart) ?_) fun _ _ _ _ =>
    pure fun _ _ _ => trivial
  exact holds_of_not_settled hopen (fun h => absurd (.inr (.inr h)) hpast) (le_max_left _ _)

lemma Attends.handleStepStarted (h : revives run e = false)
    (hstart : base.writes e.runID <:+ w.writes e.runID) :
    Attends o (holding e.runID base run) w (Dagnats.handleStepStarted e) fun _ _ => True := by
  refine marking hlast fun rev u hwu hstep hhas hpast hlive => ?_
  refine ite (fun _ => pure fun _ _ _ => trivial) fun hother => ?_
  refine bind Quiet.now.attends fun time v _ hv => ?_
  have hother' : startedForOtherDispatch ((World.received rev run).step e.stepID) e =
      false := by simpa using hother
  have hopen : (run.step e.stepID).status.isSettled = false :=
    open_of_not_revives hstep hhas hlive (fun h => hpast (.inl h))
      (fun h => hpast (.inr h)) (fun _ => hother') h
  have hwv : Apart e.runID w v := hwu.trans hv.2
  refine bind (saveMarked (hwv.writes ▸ hlast) (hwv.writes ▸ hstart) ?_) fun _ _ _ _ =>
    Quiet.armStepWatchdog.attends.conseq fun _ _ _ _ => trivial
  refine holds_of_not_settled hopen (fun _ => ?_) ?_
  · rw [startedState_status]
    decide
  · rw [startedState_attempts]
    exact le_max_left _ _

end

/-- Where no step is revived, none falls back, whatever the answers. -/
lemma stepsHold_of_runs {w' : World} {q : M Unit}
    (htype : e.type = .stepQueued ∨ e.type = .stepStarted)
    (hstored : w.latest e.runID = some (rev, run)) (h : revives run e = false)
    (hruns : Runs o.system (Apart e.runID) w (o.routeEvent e) w' q) :
    ∃ rev' run', w'.latest e.runID = some (rev', run') ∧ StepsHold run run' := by
  have hlast : lastRun (w.writes e.runID) = some run := by
    rw [World.lastRun_writes, hstored]
    rfl
  have hw : (holding e.runID w run).Holds w :=
    ⟨List.suffix_rfl, List.suffix_rfl, run, hlast, fun _ => .refl _⟩
  have hattends : Attends o (holding e.runID w run) w (o.routeEvent e)
      fun _ _ => True := by
    unfold Orchestrator.routeEvent
    rcases htype with htype | htype
    · rw [htype]
      exact Attends.handleStepQueued hlast htype h List.suffix_rfl
    · rw [htype]
      exact Attends.handleStepStarted hlast h List.suffix_rfl
  have hw' : (holding e.runID w run).Holds w' :=
    (hruns.safe (C := solo o (holding e.runID w run)) (fun _ _ => trivial)
      (fun h hst => h.apart hst) (fun h => h) hw hattends).1
  obtain ⟨-, run', hlast', hhold⟩ := hw'.keeps
  have hmap : (w'.latest e.runID).map (·.2) = some run' := by
    rw [← World.lastRun_writes]
    exact hlast'
  obtain ⟨⟨rev', stored⟩, hlatest, rfl⟩ := Option.map_eq_some_iff.mp hmap
  exact ⟨rev', stored, hlatest, hhold⟩

/-- The save of a copy that was just loaded takes effect on a calm day. -/
lemma runs_saveSnapshot {copy : WorkflowRun} {k : WorkflowRun → M α}
    (hstored : w.latest copy.runID = some (rev, run)) (hrev : copy.revision = some rev) :
    ∃ q, Runs o.system (Apart e.runID) w (Prog.bind (saveSnapshot site copy) k)
      (w.push (.snapshot site (some rev) (World.persisted (stampTerminalSteps copy w.now)))) q := by
  have hexec : w.exec (.update site (stampTerminalSteps copy w.now) rev) .done =
      some (.ok w.log.length, w.push (.snapshot site (some rev)
        (World.persisted (stampTerminalSteps copy w.now)))) := by
    have hlatest : w.latest (stampTerminalSteps copy w.now).runID = some (rev, run) := hstored
    simp only [World.exec, World.compareAndSet, hlatest, Option.map_some, if_true]
    rfl
  have hsave : save site (stampTerminalSteps copy w.now) =
      Prog.bind (request (.update site (stampTerminalSteps copy w.now) rev)) fun rev' =>
        .pure { stampTerminalSteps copy w.now with
          revision := some rev', recording := none } := by
    have hcopy : (stampTerminalSteps copy w.now).revision = some rev := hrev
    unfold save
    rw [hcopy]
    rfl
  refine Runs.exists_step .done (.ok w.now) (Apart.refl w) rfl ?_
  change ∃ q, Runs o.system (Apart e.runID) w (Prog.bind
    (Prog.bind (save site (stampTerminalSteps copy w.now)) settleFinishedSteps) k) _ q
  rw [hsave]
  exact ⟨_, .step .done (.ok w.log.length) (Apart.refl w) hexec (.rest _ (Apart.refl _))⟩

lemma exists_runs_load {f : WorkflowRun → M α} (hstored : w.latest e.runID = some (rev, run))
    (h : ∃ q, Runs o.system (Apart e.runID) w (f (World.received rev run)) v q) :
    ∃ q, Runs o.system (Apart e.runID) w (Prog.bind (load e.runID) f) v q := by
  refine Runs.exists_step .done (.ok (World.received rev run)) (Apart.refl w) ?_ h
  change w.read e.runID .done = _
  simp only [World.read, hstored]
  rfl

/-- What an event that revives a step meets. -/
structure Revived (run : WorkflowRun) (e : Event) : Prop where
  step : e.stepID ≠ ""
  has : run.steps.has e.stepID = true
  live : run.status.isTerminal = false
  status : (run.step e.stepID).status = .skipped ∨
    (run.step e.stepID).status = .recovered ∨ (run.step e.stepID).status = .cancelled
  same : e.type = .stepStarted → startedForOtherDispatch (run.step e.stepID) e = false

lemma revived_of_revives (h : revives run e = true) : Revived run e := by
  simp only [revives, Bool.and_eq_true, Bool.or_eq_true, Bool.not_eq_true', decide_eq_true_eq] at h
  obtain ⟨⟨⟨⟨hstep, hhas⟩, hlive⟩, hstatus⟩, hother⟩ := h
  refine ⟨hstep, hhas, hlive, or_assoc.mp hstatus, fun htype => ?_⟩
  simpa [htype] using hother

lemma Revived.settled (h : Revived run e) : (run.step e.stepID).status.isSettled = true := by
  rcases h.status with hs | hs | hs <;> rw [hs] <;> rfl

lemma Revived.not_past (h : Revived run e) : (run.step e.stepID).status ≠ .completed ∧
    (run.step e.stepID).status ≠ .failed ∧ (run.step e.stepID).status ≠ .running := by
  rcases h.status with hs | hs | hs <;> simp [hs]

lemma lateEvent_eq (hid : run.runID = e.runID) (hstep : e.stepID ≠ "")
    (hlive : run.status.isTerminal = false) : lateEventForTerminalRun run e = .pure false := by
  simp only [lateEventForTerminalRun, hid, hstep, hlive, ne_eq, not_true_eq_false, if_false]
  rfl

lemma Revived.has_copy (h : Revived run e) :
    ¬(!(World.received rev run).steps.has e.stepID) = true := by
  rw [show (World.received rev run).steps.has e.stepID = true from h.has]
  decide

lemma exists_runs_late {f : Bool → M α}
    (hstored : w.latest e.runID = some (rev, run)) (h : Revived run e)
    (hf : ∃ q, Runs o.system (Apart e.runID) w (f false) v q) : ∃ q, Runs o.system (Apart e.runID) w
      (Prog.bind (lateEventForTerminalRun (World.received rev run) e) f) v q := by
  have hid : (World.received rev run).runID = e.runID := (World.latestIn_wrote hstored).2
  rw [lateEvent_eq hid h.step h.live]
  exact hf

def World.marked (w : World) (site : Site) (rev : ℕ) (run : WorkflowRun) (e : Event)
    (s : StepState) : World :=
  w.push (.snapshot site (some rev) (World.persisted (stampTerminalSteps
    ((World.received rev run).setStep e.stepID s) w.now)))

section

variable (hstored : w.latest e.runID = some (rev, run))
include hstored

lemma latest_marked : ∃ run', (w.marked site rev run e s).latest e.runID =
    some (w.log.length, run') ∧ (run'.step e.stepID).status = s.status := by
  let copy := (World.received rev run).setStep e.stepID s
  let stored := World.persisted (stampTerminalSteps copy w.now)
  have hid : stored.runID = e.runID := (World.latestIn_wrote hstored).2
  have hlike : Alike copy stored := (Alike.stampTerminalSteps copy w.now).trans (.persisted _)
  refine ⟨stored, ?_, ?_⟩
  · rw [← hid]
    exact if_pos rfl
  · rw [hlike.stepStatus]
    simp [copy]

lemma runs_mark {k : WorkflowRun → M α} :
    ∃ q, Runs o.system (Apart e.runID) w (Prog.bind (saveSnapshot site
      ((World.received rev run).setStep e.stepID s)) k) (w.marked site rev run e s) q := by
  have hid : ((World.received rev run).setStep e.stepID s).runID = e.runID :=
    (World.latestIn_wrote hstored).2
  exact runs_saveSnapshot (hid ▸ hstored) rfl

lemma runs_revived_queued (h : Revived run e) :
    ∃ q, Runs o.system (Apart e.runID) w (handleStepQueued e)
      (w.marked .stepQueued rev run e { run.step e.stepID with
        status := .queued
        attempts := max (run.step e.stepID).attempts e.attemptNumber }) q := by
  refine Runs.exists_else h.step (exists_runs_load hstored ?_)
  refine Runs.exists_else h.has_copy (Runs.exists_else ?_ ?_)
  · have hpast := h.not_past
    rintro (hs | hs | hs)
    · exact hpast.1 hs
    · exact hpast.2.1 hs
    · exact hpast.2.2 hs
  · exact exists_runs_late hstored h (Runs.exists_else (by decide) (runs_mark hstored))

lemma runs_revived_started (htype : e.type = .stepStarted) (h : Revived run e) :
    ∃ q, Runs o.system (Apart e.runID) w (handleStepStarted e)
      (w.marked .stepStarted rev run e (startedState (run.step e.stepID) e w.now).1) q := by
  have hsame : ¬startedForOtherDispatch ((World.received rev run).step e.stepID) e =
      true := by
    rw [show startedForOtherDispatch ((World.received rev run).step e.stepID) e = false
      from h.same htype]
    decide
  refine Runs.exists_else h.step (exists_runs_load hstored ?_)
  refine Runs.exists_else h.has_copy (Runs.exists_else ?_ ?_)
  · have hpast := h.not_past
    rintro (hs | hs)
    · exact hpast.1 hs
    · exact hpast.2.1 hs
  · refine exists_runs_late hstored h (Runs.exists_else (by decide) ?_)
    refine Runs.exists_else hsame ?_
    exact Runs.exists_step .done (.ok w.now) (Apart.refl w) rfl (runs_mark hstored)

end

/-- **`step.queued` and `step.started` are monotone** exactly where they revive no
step: whatever the answers of the services and wherever the handling stops, no
step of the stored run has fallen back. -/
theorem markers_monotone_iff (htype : e.type = .stepQueued ∨ e.type = .stepStarted)
    (hstored : w.latest e.runID = some (rev, run)) :
    (∀ w' q, Runs o.system (Apart e.runID) w (o.routeEvent e) w' q →
      ∃ rev' run', w'.latest e.runID = some (rev', run') ∧ StepsHold run run') ↔
    revives run e = false := by
  constructor
  · intro hall
    by_contra hrevives
    have h : Revived run e := revived_of_revives (by simpa using hrevives)
    have hbad : ∃ w' q rev' run', Runs o.system (Apart e.runID) w (o.routeEvent e) w' q ∧
        w'.latest e.runID = some (rev', run') ∧
        ((run'.step e.stepID).status = .queued ∨ (run'.step e.stepID).status = .running) := by
      unfold Orchestrator.routeEvent
      rcases htype with htype | htype
      · rw [htype]
        obtain ⟨q, hq⟩ := runs_revived_queued (o := o) hstored h
        obtain ⟨run', hlatest, hstatus⟩ := latest_marked hstored
        exact ⟨_, q, _, run', hq, hlatest, .inl hstatus⟩
      · rw [htype]
        obtain ⟨q, hq⟩ := runs_revived_started (o := o) hstored htype h
        obtain ⟨run', hlatest, hstatus⟩ := latest_marked hstored
        exact ⟨_, q, _, run', hq, hlatest, .inr (hstatus.trans (startedState_status ..))⟩
    obtain ⟨w', q, rev', run', hruns, hlatest, hstatus⟩ := hbad
    obtain ⟨rev'', run'', hlatest', hhold⟩ := hall w' q hruns
    obtain rfl : run'' = run' := by
      rw [hlatest] at hlatest'
      exact (Prod.mk.inj (Option.some.inj hlatest')).2.symm
    have hsettled := (hhold e.stepID).settled h.settled
    rcases hstatus with hs | hs
    · exact hsettled.1 hs
    · exact hsettled.2 hs
  · intro h w' q hruns
    exact stepsHold_of_runs htype hstored h hruns

end Handling

/-! ## A recovered step that is queued again -/

namespace Mended

/-- `h` makes up for a failure of `a`, while `x` is at work. -/
def workflow : WorkflowDef where
  name := "mended"
  steps := [{ id := "a", task := "work", onFailure := "h" }, { id := "x", task := "work" },
    { id := "h", task := "mend" }]
  auxSteps := ["h"]

/-- `a` fails and `h` completes, before the `step.queued` of `a` is handled. -/
def script : List (Order Orchestrator.plain.system) :=
  launched _ workflow ++ [publish (answered .stepFailed "a" 5)] ++ perform (.handle 13) ++
  [publish (answered .stepCompleted "h" 14)] ++ perform (.handle 17)

def late (p : Pool Orchestrator.plain.system) : Bool :=
  p.state.hasEvent 8 .stepQueued "r" "a"

def statusOf (p : Pool Orchestrator.plain.system) (stepID : String) : Option StepStatus :=
  p.state.stored "r" fun run => (run.step stepID).status

def timely (p : Pool Orchestrator.plain.system) : Bool :=
  match p.state.entryAt 9 with
  | some (.event e) => e.type = .stepQueued && (p.state.latest e.runID).any fun x => !revives x.2 e
  | _ => false

/-- The `step.queued` of `x` comes in time: whatever the answers, no step falls
back. -/
theorem timely_marker_monotone :
    ∃ (p : Pool Orchestrator.plain.system) (e : Event) (rev : ℕ) (run : WorkflowRun),
    Pool.Reaches Conditions.free (emptyPool Orchestrator.plain) p ∧ p.state.entryAt 9 =
    some (.event e) ∧ e.type = .stepQueued ∧ p.state.latest e.runID = some (rev, run) ∧ ∀ w' q,
    Runs Orchestrator.plain.system (Apart e.runID) p.state (Orchestrator.plain.routeEvent e) w' q →
    ∃ rev' run', w'.latest e.runID = some (rev', run') ∧ StepsHold run run' := by
  obtain ⟨p, hp, htest⟩ := reaches_free Orchestrator.plain
    script timely
  unfold timely at htest
  split at htest
  · next e hat =>
    rw [Bool.and_eq_true, decide_eq_true_eq] at htest
    obtain ⟨⟨rev, run⟩, hlatest, hrun⟩ := (Option.any_eq_true ..).mp htest.2
    rw [Bool.not_eq_true'] at hrun
    exact ⟨p, e, rev, run, hp, hat, htest.1, hlatest,
      (markers_monotone_iff (.inl htest.1) hlatest).mpr hrun⟩
  · cases htest

/-- The late `step.queued` of a step that has been recovered queues it again. -/
theorem recovered_step_queued : Valid Orchestrator.plain workflow ∧
    ∃ p q : Pool Orchestrator.plain.system,
    Pool.Reaches Conditions.free (emptyPool Orchestrator.plain) p ∧ late p = true ∧ statusOf p "a" =
    some .recovered ∧ Pool.Reaches (only (.handle 8)) (Pool.initial p.state) q ∧ statusOf q "a" =
    some .queued := by
  refine ⟨by decide +kernel, ?_⟩
  obtain ⟨p, hp, htest⟩ := reaches_free Orchestrator.plain
    script (fun p => late p && statusOf p "a" = some .recovered &&
      ((Pool.initial p.state).follow (onlyChecks (.handle 8)) (perform (.handle 8))).any
        fun q => statusOf q "a" = some .queued)
  simp only [Bool.and_eq_true, decide_eq_true_eq] at htest
  obtain ⟨q, hq, hqueued⟩ := Pool.exists_reaches_of_follow (onlyChecks_sound _) htest.2
  exact ⟨p, q, hp, htest.1.1, htest.1.2, hq, of_decide_eq_true hqueued⟩

end Mended

end Dagnats
