import Dagnats.Engine.Snapshots

/-!
# What a step remembers of its last stamp

A step is marked as unsent, waits for its next iteration or waits for a retry
only after it was stamped, and what it waits for says which kind of stamp was the
last one.
-/

namespace Dagnats

open Interaction

variable {o : Orchestrator} {K : Terms} {log log' : List Entry} {rev : ℕ} {run run' : WorkflowRun}
  {s s' : StepState} {e : Event}

/-- The nonce of the step was minted for it, when its counters were not higher. -/
def MintedAhead (log : List Entry) (runID id : String) (s : StepState) : Prop :=
  ∃ n m, s.dispatchNonce = some n ∧ At log n (.minted m) ∧ m.runID = runID ∧ m.stepID = id ∧
    m.attempts ≤ s.attempts ∧ m.iterations ≤ s.iterations

lemma MintedAhead.mono {runID id : String} (h : MintedAhead log runID id s) (hlog : log <:+ log') :
    MintedAhead log' runID id s := by
  obtain ⟨n, m, hn, hat, hm⟩ := h
  exact ⟨n, m, hn, hat.mono hlog, hm⟩

lemma MintedAhead.nonce {runID id : String} (h : MintedAhead log runID id s) :
    MintedNonce log runID id s.dispatchNonce := by
  obtain ⟨n, m, hn, hat, hrun, hid, -⟩ := h
  exact ⟨n, m, hn, hat, hrun, hid⟩

/-- The marks of a step and its last stamp. -/
structure Traced (log : List Entry) (runID id : String) (s : StepState) : Prop where
  minted : s.dispatchNonce ≠ none → MintedAhead log runID id s
  marked : s.dispatchUnsent = true → s.dispatchNonce ≠ none
  waits : waiting s = true → 0 < s.iterations ∧ s.dispatchNonce ≠ none
  retries : s.retryDispatchAt.isSome = true → ∃ n m, s.dispatchNonce = some n ∧
    At log n (.minted m) ∧ m.origin = .retry

namespace Traced

variable {runID id : String}

lemma mono (h : Traced log runID id s) (hlog : log <:+ log') : Traced log' runID id s where
  minted hsome := (h.minted hsome).mono hlog
  marked := h.marked
  waits := h.waits
  retries hdue := by
    obtain ⟨n, m, hn, hat, horigin⟩ := h.retries hdue
    exact ⟨n, m, hn, hat.mono hlog, horigin⟩

lemma blank (hnonce : s.dispatchNonce = none) (hmark : s.dispatchUnsent = false)
    (hwait : waiting s = false) (hretry : s.retryDispatchAt = none) : Traced log runID id s where
  minted hsome := absurd hnonce hsome
  marked h := by simp [hmark] at h
  waits h := by simp [hwait] at h
  retries h := by simp [hretry] at h

section

variable (h : Traced log runID id s) (hnonce : s'.dispatchNonce = s.dispatchNonce)
include h hnonce

lemma keep
    (hmark : s'.dispatchUnsent = true → s.dispatchUnsent = true)
    (hwait : waiting s' = true → waiting s = true) (hatt : s.attempts ≤ s'.attempts)
    (hiter : s.iterations ≤ s'.iterations)
    (hretry : s'.retryDispatchAt.isSome = true → s.retryDispatchAt.isSome = true) :
    Traced log runID id s' where
  minted hsome := by
    obtain ⟨n, m, hn, hat, hrun, hid, ha, hi⟩ := h.minted (hnonce ▸ hsome)
    exact ⟨n, m, hnonce.trans hn, hat, hrun, hid, ha.trans hatt, hi.trans hiter⟩
  marked hunsent := by
    rw [hnonce]
    exact h.marked (hmark hunsent)
  waits hwaiting := by
    rw [hnonce]
    have hold := h.waits (hwait hwaiting)
    exact ⟨hold.1.trans_le hiter, hold.2⟩
  retries hdue := by
    rw [hnonce]
    exact h.retries (hretry hdue)

lemma still
    (hmark : s'.dispatchUnsent = s.dispatchUnsent) (hwait : waiting s' = waiting s)
    (hatt : s.attempts ≤ s'.attempts) (hiter : s'.iterations = s.iterations) (hretry : s'.retryDispatchAt = s.retryDispatchAt) :
    Traced log runID id s' := by
  apply h.keep hnonce
  · rw [hmark]
    exact fun h => h
  · rw [hwait]
    exact fun h => h
  · exact hatt
  · exact hiter.ge
  · rw [hretry]
    exact fun h => h

end

lemma stamped {origin : Origin} {n : ℕ} (hmint : MintedFor log runID id origin s n)
    (hnonce : s'.dispatchNonce = some n) (hatt : s.attempts ≤ s'.attempts)
    (hiter : s.iterations ≤ s'.iterations) (hwait : waiting s' = true → 0 < s'.iterations)
    (hretry : s'.retryDispatchAt.isSome = true → origin = .retry) : Traced log runID id s' where
  minted _ := ⟨n, _, hnonce, hmint, rfl, rfl, hatt, hiter⟩
  marked _ := by simp [hnonce]
  waits hwaiting := ⟨hwait hwaiting, by simp [hnonce]⟩
  retries hdue := ⟨n, _, hnonce, hmint, hretry hdue⟩

variable (h : Traced log runID id s)
include h

lemma adopted : Traced log runID id (adopted s e) := by
  unfold Dagnats.adopted
  split
  · next hmore => exact h.still rfl rfl rfl hmore.2.2.le rfl rfl
  · exact h

lemma failing : Traced log runID id (failing s e) :=
  h.adopted.still rfl rfl rfl (le_max_left ..) rfl rfl

lemma started {t : Time} :
    Traced log runID id (startedState s e t).1 := by
  have hatt : s.attempts ≤ max s.attempts e.attemptNumber := le_max_left ..
  unfold startedState startAttemptClock
  dsimp only
  split
  · exact h.keep rfl (fun h => nomatch h) (fun h => h) hatt le_rfl fun h => h
  · split
    · split
      · exact h.keep rfl (fun h => nomatch h) (fun h => h) hatt le_rfl fun h => h
      · exact h.keep rfl (fun h => nomatch h) (fun h => h) hatt le_rfl fun h => nomatch h
    · exact h.keep rfl (fun h => nomatch h) (fun h => h) hatt le_rfl fun h => nomatch h

end Traced

lemma StepChange.traced {id : String} (h : StepChange o log rev run id s)
    (hrun : Traced log run.runID id (run.step id)) : Traced log run.runID id s := by
  cases h with
  | dispatch type n t _ _ hmint | requeue n t _ hmint =>
    exact .stamped hmint rfl le_rfl le_rfl (fun hwait => (hrun.waits hwait).1) fun h => nomatch h
  | started e t => exact hrun.started
  | sent => exact hrun.keep rfl (fun h => nomatch h) (fun h => h) le_rfl le_rfl fun h => h
  | queued e => exact hrun.still rfl rfl rfl (le_max_left ..) rfl rfl
  | wake b _ hwait =>
    refine ⟨hrun.minted, fun _ => (hrun.waits hwait).2, fun h => ?_, hrun.retries⟩
    simp [waiting] at h
  | _ => exact hrun.still rfl rfl rfl le_rfl rfl rfl

lemma Continues.traced (h : Continues log rev run e s) : Traced log run.runID e.stepID s := by
  cases h with
  | next s n t loopStartedAt waitUntil waitInput hasInputs carried _ _ _ hmint =>
    exact .stamped hmint rfl le_rfl le_rfl (fun _ => Nat.succ_pos _) fun h => nomatch h

lemma StepAnswer.traced (h : StepAnswer o log rev run e s)
    (hrun : Traced log run.runID e.stepID (run.step e.stepID)) :
    Traced log run.runID e.stepID s := by
  cases h with
  | complete => exact hrun.adopted.still rfl rfl rfl le_rfl rfl rfl
  | next s h => exact h.traced
  | exhausted iterations loopStartedAt error _ hle =>
    exact hrun.adopted.keep rfl id id le_rfl hle id
  | retry d n t t' delayMs _ _ _ _ _ hmint =>
    exact .stamped hmint rfl le_rfl le_rfl (fun hwait => (hrun.failing.waits hwait).1) fun _ => rfl
  | fail => exact hrun.failing.still rfl rfl rfl le_rfl rfl rfl

lemma StepReport.traced {id : String} (h : StepReport o run e id s)
    (hrun : Traced log run.runID id (run.step id)) : Traced log run.runID id s := by
  cases h <;> exact hrun.still rfl rfl rfl le_rfl rfl rfl

/-- Every step of the run remembers its last stamp. -/
def AllTraced (log : List Entry) (run : WorkflowRun) : Prop :=
  ∀ id, Traced log run.runID id (run.step id)

lemma AllTraced.setStep {id : String} (h : AllTraced log run) (hs : Traced log run.runID id s) :
    AllTraced log (run.setStep id s) := by
  intro other
  rw [WorkflowRun.step_setStep]
  split
  · next hid => exact hid ▸ hs
  · exact h other

lemma traced_empty {runID id : String} : Traced log runID id {} :=
  .blank rfl rfl rfl rfl

section

variable (h : AllTraced log run)
include h

lemma AllTraced.mapSteps {f : String → StepState → StepState}
    (hf : ∀ id s, Traced log run.runID id s → Traced log run.runID id (f id s)) :
    AllTraced log { run with steps := run.steps.mapVals f } := by
  intro id
  have hid := h id
  simp only [WorkflowRun.step, Table.find?_mapVals] at hid ⊢
  cases hfind : run.steps.find? id with
  | none => exact traced_empty
  | some s =>
    rw [hfind] at hid
    exact hf id s hid

lemma AllTraced.stampTerminalSteps (t : Time) : AllTraced log (stampTerminalSteps run t) := by
  refine h.mapSteps fun _ s hs => ?_
  unfold StepState.stampTerminal
  split
  · exact hs.still rfl rfl rfl le_rfl rfl rfl
  · exact hs

lemma AllTraced.cancelUnfinishedSteps : AllTraced log (Orchestrator.cancelUnfinishedSteps run) := by
  unfold Orchestrator.cancelUnfinishedSteps
  refine h.mapSteps fun _ s hs => ?_
  split
  · exact hs.still rfl rfl rfl le_rfl rfl rfl
  · exact hs.still rfl rfl rfl le_rfl rfl rfl
  · exact hs.still rfl rfl rfl le_rfl rfl rfl
  · exact hs

lemma AllTraced.fragment (fragment : List StepDef) :
    AllTraced log (fragment.foldl (fun r s => r.setStep s.id {}) run) := by
  induction fragment generalizing run with
  | nil => exact h
  | cons s rest ih => exact ih (h.setStep traced_empty)

end

lemma RunChange.allTraced (h : RunChange o log rev run run') (hrun : AllTraced log run) :
    AllTraced log run' := by
  cases h with
  | stamp t => exact hrun.stampTerminalSteps t
  | step id s h => exact hrun.setStep (h.traced (hrun id))
  | answer e s _ _ _ _ h => exact AllTraced.setStep hrun (h.traced (hrun e.stepID))
  | report e id s _ _ _ _ h => exact AllTraced.setStep hrun (h.traced (hrun id))
  | cancel => exact hrun.cancelUnfinishedSteps
  | fragment d0 fragment =>
    have hmore : AllTraced log { run with dynamicSteps := run.dynamicSteps ++ fragment } := hrun
    exact hmore.fragment fragment

lemma RunChange.runID (h : RunChange o log rev run run') : run'.runID = run.runID := by
  cases h with
  | fragment d0 fragment => rw [WorkflowRun.foldl_setStep]
  | _ => rfl

lemma Changes.runID (h : Changes o log rev run run') : run'.runID = run.runID := by
  induction h with
  | refl => rfl
  | tail _ hchange ih => exact hchange.runID.trans ih

lemma Changes.allTraced (h : Changes o log rev run run') (hrun : AllTraced log run) :
    AllTraced log run' := by
  induction h with
  | refl => exact hrun
  | tail _ hchange ih => exact hchange.allTraced ih

lemma WriteOk.allTraced {site : Site} {base : WorkflowRun} (h : WriteOk o log site rev base run)
    (hbase : AllTraced log base) : AllTraced log run := by
  obtain ⟨held, edited, hchanges, hedit, rfl⟩ := h.changes
  have hheld : AllTraced log held := hchanges.allTraced hbase
  cases hedit <;> exact hheld

lemma CreateOk.allTraced {site : Site} (h : CreateOk o site run) : AllTraced log run := by
  intro id
  obtain ⟨error, completedAt, hs | hs⟩ := h.steps id
  all_goals
    rw [hs]
    exact .blank rfl rfl rfl rfl

lemma LogOk.allTraced (hlog : LogOk o K log) {rev : ℕ} (hrun : Wrote log rev run) :
    AllTraced log run := by
  refine hlog.stored (P := AllTraced) ?_ ?_ ?_ hrun
  · exact fun hsuffix h id => (h id).mono hsuffix
  · exact fun hcreate _ => hcreate.allTraced
  · exact fun _ _ hwrite _ hbase => hwrite.allTraced hbase

lemma HeldStep.traced {runID id : String} (h : HeldStep o log runID id s) (hlog : LogOk o K log) :
    Traced log runID id s := by
  obtain ⟨rev, base, run, hwrote, hid, hchanges, rfl⟩ := h
  have hbase : AllTraced log base := hlog.allTraced hwrote
  have hsame : run.runID = base.runID := hchanges.runID
  rw [← hid, ← hsame]
  exact hchanges.allTraced hbase id

end Dagnats
