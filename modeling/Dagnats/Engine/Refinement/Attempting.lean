import Dagnats.Engine.Refinement.Reporting

/-!
# Attempts and iterations keep the contract

The handlers of `step.queued` and `step.started`, of `step.continue` with the
iteration that it opens, and of `step.failed` with the retry that it schedules.
-/

namespace Dagnats

open Interaction

variable {o : Orchestrator} {K : Terms} {w t : World} {m : Mint} {carried : Option Raw}
  {loopStartedAt : Option Time} {id : String} {n : ℕ} {e : Event} {run run' : WorkflowRun}
  {d : WorkflowDef} {stepID : String} {s state : StepState} {attempts : ℕ}
  {wait : Option ContinueWait} {delayMs : ℤ}

namespace Does

lemma handleStepQueued (hmem : .event e ∈ w.log) (htype : e.type = .stepQueued) :
    Keeps o K w (Dagnats.handleStepQueued e) := by
  refine guard fun _ => ?_
  refine bind load fun run t _ hwt hrun => ?_
  refine early fun _ => early fun hstatus => ?_
  refine alive fun u htu halive hid => ?_
  simp only [not_or] at hstatus
  have hheld : Held o u run := hrun.held.mono htu
  have hchange := hheld.change fun rev hrev => .single (.step run e.stepID _
    (.queued e ((hrun.mono htu).received hrev) ((hwt.trans htu).1.subset hmem) htype hid
      rfl hstatus.1 hstatus.2.1 hstatus.2.2 halive))
  exact bind (saveSnapshot (hchange.writable (.plain .stepQueued) (by decide)))
    fun _ _ _ _ _ => ends

lemma armStepWatchdog {elapsed : Duration} :
    Keeps o K w (Dagnats.armStepWatchdog run stepID attempts elapsed) := by
  refine loadDef.either (fun _ _ _ _ => ends) fun d _ _ _ _ => ?_
  dsimp only
  split
  · exact ends
  · refine early fun _ => guard fun _ => keeps (schedule ?_)
    exact fun _ _ => trivial

lemma handleStepStarted (hmem : .event e ∈ w.log) (htype : e.type = .stepStarted) :
    Keeps o K w (Dagnats.handleStepStarted e) := by
  refine guard fun _ => ?_
  refine bind load fun run t _ hwt hrun => ?_
  refine early fun _ => early fun hstatus => ?_
  refine alive fun u htu halive hid => early fun hother => ?_
  refine bind now fun time v _ huv _ => ?_
  simp only [not_or] at hstatus
  have hheld : Held o v run := hrun.held.mono (htu.trans huv)
  have hchange := hheld.change fun rev hrev => .single (.step run e.stepID _
    (.started e time ((hrun.mono (htu.trans huv)).received hrev)
      ((hwt.trans (htu.trans huv)).1.subset hmem) htype hid rfl
      hstatus.1 hstatus.2 halive (by simpa using hother)))
  exact bind (saveSnapshot (hchange.writable (.plain .stepStarted) (by decide)))
    fun _ _ _ _ _ => armStepWatchdog

/-! ## Continue -/

lemma continueState :
    Does o K w (Dagnats.continueState e) fun carried _ => Dagnats.continueState e =
    .pure carried := by
  unfold Dagnats.continueState
  split
  · exact pure fun _ _ => rfl
  · split
    · exact throw
    · exact pure fun _ _ => rfl

lemma continueWait : Keeps o K w (Dagnats.continueWait e) := by
  refine early fun _ => ?_
  split
  · exact throw
  · exact ends

lemma applyWait {runID : String} :
    Does o K w (Dagnats.applyWait runID stepID state wait) fun state' _ =>
      ∃ waitUntil waitInput hasInputs, state' = { state with
        waitUntil := waitUntil, waitInput := waitInput, hasInputs := hasInputs } := by
  unfold Dagnats.applyWait
  dsimp only
  split
  · exact pure fun _ _ => ⟨_, _, state.hasInputs, rfl⟩
  · refine bind now fun time t _ _ _ => ?_
    refine ite (fun _ => pure fun _ _ => ⟨_, _, state.hasInputs, rfl⟩) fun _ => ?_
    refine bind inputsQueued.outcome fun r u _ _ _ => ?_
    split
    · exact pure fun _ _ => ⟨_, _, _, rfl⟩
    · exact pure fun _ _ => ⟨_, _, state.hasInputs, rfl⟩

/-- A `step.continue` that passed the fence. -/
structure Continuing (o : Orchestrator) (w : World) (run run' : WorkflowRun)
    (e : Event) : Prop where
  loaded : Loaded w e.runID run
  mem : .event e ∈ w.log
  type : e.type = .stepContinue
  fenced : Fenced o run e run'

section

variable (h : Continuing o w run run' e)
include h

lemma Continuing.mono (hgrows : w.Grows t) : Continuing o t run run' e :=
  ⟨h.loaded.mono hgrows, hgrows.1.subset h.mem, h.type, h.fenced⟩

lemma Continuing.record
    (hanswer : ∀ rev, run.revision = some rev → StepAnswer o w.log rev run e s) :
    Held o w (run'.setStep e.stepID s) :=
  (h.fenced.answer h.loaded h.mem h.loaded.runID.symm (by rw [h.type]; rfl)
    (fun hne => absurd h.type hne) hanswer).held

lemma Continuing.step : run'.step e.stepID = adopted (run.step e.stepID) e := by
  cases h.fenced with
  | passed hpass => rw [h.type] at hpass; cases hpass
  | accepted _ _ _ _ hstep => exact hstep

lemma Continuing.sameRunID : run'.runID = run.runID := by
  cases h.fenced with
  | passed hpass => rw [h.type] at hpass; cases hpass
  | accepted _ _ hsame => exact hsame.runID

lemma Continuing.writable (hnext : ∀ rev, run.revision = some rev → Continues w.log rev run e s) :
    Writable o w .stepContinue (run'.setStep e.stepID s) := by
  obtain ⟨rev, base, hrev, hwrote, hid, hchanges⟩ :=
    h.record fun rev hrev => .next s (hnext rev hrev)
  obtain ⟨rev', stored, hwrote', -, rfl⟩ := h.loaded
  cases h.fenced with
  | passed hpass => rw [h.type] at hpass; cases hpass
  | accepted hfenced haccept hsame _ _ hset =>
    have heq : rev' = rev := Option.some.inj (hsame.revision.symm.trans hrev)
    subst heq
    have hstored := hwrote'.unique hwrote
    subst hstored
    refine ⟨rev', stored, hrev, hwrote, fun t ht time => ⟨⟨_, _,
      (hchanges.mono ht.1).tail (.stamp _ time), .plain _, rfl⟩, fun _ => ?_,
      (fun h => nomatch h)⟩⟩
    refine ⟨e, s, time, ⟨hfenced, haccept, ?_, ?_⟩, (hnext rev' rfl).mono ht.1, by rw [hset]⟩
    all_goals exact fun hne => absurd h.type hne

end

lemma failLoopStep {reason : String} (h : Preset o w
      (run.setStep stepID { state with status := .failed, error := reason })) :
    Keeps o K w (o.failLoopStep run stepID state reason) :=
  bind (finalizeRun h rfl fun _ _ => releaseAdmission enqueueReady)
    fun _ _ _ _ _ => notifyParentIfChild

lemma Continuing.exhausted (h : Continuing o w run run' e) (iterations : ℕ)
    (loopStartedAt : Option Time) (reason : String)
    (hle : (run'.step e.stepID).iterations ≤ iterations) :
    Held o w (run'.setStep e.stepID { run'.step e.stepID with
      iterations := iterations, loopStartedAt := loopStartedAt
      status := .failed, error := reason }) := by
  rw [h.step] at hle ⊢
  exact h.record fun _ _ => .exhausted iterations loopStartedAt reason h.type hle

section

variable {step : StepDef}

section

variable (h : Continuing o w run run' e) (hid : step.id = e.stepID)
include h hid

lemma sendNextIteration
    (hnext : ∀ rev, run.revision = some rev → Continues w.log rev run e s)
    (hnonce : s.dispatchNonce = some n) (hmark : s.dispatchUnsent = true) (hiter : 0 < s.iterations)
    (hat : At w.log n (.minted m)) (horigin : m.origin = .iteration) :
    Keeps o K w ((Dagnats.saveSnapshot .stepContinue (run'.setStep e.stepID s)).bind fun saved =>
        (o.publishContinueTask saved step s).bind fun _ =>
          (Dagnats.markSent saved [step.id]).bind fun _ => Prog.pure ()) := by
  refine bind (saveSnapshot (h.writable hnext)) fun saved t _ hwt hsaved => ?_
  have hmarked : Marked o t saved step.id s := hid ▸ Marked.of_saved hsaved hmark hiter
  refine bind (publishContinueTask hmarked) fun _ u _ htu hsent => ?_
  refine bind (markSent (hsaved.held.mono htu) fun other hother => ?_) fun _ _ _ _ _ => ends
  rw [List.mem_singleton.mp hother, hmarked.nonce]
  rcases hsent with hsent | -
  · exact Sent.delivered hsent
  · exact .waits n m hnonce (hat.mono (hwt.trans htu).1) horigin

lemma dispatchNextIteration
    (hcarried : Dagnats.continueState e = .pure carried) :
    Keeps o K w (o.dispatchNextIteration (run'.setStep e.stepID { run'.step e.stepID with
        iterations := (run'.step e.stepID).iterations + 1 }) step
      { run'.step e.stepID with
        iterations := (run'.step e.stepID).iterations + 1
        loopStartedAt := loopStartedAt }
      (carried.getD (run'.step e.stepID).loopState) wait) := by
  refine bind stampDispatch fun s t _ hwt hs => ?_
  obtain ⟨n, time, rfl, hn, hmint⟩ := hs
  refine bind applyWait fun s' u _ htu hs' => ?_
  obtain ⟨waitUntil, waitInput, hasInputs, rfl⟩ := hs'
  have hmint' : MintedFor u.log run.runID e.stepID .iteration
      { adopted (run.step e.stepID) e with
        iterations := (adopted (run.step e.stepID) e).iterations + 1 } n := by
    rw [hid] at hmint
    rw [← h.step, ← h.sameRunID]
    exact hmint.mono htu.1
  have hlt : ∀ rev, run.revision = some rev → rev < n := fun rev hrev =>
    ((h.loaded.held (o := o)).lt hrev).trans_le hn
  rw [h.step]
  have hkeeps := sendNextIteration (K := K) (h.mono (hwt.trans htu)) hid
    (fun rev hrev => .next _ n time loopStartedAt waitUntil waitInput hasInputs
      carried rfl h.type (hlt rev hrev) hmint' hcarried) rfl rfl (Nat.succ_pos _) hmint'
    rfl
  rw [hid] at hkeeps ⊢
  rw [WorkflowRun.setStep_setStep]
  exact hkeeps

end

/-- The entry of a loop after its last iteration. -/
def overrun (s : StepState) (error : String) : StepState :=
  { s with iterations := s.iterations + 1, status := .failed, error := error }

lemma setStep_overrun (run : WorkflowRun) (id error : String) : let failed : WorkflowRun :=
      { run.setStep id (overrun (run.step id) error) with status := .failed }
    failed.setStep id
      { failed.step id with status := .failed, error := error } = failed := by
  have hstep : (run.setStep id (overrun (run.step id) error)).step id =
      overrun (run.step id) error := WorkflowRun.step_setStep_self ..
  change ({ (run.setStep id (overrun (run.step id) error)).setStep id
    { (run.setStep id (overrun (run.step id) error)).step id with
      status := .failed, error := error } with status := .failed } : WorkflowRun) = _
  rw [hstep, WorkflowRun.setStep_setStep]
  rfl

lemma advanceContinue : Does o K w (Dagnats.advanceContinue step run) fun x _ =>
      (∃ error, x = ({ run.setStep step.id (overrun (run.step step.id) error) with
        status := .failed }, some error)) ∨
      x = (run.setStep step.id { run.step step.id with
        iterations := (run.step step.id).iterations + 1 }, none) := by
  unfold Dagnats.advanceContinue
  split
  · exact panic
  · refine ite (fun _ => pure fun _ _ => .inl ⟨_, rfl⟩) fun _ => ?_
    exact ite (fun _ => pure fun _ _ => .inr rfl) fun _ => panic

lemma startLoopClock_eq (s : StepState) (time : Time) : ∃ loopStartedAt, startLoopClock s time =
      { s with loopStartedAt := loopStartedAt } := by
  unfold startLoopClock
  split
  · exact ⟨some time, rfl⟩
  · exact ⟨s.loopStartedAt, rfl⟩

variable (h : Continuing o w run run' e) (hid : step.id = e.stepID)
include h hid

lemma continueLoop
    {time : Time}
    (hcarried : Dagnats.continueState e = .pure carried) (hstate : state = { run'.step e.stepID with
      iterations := (run'.step e.stepID).iterations + 1
      loopStartedAt := loopStartedAt }) :
    Keeps o K w (match checkLoopBounds step state time with
      | some reason => o.failLoopStep (run'.setStep e.stepID { run'.step e.stepID with
            iterations := (run'.step e.stepID).iterations + 1 }) e.stepID state
          reason
      | none => o.dispatchNextIteration (run'.setStep e.stepID { run'.step e.stepID with
            iterations := (run'.step e.stepID).iterations + 1 }) step state
          (carried.getD state.loopState) wait) := by
  subst hstate
  split
  · refine failLoopStep ?_
    rw [WorkflowRun.setStep_setStep]
    exact (h.exhausted _ _ _ (Nat.le_succ _)).preset
  · exact dispatchNextIteration h hid hcarried

lemma continueStep :
    Keeps o K w (o.continueStep step run' e) := by
  refine bind continueState fun carried t _ hwt hcarried => ?_
  refine bind continueWait fun wait u _ htu _ => ?_
  have hu := h.mono (hwt.trans htu)
  split
  · exact failLoopStep (hu.exhausted _ _ _ le_rfl).preset
  · refine bind advanceContinue fun x v _ huv hx => ?_
    have hv := hu.mono huv
    rw [hid] at hx
    rcases hx with ⟨error, rfl⟩ | rfl
    · refine failLoopStep ?_
      rw [setStep_overrun]
      exact ⟨_, .failed, hv.exhausted _ _ error (Nat.le_succ _), rfl, .inr rfl⟩
    · refine bind now fun time x _ hvx _ => ?_
      refine bind now fun time' y _ hxy _ => ?_
      have hy := hv.mono (hvx.trans hxy)
      dsimp only
      rw [WorkflowRun.step_setStep_self]
      obtain ⟨loopStartedAt, hstate⟩ := startLoopClock_eq
        { run'.step e.stepID with
          iterations := (run'.step e.stepID).iterations + 1 } time
      exact continueLoop hy hid hcarried hstate

end

lemma handleStepContinue (hmem : .event e ∈ w.log) (htype : e.type = .stepContinue) :
    Keeps o K w (o.handleStepContinue e) := by
  refine guard fun _ => ?_
  refine bind loadRunAndDef fun ⟨d, run⟩ t _ hwt ⟨hrun, hd⟩ => ?_
  dsimp only
  split
  · exact throw
  · next step hfind =>
    refine bind fenceStepEvent fun r u _ htu hr => ?_
    cases r with
    | none => exact ends
    | some run' =>
      refine continueStep ⟨hrun.mono htu, (hwt.trans htu).1.subset hmem, htype,
        (hr run' rfl).2⟩ (findStepDef_some hfind).2

/-! ## Failure -/

lemma dispatchRetry (h : ∀ t, w.Grows t → ∀ n time time', w.log.length ≤ n →
      MintedFor t.log run.runID id .retry s n →
      Held o t (run.setStep id (markRetryPending (s.stamped n time) time' delayMs))) :
    Does o K w (Dagnats.dispatchRetry run id s delayMs) fun saved t =>
      Held o t saved ∧ (saved.step id).attempts = s.attempts ∧
        ∃ n m, (saved.step id).dispatchNonce = some n ∧
          At t.log n (.minted m) ∧ m.origin = .retry := by
  refine bind stampDispatch fun s' t _ hwt hs' => ?_
  obtain ⟨n, time, rfl, hn, hmint⟩ := hs'
  refine bind now fun time' u _ htu _ => ?_
  have hmint' := hmint.mono htu.1
  have hheld := h u (hwt.trans htu) n time time' hn hmint'
  refine (saveSnapshot (hheld.writable (.plain .stepRetry) (by decide))).conseq
    fun saved v _ huv hsaved => ⟨hsaved.held, ?_⟩
  obtain ⟨c, b, hstep⟩ := hsaved.kin.step id
  rw [WorkflowRun.step_setStep_self] at hstep
  rw [hstep]
  exact ⟨rfl, n, _, rfl, hmint'.mono huv.1, rfl⟩

lemma scheduleRetry {step : StepDef} {action : TimerAction} {name : String} (h : Held o w run)
    (hnonce : (run.step id).dispatchNonce = some n) (hat : At w.log n (.minted m))
    (horigin : m.origin = .retry) (haction : action = .retryAfter ∨ action = .retryBackoff) :
    Keeps o K w (o.scheduleRetry action run id step delayMs name) := by
  refine bind resolvedInput fun input t _ hwt _ => ?_
  refine bind requireTask fun _ u _ htu _ => keeps (schedule fun v huv => ?_)
  have hgrows := hwt.trans (htu.trans huv)
  rcases haction with rfl | rfl <;> change RetryTimerOk o v.log _ <;>
    exact ⟨run.step id, n, m, (h.mono hgrows).heldStep id, rfl, hnonce, hnonce,
      hat.mono hgrows.1, horigin⟩

/-- A `step.failed` that passed the fence. -/
structure Failing (o : Orchestrator) (w : World) (d : WorkflowDef)
    (run run' : WorkflowRun) (e : Event) : Prop where
  handling : Handling o w d run e
  alive : run.status.isTerminal = false
  plain : isMapInstanceID e.stepID = false
  type : e.type = .stepFailed
  fenced : Fenced o run e run'

section

variable (h : Failing o w d run run' e)
include h

lemma Failing.mono (hgrows : w.Grows t) : Failing o t d run run' e :=
  ⟨h.handling.mono hgrows, h.alive, h.plain, h.type, h.fenced⟩

lemma Failing.record (hanswer : ∀ rev, run.revision = some rev → StepAnswer o w.log rev run e s) :
    Recordable o w run run' e.stepID s :=
  h.fenced.answer h.handling.loaded h.handling.mem h.handling.runID
    (by rw [h.type]; rfl) (fun _ => ⟨h.alive, h.plain⟩) hanswer

lemma Failing.step :
    run'.step e.stepID = adopted (run.step e.stepID) e ∧ run'.runID = run.runID := by
  cases h.fenced with
  | passed hpass => rw [h.type] at hpass; cases hpass
  | accepted _ _ hsame _ hstep => exact ⟨hstep, hsame.runID⟩

section

variable
    (hfail : (parseFailPayload e.payload).failureType = .nonRetriable ∨ retriesLeft d e.stepID
    (failing (run.step e.stepID) e).attempts = false)
include hfail

lemma Failing.fails (hgrows : w.Grows t)
    (hret : SlotReturned o t.log w.log d run.runID e.stepID) :
    Held o t (run'.setStep e.stepID { failing (run.step e.stepID) e with status := .failed }) :=
  ((h.mono hgrows).record fun _ hrev => .fail d h.type
    (h.handling.givesBack hgrows hret hrev) hfail).held

lemma failPermanently {step : StepDef} (s : StepState) :
    Keeps o K w (o.failPermanently d (run'.setStep e.stepID s) step
      (failing (run.step e.stepID) e) e.stepID) := by
  refine handlePermanentFailure (fun t hwt hret => ?_) ?_
  · rw [WorkflowRun.setStep_setStep]
    exact h.fails hfail hwt (h.step.2 ▸ hret)
  · exact (h.step.2 ▸ h.handling.dispatchDef : DispatchDef o w.log run'.runID d)

end

lemma Failing.retry (hfail : (parseFailPayload e.payload).failureType ≠ .nonRetriable)
    (hleft : retriesLeft d e.stepID (failing (run.step e.stepID) e).attempts = true)
    (s : StepState) :
    Does o K w (Dagnats.dispatchRetry (run'.setStep e.stepID s) e.stepID
      (failing (run.step e.stepID) e) delayMs) fun saved t =>
        Held o t saved ∧ ∃ n m, (saved.step e.stepID).dispatchNonce = some n ∧
          At t.log n (.minted m) ∧ m.origin = .retry := by
  refine conseq (dispatchRetry ?_) fun saved t _ _ h => ⟨h.1, h.2.2⟩
  intro t hwt n time time' hn hmint
  rw [WorkflowRun.setStep_setStep]
  replace hmint : MintedFor t.log run.runID e.stepID .retry _ n := h.step.2 ▸ hmint
  refine ((h.mono hwt).record fun rev hrev => ?_).held
  exact .retry d n time time' delayMs h.type h.handling.effective hfail hleft
    (((h.handling.loaded.held (o := o)).lt hrev).trans_le hn) hmint

end

lemma policy_some {p : RetryPolicy}
    (h : (resolveRetryPolicy d ((findStepDef d stepID).getD { id := "" })).filter
      (fun p => (attempts : ℤ) ≤ p.maxAttempts) = some p) :
    retriesLeft d stepID attempts = true := by
  rw [retriesLeft, h]
  rfl

lemma policy_none (h : (resolveRetryPolicy d ((findStepDef d stepID).getD { id := "" })).filter
      (fun p => (attempts : ℤ) ≤ p.maxAttempts) = none) :
    retriesLeft d stepID attempts = false := by
  rw [retriesLeft, h]
  rfl

section

variable (h : Failing o w d run run' e)
  (hfail : (parseFailPayload e.payload).failureType ≠ .nonRetriable) (s : StepState)
include h hfail

lemma dispatchRetriableFailure : Keeps o K w (o.dispatchRetriableFailure d (run'.setStep e.stepID s)
      (failing (run.step e.stepID) e) ((findStepDef d e.stepID).getD { id := "" })
      e.stepID
      (resolveRetryPolicy d ((findStepDef d e.stepID).getD { id := "" }))) := by
  unfold Orchestrator.dispatchRetriableFailure
  split
  · next p hp =>
    refine bind (h.retry hfail (policy_some hp) s) fun saved t _ _ hsaved => ?_
    obtain ⟨hheld, n, m, hnonce, hat, horigin⟩ := hsaved
    refine guard fun _ => guard fun _ => ?_
    exact scheduleRetry hheld hnonce hat horigin (.inr rfl)
  · next hp => exact failPermanently h (.inr (policy_none hp)) s

lemma handleRetryAfter {retryAfterMs : ℤ} :
    Keeps o K w (o.handleRetryAfter d (run'.setStep e.stepID s)
      (failing (run.step e.stepID) e) ((findStepDef d e.stepID).getD { id := "" })
      e.stepID retryAfterMs
      (resolveRetryPolicy d ((findStepDef d e.stepID).getD { id := "" }))) := by
  unfold Orchestrator.handleRetryAfter
  split
  · next p hp =>
    refine bind (h.retry hfail (policy_some hp) s) fun saved t _ _ hsaved => ?_
    obtain ⟨hheld, n, m, hnonce, hat, horigin⟩ := hsaved
    exact scheduleRetry hheld hnonce hat horigin (.inl rfl)
  · next hp => exact failPermanently h (.inr (policy_none hp)) s

end

lemma failStep (h : Failing o w d run run' e) : Keeps o K w (o.failStep d run' e) := by
  unfold Orchestrator.failStep
  dsimp only
  rw [h.step.1]
  split
  · next hfail =>
    refine handlePermanentFailure (fun t hwt hret => ?_) ?_
    · unfold advanceFailed at hret ⊢
      rw [(resolveSkips_sameRun ..).runID] at hret
      rw [WorkflowRun.step_setStep_self, WorkflowRun.setStep_setStep]
      exact (h.fails (.inl hfail) hwt (h.step.2 ▸ hret)).resolveSkips d
    · unfold advanceFailed
      rw [(resolveSkips_sameRun ..).runID]
      exact (h.step.2 ▸ h.handling.dispatchDef : DispatchDef o w.log run'.runID d)
  · next hfail => exact handleRetryAfter h (by rw [hfail]; decide) _
  · next hfail => exact dispatchRetriableFailure h (by rw [hfail]; decide) _

lemma handleStepFailed (hmem : .event e ∈ w.log) (htype : e.type = .stepFailed) :
    Keeps o K w (o.handleStepFailed e) := by
  refine guard fun _ => ?_
  refine bind loadRunAndDef fun ⟨d, run⟩ t _ hwt ⟨hrun, hd⟩ => ?_
  refine alive fun u htu halive _ => ?_
  have hnow : Handling o u d run e := Handling.mono ⟨hrun, hd, hwt.1.subset hmem⟩ htu
  refine ite (fun _ => handleMapInstanceFailed hnow halive) fun hplain => ?_
  refine bind fenceStepEvent fun r v _ huv hr => ?_
  cases r with
  | none => exact ends
  | some run' =>
    exact failStep ⟨hnow.mono huv, halive, by simpa using hplain, htype, (hr run' rfl).2⟩

lemma attemptLength {tm : TimerMessage} {state : StepState} :
    Keeps o K w (Dagnats.attemptLength tm state) := by
  unfold Dagnats.attemptLength
  split
  · exact ends
  · exact bind now fun _ _ _ _ _ => ends

lemma fireStepTimeout {tm : TimerMessage} : Keeps o K w (Dagnats.fireStepTimeout tm) := by
  refine load.either (fun _ _ _ _ => ends) fun run _ _ _ hrun => ?_
  refine early fun hrunning => ?_
  simp only [not_or, not_not] at hrunning
  refine bind attemptLength fun _ _ _ hwt _ => ignoring (publishEvent fun u htu => ?_)
  have hheld := (hrun.held (o := o)).mono (hwt.trans htu)
  refine ⟨run.step tm.stepID, hrun.runID ▸ hheld.heldStep tm.stepID,
    hrunning.2.1, rfl, hrunning.2.2.symm, rfl⟩

end Does

end Dagnats
