import Dagnats.Engine.Refinement.Finishing

/-!
# Sending and marking keep the contract

The sends of a dispatch plan and `markSent`. A mark is cleared only under a
nonce whose send is accounted for (`Delivered`), also after the run was loaded
again because of a conflict.
-/

namespace Dagnats

open Interaction

variable {o : Orchestrator} {K : Terms} {w t : World} {next : Next} {timeout : Duration}
  {nonces : List (String × Option ℕ)} {rev : ℕ} {run : WorkflowRun} {stepID runID : String}
  {state : StepState} {step : StepDef} {nonce : Option ℕ} {log : List Entry}

namespace Does

lemma stampDispatch {origin : Origin} {s : StepState} :
    Does o K w (Dagnats.stampDispatch runID stepID origin s) fun s' t => ∃ n time, s' =
    s.stamped n time ∧ w.log.length ≤ n ∧ MintedFor t.log runID stepID origin s n := by
  refine bind now fun time t _ hwt _ => bind newNonce fun n u _ _ hn => ?_
  refine pure fun v huv => ⟨n, time, rfl, ?_, hn.2.mono huv.1⟩
  exact hwt.1.length_le.trans hn.1

lemma resolvedInput : Keeps o K w (Dagnats.resolvedInput step run) := by
  unfold Dagnats.resolvedInput
  split
  · exact ends
  · exact throw

lemma sendWait : Does o K w (Dagnats.sendWait run step state) fun _ t =>
      SentFor t.log run.runID step.id state.dispatchNonce ∨ state.waitUntil = none := by
  unfold Dagnats.sendWait
  split
  · next hnone => exact pure fun _ _ => .inr hnone
  · refine bind now fun time t _ _ _ => ?_
    exact conseq (scheduleFor fun _ _ => by trivial) fun _ _ _ _ h => .inl h

/-- `state` is the marked state of the step in the copy `run`. -/
structure Marked (o : Orchestrator) (w : World) (run : WorkflowRun)
    (stepID : String) (state : StepState) : Prop where
  held : Held o w run
  nonce : (run.step stepID).dispatchNonce = state.dispatchNonce
  mark : (run.step stepID).dispatchUnsent = true
  iterating : 0 < (run.step stepID).iterations

lemma Marked.mono (h : Marked o w run stepID state) (hgrows : w.Grows t) :
    Marked o t run stepID state :=
  ⟨h.held.mono hgrows, h.nonce, h.mark, h.iterating⟩

lemma Marked.of_saved {saved : WorkflowRun} (h : Saved o w (run.setStep stepID state) saved)
    (hmark : state.dispatchUnsent = true) (hiter : 0 < state.iterations) :
    Marked o w saved stepID state := by
  obtain ⟨c, b, hstep⟩ := h.kin.step stepID
  rw [WorkflowRun.step_setStep_self] at hstep
  constructor
  · exact h.held
  · rw [hstep]
  · rw [hstep]
    exact hmark
  · rw [hstep]
    exact hiter

lemma publishIterationNow (h : Marked o w run step.id state) :
    Does o K w (o.publishIterationNow run step state) fun _ t =>
      Sent t run.runID step.id state.dispatchNonce := by
  refine guard fun _ => bind resolvedInput fun input t _ hwt _ => ?_
  rw [← h.nonce]
  exact publishIteration ((h.mono hwt).held.heldStep step.id) h.mark h.iterating

/-- Continuing a loop sends a task or a timer, unless the iteration waits for
an input alone. -/
lemma publishContinueTask (h : Marked o w run step.id state) :
    Does o K w (o.publishContinueTask run step state) fun _ t =>
      Sent t run.runID step.id state.dispatchNonce ∨
        (waiting state = true ∧ state.waitUntil = none) := by
  refine ite (fun hwaiting => ?_) fun _ => ?_
  · exact sendWait.conseq fun _ _ _ _ h => h.imp (fun h => .inl h) fun h => ⟨hwaiting, h⟩
  · refine bind resolvedInput fun input t _ hwt _ => ?_
    have hmarked := h.mono hwt
    refine ite (fun _ => ?_) fun _ => ?_
    · refine bind requireTask fun _ u _ htu _ => ?_
      refine conseq (schedule ?_) fun _ v _ _ hsent => ?_
      · intro v huv
        have hheld := (hmarked.held.mono (htu.trans huv)).heldStep step.id
        exact ⟨⟨run.step step.id, hheld, rfl, h.mark⟩, h.iterating⟩
      · obtain ⟨publishedAt, hmem⟩ := hsent
        rw [h.nonce] at hmem
        exact .inl (.inl (.inr (.inl ⟨_, publishedAt, hmem, rfl, rfl⟩)))
    · exact (publishIterationNow hmarked).conseq fun _ _ _ _ h => .inl h

/-- What has to be known before an effect is sent for a dispatch. -/
def EffectOk (o : Orchestrator) (log : List Entry) (run : WorkflowRun)
    (stepID : String) : Effect → Prop
  | .spawn _ | .respond _ =>
    Delivered o log run.runID stepID (run.step stepID).dispatchNonce
  | .map _ step _ =>
    Delivered o log run.runID stepID (run.step stepID).dispatchNonce ∧ StepOf o log run.runID step
  | .wait wt _ => wt.runID = run.runID ∧ wt.stepID = stepID
  | .sleep _ | .approval _ => True
  | .iteration step state =>
    step.id = stepID ∧ state = run.step stepID ∧
      (run.step stepID).dispatchUnsent = true ∧ 0 < (run.step stepID).iterations ∧
      (waiting state = true → state.waitUntil = none →
        Delivered o log run.runID stepID state.dispatchNonce)

lemma EffectOk.mono {log' : List Entry} {effect : Effect} (h : EffectOk o log run stepID effect)
    (hlog : log <:+ log') : EffectOk o log' run stepID effect := by
  cases effect with
  | spawn | respond => exact Delivered.mono hlog h
  | map => exact ⟨h.1.mono hlog, h.2.mono hlog⟩
  | wait => exact h
  | sleep | approval => trivial
  | iteration step state =>
    obtain ⟨hid, hstate, hmark, hiter, hwait⟩ := h
    exact ⟨hid, hstate, hmark, hiter, fun hw hn => (hwait hw hn).mono hlog⟩

lemma sendTimer {durationMs : ℤ} :
    Does o K w (Dagnats.sendTimer runID stepID durationMs nonce) fun _ t =>
      SentFor t.log runID stepID nonce := by
  refine bind (ignoring (publishEvent fun _ _ => trivial)) fun _ t _ _ _ => ?_
  exact scheduleFor fun _ _ => trivial

lemma startWaitForEvent {wt : Waiter} :
    Does o K w (Dagnats.startWaitForEvent wt timeout nonce) fun _ t =>
      SentFor t.log wt.runID wt.stepID nonce := by
  refine guard fun _ => ?_
  refine bind (ignoring (publishEvent fun _ _ => trivial)) fun _ t _ _ _ => ?_
  exact bind waiter fun _ u _ _ _ => scheduleFor fun _ _ => trivial

lemma startApproval : Does o K w (Dagnats.startApproval runID stepID timeout nonce) fun _ t =>
      SentFor t.log runID stepID nonce := by
  refine bind notify fun _ t _ _ _ => ?_
  refine bind (ignoring (publishEvent fun _ _ => trivial)) fun _ u _ _ _ => ?_
  exact scheduleFor fun _ _ => trivial

lemma Sent.delivered (h : Sent w runID stepID nonce) : Delivered o w.log runID stepID nonce :=
  h.elim .sent .unstamped

lemma sendEffect {effect : Effect} (h : Held o w run)
    (heffect : EffectOk o w.log run stepID effect) :
    Does o K w (o.sendEffect run stepID effect) fun _ t =>
      Delivered o t.log run.runID stepID (run.step stepID).dispatchNonce := by
  cases effect with
  | spawn payload =>
    refine conseq (publishEvent ?_) fun _ _ _ hwt _ => Delivered.mono hwt.1 heffect
    exact fun _ _ => trivial
  | map name step items =>
    exact (publishMapTasks h heffect.2).conseq fun _ _ _ hwt _ => heffect.1.mono hwt.1
  | sleep durationMs => exact sendTimer.conseq fun _ _ _ _ h => .sent h
  | wait wt timeout =>
    obtain ⟨hid, rfl⟩ := heffect
    exact startWaitForEvent.conseq fun _ _ _ _ h => .sent (hid ▸ h)
  | approval timeout => exact startApproval.conseq fun _ _ _ _ h => .sent h
  | respond body =>
    refine bind notify fun _ t _ hwt _ => ?_
    refine conseq (publishEvent ?_) fun _ _ _ htu _ => Delivered.mono (hwt.trans htu).1 heffect
    exact fun _ _ => rfl
  | iteration step state =>
    obtain ⟨rfl, rfl, hmark, hiter, hwait⟩ := heffect
    refine (publishContinueTask ⟨h, rfl, hmark, hiter⟩).conseq fun _ t _ hwt hsent => ?_
    rcases hsent with hsent | ⟨hwaiting, hnone⟩
    · exact Sent.delivered hsent
    · exact (hwait hwaiting hnone).mono hwt.1

/-- Every step of the plan may be sent from the copy `run`. -/
structure PlanOk (o : Orchestrator) (w : World) (run : WorkflowRun)
    (plan : DispatchPlan) : Prop where
  effects : ∀ effect ∈ plan.effects, EffectOk o w.log run effect.1 effect.2
  already : ∀ id ∈ plan.alreadySent, Delivered o w.log run.runID id (run.step id).dispatchNonce
  normal : ∀ step ∈ plan.normalSteps, Dispatchable o w run step

def AllDelivered (o : Orchestrator) (w : World) (run : WorkflowRun) (sent : List String) : Prop :=
  ∀ id ∈ sent, Delivered o w.log run.runID id (run.step id).dispatchNonce

lemma AllDelivered.mono {sent : List String} (h : AllDelivered o w run sent) (hgrows : w.Grows t) :
    AllDelivered o t run sent :=
  fun id hid => (h id hid).mono hgrows.1

lemma sendPlanned {result : List String × Option Err} {effect : String × Effect} (h : Held o w run)
    (heffect : EffectOk o w.log run effect.1 effect.2) (hresult : AllDelivered o w run result.1) :
    Does o K w (o.sendPlanned run result effect) fun r t => AllDelivered o t run r.1 := by
  refine (sendEffect h heffect).either
    (fun _ _ _ hwt => pure fun u htu => hresult.mono (hwt.trans htu)) fun a _ _ hwt hr => ?_
  refine pure fun u htu id hid => ?_
  rcases List.mem_append.mp hid with hid | hid
  · exact hresult.mono (hwt.trans htu) id hid
  · rw [List.mem_singleton.mp hid]
    exact hr.mono htu.1

lemma sendPlan {plan : DispatchPlan} (h : Held o w run) (hplan : PlanOk o w run plan) :
    Does o K w (o.sendPlan run plan) fun r t => AllDelivered o t run r.1 := by
  have hfold : Does o K w (Prog.fold (o.sendPlanned run) plan.effects
      (plan.alreadySent, none)) fun r t => AllDelivered o t run r.1 := by
    refine fold (fun r t u htu hr => AllDelivered.mono hr htu) hplan.already ?_
    intro effect heffect r t _ hwt hr
    exact sendPlanned (h.mono hwt) ((hplan.effects effect heffect).mono hwt.1) hr
  refine bind hfold fun r t _ hwt hr => ?_
  refine ite (fun _ => pure fun u htu => hr.mono htu) fun _ => ?_
  refine bind (publishBatch (h.mono hwt) fun step hstep =>
    (hplan.normal step hstep).mono hwt).outcome fun r' u _ htu hr' => ?_
  cases r' with
  | error e => exact pure fun v huv => hr.mono (htu.trans huv)
  | ok a =>
    refine pure fun v huv id hid => ?_
    rcases List.mem_append.mp hid with hid | hid
    · exact hr.mono (htu.trans huv) id hid
    · obtain ⟨step, hstep, rfl⟩ := List.mem_map.mp hid
      exact (Delivered.sent (hr' a rfl step hstep)).mono huv.1

lemma clearMark_changes {sent : String × Option ℕ} (h : Delivered o log run.runID sent.1 sent.2) :
    Changes o log rev run (clearMark run sent) := by
  unfold clearMark
  dsimp only
  split
  · next hmark =>
    exact .single (.step run sent.1 _ (.sent hmark.1 (hmark.2 ▸ h)))
  · exact .refl

lemma clearMark_runID (sent : String × Option ℕ) :
    (clearMark run sent).runID = run.runID := by
  unfold clearMark
  dsimp only
  split <;> rfl

lemma clearUnsent_changes (h : ∀ sent ∈ nonces, Delivered o log run.runID sent.1 sent.2) :
    Changes o log rev run (clearUnsent run nonces) := by
  induction nonces generalizing run with
  | nil => exact .refl
  | cons sent nonces ih =>
    refine (clearMark_changes (h sent (.head _))).trans (ih fun other hother => ?_)
    rw [clearMark_runID]
    exact h other (.tail _ hother)

lemma markSentRounds (n : ℕ) (h : Held o w run)
    (hsent : ∀ sent ∈ nonces, Delivered o w.log run.runID sent.1 sent.2) :
    Does o K w (Dagnats.markSentRounds nonces n run) fun run' t => Held o t run' ∧
    run'.runID = run.runID := by
  induction n generalizing w run with
  | zero => exact throw
  | succ n ih =>
    refine guard fun _ => ite (fun _ => pure fun t hwt => ⟨h.mono hwt, rfl⟩) fun _ => ?_
    have hcleared : Held o w (clearUnsent run nonces) :=
      h.change fun rev _ => clearUnsent_changes hsent
    have hchanges : Changes o w.log 0 run (clearUnsent run nonces) := clearUnsent_changes hsent
    have hid := hchanges.sameRun.runID
    have hwrite := hcleared.writable (.plain .markSent) fun h => nomatch h
    refine bind (saveSnapshot hwrite).outcome fun r t _ hwt hr => ?_
    split
    · next saved =>
      have hsaved := hr saved rfl
      exact pure fun u htu => ⟨hsaved.held.mono htu, hsaved.kin.runID.trans hid⟩
    · refine bind load fun fresh u _ htu hfresh => ?_
      refine (ih hfresh.held fun sent hmem => ?_).conseq fun run' v _ _ h => ?_
      · rw [hfresh.runID]
        exact (hsent sent hmem).mono (hwt.trans htu).1
      · exact ⟨h.1, h.2.trans hfresh.runID⟩
    · exact throw

lemma markSent {sent : List String} (h : Held o w run) (hsent : AllDelivered o w run sent) :
    Does o K w (Dagnats.markSent run sent) fun run' t => Held o t run' ∧ run'.runID =
    run.runID := by
  refine markSentRounds _ h fun pair hpair => ?_
  obtain ⟨id, hid, rfl⟩ := List.mem_map.mp hpair
  exact hsent id hid

end Does

end Dagnats
