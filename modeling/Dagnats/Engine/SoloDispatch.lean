import Dagnats.Engine.Attending

/-!
# Dispatching under a watch

The sends of a dispatch are quiet. Marking and planning change only the steps
that are dispatched: each of them is then at work, or was completed by the
dispatch itself, which only a respond step and a detached sub-workflow are.
-/

namespace Dagnats

open Interaction

variable {o : Orchestrator} {W : Watch} {w t : World} {next : Next}
  {result : List String × Option Err} {s state : StepState} {α : Type} {runID stepID name : String}
  {nonce : Option ℕ} {d : WorkflowDef} {input : Raw} {todo : List StepDef} {run : WorkflowRun}
  {step : StepDef}

/-! ## Sends -/

namespace Quiet

lemma requireMarshal {message : String} : Silent (Dagnats.requireMarshal message input) :=
  ite (fun _ => other) fun _ => ends

lemma schedule {tm : TimerMessage} : Silent (Dagnats.schedule tm nonce) :=
  bind requireMarshal fun _ _ => request rfl

lemma ofFault {x : Except Fault α} : Quiet (Dagnats.ofFault x) fun a => x = .ok a := by
  cases x with
  | ok a => exact pure rfl
  | error f => cases f <;> exact fail (by simp [Err.ofFault])

lemma requireTask : Silent (Dagnats.requireTask step) :=
  guard fun _ => ends

lemma nonceOrMint : Silent (Dagnats.nonceOrMint runID stepID nonce) := by
  cases nonce with
  | some n => exact ends
  | none => exact request rfl

lemma applyRateLimit : Silent (o.applyRateLimit runID step input name nonce) := by
  refine bind (request rfl) fun x _ => ?_
  cases x with
  | none => exact ends
  | some ms =>
    have hretry : Silent (o.scheduleRateRetry runID step input ms name nonce) :=
      bind requireTask fun _ _ => schedule
    exact bind hretry fun _ _ => ends

lemma checkRateLimit : Silent (o.checkRateLimit runID step input name nonce) := by
  refine early fun _ => guard fun _ => ite (fun _ => applyRateLimit) fun _ => ?_
  split
  · exact ends
  · exact bind ofFault fun _ _ => applyRateLimit

lemma doPublish : Silent (o.doPublish runID step input run name nonce) :=
  bind nonceOrMint fun _ _ => bind requireMarshal fun _ _ => bind requireTask fun _ _ => request rfl

lemma publishAdmitted : Silent (o.publishAdmitted runID step input run name nonce) := by
  have hworker : Silent (o.getWorker runID) := by
    refine ite (fun _ => ?_) fun _ => ends
    refine bind (request rfl).outcome fun x _ => ?_
    cases x <;> exact ends
  have hload : Silent (o.loadRunAndDef runID) := by
    refine bind load fun run _ => ?_
    refine bind loadPinnedOrLatestDef.outcome fun x hx => ?_
    cases x with
    | ok d => exact ends
    | error e => exact ite (fun _ => fail (by simp)) fun _ => fail fun he => hx.2 (he ▸ rfl)
  have hsticky : ∀ worker strategy, Silent
      (o.publishSticky runID step input run worker strategy name nonce) := by
    intro worker strategy
    refine bind requireTask fun _ _ => bind requireMarshal fun _ _ => bind (request rfl) fun _ _ => ?_
    exact ite (fun _ => schedule.ignoring) fun _ => ends
  refine bind hworker fun worker _ => ite (fun _ => doPublish) fun _ => ?_
  refine bind hload.outcome fun x _ => ?_
  split
  · exact ite (fun _ => doPublish) fun _ => hsticky _ _
  · exact doPublish

lemma acquireTask {task : String} {limit : ℤ} :
    Silent (Dagnats.acquireTask task runID stepID limit) :=
  early fun _ => request rfl

lemma publish : Silent (o.publish runID step input run name nonce) := by
  refine bind checkRateLimit fun b _ => early fun _ => ite (fun _ => ?_) fun _ => publishAdmitted
  refine bind acquireTask fun b _ => ite (fun _ => publishAdmitted) fun _ => ?_
  exact bind requireTask fun _ _ => schedule

lemma sendAll {sends : List (M Unit)} (h : ∀ p ∈ sends, Silent p) :
    Silent (Orchestrator.sendAll sends) := by
  have hrounds : Quiet (Prog.fold Orchestrator.sendRound sends none) fun failed =>
      failed ≠ some .runFinalized := by
    refine fold (by simp) fun p hp failed hfailed => ?_
    refine bind (h p hp).outcome fun x hx => ?_
    cases x with
    | ok _ => exact pure hfailed
    | error e =>
      refine pure fun heq => ?_
      cases failed with
      | none => exact hx.2 (by cases heq; rfl)
      | some e' => exact hfailed heq
  refine bind hrounds fun failed hfailed => ?_
  cases failed with
  | none => exact ends
  | some e => exact fail fun he => hfailed (he ▸ rfl)

lemma publishBatch {ready : List StepDef} : Silent (o.publishBatch run ready) := by
  refine sendAll ?_
  induction ready with
  | nil => simp [Orchestrator.batchSends]
  | cons step ready ih =>
    simp only [Orchestrator.batchSends]
    split
    · simpa using other
    · intro p hp
      rcases List.mem_cons.mp hp with rfl | hp
      · exact publish
      · exact ih p hp

lemma publishMapTasks {items : List Json} : Silent (o.publishMapTasks run name step items) := by
  refine sendAll fun p hp => ?_
  obtain ⟨item, -, rfl⟩ := List.mem_map.mp hp
  exact bind (request rfl) fun _ _ => publish

lemma resolvedInput : Silent (Dagnats.resolvedInput step run) := by
  unfold Dagnats.resolvedInput
  split
  · exact ends
  · exact other

lemma publishIterationNow : Silent (o.publishIterationNow run step state) := by
  refine guard fun _ => bind resolvedInput fun _ _ => ?_
  exact bind nonceOrMint fun _ _ => bind requireMarshal fun _ _ => bind requireTask fun _ _ =>
    request rfl

lemma publishContinueTask : Silent (o.publishContinueTask run step state) := by
  refine ite (fun _ => ?_) fun _ => bind resolvedInput fun _ _ =>
    ite (fun _ => bind requireTask fun _ _ => schedule) fun _ => publishIterationNow
  unfold sendWait
  split
  · exact ends
  · exact bind now fun _ _ => schedule

lemma sendEffect {effect : Effect} : Silent (o.sendEffect run stepID effect) := by
  cases effect with
  | spawn payload => exact publishEvent
  | map name step items => exact publishMapTasks
  | sleep durationMs =>
    exact bind publishEvent.ignoring fun _ _ => schedule
  | wait wt timeout =>
    refine guard fun _ => bind publishEvent.ignoring fun _ _ => ?_
    exact bind (request rfl) fun _ _ => schedule
  | approval timeout =>
    refine bind notify fun _ _ => bind publishEvent.ignoring fun _ _ => ?_
    exact schedule
  | respond body => exact bind notify fun _ _ => publishEvent
  | iteration step state => exact publishContinueTask

lemma releaseTaskSlot : Silent (o.releaseTaskSlot d runID stepID) := by
  refine early fun _ => ?_
  split
  · exact ends
  · exact early fun _ => notify.ignoring

lemma createBinding {e : Event} : Silent (o.createBinding d e) :=
  ite (fun _ => notify.ignoring) fun _ => ends

lemma armStepWatchdog {attempts : ℕ} {elapsed : Duration} :
    Silent (Dagnats.armStepWatchdog run stepID attempts elapsed) := by
  refine bind loadDef.outcome fun x _ => ?_
  cases x with
  | error err => exact ends
  | ok d =>
    dsimp only
    split
    · exact ends
    · exact early fun _ => guard fun _ => schedule

lemma fenceStepEvent {e : Event} : Quiet (o.fenceStepEvent run e) fun r => ∀ run', r = some run' →
    e.runID = run.runID ∧ Fenced o run e run' := by
  refine guard fun hid => guard fun _ => ite (fun htype => pure fun run' h => ?_) fun htype => ?_
  · cases h
    exact ⟨(not_not.mp hid).symm, .passed (by simpa using htype) rfl⟩
  · dsimp only
    split
    · exact pure fun run' h => nomatch h
    · next haccept =>
      refine pure fun run' h => ?_
      cases h
      exact ⟨(not_not.mp hid).symm, fenced_of_accepted (by simpa using htype) haccept⟩

end Quiet

/-- Since the beginning a `step.completed` for a step of the run was published. -/
def Watch.Awaits (W : Watch) (w : World) (stepID : String) : Prop :=
  ∃ i e, W.base.log.length ≤ i ∧ At w.log i (.event e) ∧
    e.type = .stepCompleted ∧ e.runID = W.runID ∧ e.stepID = stepID

lemma Watch.Awaits.mono (h : W.Awaits w stepID) (hwt : w.log <:+ t.log) : W.Awaits t stepID := by
  obtain ⟨i, e, hi, hat, he⟩ := h
  exact ⟨i, e, hi, hat.mono hwt, he⟩

lemma Err.join_some (x : Option Err) (e : Err) : Err.join x (some e) ≠ none := by
  cases x with
  | none => simp [Err.join]
  | some e' => unfold Err.join; split <;> simp_all

lemma Err.join_finalized {x : Option Err} {e : Err} (hx : x ≠ some .runFinalized)
    (he : e ≠ .runFinalized) : Err.join x (some e) ≠ some .runFinalized := by
  unfold Err.join
  split <;> simp_all

namespace Attends

section

variable (hid : run.runID = W.runID)
include hid

lemma sendRespond {body : Raw} :
    Attends o W w (o.sendEffect run stepID (.respond body)) fun _ t => Apart W.runID w t ∧
    W.Awaits t stepID := by
  refine bind Quiet.notify.attends fun _ t _ hwt => ?_
  intro u hu htu _ c a v hexec
  change u.exec (.event _) c = some (a, v) at hexec
  have huv : Apart W.runID u v := Apart.of_exec hexec rfl
  have hwv := (hwt.2.trans htu).trans huv
  refine ⟨hu.apart huv, fun _ => ?_⟩
  cases a with
  | error e => exact fail fun he => World.exec_conceivable hexec (he ▸ rfl)
  | ok _ =>
    obtain ⟨-, rfl⟩ := World.commit_ok hexec
    refine pure fun x _ hvx => ⟨hwv.trans hvx, u.log.length, _, ?_,
      (At.head u.log _).mono hvx.log, rfl, hid, rfl⟩
    exact hu.base.length_le

lemma sendPlanned {effect : String × Effect} (hresult : result.2 ≠ some .runFinalized) :
    Attends o W w (o.sendPlanned run result effect) fun x t =>
      Apart W.runID w t ∧ x.2 ≠ some .runFinalized ∧
      (x.2 = none → result.2 = none ∧
        ((∃ body, effect.2 = .respond body) → W.Awaits t effect.1)) := by
  have hquiet : Silent (o.sendEffect run effect.1 effect.2) := Quiet.sendEffect
  have hrespond : Attends o W w (Dagnats.outcome (o.sendEffect run effect.1 effect.2)) fun r t =>
        (∃ body, effect.2 = .respond body) → r = .ok () → W.Awaits t effect.1 := by
    by_cases h : ∃ body, effect.2 = .respond body
    · obtain ⟨body, hbody⟩ := h
      rw [hbody]
      exact (sendRespond hid).outcome.conseq fun r t _ hr _ hok => (hr.1 () hok).2
    · exact hquiet.outcome.attends.conseq fun _ _ _ _ h' => absurd h' h
  refine bind (hquiet.outcome.attends.and hrespond) fun r t _ hr => ?_
  obtain ⟨⟨⟨-, hconceivable⟩, hwt⟩, hawaits⟩ := hr
  cases r with
  | ok _ =>
    refine pure fun u _ htu => ⟨hwt.trans htu, hresult, fun hnone => ⟨hnone, ?_⟩⟩
    exact fun hbody => (hawaits hbody rfl).mono htu.log
  | error e =>
    refine pure fun u _ htu => ⟨hwt.trans htu, ?_, fun hnone => ?_⟩
    · exact Err.join_finalized hresult fun he => hconceivable (he ▸ rfl)
    · exact absurd hnone (Err.join_some result.2 e)

lemma sendEffects {effects : List (String × Effect)} (hresult : result.2 ≠ some .runFinalized) :
    Attends o W w (Prog.fold (o.sendPlanned run) effects result) fun x t => Apart W.runID w t ∧
    x.2 ≠ some .runFinalized ∧
    (x.2 = none → result.2 = none ∧ ∀ id body, (id, .respond body) ∈ effects → W.Awaits t id) := by
  induction effects generalizing w result with
  | nil =>
    exact pure fun t _ hwt => ⟨hwt, hresult, fun hnone => ⟨hnone, by simp⟩⟩
  | cons effect effects ih =>
    refine bind (sendPlanned hid hresult) fun x t _ hx => ?_
    obtain ⟨hwt, hx, hfirst⟩ := hx
    refine (ih hx).conseq fun y u _ hy => ?_
    obtain ⟨htu, hy, hrest⟩ := hy
    refine ⟨hwt.trans htu, hy, fun hnone => ?_⟩
    obtain ⟨hxnone, hawaits⟩ := hrest hnone
    refine ⟨(hfirst hxnone).1, ?_⟩
    intro id body hmem
    rcases List.mem_cons.mp hmem with rfl | hmem
    · exact ((hfirst hxnone).2 ⟨body, rfl⟩).mono htu.log
    · exact hawaits id body hmem

/-- The sends of a plan write no run; without an error every respond step has
published its completion. -/
lemma sendPlan {plan : DispatchPlan} :
    Attends o W w (o.sendPlan run plan) fun x t => Apart W.runID w t ∧ x.2 ≠ some .runFinalized ∧
    (x.2 = none → ∀ id body, (id, .respond body) ∈ plan.effects → W.Awaits t id) := by
  refine bind (sendEffects hid (by exact fun h => nomatch h)) fun x t _ hx => ?_
  obtain ⟨hwt, hx, hsent⟩ := hx
  refine ite (fun _ => pure fun u _ htu => ⟨hwt.trans htu, hx, fun hnone id body hmem =>
    ((hsent hnone).2 id body hmem).mono htu.log⟩) fun _ => ?_
  refine bind Quiet.publishBatch.outcome.attends fun r u _ hr => ?_
  obtain ⟨⟨-, hconceivable⟩, htu⟩ := hr
  cases r with
  | ok _ =>
    exact pure fun v _ huv => ⟨(hwt.trans htu).trans huv, hx, fun hnone id body hmem =>
      ((hsent hnone).2 id body hmem).mono (htu.trans huv).log⟩
  | error e =>
    refine pure fun v _ huv => ⟨(hwt.trans htu).trans huv, ?_, fun hnone => ?_⟩
    · exact Err.join_finalized hx fun he => hconceivable (he ▸ rfl)
    · exact absurd hnone (Err.join_some x.2 e)

end

end Attends

/-! ## Marking and planning -/

/-- `run'` differs from `run` in these steps at most. -/
structure OnlySteps (ids : List String) (run run' : WorkflowRun) : Prop where
  sameRun : SameRun run run'
  dynamicSteps : run'.dynamicSteps = run.dynamicSteps
  other : ∀ id, id ∉ ids → run'.step id = run.step id

namespace OnlySteps

variable {ids : List String} {run' run'' : WorkflowRun}

lemma refl (ids : List String) (run : WorkflowRun) : OnlySteps ids run run :=
  ⟨.refl run, rfl, fun _ _ => rfl⟩

lemma setStep {id : String} (hid : id ∈ ids) : OnlySteps ids run (run.setStep id s) :=
  ⟨sameRun_setStep s, rfl, fun _ hother =>
    run.step_setStep_of_ne s fun h => hother (h ▸ hid)⟩

lemma trans (h : OnlySteps ids run run') (h' : OnlySteps ids run' run'') :
    OnlySteps ids run run'' :=
  ⟨h.sameRun.trans h'.sameRun, h'.dynamicSteps.trans h.dynamicSteps,
    fun id hid => (h'.other id hid).trans (h.other id hid)⟩

lemma mono {ids' : List String} (h : OnlySteps ids run run')
    (hids : ∀ id ∈ ids, id ∈ ids') : OnlySteps ids' run run' :=
  ⟨h.sameRun, h.dynamicSteps, fun id hid => h.other id fun hin => hid (hids id hin)⟩

end OnlySteps

namespace Quiet

lemma stampDispatch {origin : Origin} :
    Quiet (Dagnats.stampDispatch runID stepID origin s) fun s' => ∃ n time, s' = s.stamped n time :=
  bind now fun time _ => bind (request rfl) fun n _ => pure ⟨n, time, rfl⟩

lemma markQueued : Quiet (Dagnats.markQueued run step) fun run' => ∃ s, s.status = .queued ∧
    run' = run.setStep step.id s := by
  refine bind stampDispatch fun s hs => pure ⟨_, ?_, rfl⟩
  obtain ⟨n, time, rfl⟩ := hs
  rfl

lemma markQueuedAll : Quiet (Prog.fold Dagnats.markQueued todo run) fun run' =>
    OnlySteps (todo.map (·.id)) run run' ∧ run'.recording = run.recording ∧
    (∀ s ∈ todo, (run'.step s.id).status = .queued) ∧
    ((todo.map (·.id)).Nodup → (∀ s ∈ todo, (run.step s.id).atWork = false) →
      countActiveSteps run + todo.length ≤ countActiveSteps run') := by
  induction todo generalizing run with
  | nil => exact pure ⟨.refl _ run, rfl, by simp, by simp⟩
  | cons step todo ih =>
    refine bind markQueued fun run₁ hrun₁ => ?_
    obtain ⟨s, hs, rfl⟩ := hrun₁
    refine ih.conseq fun run' hrun' => ?_
    obtain ⟨honly, hrec, hqueued, hcount⟩ := hrun'
    refine ⟨(OnlySteps.setStep (by simp)).trans (honly.mono (by simp_all)), hrec,
      fun s' hs' => ?_, fun hnodup hidle => ?_⟩
    · rcases List.mem_cons.mp hs' with rfl | hs'
      · by_cases hagain : s'.id ∈ todo.map (·.id)
        · obtain ⟨s'', hs'', heq⟩ := List.mem_map.mp hagain
          exact heq ▸ hqueued s'' hs''
        · rw [honly.other _ hagain]
          simpa using hs
      · exact hqueued s' hs'
    · rw [List.map_cons, List.nodup_cons] at hnodup
      have hmore := countActiveSteps_setStep_atWork (hidle step (.head _))
        (s := s) (by simp [StepState.atWork, hs])
      have hrest := hcount hnodup.2 fun s' hs' => by
        have hne : step.id ≠ s'.id := fun heq => hnodup.1 (heq ▸ List.mem_map_of_mem hs')
        rw [run.step_setStep_of_ne s hne]
        exact hidle s' (.tail _ hs')
      simp only [List.length_cons]
      omega

end Quiet

/-- What planning `step` may make of a copy: the step is left as a task, is at
work, or is completed at once. -/
def StepPlanned (step : StepDef) (run run' : WorkflowRun) (effect : Option Effect) : Prop :=
  (run' = run ∧ effect = none) ∨
  ∃ s e, run' = run.setStep step.id s ∧ effect = some e ∧
    (s.status = .running ∨ (s.status = .completed ∧
      ((∃ body, e = .respond body) ∨ step.type = .subWorkflow))) ∧
    ∀ body, e = .respond body → step.type = .respond ∧ s.status = .completed

namespace Quiet

lemma planned {p : M (WorkflowRun × Effect)}
    (h : Quiet p fun x => StepPlanned step run x.1 (some x.2)) :
    Quiet (p >>= fun x => Pure.pure (x.map id some)) fun x => StepPlanned step run x.1 x.2 :=
  bind h fun _ hx => pure hx

lemma waitForEventSend : Quiet (Dagnats.waitForEventSend run step) fun e =>
    ∀ body, e ≠ .respond body := by
  unfold Dagnats.waitForEventSend
  split
  · exact other
  · exact bind ofFault fun _ _ => bind now fun _ _ => pure (by simp)

lemma planMapStep : Quiet (Dagnats.planMapStep d run step) fun x =>
    StepPlanned step run x.1 (some x.2) := by
  unfold Dagnats.planMapStep
  split
  · split
    · exact other
    · split
      · exact panic
      · exact ite (fun _ => other) fun _ => pure (.inr ⟨_, _, rfl, rfl, .inl rfl, by simp⟩)
  · exact panic

lemma planSubWorkflow (htype : step.type = .subWorkflow) :
    Quiet (Dagnats.planSubWorkflow run step) fun x => StepPlanned step run x.1 (some x.2) := by
  unfold Dagnats.planSubWorkflow
  split
  · exact other
  · next cfg _ =>
    refine bind resolvedInput fun input _ => bind (request rfl) fun childRunID _ => ?_
    refine pure (.inr ⟨_, _, rfl, rfl, ?_, by simp⟩)
    split
    · exact .inr ⟨rfl, .inr htype⟩
    · exact .inl rfl

lemma planApproval : Quiet (Dagnats.planApproval run step) fun x =>
    StepPlanned step run x.1 (some x.2) := by
  unfold Dagnats.planApproval
  split
  · exact other
  · exact ite (fun _ => other) fun _ => guard fun _ =>
      pure (.inr ⟨_, _, rfl, rfl, .inl rfl, by simp⟩)

lemma planRespondStep (htype : step.type = .respond) :
    Quiet (Dagnats.planRespondStep run step) fun x =>
    StepPlanned step run x.1 (some x.2) := by
  unfold Dagnats.planRespondStep
  split
  · exact other
  · refine guard fun _ => bind ofFault fun body _ => ?_
    exact pure (.inr ⟨_, _, rfl, rfl, .inr ⟨rfl, .inl ⟨body, rfl⟩⟩, fun _ _ => ⟨htype, rfl⟩⟩)

lemma planWaitForEventStep : Quiet (Dagnats.planWaitForEventStep run step) fun x =>
    StepPlanned step run x.1 (some x.2) :=
  bind waitForEventSend fun _ he => pure (.inr ⟨_, _, rfl, rfl, .inl rfl,
    fun body h => absurd h (he body)⟩)

lemma planStep (h : step.type ≠ .sleep) : Quiet (o.planStep next d run step) fun x =>
    StepPlanned step run x.1 x.2 := by
  unfold Orchestrator.planStep
  split
  · next htype => exact planned (planSubWorkflow htype)
  · exact planned planMapStep
  · next htype => exact absurd htype h
  · exact planned planWaitForEventStep
  · exact planned planApproval
  · next htype => exact planned (planRespondStep htype)
  all_goals exact pure (.inl ⟨rfl, rfl⟩)

end Quiet

namespace Attends

section

variable (hid : run.runID = W.runID)
  (hopen : ¬(run.status.isTerminal && run.completedAt.isSome) = true)
include hid hopen

lemma failSleep [W.Endable] {reason : String} {J : α → World → Prop} :
    Attends o W w (o.failSleep next run step reason : M α) J := by
  refine bind (failWorkflow (by exact hid) (by exact hopen)) fun _ t _ hended => ?_
  exact fun u _ htu _ => hended.apart htu

/-- Only a sleep may end the run. -/
lemma planStep (hend : step.type = .sleep → W.Endable) :
    Attends o W w (o.planStep next d run step) fun x t => StepPlanned step run x.1 x.2 ∧
    Apart W.runID w t := by
  by_cases htype : step.type = .sleep
  · have := hend htype
    have hsleep : Attends o W w (o.planSleep next run step) fun x t =>
        StepPlanned step run x.1 (some x.2) ∧ Apart W.runID w t := by
      unfold Orchestrator.planSleep
      split
      · exact failSleep hid hopen
      · refine bind Quiet.now.attends fun time t _ hwt => ?_
        split
        · exact failSleep hid hopen
        · exact pure fun u _ htu => ⟨.inr ⟨_, _, rfl, rfl, .inl rfl, by simp⟩, hwt.2.trans htu⟩
    rw [Orchestrator.planStep, htype]
    exact bind hsleep fun x t _ hx => pure fun u _ htu => ⟨hx.1, hx.2.trans htu⟩
  · exact (Quiet.planStep htype).attends

end

end Attends

/-- Without a sleep the planning writes nothing, and does not end the run. -/
lemma Quiet.planDispatch {acc : WorkflowRun × DispatchPlan} (h : ∀ s ∈ todo, s.type ≠ .sleep) :
    Silent (Prog.fold (o.planNext next d) todo acc) := by
  refine fold trivial fun step hstep acc _ => bind (planStep (h step hstep)) fun x _ => ?_
  obtain ⟨run, effect⟩ := x
  cases effect with
  | none | some effect => exact ends

/-- A dispatch that completes a step itself says so in its plan. -/
def DispatchPlan.Completes (plan : DispatchPlan) : Prop :=
  (∃ id body, (id, .respond body) ∈ plan.effects) ∨ plan.continueRun = true

/-- What planning the steps of `todo` makes of a copy and a plan. -/
structure Planning (todo : List StepDef) (acc acc' : WorkflowRun × DispatchPlan) : Prop where
  only : OnlySteps (todo.map (·.id)) acc.1 acc'.1
  each : ∀ s ∈ todo, (acc'.1.step s.id).atWork = true ∨
    ((acc'.1.step s.id).status = .completed ∧ acc'.2.Completes)
  completes : acc.2.Completes → acc'.2.Completes
  responds : ∀ id body, (id, .respond body) ∈ acc'.2.effects → (id, .respond body) ∈ acc.2.effects ∨
      ∃ s ∈ todo, s.id = id ∧ s.type = .respond ∧ (acc'.1.step s.id).status = .completed
  continues : acc'.2.continueRun = true → acc.2.continueRun = true ∨
    ∃ s ∈ todo, (acc'.1.step s.id).status = .completed
  count : (∀ s ∈ todo, (acc'.1.step s.id).atWork = true) →
    countActiveSteps acc.1 ≤ countActiveSteps acc'.1

lemma Planning.nil (acc : WorkflowRun × DispatchPlan) : Planning [] acc acc :=
  ⟨.refl _ _, by simp, id, fun _ _ => .inl, .inl, fun _ => le_rfl⟩

lemma Planning.cons {acc acc₁ acc' : WorkflowRun × DispatchPlan} (h : Planning [step] acc acc₁)
    (h' : Planning todo acc₁ acc') (hnew : step.id ∉ todo.map (·.id)) :
    Planning (step :: todo) acc acc' := by
  have hkept : acc'.1.step step.id = acc₁.1.step step.id := h'.only.other _ hnew
  refine ⟨?_, fun s hs => ?_, fun hc => h'.completes (h.completes hc),
    fun id body hmem => ?_, fun hc => ?_, fun hall => ?_⟩
  · exact (h.only.mono (by simp)).trans (h'.only.mono (by simp_all))
  · rcases List.mem_cons.mp hs with rfl | hs
    · rw [hkept]
      exact (h.each s (by simp)).imp id fun hc => ⟨hc.1, h'.completes hc.2⟩
    · exact h'.each s hs
  · rcases h'.responds id body hmem with hmem | ⟨s, hs, hrest⟩
    · rcases h.responds id body hmem with hmem | ⟨s, hs, hid, htype, hstatus⟩
      · exact .inl hmem
      · rw [List.mem_singleton] at hs
        subst hs
        exact .inr ⟨s, (.head _) .., hid, htype, hkept ▸ hstatus⟩
    · exact .inr ⟨s, .tail _ hs, hrest⟩
  · rcases h'.continues hc with hc | ⟨s, hs, hstatus⟩
    · rcases h.continues hc with hc | ⟨s, hs, hstatus⟩
      · exact .inl hc
      · rw [List.mem_singleton] at hs
        subst hs
        exact .inr ⟨s, (.head _) .., hkept ▸ hstatus⟩
    · exact .inr ⟨s, .tail _ hs, hstatus⟩
  · have hfirst : countActiveSteps acc.1 ≤ countActiveSteps acc₁.1 := by
      refine h.count fun s hs => ?_
      rw [List.mem_singleton] at hs
      subst hs
      exact hkept ▸ hall s (.head _)
    exact hfirst.trans (h'.count fun s hs => hall s (.tail _ hs))

namespace Attends

section

variable {acc : WorkflowRun × DispatchPlan} (hid : acc.1.runID = W.runID)
  (hopen : ¬(acc.1.status.isTerminal && acc.1.completedAt.isSome) = true)
include hid hopen

lemma planNext (hend : step.type = .sleep → W.Endable)
    (hwork : (acc.1.step step.id).atWork = true) :
    Attends o W w (o.planNext next d acc step) fun acc' t => Planning [step] acc acc' ∧
    Apart W.runID w t := by
  refine bind (planStep hid hopen hend) fun x t _ hx => ?_
  obtain ⟨run', effect⟩ := x
  obtain ⟨hplanned, hwt⟩ := hx
  rcases hplanned with ⟨rfl, rfl⟩ | ⟨s, e, rfl, rfl, hstatus, hrespond⟩
  · refine pure fun u _ htu => ⟨⟨.refl _ _, ?_, id, fun _ _ => .inl, .inl,
      fun _ => le_rfl⟩, hwt.trans htu⟩
    intro s hs
    rw [List.mem_singleton] at hs
    subst hs
    exact .inl hwork
  · refine pure fun u _ htu => ⟨⟨?_, ?_, ?_, ?_, ?_, ?_⟩, hwt.trans htu⟩
    · exact OnlySteps.setStep (by simp)
    · intro s' hs'
      rw [List.mem_singleton] at hs'
      subst hs'
      simp only [WorkflowRun.step_setStep_self]
      rcases hstatus with hrunning | ⟨hcompleted, hwhy⟩
      · exact .inl (by simp [StepState.atWork, hrunning])
      · refine .inr ⟨hcompleted, hwhy.imp ?_ fun htype => ?_⟩
        · rintro ⟨body, rfl⟩
          exact ⟨s'.id, body, by simp⟩
        · simp [htype, hcompleted]
    · rintro (⟨id, body, hmem⟩ | hcontinue)
      · exact .inl ⟨id, body, by simp [hmem]⟩
      · exact .inr (by simp [hcontinue])
    · intro id body hmem
      rcases List.mem_append.mp hmem with hmem | hmem
      · exact .inl hmem
      · obtain ⟨rfl, he⟩ := Prod.mk.inj (List.mem_singleton.mp hmem)
        obtain ⟨htype, hdone⟩ := hrespond body he.symm
        exact .inr ⟨step, by simp, rfl, htype, by simpa using hdone⟩
    · intro hcontinue
      simp only [Bool.or_eq_true, Bool.and_eq_true, decide_eq_true_eq] at hcontinue
      exact hcontinue.imp id fun h => ⟨step, by simp, by simpa using h.2⟩
    · intro hall
      have hs : s.atWork = true := by simpa using hall step (by simp)
      exact (countActiveSteps_setStep (hs.trans hwork.symm)).ge

lemma planDispatch (hend : ∀ s ∈ todo, s.type = .sleep → W.Endable) (hnodup : (todo.map (·.id)).Nodup)
    (hwork : ∀ s ∈ todo, (acc.1.step s.id).atWork = true) :
    Attends o W w (Prog.fold (o.planNext next d) todo acc) fun acc' t => Planning todo acc acc' ∧
    Apart W.runID w t := by
  induction todo generalizing w acc with
  | nil => exact pure fun t _ hwt => ⟨.nil acc, hwt⟩
  | cons step todo ih =>
    rw [List.map_cons, List.nodup_cons] at hnodup
    refine bind (planNext hid hopen (hend step (.head _)) (hwork step (.head _))) fun acc₁ t _ hacc₁ => ?_
    obtain ⟨hplan, hwt⟩ := hacc₁
    have hsame := hplan.only.sameRun
    have hopen₁ : ¬(acc₁.1.status.isTerminal && acc₁.1.completedAt.isSome) = true := by
      rw [hsame.status, hsame.completedAt]
      exact hopen
    have hwork₁ : ∀ s ∈ todo, (acc₁.1.step s.id).atWork = true := by
      intro s hs
      have hne : s.id ∉ [step].map (·.id) := by
        simp only [List.map_cons, List.map_nil, List.mem_singleton]
        exact fun h => hnodup.1 (h ▸ List.mem_map_of_mem hs)
      rw [hplan.only.other _ hne]
      exact hwork s (.tail _ hs)
    refine (ih (hsame.runID.trans hid) hopen₁ (fun s hs => hend s (.tail _ hs)) hnodup.2 hwork₁).conseq fun acc' u _ hacc' => ?_
    exact ⟨hplan.cons hacc'.1 hnodup.1, hwt.trans hacc'.2⟩

end

end Attends

end Dagnats
