import Dagnats.Engine.Refinement.Dispatching

/-!
# Enqueueing and resending keep the contract

`enqueueReady` marks the ready steps, plans their sends, saves, sends and marks;
`resendUnsent` repeats the sends of a stored run.
-/

namespace Dagnats

open Interaction

variable {o : Orchestrator} {K : Terms} {w t : World} {next : Next} {id : String}
  {acc : WorkflowRun × DispatchPlan} {run run' : WorkflowRun} {step : StepDef} {d : WorkflowDef}
  {plan : DispatchPlan} {ready : List StepDef} {log : List Entry} {runID : String} {effect : Effect}

lemma status_of_not_resolved (hdone : completedSet run id = false)
    (hqueued : queuedSet run id = false) :
    (run.step id).status = .pending ∨ (run.step id).status = .cancelled := by
  unfold completedSet at hdone
  unfold queuedSet at hqueued
  cases h : (run.step id).status <;> simp [h] at hdone hqueued ⊢

lemma completedSet_congr (h : run'.step id = run.step id) :
    completedSet run' id = completedSet run id := by
  simp only [completedSet, h]

lemma resolveSkipped_open {s : StepDef}
    (h : s ∈ resolveSkipped d (completedSet run) (queuedSet run) run) : s ∈ d.steps ∧
    ((run.step s.id).status = .pending ∨ (run.step s.id).status = .cancelled) := by
  obtain ⟨hmem, hs⟩ := List.mem_filter.mp h
  simp only [Bool.and_eq_true, Bool.not_eq_true', Bool.or_eq_false_iff] at hs
  exact ⟨hmem, status_of_not_resolved hs.1.1 hs.1.2⟩

lemma markSkipped_changes {rev : ℕ} {skipped : List StepDef}
    (h : ∀ s ∈ skipped, (run.step s.id).status = .pending ∨
      (run.step s.id).status = .cancelled ∨ (run.step s.id).status = .skipped) :
    Changes o log rev run (markSkipped run skipped) := by
  induction skipped generalizing run with
  | nil => exact .refl
  | cons s rest ih =>
    have hchange : RunChange o log rev run
        (run.setStep s.id { run.step s.id with status := .skipped }) := by
      rcases h s (.head _) with hs | hs | hs
      · exact .step run s.id _ (.skip (.inl hs))
      · exact .step run s.id _ (.skip (.inr hs))
      · have hsame : ({ run.step s.id with status := .skipped } : StepState) =
            { run.step s.id with hasInputs := (run.step s.id).hasInputs } := by
          rw [← hs]
        rw [hsame]
        exact .step run s.id _ (.inputs _)
    refine .head hchange (ih fun other hother => ?_)
    rw [WorkflowRun.step_setStep]
    split
    · exact .inr (.inr rfl)
    · exact h other (.tail _ hother)

lemma step_markSkipped (skipped : List StepDef) (run : WorkflowRun) (id : String) :
    (markSkipped run skipped).step id = run.step id ∨ ((markSkipped run skipped).step id).status =
    .skipped := by
  induction skipped generalizing run with
  | nil => exact .inl rfl
  | cons s rest ih =>
    rcases ih (run.setStep s.id { run.step s.id with status := .skipped }) with h | h
    · by_cases hid : s.id = id
      · right
        subst hid
        exact (congrArg StepState.status h).trans (by simp)
      · left
        exact h.trans (run.step_setStep_of_ne _ hid)
    · exact .inr h

lemma Held.resolveSkips (d : WorkflowDef) (h : Held o w run) : Held o w (resolveSkips d run) :=
  h.change fun _ _ => markSkipped_changes fun _ hs =>
    (resolveSkipped_open hs).2.imp id .inl

lemma resolveSkips_sameRun (d : WorkflowDef) (run : WorkflowRun) :
    SameRun run (resolveSkips d run) := by
  unfold resolveSkips markSkipped
  exact sameRun_foldl _ (fun r (s : StepDef) => sameRun_setStep _) _ run

/-! ## Ready steps -/

lemma limitSteps_subset {limited : List StepDef} (h : limitSteps d run ready = some limited) :
    ∀ s ∈ limited, s ∈ ready := by
  unfold limitSteps at h
  split at h
  · cases h; exact fun s hs => hs
  · split at h
    · dsimp only at h
      split at h
      · cases h
      · cases h; exact fun s hs => List.mem_of_mem_take hs
    · cases h; exact fun s hs => hs

lemma resolveReadySteps_ready (h : resolveReadySteps d run = .ready run' ready) : run' =
    resolveSkips d run ∧ ∀ s ∈ ready, s ∈ d.steps ∧
    ((run'.step s.id).status = .pending ∨ (run'.step s.id).status = .cancelled) := by
  unfold resolveReadySteps at h
  dsimp only at h
  split at h
  · cases h
  · split at h
    · cases h
    · next limited hlimit =>
      cases h
      refine ⟨rfl, fun s hs => ?_⟩
      obtain ⟨hready, hnot⟩ := List.mem_filter.mp (limitSteps_subset hlimit s hs)
      obtain ⟨hmem, hs⟩ := List.mem_filter.mp hready
      simp only [Bool.and_eq_true, Bool.not_eq_true', Bool.or_eq_false_iff] at hs
      refine ⟨hmem, ?_⟩
      rcases step_markSkipped (resolveSkipped d (completedSet run)
        (queuedSet run) run) run s.id with hsame | hskip
      · have hdone := hs.1.1.1
        rw [completedSet_congr hsame] at hdone
        rw [hsame]
        exact status_of_not_resolved hdone hs.1.1.2
      · simp [hskip] at hnot

lemma resolveReadySteps_complete (h : resolveReadySteps d run = .complete run') :
    run' = resolveSkips d run := by
  unfold resolveReadySteps at h
  dsimp only at h
  split at h
  · cases h; rfl
  · split at h <;> cases h

/-! ## Marking -/

/-- The step was stamped after the copy was read. -/
def Stamped (run : WorkflowRun) (id : String) : Prop :=
  ∀ rev, run.revision = some rev → Renewed rev (run.step id)

/-- `enqueueReady` may dispatch the step. -/
def Open (run : WorkflowRun) (id : String) : Prop :=
  (run.step id).status = .pending ∨ (run.step id).status = .cancelled ∨ Stamped run id

namespace Does

lemma markQueued (h : Held o w run) (hopen : Open run step.id) :
    Does o K w (Dagnats.markQueued run step) fun run' t =>
      Held o t run' ∧ Stamped run' step.id ∧ (EnqueuedAs t.log (run'.step step.id) step.type ∧
          MintedNonce t.log run.runID step.id (run'.step step.id).dispatchNonce) ∧
        ∃ s, run' = run.setStep step.id s := by
  refine bind stampDispatch fun s t _ hwt hs => pure fun u htu => ?_
  obtain ⟨n, time, rfl, hn, hmint⟩ := hs
  refine ⟨(h.mono (hwt.trans htu)).change fun rev hrev => ?_, fun rev hrev => ?_,
    ⟨⟨n, _, ?_, hmint.mono htu.1, rfl⟩, n, _, ?_, hmint.mono htu.1, rfl, rfl⟩, _, rfl⟩
  · have hrevn : rev < n := (h.lt hrev).trans_le hn
    refine .single (.step run step.id _ (.dispatch step.type n time ?_ hrevn (hmint.mono htu.1)))
    exact hopen.imp id fun h => h.imp id fun h => h rev hrev
  · refine ⟨n, ?_, (h.lt hrev).trans_le hn⟩
    rw [WorkflowRun.step_setStep_self]
    rfl
  · rw [WorkflowRun.step_setStep_self]
    rfl
  · rw [WorkflowRun.step_setStep_self]
    rfl

lemma markQueuedAll {todo : List StepDef} (h : Held o w run) (hopen : ∀ s ∈ todo, Open run s.id) :
    Does o K w (Prog.fold Dagnats.markQueued todo run) fun run' t => Held o t run' ∧
    SameRun run run' ∧ (∀ id, id ∉ todo.map (·.id) → run'.step id = run.step id) ∧ ∀ s ∈ todo,
    Stamped run' s.id ∧ ∃ s' ∈ todo, s'.id = s.id ∧ EnqueuedAs t.log (run'.step s.id) s'.type ∧
    MintedNonce t.log run.runID s.id (run'.step s.id).dispatchNonce := by
  induction todo generalizing w run with
  | nil =>
    exact pure fun t hwt => ⟨h.mono hwt, .refl run, fun _ _ => rfl, by simp⟩
  | cons step todo ih =>
    refine bind (markQueued h (hopen step (.head _))) fun run₁ t _ hwt hrun₁ => ?_
    obtain ⟨hheld, hstamped, henqueued, s₁, rfl⟩ := hrun₁
    have hopen₁ : ∀ s ∈ todo, Open (run.setStep step.id s₁) s.id := by
      intro s hs
      by_cases hid : step.id = s.id
      · exact .inr (.inr (hid ▸ hstamped))
      · unfold Open Stamped
        rw [WorkflowRun.step_setStep_of_ne _ _ hid]
        exact hopen s (.tail _ hs)
    refine (ih hheld hopen₁).conseq fun run' u _ htu hrun' => ?_
    obtain ⟨hheld', hsameRun, hother, hmarked⟩ := hrun'
    refine ⟨hheld', (sameRun_setStep s₁).trans hsameRun,
      fun id hid => ?_, fun s hs => ?_⟩
    · rw [List.map_cons, List.mem_cons, not_or] at hid
      rw [hother id hid.2]
      exact run.step_setStep_of_ne _ (Ne.symm hid.1)
    · rcases List.mem_cons.mp hs with rfl | hs
      · by_cases hin : s.id ∈ todo.map (·.id)
        · obtain ⟨s', hs', hid⟩ := List.mem_map.mp hin
          obtain ⟨hst, s'', hs'', hid'', hen⟩ := hmarked s' hs'
          rw [hid] at hst hid'' hen
          exact ⟨hst, s'', .tail _ hs'', hid'', hen⟩
        · have hsame := hother s.id hin
          refine ⟨fun rev hrev => ?_, s, (.head _) .., rfl, ?_⟩
          · rw [hsame]
            exact hstamped rev (hsameRun.revision ▸ hrev)
          · rw [hsame]
            exact ⟨henqueued.1.mono htu.1, henqueued.2.mono htu.1⟩
      · obtain ⟨hst, s', hs', hid, hen⟩ := hmarked s hs
        exact ⟨hst, s', .tail _ hs', hid, hen⟩

/-! ## Planning -/

/-- The effect may be sent for the dispatch with this nonce. -/
def Planned (o : Orchestrator) (log : List Entry) (runID id : String)
    (nonce : Option ℕ) : Effect → Prop
  | .spawn _ | .respond _ => Delivered o log runID id nonce
  | .map _ step _ => Delivered o log runID id nonce ∧ StepOf o log runID step
  | .wait wt _ => wt.runID = runID ∧ wt.stepID = id
  | .sleep _ | .approval _ => True
  | .iteration .. => False

lemma Planned.mono {log' : List Entry} {nonce : Option ℕ} (h : Planned o log runID id nonce effect)
    (hlog : log <:+ log') : Planned o log' runID id nonce effect := by
  cases effect with
  | spawn | respond => exact Delivered.mono hlog h
  | map => exact ⟨h.1.mono hlog, h.2.mono hlog⟩
  | wait | iteration => exact h
  | sleep | approval => trivial

lemma Planned.effectOk (h : Planned o log run.runID id (run.step id).dispatchNonce effect) :
    EffectOk o log run id effect := by
  cases effect with
  | iteration => exact h.elim
  | _ => exact h

/-- The copy is about to send this dispatch of a step. -/
structure Dispatching (o : Orchestrator) (w : World) (run : WorkflowRun)
    (step : StepDef) : Prop where
  held : Held o w run
  stamped : Stamped run step.id
  as_ : DispatchedAs o w.log run.runID step.id (run.step step.id) step.type
  ready : Dispatchable o w run step

/-- The same run with the same nonces. -/
structure SameNonces (run run' : WorkflowRun) : Prop where
  runID : run'.runID = run.runID
  revision : run'.revision = run.revision
  nonce : ∀ id, (run'.step id).dispatchNonce = (run.step id).dispatchNonce

lemma sameNonces_setStep {s : StepState} (h : s.dispatchNonce = (run.step id).dispatchNonce) :
    SameNonces run (run.setStep id s) :=
  ⟨rfl, rfl, run.proj_setStep StepState.dispatchNonce h⟩

lemma Dispatching.of_sameNonces (h : Dispatching o w run step) (hheld : Held o t run')
    (hgrows : w.Grows t) (hsame : SameNonces run run') : Dispatching o t run' step := by
  refine ⟨hheld, fun rev hrev => ?_, ?_, ?_⟩
  · rw [hsame.revision] at hrev
    obtain ⟨n, hn, hlt⟩ := h.stamped rev hrev
    exact ⟨n, (hsame.nonce step.id).trans hn, hlt⟩
  · obtain ⟨d, hd, hstep, htype⟩ := h.as_.mono hgrows.1
    rw [hsame.runID]
    refine ⟨d, hd, hstep, fun hcoherent => ?_⟩
    obtain ⟨n, m, hn, hm⟩ := htype hcoherent
    exact ⟨n, m, (hsame.nonce step.id).trans hn, hm⟩
  · exact (h.ready.mono hgrows).congr hsame.runID (hsame.nonce step.id)

lemma Dispatching.mono (h : Dispatching o w run step) (hgrows : w.Grows t) :
    Dispatching o t run step :=
  ⟨h.held.mono hgrows, h.stamped, h.as_.mono hgrows.1, h.ready.mono hgrows⟩

/-- What planning a step yields: the copy with the step moved on, and the
effect, if it has one. -/
def StepPlan (o : Orchestrator) (run : WorkflowRun) (step : StepDef)
    (run' : WorkflowRun) (effect : Option Effect) (t : World) : Prop :=
  Held o t run' ∧ SameNonces run run' ∧ ∀ e, effect = some e →
    Planned o t.log run.runID step.id (run.step step.id).dispatchNonce e

section

variable (h : Dispatching o w run step)
include h

lemma Dispatching.running (hnormal : step.type ≠ .normal)
    (hloop : step.type ≠ .agentLoop) (wakeAt : Option Time) (childRunID : String)
    (instances : List MapInstanceState) : Held o w (run.setStep step.id { run.step step.id with
      status := .running, wakeAt := wakeAt, childRunID := childRunID
      mapInstances := instances }) :=
  h.held.change fun rev hrev => .single (.step run step.id _
    (.planRunning step.type wakeAt childRunID instances (h.stamped rev hrev) h.as_ hnormal hloop))

lemma Dispatching.completed
    (htype : step.type = .subWorkflow ∨ step.type = .respond) (output : Raw) (childRunID : String) :
    Held o w (run.setStep step.id { run.step step.id with
      status := .completed, output := output, childRunID := childRunID }) :=
  h.held.change fun rev hrev => .single (.step run step.id _
    (.planCompleted step.type output childRunID (h.stamped rev hrev) h.as_ htype))

lemma Dispatching.unmarked (htype : resendable step.type = false) :
    Delivered o w.log run.runID step.id (run.step step.id).dispatchNonce :=
  .unmarked (run.step step.id) step.type rfl htype h.as_

end

lemma waitForEventSend :
    Does o K w (Dagnats.waitForEventSend run step) fun effect _ => ∃ wt timeout, effect =
    .wait wt timeout ∧ wt.runID = run.runID ∧ wt.stepID = step.id := by
  unfold Dagnats.waitForEventSend
  split
  · exact throw
  · refine bind ofFault fun resolved t _ _ _ => bind now fun time u _ _ _ => ?_
    exact pure fun _ _ => ⟨_, _, rfl, rfl, rfl⟩

section

variable (h : Dispatching o w run step)
include h

lemma planMapStep (htype : step.type = .map) :
    Does o K w (Dagnats.planMapStep d run step) fun x t =>
      StepPlan o run step x.1 (some x.2) t := by
  unfold Dagnats.planMapStep
  split
  · split
    · exact throw
    · split
      · exact panic
      · refine guard fun _ => pure fun t hwt => ?_
        have hrun := (h.mono hwt).running (by simp [htype]) (by simp [htype])
        refine ⟨hrun _ _ _, sameNonces_setStep rfl, fun e he => ?_⟩
        cases he
        have hnow := h.mono hwt
        exact ⟨hnow.unmarked (by rw [htype]; rfl), hnow.ready.known⟩
  · exact panic

lemma planSubWorkflow (htype : step.type = .subWorkflow) :
    Does o K w (Dagnats.planSubWorkflow run step) fun x t =>
      StepPlan o run step x.1 (some x.2) t := by
  unfold Dagnats.planSubWorkflow
  split
  · exact throw
  · next cfg _ =>
    refine bind resolvedInput fun input t _ hwt _ => ?_
    refine bind newID fun childRunID u _ htu _ => pure fun v huv => ?_
    have hnow := h.mono (hwt.trans (htu.trans huv))
    have hplan : Held o v (markSpawnedStep run step cfg childRunID) ∧
        SameNonces run (markSpawnedStep run step cfg childRunID) := by
      unfold markSpawnedStep
      dsimp only
      split
      · exact ⟨hnow.completed (.inl htype) _ childRunID, sameNonces_setStep rfl⟩
      · have hrun := hnow.running (by simp [htype]) (by simp [htype])
        exact ⟨hrun (run.step step.id).wakeAt childRunID
          (run.step step.id).mapInstances, sameNonces_setStep rfl⟩
    refine ⟨hplan.1, hplan.2, fun e he => ?_⟩
    cases he
    exact hnow.unmarked (by rw [htype]; rfl)

lemma planApproval (htype : step.type = .approval) :
    Does o K w (Dagnats.planApproval run step) fun x t => StepPlan o run step x.1 (some x.2) t := by
  unfold Dagnats.planApproval
  split
  · exact throw
  · refine guard fun _ => guard fun _ => pure fun t hwt => ?_
    have hrun := (h.mono hwt).running (by simp [htype]) (by simp [htype])
    refine ⟨hrun (run.step step.id).wakeAt (run.step step.id).childRunID
      (run.step step.id).mapInstances, sameNonces_setStep rfl, fun e he => ?_⟩
    cases he
    trivial

lemma planRespondStep (htype : step.type = .respond) :
    Does o K w (Dagnats.planRespondStep run step) fun x t =>
      StepPlan o run step x.1 (some x.2) t := by
  unfold Dagnats.planRespondStep
  split
  · exact throw
  · refine guard fun _ => bind ofFault fun body t _ hwt _ => pure fun u htu => ?_
    have hnow := h.mono (hwt.trans htu)
    refine ⟨hnow.completed (.inr htype) body (run.step step.id).childRunID,
      sameNonces_setStep rfl, fun e he => ?_⟩
    cases he
    exact hnow.unmarked (by rw [htype]; rfl)

lemma planWaitForEventStep (htype : step.type = .waitForEvent) :
    Does o K w (Dagnats.planWaitForEventStep run step) fun x t =>
      StepPlan o run step x.1 (some x.2) t := by
  refine bind waitForEventSend fun effect t _ hwt heffect => pure fun u htu => ?_
  have hrun := (h.mono (hwt.trans htu)).running (by simp [htype]) (by simp [htype])
  refine ⟨hrun (run.step step.id).wakeAt (run.step step.id).childRunID
    (run.step step.id).mapInstances, sameNonces_setStep rfl, fun e he => ?_⟩
  obtain ⟨wt, timeout, rfl, hids⟩ := heffect
  cases he
  exact hids

end

section

variable (hnext : NextOk o K next) (h : Dispatching o w run step)
include hnext h

lemma failSleep {α : Type} {J : α → World → Prop} {reason : String} (htype : step.type = .sleep) :
    Does o K w (o.failSleep next run step reason : M α) J := by
  refine bind (failWorkflow hnext (Held.preset (h.held.change fun rev hrev => ?_)))
    fun _ _ _ _ _ => throw
  exact .single (.step run step.id _ (.planFailed reason (h.stamped rev hrev) (htype ▸ h.as_)))

lemma planSleep (htype : step.type = .sleep) :
    Does o K w (o.planSleep next run step) fun x t => StepPlan o run step x.1 (some x.2) t := by
  unfold Orchestrator.planSleep
  split
  · exact failSleep hnext h htype
  · refine bind now fun time t _ hwt _ => ?_
    split
    · exact failSleep hnext (h.mono hwt) htype
    · next sleepFor _ =>
      refine pure fun u htu => ?_
      have hrun := (h.mono (hwt.trans htu)).running (by simp [htype]) (by simp [htype])
      refine ⟨hrun (some (time + sleepFor)) (run.step step.id).childRunID
        (run.step step.id).mapInstances, sameNonces_setStep rfl, fun e he => ?_⟩
      cases he
      trivial

lemma planStep :
    Does o K w (o.planStep next d run step) fun x t => StepPlan o run step x.1 x.2 t := by
  have hplain : Does o K w (Prog.pure (run, none) : M (WorkflowRun × Option Effect))
      fun x t => StepPlan o run step x.1 x.2 t :=
    pure fun t hwt => ⟨h.held.mono hwt, ⟨rfl, rfl, fun _ => rfl⟩, fun e he => nomatch he⟩
  have hmapped : ∀ {p : M (WorkflowRun × Effect)},
      Does o K w p (fun x t => StepPlan o run step x.1 (some x.2) t) →
      Does o K w (do return (← p).map id some) fun x t =>
        StepPlan o run step x.1 x.2 t := by
    intro p hp
    refine bind hp fun x t _ _ hx => pure fun u htu => ?_
    exact ⟨hx.1.mono htu, hx.2.1, fun e he => (hx.2.2 e he).mono htu.1⟩
  unfold Orchestrator.planStep
  split
  · next htype => exact hmapped (planSubWorkflow h htype)
  · next htype => exact hmapped (planMapStep h htype)
  · next htype => exact hmapped (planSleep hnext h htype)
  · next htype => exact hmapped (planWaitForEventStep h htype)
  · next htype => exact hmapped (planApproval h htype)
  · next htype => exact hmapped (planRespondStep h htype)
  all_goals exact hplain

end

/-- The state of planning a list of ready steps. -/
structure PlanState (o : Orchestrator) (runID : String) (ready : List StepDef)
    (acc : WorkflowRun × DispatchPlan) (t : World) : Prop where
  held : Held o t acc.1
  same : acc.1.runID = runID
  steps : ∀ s ∈ ready, Dispatching o t acc.1 s
  effects : ∀ effect ∈ acc.2.effects,
    Planned o t.log runID effect.1 (acc.1.step effect.1).dispatchNonce effect.2
  already : acc.2.alreadySent = []
  normal : ∀ s ∈ acc.2.normalSteps, s ∈ ready

lemma PlanState.mono (h : PlanState o runID ready acc w) (hgrows : w.Grows t) :
    PlanState o runID ready acc t :=
  ⟨h.held.mono hgrows, h.same, fun s hs => (h.steps s hs).mono hgrows,
    fun e he => (h.effects e he).mono hgrows.1, h.already, h.normal⟩

lemma planNext (hnext : NextOk o K next) (h : PlanState o runID ready acc w)
    (hstep : step ∈ ready) :
    Does o K w (o.planNext next d acc step) fun acc' t => PlanState o runID ready acc' t := by
  refine bind (planStep hnext (h.steps step hstep)) fun ⟨run', effect⟩ t _ hwt hplan => ?_
  obtain ⟨hheld, hsame, heffect⟩ := hplan
  have hsteps : ∀ u, t.Grows u → ∀ s ∈ ready, Dispatching o u run' s :=
    fun u htu s hs => (h.steps s hs).of_sameNonces (hheld.mono htu) (hwt.trans htu) hsame
  have heffects : ∀ u, t.Grows u → ∀ e ∈ acc.2.effects,
      Planned o u.log runID e.1 (run'.step e.1).dispatchNonce e.2 := by
    intro u htu e he
    rw [hsame.nonce]
    exact (h.effects e he).mono (hwt.trans htu).1
  cases effect with
  | none =>
    refine pure fun u htu => ⟨hheld.mono htu, hsame.runID.trans h.same,
      hsteps u htu, heffects u htu, h.already, fun s hs => ?_⟩
    rcases List.mem_append.mp hs with hs | hs
    · exact h.normal s hs
    · exact List.mem_singleton.mp hs ▸ hstep
  | some effect =>
    refine pure fun u htu => ⟨hheld.mono htu, hsame.runID.trans h.same,
      hsteps u htu, fun e he => ?_, h.already, h.normal⟩
    rcases List.mem_append.mp he with he | he
    · exact heffects u htu e he
    · rw [List.mem_singleton.mp he]
      have hnew := (heffect effect rfl).mono htu.1
      rw [h.same] at hnew
      rw [hsame.nonce]
      exact hnew

lemma planDispatch (hnext : NextOk o K next) (h : PlanState o run.runID ready (run, {}) w) :
    Does o K w (o.planDispatch next d run ready) fun acc t => PlanState o run.runID ready acc t :=
  fold (fun _ _ _ htu hacc => PlanState.mono hacc htu) h
    fun _ hstep _ _ _ _ hacc => planNext hnext hacc hstep

/-! ## Enqueueing -/

lemma publishStepQueuedEvents : Keeps o K w (Dagnats.publishStepQueuedEvents run ready) := by
  refine foldKeeps fun step _ _ t _ _ => ?_
  refine ite (fun _ => ignoring (publishEvent ?_)) fun _ => ends
  exact fun _ _ => rfl

lemma runDispatchPlan (hnext : NextOk o K next) (h : Held o w run)
    (hd : DispatchDef o w.log run.runID d) (hplan : PlanOk o w run plan) :
    Keeps o K w (o.runDispatchPlan next d run plan) := by
  refine bind (sendPlan h hplan) fun ⟨sent, sendErr⟩ t _ hwt hsent => ?_
  refine (markSent (h.mono hwt) hsent).either
    (fun _ _ _ _ => throw) fun run' u _ htu ⟨hheld, hid⟩ => ?_
  cases sendErr with
  | some e => exact throw
  | none =>
    refine early fun _ => ite (fun _ => completeWorkflow hnext hheld.preset) fun _ => ?_
    exact hnext u d run' hheld (hid ▸ hd.mono (hwt.trans htu).1)

lemma enqueueReadyWith (hnext : NextOk o K next) : NextOk o K (o.enqueueReadyWith next) := by
  intro w d run h hd
  unfold Orchestrator.enqueueReadyWith
  split
  · next run' hres =>
    rw [resolveReadySteps_complete hres]
    exact completeWorkflow hnext (h.resolveSkips d).preset
  · exact ends
  · next run' ready hres =>
    obtain ⟨hrun', hready⟩ := resolveReadySteps_ready hres
    have hheld : Held o w run' := hrun' ▸ h.resolveSkips d
    have hid : run'.runID = run.runID := hrun' ▸ (resolveSkips_sameRun d run).runID
    refine early fun _ => ?_
    have hopen : ∀ s ∈ ready, Open run' s.id := fun s hs => (hready s hs).2.imp_right .inl
    refine bind (markQueuedAll hheld hopen) fun run₁ t _ hwt hrun₁ => ?_
    obtain ⟨hheld₁, hsame₁, -, hmarked⟩ := hrun₁
    have hplan : PlanState o run₁.runID ready (run₁, {}) t := by
      have hdef : DispatchDef o t.log run₁.runID d := by
        rw [hsame₁.runID, hid]
        exact hd.mono hwt.1
      refine ⟨hheld₁, rfl, fun s hs => ?_, by simp, rfl, by simp⟩
      obtain ⟨hstamped, s', hs', hid', henqueued, hminted⟩ := hmarked s hs
      rw [← hsame₁.runID] at hminted
      refine ⟨hheld₁, hstamped, ⟨d, hdef, ⟨s, (hready s hs).1, rfl, rfl⟩,
        fun hcoherent => ?_⟩, hdef.stepOf (hready s hs).1, hminted⟩
      · rw [← hcoherent s' (hready s' hs').1 s (hready s hs).1 hid']
        exact henqueued
    refine bind (planDispatch hnext hplan).outcome fun r u _ htu hr => ?_
    split
    · exact ends
    · exact throw
    · next run₂ plan =>
      have hstate := hr (run₂, plan) rfl
      refine bind (saveSnapshot (hstate.held.writable (.plain .enqueue)
        fun h => nomatch h)) fun saved v _ huv hsaved => ?_
      have hsavedID : saved.runID = run.runID := by
        rw [hsaved.kin.runID, hstate.same, hsame₁.runID, hid]
      refine bind publishStepQueuedEvents fun _ x _ hvx _ => ?_
      refine runDispatchPlan hnext (hsaved.held.mono hvx) ?_ ⟨?_, ?_, ?_⟩
      · rw [hsavedID]
        exact hd.mono (hwt.trans (htu.trans (huv.trans hvx))).1
      · intro effect heffect
        refine Planned.effectOk ?_
        rw [hsaved.kin.dispatchNonce, hsaved.kin.runID, hstate.same]
        exact (hstate.effects effect heffect).mono (huv.trans hvx).1
      · rw [hstate.already]
        exact fun id hid => nomatch hid
      · intro step hstep
        have hsent := (hstate.steps step (hstate.normal step hstep)).ready
        exact (hsent.mono (huv.trans hvx)).congr hsaved.kin.runID (hsaved.kin.dispatchNonce step.id)

lemma enqueueDepth (depth : ℕ) : NextOk o K (o.enqueueDepth depth) := by
  induction depth with
  | zero => exact fun _ _ _ _ _ => throw
  | succ depth ih => exact enqueueReadyWith ih

lemma enqueueReady : NextOk o K o.enqueueReady :=
  enqueueDepth o.callDepth

/-! ## Resending -/

section

variable (h : PlanOk o w run plan)
include h

lemma PlanOk.mono (hgrows : w.Grows t) : PlanOk o t run plan :=
  ⟨fun e he => (h.effects e he).mono hgrows.1,
    fun id hid => (h.already id hid).mono hgrows.1,
    fun step hstep => (h.normal step hstep).mono hgrows⟩

lemma PlanOk.already_append (hid : Delivered o w.log run.runID id (run.step id).dispatchNonce) :
    PlanOk o w run { plan with alreadySent := plan.alreadySent ++ [id] } := by
  refine ⟨h.effects, fun other hother => ?_, h.normal⟩
  rcases List.mem_append.mp hother with hother | hother
  · exact h.already other hother
  · rw [List.mem_singleton.mp hother]
    exact hid

lemma PlanOk.effects_append (heffect : EffectOk o w.log run id effect) :
    PlanOk o w run { plan with effects := plan.effects ++ [(id, effect)] } := by
  refine ⟨fun other hother => ?_, h.already, h.normal⟩
  rcases List.mem_append.mp hother with hother | hother
  · exact h.effects other hother
  · rw [List.mem_singleton.mp hother]
    exact heffect

lemma PlanOk.normal_append (hstep : Dispatchable o w run step) :
    PlanOk o w run { plan with normalSteps := plan.normalSteps ++ [step] } := by
  refine ⟨h.effects, h.already, fun other hother => ?_⟩
  rcases List.mem_append.mp hother with hother | hother
  · exact h.normal other hother
  · rw [List.mem_singleton.mp hother]
    exact hstep

end

section

variable (hrun : Loaded w run.runID run) (hd : EffectiveFor o run d)
include hrun hd

lemma delivered_of_taken
    (hstep : step ∈ d.steps) (hmark : (run.step step.id).dispatchUnsent = true)
    (htaken : TakenForSent step.type (run.step step.id)) :
    Delivered o w.log run.runID step.id (run.step step.id).dispatchNonce := by
  obtain ⟨rev, stored, hwrote, hid, hrun⟩ := hrun
  rw [hrun] at hd hmark htaken ⊢
  exact .taken rev stored d step hwrote rfl (hd.congr rfl rfl) hstep rfl rfl hmark htaken

lemma planTaskResend
    (hknown : StepOf o w.log run.runID step) (hstep : step ∈ d.steps)
    (hmark : (run.step step.id).dispatchUnsent = true)
    (htype : step.type ≠ .sleep ∧ step.type ≠ .waitForEvent) (hplan : PlanOk o w run plan) :
    Does o K w (Dagnats.planTaskResend run step plan) fun plan' t => PlanOk o t run plan' := by
  refine guard fun hresendable => ?_
  have htask : step.type = .normal ∨ step.type = .agentLoop := by
    cases h : step.type <;> simp [h, resendable] at hresendable htype ⊢
  refine ite (fun hgone => pure fun t hwt => ?_) fun hleft => ?_
  · refine (hplan.already_append ?_).mono hwt
    exact delivered_of_taken hrun hd hstep hmark (.inl ⟨htask, hgone.1, hgone.2⟩)
  · refine bind (bind requireTask fun _ t _ _ _ => taskQueued) fun queued t ht hwt hqueued => ?_
    refine ite (fun htrue => pure fun u htu => ?_) fun _ =>
      ite (fun hloop => pure fun u htu => ?_) fun _ => pure fun u htu => ?_
    · exact ((hplan.mono hwt).already_append (.sent (hqueued htrue))).mono htu
    · have heffect : EffectOk o t.log run step.id (.iteration step (run.step step.id)) := by
        refine ⟨rfl, rfl, hmark, hloop.2, fun hwaiting hnone => ?_⟩
        refine delivered_of_taken (hrun.mono hwt) hd hstep hmark
          (.inr ⟨hloop.1, hloop.2, hnone, ?_⟩)
        simpa [waiting, hnone] using hwaiting
      exact ((hplan.mono hwt).effects_append heffect).mono htu
    · have htraced := ((hrun.mono hwt).held (o := o)).heldStep step.id |>.traced ht
      have hminted := (htraced.minted (htraced.marked hmark)).nonce
      exact ((hplan.mono hwt).normal_append ⟨hknown.mono hwt.1, hminted⟩).mono htu

end

lemma resumeSleep : Does o K w (Dagnats.resumeSleep run step) fun effect _ => ∃ durationMs,
    effect = .sleep durationMs := by
  unfold Dagnats.resumeSleep
  split
  · exact panic
  · exact bind now fun _ _ _ _ _ => pure fun _ _ => ⟨_, rfl⟩

lemma planResendStep (hrun : Loaded w run.runID run) (hd : EffectiveFor o run d)
    (hknown : StepOf o w.log run.runID step) (hstep : step ∈ d.steps)
    (hplan : PlanOk o w run plan) :
    Does o K w (Dagnats.planResendStep run plan step) fun plan' t => PlanOk o t run plan' := by
  refine ite (fun _ => pure fun t hwt => hplan.mono hwt) fun hmark => ?_
  have hmark' : (run.step step.id).dispatchUnsent = true := by simpa using hmark
  split
  · refine bind resumeSleep fun effect t _ hwt heffect => pure fun u htu => ?_
    obtain ⟨ms, rfl⟩ := heffect
    exact (hplan.mono (hwt.trans htu)).effects_append trivial
  · refine bind waitForEventSend fun effect t _ hwt heffect => pure fun u htu => ?_
    obtain ⟨wt, timeout, rfl, hids⟩ := heffect
    exact (hplan.mono (hwt.trans htu)).effects_append hids
  · next hsleep hwait =>
    exact planTaskResend hrun hd hknown hstep hmark' ⟨hsleep, hwait⟩ hplan

lemma resendUnsent (hrun : Loaded w run.runID run) : Keeps o K w (o.resendUnsent run) := by
  refine early fun _ => ?_
  refine bind loadPinnedOrLatestDef fun d t _ hwt hd => ?_
  have hplan : Does o K t (Dagnats.planResend (effectiveDef d run) run)
      fun plan u => PlanOk o u run plan := by
    refine guard fun _ => ?_
    refine fold (fun _ _ _ htu h => PlanOk.mono h htu) ⟨by simp, by simp, by simp⟩ ?_
    intro step hstep plan u _ htu hplan
    have hsourced : Sourced o u.log run (effectiveDef d run) := ⟨d, hd.1, hd.2.mono htu.1, rfl⟩
    have hrun' := hrun.mono (hwt.trans htu)
    exact planResendStep hrun' hsourced.effective
      ((hsourced.dispatchDef hrun').stepOf hstep) hstep hplan
  refine bind hplan fun plan u _ htu hplan => ?_
  have hheld : Held o u run := hrun.held.mono (hwt.trans htu)
  refine bind (sendPlan hheld hplan) fun ⟨sent, sendErr⟩ v _ huv hsent => ?_
  refine (markSent (hheld.mono huv) hsent).either (fun _ _ _ _ => throw) fun run' _ _ _ _ => ?_
  cases sendErr with
  | some e => exact throw
  | none => exact ends

end Does

end Dagnats
