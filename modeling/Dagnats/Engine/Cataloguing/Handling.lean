import Dagnats.Engine.Cataloguing.Rules

/-!
# The handlers write what the catalogue lists

Completion, failure and continuation of a step, the events that the fence does
not look at, and the cancellation of a run.
-/

namespace Dagnats

open Interaction

variable {o : Orchestrator} {w : World} {d : WorkflowDef} {run run' : WorkflowRun}
  {wait : Option ContinueWait} {payload : Raw} {reason runID : String} {delayMs : ℤ} {e : Event}
  {step : StepDef} {stepID : String} {state s₀ : StepState} {site : Site}

/-- The copy that a handler has loaded, with its effective definition. -/
structure Charge (o : Orchestrator) (w : World) (d : WorkflowDef)
    (run : WorkflowRun) : Prop where
  current : Current w run
  stored : run.revision.isSome = true
  effective : EffectiveFor o run d
  treats : Treats o w run.runID d

lemma Loaded.charge (hrun : Loaded w runID run) (hd : EffectiveFor o run d) : Charge o w d run := by
  refine ⟨hrun.current, ?_, hd, hrun.runID.symm ▸ .of_loaded hrun hd⟩
  obtain ⟨rev, stored, -, -, rfl⟩ := hrun
  rfl

lemma Charge.drafted (h : Charge o w d run) (hnew : Handled o d run site run')
    (hrev : run'.revision = run.revision) : Drafted o w site run' :=
  h.current.drafted (.handled d h.effective hnew) hrev

lemma CompletedBy.sameRun (h : CompletedBy o d run e run') : SameRun run run' := by
  cases h <;> exact ⟨rfl, rfl, rfl, rfl, rfl, rfl⟩

lemma CompletedBy.dynamicSteps (h : CompletedBy o d run e run') :
    run'.dynamicSteps = run.dynamicSteps := by
  cases h <;> rfl

lemma FailedBy.sameRun (h : FailedBy o d run e run') : SameRun run run' := by
  have hfailed : SameRun run (failedCopy run e) := ⟨rfl, rfl, rfl, rfl, rfl, rfl⟩
  cases h with
  | exhausted => exact hfailed
  | refused => exact hfailed.trans (resolveSkips_sameRun d _)

lemma recovered_same (d : WorkflowDef) (stepID : String) :
    (recoverIfOnFailure d (advancedCopy d run) stepID).revision = run.revision ∧
    (recoverIfOnFailure d (advancedCopy d run) stepID).runID = run.runID := by
  have hrecover := recoverIfOnFailure_sameRun d (advancedCopy d run) stepID
  have hskips := resolveSkips_sameRun d run
  have hadvanced : (advancedCopy d run).revision = run.revision ∧
      (advancedCopy d run).runID = run.runID := by
    unfold advancedCopy
    split <;> exact ⟨hskips.revision, hskips.runID⟩
  exact ⟨hrecover.revision.trans hadvanced.1, hrecover.runID.trans hadvanced.2⟩

lemma Concludes.same (h : Concludes o d run site run') :
    run'.revision = run.revision ∧ run'.runID = run.runID := by
  cases h with
  | reported e run₁ hcompleted =>
    obtain ⟨hrev, hid⟩ := recovered_same d e.stepID
    exact ⟨hrev.trans hcompleted.sameRun.revision, hid.trans hcompleted.sameRun.runID⟩
  | planned e _ hcompleted =>
    exact ⟨hcompleted.sameRun.revision, hcompleted.sameRun.runID⟩
  | mapped e id _ _ hinst =>
    cases hinst
    exact ⟨rfl, rfl⟩
  | awaited => exact ⟨rfl, rfl⟩

namespace Quiet

lemma requeue : Quiet (Dagnats.requeue run stepID) fun run' => ∃ n t, run' =
    run.requeued stepID n t := by
  refine bind stampDispatch fun s hs => pure ?_
  obtain ⟨n, t, rfl⟩ := hs
  exact ⟨n, t, rfl⟩

lemma requeueAll {steps : List StepDef} :
    Quiet (Prog.fold (fun run (step : StepDef) => Dagnats.requeue run step.id) steps run)
      fun run' => Requeued (steps.map (·.id)) run run' := by
  induction steps generalizing run with
  | nil => exact pure (.nil run)
  | cons step steps ih =>
    refine bind requeue fun run₁ hrun₁ => ?_
    obtain ⟨n, t, rfl⟩ := hrun₁
    exact ih.conseq fun run' hrun' => .cons n t hrun'

lemma advanceCompleted : Quiet (Dagnats.advanceCompleted d run stepID payload) fun run' =>
      run' = advancedCopy d (run.setStep stepID
        { run.step stepID with status := .completed, output := payload }) := by
  refine ite (fun hdone => pure ?_) fun hopen => ite (fun _ => pure ?_) fun _ => panic
  · rw [advancedCopy, if_pos hdone]
  · rw [advancedCopy, if_neg hopen]

lemma mapInstance : Quiet (Orchestrator.mapInstance run e) fun x => x.2.1 = run.step x.1 ∧
    ∃ index, parseMapInstanceID e.stepID = .ok (x.1, index) :=
  bind ofFault fun x hx => ite (fun _ => other) fun _ =>
    pure ⟨rfl, x.2, hx⟩

lemma continueState : Silent (Dagnats.continueState e) := by
  refine early fun _ => ?_
  split
  · exact other
  · exact ends

lemma continueWait : Silent (Dagnats.continueWait e) := by
  refine early fun _ => ?_
  split
  · exact other
  · exact ends

lemma applyWait :
    Quiet (Dagnats.applyWait runID stepID state wait) fun state' =>
    state'.status = state.status := by
  unfold Dagnats.applyWait
  dsimp only
  split
  · exact pure rfl
  · refine bind now fun t _ => ite (fun _ => pure rfl) fun _ => ?_
    refine bind (request rfl).outcome fun r _ => ?_
    split <;> exact pure rfl

lemma advanceContinue : Quiet (Dagnats.advanceContinue step run) fun x =>
      (∃ s error, x = ({ run.setStep step.id s with status := .failed }, some error)) ∨
      x = (run.setStep step.id { run.step step.id with
        iterations := (run.step step.id).iterations + 1 }, none) := by
  unfold Dagnats.advanceContinue
  split
  · exact panic
  · refine ite (fun _ => pure (.inl ⟨_, _, rfl⟩)) fun _ => ?_
    exact ite (fun _ => pure (.inr rfl)) fun _ => panic

lemma scheduleRetry {action : TimerAction} {name : String} :
    Silent (o.scheduleRetry action run stepID step delayMs name) :=
  bind resolvedInput fun _ _ => bind requireTask fun _ _ =>
    schedule

end Quiet

namespace Catalogued

lemma requeued_revision {ids : List String} (h : Requeued ids run run') :
    run'.revision = run.revision := by
  induction h with
  | nil => rfl
  | cons n t _ ih => exact ih

lemma handlePermanentFailure (h : Charge o w d run) (hfailed : FailedBy o d run e run')
    (hstep : step = d.stepDef e.stepID) :
    Sticks o w (o.handlePermanentFailure o.enqueueReady d run' step state e.stepID) := by
  have hrevision := hfailed.sameRun.revision
  refine after .releaseTaskSlot fun _ _ => ?_
  refine ite (fun haux => ?_) fun haux => ?_
  · refine guard fun _ => ?_
    refine bind (finalizeRun (fun t => h.drafted (.auxFailed e run' t hfailed haux) hrevision)
      (releaseAdmission enqueueReady)) fun _ _ => ?_
    exact after .publishDeadLetter fun _ _ => sticks .notifyParentIfChild
  have haux : d.isAux e.stepID = false := by simpa using haux
  have hrouted : Catalogued o w (o.runOnFailure d run' step e.stepID state.error) fun b =>
      b = false → (d.stepDef e.stepID).onFailure = "" ∨
        findStepDef d (d.stepDef e.stepID).onFailure = none := by
    rw [hstep]
    refine ite (fun hnamed => ?_) fun hnamed => pure fun _ => .inl (by simpa using hnamed)
    unfold Orchestrator.tryOnFailure
    split
    · next hnone => exact pure fun _ => .inr hnone
    · next target htarget =>
      refine after .requeue fun run₁ hrun₁ => ?_
      obtain ⟨n, t, rfl⟩ := hrun₁
      refine bind (saveSnapshot (h.drafted
        (.routed e run' target n t hfailed haux hnamed htarget) hrevision)) fun _ _ => ?_
      exact after .publish fun _ _ => pure fun hb => nomatch hb
  refine bind hrouted fun handled hhandled => early fun hunhandled => ?_
  have hopen := hhandled (by simpa using hunhandled)
  refine ite (fun hchain => ?_) fun hchain => ?_
  · have hsome : resolveCompensateChain d (completedSet run') ≠ [] := by simpa using hchain
    unfold Orchestrator.startCompensation
    split
    · exact ends
    · next first rest hchain' =>
      rw [← hchain']
      refine after .requeueAll fun run₁ hrun₁ => ?_
      refine bind (saveSnapshot (h.drafted
        (.compensating e run' run₁ hfailed haux hopen hsome hrun₁)
        ((requeued_revision hrun₁).trans hrevision))) fun _ _ => sticks Quiet.publish
  · have hnone : resolveCompensateChain d (completedSet run') = [] := by simpa using hchain
    exact failWorkflow enqueueReady fun t =>
      h.drafted (.failed e run' t hfailed haux hopen hnone) hrevision

/-! ## Completion -/

lemma finishOrEnqueue (h : Charge o w d run) (hconclude : Concludes o d run site run') :
    Sticks o w (o.finishOrEnqueue d run' site) := by
  obtain ⟨hrevision, hid⟩ := hconclude.same
  refine ite (fun hdone => ?_) fun hopen => ?_
  · exact completeWorkflow enqueueReady fun new hnew => h.drafted
      (.closed site run' new hconclude hdone hnew) ((closes_revision hnew).trans hrevision)
  · refine bind (saveSnapshot (h.drafted (.concluded site run' hconclude
      (by simpa using hopen)) hrevision)) fun saved hsaved => ?_
    refine enqueueReady d saved hsaved.current ?_
    rw [hsaved.alike.runID, hid]
    exact h.treats

lemma saveCompensateNext (h : Drafted o w .compensateNext run) :
    Sticks o w (Orchestrator.saveCompensateNext run) := by
  refine bind (saveSnapshot h).outcome fun r _ => ?_
  cases r <;> exact ends

lemma handleCompensateCompleted (h : Charge o w d run) (hcompleted : CompletedBy o d run e run') :
    Catalogued o w (o.handleCompensateCompleted o.enqueueReady d
      (recoverIfOnFailure d (advancedCopy d run') e.stepID) e.stepID) fun b =>
      b = false → isCompensation d e.stepID = false := by
  have hrevision := (recovered_same d e.stepID).1.trans hcompleted.sameRun.revision
  refine ite (fun hforward => pure fun _ => ?_) fun hcompensation => ?_
  · cases haux : d.isAux e.stepID with
    | false => simp [isCompensation, haux]
    | true => simpa [isCompensation, haux] using hforward
  have hcompensation : isCompensation d e.stepID = true := by
    rw [isCompensation, Bool.and_eq_true, Option.isSome_iff_ne_none]
    simpa using hcompensation
  split
  · next source hsource =>
    refine after .requeue fun run₁ hrun₁ => ?_
    obtain ⟨n, t, rfl⟩ := hrun₁
    refine bind (saveCompensateNext (h.drafted
      (.compensates e run' source n t hcompleted hcompensation hsource) hrevision))
      fun _ _ => guard fun _ => ?_
    exact after Quiet.publish.ignoring fun _ _ => pure fun hb => nomatch hb
  · next hnone =>
    refine bind (ignoring (finalizeRun (fun t => h.drafted
      (.compensated e run' t hcompleted hcompensation hnone) hrevision)
      (releaseAdmission enqueueReady))) fun _ _ => pure fun hb => nomatch hb

/-- The copy in which the handler of `e` has completed the step. -/
def completion (run : WorkflowRun) (e : Event) : WorkflowRun :=
  run.setStep e.stepID { run.step e.stepID with status := .completed, output := e.payload }

lemma completeStep (h : Charge o w d run) (hcompleted : CompletedBy o d run e (completion run' e)) :
    Sticks o w (o.completeStep d run' e) := by
  refine after .advanceCompleted fun run₁ hrun₁ => ?_
  subst hrun₁
  refine after .releaseTaskSlot fun _ _ => ?_
  refine after .createBinding fun _ _ => ?_
  refine bind (handleCompensateCompleted h hcompleted) fun handled hhandled => ?_
  refine early fun hforward => ?_
  exact finishOrEnqueue h (.reported e _ hcompleted (hhandled (by simpa using hforward)))

/-! ## Planner -/

lemma failPlannerStep (h : Charge o w d run) (hcompleted : CompletedBy o d run e run')
    (hid : step.id = e.stepID) : Sticks o w (o.failPlannerStep run' step reason) := by
  refine failWorkflow enqueueReady fun t => ?_
  rw [hid]
  exact h.drafted (.misplanned e run' reason t hcompleted) hcompleted.sameRun.revision

section

variable {d0 : WorkflowDef} (h : Charge o w (effectiveDef d0 run) run) (hpinned : PinnedTo o run d0)
  (hcompleted : CompletedBy o (effectiveDef d0 run) run e run')
  (hplanner : ((effectiveDef d0 run).stepDef e.stepID).type = .planner)
include h hpinned hcompleted hplanner

lemma applyFragment {fragment : List StepDef}
    (hnew : ∀ s ∈ fragment, s.id ∉ (effectiveDef d0 run).steps.map (·.id)) :
    Sticks o w (o.applyFragment (effectiveDef d0 run) run' step fragment) := by
  have hadd : SameRun run' { run' with dynamicSteps := run'.dynamicSteps ++ fragment } :=
    ⟨rfl, rfl, rfl, rfl, rfl, rfl⟩
  have hsame : SameRun run' (fragment.foldl (fun r s => r.setStep s.id {})
      { run' with dynamicSteps := run'.dynamicSteps ++ fragment }) :=
    hadd.trans (sameRun_foldl _ (fun r s => sameRun_setStep {}) fragment _)
  have hrun := hcompleted.sameRun.trans hsame
  have hdyn : (fragment.foldl (fun (r : WorkflowRun) s => r.setStep s.id {})
      { run' with dynamicSteps := run'.dynamicSteps ++ fragment }).dynamicSteps =
        run.dynamicSteps ++ fragment := by
    rw [Does.fragment_dynamicSteps, hcompleted.dynamicSteps]
  refine bind (saveSnapshot (h.drafted (.generated e run' fragment hcompleted hplanner hnew)
    hrun.revision)) fun saved hsaved => ?_
  refine after Quiet.publishEvent.ignoring fun _ _ => ?_
  refine enqueueReady _ saved hsaved.current ?_
  -- The definition is drawn from the run as it has just been saved.
  obtain ⟨rev, hrev⟩ := Option.isSome_iff_exists.mp (hsaved.stored (hrun.revision ▸ h.stored))
  obtain ⟨base, hwrote, hlike⟩ := hsaved.current.stored rev hrev
  have hbase : base.dynamicSteps = run.dynamicSteps ++ fragment :=
    (hlike.dynamicSteps.symm.trans hsaved.alike.dynamicSteps).trans hdyn
  have heq : effectiveDef (effectiveDef d0 run) saved =
      effectiveDef (effectiveDef d0 run) base := by
    simp only [effectiveDef, hlike.dynamicSteps]
  rw [heq]
  refine .drawn rev base d0 hwrote hlike.runID.symm ⟨hpinned.1, ?_⟩
    (drawn_doubled fun s hs => by rw [hbase]; exact List.mem_append_left _ hs)
  rw [← hlike.defHash, hsaved.alike.defHash, hrun.defHash]
  exact hpinned.2

lemma materializePlannerOutput (hid : step.id = e.stepID) :
    Sticks o w (o.materializePlannerOutput (effectiveDef d0 run) run' step payload) := by
  have hfail : ∀ reason, Sticks o w (o.failPlannerStep run' step reason) :=
    fun reason => failPlannerStep h hcompleted hid
  unfold Orchestrator.materializePlannerOutput
  split
  · exact hfail _
  · split
    · exact hfail _
    · exact finishOrEnqueue h (.planned e run' hcompleted)
    · next fragment _ _ =>
      refine ite (fun _ => hfail _) fun _ => ?_
      dsimp only
      split
      · exact panic
      · exact hfail _
      · next hvalid =>
        refine applyFragment h hpinned hcompleted hplanner fun s hs => ?_
        have hid : s.id ∈ (namespaceFragment step.id fragment).map (·.id) := by
          rw [← Does.wireEntrySteps_ids _ step.id]
          exact List.mem_map_of_mem hs
        obtain ⟨s', hs', hid'⟩ := List.mem_map.mp hid
        exact hid' ▸ (validateFragment_ids hvalid).2 s' hs'

end

lemma completePlannerStep (h : Charge o w d run)
    (hcompleted : CompletedBy o d run e (completion run' e))
    (hplanner : (d.stepDef e.stepID).type = .planner) (hid : step.id = e.stepID) :
    Sticks o w (o.completePlannerStep d run' step e) := by
  obtain ⟨d0, hpinned, rfl⟩ := h.effective
  exact after .releaseTaskSlot fun _ _ => materializePlannerOutput h hpinned hcompleted hplanner hid

/-! ## Map instances -/

section

variable (h : Charge o w d run) (halive : run.status.isTerminal = false)
  (hmap : isMapInstanceID e.stepID = true)
include h halive hmap

lemma handleMapInstanceCompleted (htype : Does.isCompletion e.type = true) :
    Sticks o w (o.handleMapInstanceCompleted d (run.acting e false) e) := by
  refine after .mapInstance fun ⟨baseID, state, _⟩ hstate => ?_
  obtain ⟨rfl, index, hparse⟩ : state = run.step baseID ∧ _ := hstate
  refine ite (fun _ => ?_) fun _ => ?_
  · refine bind (saveSnapshot (h.drafted (.instance_ e baseID _ htype
      (.intro _ (run.step baseID).output (run.step baseID).error index halive hmap hparse)) rfl))
      fun _ _ => ends
  · split
    · exact throw
    · next collected _ =>
      exact finishOrEnqueue h (.mapped e baseID _ htype
        (.intro _ collected (run.step baseID).error index halive hmap hparse))

lemma handleMapInstanceFailed (htype : e.type = .stepFailed) :
    Sticks o w (o.handleMapInstanceFailed d (run.acting e false) e) := by
  refine after .mapInstance fun ⟨baseID, state, _⟩ hstate => ?_
  obtain ⟨rfl, index, hparse⟩ : state = run.step baseID ∧ _ := hstate
  have hinst : ∀ instances error, Instance run e baseID .failed
      ((run.acting e false).setStep baseID
        { run.step baseID with
          mapInstances := instances, status := .failed, error := error }) :=
    fun instances error =>
      .intro instances (run.step baseID).output error index halive hmap hparse
  refine ite (fun hnamed => ?_) fun hnamed => ?_
  · unfold Orchestrator.runMapOnFailure
    split
    · exact ends
    · next target htarget =>
      refine after .requeue fun run₁ hrun₁ => ?_
      obtain ⟨n, t, rfl⟩ := hrun₁
      exact bind (saveSnapshot (h.drafted (.mapRouted e baseID _ target n t htype
        (hinst _ _) hnamed htarget) rfl)) fun _ _ => sticks Quiet.publish
  · refine bind (finalizeRun (fun t => h.drafted (.mapFailed e baseID _ t htype
      (hinst _ _) (not_not.mp hnamed)) rfl) (releaseAdmission enqueueReady))
      fun _ _ => ?_
    exact after .publishDeadLetter fun _ _ => sticks .notifyParentIfChild

end

lemma alive {k : M Unit} (hk : run.status.isTerminal = false → Sticks o w k) :
    Sticks o w ((lateEventForTerminalRun run e).bind fun late =>
      if late = true then Prog.pure () else k) := by
  refine after .lateEvent fun late hlate => early fun hopen => hk ?_
  rw [← hlate]
  simpa using hopen

lemma fenceCompletion (halive : run.status.isTerminal = false)
    (hplain : isMapInstanceID e.stepID = false) (htype : Does.isCompletion e.type = true) :
    Quiet (o.fenceCompletion (findStepDef d e.stepID) run e) fun r => ∀ run', r = some run' →
    CompletedBy o d run e (completion run' e) := by
  refine Quiet.ite (fun hrespond => Quiet.pure fun run' h => ?_) fun _ => ?_
  · cases h
    exact .unfenced halive htype hplain (.inr hrespond)
  · refine Quiet.fenceStepEvent.conseq fun r hr run' hrun' => ?_
    cases (hr run' hrun').2 with
    | passed hpass heq =>
      subst heq
      exact .unfenced halive htype hplain (.inl hpass)
    | accepted hfenced haccept _ _ hstep hset =>
      have hcompleted : e.type = .stepCompleted := by
        cases ht : e.type <;> simp [ht, Does.isCompletion, fencedEventType] at *
      rw [completion, hset, hstep]
      exact .fenced ⟨hfenced, haccept, fun _ => halive, fun _ => hplain⟩ hcompleted

lemma handleStepCompleted (htype : Does.isCompletion e.type = true) :
    Sticks o w (o.handleStepCompleted e) := by
  refine guard fun _ => ?_
  refine bind loadRunAndDef fun ⟨d, run⟩ ⟨hrun, hd⟩ => ?_
  have h := hrun.charge hd
  refine alive fun halive => ?_
  refine ite (fun hmap => handleMapInstanceCompleted h halive hmap htype) fun hplain => ?_
  refine bind (of_quiet (fenceCompletion (d := d) halive (by simpa using hplain) htype))
    fun r hr => ?_
  cases r with
  | none => exact ends
  | some run' =>
    have hcompleted := hr run' rfl
    dsimp only
    split
    · next step hfind =>
      refine ite (fun hplanner => ?_) fun _ => completeStep h hcompleted
      have hstep : d.stepDef e.stepID = step := by rw [WorkflowDef.stepDef, hfind]; rfl
      exact completePlannerStep h hcompleted (by rw [hstep]; exact hplanner)
        (findStepDef_some hfind).2
    · exact completeStep h hcompleted

lemma handleStepQueued (htype : e.type = .stepQueued) :
    Sticks o w (Dagnats.handleStepQueued e) := by
  refine guard fun _ => ?_
  refine bind load fun run hrun => early fun _ => ?_
  refine early fun hopen => ?_
  simp only [not_or] at hopen
  refine alive fun halive => ?_
  exact bind (saveSnapshot (hrun.current.drafted (.noted (.queued e htype hopen.1
    hopen.2.1 hopen.2.2 halive)) rfl)) fun _ _ => ends

lemma handleStepStarted (htype : e.type = .stepStarted) :
    Sticks o w (Dagnats.handleStepStarted e) := by
  refine guard fun _ => ?_
  refine bind load fun run hrun => early fun _ => ?_
  refine early fun hopen => ?_
  simp only [not_or] at hopen
  refine alive fun halive => ?_
  refine early fun _ => after .now fun t _ => ?_
  exact bind (saveSnapshot (hrun.current.drafted (.noted (.started e t htype hopen.1
    hopen.2 halive)) rfl)) fun _ _ => sticks Quiet.armStepWatchdog

/-! ## Continue -/

/-- What the fence makes of the copy of a `step.continue` or `step.failed`. -/
structure Accepted (o : Orchestrator) (run : WorkflowRun) (e : Event)
    (run' : WorkflowRun) : Prop where
  accepts : Accepts o run e
  step : run'.step e.stepID = adopted (run.step e.stepID) e
  set : ∀ s, run'.setStep e.stepID s = (run.acting e true).setStep e.stepID s

lemma adopted_status (s : StepState) : (adopted s e).status = s.status := by
  unfold adopted
  split <;> rfl

section

variable (h : Charge o w d run) (hacc : Accepted o run e run') (htype : e.type = .stepContinue)
include h hacc htype

lemma failLoopStep (hid : stepID = e.stepID) {run'' : WorkflowRun}
    (hrun : ∀ s t, markTerminal (run''.setStep e.stepID s) .failed t =
      markTerminal (run'.setStep e.stepID s) .failed t) :
    Sticks o w (o.failLoopStep run'' stepID state reason) := by
  subst hid
  refine bind (finalizeRun (fun t => ?_) (releaseAdmission enqueueReady))
    fun _ _ => sticks .notifyParentIfChild
  rw [hrun, hacc.set]
  exact h.drafted (.exhausted e _ t hacc.accepts htype rfl) rfl

lemma dispatchNextIteration {loopState : Raw} (hid : step.id = e.stepID)
    (hstate : state.status = (run.step e.stepID).status) :
    Sticks o w (o.dispatchNextIteration (run'.setStep e.stepID s₀) step state loopState wait) := by
  refine after .stampDispatch fun stamped hstamped => ?_
  obtain ⟨n, t, rfl⟩ := hstamped
  refine after .applyWait fun state' hstate' => ?_
  rw [hid, WorkflowRun.setStep_setStep, hacc.set]
  refine bind (saveSnapshot (h.drafted (.continued e state' hacc.accepts htype
    (hstate'.trans hstate)) rfl)) fun saved hsaved => ?_
  refine after .publishContinueTask fun _ _ => ?_
  exact bind (markSent hsaved.current) fun _ _ => ends

lemma continueStep (hid : step.id = e.stepID) :
    Sticks o w (o.continueStep step run' e) := by
  refine after .continueState fun carried _ => ?_
  refine after .continueWait fun wait _ => ?_
  split
  · exact failLoopStep h hacc htype rfl fun _ _ => rfl
  refine after .advanceContinue fun x hx => ?_
  rw [hid] at hx
  rcases hx with ⟨s, error, rfl⟩ | rfl
  · exact failLoopStep h hacc htype rfl fun s t => by
      simp [markTerminal, WorkflowRun.setStep]
  · refine after .now fun t _ => after .now fun t' _ => ?_
    dsimp only
    obtain ⟨clock, hclock⟩ := Does.startLoopClock_eq
      ((run'.setStep e.stepID { run'.step e.stepID with
        iterations := (run'.step e.stepID).iterations + 1 }).step e.stepID) t
    rw [hclock]
    split
    · refine failLoopStep h hacc htype rfl fun s t => ?_
      rw [WorkflowRun.setStep_setStep]
    · refine dispatchNextIteration h hacc htype hid ?_
      simp [hacc.step, adopted_status]

end

lemma accepted_of_fenced (htype : fencedEventType e.type = true)
    (halive : e.type ≠ .stepContinue → run.status.isTerminal = false)
    (hplain : e.type ≠ .stepContinue → isMapInstanceID e.stepID = false)
    (h : Fenced o run e run') : Accepted o run e run' := by
  cases h with
  | passed hpass => simp [htype] at hpass
  | accepted _ haccept _ _ hstep hset =>
    exact ⟨⟨htype, haccept, halive, hplain⟩, hstep, hset⟩

lemma handleStepContinue (htype : e.type = .stepContinue) :
    Sticks o w (o.handleStepContinue e) := by
  refine guard fun _ => ?_
  refine bind loadRunAndDef fun ⟨d, run⟩ ⟨hrun, hd⟩ => ?_
  dsimp only
  split
  · exact throw
  · next step hfind =>
    refine after .fenceStepEvent fun r hr => ?_
    cases r with
    | none => exact ends
    | some run' =>
      have hacc : Accepted o run e run' := accepted_of_fenced (by rw [htype]; rfl)
        (fun hne => absurd htype hne) (fun hne => absurd htype hne) (hr run' rfl).2
      exact continueStep (hrun.charge hd) hacc htype (findStepDef_some hfind).2

/-! ## Failure -/

section

variable (h : Charge o w d run) (hacc : Accepted o run e run') (htype : e.type = .stepFailed)
include h hacc htype

lemma dispatchRetry (hstate : state.status = (run.step e.stepID).status) :
    Sticks o w (Dagnats.dispatchRetry (run'.setStep e.stepID s₀) e.stepID state delayMs) := by
  refine after .stampDispatch fun stamped hstamped => ?_
  obtain ⟨n, t, rfl⟩ := hstamped
  refine after .now fun t' _ => ?_
  rw [WorkflowRun.setStep_setStep, hacc.set]
  have hretried : Handled o d run .stepRetry ((run.acting e true).setStep e.stepID
      (markRetryPending (state.stamped n t) t' delayMs)) :=
    .retried e _ hacc.accepts htype hstate
  exact (saveSnapshot (h.drafted hretried rfl)).conseq fun _ _ => trivial

lemma failPermanently (hkind : (parseFailPayload e.payload).failureType ≠ .nonRetriable) :
    Sticks o w (o.failPermanently d (run'.setStep e.stepID s₀) (d.stepDef e.stepID)
      (failing (run.step e.stepID) e) e.stepID) := by
  refine handlePermanentFailure h ?_ rfl
  rw [WorkflowRun.setStep_setStep, hacc.set]
  exact .exhausted hacc.accepts htype hkind

lemma failStep : Sticks o w (o.failStep d run' e) := by
  have hstatus : (failing (run.step e.stepID) e).status = (run.step e.stepID).status :=
    adopted_status _
  unfold Orchestrator.failStep
  rw [hacc.step]
  dsimp only
  split
  · next hkind =>
    refine handlePermanentFailure h ?_ rfl
    have hcopy : advanceFailed d (run'.setStep e.stepID
        { adopted (run.step e.stepID) e with
          attempts := max (adopted (run.step e.stepID) e).attempts 1 }) e.stepID
          (parseFailPayload e.payload).error = resolveSkips d (failedCopy run e) := by
      rw [advanceFailed, WorkflowRun.setStep_setStep, hacc.set, WorkflowRun.step_setStep_self]
      rfl
    rw [hcopy]
    exact .refused hacc.accepts htype hkind
  · next hkind =>
    have hkind : (parseFailPayload e.payload).failureType ≠ .nonRetriable := by
      simp [hkind]
    unfold Orchestrator.handleRetryAfter
    split
    · exact bind (dispatchRetry h hacc htype hstatus) fun _ _ => sticks .scheduleRetry
    · exact failPermanently h hacc htype hkind
  · next hkind =>
    have hkind : (parseFailPayload e.payload).failureType ≠ .nonRetriable := by
      simp [hkind]
    unfold Orchestrator.dispatchRetriableFailure
    split
    · refine bind (dispatchRetry h hacc htype hstatus) fun saved _ => ?_
      exact guard fun _ => guard fun _ => sticks .scheduleRetry
    · exact failPermanently h hacc htype hkind

end

lemma handleStepFailed (htype : e.type = .stepFailed) : Sticks o w (o.handleStepFailed e) := by
  refine guard fun _ => ?_
  refine bind loadRunAndDef fun ⟨d, run⟩ ⟨hrun, hd⟩ => ?_
  have h := hrun.charge hd
  refine alive fun halive => ?_
  refine ite (fun hmap => handleMapInstanceFailed h halive hmap htype) fun hplain => ?_
  refine after .fenceStepEvent fun r hr => ?_
  cases r with
  | none => exact ends
  | some run' =>
    refine failStep h (accepted_of_fenced (by rw [htype]; rfl) (fun _ => halive)
      (fun _ => by simpa using hplain) (hr run' rfl).2) htype

end Catalogued

end Dagnats
