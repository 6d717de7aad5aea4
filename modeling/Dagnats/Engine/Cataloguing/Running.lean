import Dagnats.Engine.Cataloguing.Handling

/-!
# Every write of every engine is in the catalogue

The handlers that remain, the start of runs, the routing of events and the
reconciler; and the theorem: in every reachable world, each write that was made
over a stored run is listed in the catalogue.
-/

namespace Dagnats

open Interaction

variable {o : Orchestrator} {w : World} {d : WorkflowDef} {run : WorkflowRun} {doEnqueue : Bool}
  {log : List Entry} {stepID : String} {K : Terms} {base new : WorkflowRun} {e : Event}
  {runID : String} {site : Site} {v : World} {rev : ℕ} {isRunTerminal : Bool}

namespace Quiet

lemma cascadeCancelChildren : Silent (Orchestrator.cascadeCancelChildren run) := by
  refine fold trivial fun id _ _ _ => ite (fun _ => ends)
    fun _ => bind load.outcome fun r _ => ?_
  cases r with
  | error err => exact ends
  | ok child =>
    exact early fun _ => publishEvent.ignoring

lemma releaseCancelled {d : Option WorkflowDef} : Silent (o.releaseCancelled d run) := by
  refine bind (fold (I := fun _ => True) trivial fun id _ _ _ => ?_)
    fun _ _ => notify.ignoring
  refine early fun _ => ?_
  cases d with
  | some d => exact releaseTaskSlot
  | none => exact notify.ignoring

lemma createEntryIndexes : Silent (Dagnats.createEntryIndexes run) :=
  ite (fun _ => notify) fun _ => ends

lemma registerCancelWaiters : Silent (Dagnats.registerCancelWaiters d run) := by
  refine fold trivial fun entry _ _ _ => ?_
  dsimp only
  split
  · exact panic
  · exact ends
  · exact guard fun _ => (request rfl).ignoring

lemma nestingDepth (n : ℕ) : Silent (Orchestrator.nestingDepth n runID) := by
  induction n generalizing runID with
  | zero => exact ends
  | succ n ih =>
    refine bind load.outcome fun r _ => ?_
    cases r with
    | error err => exact ends
    | ok run =>
      exact early fun _ => bind ih fun _ _ => ends

lemma attemptLength {tm : TimerMessage} {state : StepState} :
    Silent (Dagnats.attemptLength tm state) := by
  unfold Dagnats.attemptLength
  split
  · exact ends
  · exact bind now fun _ _ => ends

lemma fireTimer {tm : TimerMessage} : Silent (Dagnats.fireTimer tm) := by
  have hredispatch : Silent (fireRedispatch tm) := by
    refine guard fun _ => ?_
    have htask : Silent (redispatchTask tm) := by
      refine bind nonceOrMint fun _ _ => ?_
      refine bind load.outcome fun r _ => ?_
      cases r with
      | error err => exact ends
      | ok run => exact early fun _ => ends
    refine bind htask fun r _ => ?_
    cases r with
    | none => exact ends
    | some task => exact (request rfl).ignoring
  unfold Dagnats.fireTimer
  split
  · exact publishEvent.ignoring
  · exact publishEvent.ignoring
  · exact publishEvent.ignoring
  · exact hredispatch
  · exact hredispatch
  · exact hredispatch
  · exact hredispatch
  · refine bind load.outcome fun r _ => ?_
    cases r with
    | error err => exact ends
    | ok run =>
      exact early fun _ => bind attemptLength fun _ _ => publishEvent.ignoring
  · refine bind load.outcome fun r _ => ?_
    cases r with
    | error err => exact ends
    | ok run =>
      exact early fun _ => (request rfl).ignoring
  · exact publishEvent.ignoring

end Quiet

namespace Catalogued

/-! ## Waits, approvals and children -/

section

variable (h : Charge o w d run) (hstep : (run.step stepID).status = .running)
include h hstep

lemma completeRunning {output : Raw}
    (hsite : site = .waitTimeout ∨ site = .approvalGranted ∨ site = .childCompleted) :
    Sticks o w (o.completeRunning d run stepID output site) :=
  finishOrEnqueue h (.awaited site stepID output hsite hstep)

lemma failRunning {error : String} : Sticks o w (o.failRunning d run stepID error) :=
  failWorkflow enqueueReady fun t => h.drafted (.rejected stepID error t hstep) rfl

end

lemma awaiting {c : Prop} [Decidable c] {msg : String} {k : WorkflowDef × WorkflowRun → M Unit}
    (hk : ∀ d run, Charge o w d run → (run.step stepID).status = .running →
      Sticks o w (k (d, run))) :
    Sticks o w (if c then Dagnats.panic msg else (o.loadRunAndDef runID).bind fun x =>
      if (x.2.step stepID).status ≠ .running then Prog.pure () else k x) := by
  refine guard fun _ => bind loadRunAndDef fun ⟨d, run⟩ ⟨hrun, hd⟩ => ?_
  exact early fun hstep => hk d run (hrun.charge hd) (not_not.mp hstep)

lemma handleWaitTimeout : Sticks o w (o.handleWaitTimeout e) :=
  awaiting fun _ _ h hstep => after (Quiet.request rfl).ignoring fun _ _ =>
    completeRunning h hstep (.inl rfl)

lemma handleGranted : Sticks o w (o.handleGranted e) :=
  awaiting fun _ _ h hstep => completeRunning h hstep (.inr (.inl rfl))

lemma handleRejected : Sticks o w (o.handleRejected e) :=
  awaiting fun _ _ h hstep => failRunning h hstep

lemma handleExpired : Sticks o w (o.handleExpired e) :=
  awaiting fun _ _ h hstep => failRunning h hstep

lemma handleChildCompleted : Sticks o w (o.handleChildCompleted e) := by
  refine awaiting fun d run h hstep => ?_
  have houtput : Sticks o w (o.loadChildTerminalOutputs (run.step e.stepID).childRunID) :=
    guard fun _ => bind loadRunAndDef fun _ _ => sticks .ofFault
  exact bind houtput fun _ _ => completeRunning h hstep (.inr (.inr rfl))

lemma handleChildFailed : Sticks o w (o.handleChildFailed e) := by
  refine awaiting fun d run h hstep => ?_
  split
  · exact throw
  · exact failRunning h hstep

lemma wakeStep {step : StepDef} {input : Bool} (h : Current w run) :
    Sticks o w (o.wakeStep run step input) := by
  refine guard fun hwaiting => ?_
  refine bind (saveSnapshot (h.drafted (.noted (.woken step.id input)) rfl)) fun saved hsaved => ?_
  refine after .publishIterationNow fun _ _ => ?_
  exact bind (markSent hsaved.current) fun _ _ => ends

lemma handleInputQueued : Sticks o w (o.handleInputQueued e) := by
  refine guard fun _ => loadRunAndDef.either (fun _ => ends) fun x hr => ?_
  have hrun := hr.1.current
  dsimp only
  split
  · exact ends
  · refine early fun _ => ite (fun _ => sticks Quiet.notify.ignoring) fun _ =>
        ite (fun _ => wakeStep hrun) fun _ => early fun _ => ?_
    exact bind (saveSnapshot (hrun.books rfl (.setStep rfl) rfl hrun.recording)) fun _ _ => ends

lemma handleWaitElapsed : Sticks o w (o.handleWaitElapsed e) := by
  refine guard fun _ => loadRunAndDef.either (fun _ => ends) fun x hr => ?_
  dsimp only
  split
  · exact ends
  · exact early fun _ => wakeStep hr.1.current

lemma cancelRun {d : Option WorkflowDef} (h : Current w run)
    (hstatus : run.status = .running) : Sticks o w (o.cancelRun d run) := by
  refine after .releaseCancelled fun _ _ => ?_
  refine after (Quiet.request rfl).ignoring fun _ _ => ?_
  refine after .cascadeCancelChildren fun _ _ => ?_
  refine after .deleteBinding fun _ _ => ?_
  refine bind (finalizeRun (fun t => h.drafted (.noted (.cancelled t hstatus)) rfl)
    (releaseAdmission enqueueReady)) fun _ _ => ?_
  exact after Quiet.notify.ignoring fun _ _ => sticks .notifyParentIfChild

lemma handleWorkflowCancelled : Sticks o w (o.handleWorkflowCancelled e) := by
  refine bind load fun run hrun => early fun hstatus => ?_
  refine bind loadPinnedOrLatestDef.outcome fun r _ => ?_
  cases r with
  | ok d => exact cancelRun hrun.current (not_not.mp hstatus)
  | error err =>
    exact ite (fun _ => cancelRun hrun.current (not_not.mp hstatus)) fun _ => throw

/-! ## Starting a run -/

lemma finalizeFresh {status : RunStatus} (h : run.revision = none) :
    Sticks o w (Dagnats.finalizeFresh run status) := by
  refine bind (finalizeRun (fun t rev hrev => ?_) (ends)) fun _ _ => ends
  exact absurd (h.symm.trans hrev) (by simp)

lemma persistFailedStartRun {workflowID : String} :
    Sticks o w (Dagnats.persistFailedStartRun runID workflowID) :=
  after .now fun _ _ => ignoring (finalizeFresh rfl)

section

variable (hwrote : Wrote w.log rev (World.persisted run))
include hwrote

lemma treats_created (hvalid : Valid o d)
    (hhash : run.defHash = o.defHash d) (hdyn : run.dynamicSteps = []) :
    Treats o w run.runID d := by
  have heq : effectiveDef d (World.persisted run) = d := by
    simp [effectiveDef, World.persisted, hdyn]
  have hdrawn := drawn_effective d (World.persisted run)
  rw [heq] at hdrawn
  exact .drawn rev _ d hwrote rfl ⟨hvalid, .inl hhash.symm⟩ hdrawn

lemma current_created :
    Current w { run with revision := some rev, recording := none } := by
  refine ⟨rfl, fun rev' hrev => ?_⟩
  cases hrev
  exact ⟨_, hwrote, (Alike.persisted run).symm.trans (.recorded run (some rev))⟩

end

section

variable (hvalid : Valid o d) (hhash : run.defHash = o.defHash d) (hdyn : run.dynamicSteps = [])
include hvalid hhash hdyn

lemma saveInitialSnapshot :
    Catalogued o w (Dagnats.saveInitialSnapshot site run) fun saved => Current w saved ∧
    Treats o w saved.runID d := by
  refine bind (request (fun _ _ _ h => nomatch h) fun rev hrev => hrev rev rfl)
    fun rev hrev => after .createEntryIndexes fun _ _ => ?_
  have htreats : Treats o w run.runID d := treats_created hrev hvalid hhash hdyn
  exact pure ⟨current_created hrev, htreats⟩

lemma createSnapshot :
    Catalogued o w (Dagnats.createSnapshot site run) fun r => ∀ saved, r = some saved →
    Current w saved ∧ Treats o w saved.runID d := by
  have hcreate : Catalogued o w (Dagnats.request (.create site run)) fun r =>
      ∀ rev, r = some rev → Wrote w.log rev (World.persisted run) :=
    request (fun _ _ _ h => nomatch h) fun r hr rev hrev => hr rev (congrArg _ hrev)
  refine bind hcreate fun r hr => ?_
  cases r with
  | none => exact pure fun saved h => nomatch h
  | some rev =>
    refine after .createEntryIndexes fun _ _ => pure fun saved hsaved => ?_
    cases hsaved
    have htreats : Treats o w run.runID d := treats_created (hr rev rfl) hvalid hhash hdyn
    exact ⟨current_created (hr rev rfl), htreats⟩

end

lemma dispatchNewRun (h : Current w run) (hd : Treats o w run.runID d) :
    Sticks o w (o.dispatchNewRun d run doEnqueue) :=
  early fun _ => bind (enqueueReady d run h hd) fun _ _ =>
    sticks .registerCancelWaiters

lemma healRun (hrun : Loaded w runID run) : Sticks o w (o.healRun run) := by
  refine early fun _ => bind loadPinnedOrLatestDef fun d hd => ?_
  have hcharge := hrun.charge (o := o) ⟨d, hd, rfl⟩
  exact bind (enqueueReady _ run hcharge.current hcharge.treats) fun _ _ =>
    sticks .registerCancelWaiters

lemma createOrHealRun (h : Fresh run) (hvalid : Valid o d) (hhash : run.defHash = o.defHash d) :
    Sticks o w (o.createOrHealRun isRunTerminal d run doEnqueue) := by
  refine ite (fun _ => ?_) fun _ => ?_
  · exact bind (saveInitialSnapshot hvalid hhash h.dynamicSteps) fun run' hrun' =>
      dispatchNewRun hrun'.1 hrun'.2
  · refine bind (createSnapshot hvalid hhash h.dynamicSteps) fun r hr => ?_
    cases r with
    | some run' => exact dispatchNewRun (hr run' rfl).1 (hr run' rfl).2
    | none => exact early fun _ => bind load fun _ hrun => healRun hrun

lemma startExistingRun : Sticks o w (o.startExistingRun runID isRunTerminal) := by
  refine bind load.outcome fun r hr => ?_
  split
  · next existing =>
    have hready : Sticks o w (o.hasReadyPendingSteps existing) :=
      early fun _ =>
        bind loadPinnedOrLatestDef fun _ _ => ends
    refine bind hready fun stranded _ => ite (fun _ => ?_) fun _ => ends
    exact bind (healRun (hr existing rfl)) fun _ _ => ends
  · exact ends
  · exact throw

lemma resolveStartPayload : Sticks o w (Orchestrator.resolveStartPayload e) := by
  have hload : ∀ workflowID, Sticks o w (Orchestrator.loadDefOrFail e.runID workflowID) := by
    intro workflowID
    refine bind loadDef.outcome fun r _ => ?_
    cases r with
    | ok d => exact ends
    | error err => exact bind persistFailedStartRun fun _ _ => throw
  unfold Orchestrator.resolveStartPayload
  split
  · exact throw
  · exact ends
  · exact bind (hload _) fun _ _ => ends
  · exact bind (hload _) fun _ _ => ends
  · exact ends

lemma rejectInvalidStart {input : Raw} :
    Catalogued o w (o.rejectInvalidStart runID d input) fun refused => refused = false →
    Valid o d := by
  unfold Orchestrator.rejectInvalidStart
  split
  · exact panic
  · exact bind persistFailedStartRun fun _ _ => pure fun h => nomatch h
  · next hvalid =>
    refine ite (fun _ => pure fun _ => hvalid) fun _ => ?_
    exact after .now fun _ _ => bind (ignoring (finalizeFresh rfl)) fun _ _ => throw

lemma announced {c : Prop} [Decidable c] {k : M Unit} (h : Sticks o w k) :
    Sticks o w (if c then (Dagnats.publishEvent e).bind fun _ => k else k) :=
  ite (fun _ => after .publishEvent fun _ _ => h) fun _ => h

lemma startAdmitted {admission : AdmissionResult} (h : Fresh run) (hvalid : Valid o d)
    (hhash : run.defHash = o.defHash d) :
    Sticks o w (o.startAdmitted isRunTerminal d run admission) := by
  apply announced
  split
  · exact guard fun _ => finalizeFresh h.revision
  · exact createOrHealRun ⟨h.steps, rfl, h.completedAt, h.dynamicSteps,
      h.revision, h.recording⟩ hvalid hhash
  · refine after .now fun _ _ => ?_
    exact createOrHealRun ⟨h.steps, rfl, h.completedAt, h.dynamicSteps,
      h.revision, h.recording⟩ hvalid hhash

lemma handleWorkflowStarted : Sticks o w (o.handleWorkflowStarted e) := by
  refine bind startExistingRun fun existing _ => early fun _ => ?_
  refine bind resolveStartPayload.outcome fun r _ => ?_
  split
  · exact ends
  · exact throw
  · next d input depth _ =>
    refine bind rejectInvalidStart fun refused hvalid => ?_
    refine early fun hrefused => ?_
    refine after .now fun time _ => ?_
    have hfresh := fresh_newWorkflowRun d e.runID (o.defHash d) time
    have hstart : Fresh { newWorkflowRun d e.runID (o.defHash d) time with
        rootRunID := e.runID, input := input, triggerDepth := depth } :=
      ⟨hfresh.steps, rfl, rfl, rfl, rfl, rfl⟩
    refine after Quiet.admitRun.outcome fun r _ => ?_
    split
    · exact finalizeFresh rfl
    · exact throw
    · exact startAdmitted hstart (hvalid (by simpa using hrefused)) rfl

lemma inheritParentLineage {child : WorkflowRun} {parentRunID parentStepID : String}
    {detach : Bool} :
    Catalogued o w (Orchestrator.inheritParentLineage child parentRunID parentStepID
      detach) fun child' => child'.defHash = child.defHash ∧
        child'.dynamicSteps = child.dynamicSteps := by
  refine bind load.outcome fun r _ => ?_
  split
  · exact pure ⟨rfl, rfl⟩
  · exact pure ⟨rfl, rfl⟩
  · exact throw

section

variable (hmem : .event e ∈ w.log) (htype : e.type = .workflowSpawn)
include hmem htype

lemma createChildRun {p : Orchestrator.SpawnPayload} (hp : Orchestrator.decodeSpawn e.payload = some
    p) :
    Sticks o w (o.createChildRun e.runID p) := by
  refine guard fun _ => bind loadDef fun d hd => ?_
  refine bind load.outcome fun r hr => ?_
  split
  · next existing =>
    refine guard fun _ => early fun _ => ?_
    have hrun := hr existing rfl
    exact enqueueReady d existing hrun.current (.healed e p hmem htype hp hrun.runID.symm hd.1 hd.2)
  · refine after .now fun time _ => ?_
    refine bind inheritParentLineage fun child hchild => ?_
    refine bind (saveInitialSnapshot hd.2 hchild.1 hchild.2) fun run hrun => ?_
    exact enqueueReady d run hrun.1 hrun.2
  · exact throw

lemma handleWorkflowSpawn :
    Sticks o w (o.handleWorkflowSpawn e) := by
  unfold Orchestrator.handleWorkflowSpawn
  split
  · exact throw
  · next p hp =>
    refine guard fun _ => after (Quiet.nestingDepth _) fun _ _ => ?_
    exact guard fun _ => createChildRun hmem htype hp

end

/-! ## Routing and timers -/

lemma resendUnsent (h : Current w run) : Sticks o w (o.resendUnsent run) := by
  refine early fun _ => bind loadPinnedOrLatestDef fun d _ => ?_
  refine after .planResend fun plan _ => ?_
  refine after .sendPlan fun ⟨sent, sendErr⟩ _ => ?_
  refine (markSent h).either (fun _ => throw) fun run' _ => ?_
  cases sendErr with
  | some err => exact throw
  | none => exact ends

section

variable (hmem : .event e ∈ w.log)
include hmem

lemma routeEvent : Sticks o w (o.routeEvent e) := by
  unfold Orchestrator.routeEvent
  split
  · exact handleWorkflowStarted
  · next h => exact handleStepCompleted (by rw [h]; rfl)
  · next h => exact handleStepCompleted (by rw [h]; rfl)
  · next h => exact handleStepCompleted (by rw [h]; rfl)
  · exact handleWaitTimeout
  · next h => exact handleStepContinue h
  · next h => exact handleStepFailed h
  · next h => exact handleStepStarted h
  · next h => exact handleStepQueued h
  · next h => exact handleWorkflowSpawn hmem h
  · exact handleChildCompleted
  · exact handleChildFailed
  · exact handleWorkflowCancelled
  · exact handleGranted
  · exact handleRejected
  · exact handleExpired
  · exact handleInputQueued
  · exact handleWaitElapsed
  · exact ends

lemma dispatchBody : Sticks o w (o.dispatchBody e) := by
  refine load.either (fun _ => routeEvent hmem) fun run _ => ?_
  refine after .now fun t _ => ?_
  refine ite (fun _ => handleWorkflowCancelled) fun _ => ?_
  refine bind (routeEvent hmem) fun _ _ => ite (fun _ => ?_) fun _ => ends
  exact bind load fun run hrun => resendUnsent hrun.current

lemma handleEvent : Sticks o w (o.handleEvent e) := by
  have hdisp : Sticks o w (o.dispatchEvent e) := by
    have hbody : Sticks o w (Prog.attempt (fun _ => true) (o.dispatchBody e)) :=
      Prog.Within.attempt (dispatchBody hmem) (fun _ _ => trivial) (fun _ _ => trivial)
        fun _ _ => trivial
    refine bind hbody fun r _ => ?_
    split
    · exact ends
    · exact throw
    · exact throw
  have hrounds : ∀ n, Sticks o w (o.handleEventRounds e n) := by
    intro n
    induction n with
    | zero => exact throw
    | succ n ih =>
      refine bind hdisp.outcome fun r _ => ?_
      split
      · exact ends
      · exact ih
      · exact throw
  exact hrounds _

end

/-! ## Reconciler -/

lemma reconcileOneRun : Sticks o w (o.reconcileOneRun runID) := by
  refine bind loadRunAndDef fun ⟨d, run⟩ ⟨hrun, hd⟩ => ?_
  have h := hrun.charge hd
  refine early fun hstatus =>
    ite (fun _ => resendUnsent h.current) fun _ => ite (fun hdone => ?_) fun _ =>
      early fun _ => ?_
  · exact completeWorkflow enqueueReady fun new hnew =>
      h.current.drafted (.resolved d h.treats (.closed new hdone hnew)) (closes_revision hnew)
  · exact failWorkflow enqueueReady fun t => h.drafted (.wedged t (not_not.mp hstatus)) rfl

lemma reconcileReleasePendingRun : Sticks o w (o.reconcileReleasePendingRun runID) := by
  refine bind load fun run hrun => ite (fun _ => ?_) fun _ => ends
  have hbooks : ∀ site pending attempts, keepsBooks site = true →
      Drafted o w site { run with releasePending := pending, releaseAttempts := attempts } :=
    fun site pending attempts hsite => hrun.current.books hsite
      ⟨rfl, rfl, rfl, rfl, rfl, rfl, fun _ => rfl⟩ rfl hrun.recording
  refine bind (releaseAdmission enqueueReady).outcome fun r _ => ?_
  cases r with
  | ok a =>
    exact bind (saveSnapshot (hbooks .releaseDone false 0 rfl)) fun _ _ =>
      sticks Quiet.notify.ignoring
  | error err =>
    exact bind (saveSnapshot (hbooks .releaseRetry _ _ rfl)) fun _ _ =>
      ite (fun _ => sticks Quiet.notify.ignoring) fun _ => ends

lemma startJob {j : Job} {p : M Unit} (hlog : v.log <:+ w.log) (h : o.startJob v j = some p) :
    Sticks o w p := by
  cases j with
  | handle i =>
    simp only [Orchestrator.startJob] at h
    split at h
    · next e hat =>
      cases h
      exact handleEvent (hlog.subset (At.of_getElem? hat).mem)
    · cases h
  | fire i =>
    simp only [Orchestrator.startJob] at h
    split at h
    · cases h
      exact sticks .fireTimer
    · cases h
  | reconcile runID =>
    cases h
    exact reconcileOneRun
  | release runID =>
    cases h
    exact reconcileReleasePendingRun

end Catalogued

/-! ## The log holds nothing else -/

lemma World.exec_fits {u : World} {op : Call} {c : Choice} {a : Answer op} (hlog : LogOk o K u.log)
    (h : u.exec op c = some (a, v)) (hv : v.log <:+ w.log) : Fits o w op a := by
  refine ⟨World.exec_conceivable h, ?_⟩
  cases op
  case load runID =>
    rintro run rfl
    obtain ⟨rfl, hread⟩ := World.read_cases h
    obtain ⟨rev, stored, hlatest, rfl⟩ := hread run rfl
    obtain ⟨hwrote, hid⟩ := World.latestIn_wrote hlatest
    exact ⟨rev, stored, hwrote.mono hv, hid, rfl⟩
  case put site run =>
    rintro rev rfl
    obtain ⟨rfl, rfl⟩ := World.commit_ok h
    exact ⟨site, none, (At.head u.log _).mono hv⟩
  case create site run =>
    rintro rev rfl
    rcases World.writeNew_cases h with ⟨-, hno⟩ | ⟨-, rfl, hrev⟩
    · exact absurd rfl (hno rev)
    · rw [hrev rev rfl]
      exact ⟨site, none, (At.head u.log _).mono hv⟩
  case update site run prior =>
    rintro rev rfl
    rcases World.compareAndSet_cases h with ⟨-, hno⟩ | ⟨_, -, rfl, hrev⟩
    · exact absurd rfl (hno rev)
    · rw [hrev rev rfl]
      exact ⟨site, some prior, (At.head u.log _).mono hv⟩
  case getDef key =>
    rintro d rfl
    obtain ⟨rfl, hmem⟩ := World.readDef_cases h
    exact ⟨hv.subset (hmem d rfl), (Does.stored_of_mem hlog (hmem d rfl)).valid⟩
  all_goals trivial

/-- The terms `K`, and the writes over stored runs are in the catalogue of
`w`. -/
def Terms.exactly (o : Orchestrator) (w : World) (K : Terms) : Terms where
  engine log e := K.engine log e ∧ ∀ site rev new base, e = .snapshot site (some rev) new →
    World.latestIn new.runID log = some (rev, base) → Exact o w site base new
  outside := K.outside

lemma Terms.exactly_conditions {q : Pool o.system} {a : Act o.system}
    (h : Pool.Meets ((K.conditions o).calls (fun u => u.log <:+ w.log) (Sanctioned o w)) q a) :
    Pool.Meets ((K.exactly o w).conditions o) q a := by
  cases a with
  | start j | drop i => trivial
  | ext m => cases m <;> exact h
  | step i c =>
    intro op hop e happends
    obtain ⟨hcall, hsuffix, hsanctioned⟩ := h op hop
    refine ⟨hcall e happends, ?_⟩
    rintro site rev new base rfl hlatest
    obtain ⟨base', hwrote, hexact⟩ := hsanctioned site rev new happends.write
    have hbase := (World.latestIn_wrote hlatest).1.mono hsuffix
    exact hwrote.unique hbase ▸ hexact

/-- Every write over a stored run is in the catalogue. -/
lemma reaches_exactly {p : Pool o.system} (h : Pool.Reaches (K.conditions o) (emptyPool o) p) :
    LogOk o (K.exactly o p.state) p.state.log := by
  have hcalls := (h.within (F := fun u => u.log <:+ p.state.log) (B := Fits o p.state)
    (P := Sanctioned o p.state) rfl
    (fun hexec hsuffix => (World.exec_grows hexec).1.trans hsuffix)
    (fun hmove hsuffix => (Orchestrator.move_grows hmove).1.trans hsuffix)
    (fun hreach hexec hsuffix => World.exec_fits (reaches_logOk hreach) hexec hsuffix)
    (fun hjob hsuffix => Prog.Within.conseq (Catalogued.startJob hsuffix hjob)
      fun _ _ => trivial) (List.suffix_refl _)).1
  exact reaches_logOk (hcalls.mono fun q a => Terms.exactly_conditions)

lemma Treats.mono {d : WorkflowDef} (h : Treats o v runID d) (hlog : v.log <:+ w.log) :
    Treats o w runID d := by
  cases h with
  | drawn rev stored d0 hwrote hid hpinned hdrawn =>
    exact .drawn rev stored d0 (hwrote.mono hlog) hid hpinned hdrawn
  | healed e p hmem htype hdecode hid hdef hvalid =>
    exact .healed e p (hlog.subset hmem) htype hdecode hid (hlog.subset hdef) hvalid

lemma Exact.mono (h : Exact o v site base new) (hlog : v.log <:+ w.log) :
    Exact o w site base new := by
  obtain ⟨run, edited, hlike, hrec, hauthored, hrest⟩ := h
  refine ⟨run, edited, hlike, hrec, ?_, hrest⟩
  cases hauthored with
  | noted hnoted => exact .noted hnoted
  | resolved d htreats hres => exact .resolved d (htreats.mono hlog) hres
  | handled d heff hhandled => exact .handled d heff hhandled

/-- The terms `K`, and every write over a stored run is in the catalogue of the
world that it makes. -/
def Terms.catalogued (o : Orchestrator) (K : Terms) : Terms where
  engine log e := K.engine log e ∧ ∀ site rev new base, e = .snapshot site (some rev) new →
    World.latestIn new.runID log = some (rev, base) → Exact o { log := e :: log } site base new
  outside := K.outside

lemma LogOk.catalogued_cons {e : Entry} (h : LogOk o (K.catalogued o) log)
    (hlast : LogOk o (K.exactly o w) (e :: log))
    (hlog : w.log = e :: log ∨ ∀ site prior run, e ≠ .snapshot site prior run) :
    LogOk o (K.catalogued o) (e :: log) := by
  refine h.cons (hlast.head.imp (fun ⟨hok, hengine, hexact⟩ => ⟨hok, hengine, ?_⟩) id)
  rintro site rev new base rfl hlatest
  rcases hlog with hlog | hother
  · exact (hexact site rev new base rfl hlatest).mono (by rw [hlog])
  · exact (hother _ _ _ rfl).elim

/-- Every write over a stored run was in the catalogue when it was made. -/
lemma reaches_catalogued {p : Pool o.system} (h : Pool.Reaches (K.conditions o) (emptyPool o) p) :
    LogOk o (K.catalogued o) p.state.log := by
  induction h with
  | refl => exact .nil
  | @tail q r a hreach hmeets hact ih =>
    have hlast := reaches_exactly (hreach.tail a hmeets hact)
    rcases Pool.act_cases hact with
      ⟨j, prog, rfl, hj, rfl⟩ | ⟨i, c, j, op, k, b, t, rfl, hthread, hexec, rfl⟩ |
      ⟨i, rfl, rfl⟩ | ⟨m, t, rfl, hmove, rfl⟩
    · exact ih
    · rcases World.exec_cases hexec with rfl | ⟨e, -, rfl⟩
      · exact ih
      · exact ih.catalogued_cons hlast (.inl rfl)
    · exact ih
    · cases m with
      | tick d =>
        cases hmove
        exact ih
      | publish e =>
        cases hmove
        exact ih.catalogued_cons hlast (.inl rfl)
      | register d =>
        simp only [Orchestrator.system, Orchestrator.move] at hmove
        split at hmove
        · cases hmove
          have hversion : LogOk o (K.catalogued o)
              (.definition (.version d.name (o.defHash d)) d :: q.state.log) :=
            ih.catalogued_cons (History.tail hlast) (.inr (by simp))
          exact hversion.catalogued_cons hlast (.inr (by simp))
        · cases hmove

end Dagnats
