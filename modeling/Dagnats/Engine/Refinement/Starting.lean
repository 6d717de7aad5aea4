import Dagnats.Engine.Refinement.Handling

/-!
# Starting runs keeps the contract

The writes that do not look at what is stored: the first snapshot of a run, of
a chained run and of a child, and the record of a run that was refused.
-/

namespace Dagnats

open Interaction

variable {o : Orchestrator} {K : Terms} {w t : World} {doEnqueue : Bool} {log : List Entry}
  {status : RunStatus} {s : StepState} {name parentRunID workflowID : String} {run : WorkflowRun}
  {d : WorkflowDef} {runID : String} {site : Site} {isRunTerminal : Bool} {e : Event}

/-- A run that no one has stored, without a dispatched step. -/
structure Fresh (run : WorkflowRun) : Prop where
  steps : ∀ id, Untouched (run.step id)
  alive : run.status.isTerminal = false
  completedAt : run.completedAt = none
  dynamicSteps : run.dynamicSteps = []
  revision : run.revision = none
  recording : run.recording = none

lemma Untouched.hasInputs (h : Untouched s) : s.hasInputs = false := by
  obtain ⟨error, completedAt, rfl | rfl⟩ := h <;> rfl

lemma Untouched.stampTerminal (h : Untouched s) (time : Time) :
    Untouched (s.stampTerminal time) := by
  obtain ⟨error, completedAt, rfl | rfl⟩ := h
  · exact ⟨error, completedAt, .inl (by simp [StepState.stampTerminal])⟩
  · unfold StepState.stampTerminal
    split
    · exact ⟨error, some time, .inr rfl⟩
    · exact ⟨error, completedAt, .inr rfl⟩

lemma step_newWorkflowRun (d : WorkflowDef) (runID defHash id : String)
    (time : Time) : (newWorkflowRun d runID defHash time).step id = {} := by
  have hfold : ∀ (steps : List StepDef) (table : Table String StepState),
      ((table.find? id).getD {} = {}) →
        ((steps.foldl (fun t s => t.set s.id {}) table).find? id).getD {} = ({} : StepState) := by
    intro steps
    induction steps with
    | nil => exact fun _ h => h
    | cons s steps ih =>
      intro table htable
      refine ih _ ?_
      rw [Table.find?_set]
      split
      · rfl
      · exact htable
  exact hfold d.steps .empty rfl

lemma fresh_newWorkflowRun (d : WorkflowDef) (runID defHash : String)
    (time : Time) : Fresh (newWorkflowRun d runID defHash time) where
  steps id := ⟨"", none, .inl (step_newWorkflowRun d runID defHash id time)⟩
  alive := rfl
  completedAt := rfl
  dynamicSteps := rfl
  revision := rfl
  recording := rfl

lemma Fresh.refused (h : Fresh run) (entry reason : String) :
    Fresh (refusedRun run entry reason) where
  steps id := by
    unfold refusedRun WorkflowRun.step
    dsimp only
    rw [Table.find?_set]
    split
    · exact ⟨reason, none, .inr rfl⟩
    · exact ⟨"", none, .inl rfl⟩
  alive := h.alive
  completedAt := h.completedAt
  dynamicSteps := h.dynamicSteps
  revision := h.revision
  recording := h.recording

lemma Fresh.refuse (h : Fresh run) (hstatus : status.isTerminal = true) (time time' : Time) :
    CreateOk o .finalize (World.persisted
      (stampTerminalSteps (markTerminal run status time) time')) where
  place := .inr (.inr (.inr rfl))
  steps id := by
    have hstep := step_stampTerminalSteps (markTerminal run status time) time' id
    exact hstep ▸ (h.steps id).stampTerminal time'
  status := ⟨fun _ => rfl, fun _ => hstatus⟩
  completedAt := ⟨fun _ => rfl, fun _ => rfl⟩
  pinned hne := absurd rfl hne
  dynamicSteps := h.dynamicSteps
  recording := h.recording

lemma Fresh.create (h : Fresh run) (hvalid : Valid o d) (hhash : run.defHash = o.defHash d)
    (hsite : site = .initial ∨ site = .chainInitial ∨ site = .childInitial) :
    CreateOk o site (World.persisted run) where
  place := hsite.imp id fun h => h.imp id .inl
  steps := h.steps
  status := by
    rcases hsite with rfl | rfl | rfl <;> simp [World.persisted, h.alive]
  completedAt := by
    rcases hsite with rfl | rfl | rfl <;> simp [World.persisted, h.completedAt]
  pinned _ := ⟨d, hvalid, .inl hhash.symm⟩
  dynamicSteps := h.dynamicSteps
  recording := h.recording

lemma Stored.dispatchDef (h : Stored o log name d) : DispatchDef o log runID d :=
  .inl ⟨h.valid, h.inPlay⟩

/-- The run was made from this definition and admitted. -/
structure Sources (o : Orchestrator) (log : List Entry) (d : WorkflowDef)
    (run : WorkflowRun) : Prop where
  stored : Stored o log d.name d
  workflowID : run.workflowID = d.name
  hash : run.defHash = o.defHash d
  slot : run.status = .running → SlotGranted o log d run.runID
  lock : run.singletonKey ≠ "" → run.runID ≠ "" ∧ HadLock log run.singletonKey run.runID

lemma Sources.introduced (h : Sources o log d run) (site : Site) :
    Introduced o log site (World.persisted run) :=
  ⟨fun _ => ⟨d, ⟨h.stored.valid, h.workflowID.symm, h.stored.inPlay⟩, h.hash,
    fun _ => h.slot⟩, h.lock⟩

namespace Does

/-! ## Refused starts -/

lemma sweepNothing (h : ∀ id, (run.step id).hasInputs = false) :
    Does o K w (Dagnats.sweepInputs run) fun swept _ => swept = [] := by
  refine fold (fun _ _ _ _ h => h) rfl fun id _ swept t _ _ hswept => ?_
  refine ite (fun hinputs => ?_) fun _ => pure fun _ _ => hswept
  simp [h id] at hinputs

lemma saveFresh (hrev : run.revision = none) (hquiet : ∀ id, (run.step id).hasInputs = false)
    (hcreate : ∀ time, CreateOk o .finalize (World.persisted (stampTerminalSteps run time)))
    (hkey : run.singletonKey = "") : Keeps o K w (Dagnats.saveSnapshot .finalize run) := by
  refine bind now fun time t _ _ _ => ?_
  have hsave : Does o K t (Dagnats.save .finalize (stampTerminalSteps run time))
      fun saved _ => ∀ id, (saved.step id).hasInputs = false := by
    have hnone : (stampTerminalSteps run time).revision = none := hrev
    unfold Dagnats.save
    rw [hnone]
    have hintro : Introduced o t.log .finalize (World.persisted (stampTerminalSteps run time)) :=
      ⟨fun hne => absurd rfl hne, fun hne => absurd hkey hne⟩
    refine bind (put (hcreate time) hintro) fun _ u _ _ _ => pure fun _ _ id => ?_
    obtain ⟨c, b, hstep⟩ := (kin_stampTerminalSteps run time).step id
    have hstamped := step_stampTerminalSteps run time id
    refine (congrArg StepState.hasInputs hstamped).trans ?_
    rw [StepState.stampTerminal]
    split <;> exact hquiet id
  refine bind hsave fun saved u _ _ hsaved => ?_
  refine bind (sweepNothing hsaved) fun swept v _ _ hswept => ?_
  subst hswept
  exact ends

lemma finalizeFresh (h : Fresh run) (hkey : run.singletonKey = "")
    (hstatus : status.isTerminal = true) : Keeps o K w (Dagnats.finalizeFresh run status) := by
  have hfinal : Keeps o K w (Dagnats.finalizeRun run status (Prog.pure ())) := by
    refine early fun _ => ?_
    refine bind now fun time t _ _ _ => ?_
    refine bind (saveFresh h.revision (fun id => (h.steps id).hasInputs)
      (h.refuse hstatus time) hkey) fun run' u _ _ _ => ?_
    have hafter : Does o K u (Dagnats.outcome (Prog.pure ()))
        fun r _ => r = .ok () := pure fun _ _ => rfl
    refine bind hafter fun r v _ _ hr => ?_
    subst hr
    refine bind (ignoring notify) fun _ x _ _ _ => ?_
    refine bind publishHistoryTerminalEvent fun _ y _ _ _ => ?_
    exact bind (ignoring notify) fun _ _ _ _ _ => ends
  exact bind hfinal fun _ _ _ _ _ => ends

lemma persistFailedStartRun : Keeps o K w (Dagnats.persistFailedStartRun runID workflowID) := by
  refine bind now fun time t _ _ _ => ignoring (finalizeFresh ?_ rfl rfl)
  exact ⟨fun _ => ⟨"", none, .inl rfl⟩, rfl, rfl, rfl, rfl, rfl⟩

lemma persistSkippedRun {skippedBy : String} (h : Fresh run) :
    Keeps o K w (Dagnats.persistSkippedRun run skippedBy) :=
  guard fun _ => finalizeFresh (h.refused _ _) rfl rfl

lemma persistAdmissionFailedRun (h : Fresh run) :
    Keeps o K w (Dagnats.persistAdmissionFailedRun run) :=
  finalizeFresh (h.refused _ _) rfl rfl

/-! ## Creating and healing -/

lemma createEntryIndexes : Keeps o K w (Dagnats.createEntryIndexes run) :=
  ite (fun _ => notify) fun _ => ends

lemma held_created {rev : ℕ} (h : Wrote w.log rev (World.persisted run)) :
    Held o w { run with revision := some rev, recording := none } := by
  have hheld : Held o w (World.received rev (World.persisted run)) := held_received h
  exact hheld

section

variable (h : CreateOk o site (World.persisted run))
  (hintro : Introduced o w.log site (World.persisted run))
include h hintro

lemma saveInitialSnapshot :
    Does o K w (Dagnats.saveInitialSnapshot site run) fun saved t => Held o t saved ∧
    saved.runID = run.runID := by
  refine bind (put h hintro) fun rev t _ _ hwrote => ?_
  refine bind createEntryIndexes fun _ u _ htu _ => pure fun v huv => ⟨?_, rfl⟩
  exact held_created (hwrote.mono (htu.trans huv).1)

lemma createSnapshot : Does o K w (Dagnats.createSnapshot site run) fun saved t => ∀ run', saved =
    some run' → Held o t run' ∧ run'.runID = run.runID := by
  refine bind (create h hintro) fun rev t _ _ hwrote => ?_
  cases rev with
  | none => exact pure fun _ _ run' hrun' => nomatch hrun'
  | some n =>
    refine bind createEntryIndexes fun _ u _ htu _ => pure fun v huv run' hrun' => ?_
    cases hrun'
    exact ⟨held_created ((hwrote n rfl).mono (htu.trans huv).1), rfl⟩

end

lemma registerCancelWaiters : Keeps o K w (Dagnats.registerCancelWaiters d run) := by
  refine foldKeeps fun entry _ _ t _ _ => ?_
  dsimp only
  split
  · exact panic
  · exact ends
  · exact guard fun _ => waiter.ignoring

lemma dispatchNewRun (h : Held o w run) (hstored : Stored o w.log name d) :
    Keeps o K w (o.dispatchNewRun d run doEnqueue) := by
  refine early fun _ => ?_
  exact bind (enqueueReady w d run h hstored.dispatchDef) fun _ _ _ _ _ => registerCancelWaiters

lemma healRun (hrun : Loaded w runID run) : Keeps o K w (o.healRun run) := by
  refine early fun _ => ?_
  refine bind loadPinnedOrLatestDef fun d t _ hwt hd => ?_
  have hd' : Sourced o t.log run (effectiveDef d run) := ⟨d, hd.1, hd.2, rfl⟩
  refine bind (enqueueReady t _ run (hrun.mono hwt).held ?_) fun _ _ _ _ _ => registerCancelWaiters
  exact hrun.runID ▸ hd'.dispatchDef (hrun.mono hwt)

lemma createOrHealRun (h : Fresh run) (hsource : Sources o w.log d run) :
    Keeps o K w (o.createOrHealRun isRunTerminal d run doEnqueue) := by
  have hvalid := hsource.stored.valid
  refine ite (fun _ => ?_) fun _ => ?_
  · refine bind (saveInitialSnapshot (h.create hvalid hsource.hash (.inl rfl))
      (hsource.introduced _)) fun run' t _ hwt hrun' => ?_
    exact dispatchNewRun hrun'.1 (hsource.stored.mono hwt.1)
  · refine bind (createSnapshot (h.create hvalid hsource.hash (.inr (.inl rfl)))
      (hsource.introduced _)) fun r t _ hwt hr => ?_
    cases r with
    | some run' => exact dispatchNewRun (hr run' rfl).1 (hsource.stored.mono hwt.1)
    | none =>
      refine early fun _ => ?_
      exact bind load fun existing u _ _ hexisting => healRun hexisting

lemma hasReadyPendingSteps : Keeps o K w (o.hasReadyPendingSteps run) :=
  early fun _ =>
    bind loadPinnedOrLatestDef fun _ _ _ _ _ => ends

lemma startExistingRun : Keeps o K w (o.startExistingRun runID isRunTerminal) := by
  refine bind load.outcome fun r t _ _ hr => ?_
  split
  · next existing =>
    refine bind hasReadyPendingSteps fun stranded u _ htu _ => ?_
    refine ite (fun _ => ?_) fun _ => ends
    exact bind (healRun ((hr existing rfl).mono htu)) fun _ _ _ _ _ => ends
  · exact ends
  · exact throw

lemma loadDefOrFail :
    Does o K w (Orchestrator.loadDefOrFail runID workflowID) fun d t => InPlay t.log d := by
  refine bind loadDef.outcome fun r t _ _ hr => ?_
  cases r with
  | ok d => exact pure fun u htu => (hr d rfl).inPlay.mono htu.1
  | error e => exact bind persistFailedStartRun fun _ _ _ _ _ => throw

lemma resolveStartPayload (hmem : .event e ∈ w.log) :
    Does o K w (Orchestrator.resolveStartPayload e) fun x t => InPlay t.log x.1 := by
  unfold Orchestrator.resolveStartPayload
  split
  · exact throw
  · next d input hstart =>
    exact pure fun t hwt => .started e (hwt.1.subset hmem) (by rw [hstart]; rfl)
  · exact bind loadDefOrFail fun _ _ _ _ h => pure fun _ htu => h.mono htu.1
  · exact bind loadDefOrFail fun _ _ _ _ h => pure fun _ htu => h.mono htu.1
  · next d hstart =>
    exact pure fun t hwt => .started e (hwt.1.subset hmem) (by rw [hstart]; rfl)

lemma rejectInvalidStart {input : Raw} :
    Does o K w (o.rejectInvalidStart runID d input) fun refused _ => refused = false →
    Valid o d := by
  unfold Orchestrator.rejectInvalidStart
  split
  · exact panic
  · exact bind persistFailedStartRun fun _ _ _ _ _ => pure fun _ _ h => nomatch h
  · next hvalid =>
    refine ite (fun _ => pure fun _ _ _ => hvalid) fun _ => ?_
    refine bind now fun time t _ _ _ => ?_
    have hfresh := fresh_newWorkflowRun d runID (o.defHash d) time
    refine bind (ignoring (finalizeFresh ?_ rfl rfl)) fun _ _ _ _ _ => throw
    exact ⟨hfresh.steps, rfl, rfl, rfl, rfl, rfl⟩

lemma announced {c : Prop} [Decidable c] {k : M Unit} (h : ∀ t, w.Grows t → Keeps o K t k)
    (hevent : ∀ t, w.Grows t → EventOk o t.log e) :
    Keeps o K w (if c then (Dagnats.publishEvent e).bind fun _ => k else k) :=
  ite (fun _ => bind (publishEvent hevent) fun _ t _ hwt _ => h t hwt) fun _ => h w (.refl w)

lemma startAdmitted {admission : AdmissionResult} (h : Fresh run)
    (hstored : Stored o w.log d.name d) (hworkflow : run.workflowID = d.name)
    (hhash : run.defHash = o.defHash d) (hadmitted : AdmittedAs o w.log d run.runID admission) :
    Keeps o K w (o.startAdmitted isRunTerminal d run admission) := by
  refine announced (fun t hwt => ?_) fun _ _ => trivial
  have hadmitted' := hadmitted.mono hwt.1
  split
  · exact persistSkippedRun ⟨h.steps, h.alive, h.completedAt, h.dynamicSteps,
      h.revision, h.recording⟩
  · next hqueue =>
    refine createOrHealRun ⟨h.steps, rfl, h.completedAt, h.dynamicSteps,
      h.revision, h.recording⟩ ⟨hstored.mono hwt.1, hworkflow, hhash,
        (fun h => nomatch h), hadmitted'.lock ?_⟩
    rw [hqueue]
    exact fun h => nomatch h
  · next hproceed =>
    refine bind now fun time u _ htu _ => ?_
    have hadmitted'' := hadmitted'.mono htu.1
    refine createOrHealRun ⟨h.steps, rfl, h.completedAt, h.dynamicSteps,
      h.revision, h.recording⟩ ⟨hstored.mono (hwt.trans htu).1, hworkflow, hhash,
        fun _ => hadmitted''.slot hproceed, hadmitted''.lock ?_⟩
    rw [hproceed]
    exact fun h => nomatch h

lemma handleWorkflowStarted (hmem : .event e ∈ w.log) :
    Keeps o K w (o.handleWorkflowStarted e) := by
  refine bind startExistingRun fun existing t _ hwt _ => ?_
  refine early fun _ => ?_
  refine bind (resolveStartPayload (hwt.1.subset hmem)).outcome fun r u _ _ hr => ?_
  split
  · exact ends
  · exact throw
  · next d input depth =>
    have hplay : InPlay u.log d := hr _ rfl
    refine bind rejectInvalidStart fun refused v _ huv hvalid => ?_
    refine early fun hrefused => ?_
    have hstored : Stored o v.log d.name d :=
      ⟨hvalid (by simpa using hrefused), rfl, hplay.mono huv.1⟩
    refine bind now fun time x _ hvx _ => ?_
    have hfresh := fresh_newWorkflowRun d e.runID (o.defHash d) time
    have hstart : Fresh { newWorkflowRun d e.runID (o.defHash d) time with
        rootRunID := e.runID, input := input, triggerDepth := depth } :=
      ⟨hfresh.steps, rfl, rfl, rfl, rfl, rfl⟩
    have hstored' := hstored.mono hvx.1
    refine bind (admitRun hstored').outcome fun r y _ hxy hadmitted => ?_
    split
    · exact persistAdmissionFailedRun hstart
    · exact throw
    · exact startAdmitted hstart (hstored'.mono hxy.1) rfl rfl (hadmitted _ rfl)

/-! ## Children -/

lemma nestingDepth (n : ℕ) : Keeps o K w (Orchestrator.nestingDepth n runID) := by
  induction n generalizing w runID with
  | zero => exact ends
  | succ n ih =>
    refine load.either (fun _ _ _ _ => ends) fun run _ _ _ _ => ?_
    exact early fun _ => bind ih fun _ _ _ _ _ => ends

lemma inheritParentLineage {child : WorkflowRun}
    {parentStepID : String} {detach : Bool} (h : Fresh child) :
    Does o K w (Orchestrator.inheritParentLineage child parentRunID parentStepID
      detach) fun child' _ => Fresh child' ∧ child'.defHash = child.defHash ∧ child'.workflowID =
        child.workflowID ∧ child'.singletonKey = child.singletonKey := by
  refine bind load.outcome fun r t _ _ _ => ?_
  split
  · exact pure fun _ _ => ⟨⟨h.steps, h.alive, h.completedAt, h.dynamicSteps,
      h.revision, h.recording⟩, rfl, rfl, rfl⟩
  · exact pure fun _ _ => ⟨⟨h.steps, h.alive, h.completedAt, h.dynamicSteps,
      h.revision, h.recording⟩, rfl, rfl, rfl⟩
  · exact throw

lemma createChildRun {p : Orchestrator.SpawnPayload} :
    Keeps o K w (o.createChildRun parentRunID p) := by
  refine guard fun _ => ?_
  refine bind loadDef fun d t _ _ hstored => ?_
  refine bind load.outcome fun r u _ htu hr => ?_
  have hstored' := hstored.mono htu.1
  split
  · next existing =>
    refine guard fun _ => ite (fun _ => ends)
      fun _ => enqueueReady u d existing (hr existing rfl).held hstored'.dispatchDef
  · refine bind now fun time v _ huv _ => ?_
    have hfresh := fresh_newWorkflowRun d p.childRunID (o.defHash d) time
    have hchild : Fresh { newWorkflowRun d p.childRunID (o.defHash d) time with
        input := p.input, status := .running } :=
      ⟨hfresh.steps, rfl, rfl, rfl, rfl, rfl⟩
    refine bind (inheritParentLineage hchild) fun child x _ hvx hinherit => ?_
    obtain ⟨hfresh', hhash, hworkflow, hkey⟩ := hinherit
    have hstored'' := hstored'.mono (huv.trans hvx).1
    refine bind (saveInitialSnapshot (hfresh'.create hstored.valid hhash
      (.inr (.inr rfl))) ⟨fun _ => ⟨d, ?_, hhash, fun hne => absurd rfl hne⟩,
        fun hne => absurd hkey hne⟩) fun run y _ hxy hrun => ?_
    · exact ⟨hstored.valid, hworkflow.symm, hstored''.inPlay⟩
    · exact enqueueReady y d run hrun.1 (hstored''.mono hxy.1).dispatchDef
  · exact throw

lemma handleWorkflowSpawn : Keeps o K w (o.handleWorkflowSpawn e) := by
  unfold Orchestrator.handleWorkflowSpawn
  split
  · exact throw
  · refine guard fun _ => ?_
    exact bind (nestingDepth _) fun _ _ _ _ _ => guard fun _ => createChildRun

end Does

end Dagnats
