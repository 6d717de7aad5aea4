import Dagnats.Engine.Refinement.Attempting

/-!
# The other handlers keep the contract

Waits, approvals, children, inputs and cancellation.
-/

namespace Dagnats

open Interaction

variable {o : Orchestrator} {K : Terms} {w t : World} {id stepID : String} {u : World}
  {run : WorkflowRun} {e : Event} {runID : String} {d : Option WorkflowDef}

namespace Does

lemma completeRunning {d : WorkflowDef} {output : Raw} {site : Site} (hrun : Loaded w runID run)
    (hd : Sourced o w.log run d) (hstatus : (run.step stepID).status = .running)
    (hsite : site ≠ .stepContinue) (hadvance : site ≠ .queueAdvance := by decide) :
    Keeps o K w (o.completeRunning d run stepID output site) := by
  refine finishOrEnqueue (.inl ?_) (hrun.runID ▸ hd.dispatchDef hrun) hsite hadvance
  exact (hrun.held (o := o)).change fun rev hrev =>
    .single (.step run stepID _ (.completeRunning output (hrun.received hrev) hstatus))

lemma failRunning {d : WorkflowDef} {error : String} (hrun : Loaded w runID run)
    (hstatus : (run.step stepID).status = .running) :
    Keeps o K w (o.failRunning d run stepID error) :=
  failWorkflow enqueueReady (Held.preset ((hrun.held (o := o)).change fun _ hrev =>
    .single (.step run stepID _ (.failRunning error (hrun.received hrev) hstatus))))

lemma awaiting {c : Prop} [Decidable c] {msg : String} {k : WorkflowDef × WorkflowRun → M Unit}
    (hk : ∀ d run t, Loaded t runID run → Sourced o t.log run d →
      (run.step stepID).status = .running → Keeps o K t (k (d, run))) :
    Keeps o K w (if c then Dagnats.panic msg else (o.loadRunAndDef runID).bind fun x =>
      if (x.2.step stepID).status ≠ .running then Prog.pure () else k x) := by
  refine guard fun _ => bind loadRunAndDef fun ⟨d, run⟩ t _ _ ⟨hrun, hd⟩ => ?_
  exact early fun hstatus => hk d run t hrun hd (not_not.mp hstatus)

lemma handleWaitTimeout : Keeps o K w (o.handleWaitTimeout e) := by
  refine awaiting fun d run t hrun hd hstatus => ?_
  refine bind removeWaiters.ignoring fun _ u _ htu _ => ?_
  exact completeRunning (hrun.mono htu) (hd.mono htu.1) hstatus (by decide)

lemma handleGranted : Keeps o K w (o.handleGranted e) :=
  awaiting fun _ _ _ hrun hd hstatus => completeRunning hrun hd hstatus (by decide)

lemma handleRejected : Keeps o K w (o.handleRejected e) :=
  awaiting fun _ _ _ hrun _ hstatus => failRunning hrun hstatus

lemma handleExpired : Keeps o K w (o.handleExpired e) :=
  awaiting fun _ _ _ hrun _ hstatus => failRunning hrun hstatus

lemma loadChildTerminalOutputs {childRunID : String} :
    Keeps o K w (o.loadChildTerminalOutputs childRunID) :=
  guard fun _ => bind loadRunAndDef fun _ _ _ _ _ => ofFault.keeps

lemma handleChildCompleted : Keeps o K w (o.handleChildCompleted e) := by
  refine awaiting fun d run t hrun hd hstatus => ?_
  refine bind loadChildTerminalOutputs fun output u _ htu _ => ?_
  exact completeRunning (hrun.mono htu) (hd.mono htu.1) hstatus (by decide)

lemma handleChildFailed : Keeps o K w (o.handleChildFailed e) := by
  refine awaiting fun d run t hrun _ hstatus => ?_
  split
  · exact throw
  · exact failRunning hrun hstatus

lemma wakeStep {step : StepDef} {input : Bool} (hrun : Loaded w runID run)
    (hlog : LogOk o K w.log) (hopen : stepFinished (run.step step.id) = false)
    (halive : run.status.isTerminal = false) : Keeps o K w (o.wakeStep run step input) := by
  refine guard fun hwaiting => ?_
  have hwaits : waiting (run.step step.id) = true := by simpa using hwaiting
  have hiter := (((hrun.held (o := o)).heldStep step.id).traced hlog).waits hwaits
  have hchange := (hrun.held (o := o)).change fun rev hrev => .single (.step run step.id _
    (.wake input (hrun.received hrev) hwaits hopen halive))
  refine bind (saveSnapshot (hchange.writable (.plain .wake) (by decide)))
    fun saved t _ _ hsaved => ?_
  have hmarked := Marked.of_saved hsaved rfl hiter.1
  refine bind (publishIterationNow hmarked) fun _ u _ htu hsent => ?_
  refine bind (markSent (hsaved.held.mono htu) fun other hother => ?_) fun _ _ _ _ _ => ends
  rw [List.mem_singleton.mp hother, hmarked.nonce]
  exact Sent.delivered hsent

lemma handleInputQueued : Keeps o K w (o.handleInputQueued e) := by
  refine guard fun _ => ?_
  refine loadRunAndDef.either (fun _ _ _ _ => ends) fun x _ ht _ ⟨hrun, _⟩ => ?_
  dsimp only
  split
  · exact ends
  · next step hfind =>
    refine early fun _ => ite (fun _ => (ignoring notify)) fun hopen => ite (fun _ => ?_) fun _ =>
        early fun _ => ?_
    · simp only [Bool.or_eq_true, not_or, Bool.not_eq_true] at hopen
      rw [← (findStepDef_some hfind).2] at hopen
      exact wakeStep hrun ht hopen.2 hopen.1
    · have hchange := (hrun.held (o := o)).change fun rev _ =>
        .single (.step x.2 e.stepID _ (.inputs true))
      exact bind (saveSnapshot (hchange.writable (.plain .inputQueued)
        (by decide))) fun _ _ _ _ _ => ends

lemma handleWaitElapsed : Keeps o K w (o.handleWaitElapsed e) := by
  refine guard fun _ => ?_
  refine loadRunAndDef.either (fun _ _ _ _ => ends) fun x _ ht _ ⟨hrun, _⟩ => ?_
  dsimp only
  split
  · exact ends
  · next step hfind =>
    refine early fun hopen => ?_
    simp only [Bool.or_eq_true, not_or, Bool.not_eq_true] at hopen
    rw [← (findStepDef_some hfind).2] at hopen
    exact wakeStep hrun ht hopen.1.1.1.1.2 hopen.1.1.1.1.1

lemma cascadeCancelChildren : Keeps o K w (Orchestrator.cascadeCancelChildren run) := by
  refine foldKeeps fun id _ _ t _ _ => ?_
  refine early fun _ => ?_
  refine load.either (fun _ _ _ _ => ends) fun child _ _ _ _ => ?_
  refine early fun _ => ignoring (publishEvent ?_)
  exact fun _ _ => trivial

lemma mem_keys_of_status (h : (run.step id).status ≠ .pending) : id ∈ run.steps.keys := by
  rw [Table.mem_keys, Table.has, Option.isSome_iff_ne_none]
  intro hnone
  simp [WorkflowRun.step, hnone] at h

lemma cancelled_of_atWork (h : (run.step id).atWork = true) :
    ((Orchestrator.cancelUnfinishedSteps run).step id).status = .cancelled := by
  unfold Orchestrator.cancelUnfinishedSteps
  cases hfind : run.steps.find? id with
  | none => simp [StepState.atWork, WorkflowRun.step, hfind] at h
  | some s =>
    have hs : run.step id = s := by simp [WorkflowRun.step, hfind]
    rw [hs, StepState.atWork, Bool.or_eq_true, decide_eq_true_eq, decide_eq_true_eq] at h
    rcases h with h | h <;> simp [WorkflowRun.step, hfind, h]

/-- What is asked for the slot of one cancelled step. -/
def Freed (o : Orchestrator) (w t : World) (d : Option WorkflowDef) (runID id : String) : Prop :=
  match d with
  | some d => SlotReturned o t.log w.log d runID id
  | none => Tried t.log w.log (.releaseTask "" runID id)

lemma Freed.mono {t : World} (h : Freed o w t d runID id) (hgrows : t.Grows u) :
    Freed o w u d runID id := by
  cases d with
  | some d => exact SlotReturned.mono hgrows.1 h
  | none => exact Tried.mono hgrows.1 h

lemma Freed.since {t : World} (h : Freed o t u d runID id) (hgrows : w.Grows t) :
    Freed o w u d runID id := by
  cases d with
  | some d => exact SlotReturned.since h hgrows.1
  | none =>
    obtain ⟨older, hsince, htried⟩ := h
    exact ⟨older, hgrows.1.trans hsince, htried⟩

lemma releaseCancelled : Does o K w (o.releaseCancelled d run) fun _ t => ∀ id,
    (run.step id).status = .cancelled → Freed o w t d run.runID id := by
  have hround : Does o K w (Prog.fold (fun _ id =>
      if (run.step id).status ≠ .cancelled then return ()
      else
        match d with
        | some d => o.releaseTaskSlot d run.runID id
        | none => Dagnats.ignoring (Dagnats.request (.notify (.releaseTask "" run.runID id))))
      run.steps.keys ()) fun _ t => ∀ id ∈ run.steps.keys,
        (run.step id).status = .cancelled → Freed o w t d run.runID id := by
    refine foldEach (fun id t u htu h hid => (h hid).mono htu) fun id _ t _ hwt => ?_
    refine ite (fun hother => pure fun _ _ hid => absurd hid hother) fun _ => ?_
    cases d with
    | some d => exact conseq releaseTaskSlot fun _ u _ _ h _ => Freed.since (d := some d) h hwt
    | none => exact conseq tries fun _ u _ _ h _ => Freed.since (d := none) h hwt
  refine bind hround fun _ t _ hwt hfreed => ?_
  refine conseq (ignoring notify) fun _ u _ htu _ id hid => ?_
  exact (hfreed id (mem_keys_of_status (by simp [hid])) hid).mono htu

section

variable (hrun : Loaded w runID run) (hd : ∀ d', d = some d' → Sourced o w.log run d')
include hrun hd

lemma vacates {rev : ℕ} (hgrows : w.Grows t)
    (hrev : run.revision = some rev)
    (h : ∀ id, ((Orchestrator.cancelUnfinishedSteps run).step id).status = .cancelled →
      Freed o w t d run.runID id) : Vacates o t.log rev run := by
  have hlt := (hrun.held (o := o)).lt hrev
  have hfreed : ∀ id, (run.step id).atWork = true → Freed o w t d run.runID id :=
    fun id hid => h id (cancelled_of_atWork hid)
  cases d with
  | some d => exact ⟨w.log, hlt, .inl ⟨d, (hd d rfl).mono hgrows.1, hfreed⟩⟩
  | none => exact ⟨w.log, hlt, .inr hfreed⟩

lemma cancelRun
    (hstatus : run.status = .running) : Keeps o K w (o.cancelRun d run) := by
  refine bind releaseCancelled fun _ t _ hwt hfreed => ?_
  have hheld : Held o t (Orchestrator.cancelUnfinishedSteps run) :=
    ((hrun.held (o := o)).mono hwt).change fun rev hrev => .single (.cancel run
      ((hrun.mono hwt).received hrev) hstatus (vacates hrun hd hwt hrev hfreed))
  refine bind removeWaiters.ignoring fun _ u _ htu _ => ?_
  refine bind cascadeCancelChildren fun _ v _ huv _ => ?_
  refine bind deleteBinding fun _ x _ hvx _ => ?_
  have hnow := hheld.mono (htu.trans (huv.trans hvx))
  refine bind (finalizeRun hnow.preset rfl fun _ _ => releaseAdmission enqueueReady)
    fun run' y _ _ _ => ?_
  exact bind (ignoring notify) fun _ _ _ _ _ => notifyParentIfChild

end

lemma handleWorkflowCancelled : Keeps o K w (o.handleWorkflowCancelled e) := by
  refine bind load fun run t _ _ hrun => ?_
  refine early fun hstatus => ?_
  refine bind loadPinnedOrLatestDef.outcome fun r u _ htu hr => ?_
  have hrunning := not_not.mp hstatus
  cases r with
  | ok d =>
    obtain ⟨hpin, hstored⟩ := hr d rfl
    refine cancelRun (hrun.mono htu) (fun d' hd' => ?_) hrunning
    cases hd'
    exact ⟨d, hpin, hstored, rfl⟩
  | error e =>
    refine ite (fun _ => ?_) fun _ => throw
    exact cancelRun (hrun.mono htu) (fun d' hd' => nomatch hd') hrunning

end Does

end Dagnats
