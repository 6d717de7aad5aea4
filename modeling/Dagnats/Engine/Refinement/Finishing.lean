import Dagnats.Engine.Refinement.Publishing

/-!
# Ending a run keeps the contract

`finalizeRun`, the release of what a run holds, and the queue advance. They
take the dispatch of ready steps as an argument; here it is only known to keep
the contract itself.
-/

namespace Dagnats

variable {o : Orchestrator} {K : Terms} {w t : World} {next : Next} {id : String} {d : WorkflowDef}
  {run : WorkflowRun} {status : RunStatus} {runID : String}

/-- The argument that stands for `enqueueReady` keeps the contract. -/
def NextOk (o : Orchestrator) (K : Terms) (next : Next) : Prop :=
  ∀ w d run, Held o w run → DispatchDef o w.log run.runID d → Keeps o K w (next d run)

/-- A held copy on which a terminal status may have been set in memory. -/
def Preset (o : Orchestrator) (w : World) (run : WorkflowRun) : Prop :=
  ∃ held status, Held o w held ∧ run = { held with status := status } ∧
    (status = held.status ∨ status.isTerminal = true)

lemma Held.preset (h : Held o w run) : Preset o w run :=
  ⟨run, run.status, h, rfl, .inl rfl⟩

lemma Preset.mono (h : Preset o w run) (hgrows : w.Grows t) : Preset o t run := by
  obtain ⟨held, status, hheld, hrun⟩ := h
  exact ⟨held, status, hheld.mono hgrows, hrun⟩

lemma Preset.step {s : StepState} (h : Preset o w run)
    (hchange : ∀ rev held status, run = { held with status := status } →
      StepChange o w.log rev held id s) : Preset o w (run.setStep id s) := by
  obtain ⟨held, status, hheld, rfl, hstatus⟩ := h
  refine ⟨held.setStep id s, status, ?_, rfl, hstatus⟩
  exact hheld.change fun rev _ => .single (.step held id s (hchange rev held status rfl))

lemma Preset.writable {time : Time} (h : Preset o w run) (hstatus : status.isTerminal = true)
    (hopen : ¬(run.status.isTerminal = true ∧ run.completedAt.isSome = true)) :
    Writable o w .finalize (markTerminal run status time) := by
  obtain ⟨held, preset, hheld, rfl, hpreset⟩ := h
  refine hheld.writable (.finalize status time (fun hterm => hopen ?_) hstatus) (fun h => nomatch h)
  rcases hpreset with rfl | hpreset
  · exact hterm
  · exact ⟨hpreset, hterm.2⟩

namespace Does

lemma publishHistoryTerminalEvent :
    Keeps o K w (Dagnats.publishHistoryTerminalEvent status runID) := by
  cases status
  case completed | failed => exact publishEvent fun _ _ => trivial
  all_goals exact ends

lemma saveReleaseDebt (n : ℕ) (h : Held o w run) : Keeps o K w (Dagnats.saveReleaseDebt n run) := by
  induction n generalizing w run with
  | zero => exact throw
  | succ n ih =>
    have hwrite : Writable o w .releaseDebt { run with releasePending := true } :=
      h.writable (.release _ true run.releaseAttempts) fun h => nomatch h
    refine bind (saveSnapshot hwrite).outcome fun r t _ _ _ => ?_
    split
    · exact ends
    · refine bind load fun fresh u _ _ hfresh => ?_
      exact guard fun _ => ih hfresh.held
    · exact throw

lemma finalizeWithReleaseDebt (h : Held o w run) :
    Keeps o K w (Dagnats.finalizeWithReleaseDebt run status) := by
  refine bind (saveReleaseDebt _ h) fun run' t _ _ _ => ?_
  refine bind notify fun _ u _ _ _ => ?_
  refine bind publishHistoryTerminalEvent.ignoring fun _ v _ _ _ => ?_
  exact bind (ignoring notify) fun _ _ _ _ _ => ends

lemma finalizeRun {after : M Unit} (h : Preset o w run) (hstatus : status.isTerminal = true)
    (hafter : ∀ t, w.Grows t → EndedAs t.log run → Keeps o K t after) :
    Keeps o K w (Dagnats.finalizeRun run status after) := by
  refine early fun hopen => ?_
  refine bind now fun time t _ hwt _ => ?_
  have hwrite : Writable o t .finalize (markTerminal run status time) :=
    (h.mono hwt).writable hstatus (by simpa using hopen)
  refine bind (saveSnapshot hwrite) fun saved u _ htu hsaved => ?_
  have hended : EndedAs u.log run := hsaved.endedAs hstatus
  refine (hafter u (hwt.trans htu) hended).either
    (fun _ _ _ huv => finalizeWithReleaseDebt (hsaved.held.mono huv)) fun a _ _ _ _ => ?_
  refine bind (ignoring notify) fun _ x _ _ _ => ?_
  refine bind publishHistoryTerminalEvent fun _ y _ _ _ => ?_
  exact bind (ignoring notify) fun _ _ _ _ _ => ends

lemma notifyParentIfChild {childErr : Option String} :
    Keeps o K w (Dagnats.notifyParentIfChild run childErr) := by
  refine early fun _ => publishEvent fun _ _ => ?_
  cases childErr <;> trivial

lemma deleteBinding : Keeps o K w (o.deleteBinding runID) :=
  ite (fun _ => (ignoring notify)) fun _ => ends

lemma publishDeadLetter {step : StepDef} {reason : String} :
    Keeps o K w (Orchestrator.publishDeadLetter run step reason) :=
  guard fun _ => ignoring notify

lemma validateRunOutput_completed {accepts : Raw → Raw → Bool}
    (h : validateRunOutput accepts d run = some id) : (run.step id).status = .completed := by
  unfold validateRunOutput at h
  split at h
  · cases h
  · obtain ⟨step, hfind, rfl⟩ := Option.map_eq_some_iff.mp h
    have hstep := List.find?_some hfind
    simp only [Bool.and_eq_true, decide_eq_true_eq] at hstep
    exact hstep.1.1.2

lemma outputSchemaViolation : Does o K w (o.outputSchemaViolation run) fun r t => ∀ id, r =
    some id → ∃ d, Stored o t.log run.workflowID d ∧ validateRunOutput o.schemaAccepts d run =
    some id := by
  refine loadDef.either (fun _ _ _ _ => pure fun _ _ id h => nomatch h) fun d _ _ _ hr => ?_
  exact pure fun u htu id h => ⟨d, hr.mono htu.1, h⟩

variable (hnext : NextOk o K next)
include hnext

lemma transitionPendingToRunning :
    Keeps o K w (o.transitionPendingToRunning next runID) := by
  refine bind loadRunAndDef fun ⟨d, run⟩ t _ _ ⟨hrun, hd⟩ => ?_
  refine bind (acquireSlot hd.limitsAs) fun acquired u _ htu hslot => ?_
  refine early fun hacquired => ?_
  refine bind now fun time v _ huv _ => ?_
  have hslot' : SlotGranted o v.log d run.runID := (hslot (by simpa using hacquired)).mono huv.1
  have hwrite := (hrun.mono (htu.trans huv)).advanceable (hd.mono (htu.trans huv).1) hslot'
  refine bind (saveSnapshot (hwrite _)) fun saved x _ hvx hsaved => ?_
  refine hnext x d saved hsaved.held ?_
  rw [hsaved.kin.runID]
  have hgrows := htu.trans (huv.trans hvx)
  exact hrun.runID ▸ (hd.dispatchDef hrun).mono hgrows.1

lemma startNextPendingRun {workflowID : String} :
    Keeps o K w (o.startNextPendingRun next workflowID) := by
  refine bind listRuns fun runs t _ _ _ => ?_
  split
  · exact ends
  · exact transitionPendingToRunning hnext

lemma releaseAdmission (h : EndedAs w.log run) :
    Keeps o K w (o.releaseAdmission next run) := by
  refine bind (releaseSingletonLock h) fun _ t _ hwt _ => ?_
  obtain ⟨stored, hended, hid, hworkflow, -⟩ := h.mono hwt.1
  refine ite (fun _ => ?_) fun _ => ends
  refine bind (releaseRun ⟨stored, hended, hid, hworkflow⟩) fun _ u _ _ _ => ?_
  exact (startNextPendingRun hnext).ignoring

lemma afterTerminal (h : EndedAs w.log run) :
    Keeps o K w (o.afterTerminal next run) :=
  bind deleteBinding fun _ _ _ hgrows _ => releaseAdmission hnext (h.mono hgrows.1)

lemma failWorkflow {step : StepDef} {state : StepState}
    (h : Preset o w run) : Keeps o K w (o.failWorkflow next run step state) := by
  refine bind (finalizeRun h rfl fun _ _ => afterTerminal hnext) fun run' t _ _ _ => ?_
  refine bind loadDef.ignoring fun _ u _ _ _ => ?_
  exact bind publishDeadLetter fun _ _ _ _ _ => notifyParentIfChild

lemma failOnOutputSchema (h : Preset o w run)
    (hd : Stored o w.log run.workflowID d)
    (hrefused : validateRunOutput o.schemaAccepts d run = some id) :
    Keeps o K w (o.failOnOutputSchema next run id) := by
  have hdone := validateRunOutput_completed hrefused
  refine failWorkflow hnext (h.step fun rev held status hheld => ?_)
  subst hheld
  exact .failCompleted _ (.inr ⟨d, hd, hrefused⟩) hdone

lemma completeWorkflow (h : Preset o w run) :
    Keeps o K w (o.completeWorkflow next run) := by
  refine bind outputSchemaViolation fun r t _ hwt hr => ?_
  cases r with
  | some id =>
    obtain ⟨d, hd, hrefused⟩ := hr id rfl
    exact failOnOutputSchema hnext (h.mono hwt) hd hrefused
  | none =>
    refine bind (finalizeRun (h.mono hwt) rfl fun _ _ => afterTerminal hnext)
      fun _ _ _ _ _ => notifyParentIfChild

end Does

end Dagnats
