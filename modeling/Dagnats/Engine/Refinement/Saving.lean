import Dagnats.Engine.Rules

/-!
# Loading and saving keep the contract

A handler works on a copy of the run that it has loaded or that it got back
from a save. `Held` says where such a copy comes from; it is what every
function below and in the following modules starts from and returns.
-/

namespace Dagnats

open Interaction

variable {id : String} {o : Orchestrator} {K : Terms} {w t : World} {run'' saved : WorkflowRun}
  {run run' : WorkflowRun} {rev : ℕ} {site : Site} {log : List Entry}

/-- The fields that no change of a copy touches. -/
structure SameRun (run run' : WorkflowRun) : Prop where
  runID : run'.runID = run.runID
  workflowID : run'.workflowID = run.workflowID
  status : run'.status = run.status
  completedAt : run'.completedAt = run.completedAt
  defHash : run'.defHash = run.defHash
  revision : run'.revision = run.revision

lemma SameRun.refl (run : WorkflowRun) : SameRun run run :=
  ⟨rfl, rfl, rfl, rfl, rfl, rfl⟩

lemma SameRun.trans (h : SameRun run run') (h' : SameRun run' run'') : SameRun run run'' :=
  ⟨h'.runID.trans h.runID, h'.workflowID.trans h.workflowID, h'.status.trans h.status,
    h'.completedAt.trans h.completedAt, h'.defHash.trans h.defHash, h'.revision.trans h.revision⟩

lemma sameRun_setStep (s : StepState) :
    SameRun run (run.setStep id s) :=
  ⟨rfl, rfl, rfl, rfl, rfl, rfl⟩

lemma sameRun_foldl {α : Type} (f : WorkflowRun → α → WorkflowRun)
    (hf : ∀ run a, SameRun run (f run a)) (as : List α) (run : WorkflowRun) :
    SameRun run (as.foldl f run) := by
  induction as generalizing run with
  | nil => exact SameRun.refl run
  | cons a as ih => exact (hf run a).trans (ih (f run a))

lemma RunChange.sameRun (h : RunChange o log rev run run') : SameRun run run' := by
  cases h with
  | fragment d0 fragment =>
    have happend : SameRun run { run with dynamicSteps := run.dynamicSteps ++ fragment } :=
      ⟨rfl, rfl, rfl, rfl, rfl, rfl⟩
    exact happend.trans (sameRun_foldl _ (fun r s => sameRun_setStep {}) fragment _)
  | _ => exact ⟨rfl, rfl, rfl, rfl, rfl, rfl⟩

lemma Changes.sameRun (h : Changes o log rev run run') : SameRun run run' := by
  induction h with
  | refl => exact SameRun.refl run
  | tail _ hchange ih => exact ih.trans hchange.sameRun

/-- `run` was made by changes from the run stored at its revision. -/
def Held (o : Orchestrator) (w : World) (run : WorkflowRun) : Prop :=
  ∃ rev base, run.revision = some rev ∧ Wrote w.log rev base ∧
    base.runID = run.runID ∧ Changes o w.log rev (World.received rev base) run

section

variable (h : Held o w run)
include h

lemma Held.mono (hgrows : w.Grows t) : Held o t run := by
  obtain ⟨rev, base, hrev, hwrote, hid, hchanges⟩ := h
  exact ⟨rev, base, hrev, hwrote.mono hgrows.1, hid, hchanges.mono hgrows.1⟩

lemma Held.change
    (hchange : ∀ rev, run.revision = some rev → Changes o w.log rev run run') : Held o w run' := by
  obtain ⟨rev, base, hrev, hwrote, hid, hchanges⟩ := h
  have hnew := hchange rev hrev
  have hsame := Changes.sameRun hnew
  exact ⟨rev, base, hsame.revision.trans hrev, hwrote, hid.trans hsame.runID.symm,
    hchanges.trans hnew⟩

lemma Held.heldStep (id : String) :
    HeldStep o w.log run.runID id (run.step id) := by
  obtain ⟨rev, base, _, hwrote, hid, hchanges⟩ := h
  exact ⟨rev, base, run, hwrote, hid, hchanges, rfl⟩

lemma Held.lt (hrev : run.revision = some rev) : rev < w.log.length := by
  obtain ⟨rev', base, hrev', hwrote, -⟩ := h
  rw [hrev] at hrev'
  cases hrev'
  exact hwrote.lt

end

lemma held_received {stored : WorkflowRun} (h : Wrote w.log rev stored) :
    Held o w (World.received rev stored) :=
  ⟨rev, stored, rfl, h, rfl, .refl⟩

lemma Loaded.held {runID : String} (h : Loaded w runID run) : Held o w run := by
  obtain ⟨rev, stored, hwrote, -, rfl⟩ := h
  exact held_received hwrote

lemma Loaded.runID {runID : String} (h : Loaded w runID run) : run.runID = runID := by
  obtain ⟨rev, stored, -, hid, rfl⟩ := h
  exact hid

lemma Loaded.received {runID : String} (h : Loaded w runID run) (hrev : run.revision = some rev) :
    Received w.log rev run := by
  obtain ⟨rev', stored, hwrote, -, rfl⟩ := h
  cases hrev
  exact ⟨stored, hwrote, rfl⟩

lemma Loaded.recording {runID : String} (h : Loaded w runID run) : run.recording = none := by
  obtain ⟨rev, stored, -, -, rfl⟩ := h
  rfl

lemma Loaded.mono {runID : String} (h : Loaded w runID run) (hgrows : w.Grows t) :
    Loaded t runID run := by
  obtain ⟨rev, stored, hwrote, hid, hrun⟩ := h
  exact ⟨rev, stored, hwrote.mono hgrows.1, hid, hrun⟩

/-- `run'` is `run` with other completion stamps and input flags. -/
structure Kin (run run' : WorkflowRun) : Prop where
  runID : run'.runID = run.runID
  workflowID : run'.workflowID = run.workflowID
  singletonKey : run'.singletonKey = run.singletonKey
  status : run'.status = run.status
  defHash : run'.defHash = run.defHash
  dynamicSteps : run'.dynamicSteps = run.dynamicSteps
  step : ∀ id, ∃ c b, run'.step id = { run.step id with completedAt := c, hasInputs := b }

lemma Kin.refl (run : WorkflowRun) : Kin run run :=
  ⟨rfl, rfl, rfl, rfl, rfl, rfl, fun id =>
    ⟨(run.step id).completedAt, (run.step id).hasInputs, rfl⟩⟩

lemma Kin.trans (h : Kin run run') (h' : Kin run' run'') : Kin run run'' := by
  refine ⟨h'.runID.trans h.runID, h'.workflowID.trans h.workflowID,
    h'.singletonKey.trans h.singletonKey, h'.status.trans h.status,
    h'.defHash.trans h.defHash, h'.dynamicSteps.trans h.dynamicSteps,
    fun id => ?_⟩
  obtain ⟨c, b, hstep⟩ := h.step id
  obtain ⟨c', b', hstep'⟩ := h'.step id
  exact ⟨c', b', by rw [hstep', hstep]⟩

lemma Kin.dispatchNonce (h : Kin run run') (id : String) :
    (run'.step id).dispatchNonce = (run.step id).dispatchNonce := by
  obtain ⟨c, b, hstep⟩ := h.step id
  rw [hstep]

lemma kin_received :
    Kin run (World.received rev (World.persisted run)) :=
  ⟨rfl, rfl, rfl, rfl, rfl, rfl, fun id =>
    ⟨(run.step id).completedAt, (run.step id).hasInputs, rfl⟩⟩

lemma step_stampTerminalSteps (run : WorkflowRun) (time : Time) (id : String) :
    (stampTerminalSteps run time).step id = (run.step id).stampTerminal time := by
  simp only [stampTerminalSteps, WorkflowRun.step, Table.find?_mapVals]
  cases run.steps.find? id <;> rfl

lemma kin_stampTerminalSteps (run : WorkflowRun) (time : Time) :
    Kin run (stampTerminalSteps run time) := by
  refine ⟨rfl, rfl, rfl, rfl, rfl, rfl, fun id => ?_⟩
  rw [step_stampTerminalSteps, StepState.stampTerminal]
  split
  · exact ⟨some time, (run.step id).hasInputs, rfl⟩
  · exact ⟨(run.step id).completedAt, (run.step id).hasInputs, rfl⟩

variable (ids : List String)

lemma kin_clearInputs (run : WorkflowRun) : Kin run (clearInputs run ids) := by
  induction ids generalizing run with
  | nil => exact Kin.refl run
  | cons id ids ih =>
    have hset : Kin run (run.setStep id { run.step id with hasInputs := false }) := by
      refine ⟨rfl, rfl, rfl, rfl, rfl, rfl, fun other => ?_⟩
      rw [WorkflowRun.step_setStep]
      split
      · next h =>
        subst h
        exact ⟨(run.step id).completedAt, false, rfl⟩
      · exact ⟨(run.step other).completedAt, (run.step other).hasInputs, rfl⟩
    exact hset.trans (ih _)

lemma clearInputs_changes (run : WorkflowRun) : Changes o log rev run (clearInputs run ids) := by
  induction ids generalizing run with
  | nil => exact .refl
  | cons id ids ih =>
    exact .head (.step run id _ (.inputs false)) (ih _)

/-- `run` may be written at `site` over the run it was made from. -/
def Writable (o : Orchestrator) (w : World) (site : Site) (run : WorkflowRun) : Prop :=
  ∃ rev base, run.revision = some rev ∧ Wrote w.log rev base ∧ ∀ t, w.Grows t → ∀ time,
      WriteOk o t.log site rev base (World.persisted (stampTerminalSteps run time))

lemma Writable.mono (h : Writable o w site run) (hgrows : w.Grows t) : Writable o t site run := by
  obtain ⟨rev, base, hrev, hwrote, hok⟩ := h
  exact ⟨rev, base, hrev, hwrote.mono hgrows.1, fun u hu => hok u (hgrows.trans hu)⟩

lemma SiteEdit.stamped (h : SiteEdit run site run') (time : Time) :
    SiteEdit (stampTerminalSteps run time) site (stampTerminalSteps run' time) := by
  cases h with
  | plain => exact .plain site
  | finalize status at_ hopen hterm =>
    exact .finalize status at_ hopen hterm
  | queueAdvance deadline => exact .queueAdvance deadline
  | compensateNext hopen => exact .compensateNext hopen
  | release _ pending attempts => exact .release site pending attempts

lemma SiteEdit.revision (h : SiteEdit run site run') : run'.revision = run.revision := by
  cases h <;> rfl

lemma Held.writable (h : Held o w run) (hedit : SiteEdit run site run')
    (hsite : site ≠ .stepContinue) (hadvance : site ≠ .queueAdvance := by decide) :
    Writable o w site run' := by
  obtain ⟨rev, base, hrev, hwrote, -, hchanges⟩ := h
  refine ⟨rev, base, hedit.revision.trans hrev, hwrote, fun t ht time => ?_⟩
  refine ⟨⟨stampTerminalSteps run time, stampTerminalSteps run' time, ?_,
    hedit.stamped time, rfl⟩, fun h => absurd h hsite, fun h => absurd h hadvance⟩
  exact (hchanges.mono ht.1).tail (.stamp run time)

/-- `saved` is the copy that comes back from saving `run`. -/
structure Saved (o : Orchestrator) (w : World) (run saved : WorkflowRun) : Prop where
  held : Held o w saved
  kin : Kin run saved
  quiet : saved.recording = none
  stored : ∃ rev stored, Wrote w.log rev stored ∧ Kin run stored

lemma Saved.mono (h : Saved o w run saved) (hgrows : w.Grows t) : Saved o t run saved := by
  obtain ⟨rev, stored, hwrote, hkin⟩ := h.stored
  exact ⟨h.held.mono hgrows, h.kin, h.quiet, rev, stored, hwrote.mono hgrows.1, hkin⟩

namespace Does

lemma save {base : WorkflowRun} (hrev : run.revision = some rev) (hbase : Wrote w.log rev base)
    (h : ∀ t, w.Grows t → WriteOk o t.log site rev base (World.persisted run)) :
    Does o K w (Dagnats.save site run) fun saved t => Saved o t run saved := by
  simp only [Dagnats.save, hrev]
  refine bind (update hbase h) fun rev' t _ _ hwrote => pure fun u hu => ?_
  have hheld : Held o u (World.received rev' (World.persisted run)) :=
    held_received (hwrote.mono hu.1)
  have hstored : Kin run (World.persisted run) :=
    ⟨rfl, rfl, rfl, rfl, rfl, rfl, fun id =>
      ⟨(run.step id).completedAt, (run.step id).hasInputs, rfl⟩⟩
  exact ⟨hheld, kin_received, rfl, rev', World.persisted run, hwrote.mono hu.1, hstored⟩

lemma resettle {runID : String} {ids : List String} (n : ℕ) :
    Keeps o K w (Dagnats.resettle runID ids n) := by
  induction n generalizing w with
  | zero => exact load.ignoring
  | succ n ih =>
    refine load.either (fun _ _ _ _ => ends) fun fresh t _ _ hr => ?_
    have hheld : Held o t (clearInputs fresh ids) :=
      hr.held.change fun rev _ => clearInputs_changes ids fresh
    obtain ⟨rev, base, hrev, hwrote, hid, hchanges⟩ := hheld
    refine bind (outcome (save hrev hwrote fun u hu => ?_)) fun r u _ _ _ => ?_
    · exact ⟨⟨_, _, hchanges.mono hu.1, .plain _, rfl⟩, (fun h => nomatch h), fun h => nomatch h⟩
    · split
      · exact ih
      · exact ends

lemma sweepInputs : Keeps o K w (Dagnats.sweepInputs run) := by
  refine foldKeeps fun id _ swept t _ _ => ?_
  refine ite (fun _ => ?_) fun _ => ends
  refine bind (outcome notify) fun r u _ _ _ => ?_
  cases r <;> exact ends

lemma clearInputs_recording (run : WorkflowRun) :
    (clearInputs run ids).recording = run.recording := by
  induction ids generalizing run with
  | nil => rfl
  | cons id ids ih => exact ih _

lemma settleFinishedSteps (h : Saved o w run saved) :
    Does o K w (Dagnats.settleFinishedSteps saved) fun settled t => Saved o t run settled := by
  refine bind sweepInputs fun swept t _ hwt _ => ?_
  refine ite (fun _ => pure fun u hu => (h.mono hwt).mono hu) fun _ => ?_
  have hkept : Saved o t run (clearInputs saved swept) := by
    obtain ⟨hheld, hkin, hquiet, hstored⟩ := h.mono hwt
    exact ⟨hheld.change fun rev _ => clearInputs_changes swept saved,
      hkin.trans (kin_clearInputs swept saved),
      (clearInputs_recording swept saved).trans hquiet, hstored⟩
  obtain ⟨rev, base, hrev, hwrote, hid, hchanges⟩ := hkept.held
  refine bind (outcome (save hrev hwrote fun u hu => ?_)) fun r u _ htu hr => ?_
  · exact ⟨⟨_, _, hchanges.mono hu.1, .plain _, rfl⟩, (fun h => nomatch h), fun h => nomatch h⟩
  · split
    · next again =>
      have hagain := hr again rfl
      exact pure fun v hv => ⟨hagain.held.mono hv, hkept.kin.trans hagain.kin, hagain.quiet,
          (hkept.mono (htu.trans hv)).stored⟩
    · exact bind (resettle _) fun _ v _ huv _ =>
        pure fun x hx => hkept.mono (htu.trans (huv.trans hx))
    · exact pure fun v hv => hkept.mono (htu.trans hv)

lemma saveSnapshot (h : Writable o w site run) :
    Does o K w (Dagnats.saveSnapshot site run) fun saved t => Saved o t run saved := by
  refine bind now fun time t _ hwt _ => ?_
  obtain ⟨rev, base, hrev, hwrote, hok⟩ := h.mono hwt
  refine bind (save (by simpa [stampTerminalSteps] using hrev) hwrote
    fun u hu => hok u hu time) fun saved u _ _ hsaved => ?_
  have hkin := kin_stampTerminalSteps run time
  obtain ⟨rev', stored, hstored, hkin'⟩ := hsaved.stored
  exact settleFinishedSteps ⟨hsaved.held, hkin.trans hsaved.kin, hsaved.quiet,
    rev', stored, hstored, hkin.trans hkin'⟩

end Does

end Dagnats
