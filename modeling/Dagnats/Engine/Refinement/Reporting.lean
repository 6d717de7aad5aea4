import Dagnats.Engine.Refinement.Enqueueing

/-!
# Recording results keeps the contract

The handler of `step.completed`, with map instances, planners, recovery and
compensation. After the fence a handler holds a copy that is not
yet a change of the stored run: it becomes one when the result is written into
the step (`Recordable`).
-/

namespace Dagnats

open Interaction

variable {o : Orchestrator} {K : Terms} {w t : World} {fragment : List StepDef} {payload : Raw}
  {baseID error id : String} {completed : String → Bool} {d' d0 : WorkflowDef}
  {run run' : WorkflowRun} {d : WorkflowDef} {e : Event} {stepID : String} {s state : StepState}
  {first : StepDef}

/-- The step has a new nonce, and no other has lost its own. -/
structure Restamped (w : World) (run : WorkflowRun) (stepID : String) (t : World)
    (run' : WorkflowRun) : Prop where
  minted : MintedNonce t.log run.runID stepID (run'.step stepID).dispatchNonce
  others : ∀ id, MintedNonce w.log run.runID id (run.step id).dispatchNonce →
    MintedNonce t.log run.runID id (run'.step id).dispatchNonce

lemma restamped_setStep {origin : Origin} {n : ℕ} {time : Time}
    (h : MintedFor t.log run.runID stepID origin s n) (hgrows : w.Grows t) :
    Restamped w run stepID t (run.setStep stepID (s.stamped n time)) := by
  have hminted : MintedNonce t.log run.runID stepID
      ((run.setStep stepID (s.stamped n time)).step stepID).dispatchNonce := by
    rw [WorkflowRun.step_setStep_self]
    exact ⟨n, _, rfl, h, rfl, rfl⟩
  refine ⟨hminted, fun id hid => ?_⟩
  by_cases hsame : stepID = id
  · exact hsame ▸ hminted
  · rw [WorkflowRun.step_setStep_of_ne _ _ hsame]
    exact hid.mono hgrows.1

lemma mem_link {steps : List StepDef} {prev : Option String}
    (h : first ∈ resolveCompensateChain.link prev steps) :
    ∃ s ∈ steps, ∃ dependsOn, first = { s with dependsOn := dependsOn } := by
  induction steps generalizing prev with
  | nil => cases h
  | cons s rest ih =>
    rcases List.mem_cons.mp h with rfl | h
    · exact ⟨s, (.head _) .., _, rfl⟩
    · obtain ⟨s', hs', heq⟩ := ih h
      exact ⟨s', .tail s hs', heq⟩

/-- A link of the chain is a step of the definition, or blank where the target is
no step. -/
lemma mem_resolveCompensateChain (h : first ∈ resolveCompensateChain d completed) :
    ∃ s dependsOn, (s ∈ d.steps ∨ s = { id := "" }) ∧
      first = { s with dependsOn := dependsOn } := by
  obtain ⟨s, hs, dependsOn, heq⟩ := mem_link h
  refine ⟨s, dependsOn, ?_, heq⟩
  obtain ⟨source, -, rfl⟩ := List.mem_map.mp (List.mem_reverse.mp hs)
  cases hfind : d.steps.reverse.find? (·.id = source.compensate) with
  | none => exact .inr rfl
  | some target => exact .inl (List.mem_reverse.mp (List.mem_of_find?_eq_some hfind))

namespace Does

lemma requeue (h : Held o w run) :
    Does o K w (Dagnats.requeue run stepID) fun run' t => Held o t run' ∧ run'.runID = run.runID ∧
    Restamped w run stepID t run' := by
  refine bind stampDispatch fun s t _ hwt hs => pure fun u htu => ?_
  obtain ⟨n, time, rfl, hn, hmint⟩ := hs
  refine ⟨(h.mono (hwt.trans htu)).change fun rev hrev => ?_, rfl,
    restamped_setStep (hmint.mono htu.1) (hwt.trans htu)⟩
  exact .single (.step run stepID _ (.requeue n time ((h.lt hrev).trans_le hn) (hmint.mono htu.1)))

lemma releaseTaskSlot {runID : String} : Does o K w (o.releaseTaskSlot d runID stepID) fun _ t =>
      SlotReturned o t.log w.log d runID stepID := by
  refine ite (fun hoff => pure fun _ _ step hcon => ?_) fun _ => ?_
  · rw [hcon] at hoff
    cases hoff
  · cases hfind : findStepDef d stepID with
    | none =>
      refine pure fun _ _ step _ hfind' => ?_
      rw [hfind] at hfind'
      cases hfind'
    | some step =>
      refine ite (fun hfree => pure fun _ _ step' _ hfind' hpos => ?_) fun _ => ?_
      · rw [hfind] at hfind'
        cases hfind'
        exact absurd hpos (Int.not_lt.mpr hfree)
      · refine conseq tries fun _ t _ _ htried step' _ hfind' _ => ?_
        rw [hfind] at hfind'
        cases hfind'
        exact htried

/-- A step is published from the copy that comes back from a save, under the
nonce it was saved with. -/
lemma publishSaved {saved : WorkflowRun} {target : StepDef} {input : Raw}
    (h : Saved o w run saved) (hstep : StepOf o w.log run.runID target)
    (hminted : MintedNonce w.log run.runID target.id (run.step target.id).dispatchNonce) :
    Keeps o K w (o.publish saved.runID target input saved saved.workflowID
      (run.step target.id).dispatchNonce) := by
  refine keeps (publish (h.kin.runID ▸ hstep)
    ⟨h.held.heldStep target.id, .inl ?_, h.kin.runID ▸ hminted⟩)
  exact (h.kin.dispatchNonce target.id).symm

variable {step : StepDef}

section

variable (h : Held o w run)
include h

lemma requeueChain {rest : List StepDef} :
    Does o K w (Prog.fold (fun run (step : StepDef) => Dagnats.requeue run step.id)
      (first :: rest) run) fun run' t => Held o t run' ∧ run'.runID = run.runID ∧
        MintedNonce t.log run.runID first.id (run'.step first.id).dispatchNonce := by
  refine bind (requeue h) fun run₁ t _ _ ⟨hheld, hid, hnew⟩ => ?_
  refine fold (I := fun run' u => Held o u run' ∧ run'.runID = run.runID ∧
    MintedNonce u.log run.runID first.id (run'.step first.id).dispatchNonce) ?_
      ⟨hheld, hid, hnew.minted⟩ ?_
  · intro run' u v huv hrun'
    exact ⟨hrun'.1.mono huv, hrun'.2.1, hrun'.2.2.mono huv.1⟩
  · intro step _ run' u _ _ hrun'
    refine (requeue hrun'.1).conseq fun run'' v _ _ hrun'' => ?_
    have hothers := hrun''.2.2.others first.id
    rw [hrun'.2.1] at hothers
    exact ⟨hrun''.1, hrun''.2.1.trans hrun'.2.1, hothers hrun'.2.2⟩

variable (hd : DispatchDef o w.log run.runID d)
include hd

lemma tryOnFailure :
    Keeps o K w (o.tryOnFailure d run step stepID error) := by
  unfold Orchestrator.tryOnFailure
  split
  · exact ends
  · next target hfind =>
    have hstep := hd.stepOf (findStepDef_some hfind).1
    refine bind (requeue h) fun run' t _ hwt ⟨hheld, hid, hnew⟩ => ?_
    refine bind (saveSnapshot (hheld.writable (.plain .onFailure)
      fun h => nomatch h)) fun saved u _ htu hsaved => ?_
    refine bind (publishSaved hsaved ?_ (hid ▸ hnew.minted.mono htu.1)) fun _ _ _ _ _ => ends
    exact hid ▸ hstep.mono (hwt.trans htu).1

lemma runOnFailure :
    Keeps o K w (o.runOnFailure d run step stepID error) :=
  ite (fun _ => tryOnFailure h hd) fun _ => ends

lemma startCompensation {failedStepID failedError : String} :
    Keeps o K w (o.startCompensation d run failedStepID failedError) := by
  unfold Orchestrator.startCompensation
  split
  · exact ends
  · next first rest hchain =>
    have hfirst : first ∈ resolveCompensateChain d (completedSet run) :=
      hchain ▸ (.head _) ..
    refine bind (requeueChain h) fun run' t _ hwt ⟨hheld, hid, hminted⟩ => ?_
    refine bind (saveSnapshot (hheld.writable (.plain .compensateStart)
      fun h => nomatch h)) fun saved u _ htu hsaved => ?_
    obtain ⟨s, dependsOn, hs | rfl, rfl⟩ := mem_resolveCompensateChain hfirst
    · have hstep : StepOf o u.log run.runID { s with dependsOn := dependsOn } :=
        (hd.stepOf hs).withDeps.mono (hwt.trans htu).1
      refine keeps (publish ?_ ⟨hsaved.held.heldStep _, .inl rfl, ?_⟩)
      · rw [hsaved.kin.runID, hid]
        exact hstep
      · rw [hsaved.kin.dispatchNonce, hsaved.kin.runID, hid]
        exact hminted.mono htu.1
    · exact publishBlank rfl (Int.le_refl 0)

end

lemma failAuxStep (h : Preset o w run) :
    Keeps o K w (o.failAuxStep o.enqueueReady run step state) := by
  refine guard fun _ => ?_
  refine bind (finalizeRun h rfl fun _ _ => releaseAdmission enqueueReady) fun run' t _ _ _ => ?_
  exact bind publishDeadLetter fun _ _ _ _ _ => notifyParentIfChild

lemma handlePermanentFailure (h : ∀ t, w.Grows t → SlotReturned o t.log w.log d run.runID stepID →
    Held o t run)
    (hd : DispatchDef o w.log run.runID d) :
    Keeps o K w (o.handlePermanentFailure o.enqueueReady d run step state stepID) := by
  refine bind releaseTaskSlot fun _ t _ hwt hret => ?_
  have hrun := h t hwt hret
  have hd' := hd.mono hwt.1
  refine ite (fun _ => failAuxStep hrun.preset) fun _ => ?_
  refine bind (runOnFailure hrun hd') fun handled u _ htu _ => ?_
  exact early fun _ => ite (fun _ => startCompensation (hrun.mono htu) (hd'.mono htu.1)) fun _ =>
      failWorkflow enqueueReady (hrun.mono htu).preset

end Does

/-! ## Completion -/

def Advanced (o : Orchestrator) (w : World) (d : WorkflowDef) (run : WorkflowRun) : Prop :=
  Held o w run ∨ ∃ held, Held o w held ∧ held.status.isTerminal = false ∧ run =
    { held with status := .completed } ∧ isComplete d (completedSet run) = true

lemma isComplete_mono {completed' : String → Bool} (h : isComplete d completed = true)
    (hmono : ∀ id, completed id = true → completed' id = true) :
    isComplete d completed' = true := by
  simp only [isComplete, List.all_eq_true, Bool.or_eq_true] at h ⊢
  exact fun s hs => (h s hs).imp_left (hmono s.id)

section

variable (h : Advanced o w d run)
include h

lemma Advanced.mono (hgrows : w.Grows t) : Advanced o t d run :=
  h.imp (fun h => h.mono hgrows) fun ⟨held, hheld, hrest⟩ =>
    ⟨held, hheld.mono hgrows, hrest⟩

lemma Advanced.preset : Preset o w run := by
  rcases h with h | ⟨held, hheld, -, rfl, -⟩
  · exact h.preset
  · exact ⟨held, .completed, hheld, rfl, .inr rfl⟩

lemma Advanced.held (hopen : ¬isComplete d (completedSet run) = true) :
    Held o w run := by
  rcases h with h | ⟨held, -, -, -, hcomplete⟩
  · exact h
  · exact absurd hcomplete hopen

lemma Advanced.step
    (hchange : ∀ rev held, held.step id = run.step id → StepChange o w.log rev held id s)
    (hkeeps : completedSet run id = true → completedSet (run.setStep id s) id = true) :
    Advanced o w d (run.setStep id s) := by
  rcases h with h | ⟨held, hheld, hopen, rfl, hcomplete⟩
  · exact .inl (h.change fun rev _ => .single (.step run id s (hchange rev run rfl)))
  · refine .inr ⟨held.setStep id s, hheld.change fun rev _ =>
      .single (.step held id s (hchange rev held rfl)), hopen, rfl, ?_⟩
    refine isComplete_mono hcomplete fun other hother => ?_
    by_cases hid : id = other
    · exact hid ▸ hkeeps (hid ▸ hother)
    · rw [completedSet_congr (WorkflowRun.step_setStep_of_ne _ s hid)]
      exact hother

lemma Advanced.skipDependents :
    Advanced o w d (skipDependents d' run stepID) := by
  unfold Dagnats.skipDependents
  generalize d'.steps.filter _ = steps
  induction steps generalizing run with
  | nil => exact h
  | cons s steps ih =>
    refine ih ?_
    dsimp only
    split
    · next hpend =>
      refine h.step (fun rev held hheld => ?_) fun hdone => ?_
      · rw [← hheld] at hpend ⊢
        exact .skip (.inl hpend)
      · simp [completedSet]
    · exact h

lemma Advanced.recoverIfOnFailure :
    Advanced o w d (recoverIfOnFailure d' run stepID) := by
  unfold Dagnats.recoverIfOnFailure
  split
  · exact h
  · next s hfind =>
    have hs := List.find?_some hfind
    simp only [Bool.and_eq_true, decide_eq_true_eq] at hs
    refine Advanced.skipDependents (h.step (fun rev held hheld => ?_) fun _ => ?_)
    · rw [← hheld] at hs ⊢
      exact .recover hs.2
    · simp [completedSet]

end

lemma recoverIfOnFailure_sameRun (d : WorkflowDef) (run : WorkflowRun)
    (stepID : String) : SameRun run (recoverIfOnFailure d run stepID) := by
  unfold recoverIfOnFailure
  split
  · exact .refl run
  · unfold skipDependents
    refine (sameRun_setStep _).trans (sameRun_foldl _ (fun r (s : StepDef) => ?_) _ _)
    dsimp only
    split
    · exact sameRun_setStep _
    · exact SameRun.refl r

/-- A copy whose next compensation step was put in the queue. -/
def Compensating (o : Orchestrator) (w : World) (run : WorkflowRun) : Prop :=
  Writable o w .compensateNext run ∧ ∀ id, HeldStep o w.log run.runID id (run.step id)

lemma Held.compensating (h : Held o w run) : Compensating o w run :=
  ⟨h.writable (.plain _) (by decide), fun id => h.heldStep id⟩

lemma Compensating.mono (h : Compensating o w run) (hgrows : w.Grows t) : Compensating o t run :=
  ⟨h.1.mono hgrows, fun id => (h.2 id).mono hgrows.1⟩

namespace Does

lemma requeueAdvanced (h : Advanced o w d run) :
    Does o K w (Dagnats.requeue run stepID) fun run' t => Compensating o t run' ∧ run'.runID =
    run.runID ∧ MintedNonce t.log run.runID stepID (run'.step stepID).dispatchNonce := by
  rcases h with h | ⟨held, hheld, hopen, rfl, -⟩
  · exact (requeue h).conseq fun run' t _ _ h => ⟨h.1.compensating, h.2.1, h.2.2.minted⟩
  · refine bind stampDispatch fun s t _ hwt hs => pure fun u htu => ?_
    obtain ⟨n, time, rfl, hn, hmint⟩ := hs
    have hnew : Held o u (held.setStep stepID
        (({ held.step stepID with status := .queued }).stamped n time)) :=
      (hheld.mono (hwt.trans htu)).change fun rev hrev =>
        .single (.step held stepID _ (.requeue n time
          ((hheld.lt hrev).trans_le hn) (hmint.mono htu.1)))
    exact ⟨⟨hnew.writable (.compensateNext hopen) (by decide), fun id => hnew.heldStep id⟩, rfl,
      (restamped_setStep (hmint.mono htu.1) (hwt.trans htu)).minted⟩

lemma saveCompensateNext (h : Compensating o w run) :
    Does o K w (Orchestrator.saveCompensateNext run) fun run' t => run'.runID = run.runID ∧ ∀ id,
    HeldStep o t.log run'.runID id (run'.step id) ∧ (run'.step id).dispatchNonce =
    (run.step id).dispatchNonce := by
  refine bind (saveSnapshot h.1).outcome fun r t _ hwt hr => ?_
  cases r with
  | ok saved =>
    have hsaved := hr saved rfl
    exact pure fun u htu => ⟨hsaved.kin.runID, fun id =>
      ⟨(hsaved.held.mono htu).heldStep id, hsaved.kin.dispatchNonce id⟩⟩
  | error e =>
    exact pure fun u htu => ⟨rfl, fun id => ⟨(h.mono (hwt.trans htu)).2 id, rfl⟩⟩

section

variable (h : Advanced o w d run) (hd : DispatchDef o w.log run.runID d)
include h hd

lemma handleCompensateCompleted :
    Keeps o K w (o.handleCompensateCompleted o.enqueueReady d run stepID) := by
  refine early fun _ => ?_
  split
  · next source _ =>
    refine bind (requeueAdvanced h) fun run' t _ hwt ⟨hrun', hid', hminted⟩ => ?_
    refine bind (saveCompensateNext hrun') fun run'' u _ htu ⟨hid'', hrun''⟩ => ?_
    refine guard fun htarget => ?_
    cases hfind : findStepDef d source.compensate with
    | none => simp [hfind] at htarget
    | some target =>
      obtain ⟨hmem, hid⟩ := findStepDef_some hfind
      have hstep : StepOf o u.log run''.runID target := by
        rw [hid'', hid']
        exact (hd.stepOf hmem).mono (hwt.trans htu).1
      refine bind (ignoring (publish hstep ?_)) fun _ _ _ _ _ => ends
      rw [Option.getD_some, hid]
      exact ⟨(hrun'' source.compensate).1, .inl (hrun'' source.compensate).2.symm,
        hid'' ▸ hid' ▸ hminted.mono htu.1⟩
  · refine bind (ignoring (finalizeRun h.preset rfl
      fun _ _ => releaseAdmission enqueueReady)) fun _ _ _ _ _ => ?_
    exact ends

lemma finishOrEnqueue {site : Site}
    (hsite : site ≠ .stepContinue) (hadvance : site ≠ .queueAdvance := by decide) :
    Keeps o K w (o.finishOrEnqueue d run site) := by
  refine ite (fun _ => completeWorkflow enqueueReady h.preset) fun hopen => ?_
  refine bind (saveSnapshot ((h.held hopen).writable (.plain site) hsite hadvance))
    fun saved t _ hwt hsaved => enqueueReady t d saved hsaved.held ?_
  rw [hsaved.kin.runID]
  exact hd.mono hwt.1

end

lemma createBinding : Keeps o K w (o.createBinding d e) :=
  ite (fun _ => (ignoring notify)) fun _ => ends

end Does

/-! ## Results that are ready to be recorded -/

/-- The copy `run'` is the stored run, apart from the event that is about to be
recorded; writing `s` into the step `id` makes it a change of the stored run. -/
structure Recordable (o : Orchestrator) (w : World) (run : WorkflowRun)
    (run' : WorkflowRun) (id : String) (s : StepState) : Prop where
  runID : run'.runID = run.runID
  defHash : run'.defHash = run.defHash
  dynamicSteps : run'.dynamicSteps = run.dynamicSteps
  held : Held o w (run'.setStep id s)

lemma Fenced.answer {runID : String} (h : Fenced o run e run') (hrun : Loaded w runID run)
    (hmem : .event e ∈ w.log) (hid : e.runID = run.runID) (htype : fencedEventType e.type = true)
    (halive : e.type ≠ .stepContinue → run.status.isTerminal = false ∧
      isMapInstanceID e.stepID = false)
    (hanswer : ∀ rev, run.revision = some rev → StepAnswer o w.log rev run e s) :
    Recordable o w run run' e.stepID s := by
  cases h with
  | passed hpass => rw [htype] at hpass; cases hpass
  | accepted _ haccept hsame hdyn _ hset =>
    refine ⟨hsame.runID, hsame.defHash, hdyn, ?_⟩
    rw [hset]
    refine Held.change (o := o) (Loaded.held hrun) fun rev hrev => ?_
    exact .single (.answer run e s (hrun.received hrev) hmem hid
      ⟨htype, haccept, fun h => (halive h).1, fun h => (halive h).2⟩
      (hanswer rev hrev))

lemma Loaded.report {runID : String} (hrun : Loaded w runID run) (hmem : .event e ∈ w.log)
    (hid : e.runID = run.runID) (halive : run.status.isTerminal = false)
    (hreport : StepReport o run e id s) :
    Recordable o w run { run with recording := some ⟨e, false⟩ } id s := by
  refine ⟨rfl, rfl, rfl, ?_⟩
  refine Held.change (o := o) (Loaded.held hrun) fun rev hrev => ?_
  exact .single (.report run e id s (hrun.received hrev) hmem hid halive hreport)

namespace Does

lemma alive {k : M Unit} (hk : ∀ t, w.Grows t → run.status.isTerminal = false →
      e.runID = run.runID → Keeps o K t k) :
    Keeps o K w ((lateEventForTerminalRun run e).bind fun late =>
      if late = true then Prog.pure () else k) := by
  have hlate : Does o K w (lateEventForTerminalRun run e) fun late _ =>
      late = run.status.isTerminal ∧ e.runID = run.runID := by
    refine guard fun hid => guard fun _ => ?_
    exact pure fun _ _ => ⟨rfl, (not_not.mp hid).symm⟩
  refine bind hlate fun late t _ hwt ⟨hlate, hid⟩ => ?_
  subst hlate
  exact early fun hopen => hk t hwt (by simpa using hopen) hid

lemma advanceCompleted (halive : run.status.isTerminal = false) :
    Does o K w (Dagnats.advanceCompleted d run id payload) fun run' _ =>
      (∀ t, Held o t (run.setStep id
        { run.step id with status := .completed, output := payload }) →
          Advanced o t d run') ∧ run'.runID = run.runID := by
  have hsame := resolveSkips_sameRun d
    (run.setStep id { run.step id with status := .completed, output := payload })
  refine ite (fun hcomplete => pure fun _ _ => ⟨fun t hheld =>
    .inr ⟨_, hheld.resolveSkips d, ?_, rfl, hcomplete⟩, hsame.runID⟩) fun _ => ?_
  · exact (congrArg RunStatus.isTerminal hsame.status).trans halive
  · exact ite (fun _ => pure fun _ _ => ⟨fun t hheld => .inl (hheld.resolveSkips d),
      hsame.runID⟩) fun _ => panic

/-! ## Map instances -/

lemma mapInstance : Does o K w (Orchestrator.mapInstance run e) fun x _ => ∃ baseID index,
    parseMapInstanceID e.stepID = .ok (baseID, index) ∧ x =
    (baseID, run.step baseID, index.toNat) := by
  refine bind ofFault fun ⟨baseID, index⟩ t _ _ hparse => ?_
  exact guard fun _ => pure fun _ _ => ⟨baseID, index, hparse, rfl⟩

/-- What a handler knows of a run it has loaded with its definition. -/
structure Handling (o : Orchestrator) (w : World) (d : WorkflowDef)
    (run : WorkflowRun) (e : Event) : Prop where
  loaded : Loaded w e.runID run
  sourced : Sourced o w.log run d
  mem : .event e ∈ w.log

section

variable (h : Handling o w d run e)
include h

lemma Handling.mono (hgrows : w.Grows t) : Handling o t d run e :=
  ⟨h.loaded.mono hgrows, h.sourced.mono hgrows.1, hgrows.1.subset h.mem⟩

lemma Handling.runID : e.runID = run.runID :=
  h.loaded.runID.symm

lemma Handling.effective : EffectiveFor o run d :=
  h.sourced.effective

lemma Handling.dispatchDef : DispatchDef o w.log run.runID d :=
  h.runID ▸ h.sourced.dispatchDef h.loaded

lemma Handling.givesBack (hgrows : w.Grows t)
    (hret : SlotReturned o t.log w.log d run.runID e.stepID) {rev : ℕ}
    (hrev : run.revision = some rev) : GivesBack o t.log rev run e d :=
  ⟨h.sourced.mono hgrows.1, w.log, h.mem, (h.loaded.held (o := o)).lt hrev, hret⟩

lemma handleMapInstanceCompleted (halive : run.status.isTerminal = false) :
    Keeps o K w (o.handleMapInstanceCompleted d
      { run with recording := some ⟨e, false⟩ } e) := by
  refine bind mapInstance fun x t _ hwt hx => ?_
  obtain ⟨baseID, i, hparse, rfl⟩ := hx
  have hnow := h.mono hwt
  refine ite (fun _ => ?_) fun _ => ?_
  · have hrecord := hnow.loaded.report hnow.mem hnow.runID halive
      (.instance_ i hparse : StepReport o run e baseID _)
    exact bind (saveSnapshot (hrecord.held.writable (.plain .mapInstance)
      (by decide))) fun _ _ _ _ _ => ends
  · split
    · exact throw
    · next collected _ =>
      have hrecord := hnow.loaded.report hnow.mem hnow.runID halive
        (.instances i collected hparse : StepReport o run e baseID _)
      exact finishOrEnqueue (.inl hrecord.held) hnow.dispatchDef (by decide)

end

section

variable (h : Held o w run) (hd : DispatchDef o w.log run.runID d)
include h hd

lemma runMapOnFailure :
    Keeps o K w (o.runMapOnFailure d run baseID state step) := by
  unfold Orchestrator.runMapOnFailure
  split
  · exact ends
  · next target hfind =>
    have hstep := hd.stepOf (findStepDef_some hfind).1
    refine bind (requeue h) fun run' t _ hwt ⟨hheld, hid, hnew⟩ => ?_
    refine bind (saveSnapshot (hheld.writable (.plain .mapOnFailure) (by decide)))
      fun saved u _ htu hsaved => publishSaved hsaved ?_ (hid ▸ hnew.minted.mono htu.1)
    exact hid ▸ hstep.mono (hwt.trans htu).1

lemma failMapStep :
    Keeps o K w (o.failMapStep d run baseID state) := by
  refine ite (fun _ => runMapOnFailure h hd) fun _ => ?_
  refine bind (finalizeRun h.preset rfl fun _ _ => releaseAdmission enqueueReady)
    fun run' t _ _ _ => ?_
  exact bind publishDeadLetter fun _ _ _ _ _ => notifyParentIfChild

end

lemma handleMapInstanceFailed (h : Handling o w d run e) (halive : run.status.isTerminal = false) :
    Keeps o K w (o.handleMapInstanceFailed d
      { run with recording := some ⟨e, false⟩ } e) := by
  refine bind mapInstance fun x t _ hwt hx => ?_
  obtain ⟨baseID, i, hparse, rfl⟩ := hx
  have hnow := h.mono hwt
  have hrecord := fun reason => hnow.loaded.report hnow.mem hnow.runID halive
    (.instanceFailed i (fun inst => if e.payload.isEmpty then inst.error
      else e.payload.toText) reason hparse : StepReport o run e baseID _)
  exact failMapStep (hrecord _).held hnow.dispatchDef

/-! ## Planner -/

lemma failPlannerStep {reason : String} (h : Held o w run)
    (hrecord : ∃ r, run.recording = some r ∧ r.event.stepID = step.id)
    (hstep : (run.step step.id).status = .completed) :
    Keeps o K w (o.failPlannerStep run step reason) :=
  failWorkflow enqueueReady (Held.preset (h.change fun _ _ =>
    .single (.step run step.id _ (.failCompleted reason (.inl hrecord) hstep))))

lemma fragment_dynamicSteps (fragment : List StepDef) (run : WorkflowRun) :
    (fragment.foldl (fun r s => r.setStep s.id {}) run).dynamicSteps = run.dynamicSteps := by
  rw [WorkflowRun.foldl_setStep]

lemma applyFragment (h : Held o w run) (hpin : PinnedTo o run d0) (hplay : InPlay w.log d0)
    (hnodup : (fragment.map (·.id)).Nodup) (hnormal : ∀ s ∈ fragment, s.type = .normal)
    (hnew : ∀ s ∈ fragment, s.id ∉ (effectiveDef d0 run).steps.map (·.id)) :
    Keeps o K w (o.applyFragment (effectiveDef d0 run) run step fragment) := by
  have hchange : ∀ rev, RunChange o w.log rev run _ := fun rev =>
    .fragment run d0 fragment hpin hnodup hnormal hnew
  have hheld := h.change fun rev _ => .single (hchange rev)
  refine bind (saveSnapshot (hheld.writable (.plain .plannerFragment) (by decide)))
    fun saved t _ hwt hsaved => ?_
  refine bind (ignoring (publishEvent fun _ _ => trivial)) fun _ u _ htu _ => ?_
  refine enqueueReady u _ saved (hsaved.held.mono htu) (.inr ?_)
  obtain ⟨rev, stored, hwrote, hkin⟩ := hsaved.stored
  have hdyn := fragment_dynamicSteps fragment
    { run with dynamicSteps := run.dynamicSteps ++ fragment }
  refine ⟨rev, stored, d0, hwrote.mono htu.1, hkin.runID.trans hsaved.kin.runID.symm,
    ⟨hpin.1, ?_⟩, hplay.mono (hwt.trans htu).1, fun s hs => ?_⟩
  · rw [hkin.defHash, (hchange 0).sameRun.defHash]
    exact hpin.2
  · rw [hkin.dynamicSteps, hdyn]
    rw [mem_effectiveDef, mem_effectiveDef, hsaved.kin.dynamicSteps, hdyn] at hs
    rcases hs with (hs | hs) | hs
    · exact .inl hs
    · exact .inr (List.mem_append_left _ hs)
    · exact .inr hs

lemma wireEntrySteps_ids (fragment : List StepDef) (plannerID : String) :
    (Orchestrator.wireEntrySteps fragment plannerID).map (·.id) = fragment.map (·.id) := by
  simp only [Orchestrator.wireEntrySteps, List.map_map]
  refine List.map_congr_left fun s _ => ?_
  simp only [Function.comp]
  split <;> rfl

lemma wireEntrySteps_normal {plannerID : String} :
    ∀ s ∈ Orchestrator.wireEntrySteps (namespaceFragment plannerID fragment) plannerID,
    s.type = .normal := by
  intro s hs
  obtain ⟨s', hs', rfl⟩ := List.mem_map.mp hs
  obtain ⟨s'', -, rfl⟩ := List.mem_map.mp hs'
  split <;> rfl

lemma materializePlannerOutput (h : Held o w run) (hpin : PinnedTo o run d0)
    (hplay : InPlay w.log d0) (hd : DispatchDef o w.log run.runID (effectiveDef d0 run))
    (hrecord : ∃ r, run.recording = some r ∧ r.event.stepID = step.id)
    (hstep : (run.step step.id).status = .completed) :
    Keeps o K w (o.materializePlannerOutput (effectiveDef d0 run) run step payload) := by
  unfold Orchestrator.materializePlannerOutput
  split
  · exact failPlannerStep h hrecord hstep
  · split
    · exact failPlannerStep h hrecord hstep
    · exact finishOrEnqueue (.inl h) hd (by decide)
    · next fragment _ _ =>
      refine ite (fun _ => failPlannerStep h hrecord hstep) fun _ => ?_
      dsimp only
      split
      · exact panic
      · exact failPlannerStep h hrecord hstep
      · next hvalid =>
        obtain ⟨hnodup, hnew⟩ := validateFragment_ids hvalid
        rw [← wireEntrySteps_ids _ step.id] at hnodup
        refine applyFragment h hpin hplay hnodup wireEntrySteps_normal fun s hs => ?_
        have hid : s.id ∈ (namespaceFragment step.id fragment).map (·.id) := by
          rw [← wireEntrySteps_ids _ step.id]
          exact List.mem_map_of_mem hs
        obtain ⟨s', hs', hid'⟩ := List.mem_map.mp hid
        exact hid' ▸ hnew s' hs'

/-! ## Completion of a step -/

/-- A completion that passed the fence, or is not fenced at all. -/
structure Completing (o : Orchestrator) (w : World) (d : WorkflowDef)
    (run run' : WorkflowRun) (e : Event) : Prop where
  handling : Handling o w d run e
  alive : run.status.isTerminal = false
  same : SameRun run run'
  recording : ∃ r, run'.recording = some r ∧ r.event = e
  record : ∀ t, w.Grows t → SlotReturned o t.log w.log d run.runID e.stepID →
    Recordable o t run run' e.stepID
      { run'.step e.stepID with status := .completed, output := e.payload }

lemma completePlannerStep (h : Completing o w d run run' e)
    (hstep : step.id = e.stepID) : Keeps o K w (o.completePlannerStep d run' step e) := by
  refine bind releaseTaskSlot fun _ t _ hwt hret => ?_
  have hhandling := h.handling.mono hwt
  rw [h.handling.runID] at hret
  obtain ⟨hrunID, hhash, hdyn, hheld⟩ := h.record t hwt hret
  obtain ⟨r, hr, hevent⟩ := h.recording
  obtain ⟨d0, ⟨hvalid, hpin⟩, hstored, rfl⟩ := hhandling.sourced
  have hd : DispatchDef o t.log run'.runID (effectiveDef d0 run) := hrunID ▸ hhandling.dispatchDef
  have heq : effectiveDef d0 run = effectiveDef d0 (run'.setStep e.stepID
      { run'.step e.stepID with status := .completed, output := e.payload }) := by
    simp only [effectiveDef, WorkflowRun.setStep, hdyn]
  rw [heq] at hd ⊢
  refine materializePlannerOutput hheld ⟨hvalid, ?_⟩ hstored.inPlay hd
    ⟨r, hr, by rw [hevent, hstep]⟩ ?_
  · rw [← hhash] at hpin
    exact hpin
  · rw [hstep, WorkflowRun.step_setStep_self]

lemma completeStep (h : Completing o w d run run' e) : Keeps o K w (o.completeStep d run' e) := by
  have halive : run'.status.isTerminal = false :=
    (congrArg RunStatus.isTerminal h.same.status).trans h.alive
  refine bind (advanceCompleted halive) fun run'' t _ hwt ⟨hadvanced, hid⟩ => ?_
  refine bind releaseTaskSlot fun _ u _ htu hret => ?_
  rw [h.handling.runID] at hret
  have hrecord := h.record u (hwt.trans htu) (hret.since hwt.1)
  refine bind createBinding fun _ v _ huv _ => ?_
  have hrecov : Advanced o v d (recoverIfOnFailure d run'' e.stepID) :=
    ((hadvanced u hrecord.held).mono huv).recoverIfOnFailure
  have hd : DispatchDef o v.log (recoverIfOnFailure d run'' e.stepID).runID d := by
    rw [(recoverIfOnFailure_sameRun ..).runID, hid, h.same.runID]
    exact h.handling.dispatchDef.mono (hwt.trans (htu.trans huv)).1
  refine bind (handleCompensateCompleted hrecov hd) fun handled x _ hvx _ => ?_
  refine early fun _ => ?_
  exact finishOrEnqueue (hrecov.mono hvx) (hd.mono hvx.1) (by decide)

def isCompletion : EventType → Bool
  | .stepCompleted | .stepSleepCompleted | .stepWaitMatched => true
  | _ => false

lemma fenceCompletion (h : Handling o w d run e) (halive : run.status.isTerminal = false)
    (hplain : isMapInstanceID e.stepID = false) (htype : isCompletion e.type = true) :
    Does o K w (o.fenceCompletion (findStepDef d e.stepID) run e) fun r t => ∀ run', r = some run' →
    Completing o t d run run' e := by
  refine ite (fun hrespond => pure fun t hwt run' hrun' => ?_) fun _ => ?_
  · cases hrun'
    obtain ⟨step, hfind, hstep⟩ := Option.map_eq_some_iff.mp hrespond
    refine ⟨h.mono hwt, halive, ⟨rfl, rfl, rfl, rfl, rfl, rfl⟩, ⟨_, rfl, rfl⟩, fun u htu _ => ?_⟩
    have hnow := h.mono (hwt.trans htu)
    refine hnow.loaded.report hnow.mem h.runID halive ?_
    exact .complete rfl (.inr ⟨d, step, h.effective, hfind, hstep⟩)
  · refine fenceStepEvent.conseq fun r t _ hwt hr run' hrun' => ?_
    obtain ⟨-, hfenced⟩ := hr run' hrun'
    have hnow := h.mono hwt
    cases hfenced with
    | passed hpass hrun =>
      subst hrun
      refine ⟨hnow, halive, ⟨rfl, rfl, rfl, rfl, rfl, rfl⟩, ⟨_, rfl, rfl⟩, fun u htu _ => ?_⟩
      have hlater := hnow.mono htu
      exact hlater.loaded.report hlater.mem h.runID halive (.complete rfl (.inl hpass))
    | accepted hfenced haccept hsame hdyn hstep hset =>
      have hdone : e.type = .stepCompleted := by
        cases ht : e.type <;> simp [ht, isCompletion, fencedEventType] at *
      have hrec : run'.recording = some ⟨e, true⟩ :=
        congrArg WorkflowRun.recording (hset {})
      refine ⟨hnow, halive, hsame, ⟨_, hrec, rfl⟩, fun u htu hret => ?_⟩
      have hlater := hnow.mono htu
      rw [hstep]
      exact Fenced.answer (.accepted hfenced haccept hsame hdyn hstep hset)
        hlater.loaded hlater.mem h.runID hfenced (fun _ => ⟨halive, hplain⟩)
        fun _ hrev => .complete d hdone (hnow.givesBack htu hret hrev)

lemma handleStepCompleted (hmem : .event e ∈ w.log) (htype : isCompletion e.type = true) :
    Keeps o K w (o.handleStepCompleted e) := by
  refine guard fun _ => ?_
  refine bind loadRunAndDef fun ⟨d, run⟩ t _ hwt ⟨hrun, hd⟩ => ?_
  have hhandling : Handling o t d run e := ⟨hrun, hd, hwt.1.subset hmem⟩
  refine alive fun u htu halive _ => ?_
  have hnow := hhandling.mono htu
  refine ite (fun _ => handleMapInstanceCompleted hnow halive) fun hplain => ?_
  refine bind (fenceCompletion hnow halive (by simpa using hplain) htype) fun r v _ huv hr => ?_
  cases r with
  | none => exact ends
  | some run' =>
    have hcompleting := hr run' rfl
    dsimp only
    split
    · next step hfind =>
      refine ite (fun _ => ?_) fun _ => completeStep hcompleting
      exact completePlannerStep hcompleting (findStepDef_some hfind).2
    · exact completeStep hcompleting

end Does

end Dagnats
