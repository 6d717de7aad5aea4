import Dagnats.Engine.Catalogue

/-!
# Programs whose writes are in the catalogue

A property of the program text, judged from the world `w` at the end of the
story: as long as every read answers what is written somewhere in the log of
`w`, every write the program makes over a stored run is in the catalogue. The
rules of the judgement, and the functions that load, save, end and dispatch a
run.
-/

namespace Dagnats

open Interaction

variable {o : Orchestrator} {w : World} {plan : DispatchPlan} {input : Raw} {status : RunStatus}
  {new' : WorkflowRun} {runID : String} {site : Site} {new run₁ : WorkflowRun} {step : StepDef}
  {run : WorkflowRun} {d : WorkflowDef}

section

variable (o : Orchestrator) (w : World)

/-- The answer tells what stands in the log of `w`. -/
def Reads : (op : Call) → Answer op → Prop
  | .load runID, a => ∀ run : WorkflowRun, a = Except.ok run → Loaded w runID run
  | .put _ run, a => ∀ rev : ℕ, a = Except.ok rev → Wrote w.log rev (World.persisted run)
  | .create _ run, a => ∀ rev : ℕ, a = Except.ok (some rev) → Wrote w.log rev (World.persisted run)
  | .update _ run _, a => ∀ rev : ℕ, a = Except.ok rev → Wrote w.log rev (World.persisted run)
  | .getDef key, a => ∀ d : WorkflowDef, a = Except.ok d → .definition key d ∈ w.log ∧ Valid o d
  | _, _ => True

def Fits (op : Call) (a : Answer op) : Prop :=
  conceivable op a ∧ Reads o w op a

/-- A write over a stored run is in the catalogue. -/
def Sanctioned (op : Call) : Prop :=
  ∀ site rev new, op.write = some (site, some rev, new) →
    ∃ base, Wrote w.log rev base ∧ Exact o w site base new

/-- The writes of the program are in the catalogue, and it returns with `J`. -/
def Catalogued {α : Type} (p : M α) (J : α → Prop) : Prop :=
  p.Within (Fits o w) (Sanctioned o w) fun r =>
    match r with
    | .ok a => J a
    | .error _ => True

/-- The same, whatever is returned. -/
abbrev Sticks {α : Type} (p : M α) : Prop :=
  Catalogued o w p fun _ => True

end

namespace Catalogued

variable {α β : Type} {p : M α} {f : α → M β} {J J' : α → Prop} {Q : β → Prop}

lemma pure {a : α} (h : J a) : Catalogued o w (Prog.pure a) J := h

lemma ends {a : α} : Sticks o w (Prog.pure a) := trivial

lemma fail {e : Err} : Catalogued o w (Prog.fail e : M α) J := trivial

lemma throw {e : Err} : Catalogued o w (Dagnats.throw e : M α) J := fail

lemma panic {msg : String} : Catalogued o w (Dagnats.panic msg : M α) J := fail

section

variable (hp : Catalogued o w p J)
include hp

lemma bind (hf : ∀ a, J a → Catalogued o w (f a) Q) : Catalogued o w (p.bind f) Q :=
  Prog.Within.bind hp hf fun _ _ => trivial

lemma conseq (h : ∀ a, J a → J' a) : Catalogued o w p J' := by
  refine Prog.Within.conseq hp fun r hr => ?_
  cases r with
  | ok a => exact h a hr
  | error e => exact trivial

lemma outcome : Catalogued o w (Dagnats.outcome p) fun r => ∀ a, r = .ok a → J a := by
  refine Prog.Within.attempt hp (fun a ha b hb => ?_) (fun e _ a ha => nomatch ha)
    fun _ _ => trivial
  cases hb
  exact ha

lemma either {g : Except Err α → M β} (herr : ∀ e, Catalogued o w (g (.error e)) Q)
    (hok : ∀ a, J a → Catalogued o w (g (.ok a)) Q) :
    Catalogued o w ((Dagnats.outcome p).bind g) Q := by
  refine bind hp.outcome fun r hr => ?_
  cases r with
  | error e => exact herr e
  | ok a => exact hok a (hr a rfl)

lemma ignoring : Sticks o w (Dagnats.ignoring p) :=
  hp.outcome.bind fun _ _ => ends

end

lemma ite {c : Prop} [Decidable c] {q : M α} (hp : c → Catalogued o w p J)
    (hq : ¬c → Catalogued o w q J) : Catalogued o w (if c then p else q) J := by
  split
  · next h => exact hp h
  · next h => exact hq h

lemma guard {c : Prop} [Decidable c] {e : Err} {q : M α} (hq : ¬c → Catalogued o w q J) :
    Catalogued o w (if c then Prog.fail e else q) J :=
  ite (fun _ => fail) hq

lemma early {c : Prop} [Decidable c] {a : α} {q : M α} (hq : ¬c → Sticks o w q) :
    Sticks o w (if c then Prog.pure a else q) :=
  ite (fun _ => ends) hq

lemma fold {as : List α} {b : β} {g : β → α → M β} {I : β → Prop} (hinit : I b)
    (hround : ∀ a ∈ as, ∀ b, I b → Catalogued o w (g b a) I) :
    Catalogued o w (Prog.fold g as b) I :=
  Prog.Within.fold hinit hround

lemma request {op : Call} {J : Value op → Prop} (hop : Sanctioned o w op)
    (h : ∀ v : Value op, Reads o w op (.ok v) → J v) : Catalogued o w (Dagnats.request op) J := by
  refine ⟨hop, fun a ha => ?_⟩
  cases a with
  | ok v => exact h v ha.2
  | error e => exact trivial

lemma of_quiet (hp : Quiet p J) : Catalogued o w p J := by
  refine Prog.Within.conseq (Prog.Within.weaken hp (fun op a ha => ha.1)
    fun op hop site rev new hwrite => ?_) fun r hr => ?_
  · rw [hop] at hwrite
    cases hwrite
  · cases r with
    | ok a => exact hr
    | error e => exact trivial

lemma sticks (hp : Quiet p J) : Sticks o w p :=
  (of_quiet hp).conseq fun _ _ => trivial

lemma after (hp : Quiet p J) (hf : ∀ a, J a → Catalogued o w (f a) Q) :
    Catalogued o w (p.bind f) Q :=
  bind (of_quiet hp) hf

end Catalogued

/-- The copy stands for the run that is stored at its revision. -/
structure Current (w : World) (run : WorkflowRun) : Prop where
  recording : run.recording = none
  stored : ∀ rev, run.revision = some rev → ∃ base, Wrote w.log rev base ∧ Alike base run

lemma Loaded.current (h : Loaded w runID run) : Current w run := by
  obtain ⟨rev, stored, hwrote, -, rfl⟩ := h
  refine ⟨rfl, fun rev' hrev => ?_⟩
  cases hrev
  exact ⟨stored, hwrote, .received rev stored⟩

lemma Current.alike {run' : WorkflowRun} (h : Current w run) (hrun : Alike run run')
    (hrev : run'.revision = run.revision) (hrecording : run'.recording = none) :
    Current w run' := by
  refine ⟨hrecording, fun rev hsome => ?_⟩
  obtain ⟨base, hwrote, hlike⟩ := h.stored rev (hrev ▸ hsome)
  exact ⟨base, hwrote, hlike.trans hrun⟩

/-- What a save of `run` returns. -/
structure Renewal (w : World) (run saved : WorkflowRun) : Prop where
  current : Current w saved
  alike : Alike run saved
  stored : run.revision.isSome = true → saved.revision.isSome = true

def Drafted (o : Orchestrator) (w : World) (site : Site) (new : WorkflowRun) : Prop :=
  ∀ rev, new.revision = some rev → ∃ base, Wrote w.log rev base ∧ Exact o w site base new

lemma Current.drafted (h : Current w run) (hnew : Authored o w run site new)
    (hrev : new.revision = run.revision) : Drafted o w site new := by
  intro rev hsome
  obtain ⟨base, hwrote, hlike⟩ := h.stored rev (hrev ▸ hsome)
  exact ⟨base, hwrote, run, new, hlike, h.recording, hnew, .refl new, rfl⟩

lemma Exact.alike {base : WorkflowRun} (h : Exact o w site base new) (hnew : Alike new new')
    (hrecording : new'.recording = new.recording) : Exact o w site base new' := by
  obtain ⟨run, edited, hbase, hnone, hauth, hlike, hrec⟩ := h
  exact ⟨run, edited, hbase, hnone, hauth, hlike.trans hnew, hrecording.trans hrec⟩

lemma Drafted.alike (h : Drafted o w site new) (hnew : Alike new new')
    (hrev : new'.revision = new.revision) (hrecording : new'.recording = new.recording) :
    Drafted o w site new' := by
  intro rev hsome
  obtain ⟨base, hwrote, hexact⟩ := h rev (hrev ▸ hsome)
  exact ⟨base, hwrote, hexact.alike hnew hrecording⟩

/-- A copy that differs in bookkeeping may be saved by the sites that keep the
books. -/
lemma Current.books (h : Current w run) (hsite : keepsBooks site = true) (hnew : Alike run new)
    (hrev : new.revision = run.revision) (hrecording : new.recording = none) :
    Drafted o w site new :=
  h.drafted (.noted (.kept site new hsite hnew hrecording)) hrev

namespace Quiet

lemma publishHistoryTerminalEvent : Silent (Dagnats.publishHistoryTerminalEvent status runID) := by
  unfold Dagnats.publishHistoryTerminalEvent
  split
  · exact publishEvent
  · exact publishEvent
  · exact ends

lemma notifyParentIfChild {childErr : Option String} :
    Silent (Dagnats.notifyParentIfChild run childErr) :=
  early fun _ => publishEvent

lemma deleteBinding : Silent (o.deleteBinding runID) :=
  ite (fun _ => notify.ignoring) fun _ => ends

lemma publishDeadLetter {reason : String} :
    Silent (Orchestrator.publishDeadLetter run step reason) :=
  guard fun _ => notify.ignoring

lemma acquireSlot : Silent (o.acquireSlot d runID) := by
  have hrun : ∀ limit, Silent (Dagnats.acquireRun d.name runID limit) :=
    fun _ => early fun _ => request rfl
  unfold Orchestrator.acquireSlot
  split
  · exact ite (fun _ => hrun _) fun _ => ends
  · exact ends

lemma trySingletonClaim {mode : SingletonMode} {key newRunID : String} :
    Silent (Dagnats.trySingletonClaim mode key newRunID) := by
  have hupdate : ∀ lock rev result, Silent (Dagnats.updateSingletonLock key lock rev result) :=
    fun _ _ _ => bind (request rfl) fun _ _ =>
      early fun _ => ends
  have hholder : ∀ lock created, Silent (Dagnats.singletonHolder lock created) := by
    intro lock created
    refine early fun _ => ?_
    refine bind load.outcome fun r hr => ?_
    split
    · exact ends
    · exact bind now fun _ _ => ends
    · next e _ => exact fail fun he => hr.2 (he ▸ rfl)
  refine guard fun _ => ?_
  refine bind (request rfl) fun _ _ => early fun _ => ?_
  refine bind (request rfl) fun found _ => ?_
  split
  · exact ends
  · refine bind (hholder _ _) fun held _ => ite (fun _ => ends)
      fun _ => ite (fun _ => hupdate _ _ _) fun _ => ?_
    cases mode with
    | skip => exact ends
    | cancel => exact hupdate _ _ _
    | other => exact panic

lemma singletonCheck : Silent (o.singletonCheck d runID input) := by
  have hclaims : ∀ mode key n, Silent (Dagnats.singletonClaims mode key runID n) := by
    intro mode key n
    induction n with
    | zero => exact other
    | succ n ih =>
      refine bind trySingletonClaim fun r _ => ?_
      cases r with
      | none => exact ih
      | some result => exact ends
  unfold Orchestrator.singletonCheck
  split
  · exact ends
  · refine early fun _ => ?_
    exact bind ofFault fun _ _ => bind (hclaims _ _ _) fun _ _ => ends

lemma admitRun : Silent (o.admitRun d runID input) := by
  refine bind singletonCheck fun claim _ => early fun _ => ?_
  exact bind ofFault fun _ _ => bind acquireSlot fun _ _ => ends

lemma releaseSingletonLock : Silent (o.releaseSingletonLock run) := by
  refine early fun _ => ?_
  refine bind (request rfl).outcome fun r _ => ?_
  split
  · exact ends
  · exact ends
  · exact early fun _ => bind (request rfl) fun _ _ => ends

lemma outputSchemaViolation : Quiet (o.outputSchemaViolation run) fun r => ∀ id, r = some id →
    (run.step id).status = .completed := by
  refine bind loadDef.outcome fun r _ => ?_
  cases r with
  | error e => exact pure fun id h => nomatch h
  | ok d => exact pure fun id h => Does.validateRunOutput_completed h

lemma sendPlan : Silent (o.sendPlan run plan) := by
  have heffects : Silent (Prog.fold (o.sendPlanned run) plan.effects (plan.alreadySent, none)) := by
    refine fold trivial fun effect _ result _ => ?_
    refine bind sendEffect.outcome fun r _ => ?_
    cases r <;> exact ends
  refine bind heffects fun result _ => ?_
  refine early fun _ => ?_
  refine bind publishBatch.outcome fun r _ => ?_
  cases r <;> exact ends

lemma planResend : Silent (Dagnats.planResend d run) := by
  refine guard fun _ => fold trivial fun step _ plan _ => ?_
  refine early fun _ => ?_
  have htask : Silent (planTaskResend run step plan) := by
    refine guard fun _ => early fun _ => ?_
    have hqueued : Silent (taskStillQueued run step) :=
      bind requireTask fun _ _ => request rfl
    exact bind hqueued fun _ _ => early fun _ => early fun _ => ends
  split
  · have hresume : Silent (resumeSleep run step) := by
      unfold resumeSleep
      split
      · exact panic
      · exact bind now fun _ _ => ends
    exact bind hresume fun _ _ => ends
  · exact bind waitForEventSend fun _ _ => ends
  · exact htask

lemma publishStepQueuedEvents {ready : List StepDef} :
    Silent (Dagnats.publishStepQueuedEvents run ready) :=
  fold trivial fun _ _ _ _ => ite (fun _ => publishEvent.ignoring) fun _ => ends

end Quiet

namespace Catalogued

/-! ## Reading -/

lemma load : Catalogued o w (Dagnats.load runID) (Loaded w runID) :=
  request (fun _ _ _ h => nomatch h) fun run hrun => hrun run rfl

lemma loadDef {workflowID : String} : Catalogued o w (Dagnats.loadDef workflowID) fun d =>
      .definition (.latest workflowID) d ∈ w.log ∧ Valid o d :=
  request (fun _ _ _ h => nomatch h) fun d hd => hd d rfl

lemma loadPinnedOrLatestDef : Catalogued o w (o.loadPinnedOrLatestDef run) (PinnedTo o run) := by
  have hheal : Catalogued o w (o.selfHealMissingVersion run) (PinnedTo o run) := by
    refine bind loadDef fun d hd => guard fun hhash => ?_
    refine bind (request (fun _ _ _ h => nomatch h) fun _ _ => trivial) fun _ _ => ?_
    exact pure ⟨hd.2, .inl (not_not.mp hhash)⟩
  have hget : Catalogued o w (Dagnats.request (.getDef (.version run.workflowID run.defHash)))
      (Valid o) := request (fun _ _ _ h => nomatch h) fun d hd => (hd d rfl).2
  refine ite (fun hempty => ?_) fun _ => bind hget.outcome fun r hr => ?_
  · exact loadDef.conseq fun d hd => ⟨hd.2, .inr hempty⟩
  · split
    · next d =>
      exact guard fun hhash => pure ⟨hr d rfl, .inl (not_not.mp hhash)⟩
    · refine bind hheal.outcome fun r' hr' => ?_
      cases r' with
      | ok d => exact pure (hr' d rfl)
      | error e => exact throw
    · exact throw

lemma loadRunAndDef : Catalogued o w (o.loadRunAndDef runID) fun x => Loaded w runID x.2 ∧
    EffectiveFor o x.2 x.1 := by
  refine bind load fun run hrun => bind loadPinnedOrLatestDef.outcome fun r hr => ?_
  split
  · next d => exact pure ⟨hrun, d, hr d rfl, rfl⟩
  · exact guard fun _ => throw

/-! ## Saving -/

lemma save (h : Drafted o w site run) : Catalogued o w (Dagnats.save site run) (Renewal w run) := by
  unfold Dagnats.save
  split
  · next hnone =>
    refine bind (request (J := fun _ => True) (fun _ _ _ h => nomatch h)
      fun _ _ => trivial) fun _ _ => pure ⟨⟨rfl, fun rev hrev => ?_⟩, ?_, id⟩
    · exact absurd (hnone.symm.trans hrev) (by simp)
    · exact .recorded run run.revision
  · next rev hsome =>
    have hop : Sanctioned o w (.update site run rev) := by
      intro site' rev' new hwrite
      cases hwrite
      obtain ⟨base, hwrote, hexact⟩ := h rev hsome
      exact ⟨base, hwrote, hexact.alike (.persisted run) rfl⟩
    refine bind (request hop fun rev' hrev => hrev rev' rfl) fun rev' hrev => ?_
    refine pure ⟨⟨rfl, fun rev'' hrev'' => ?_⟩, .recorded run (some rev'), fun _ => rfl⟩
    cases hrev''
    exact ⟨_, hrev, (Alike.persisted run).symm.trans (.recorded run (some rev'))⟩

lemma clearInputs_current (h : Current w run) (ids : List String) :
    Current w (clearInputs run ids) ∧ (clearInputs run ids).revision = run.revision := by
  have hsame : (clearInputs run ids).revision = run.revision :=
    (sameRun_foldl _ (fun r id => sameRun_setStep _) ids run).revision
  exact ⟨h.alike (.clearInputs ids run) hsame
    ((Does.clearInputs_recording ids run).trans h.recording), hsame⟩

lemma resettle {ids : List String} (n : ℕ) : Sticks o w (Dagnats.resettle runID ids n) := by
  induction n with
  | zero => exact load.ignoring
  | succ n ih =>
    refine load.either (fun _ => ends) fun fresh hr => ?_
    obtain ⟨hcleared, -⟩ := clearInputs_current hr.current ids
    refine bind (save (hcleared.books rfl (.refl _) rfl
      hcleared.recording)).outcome fun r' _ => ?_
    split
    · exact ih
    · exact ends

lemma settleFinishedSteps (h : Current w run) :
    Catalogued o w (Dagnats.settleFinishedSteps run) (Renewal w run) := by
  refine after Tends.sweepInputs fun swept _ => ?_
  refine ite (fun _ => pure ⟨h, .refl run, id⟩) fun _ => ?_
  obtain ⟨hcleared, hrev⟩ := clearInputs_current h swept
  have hlike : Alike run (clearInputs run swept) := .clearInputs swept run
  have hresult : Renewal w run (clearInputs run swept) := ⟨hcleared, hlike, fun h => hrev.symm ▸ h⟩
  refine bind (save (hcleared.books rfl (.refl _) rfl hcleared.recording)).outcome fun r hr => ?_
  split
  · next saved =>
    have hsaved := hr saved rfl
    exact pure ⟨hsaved.current, hlike.trans hsaved.alike, fun h => hsaved.stored (hrev.symm ▸ h)⟩
  · exact bind (resettle _) fun _ _ => pure hresult
  · exact pure hresult

lemma saveSnapshot (h : Drafted o w site run) :
    Catalogued o w (Dagnats.saveSnapshot site run) (Renewal w run) := by
  refine after .now fun t _ => ?_
  have hstamp : Alike run (stampTerminalSteps run t) := .stampTerminalSteps run t
  refine bind (save (h.alike hstamp rfl rfl)) fun saved hsaved => ?_
  refine (settleFinishedSteps hsaved.current).conseq fun settled hsettled => ?_
  exact ⟨hsettled.current, (hstamp.trans hsaved.alike).trans hsettled.alike,
    fun h => hsettled.stored (hsaved.stored h)⟩

lemma clearUnsent_same (nonces : List (String × Option ℕ)) (run : WorkflowRun) :
    (clearUnsent run nonces).revision = run.revision ∧ (clearUnsent run nonces).recording =
    run.recording := by
  induction nonces generalizing run with
  | nil => exact ⟨rfl, rfl⟩
  | cons sent nonces ih =>
    have hmark : (clearMark run sent).revision = run.revision ∧
        (clearMark run sent).recording = run.recording := by
      unfold clearMark
      dsimp only
      split <;> exact ⟨rfl, rfl⟩
    exact ⟨(ih _).1.trans hmark.1, (ih _).2.trans hmark.2⟩

lemma markSentRounds {nonces : List (String × Option ℕ)} (n : ℕ) (h : Current w run) :
    Catalogued o w (Dagnats.markSentRounds nonces n run) fun run' => Current w run' ∧ run'.runID =
    run.runID := by
  induction n generalizing run with
  | zero => exact throw
  | succ n ih =>
    refine guard fun _ => ite (fun _ => pure ⟨h, rfl⟩) fun _ => ?_
    obtain ⟨hrev, hrecording⟩ := clearUnsent_same nonces run
    have hlike : Alike run (clearUnsent run nonces) := .clearUnsent nonces run
    have hdraft : Drafted o w .markSent (clearUnsent run nonces) :=
      h.books rfl hlike hrev (hrecording.trans h.recording)
    refine bind (saveSnapshot hdraft).outcome fun r hr => ?_
    split
    · next saved =>
      exact pure ⟨(hr saved rfl).current, (hlike.trans (hr saved rfl).alike).runID⟩
    · refine bind load fun fresh hfresh => ?_
      exact (ih hfresh.current).conseq fun run' hrun' => ⟨hrun'.1, hrun'.2.trans hfresh.runID⟩
    · exact throw

lemma markSent {sent : List String} (h : Current w run) :
    Catalogued o w (Dagnats.markSent run sent) fun run' => Current w run' ∧ run'.runID =
    run.runID :=
  markSentRounds _ h

lemma saveReleaseDebt (n : ℕ) (h : Current w run) : Sticks o w (Dagnats.saveReleaseDebt n run) := by
  induction n generalizing run with
  | zero => exact throw
  | succ n ih =>
    have hdraft : Drafted o w .releaseDebt { run with releasePending := true } :=
      h.books rfl ⟨rfl, rfl, rfl, rfl, rfl, rfl, fun _ => rfl⟩ rfl h.recording
    refine bind (saveSnapshot hdraft).outcome fun r _ => ?_
    split
    · exact ends
    · refine bind load fun fresh hfresh => ?_
      exact guard fun _ => ih hfresh.current
    · exact throw

lemma finalizeRun {last : M Unit} (h : ∀ t, Drafted o w .finalize (markTerminal run status t))
    (hlast : Sticks o w last) : Sticks o w (Dagnats.finalizeRun run status last) := by
  refine early fun _ => ?_
  refine after .now fun t _ => ?_
  refine bind (saveSnapshot (h t)) fun saved hsaved => ?_
  refine bind hlast.outcome fun r _ => ?_
  cases r with
  | error e =>
    refine bind (saveReleaseDebt _ hsaved.current) fun _ _ => ?_
    exact after .notify fun _ _ => after Quiet.publishHistoryTerminalEvent.ignoring fun _ _ =>
        after Quiet.notify.ignoring fun _ _ => ends
  | ok a =>
    exact after Quiet.notify.ignoring fun _ _ => after .publishHistoryTerminalEvent fun _ _ =>
        after Quiet.notify.ignoring fun _ _ => ends

end Catalogued

/-! ## Definitions of a dispatch -/

lemma isAux_buildAuxSteps {steps steps' : List StepDef} (h : ∀ s, s ∈ steps ↔ s ∈ steps')
    (id : String) : (buildAuxSteps steps).contains id = (buildAuxSteps steps').contains id := by
  rw [Bool.eq_iff_iff]
  simp only [List.contains_iff_mem, buildAuxSteps, List.mem_flatMap, h]

lemma effectiveDef_auxSteps (h : run.dynamicSteps ≠ []) :
    (effectiveDef d run).auxSteps = buildAuxSteps (d.steps ++ run.dynamicSteps) := by
  unfold effectiveDef
  rw [if_neg (by simpa using h)]

lemma drawn_effective (d0 : WorkflowDef) (run : WorkflowRun) :
    Drawn d0 run (effectiveDef d0 run) := by
  refine ⟨fun s => mem_effectiveDef, ?_, fun _ => rfl⟩
  unfold effectiveDef
  split <;> rfl

lemma drawn_doubled {d0 : WorkflowDef} {earlier : WorkflowRun}
    (h : ∀ s ∈ earlier.dynamicSteps, s ∈ run.dynamicSteps) :
    Drawn d0 run (effectiveDef (effectiveDef d0 earlier) run) := by
  have hsteps : ∀ s, s ∈ (effectiveDef (effectiveDef d0 earlier) run).steps ↔
      s ∈ d0.steps ∨ s ∈ run.dynamicSteps := by
    intro s
    rw [mem_effectiveDef, mem_effectiveDef, or_assoc]
    exact or_congr_right (or_iff_right_of_imp (h s))
  refine ⟨hsteps, ?_, fun id => ?_⟩
  · rw [(drawn_effective _ run).concurrency, (drawn_effective d0 earlier).concurrency]
  · by_cases hnone : run.dynamicSteps = []
    · have hearlier : earlier.dynamicSteps = [] :=
        List.eq_nil_iff_forall_not_mem.mpr fun s hs => by simpa [hnone] using h s hs
      simp [effectiveDef, hnone, hearlier]
    · unfold WorkflowDef.isAux
      rw [effectiveDef_auxSteps hnone, effectiveDef_auxSteps hnone]
      refine isAux_buildAuxSteps (fun s => ?_) id
      simp only [List.mem_append, mem_effectiveDef, or_assoc]
      exact or_congr_right (or_iff_right_of_imp (h s))

lemma Treats.of_loaded (hrun : Loaded w runID run) (hd : EffectiveFor o run d) :
    Treats o w runID d := by
  obtain ⟨d0, hpinned, rfl⟩ := hd
  obtain ⟨rev, stored, hwrote, hid, rfl⟩ := hrun
  exact .drawn rev stored d0 hwrote hid hpinned (drawn_effective d0 stored)

namespace Catalogued

/-- `enqueueReady`, as the functions that end a run call it. -/
def NextSticks (o : Orchestrator) (w : World) (next : Next) : Prop :=
  ∀ d run, Current w run → Treats o w run.runID d → Sticks o w (next d run)

variable {next : Next}

/-! ## Release and queue advance -/

section

variable (hnext : NextSticks o w next)
include hnext

lemma transitionPendingToRunning : Sticks o w (o.transitionPendingToRunning next runID) := by
  refine bind loadRunAndDef fun ⟨d, run⟩ ⟨hrun, hd⟩ => ?_
  refine after .acquireSlot fun acquired _ => ?_
  refine early fun _ => ?_
  refine after .now fun t _ => ?_
  refine bind (saveSnapshot (hrun.current.drafted (.noted (.advanced _)) rfl))
    fun saved hsaved => ?_
  refine hnext d saved hsaved.current ?_
  rw [hsaved.alike.runID]
  exact hrun.runID.symm ▸ .of_loaded hrun hd

lemma releaseAdmission : Sticks o w (o.releaseAdmission next run) := by
  have hadvance : Sticks o w (o.startNextPendingRun next run.workflowID) := by
    refine after (Quiet.request rfl) fun runs _ => ?_
    split
    · exact ends
    · exact transitionPendingToRunning hnext
  refine after .releaseSingletonLock fun _ _ => ?_
  exact ite (fun _ => after .notify fun _ _ => hadvance.ignoring) fun _ => ends

lemma afterTerminal : Sticks o w (o.afterTerminal next run) :=
  after .deleteBinding fun _ _ => releaseAdmission hnext

/-! ## Completion and failure -/

lemma failWorkflow {state : StepState}
    (h : ∀ t, Drafted o w .finalize (markTerminal run .failed t)) :
    Sticks o w (o.failWorkflow next run step state) := by
  refine bind (finalizeRun h (afterTerminal hnext)) fun run' _ => ?_
  exact after Quiet.loadDef.ignoring fun _ _ =>
    after .publishDeadLetter fun _ _ => sticks .notifyParentIfChild

lemma completeWorkflow (h : ∀ new, Closes run new → Drafted o w .finalize new) :
    Sticks o w (o.completeWorkflow next run) := by
  refine after .outputSchemaViolation fun r hr => ?_
  cases r with
  | some id => exact failWorkflow hnext fun t => h _ (.violated id _ t (hr id rfl))
  | none =>
    exact bind (finalizeRun (fun t => h _ (.completed t)) (afterTerminal hnext))
      fun _ _ => sticks .notifyParentIfChild

end

lemma closes_revision (h : Closes run new) : new.revision = run.revision := by
  cases h <;> rfl

/-! ## Dispatching -/

lemma resolveSkips_recording :
    (resolveSkips d run).recording = run.recording :=
  List.foldlRecOn (motive := fun r : WorkflowRun => r.recording = run.recording) _ _ rfl
    fun _ hr _ _ => hr

section Planning

variable {ready : List StepDef}

lemma dispatches_planned {run₂ : WorkflowRun} {effect : Option Effect}
    (h : Dispatches d run ready run₁) (hstep : step ∈ ready)
    (hplan : StepPlanned step run₁ run₂ effect) : Dispatches d run ready run₂ := by
  rcases hplan with ⟨rfl, -⟩ | ⟨s, e, rfl, -, hstatus, -⟩
  · exact h
  · have hdone : s.atWork = true ∨ s.status = .completed :=
      hstatus.imp (fun h => by simp [StepState.atWork, h]) fun h => h.1
    refine ⟨h.resolution, h.only.trans (.setStep (List.mem_map_of_mem hstep)),
      h.recording, fun s' hs' => ?_⟩
    rw [WorkflowRun.step_setStep]
    split
    · exact hdone
    · exact h.status s' hs'

section

variable (hnext : NextSticks o w next) (hrun : Current w run) (hd : Treats o w run.runID d)
  (h : Dispatches d run ready run₁)
include hnext hrun hd h

lemma planSleep (hstep : step ∈ ready) :
    Catalogued o w (o.planSleep next run₁ step) fun x => StepPlanned step run₁ x.1 (some x.2) := by
  have hfail : ∀ reason, Catalogued o w (o.failSleep next run₁ step reason)
      fun x : WorkflowRun × Effect => StepPlanned step run₁ x.1 (some x.2) := by
    refine fun reason => bind (failWorkflow hnext fun t => ?_) fun _ _ => throw
    refine hrun.drafted (.resolved d hd (.unslept ready run₁ step reason t h hstep)) ?_
    exact h.only.sameRun.revision.trans (resolveSkips_sameRun d run).revision
  unfold Orchestrator.planSleep
  split
  · exact hfail _
  · refine after .now fun t _ => ?_
    split
    · exact hfail _
    · exact pure (.inr ⟨_, _, rfl, rfl, .inl rfl, by simp⟩)

lemma planStep (hstep : step ∈ ready) :
    Catalogued o w (o.planStep next d run₁ step) fun x => StepPlanned step run₁ x.1 x.2 := by
  unfold Orchestrator.planStep
  split
  · next htype => exact of_quiet (Quiet.planned (Quiet.planSubWorkflow htype))
  · exact of_quiet (Quiet.planned Quiet.planMapStep)
  · exact bind (planSleep hnext hrun hd h hstep) fun _ hx => pure hx
  · exact of_quiet (Quiet.planned Quiet.planWaitForEventStep)
  · exact of_quiet (Quiet.planned Quiet.planApproval)
  · next htype => exact of_quiet (Quiet.planned (Quiet.planRespondStep htype))
  all_goals exact pure (.inl ⟨rfl, rfl⟩)

lemma planDispatch :
    Catalogued o w (o.planDispatch next d run₁ ready) fun x => Dispatches d run ready x.1 := by
  refine fold (I := fun acc : WorkflowRun × DispatchPlan => Dispatches d run ready acc.1) h
    fun step hstep acc hacc => ?_
  refine bind (planStep hnext hrun hd hacc hstep) fun ⟨run₂, effect⟩ hplan => ?_
  have hnew := dispatches_planned hacc hstep hplan
  dsimp only
  split <;> exact pure hnew

end

end Planning

lemma runDispatchPlan (hnext : NextSticks o w next) (h : Current w run)
    (hd : Treats o w run.runID d) : Sticks o w (o.runDispatchPlan next d run plan) := by
  refine after .sendPlan fun ⟨sent, sendErr⟩ _ => ?_
  refine (markSent h).either (fun _ => throw) fun run' ⟨hrun', hid⟩ => ?_
  have hd' : Treats o w run'.runID d := hid ▸ hd
  cases sendErr with
  | some e => exact throw
  | none =>
    refine early fun _ => ite (fun hdone => ?_) fun _ => hnext d run' hrun' hd'
    exact completeWorkflow hnext fun new hnew =>
      hrun'.drafted (.resolved d hd' (.closed new hdone hnew)) (closes_revision hnew)

lemma enqueueReadyWith (hnext : NextSticks o w next) :
    NextSticks o w (o.enqueueReadyWith next) := by
  intro d run h hd
  have hrevision := (resolveSkips_sameRun d run).revision
  unfold Orchestrator.enqueueReadyWith
  split
  · next run' hres =>
    obtain rfl := resolveReadySteps_complete hres
    exact completeWorkflow hnext fun new hnew => h.drafted
      (.resolved d hd (.skipped new hres hnew)) ((closes_revision hnew).trans hrevision)
  · exact ends
  · next run' ready hres =>
    obtain ⟨rfl, -⟩ := resolveReadySteps_ready hres
    refine early fun _ => ?_
    refine after .markQueuedAll fun run₁ hrun₁ => ?_
    obtain ⟨honly, hrecording, hqueued, -⟩ := hrun₁
    have hmarked : Dispatches d run ready run₁ := by
      refine ⟨hres, honly, hrecording.trans resolveSkips_recording, fun s hs => .inl ?_⟩
      simp [StepState.atWork, hqueued s hs]
    refine bind (planDispatch hnext h hd hmarked).outcome fun r hr => ?_
    split
    · exact ends
    · exact throw
    · next run₂ plan =>
      have hplanned := hr (run₂, plan) rfl
      have hsame := (resolveSkips_sameRun d run).trans hplanned.only.sameRun
      refine bind (saveSnapshot (h.drafted (.resolved d hd (.enqueued ready run₂ hplanned))
        hsame.revision)) fun saved hsaved => ?_
      refine after .publishStepQueuedEvents fun _ _ => ?_
      refine runDispatchPlan hnext hsaved.current ?_
      rw [hsaved.alike.runID, hsame.runID]
      exact hd

lemma enqueueReady : NextSticks o w o.enqueueReady := by
  have hdepth : ∀ depth, NextSticks o w (o.enqueueDepth depth) := by
    intro depth
    induction depth with
    | zero => exact fun _ _ _ _ => throw
    | succ depth ih => exact enqueueReadyWith ih
  exact hdepth o.callDepth

end Catalogued

end Dagnats
