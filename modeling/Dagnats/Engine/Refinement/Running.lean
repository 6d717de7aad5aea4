import Dagnats.Engine.Refinement.Starting

/-!
# The engines refine the abstract model

Every job of an engine keeps the contract, and so does everything that happens
in the world by itself. Hence the log of every reachable world is a log of the
abstract model, however many engines work on it, in whatever order their calls
are interleaved and wherever they crash.
-/

namespace Dagnats

open Interaction

variable {o : Orchestrator} {K : Terms} {w t : World} {m : Move} {n : Option ℕ} {publishedAt : Time}
  {tm : TimerMessage} {e : Event} {log : List Entry} {runID : String}

namespace Does

section

variable (hmem : .event e ∈ w.log)
include hmem

lemma routeEvent : Keeps o K w (o.routeEvent e) := by
  unfold Orchestrator.routeEvent
  split
  · exact handleWorkflowStarted hmem
  · next h => exact handleStepCompleted hmem (by rw [h]; rfl)
  · next h => exact handleStepCompleted hmem (by rw [h]; rfl)
  · next h => exact handleStepCompleted hmem (by rw [h]; rfl)
  · exact handleWaitTimeout
  · next h => exact handleStepContinue hmem h
  · next h => exact handleStepFailed hmem h
  · next h => exact handleStepStarted hmem h
  · next h => exact handleStepQueued hmem h
  · exact handleWorkflowSpawn
  · exact handleChildCompleted
  · exact handleChildFailed
  · exact handleWorkflowCancelled
  · exact handleGranted
  · exact handleRejected
  · exact handleExpired
  · exact handleInputQueued
  · exact handleWaitElapsed
  · exact ends

lemma dispatchBody : Keeps o K w (o.dispatchBody e) := by
  refine load.either (fun _ _ _ hwt => routeEvent (hwt.1.subset hmem)) fun run _ _ hwt _ => ?_
  refine bind now fun time u _ htu _ => ?_
  refine ite (fun _ => handleWorkflowCancelled) fun _ => ?_
  refine bind (routeEvent ((hwt.trans htu).1.subset hmem)) fun _ v _ _ _ => ?_
  refine ite (fun _ => ?_) fun _ => ends
  exact bind load fun run x _ _ hrun => resendUnsent (hrun.runID.symm ▸ hrun)

lemma dispatchEvent : Keeps o K w (o.dispatchEvent e) := by
  have hbody : Keeps o K w (Prog.attempt (fun _ => true) (o.dispatchBody e)) :=
    Safe.attempt (dispatchBody hmem) (fun _ _ _ _ _ => trivial)
      (fun _ _ _ _ _ _ => trivial) fun _ _ _ _ _ _ => trivial
  refine bind hbody fun r t _ _ _ => ?_
  split
  · exact ends
  · exact throw
  · exact throw

end

lemma handleEventRounds (n : ℕ) (hmem : .event e ∈ w.log) :
    Keeps o K w (o.handleEventRounds e n) := by
  induction n generalizing w with
  | zero => exact throw
  | succ n ih =>
    refine bind (dispatchEvent hmem).outcome fun r t _ hwt _ => ?_
    split
    · exact ends
    · exact ih (hwt.1.subset hmem)
    · exact throw

lemma handleEvent (hmem : .event e ∈ w.log) : Keeps o K w (o.handleEvent e) :=
  handleEventRounds _ hmem

lemma timerOk_of_mem (hlog : LogOk o K log) (hmem : .timer tm n publishedAt ∈ log) :
    TimerOk o log tm := by
  induction hlog with
  | nil => cases hmem
  | @cons e older _ happ ih =>
    rcases List.mem_cons.mp hmem with rfl | hmem
    · refine TimerOk.mono (List.suffix_cons ..) ?_
      exact happ.elim (fun h => h.1) fun h => h.1.elim
    · exact (ih hmem).mono (List.suffix_cons ..)

/-- The timer is one of the log that sends the task of a step. -/
structure Redispatches (log : List Entry) (tm : TimerMessage) : Prop where
  mem : ∃ dispatch publishedAt, .timer tm dispatch publishedAt ∈ log
  action : tm.action.redispatches = true

section

variable (h : Redispatches log tm)
include h

lemma Redispatches.mono {log' : List Entry} (hlog : log <:+ log') :
    Redispatches log' tm := by
  obtain ⟨dispatch, publishedAt, hmem⟩ := h.mem
  exact ⟨⟨dispatch, publishedAt, hlog.subset hmem⟩, h.action⟩

lemma Redispatches.taskFrom {t : TaskPayload}
    (hrun : tm.runID = t.runID) (hstep : tm.stepID = t.stepID) (htask : tm.taskType = t.task)
    (hnonce : t.dispatchNonce = tm.dispatchNonce ∨
      ∃ s, HeldStep o log t.runID t.stepID s ∧ s.retryDispatchAt.isSome = true ∧
        t.dispatchNonce = s.dispatchNonce) : TaskFrom o log t := by
  obtain ⟨dispatch, publishedAt, hmem⟩ := h.mem
  exact .timer tm dispatch publishedAt hmem h.action hrun hstep htask hnonce

lemma Redispatches.nonce (hlog : LogOk o K log) :
    tm.dispatchNonce ≠ none := by
  obtain ⟨dispatch, publishedAt, hmem⟩ := h.mem
  have hok := timerOk_of_mem hlog hmem
  rcases TimerAction.redispatches_cases h.action with haction | haction | haction | haction
  all_goals rw [TimerOk, haction] at hok
  · obtain ⟨step, n, -, -, -, hn, -⟩ := hok
    simp [hn]
  · obtain ⟨step, n, -, -, -, hn, -⟩ := hok
    simp [hn]
  · obtain ⟨s, n, m, -, -, -, hn, -⟩ := hok
    simp [hn]
  · obtain ⟨s, n, m, -, -, -, hn, -⟩ := hok
    simp [hn]

end

lemma not_stale {s : StepState} (haction : tm.action.redispatches = true)
    (h : redispatchStale tm s = false) : s.retryDispatchAt.isSome = true ∨ tm.dispatchNonce = none ∨
    tm.dispatchNonce = s.dispatchNonce := by
  rcases TimerAction.redispatches_cases haction with haction | haction | haction | haction
  all_goals rw [redispatchStale, haction] at h
  · simp only [Bool.or_eq_false_iff, Bool.and_eq_false_iff, decide_eq_false_iff_not, not_not] at h
    exact .inr h.2
  · simp only [Bool.or_eq_false_iff, Bool.and_eq_false_iff, decide_eq_false_iff_not, not_not] at h
    exact .inr h.2
  · simp only [Bool.or_eq_false_iff, Option.isNone_eq_false_iff] at h
    exact .inl h.1.2
  · simp only [Bool.or_eq_false_iff, Option.isNone_eq_false_iff] at h
    exact .inl h.1.2

lemma redispatchTask (h : Redispatches w.log tm) :
    Does o K w (Dagnats.redispatchTask tm) fun r t => ∀ task, r = some task → TaskOk o t.log task ∧
    TaskFrom o t.log task := by
  refine bind nonceOrMint fun fallback t ht hwt hfallback => ?_
  have hnone := (h.mono hwt.1).nonce ht
  have hown : tm.dispatchNonce = some fallback := by
    rcases hfallback with h | ⟨h, -⟩
    · exact h
    · exact absurd h hnone
  refine bind load.outcome fun r u _ htu hr => ?_
  cases r with
  | error e =>
    refine pure fun v huv task htask => ?_
    cases htask
    refine ⟨.inl ⟨rfl, rfl⟩, ?_⟩
    exact (h.mono (hwt.trans (htu.trans huv)).1).taskFrom rfl rfl rfl (.inl hown.symm)
  | ok run =>
    refine ite (fun _ => pure fun _ _ _ h => nomatch h) fun hstale => ?_
    refine pure fun v huv task htask => ?_
    cases htask
    have hrun := (hr run rfl).mono huv
    have hheld : HeldStep o v.log tm.runID tm.stepID (run.step tm.stepID) :=
      hrun.runID ▸ (hrun.held (o := o)).heldStep tm.stepID
    have hfrom := (h.mono (hwt.trans (htu.trans huv)).1).taskFrom (o := o)
      (t := tm.task (dispatchIdentity run tm.stepID .newAttempt).1
        (dispatchIdentity run tm.stepID .newAttempt).2
        (some ((run.step tm.stepID).dispatchNonce.getD fallback))
        (run.step tm.stepID).loopState) rfl rfl rfl
    have hcases := not_stale h.action (Bool.eq_false_iff.mpr hstale)
    cases hnonce : (run.step tm.stepID).dispatchNonce with
    | some n =>
      rw [hnonce] at hfrom hcases
      refine ⟨.inr ⟨run.step tm.stepID, hheld, rfl, .inl hnonce.symm, .inl rfl⟩, hfrom ?_⟩
      rcases hcases with hretry | hcases | hcases
      · exact .inr ⟨_, hheld, hretry, hnonce.symm⟩
      · exact absurd hcases hnone
      · exact .inl hcases.symm
    | none =>
      rw [hnonce] at hfrom hcases
      refine ⟨.inr ⟨run.step tm.stepID, hheld, rfl, .inr (.inr ⟨hnonce, ?_⟩),
        .inl rfl⟩, hfrom (.inl hown.symm)⟩
      rcases hcases with hretry | hcases | hcases
      · exact hretry
      · exact absurd hcases hnone
      · exact absurd hcases hnone

lemma fireRedispatch (h : Redispatches w.log tm) : Keeps o K w (Dagnats.fireRedispatch tm) := by
  refine guard fun _ => ?_
  refine bind (redispatchTask h) fun r t _ _ hr => ?_
  cases r with
  | none => exact ends
  | some task => exact ignoring (Does.task (hr task rfl).1 (hr task rfl).2)

lemma fireLoopDelay (haction : tm.action = .loopDelay)
    (h : WasMarked o w.log tm.runID tm.stepID tm.dispatchNonce)
    (hiter : 0 < tm.iteration) : Keeps o K w (Dagnats.fireLoopDelay tm) := by
  refine load.either (fun _ _ _ _ => ends) fun run t _ hwt hrun => ?_
  refine early fun hsame => ?_
  simp only [Bool.or_eq_true, not_or, decide_eq_true_eq, not_not] at hsame
  have hheld : HeldStep o t.log tm.runID tm.stepID (run.step tm.stepID) :=
    hrun.runID ▸ (hrun.held (o := o)).heldStep tm.stepID
  refine ignoring (Does.task (.inr ⟨run.step tm.stepID, hheld, rfl,
    .inl hsame.2.symm, .inr ⟨rfl, congrArg TimerAction.route haction, .inl (h.mono hwt.1)⟩⟩)
    (.iterated ?_))
  have hiteration : (run.step tm.stepID).iterations = tm.iteration := hsame.1.2
  exact hiteration.symm ▸ hiter

lemma fireTimer (hlog : LogOk o K w.log) (hmem : .timer tm n publishedAt ∈ w.log) :
    Keeps o K w (Dagnats.fireTimer tm) := by
  have hok := timerOk_of_mem hlog hmem
  unfold Dagnats.fireTimer
  split
  · exact ignoring (publishEvent fun _ _ => trivial)
  · exact ignoring (publishEvent fun _ _ => trivial)
  · exact ignoring (publishEvent fun _ _ => trivial)
  · next haction => exact fireRedispatch ⟨⟨n, publishedAt, hmem⟩, by rw [haction]; rfl⟩
  · next haction => exact fireRedispatch ⟨⟨n, publishedAt, hmem⟩, by rw [haction]; rfl⟩
  · next haction => exact fireRedispatch ⟨⟨n, publishedAt, hmem⟩, by rw [haction]; rfl⟩
  · next haction => exact fireRedispatch ⟨⟨n, publishedAt, hmem⟩, by rw [haction]; rfl⟩
  · exact fireStepTimeout
  · next haction =>
    rw [TimerOk, haction] at hok
    exact fireLoopDelay haction hok.1 hok.2
  · exact ignoring (publishEvent fun _ _ => trivial)

lemma reconcileOneRun : Keeps o K w (o.reconcileOneRun runID) := by
  refine bind loadRunAndDef fun ⟨d, run⟩ t _ _ ⟨hrun, _⟩ => ?_
  have hpreset : Preset o t run := (hrun.held (o := o)).preset
  refine early fun _ => ite (fun _ => resendUnsent (hrun.runID.symm ▸ hrun)) fun _ =>
      ite (fun _ => completeWorkflow enqueueReady hpreset) fun _ =>
        early fun _ => ?_
  exact failWorkflow enqueueReady hpreset

lemma reconcileReleasePending {run : WorkflowRun} (hrun : Loaded w runID run)
    (hterm : run.status.isTerminal = true) : Keeps o K w (o.reconcileReleasePending run) := by
  refine bind (releaseAdmission enqueueReady (hrun.endedAs hterm)).outcome fun r t _ hwt _ => ?_
  have hheld : Held o t run := hrun.held.mono hwt
  cases r with
  | ok a =>
    refine bind (saveSnapshot (hheld.writable (.release .releaseDone false 0)
      (by decide))) fun _ _ _ _ _ => ignoring notify
  | error e =>
    refine bind (saveSnapshot (hheld.writable (.release .releaseRetry _ _)
      (by decide))) fun _ _ _ _ _ => ?_
    exact ite (fun _ => (ignoring notify)) fun _ => ends

lemma reconcileReleasePendingRun : Keeps o K w (o.reconcileReleasePendingRun runID) :=
  bind load fun _ _ _ _ hrun => ite (fun hdue => reconcileReleasePending hrun hdue.1) fun _ => ends

lemma startJob {j : Job} {p : M Unit} (hlog : LogOk o K w.log)
    (h : o.startJob w j = some p) : Keeps o K w p := by
  cases j with
  | handle i =>
    simp only [Orchestrator.startJob] at h
    split at h
    · next e hat =>
      cases h
      exact handleEvent (At.of_getElem? hat).mem
    · cases h
  | fire i =>
    simp only [Orchestrator.startJob] at h
    split at h
    · next tm n publishedAt hat =>
      cases h
      exact fireTimer hlog (At.of_getElem? hat).mem
    · cases h
  | reconcile runID =>
    cases h
    exact reconcileOneRun
  | release runID =>
    cases h
    exact reconcileReleasePendingRun

end Does

/-- What `K` asks of the calls of the engines and of the moves of the world. -/
def Terms.conditions (o : Orchestrator) (K : Terms) : Conditions o.system where
  call w op := ∀ e, Appends w op e → K.engine w.log e
  job _ _ := True
  move w
    | .tick _ => True
    | .register d =>
      let version := Entry.definition (.version d.name (o.defHash d)) d
      K.outside w.log version ∧ K.outside (version :: w.log) (.definition (.latest d.name) d)
    | .publish e => K.outside w.log (.event e)

lemma Orchestrator.move_register {d : WorkflowDef} (h : o.move w (.register d) = some t) :
    Valid o d ∧ t = (w.push (.definition (.version d.name (o.defHash d)) d)).push
      (.definition (.latest d.name) d) := by
  simp only [Orchestrator.move] at h
  split at h
  · next hvalid =>
    cases h
    exact ⟨hvalid, rfl⟩
  · cases h

lemma Orchestrator.move_grows (h : o.move w m = some t) : w.Grows t := by
  cases m with
  | tick d =>
    cases h
    exact ⟨List.suffix_refl _, Int.le_add_of_nonneg_right (by simp)⟩
  | publish e =>
    cases h
    exact World.grows_push w
  | register d =>
    obtain ⟨-, rfl⟩ := Orchestrator.move_register h
    exact (World.grows_push w).trans (World.grows_push _)

lemma contract_move (hlog : LogOk o K w.log) (hm : (K.conditions o).move w m)
    (h : o.move w m = some t) : LogOk o K t.log ∧ w.Grows t := by
  refine ⟨?_, Orchestrator.move_grows h⟩
  cases m with
  | tick d =>
    cases h
    exact hlog
  | publish e =>
    cases h
    exact .cons hlog (.inr ⟨trivial, hm⟩)
  | register d =>
    obtain ⟨hvalid, rfl⟩ := Orchestrator.move_register h
    exact .cons (.cons hlog (.inr ⟨⟨hvalid, rfl⟩, hm.1⟩)) (.inr ⟨⟨hvalid, rfl⟩, hm.2⟩)

lemma contract_sound (o : Orchestrator) (K : Terms) : (contract o K).Sound (K.conditions o) where
  ok h := h
  call := by
    intro s op c a t hs _ hguar
    rcases hguar with rfl | ⟨e, hok, hK, rfl⟩
    · exact ⟨hs, World.Grows.refl _⟩
    · exact ⟨.cons hs (.inl ⟨hok, hK⟩), World.grows_push s⟩
  move hs hm ht := contract_move hs hm ht
  jobs hs _ hj := Safe.conseq (Does.startJob hs hj) fun _ _ _ _ _ => trivial

variable {p : Pool o.system}

/-- The log of every reachable world is a log of the abstract model. -/
lemma reaches_logOk (h : Pool.Reaches (K.conditions o) (emptyPool o) p) :
    LogOk o K p.state.log := by
  have hempty : (contract o K).inv { log := [], now := 0 } := History.nil
  exact ((contract_sound o K).reaches hempty h).1

section

variable (h : Pool.Reaches Conditions.free (emptyPool o) p)
include h

lemma Terms.free_conditions :
    Pool.Reaches (Terms.free.conditions o) (emptyPool o) p := by
  refine h.mono fun q a _ => ?_
  cases a with
  | start j | drop i => trivial
  | step i c => exact fun op _ e _ => trivial
  | ext m =>
    cases m with
    | tick d | publish e => trivial
    | register d => exact ⟨trivial, trivial⟩

lemma reaches_logOk_free :
    LogOk o Terms.free p.state.log :=
  reaches_logOk (Terms.free_conditions h)

end

/-- What every entry that an engine or another appends preserves, and the passing of
time, holds of every reachable world. -/
lemma reaches_worlds {A : Conditions o.system} {I : World → Prop}
    (hempty : I { log := [], now := 0 })
    (hcall : ∀ {w op e}, A.call w op → Appends w op e →
      LogOk o Terms.free (e :: w.log) → I w → I (w.push e))
    (hout : ∀ {w e}, OutsideOk o e → LogOk o Terms.free (e :: w.log) → I w → I (w.push e))
    (htick : ∀ {w : World} (d : ℕ), I w → I { w with now := w.now + d })
    {p : Pool o.system} (hp : Pool.Reaches A (emptyPool o) p) : I p.state := by
  induction hp with
  | refl => exact hempty
  | @tail q r a hq hmeets hact ih =>
    have hr : Pool.Reaches Conditions.free (emptyPool o) r :=
      (Pool.Reaches.tail a hq hmeets hact).free
    have hlog := reaches_logOk_free hr
    rcases Pool.act_cases hact with
      ⟨j, prog, rfl, -, rfl⟩ | ⟨i, c, j, op, k, x, w', rfl, hthread, hexec, rfl⟩ |
      ⟨i, rfl, rfl⟩ | ⟨m, w', rfl, hmove, rfl⟩
    · exact ih
    · have hallowed : A.call q.state op := hmeets op (by simp [Pool.nextCall, hthread])
      rcases World.exec_cases hexec with rfl | ⟨e, happ, rfl⟩
      · exact ih
      · exact hcall hallowed happ hlog ih
    · exact ih
    · cases m with
      | tick d =>
        cases hmove
        exact htick d ih
      | publish e =>
        cases hmove
        exact hout trivial hlog ih
      | register d =>
        obtain ⟨hvalid, rfl⟩ := Orchestrator.move_register hmove
        have hok : ∀ key : DefKey, d.name = key.name →
            OutsideOk o (.definition key d) := fun _ hname => ⟨hvalid, hname⟩
        exact hout (hok _ rfl) hlog (hout (hok _ rfl) hlog.tail ih)

end Dagnats
