import Mathlib.Data.List.Forall2
import Dagnats.Engine.Refinement.Admitting

/-!
# The fence and the task publisher keep the contract

The specifications of the functions between the store and the handlers: what
the fence lets through, and that every task carries the identity of the copy it
is published from.
-/

namespace Dagnats

open Interaction

variable {o : Orchestrator} {K : Terms} {w t : World} {step : StepDef} {runID name : String}
  {run : WorkflowRun} {input : Raw} {nonce : Option ℕ}

/-! ## The fence -/

/-- The copy that a handler goes on with after the fence. -/
inductive Fenced (o : Orchestrator) (run : WorkflowRun) (e : Event)
    (run' : WorkflowRun) : Prop where
  | accepted : fencedEventType e.type = true →
      acceptStepEvent (run.step e.stepID) e o.legacyStepEvents = none →
      SameRun run run' → run'.dynamicSteps = run.dynamicSteps →
      run'.step e.stepID = adopted (run.step e.stepID) e →
      (∀ s, run'.setStep e.stepID s = { run with recording := some ⟨e, true⟩ }.setStep e.stepID s) →
      Fenced o run e run'
  | passed : fencedEventType e.type = false →
      run' = { run with recording := some ⟨e, false⟩ } → Fenced o run e run'

lemma fenced_of_accepted {e : Event} (htype : fencedEventType e.type = true)
    (haccept : acceptStepEvent (run.step e.stepID) e o.legacyStepEvents = none) : Fenced o run e
      { (if (run.step e.stepID).status = .queued ∧ 0 < e.attemptNumber then
          adoptDispatchAttempt run e
        else run) with recording := some ⟨e, true⟩ } := by
  by_cases hadopt : (run.step e.stepID).status = .queued ∧
      0 < e.attemptNumber ∧ (run.step e.stepID).attempts < e.attemptNumber
  · rw [if_pos ⟨hadopt.1, hadopt.2.1⟩, adoptDispatchAttempt, if_pos hadopt.2.2]
    refine .accepted htype haccept ⟨rfl, rfl, rfl, rfl, rfl, rfl⟩ rfl ?_ fun s => ?_
    · rw [adopted, if_pos hadopt]
      exact WorkflowRun.step_setStep_self run e.stepID _
    · simp [WorkflowRun.setStep]
  · have hsame : (if (run.step e.stepID).status = .queued ∧
        0 < e.attemptNumber then adoptDispatchAttempt run e else run) = run := by
      split
      · next h =>
        rw [adoptDispatchAttempt, if_neg fun hlt => hadopt ⟨h.1, h.2, hlt⟩]
      · rfl
    rw [hsame]
    refine .accepted htype haccept ⟨rfl, rfl, rfl, rfl, rfl, rfl⟩ rfl ?_ fun s => rfl
    rw [adopted, if_neg hadopt]
    rfl

lemma Does.fenceStepEvent {e : Event} : Does o K w (o.fenceStepEvent run e) fun r _ => ∀ run', r =
    some run' → e.runID = run.runID ∧ Fenced o run e run' := by
  refine guard fun hid => guard fun _ =>
    ite (fun htype => pure fun _ _ run' h => ?_) fun htype => ?_
  · cases h
    exact ⟨(not_not.mp hid).symm, .passed (by simpa using htype) rfl⟩
  · dsimp only
    split
    · exact pure fun _ _ run' h => nomatch h
    · next haccept =>
      refine pure fun _ _ run' h => ?_
      cases h
      exact ⟨(not_not.mp hid).symm, fenced_of_accepted (by simpa using htype) haccept⟩

/-! ## Publishing a task -/

/-- The copy `run` may send step `id` under `nonce`: its own, or one that no
step carries. -/
structure Sendable (o : Orchestrator) (w : World) (runID : String) (run : WorkflowRun)
    (id : String) (nonce : Option ℕ) : Prop where
  held : HeldStep o w.log runID id (run.step id)
  own : nonce = (run.step id).dispatchNonce ∨ OffBoard w.log nonce
  minted : MintedNonce w.log runID id nonce

lemma Sendable.mono {id : String} (h : Sendable o w runID run id nonce) (hgrows : w.Grows t) :
    Sendable o t runID run id nonce where
  held := h.held.mono hgrows.1
  own := h.own.imp_right fun h => h.mono hgrows.1
  minted := h.minted.mono hgrows.1

/-- The task of the step may go out for this dispatch: it has the token and the
slot it needs. -/
structure Cleared (o : Orchestrator) (log : List Entry) (runID : String)
    (step : StepDef) (nonce : Option ℕ) : Prop where
  known : StepOf o log runID step
  allowed : RateAllowed o log runID step nonce
  slot : ∀ n, nonce = some n → TaskSlotTaken o log runID step n

lemma Cleared.mono {log log' : List Entry} (h : Cleared o log runID step nonce)
    (hlog : log <:+ log') : Cleared o log' runID step nonce where
  known := h.known.mono hlog
  allowed := h.allowed.mono hlog
  slot n hn := (h.slot n hn).mono hlog

/-- What is known after a task was sent or deferred. -/
def Sent (w : World) (runID stepID : String) (nonce : Option ℕ) : Prop :=
  SentFor w.log runID stepID nonce ∨ nonce = none

lemma taskOk_newAttempt (h : Sendable o w runID run step.id nonce) :
    TaskOk o w.log (o.newAttemptTask runID step input run name nonce) :=
  .inr ⟨run.step step.id, h.held, rfl, h.own.imp id .inl, .inl rfl⟩

namespace Does

lemma requireTask : Keeps o K w (Dagnats.requireTask step) :=
  guard fun _ => ends

lemma nonceOrMint {stepID : String} :
    Does o K w (Dagnats.nonceOrMint runID stepID nonce) fun n t => nonce = some n ∨
    (nonce = none ∧ OffBoard t.log (some n)) := by
  cases nonce with
  | some n => exact pure fun _ _ => .inl rfl
  | none =>
    refine newNonce.conseq fun n t _ _ h => .inr ⟨rfl, n, _, rfl, h.2, ?_⟩
    exact .inl rfl

lemma scheduleFor {tm : TimerMessage} (h : ∀ t, w.Grows t → TimerOk o t.log tm) :
    Does o K w (Dagnats.schedule tm nonce) fun _ t => SentFor t.log tm.runID tm.stepID nonce := by
  refine conseq (schedule h) fun _ t _ _ hsent => ?_
  obtain ⟨publishedAt, hmem⟩ := hsent
  exact .inr (.inl ⟨_, publishedAt, hmem, rfl, rfl⟩)

section

variable (hstep : StepOf o w.log runID step)
include hstep

lemma scheduleRateRetry {retryAfterMs : ℤ} {n : ℕ} :
    Does o K w (o.scheduleRateRetry runID step input retryAfterMs name (some n))
      fun _ t => SentFor t.log runID step.id (some n) := by
  refine bind requireTask fun _ t _ hwt _ => scheduleFor fun u htu => ?_
  refine ⟨step, n, hstep.mono (hwt.trans htu).1, rfl, rfl, rfl, fun hdue => ?_⟩
  rcases hdue with haction | hatt
  · cases haction
  · exact absurd hatt (Nat.lt_irrefl 0)

lemma scheduleConcurrencyRetry {n : ℕ} (hallowed : RateAllowed o w.log runID step (some n)) :
    Does o K w (o.scheduleConcurrencyRetry runID step input name (some n))
      fun _ t => SentFor t.log runID step.id (some n) := by
  refine bind requireTask fun _ t _ hwt _ => scheduleFor fun u htu => ?_
  have hwu := (hwt.trans htu).1
  exact ⟨step, n, hstep.mono hwu, rfl, rfl, rfl, fun _ => hallowed.mono hwu⟩

lemma applyRateLimit {n : ℕ} :
    Does o K w (o.applyRateLimit runID step input name (some n)) fun deferred t =>
      (deferred = true → SentFor t.log runID step.id (some n)) ∧
        (deferred = false → RateAllowed o t.log runID step (some n)) := by
  refine bind allow fun r t _ hwt htoken => ?_
  cases r with
  | none =>
    refine pure fun u htu => ⟨(fun h => nomatch h), fun _ _ _ => ?_⟩
    exact htu.1.subset (htoken rfl)
  | some ms =>
    refine bind (scheduleRateRetry (hstep.mono hwt.1)) fun _ u _ _ h =>
      pure fun v hv => ⟨fun _ => h.mono hv.1, (fun h => nomatch h)⟩

lemma checkRateLimit {n : ℕ} :
    Does o K w (o.checkRateLimit runID step input name (some n)) fun deferred t =>
      (deferred = true → SentFor t.log runID step.id (some n)) ∧
        (deferred = false → RateAllowed o t.log runID step (some n)) := by
  refine ite (fun hoff => pure fun _ _ => ⟨(fun h => nomatch h), fun _ hon => ?_⟩) fun _ =>
    guard fun _ => ite (fun _ => applyRateLimit hstep) fun hplain => ?_
  · simp [hon] at hoff
  · split
    · next hkeyed =>
      refine pure fun _ _ => ⟨(fun h => nomatch h), fun _ _ hlimited => ?_⟩
      simp [rateLimited, hplain, hkeyed] at hlimited
    · exact bind ofFault fun _ _ _ hwt _ => applyRateLimit (hstep.mono hwt.1)

end

section

variable {n : ℕ} (h : Sendable o w runID run step.id (some n))
  (hclear : Cleared o w.log runID step (some n))
include h hclear

lemma doPublish : Does o K w (o.doPublish runID step input run name (some n))
      fun _ t => SentFor t.log runID step.id (some n) := by
  refine bind nonceOrMint fun n' s _ hws hn => bind requireMarshal fun _ t _ hst _ =>
    bind requireTask fun _ u _ htu _ => ?_
  have hwu := hws.trans (hst.trans htu)
  obtain rfl : n = n' := by
    rcases hn with hn | ⟨hn, -⟩
    · exact Option.some.inj hn
    · cases hn
  have hfree := hclear.mono hwu.1
  refine (task (taskOk_newAttempt (h.mono hwu)) (.published step n hfree.known rfl rfl rfl
    (h.mono hwu).minted hfree.allowed (hfree.slot n rfl))).conseq fun _ v _ _ hmem => ?_
  exact .inl ⟨_, hmem, rfl, rfl, rfl⟩

lemma publishSticky {worker : String} {strategy : StickyStrategy} :
    Does o K w (o.publishSticky runID step input run worker strategy name (some n))
      fun _ t => SentFor t.log runID step.id (some n) := by
  refine bind requireTask fun _ s _ hws _ => bind requireMarshal fun _ t _ hst _ => ?_
  have hwt := hws.trans hst
  have hsend := h.mono hwt
  have hok : TaskOk o t.log (o.stickyTask runID step input run worker name (some n)) :=
    .inr ⟨run.step step.id, hsend.held, rfl, hsend.own.imp id .inl, .inl rfl⟩
  have hfree := hclear.mono hwt.1
  refine bind (task hok (.published step n hfree.known rfl rfl rfl hsend.minted
    hfree.allowed (hfree.slot n rfl))) fun _ u _ htu hmem => ?_
  have hsent : SentFor u.log runID step.id (some n) := .inl ⟨_, hmem, rfl, rfl, rfl⟩
  refine ite (fun _ => ?_) fun _ => pure fun v hv => hsent.mono hv.1
  refine conseq (ignoring (schedule fun v huv => ?_)) fun _ v _ huv _ => hsent.mono huv.1
  have hwv := (hwt.trans (htu.trans huv)).1
  exact ⟨step, n, hclear.known.mono hwv, rfl, rfl, rfl, fun _ => hclear.allowed.mono hwv⟩

end

lemma getWorker : Keeps o K w (o.getWorker runID) := by
  refine ite (fun _ => bind boundWorker.outcome fun r t _ _ _ => ?_) fun _ => ends
  cases r <;> exact ends

lemma publishAdmitted {n : ℕ} (h : Sendable o w runID run step.id (some n))
    (hclear : Cleared o w.log runID step (some n)) :
    Does o K w (o.publishAdmitted runID step input run name (some n))
      fun _ t => SentFor t.log runID step.id (some n) := by
  refine bind getWorker fun worker t _ hwt _ => ?_
  have hsend := h.mono hwt
  have hclear' := hclear.mono hwt.1
  refine ite (fun _ => doPublish hsend hclear') fun _ => ?_
  refine bind loadRunAndDef.outcome fun r u _ htu _ => ?_
  split
  · exact ite (fun _ => doPublish (hsend.mono htu) (hclear'.mono htu.1)) fun _ =>
      publishSticky (hsend.mono htu) (hclear'.mono htu.1)
  · exact doPublish (hsend.mono htu) (hclear'.mono htu.1)

lemma publish (hstep : StepOf o w.log runID step) (h : Sendable o w runID run step.id nonce) :
    Does o K w (o.publish runID step input run name nonce)
      fun _ t => SentFor t.log runID step.id nonce := by
  obtain ⟨n, m, rfl, hat, -⟩ := h.minted
  refine bind (checkRateLimit hstep) fun deferred t _ hwt hdeferred => ?_
  have hsend := h.mono hwt
  have hstep' := hstep.mono hwt.1
  refine ite (fun htrue => pure fun u hu => (hdeferred.1 htrue).mono hu.1) fun hpass => ?_
  have hallowed := hdeferred.2 (Bool.eq_false_iff.mpr hpass)
  refine ite (fun hlimited => ?_) fun hfree => ?_
  · refine bind (acquireTask hstep') fun acquired u _ htu hslot => ?_
    refine ite (fun hgot => ?_) fun _ => ?_
    · refine publishAdmitted (hsend.mono htu)
        ⟨hstep'.mono htu.1, hallowed.mono htu.1, fun n' hn' _ hpos => ?_⟩
      cases hn'
      obtain ⟨older, hsuffix, hlength, hmem⟩ := hslot hgot hpos
      exact ⟨older, hsuffix, (hat.mono hwt.1).lt.le.trans hlength, hmem⟩
    · exact scheduleConcurrencyRetry (hstep'.mono htu.1) (hallowed.mono htu.1)
  · refine publishAdmitted hsend ⟨hstep', hallowed, fun n' _ hcon hpos => ?_⟩
    exact absurd ⟨hpos, hcon⟩ hfree

lemma publishBlank (htask : step.task = "") (hfree : step.maxTaskConcurrency ≤ 0) :
    Keeps o K w (o.publish runID step input run name nonce) := by
  have hblank : ∀ {t : World} {α : Type} {p : Unit → M α},
      Keeps o K t ((Dagnats.requireTask step).bind p) := by
    intro t α p
    rw [Dagnats.requireTask, if_pos htask]
    exact fail
  have hsend : ∀ {t : World}, Keeps o K t (o.doPublish runID step input run name
      nonce) := bind nonceOrMint fun _ _ _ _ _ => bind requireMarshal fun _ _ _ _ _ => hblank
  have hlimit : Does o K w (o.checkRateLimit runID step input name nonce) fun deferred _ =>
      deferred = false := by
    refine ite (fun _ => pure fun _ _ => rfl) fun _ => guard fun hnamed => ?_
    exact absurd htask hnamed
  refine bind hlimit fun deferred t _ _ hpass => ?_
  subst hpass
  refine ite (fun h => nomatch h) fun _ => ite (fun hpos => ?_) fun _ => ?_
  · exact absurd hpos.1 (Int.not_lt.mpr hfree)
  · refine bind getWorker fun worker u _ _ _ => ite (fun _ => hsend) fun _ => ?_
    refine bind loadRunAndDef.outcome fun r v _ _ _ => ?_
    split
    · exact ite (fun _ => hsend) fun _ => hblank
    · exact hsend

lemma publishIteration {s : StepState} {loopState : Raw}
    (hheld : HeldStep o w.log runID step.id s) (hmark : s.dispatchUnsent = true)
    (hiter : 0 < s.iterations) : Does o K w (o.publishIteration runID step input s.attempts
        s.iterations name s.dispatchNonce loopState)
      fun _ t => Sent t runID step.id s.dispatchNonce := by
  refine bind nonceOrMint fun n t _ hwt hn => bind requireMarshal fun _ v _ htv _ =>
    bind requireTask fun _ u _ hvu _ => ?_
  have htu := htv.trans hvu
  have hheld' := hheld.mono (hwt.trans htu).1
  rcases hn with hn | ⟨hn, hoff⟩
  · refine (task ?_ (.iterated hiter)).conseq fun _ v _ _ hmem => ?_
    · exact .inr ⟨s, hheld', rfl, .inl hn.symm, .inr ⟨rfl, rfl, .inl ⟨s, hheld', hn, hmark⟩⟩⟩
    · exact .inl (.inl ⟨_, hmem, rfl, rfl, hn.symm⟩)
  · have hoff' := hoff.mono htu.1
    refine (task ?_ (.iterated hiter)).conseq fun _ v _ _ _ => .inr hn
    exact .inr ⟨s, hheld', rfl, .inr (.inl hoff'), .inr ⟨rfl, rfl, .inr hoff'⟩⟩

lemma sendRound {failed : Option Err} {send : M Unit} {fact : World → Prop}
    (hstable : ∀ t u, World.Grows t u → fact t → fact u) (h : Does o K w send fun _ t => fact t) :
    Does o K w (Orchestrator.sendRound failed send) fun failed' t => failed' = none → failed =
    none ∧ fact t := by
  refine bind h.outcome fun r t _ _ hr => ?_
  cases r with
  | ok a => exact pure fun u htu hnone => ⟨hnone, hstable t u htu (hr a rfl)⟩
  | error e =>
    refine pure fun u _ hnone => ?_
    cases failed <;> cases hnone

/-- A send of a batch, with what is known once it succeeded. -/
def BatchSend (o : Orchestrator) (K : Terms) (w : World) (send : M Unit)
    (fact : World → Prop) : Prop :=
  (∀ t u, World.Grows t u → fact t → fact u) ∧ ∀ t, w.Grows t → Does o K t send fun _ u => fact u

section

variable {sends : List (M Unit)} {facts : List (World → Prop)}
  (h : List.Forall₂ (BatchSend o K w) sends facts)
include h

lemma batchSends_stable : ∀ fact ∈ facts, ∀ t u, World.Grows t u → fact t → fact u := by
  induction h with
  | nil => simp
  | cons hhead _ ih =>
    intro f hf
    rcases List.mem_cons.mp hf with rfl | hf
    · exact hhead.1
    · exact ih f hf

lemma sendRounds (failed : Option Err) (hwt : w.Grows t) :
    Does o K t (Prog.fold Orchestrator.sendRound sends failed) fun failed' u => failed' = none →
    failed = none ∧ ∀ fact ∈ facts, fact u := by
  induction h generalizing failed t with
  | nil => exact pure fun _ _ hnone => ⟨hnone, by simp⟩
  | @cons send fact sends facts hhead _ ih =>
    refine bind (sendRound hhead.1 (hhead.2 t hwt)) fun failed' u _ htu hround => ?_
    refine (ih failed' (hwt.trans htu)).conseq fun r v _ huv hrest hnone => ?_
    obtain ⟨hfailed', hfacts⟩ := hrest hnone
    obtain ⟨hfailed, hfact⟩ := hround hfailed'
    refine ⟨hfailed, fun f hf => ?_⟩
    rcases List.mem_cons.mp hf with rfl | hf
    · exact hhead.1 u v huv hfact
    · exact hfacts f hf

lemma sendAll : Does o K w (Orchestrator.sendAll sends) fun _ t => ∀ fact ∈ facts, fact t := by
  refine bind (sendRounds h none (World.Grows.refl w)) fun failed t _ _ hfailed => ?_
  cases failed with
  | none =>
    exact pure fun u htu fact hfact =>
      batchSends_stable h fact hfact t u htu ((hfailed rfl).2 fact hfact)
  | some e => exact throw

end

/-- The step belongs to the run and was stamped in this copy of it. -/
structure Dispatchable (o : Orchestrator) (w : World) (run : WorkflowRun)
    (step : StepDef) : Prop where
  known : StepOf o w.log run.runID step
  minted : MintedNonce w.log run.runID step.id (run.step step.id).dispatchNonce

lemma Dispatchable.mono (h : Dispatchable o w run step) (hgrows : w.Grows t) :
    Dispatchable o t run step :=
  ⟨h.known.mono hgrows.1, h.minted.mono hgrows.1⟩

lemma Dispatchable.congr {run' : WorkflowRun} (h : Dispatchable o w run step)
    (hid : run'.runID = run.runID)
    (hnonce : (run'.step step.id).dispatchNonce = (run.step step.id).dispatchNonce) :
    Dispatchable o w run' step := by
  constructor
  · rw [hid]
    exact h.known
  · rw [hid, hnonce]
    exact h.minted

section

variable {ready : List StepDef} (h : Held o w run)
  (hready : ∀ step ∈ ready, Dispatchable o w run step)
include h hready

lemma batchSends : ∃ facts, List.Forall₂ (BatchSend o K w) (o.batchSends run ready) facts ∧ ∀ t,
    (∀ fact ∈ facts, fact t) → ∀ step ∈ ready,
    SentFor t.log run.runID step.id (run.step step.id).dispatchNonce := by
  induction ready with
  | nil => exact ⟨[], .nil, fun _ _ step hstep => nomatch hstep⟩
  | cons step ready ih =>
    unfold Orchestrator.batchSends
    split
    · refine ⟨[fun _ => False], .cons ⟨fun _ _ _ h => h, fun _ _ => throw⟩ .nil,
        fun t ht => (ht _ (List.mem_singleton_self _)).elim⟩
    · have hstep := hready step (.head _)
      obtain ⟨facts, hsends, hfacts⟩ :=
        ih fun other hother => hready other (.tail _ hother)
      refine ⟨(fun t => SentFor t.log run.runID step.id (run.step step.id).dispatchNonce) :: facts,
        .cons ⟨fun t u htu h => h.mono htu.1, fun t hwt => ?_⟩ hsends,
        fun t ht other hother => ?_⟩
      · exact publish (hstep.known.mono hwt.1)
          ⟨(h.mono hwt).heldStep step.id, .inl rfl, hstep.minted.mono hwt.1⟩
      · rcases List.mem_cons.mp hother with rfl | hother
        · exact ht _ (.head _)
        · exact hfacts t (fun f hf => ht f (.tail _ hf)) other hother

lemma publishBatch : Does o K w (o.publishBatch run ready) fun _ t => ∀ step ∈ ready,
    SentFor t.log run.runID step.id (run.step step.id).dispatchNonce := by
  obtain ⟨facts, hsends, hfacts⟩ := batchSends (K := K) h hready
  exact (sendAll hsends).conseq fun _ t _ _ ht => hfacts t ht

end

variable (h : Held o w run) (hstep : StepOf o w.log run.runID step)
include h hstep

lemma publishMapTask {item : Json × ℕ} :
    Keeps o K w (o.publishMapTask run name step item) := by
  refine bind newNonce fun n t _ hwt hn => (publish (hstep.mono hwt.1).mapInstanceStep ?_).keeps
  exact ⟨(h.mono hwt).heldStep _, .inr ⟨n, _, rfl, hn.2, .inr rfl⟩, ⟨n, _, rfl, hn.2, rfl, rfl⟩⟩

lemma publishMapTasks {items : List Json} :
    Keeps o K w (o.publishMapTasks run name step items) := by
  have hsends : List.Forall₂ (BatchSend o K w) (items.zipIdx.map (o.publishMapTask run name step))
      (items.zipIdx.map fun _ _ => True) := by
    rw [List.forall₂_map_left_iff, List.forall₂_map_right_iff, List.forall₂_same]
    exact fun item _ => ⟨fun _ _ _ h => h,
      fun t hwt => publishMapTask (h.mono hwt) (hstep.mono hwt.1)⟩
  exact (sendAll hsends).keeps

end Does

end Dagnats
