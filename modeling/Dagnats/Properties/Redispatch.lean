import Dagnats.Interaction.Rerun
import Dagnats.Engine.Scenario

/-!
# Tasks that are sent again

A step that is retried, put off, looped or sent once more gets its task from
another place than `doPublish`: a timer that carries what it needs of the step,
the sticky router, or `PublishIteration`. Each builds the payload by hand.

Here each is compared with the payload of `doPublish`, apart from the numbers,
the nonce and the state, which belong to the attempt. The timers of a retry and
of a sticky fallback drop the capabilities of the step, no timer says that the
step is an agent loop, and a retry resolves the input of the step anew.
-/

namespace Dagnats

open Interaction

variable {t : TaskPayload} {tm : TimerMessage} {action : TimerAction} {n : Option ℕ}
  {state : StepState} {stepID : String} {delayMs : ℤ}

/-- What a task carries of its step and its run: all but the numbers, the nonce and
the state. The route is no part of the payload. -/
def TaskPayload.work (t : TaskPayload) : TaskPayload :=
  { t with attempt := 0, iteration := 0, dispatchNonce := none, state := .nil
           route := .queued }

def Call.sendsOnly (T : TaskPayload → Prop) (U : TimerMessage → Prop) : Call → Prop
  | .task t => T t
  | .timer tm _ => U tm
  | _ => True

/-- Whatever the answers, the program sends only tasks with `T` and timers with
`U`, and returns only values with `J`. -/
def SendsOnly {α : Type} (T : TaskPayload → Prop) (U : TimerMessage → Prop) (p : M α)
    (J : α → Prop) : Prop :=
  p.Within (fun _ _ => True) (Call.sendsOnly T U) fun r => ∀ a, r = .ok a → J a

abbrev Sends {α : Type} (T : TaskPayload → Prop) (U : TimerMessage → Prop) (p : M α) : Prop :=
  SendsOnly T U p fun _ => True

namespace SendsOnly

variable {α β : Type} {T : TaskPayload → Prop} {U : TimerMessage → Prop} {p : M α} {f : α → M β}
  {J J' : α → Prop} {Q : β → Prop}

lemma pure {a : α} (h : J a) : SendsOnly T U (Prog.pure a) J := by
  rintro b ⟨⟩
  exact h

lemma ends {a : α} : Sends T U (Prog.pure a) := pure trivial

lemma fail {e : Err} : SendsOnly T U (Prog.fail e : M α) J :=
  nofun

section

variable (hp : SendsOnly T U p J)
include hp

lemma bind (hf : ∀ a, J a → SendsOnly T U (f a) Q) :
    SendsOnly T U (p.bind f) Q :=
  Prog.Within.bind hp (fun a ha => hf a (ha a rfl)) fun _ _ => nofun

lemma outcome :
    SendsOnly T U (Dagnats.outcome p) fun r => ∀ a, r = .ok a → J a := by
  apply Prog.Within.attempt hp
  · rintro a ha r ⟨⟩ b hb
    exact ha b hb
  · rintro e - r ⟨⟩
    nofun
  · exact fun _ _ => nofun

lemma ignoring : Sends T U (Dagnats.ignoring p) :=
  hp.outcome.bind fun _ _ => ends

lemma task_of_makes (h : p.Makes (.task t)) : T t := by
  have hsends : (Call.task t).sendsOnly T U := Prog.Within.of_makes hp h
  exact hsends

lemma timer_of_makes (h : p.Makes (.timer tm n)) : U tm := by
  have hsends : (Call.timer tm n).sendsOnly T U := Prog.Within.of_makes hp h
  exact hsends

end

lemma ite {c : Prop} [Decidable c] {q : M α} (hp : c → SendsOnly T U p J)
    (hq : ¬c → SendsOnly T U q J) : SendsOnly T U (if c then p else q) J := by
  split
  · next h => exact hp h
  · next h => exact hq h

lemma guard {c : Prop} [Decidable c] {e : Err} {q : M α} (hq : ¬c → SendsOnly T U q J) :
    SendsOnly T U (if c then Prog.fail e else q) J :=
  ite (fun _ => fail) hq

lemma early {c : Prop} [Decidable c] {a : α} {q : M α} (hq : ¬c → Sends T U q) :
    Sends T U (if c then Prog.pure a else q) :=
  ite (fun _ => ends) hq

lemma request {op : Call} (h : op.sendsOnly T U) : Sends T U (Dagnats.request op) := by
  refine ⟨h, fun a _ => ?_⟩
  cases a with
  | ok v => exact ends
  | error e => exact fail

lemma fold {as : List α} {b : β} {g : β → α → M β} {I : β → Prop} (hinit : I b)
    (hround : ∀ a ∈ as, ∀ b, I b → SendsOnly T U (g b a) I) :
    SendsOnly T U (Prog.fold g as b) I := by
  apply Prog.Within.fold
  · rintro b ⟨⟩
    exact hinit
  · exact fun a ha b hb => hround a ha b (hb b rfl)

lemma nonceOrMint {runID : String} {nonce : Option ℕ} :
    Sends T U (Dagnats.nonceOrMint runID stepID nonce) := by
  cases nonce with
  | none => exact request trivial
  | some n => exact ends

lemma requireTask {step : StepDef} : Sends T U (Dagnats.requireTask step) :=
  guard fun _ => ends

lemma requireMarshal {message : String} {input : Raw} :
    Sends T U (Dagnats.requireMarshal message input) :=
  ite (fun _ => fail) fun _ => ends

lemma schedule {tm : TimerMessage} {n : Option ℕ} (h : U tm) : Sends T U (Dagnats.schedule tm n) :=
  bind requireMarshal fun _ _ => request h

lemma load {runID : String} : Sends T U (Dagnats.load runID) :=
  request trivial

lemma loadPinnedOrLatestDef {o : Orchestrator} {run : WorkflowRun} :
    Sends T U (o.loadPinnedOrLatestDef run) := by
  have hheal : Sends T U (o.selfHealMissingVersion run) :=
    bind (request (by trivial)) fun d _ => guard fun _ =>
      bind (request (by trivial)) fun _ _ => ends
  refine ite (fun _ => request trivial) fun _ => bind (request (by trivial)).outcome ?_
  intro r _
  split
  · exact guard fun _ => ends
  · refine bind hheal.outcome fun r _ => ?_
    split
    · exact ends
    · exact fail
  · exact fail

lemma loadRunAndDef {o : Orchestrator} {runID : String} : Sends T U (o.loadRunAndDef runID) := by
  refine bind load fun run _ => bind loadPinnedOrLatestDef.outcome fun r _ => ?_
  cases r with
  | ok d => exact ends
  | error e => exact guard fun _ => fail

lemma getWorker {o : Orchestrator} {runID : String} : Sends T U (o.getWorker runID) := by
  refine ite (fun _ => bind (request (by trivial)).outcome fun r _ => ?_) fun _ => ends
  cases r with
  | ok worker | error e => exact ends

lemma resolvedInput {step : StepDef} {run : WorkflowRun} :
    SendsOnly T U (Dagnats.resolvedInput step run) fun input => resolveInput step run =
    some input := by
  unfold Dagnats.resolvedInput
  split
  · next input hinput => exact pure hinput
  · exact fail

lemma redispatchTask : SendsOnly T U (Dagnats.redispatchTask tm) fun r => ∀ t, r = some t →
    ∃ a i n s, t = tm.task a i n s := by
  refine bind nonceOrMint fun n _ => bind load.outcome fun r _ => ?_
  cases r with
  | error e =>
    apply pure
    rintro t ⟨⟩
    exact ⟨_, _, _, _, rfl⟩
  | ok run =>
    refine ite (fun _ => pure nofun) fun _ => ?_
    apply pure
    rintro t ⟨⟩
    exact ⟨_, _, _, _, rfl⟩

lemma attemptLength {state : StepState} : Sends T U (Dagnats.attemptLength tm state) := by
  unfold Dagnats.attemptLength
  split
  · exact ends
  · exact bind (request trivial) fun _ _ => ends

/-- A timer publishes a task of its own making or none, and arms no timer. -/
lemma fireTimer : Sends (fun t => ∃ a i n s, t = tm.task a i n s) (fun _ => False)
      (Dagnats.fireTimer tm) := by
  have hredispatch : Sends (fun t => ∃ a i n s, t = tm.task a i n s) (fun _ => False)
      (fireRedispatch tm) := by
    refine guard fun _ => bind redispatchTask fun r hr => ?_
    cases r with
    | none => exact ends
    | some t => exact ignoring (request (hr t rfl))
  have hpublish : ∀ e : Event, Sends (fun t => ∃ a i n s, t = tm.task a i n s)
      (fun _ => False) (Dagnats.ignoring (publishEvent e)) :=
    fun e => (request (by trivial)).ignoring
  unfold Dagnats.fireTimer
  split
  · exact hpublish _
  · exact hpublish _
  · exact hpublish _
  · exact hredispatch
  · exact hredispatch
  · exact hredispatch
  · exact hredispatch
  · refine bind load.outcome fun r _ => ?_
    cases r with
    | error e => exact ends
    | ok run => exact early fun _ => bind attemptLength fun _ _ => hpublish _
  · refine bind load.outcome fun r _ => ?_
    cases r with
    | error e => exact ends
    | ok run =>
      exact early fun _ => ignoring (request ⟨_, _, _, _, rfl⟩)
  · exact hpublish _

variable {o : Orchestrator} {runID : String} {step : StepDef} {input : Raw} {run : WorkflowRun}
  {workflowName : String} {nonce : Option ℕ}

lemma checkRateLimit : Sends T (fun tm => ∃ ms, tm =
        o.deferralTimer .rateRetry runID step input ms workflowName nonce)
      (o.checkRateLimit runID step input workflowName nonce) := by
  have happly : Sends T (fun tm => ∃ ms, tm =
        o.deferralTimer .rateRetry runID step input ms workflowName nonce)
      (o.applyRateLimit runID step input workflowName nonce) := by
    refine bind (request (by trivial)) fun r _ => ?_
    cases r with
    | none => exact ends
    | some ms =>
      refine bind (J := fun _ => True) ?_ fun _ _ => ends
      exact bind requireTask fun _ _ => schedule ⟨_, rfl⟩
  refine early fun _ => guard fun _ => ite (fun _ => happly) fun _ => ?_
  split
  · exact ends
  · refine bind (J := fun _ => True) ?_ fun _ _ => happly
    unfold ofFault
    split
    · exact ends
    · exact fail

lemma scheduleConcurrencyRetry : Sends T (fun tm => tm =
        o.deferralTimer .taskConcurRetry runID step input 1000 workflowName nonce)
      (o.scheduleConcurrencyRetry runID step input workflowName nonce) :=
  bind requireTask fun _ _ => schedule rfl

lemma doPublish : Sends
      (fun t => ∃ n, t = o.newAttemptTask runID step input run workflowName (some n)) U
      (o.doPublish runID step input run workflowName nonce) :=
  bind nonceOrMint fun n _ => bind requireMarshal fun _ _ => bind requireTask fun _ _ =>
    request ⟨n, rfl⟩

lemma publishSticky {worker : String} {strategy : StickyStrategy} :
    Sends (fun t => t = o.stickyTask runID step input run worker workflowName nonce)
      (fun tm => ∃ a, tm = o.fallbackTimer runID step input a workflowName nonce)
      (o.publishSticky runID step input run worker strategy workflowName nonce) :=
  bind requireTask fun _ _ => bind requireMarshal fun _ _ => bind (request rfl) fun _ _ =>
    ite (fun _ => ignoring (schedule ⟨_, rfl⟩)) fun _ => ends

lemma scheduleRetry : Sends T (fun tm => ∃ input, resolveInput step run = some input ∧ tm =
        o.retryTimer action run stepID step input delayMs workflowName)
      (o.scheduleRetry action run stepID step delayMs workflowName) :=
  bind resolvedInput fun input hinput => bind requireTask fun _ _ =>
    schedule ⟨input, hinput, rfl⟩

lemma publishContinueTask : Sends (fun t => ∃ input a i n s, resolveInput step run = some input ∧
        t = o.iterationTask run.runID step input a i run.workflowID n s)
      (fun tm => tm.action = .loopWait ∨ ∃ input delay,
        resolveInput step run = some input ∧ tm = o.loopDelayTimer run step input delay)
      (o.publishContinueTask run step state) := by
  refine ite (fun _ => ?_) fun _ => bind resolvedInput fun input hinput => ?_
  · unfold sendWait
    split
    · exact ends
    · exact bind (request (by trivial)) fun t _ => schedule (.inl rfl)
  · refine ite (fun _ => ?_) fun _ => guard fun _ => ?_
    · exact bind requireTask fun _ _ => schedule (.inr ⟨input, _, hinput, rfl⟩)
    · refine bind resolvedInput fun input hinput => bind nonceOrMint fun n _ => ?_
      exact bind requireMarshal fun _ _ => bind requireTask fun _ _ =>
        request ⟨input, _, _, _, _, hinput, rfl⟩

lemma weaken {T' : TaskPayload → Prop} {U' : TimerMessage → Prop} (hp : SendsOnly T U p J)
    (hT : ∀ t, T t → T' t) (hU : ∀ tm, U tm → U' tm) : SendsOnly T' U' p J := by
  refine Prog.Within.weaken hp (fun _ _ h => h) fun op hop => ?_
  cases op with
  | task t => exact hT t hop
  | timer tm n => exact hU tm hop
  | _ => trivial

/-- What leaves `doPublish` or the sticky router for this step. -/
def OfSending (o : Orchestrator) (runID : String) (step : StepDef) (input : Raw)
    (run : WorkflowRun) (workflowName : String) (t : TaskPayload) : Prop :=
  (∃ n, t = o.newAttemptTask runID step input run workflowName n) ∨
    ∃ worker n, t = o.stickyTask runID step input run worker workflowName n

lemma publish : Sends (OfSending o runID step input run workflowName) (fun _ => True)
      (o.publish runID step input run workflowName nonce) := by
  have hqueue : Sends (OfSending o runID step input run workflowName) (fun _ => True)
      (o.doPublish runID step input run workflowName nonce) :=
    doPublish.weaken (fun _ ⟨n, ht⟩ => .inl ⟨some n, ht⟩) fun _ h => h
  have hadmitted : Sends (OfSending o runID step input run workflowName)
      (fun _ => True) (o.publishAdmitted runID step input run workflowName nonce) := by
    refine bind getWorker fun worker _ => ite (fun _ => hqueue) fun _ => ?_
    refine bind loadRunAndDef.outcome fun r _ => ?_
    split
    · refine ite (fun _ => hqueue) fun _ => ?_
      exact publishSticky.weaken (fun _ ht => .inr ⟨_, _, ht⟩) fun _ _ => trivial
    · exact hqueue
  have hacquire : Sends (OfSending o runID step input run workflowName)
      (fun _ => True) (acquireTask step.task runID step.id step.maxTaskConcurrency) :=
    early fun _ => request (by trivial)
  refine bind (checkRateLimit.weaken (fun _ h => h) fun _ _ => trivial) fun deferred _ =>
    early fun _ => ite (fun _ => bind hacquire fun acquired _ => ?_)
      fun _ => hadmitted
  exact ite (fun _ => hadmitted) fun _ =>
    scheduleConcurrencyRetry.weaken (fun _ h => h) fun _ _ => trivial

lemma publishBatch : Sends (fun t => ∃ input, resolveInput step run = some input ∧
        OfSending o run.runID step input run run.workflowID t) (fun _ => True)
      (o.publishBatch run [step]) := by
  have hsend : ∀ send ∈ o.batchSends run [step], Sends
      (fun t => ∃ input, resolveInput step run = some input ∧
        OfSending o run.runID step input run run.workflowID t) (fun _ => True)
      send := by
    unfold Orchestrator.batchSends
    split
    · intro send hsend
      rw [List.mem_singleton] at hsend
      subst hsend
      exact fail
    · next input hinput =>
      intro send hsend
      rw [Orchestrator.batchSends, List.mem_singleton] at hsend
      subst hsend
      exact publish.weaken (fun _ ht => ⟨input, hinput, ht⟩) fun _ h => h
  refine bind (fold (I := fun _ => True) trivial fun send hmem failed _ => ?_) fun failed _ => ?_
  · refine bind (hsend send hmem).outcome fun r _ => ?_
    split <;> exact ends
  · split
    · exact ends
    · exact fail

end SendsOnly

/-! ## The paths -/

/-- The arguments with which `doPublish` builds a task. -/
structure Sending where
  step : StepDef
  input : Raw
  run : WorkflowRun
  workflowName : String
  nonce : Option ℕ

/-- The places from which a step's task is sent again. -/
inductive ResendPath where
  | rateDeferral | concurrencyDeferral
  | softFallback (worker : String)
  | retryAfter (d : WorkflowDef) (delayMs : ℤ)
  | retryBackoff (d : WorkflowDef) (delayMs : ℤ)
  | loopDelay
  | loopContinue
  /-- A resend through the queue. -/
  | resend
  /-- A send to the worker that the run sticks to. -/
  | sticky (worker : String) (strategy : StickyStrategy)

/-- The program arms a timer, and the timer may publish the task. -/
def Fires {α : Type} (p : M α) (t : TaskPayload) : Prop :=
  ∃ tm n, p.Makes (.timer tm n) ∧ (fireTimer tm).Makes (.task t)

namespace Sending

variable (o : Orchestrator) (x : Sending)

/-- The task of `doPublish`. -/
def task : TaskPayload :=
  o.newAttemptTask x.run.runID x.step x.input x.run x.workflowName x.nonce

def Resends (t : TaskPayload) : ResendPath → Prop
  | .rateDeferral =>
    Fires (o.checkRateLimit x.run.runID x.step x.input x.workflowName x.nonce) t
  | .concurrencyDeferral =>
    Fires (o.scheduleConcurrencyRetry x.run.runID x.step x.input x.workflowName x.nonce) t
  | .softFallback worker =>
    Fires (o.publishSticky x.run.runID x.step x.input x.run worker .soft x.workflowName x.nonce) t
  | .retryAfter d delayMs =>
    Fires (o.scheduleRetry .retryAfter x.run x.step.id x.step delayMs d.name) t
  | .retryBackoff d delayMs =>
    Fires (o.scheduleRetry .retryBackoff x.run x.step.id x.step delayMs d.name) t
  | .loopDelay => Fires (o.publishContinueTask x.run x.step (x.run.step x.step.id)) t
  | .loopContinue =>
    (o.publishContinueTask x.run x.step (x.run.step x.step.id)).Makes (.task t)
  | .resend => (o.publishBatch x.run [x.step]).Makes (.task t) ∧ t.route = .queued
  | .sticky worker strategy =>
    (o.publishSticky x.run.runID x.step x.input x.run worker strategy x.workflowName
      x.nonce).Makes (.task t)

/-- The step has no capabilities that its task would show. -/
def Bare : Prop :=
  o.effectiveCapabilities x.step.requiredCapabilities x.workflowName = []

def Resolved : Prop :=
  resolveInput x.step x.run = some x.input

/-- What the path leaves as it was. -/
def Kept : ResendPath → Prop
  | .rateDeferral | .concurrencyDeferral => x.step.type ≠ .agentLoop
  | .softFallback _ => x.Bare o ∧ x.step.type ≠ .agentLoop
  | .retryAfter d _ | .retryBackoff d _ =>
    x.Bare o ∧ x.step.type ≠ .agentLoop ∧ x.Resolved ∧ x.workflowName = d.name
  | .loopDelay =>
    x.step.type ≠ .agentLoop ∧ x.Resolved ∧ x.workflowName = x.run.workflowID
  | .loopContinue | .resend => x.Resolved ∧ x.workflowName = x.run.workflowID
  | .sticky worker _ => x.Bare o ∧ o.stepSubject x.step x.run.runID =
      "sticky." ++ x.step.task ++ "." ++ worker ++ "." ++ x.run.runID

/-! ## Comparing the payloads -/

lemma stepSubject_ne_empty (step : StepDef) (runID : String) : o.stepSubject step runID ≠ "" := by
  intro h
  have hchars := congrArg String.toList h
  simp [Orchestrator.stepSubject] at hchars

/-- The timer carries the step's task type, names, metadata and subject. -/
structure Carried (tm : TimerMessage) : Prop where
  taskType : tm.taskType = x.step.task
  runID : tm.runID = x.run.runID
  stepID : tm.stepID = x.step.id
  metadata : tm.metadata = x.step.metadata
  subject : tm.subject = o.stepSubject x.step x.run.runID

variable {o x}

lemma Carried.work_eq_iff (h : x.Carried o tm) (ht : ∃ a i n s, t = tm.task a i n s) :
    (x.task o).work = t.work ↔ o.effectiveCapabilities x.step.requiredCapabilities x.workflowName =
    tm.requiredCapabilities ∧ x.step.type ≠ .agentLoop ∧ x.input = tm.input ∧ x.workflowName =
    tm.workflowName := by
  obtain ⟨a, i, n, s, rfl⟩ := ht
  have hsubject : tm.dispatchSubject = o.stepSubject x.step x.run.runID := by
    rw [TimerMessage.dispatchSubject, h.subject, if_pos (stepSubject_ne_empty o _ _)]
  simp only [TaskPayload.work, task, Orchestrator.newAttemptTask, TimerMessage.task,
    h.taskType, h.runID, h.stepID, h.metadata, hsubject, TaskPayload.mk.injEq, true_and,
    and_true, decide_eq_false_iff_not]
  tauto

lemma of_fires {α : Type} {p : M α} {T : TaskPayload → Prop} {U : TimerMessage → Prop}
    {J : α → Prop} (hp : SendsOnly T U p J) (h : Fires p t) :
    ∃ tm, U tm ∧ (fireTimer tm).Makes (.task t) ∧ ∃ a i n s, t = tm.task a i n s := by
  obtain ⟨tm, n, htimer, htask⟩ := h
  exact ⟨tm, hp.timer_of_makes htimer, htask, SendsOnly.fireTimer.task_of_makes htask⟩

/-- A timer that is carried along for a resolved input. -/
lemma resolved_iff {input : Raw} (h : resolveInput x.step x.run = some input) :
    x.input = input ↔ x.Resolved := by
  rw [Resolved, h, Option.some.injEq]
  exact eq_comm

lemma retry_work_iff {d : WorkflowDef}
    (h : Fires (o.scheduleRetry action x.run x.step.id x.step delayMs d.name) t) : (x.task o).work =
    t.work ↔ x.Bare o ∧ x.step.type ≠ .agentLoop ∧ x.Resolved ∧ x.workflowName = d.name := by
  obtain ⟨tm, ⟨input, hinput, rfl⟩, -, ht⟩ :=
    of_fires (SendsOnly.scheduleRetry (T := fun _ => True)) h
  have hcarried : x.Carried o (o.retryTimer action x.run x.step.id x.step input delayMs d.name) :=
    ⟨rfl, rfl, rfl, rfl, rfl⟩
  rw [hcarried.work_eq_iff ht, ← resolved_iff hinput]
  exact Iff.rfl

lemma deferral_work_iff {ms : ℤ}
    (ht : ∃ a i n s, t = (o.deferralTimer action x.run.runID x.step x.input ms
      x.workflowName x.nonce).task a i n s) :
    (x.task o).work = t.work ↔ x.step.type ≠ .agentLoop := by
  have hcarried : x.Carried o (o.deferralTimer action x.run.runID x.step x.input ms
      x.workflowName x.nonce) := ⟨rfl, rfl, rfl, rfl, rfl⟩
  rw [hcarried.work_eq_iff ht]
  simp [Orchestrator.deferralTimer]

lemma loopDelay_work_iff (h : Fires (o.publishContinueTask x.run x.step state) t) :
    (x.task o).work = t.work ↔ x.step.type ≠ .agentLoop ∧ x.Resolved ∧
    x.workflowName = x.run.workflowID := by
  obtain ⟨tm, htm, htask, ht⟩ := of_fires SendsOnly.publishContinueTask h
  rcases htm with hwait | ⟨input, delay, hinput, rfl⟩
  · -- The timer of a wait publishes an event.
    rw [fireTimer, hwait] at htask
    exact absurd (SendsOnly.task_of_makes (T := fun _ => False) (U := fun _ => True)
      (SendsOnly.ignoring (SendsOnly.request (by trivial))) htask) id
  · have hcarried : x.Carried o (o.loopDelayTimer x.run x.step input delay) :=
      ⟨rfl, rfl, rfl, rfl, rfl⟩
    rw [hcarried.work_eq_iff ht, ← resolved_iff hinput]
    constructor
    · rintro ⟨-, htype, hinput', hname⟩
      exact ⟨htype, hinput', hname⟩
    · rintro ⟨htype, hinput', hname⟩
      exact ⟨by rw [hname]; rfl, htype, hinput', hname⟩

lemma iteration_work_iff {input : Raw} {a i : ℕ} {s : Raw}
    (hinput : resolveInput x.step x.run = some input) :
    (x.task o).work = (o.iterationTask x.run.runID x.step input a i x.run.workflowID n s).work ↔
    x.Resolved ∧ x.workflowName = x.run.workflowID := by
  rw [← resolved_iff hinput]
  simp only [TaskPayload.work, task, Orchestrator.newAttemptTask,
    Orchestrator.iterationTask, TaskPayload.mk.injEq, true_and, and_true]
  constructor
  · rintro ⟨hinput', hname, -⟩
    exact ⟨hinput', hname⟩
  · rintro ⟨hinput', hname⟩
    exact ⟨hinput', hname, by rw [hname]⟩

/-- A task that is sent again carries what `doPublish` would send exactly as far as
its path keeps it. -/
theorem resends_same_work_iff {path : ResendPath} {t : TaskPayload}
    (h : x.Resends o t path) : (x.task o).work = t.work ↔ x.Kept o path := by
  cases path with
  | rateDeferral =>
    obtain ⟨tm, ⟨ms, rfl⟩, -, ht⟩ := of_fires (SendsOnly.checkRateLimit (T := fun _ => True)) h
    exact deferral_work_iff ht
  | concurrencyDeferral =>
    obtain ⟨tm, rfl, -, ht⟩ :=
      of_fires (SendsOnly.scheduleConcurrencyRetry (T := fun _ => True)) h
    exact deferral_work_iff ht
  | softFallback worker =>
    obtain ⟨tm, ⟨a, rfl⟩, -, ht⟩ := of_fires SendsOnly.publishSticky h
    have hcarried : x.Carried o (o.fallbackTimer x.run.runID x.step x.input a
        x.workflowName x.nonce) := ⟨rfl, rfl, rfl, rfl, rfl⟩
    rw [hcarried.work_eq_iff ht]
    simp [Orchestrator.fallbackTimer, Kept, Bare]
  | retryAfter d delayMs | retryBackoff d delayMs => exact retry_work_iff h
  | loopDelay => exact loopDelay_work_iff h
  | loopContinue =>
    obtain ⟨input, a, i, n, s, hinput, rfl⟩ := SendsOnly.publishContinueTask.task_of_makes h
    exact iteration_work_iff hinput
  | resend =>
    obtain ⟨hmakes, hroute⟩ := h
    obtain ⟨input, hinput, ⟨n, rfl⟩ | ⟨worker, n, rfl⟩⟩ :=
      SendsOnly.publishBatch.task_of_makes hmakes
    · exact iteration_work_iff (a := 0) (i := 0) (n := none) (s := .nil) hinput
    · cases hroute
  | sticky worker strategy =>
    obtain rfl := SendsOnly.publishSticky.task_of_makes h
    simp only [TaskPayload.work, task, Orchestrator.newAttemptTask, Orchestrator.stickyTask,
      TaskPayload.mk.injEq, true_and, and_true]
    exact Iff.rfl

namespace Plain

/-- A step without capabilities, as its run stores it after a failed attempt. -/
def failed : Sending where
  step := { id := "a", task := "work" }
  input := .nil
  run := (newWorkflowRun { name := "w", steps := [{ id := "a", task := "work" }] }
    "r" "" 0).setStep "a" { status := .running, attempts := 1, dispatchNonce := some 7 }
  workflowName := "w"
  nonce := some 7

def timer : TimerMessage :=
  Orchestrator.plain.retryTimer .retryBackoff failed.run "a" failed.step .nil 100 "w"

/-- The retried task is the task of a first dispatch. -/
theorem retry_same_work : failed.Resends Orchestrator.plain (timer.task 0 0 (some 7) .nil)
      (.retryBackoff { name := "w", steps := [] } 100) ∧
    (failed.task Orchestrator.plain).work = (timer.task 0 0 (some 7) .nil).work := by
  have hresolved : resolveInput failed.step failed.run = some .nil := by rfl
  have hresends : failed.Resends Orchestrator.plain (timer.task 0 0 (some 7) .nil)
      (.retryBackoff { name := "w", steps := [] } 100) := by
    refine ⟨timer, some 7, .inl rfl, ?_⟩
    exact .inr ⟨.error .unavailable, .inl rfl⟩
  refine ⟨hresends, (resends_same_work_iff hresends).mpr ⟨?_, ?_, hresolved, rfl⟩⟩
  · rfl
  · decide

end Plain

end Sending

/-! ## A step with a capability that is retried -/

namespace Capable

/-- `a` asks for a worker with a GPU, and may be retried. -/
def workflow : WorkflowDef where
  name := "train"
  steps := [{ id := "a", task := "work", requiredCapabilities := ["gpu"]
              retry := some { maxAttempts := 3 } }]

/-- A first dispatch of `a` and a retry that any worker may take. -/
def stripped (t t' : TaskPayload) : Bool :=
  t.runID = t'.runID && t.stepID = t'.stepID && t.route = .queued &&
    t'.route = .retryBackoff && t.requiredCapabilities = ["gpu"] &&
    t'.requiredCapabilities = []

/-- `a` fails once, and the timer of its retry publishes the task. -/
theorem retry_without_capability : Valid Orchestrator.plain workflow ∧
    ∃ (p : Pool Orchestrator.plain.system) (t t' : TaskPayload),
    Pool.Reaches Conditions.free (emptyPool Orchestrator.plain) p ∧ .task t ∈ p.state.log ∧
    .task t' ∈ p.state.log ∧ t.runID = t'.runID ∧ t.stepID = t'.stepID ∧ t.route = .queued ∧
    t'.route = .retryBackoff ∧ t.requiredCapabilities = ["gpu"] ∧ t'.requiredCapabilities = [] := by
  refine ⟨by decide +kernel, ?_⟩
  obtain ⟨p, hp, htest⟩ := reaches_free Orchestrator.plain
    (launched _ workflow ++ replied .stepFailed "a" 5 10 ++ [pass 1000000000] ++ perform (.fire 13))
    (fun p => p.state.taskAt 8 fun t => p.state.taskAt 14 (stripped t))
  obtain ⟨t, ht, htest⟩ := World.taskAt_at htest
  obtain ⟨t', ht', htest⟩ := World.taskAt_at htest
  simp only [stripped, Bool.and_eq_true, decide_eq_true_eq, and_assoc] at htest
  exact ⟨p, t, t', hp, ht.mem, ht'.mem, htest⟩

end Capable

end Dagnats
