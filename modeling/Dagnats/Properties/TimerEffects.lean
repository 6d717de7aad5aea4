import Dagnats.Interaction.Execution
import Dagnats.Engine.Lifecycle
import Dagnats.Properties.TimerDelivery

/-!
# Acknowledged timers

A timer that fires is acknowledged whatever became of its action: the helpers
that publish its event or its task drop their errors. What it stands for has
reached the stream, or was no longer wanted, exactly if none of the calls it
depends on was refused.
-/

namespace Dagnats

open Interaction Delivery

variable {s t : SleepState} {e : Err} {op : Call} {run : WorkflowRun} {c : Choice} {runID : String}

def TimerAction.eventType : TimerAction → Option EventType
  | .sleepComplete => some .stepSleepCompleted
  | .waitTimeout => some .stepWaitTimeout
  | .approvalTimeout => some .approvalExpired
  | .stepTimeout => some .stepFailed
  | .loopWait => some .stepWaitElapsed
  | .rateRetry | .taskConcurRetry | .retryAfter | .retryBackoff | .loopDelay => none

def TimerMessage.sends (tm : TimerMessage) : Call → Bool
  | .event e =>
    tm.action.eventType = some e.type && e.runID = tm.runID && e.stepID = tm.stepID
  | .task t =>
    tm.action.eventType = none && t.task = tm.taskType && t.runID = tm.runID && t.stepID = tm.stepID
  | _ => false

/-- The step has left the state the timer was armed for. -/
def TimerMessage.outdated (tm : TimerMessage) (run : WorkflowRun) : Bool :=
  let state := run.step tm.stepID
  match tm.action with
  | .stepTimeout =>
    !run.steps.has tm.stepID || state.status ≠ .running || state.attempts ≠ tm.attempt
  | .loopDelay =>
    !(state.status = .running || state.status = .queued) ||
      state.iterations ≠ tm.iteration || state.dispatchNonce ≠ tm.dispatchNonce
  | _ => redispatchStale tm state

/-- A task is sent again even where its run cannot be read. -/
def TimerAction.readsRun : TimerAction → Bool
  | .stepTimeout | .loopDelay => true
  | _ => false

/-- The call puts what the message stands for on its stream. -/
def SleepMessage.sends : SleepMessage → SleepCall → Bool
  | .step tm, .engine op => tm.sends op
  | .debounce .., .engine (.event e) => e.type = .workflowStarted
  | _, _ => false

/-- The answer shows that the message is stale: the step has moved on or its run
is gone; the window was closed or prolonged, or its trigger is gone. -/
def SleepMessage.staleBy (timerSeq : ℕ) : SleepMessage → (op : SleepCall) → SleepAnswer op → Bool
  | .step tm, .engine (.load _), .ok run => tm.outdated run
  | .step tm, .engine (.load _), .error e => tm.action.readsRun && e = .runNotFound
  | .debounce .., .getWindow _, .ok .absent => true
  | .debounce .., .getWindow _, .ok (.value entry) => entry.timerSeq ≠ timerSeq
  | .debounce .., .getTrigger _, .ok .absent => true
  | .debounce triggerID _ _, .getTrigger _, .ok (.value d) => !d.live triggerID
  | _, _, _ => false

/-- A call that the message depends on was refused, or found a value that does
not decode. -/
def SleepMessage.failsBy : SleepMessage → (op : SleepCall) → Choice → SleepAnswer op → Bool
  | .step tm, .engine (.load _), c, _ => tm.action.readsRun && c = .fail
  | _, .engine (.event _), c, _ => c = .fail
  | _, .engine (.task _), c, _ => c = .fail
  | _, .getWindow _, _, .ok .corrupt => true
  | _, .getWindow _, c, _ => c = .fail
  | _, .getTrigger _, _, .ok .corrupt => true
  | _, .getTrigger _, c, _ => c = .fail
  | _, _, _, _ => false

variable {st : SleepTimer} {msg : SleepMessage} {timerSeq : ℕ}
  {moments : List (Moment (st.system msg))}

/-- What the message stands for was accepted by its stream. -/
def Issued (moments : List (Moment (st.system msg))) : Prop :=
  ∃ m ∈ moments, msg.sends m.op = true ∧ m.choice ≠ Choice.fail

/-- The message was found to be stale. -/
def Stale (timerSeq : ℕ) (moments : List (Moment (st.system msg))) : Prop :=
  ∃ m ∈ moments, msg.staleBy timerSeq m.op m.answer = true

/-- A call the message depends on failed. -/
def Hindered (moments : List (Moment (st.system msg))) : Prop :=
  ∃ m ∈ moments, msg.failsBy m.op m.choice m.answer = true

variable {m : Moment (st.system msg)}

lemma issued_cons :
    Issued (m :: moments) ↔ (msg.sends m.op = true ∧ m.choice ≠ Choice.fail) ∨ Issued moments := by
  simp only [Issued, List.mem_cons, exists_eq_or_imp]

lemma stale_cons : Stale timerSeq (m :: moments) ↔
    msg.staleBy timerSeq m.op m.answer = true ∨ Stale timerSeq moments := by
  simp only [Stale, List.mem_cons, exists_eq_or_imp]

lemma hindered_cons : Hindered (m :: moments) ↔
    msg.failsBy m.op m.choice m.answer = true ∨ Hindered moments := by
  simp only [Hindered, List.mem_cons, exists_eq_or_imp]

lemma read_choice {α : Type} {v : α} {a : Except Err α} (h : s.read v c = some (a, t)) :
    c = cond a.isOk Choice.done Choice.fail := by
  cases c with
  | done | fail =>
    cases h
    rfl
  | _ => cases h

lemma load_error (h : s.exec (.engine (.load runID)) c = some (.error e, t)) :
    e = .runNotFound ↔ c ≠ .fail := by
  obtain ⟨⟨a, w⟩, hw, hr⟩ := Option.map_eq_some_iff.mp h
  obtain ⟨ha, -⟩ := Prod.mk.inj hr
  cases c with
  | done =>
    simp only [World.exec, World.read] at hw
    split at hw
    · cases hw; cases ha
    · cases hw; cases ha; simp
  | fail =>
    cases hw
    cases ha
    simp
  | _ => cases hw

lemma load_ok (h : s.exec (.engine (.load runID)) c = some (.ok run, t)) : c ≠ .fail := by
  rintro rfl
  cases (Prod.mk.inj (Option.some.inj h)).1

/-! ## Decisive calls -/

/-- A call that decides nothing. -/
def Neutral (timerSeq : ℕ) (m : Moment (st.system msg)) : Prop :=
  msg.sends m.op = false ∧ msg.staleBy timerSeq m.op m.answer = false ∧
    msg.failsBy m.op m.choice m.answer = false

/-- By this call the message was sent or found to be stale, unless it failed. -/
def Decisive (timerSeq : ℕ) (m : Moment (st.system msg)) : Prop :=
  (msg.sends m.op = true ∧ m.choice ≠ Choice.fail) ∨ msg.staleBy timerSeq m.op m.answer = true ↔
    msg.failsBy m.op m.choice m.answer = false

/-- The message was sent or found to be stale, unless it was hindered. -/
def Accounted (timerSeq : ℕ) (moments : List (Moment (st.system msg))) : Prop :=
  Issued moments ∨ Stale timerSeq moments ↔ ¬Hindered moments

/-- The calls after a decisive one do not matter where they are neutral. -/
lemma Decisive.accounted (hm : Decisive timerSeq m)
    (hrest : ∀ x ∈ moments, Neutral timerSeq x) : Accounted timerSeq (m :: moments) := by
  have hissued : ¬Issued moments := by
    rintro ⟨x, hx, hsends, -⟩
    rw [(hrest x hx).1] at hsends
    cases hsends
  have hstale : ¬Stale timerSeq moments := by
    rintro ⟨x, hx, hstale⟩
    rw [(hrest x hx).2.1] at hstale
    cases hstale
  have hhindered : ¬Hindered moments := by
    rintro ⟨x, hx, hfails⟩
    rw [(hrest x hx).2.2] at hfails
    cases hfails
  rw [Accounted, issued_cons, stale_cons, hindered_cons, or_iff_left hissued, or_iff_left hstale,
    or_iff_left hhindered, Bool.not_eq_true]
  exact hm

lemma Accounted.cons (hm : Neutral timerSeq m)
    (hrest : Accounted timerSeq moments) : Accounted timerSeq (m :: moments) := by
  obtain ⟨hsends, hstale, hfails⟩ := hm
  rw [Accounted, issued_cons, stale_cons, hindered_cons, hsends, hstale, hfails]
  simpa [Accounted] using hrest

/-- A read decides if it shows the message to be stale exactly where it does not
fail. -/
lemma decisive_read (hop : msg.sends m.op = false)
    (h : msg.staleBy timerSeq m.op m.answer = !msg.failsBy m.op m.choice m.answer) :
    Decisive timerSeq m := by
  rw [Decisive, hop, h]
  simp

/-- A call that sends the message decides, whether it is accepted or refused. -/
lemma decisive_send {a : Answer op} (hm : m.known = ⟨.engine op, a⟩)
    (hop : msg.sends (.engine op) = true) : Decisive timerSeq m := by
  obtain ⟨s, op', c, a', n, hpossible⟩ := m
  cases hm
  have hdecides : msg.staleBy timerSeq (.engine op) a' = false ∧
      (msg.failsBy (.engine op) c a' = false ↔ c ≠ Choice.fail) := by
    cases msg with
    | step tm =>
      cases op with
      | event e | task t => exact ⟨rfl, decide_eq_false_iff_not⟩
      | _ => cases hop
    | debounce triggerID key durationMs =>
      cases op with
      | event e => exact ⟨rfl, decide_eq_false_iff_not⟩
      | _ => cases hop
  rw [Decisive, hop, hdecides.1, hdecides.2]
  simp

/-! ## Programs that decide once -/

/-- From a point where the message has been decided over or not, one more call
decides at most: every run to the end has one decisive call. -/
def Accounts (st : SleepTimer) (msg : SleepMessage) (timerSeq : ℕ) : Bool → SleepProg Unit → Prop
  | decided, .pure _ => decided = true
  | _, .fail _ => True
  | decided, .call op k => ∀ (m : Moment (st.system msg)) (a : SleepAnswer op), m.known = ⟨op, a⟩ →
        (Neutral timerSeq m ∧ Accounts st msg timerSeq decided (k a)) ∨
          (decided = false ∧ Decisive timerSeq m ∧ Accounts st msg timerSeq true (k a))

/-- Before the decision a run accounts for the message, after it the calls do
not matter. -/
lemma Accounts.accounted {decided : Bool} {p : SleepProg Unit}
    (hp : Accounts st msg timerSeq decided p) (h : p.Yields (moments.map Moment.known) (.ok ())) :
    if decided then ∀ x ∈ moments, Neutral timerSeq x else Accounted timerSeq moments := by
  induction p generalizing decided moments with
  | pure a =>
    obtain ⟨rfl, -⟩ := Prog.Yields.of_pure h
    obtain rfl : decided = true := hp
    exact List.forall_mem_nil _
  | fail e => cases Prog.Yields.of_fail h
  | call op k ih =>
    obtain ⟨m, rest, a, rfl, hm, hrest⟩ := Prog.Yields.of_call h
    rcases hp m a hm with ⟨hneutral, hk⟩ | ⟨rfl, hdecisive, hk⟩
    · have hend := ih a hk hrest
      cases decided with
      | true => exact List.forall_mem_cons.mpr ⟨hneutral, hend⟩
      | false => exact Accounted.cons hneutral hend
    · exact hdecisive.accounted (ih a hk hrest)

lemma accounts_send (hop : msg.sends (.engine op) = true) :
    Accounts st msg timerSeq false (onEngine (ignoring (request op))) := by
  intro m a hm
  refine .inr ⟨rfl, decisive_send hm hop, ?_⟩
  cases a with
  | ok v => exact rfl
  | error e => cases e <;> first | exact rfl | exact trivial

/-! ## Timers of steps -/

section Steps

variable {tm : TimerMessage}

/-- The run decides where it shows that the timer is outdated, and where a timer
that needs the run cannot read it. -/
lemma accounts_load {k : Except Err WorkflowRun → M Unit}
    (hrun : ∀ run, Accounts st (.step tm) timerSeq (tm.outdated run) (onEngine (k (.ok run))))
    (hunread : ∀ e, Accounts st (.step tm) timerSeq tm.action.readsRun (onEngine (k (.error e)))) :
    Accounts st (.step tm) timerSeq false (onEngine ((outcome (load runID)).bind k)) := by
  rintro ⟨s, op, (c : Choice), a, n, hpossible⟩ a' hm
  cases hm
  have hfails : (SleepMessage.step tm).failsBy (.engine (.load runID)) c a =
    (tm.action.readsRun && decide (c = .fail)) := rfl
  cases a with
  | ok run =>
    have hread := load_ok hpossible
    have hrun := hrun run
    have hstale : (SleepMessage.step tm).staleBy timerSeq (.engine (.load runID)) (.ok run) =
      tm.outdated run := rfl
    cases houtdated : tm.outdated run with
    | true =>
      refine .inr ⟨rfl, decisive_read rfl ?_, houtdated ▸ hrun⟩
      simp [hstale, hfails, houtdated, hread]
    | false =>
      refine .inl ⟨⟨rfl, hstale.trans houtdated, ?_⟩, houtdated ▸ hrun⟩
      simp [hfails, hread]
  | error e =>
    have hgone := load_error hpossible
    have hunread := hunread e
    have hrest : Accounts st (.step tm) timerSeq tm.action.readsRun (onEngine
        ((Prog.attempt Err.isValue (Prog.fail e : M WorkflowRun)).bind k)) := by
      cases hvalue : e.isValue <;> simp only [Prog.attempt, hvalue]
      · exact trivial
      · exact hunread
    have hstale : (SleepMessage.step tm).staleBy timerSeq (.engine (.load runID)) (.error e) =
      (tm.action.readsRun && decide (e = .runNotFound)) := rfl
    cases hreads : tm.action.readsRun with
    | true =>
      refine .inr ⟨rfl, decisive_read rfl ?_, hreads ▸ hrest⟩
      simp [hstale, hfails, hreads, hgone]
    | false =>
      refine .inl ⟨⟨rfl, ?_, ?_⟩, hreads ▸ hrest⟩
      · simp [hstale, hreads]
      · simp [hfails, hreads]

lemma accounts_attemptLength {state : StepState} {k : Duration → M Unit}
    (h : ∀ dur, Accounts st (.step tm) timerSeq false (onEngine (k dur))) :
    Accounts st (.step tm) timerSeq false (onEngine ((attemptLength tm state).bind k)) := by
  unfold attemptLength
  split
  · exact h _
  · rintro ⟨s, op, c, a, n, hpossible⟩ a' hm
    cases hm
    refine .inl ⟨⟨rfl, rfl, rfl⟩, ?_⟩
    cases a with
    | ok t => exact h _
    | error e => exact trivial

lemma accounts_stepTimeout (haction : tm.action = .stepTimeout) :
    Accounts st (.step tm) timerSeq false (onEngine (fireStepTimeout tm)) := by
  apply accounts_load
  · intro run
    by_cases hrun : !run.steps.has tm.stepID ∨ (run.step tm.stepID).status ≠ .running ∨
        (run.step tm.stepID).attempts ≠ tm.attempt
    · have houtdated : tm.outdated run = true := by
        simpa [TimerMessage.outdated, haction, or_assoc] using hrun
      simp only [if_pos hrun, houtdated]
      exact rfl
    · have hcurrent : tm.outdated run = false := by
        simpa [TimerMessage.outdated, haction, not_or, and_assoc] using hrun
      simp only [if_neg hrun, hcurrent]
      refine accounts_attemptLength fun dur => accounts_send ?_
      simp [SleepMessage.sends, TimerMessage.sends, haction, TimerAction.eventType,
        Event.setIdentity]
  · intro e
    rw [haction]
    exact rfl

lemma accounts_loopDelay (haction : tm.action = .loopDelay) :
    Accounts st (.step tm) timerSeq false (onEngine (fireLoopDelay tm)) := by
  apply accounts_load
  · intro run
    have houtdated : tm.outdated run = (!((run.step tm.stepID).status = .running ||
        (run.step tm.stepID).status = .queued) || (run.step tm.stepID).iterations ≠ tm.iteration ||
          (run.step tm.stepID).dispatchNonce ≠ tm.dispatchNonce) := by
      rw [TimerMessage.outdated, haction]
    dsimp only
    rw [← houtdated]
    by_cases hrun : tm.outdated run = true
    · rw [if_pos hrun, hrun]
      exact rfl
    · rw [if_neg hrun, Bool.eq_false_iff.mpr hrun]
      apply accounts_send
      simp [SleepMessage.sends, TimerMessage.sends, TimerMessage.task, haction,
        TimerAction.eventType]
  · intro e
    rw [haction]
    exact rfl

lemma redispatches_eq (h : tm.action.redispatches = true) : tm.action.readsRun = false ∧
    tm.action.eventType = none ∧ ∀ run, tm.outdated run =
    redispatchStale tm (run.step tm.stepID) := by
  cases haction : tm.action with
  | rateRetry | taskConcurRetry | retryAfter | retryBackoff =>
    refine ⟨rfl, rfl, fun run => ?_⟩
    rw [TimerMessage.outdated, haction]
  | _ =>
    rw [haction] at h
    cases h

lemma accounts_nonceOrMint {nonce : Option ℕ} {k : ℕ → M Unit}
    (h : ∀ n, Accounts st (.step tm) timerSeq false (onEngine (k n))) :
    Accounts st (.step tm) timerSeq false
      (onEngine ((nonceOrMint tm.runID tm.stepID nonce).bind k)) := by
  cases nonce with
  | some n => exact h n
  | none =>
    rintro ⟨s, op, c, a, n, hpossible⟩ a' hm
    cases hm
    refine .inl ⟨⟨rfl, rfl, rfl⟩, ?_⟩
    cases a with
    | ok fallback => exact h fallback
    | error e => exact trivial

/-- The task of a timer that dispatches a step again is its own, and none is
built where the timer is stale. -/
lemma accounts_redispatch (haction : tm.action.redispatches = true) :
    Accounts st (.step tm) timerSeq false (onEngine (fireRedispatch tm)) := by
  obtain ⟨hreads, hevent, houtdated⟩ := redispatches_eq haction
  have hsend : ∀ attempts iterations nonce state, Accounts st (.step tm) timerSeq false
      (onEngine (ignoring (request (.task (tm.task attempts iterations nonce state))))) := by
    intro attempts iterations nonce state
    apply accounts_send
    simp [SleepMessage.sends, TimerMessage.sends, TimerMessage.task, hevent]
  rw [fireRedispatch]
  split
  · exact trivial
  change Accounts _ _ _ _ (onEngine (Prog.bind (Prog.bind _ _) _))
  rw [Prog.bind_assoc]
  refine accounts_nonceOrMint fun fallback => ?_
  change Accounts _ _ _ _ (onEngine (Prog.bind (Prog.bind _ _) _))
  rw [Prog.bind_assoc]
  apply accounts_load
  · intro run
    rw [houtdated run]
    dsimp only
    split
    · next hstale =>
      rw [hstale]
      exact rfl
    · next hcurrent =>
      rw [Bool.eq_false_iff.mpr hcurrent]
      exact hsend _ _ _ _
  · intro e
    rw [hreads]
    exact hsend _ _ _ _

lemma accounts_fireTimer : Accounts st (.step tm) timerSeq false (onEngine (fireTimer tm)) := by
  cases haction : tm.action with
  | sleepComplete | waitTimeout | approvalTimeout | loopWait =>
    rw [fireTimer, haction]
    apply accounts_send
    simp [SleepMessage.sends, TimerMessage.sends, haction, TimerAction.eventType, Event.setIdentity]
  | rateRetry | taskConcurRetry | retryAfter | retryBackoff =>
    rw [fireTimer, haction]
    apply accounts_redispatch
    rw [haction]
    rfl
  | stepTimeout =>
    rw [fireTimer, haction]
    exact accounts_stepTimeout haction
  | loopDelay =>
    rw [fireTimer, haction]
    exact accounts_loopDelay haction

end Steps

/-! ## Debounce timers -/

section Windows

variable {triggerID key : String} {durationMs : ℤ}

lemma accounts_deleteWindow :
    Accounts st (.debounce triggerID key durationMs) timerSeq true (deleteWindow key) := by
  rintro ⟨s, op, c, a, n, hpossible⟩ a' hm
  cases hm
  exact .inl ⟨⟨rfl, rfl, rfl⟩, rfl⟩

lemma now_eq {a : Except Err Time} (h : s.exec (.engine .now) c = some (a, t)) :
    ∃ v, a = .ok v := by
  cases c with
  | done => exact ⟨_, (Prod.mk.inj (Option.some.inj h)).1.symm⟩
  | _ => cases h

lemma newID_eq {a : Except Err String} (h : s.exec (.engine .newID) c = some (a, t)) :
    ∃ v, a = .ok v := by
  obtain ⟨⟨a', w⟩, hw, hr⟩ := Option.map_eq_some_iff.mp h
  obtain ⟨rfl, -⟩ := Prod.mk.inj hr
  cases c with
  | fresh v =>
    simp only [World.exec, World.mintID] at hw
    split at hw
    · exact ⟨v, (Prod.mk.inj (Option.some.inj hw)).1.symm⟩
    · cases hw
  | _ => cases hw

/-- The run of the trigger is started by the last of three calls, and the window
is removed if that call succeeds. -/
lemma accounts_publishSubjectFire {d : TriggerDef} {data : Raw} :
    Accounts st (.debounce triggerID key durationMs) timerSeq false
      ((onEngine (outcome (publishSubjectFire d data))).bind fun
        | .error _ => Prog.pure ()
        | .ok _ => deleteWindow key) := by
  rintro ⟨s, op, c, a, n, hpossible⟩ a' hm
  cases hm
  obtain ⟨t, rfl⟩ := now_eq hpossible
  refine .inl ⟨⟨rfl, rfl, rfl⟩, ?_⟩
  rintro ⟨s, op, c, a, n, hpossible⟩ a' hm
  cases hm
  obtain ⟨runID, rfl⟩ := newID_eq hpossible
  refine .inl ⟨⟨rfl, rfl, rfl⟩, ?_⟩
  intro m a hm
  refine .inr ⟨rfl, decisive_send hm rfl, ?_⟩
  cases a with
  | ok v => exact accounts_deleteWindow
  | error e => cases e <;> first | exact rfl | exact trivial

/-- A trigger that asks for no more runs, or cannot be read, decides. -/
lemma accounts_loadLiveTrigger {k : Option TriggerDef → SleepProg Unit}
    (hlive : ∀ d, Accounts st (.debounce triggerID key durationMs) timerSeq false (k (some d)))
    (hdead : Accounts st (.debounce triggerID key durationMs) timerSeq true (k none)) :
    Accounts st (.debounce triggerID key durationMs) timerSeq false
      ((loadLiveTrigger triggerID).bind k) := by
  rintro ⟨s, op, c, a, n, hpossible⟩ a' hm
  cases hm
  obtain rfl := read_choice hpossible
  rcases a with e | absent | corrupt | d
  · exact .inr ⟨rfl, decisive_read rfl rfl, hdead⟩
  · exact .inr ⟨rfl, decisive_read rfl rfl, hdead⟩
  · exact .inr ⟨rfl, decisive_read rfl rfl, hdead⟩
  · by_cases hd : d.live triggerID = true
    · simp only [if_pos hd]
      exact .inl ⟨⟨rfl, congrArg not hd, rfl⟩, hlive d⟩
    · simp only [if_neg hd]
      exact .inr ⟨trivial, decisive_read rfl (congrArg not (Bool.eq_false_iff.mpr hd)), hdead⟩

/-- A window that is gone, prolonged or unreadable decides. -/
lemma accounts_handleTimerFire (hid : triggerID ≠ "") (hkey : key ≠ "") :
    Accounts st (.debounce triggerID key durationMs) timerSeq false
      (handleTimerFire triggerID key timerSeq) := by
  rw [handleTimerFire, if_neg (not_or.mpr ⟨hkey, hid⟩)]
  rintro ⟨s, op, c, a, n, hpossible⟩ a' hm
  cases hm
  obtain rfl := read_choice hpossible
  rcases a with e | absent | corrupt | entry
  · exact .inr ⟨rfl, decisive_read rfl rfl, rfl⟩
  · exact .inr ⟨rfl, decisive_read rfl rfl, rfl⟩
  · exact .inr ⟨rfl, decisive_read rfl rfl, rfl⟩
  · by_cases hentry : entry.timerSeq = timerSeq
    · simp only [if_neg (not_not.mpr hentry)]
      refine .inl ⟨⟨rfl, decide_eq_false (not_not.mpr hentry), rfl⟩, ?_⟩
      exact accounts_loadLiveTrigger (fun d => accounts_publishSubjectFire) accounts_deleteWindow
    · simp only [if_pos hentry]
      exact .inr ⟨trivial, decisive_read rfl (decide_eq_true hentry), rfl⟩

end Windows

/-! ## Acknowledgements -/

/-- A debounce timer needs a handler that is wired, and names its window. -/
def SleepTimer.Handles (st : SleepTimer) : SleepMessage → Prop
  | .step _ => True
  | .debounce triggerID key _ => st.onDebounce = true ∧ triggerID ≠ "" ∧ key ≠ ""

lemma unhandled {triggerID key : String} {durationMs : ℤ}
    {windows : List (Moment (st.system (.debounce triggerID key durationMs)))}
    (h : ¬st.Handles (.debounce triggerID key durationMs))
    (hfire : (st.fire timerSeq (.debounce triggerID key durationMs)).Yields
      (windows.map Moment.known) (.ok ())) : windows = [] := by
  rw [SleepTimer.fire] at hfire
  by_cases hwired : st.onDebounce = true
  · have hnameless : key = "" ∨ triggerID = "" := by
      by_contra hnamed
      obtain ⟨hkey, hid⟩ := not_or.mp hnamed
      exact h ⟨hwired, hid, hkey⟩
    rw [if_pos hwired, handleTimerFire, if_pos hnameless] at hfire
    exact (Prog.Yields.of_pure hfire).1
  · rw [if_neg hwired] at hfire
    exact (Prog.Yields.of_pure hfire).1

/-- A timer that is acknowledged was sent, or found to be stale, exactly if its
action has a handler and no call it depends on failed. -/
theorem acknowledged_iff {metadata : Option (ℕ × ℕ)}
    (h : (st.handleTimerJS metadata (some msg)).Yields (moments.map Moment.known) (.ok .ack)) :
    (Issued moments ∨ ∃ n timerSeq, metadata = some (n, timerSeq) ∧ Stale timerSeq moments) ↔
    st.Handles msg ∧ ¬Hindered moments := by
  cases metadata with
  | none => cases (Prog.Yields.of_pure h).2
  | some metadata =>
    obtain ⟨n, timerSeq⟩ := metadata
    have hfire : (st.fire timerSeq msg).Yields (moments.map Moment.known) (.ok ()) := by
      rw [SleepTimer.handleTimerJS_delivered] at h
      by_cases hfirst : n = 1
      · rw [if_pos hfirst] at h
        cases (Prog.Yields.of_pure h).2
      · rw [if_neg hfirst] at h
        obtain ⟨_, front, back, rfl, hfront, hback⟩ := Prog.Yields.of_bind h
        obtain ⟨rfl, -⟩ := Prog.Yields.of_pure hback
        rwa [List.append_nil]
    have hstale : (∃ n' timerSeq', some (n, timerSeq) = some (n', timerSeq') ∧
        Stale timerSeq' moments) ↔ Stale timerSeq moments := by
      constructor
      · rintro ⟨_, _, ⟨rfl, rfl⟩, h⟩
        exact h
      · exact fun h => ⟨n, timerSeq, rfl, h⟩
    rw [hstale]
    cases msg with
    | step tm =>
      have hhandles : st.Handles (.step tm) := trivial
      rw [and_iff_right hhandles]
      exact accounts_fireTimer.accounted hfire
    | debounce triggerID key durationMs =>
      by_cases hhandles : st.Handles (.debounce triggerID key durationMs)
      · rw [SleepTimer.fire, if_pos hhandles.1] at hfire
        rw [and_iff_right hhandles]
        exact (accounts_handleTimerFire hhandles.2.1 hhandles.2.2).accounted hfire
      · have hnothing : moments = [] := unhandled hhandles hfire
        subst hnothing
        simp [Issued, Stale, hhandles]

namespace Timers

/-- The end of the sleep. -/
def wakeUp : SleepCall :=
  .engine (.event { type := .stepSleepCompleted, runID := "r", stepID := "a" })

/-- The second delivery of a sleep whose event is accepted. -/
theorem sleep_issued : ∃ moments : List (Moment (engine.system sleep)),
    (engine.handleTimerJS (some (2, 1)) (some sleep)).Yields (moments.map Moment.known) (.ok .ack) ∧
    ¬Hindered moments ∧
    (Issued moments ∨ ∃ n timerSeq, some (2, 1) = some (n, timerSeq) ∧ Stale timerSeq moments) := by
  let m : Moment (engine.system sleep) := ⟨scheduled, wakeUp, Choice.done, _, _, rfl⟩
  have hyields : (engine.handleTimerJS (some (2, 1)) (some sleep)).Yields
      ([m].map Moment.known) (.ok .ack) := Prog.Yields.call _ (.pure _)
  have hsmooth : ¬Hindered [m] := by
    rintro ⟨x, hx, hfails⟩
    rw [List.mem_singleton.mp hx] at hfails
    cases hfails
  exact ⟨[m], hyields, hsmooth, (acknowledged_iff hyields).mpr ⟨trivial, hsmooth⟩⟩

/-- The event of a sleep that is over is refused by the stream; the timer is
acknowledged all the same, and the step sleeps on. -/
theorem sleep_dropped : ∃ moments : List (Moment (engine.system sleep)),
      (engine.handleTimerJS (some (2, 1)) (some sleep)).Yields (moments.map Moment.known)
          (.ok .ack) ∧
        ¬(Issued moments ∨
          ∃ n timerSeq, some (2, 1) = some (n, timerSeq) ∧ Stale timerSeq moments) := by
  let m : Moment (engine.system sleep) := ⟨scheduled, wakeUp, Choice.fail, _, _, rfl⟩
  have hyields : (engine.handleTimerJS (some (2, 1)) (some sleep)).Yields
      ([m].map Moment.known) (.ok .ack) := Prog.Yields.call _ (.pure _)
  refine ⟨[m], hyields, ?_⟩
  rintro (⟨x, hx, -, hchoice⟩ | ⟨_, _, -, x, hx, hstale⟩)
  · rw [List.mem_singleton.mp hx] at hchoice
    exact hchoice rfl
  · rw [List.mem_singleton.mp hx] at hstale
    cases hstale

end Timers

end Dagnats
