import Dagnats.Engine.Lineage
import Dagnats.Engine.Scenario

/-!
# Rate limits and deferred tasks

The publisher takes a token of the limiter before it sends the task of a step
that is rate limited; where it gets none, it sets a timer. The timer sends the
task later without asking again. So the first dispatch of a step has a token of
its own as long as no task is sent that the limiter has put off; a task that was
put off for another reason had its token before.
-/

namespace Dagnats

open Interaction

variable {o : Orchestrator} {task : String} {log older : List Entry} {t : TaskPayload}

/-- The task is sent for a dispatch of its step that is neither a retry nor a further
iteration. -/
def FirstDispatch (log : List Entry) (t : TaskPayload) : Prop :=
  t.iteration = 0 ∧ ∃ n m, t.dispatchNonce = some n ∧ At log n (.minted m) ∧ m.origin ≠ .retry

lemma FirstDispatch.not_retry (h : FirstDispatch log t) (holder : older <:+ log)
    (hretry : ∃ n m, t.dispatchNonce = some n ∧ At older n (.minted m) ∧ m.origin = .retry) :
    False := by
  obtain ⟨-, n, m, hn, hat, hfirst⟩ := h
  obtain ⟨n', m', hn', hat', horigin⟩ := hretry
  rw [hn] at hn'
  cases hn'
  have heq := hat.unique (hat'.mono holder)
  cases heq
  exact hfirst horigin

/-- The timer was set because the limiter put off this dispatch. -/
def putsOff (t : TaskPayload) : Entry → Bool
  | .timer tm _ _ => tm.action = .rateRetry && tm.attempt = 0 && tm.runID = t.runID &&
      tm.stepID = t.stepID && tm.dispatchNonce = t.dispatchNonce
  | _ => false

/-- No task of the type is sent for a dispatch that the limiter has put off. -/
def undeferred (task : String) (log : List Entry) : Entry → Bool
  | .task t => t.task ≠ task || !log.any (putsOff t)
  | _ => true

def limitsRate (task : String) (s : StepDef) : Bool :=
  s.task ≠ task || rateLimited s

lemma RateAllowed.token {runID : String} {step : StepDef} {nonce : Option ℕ}
    (h : RateAllowed o log runID step nonce) (hlimiter : o.hasRateLimiter = true)
    (hsteps : allSteps (limitsRate step.task) log = true) (hstep : StepOf o log runID step) :
    .token step.task runID step.id nonce ∈ log := by
  obtain ⟨s, id, dependsOn, caps, htest, rfl⟩ := hstep.of_allSteps hsteps
  have hrate : rateLimited s = true := by simpa [limitsRate] using htest
  exact h hlimiter hrate

lemma TaskFrom.token {K : Terms} (hfrom : TaskFrom o older t) (hlog : LogOk o K older)
    (holder : older <:+ log) (hlimiter : o.hasRateLimiter = true)
    (hsteps : allSteps (limitsRate t.task) log = true) (hsent : older.any (putsOff t) = false)
    (hfirst : FirstDispatch log t) : .token t.task t.runID t.stepID t.dispatchNonce ∈ older := by
  have hsteps' := allSteps_older hsteps holder
  cases hfrom with
  | published step n hstep hid htask hnonce _ hallowed _ =>
    rw [← hid, ← htask, hnonce]
    exact hallowed.token hlimiter (htask ▸ hsteps') hstep
  | iterated hiter => exact absurd hfirst.1 hiter.ne'
  | timer tm dispatch publishedAt hmem haction hrun hid htask hnonce =>
    have hown : t.dispatchNonce = tm.dispatchNonce := by
      rcases hnonce with hnonce | ⟨s, hheld, hdue, hnonce⟩
      · exact hnonce
      · exfalso
        apply hfirst.not_retry holder
        rw [hnonce]
        exact (hheld.traced hlog).retries hdue
    have hok := Does.timerOk_of_mem hlog hmem
    have hretry : ¬RetryTimerOk o older tm := by
      rintro ⟨s, n, m, -, -, -, hn, hat, horigin⟩
      exact hfirst.not_retry holder ⟨n, m, hown.trans hn, hat, horigin⟩
    have hdeferral : DeferralOk o older tm ∧
        (tm.action = .rateRetry ∨ tm.action = .taskConcurRetry) := by
      rcases TimerAction.redispatches_cases haction with h | h | h | h
      all_goals rw [TimerOk, h] at hok
      · exact ⟨hok, .inl h⟩
      · exact ⟨hok, .inr h⟩
      · exact absurd hok hretry
      · exact absurd hok hretry
    obtain ⟨⟨step, n, hstep, hstepID, htype, hn, hallowed⟩, hkind⟩ := hdeferral
    rw [hrun] at hstep hallowed
    have hdue : tm.action = .taskConcurRetry ∨ 0 < tm.attempt := by
      rcases hkind with hrate | hconcur
      · right
        rw [Nat.pos_iff_ne_zero]
        intro hzero
        have hnone := List.any_eq_false.mp hsent _ hmem
        simp [putsOff, hrate, hzero, hrun, hid, hown] at hnone
      · exact .inl hconcur
    rw [hown, hn, ← hid, ← hstepID, ← htask, ← htype]
    exact (hallowed hdue).token hlimiter (htype.trans htask ▸ hsteps') hstep

/-- **Deferred tasks obey the rate limit.**  In every interleaving of any number of
engines, wherever they crash, in which no task of the type is sent for a dispatch that
the limiter has put off: every task message of the type for a first dispatch comes
after a token that was taken for this dispatch. -/
theorem first_dispatches_rate_limited {p : Pool o.system}
    (hp : Pool.Reaches ((Terms.onMessages (undeferred task)).conditions o) (emptyPool o) p)
    (hlimiter : o.hasRateLimiter = true) (hsteps : allSteps (limitsRate task) p.state.log = true)
    {i : ℕ} {t : TaskPayload} (hat : At p.state.log i (.task t)) (htask : t.task = task)
    (hfirst : FirstDispatch p.state.log t) : ∃ j, j < i ∧
    At p.state.log j (.token task t.runID t.stepID t.dispatchNonce) := by
  subst htask
  have hlog := reaches_logOk hp
  obtain ⟨older, hsuffix, rfl, hold, happ⟩ := hlog.entry hat
  have holder := (List.suffix_cons _ older).trans hsuffix
  obtain ⟨⟨-, hfrom⟩, hallowed⟩ : EntryOk o older (.task t) ∧
      undeferred t.task older (.task t) = true := by
    rcases happ with ⟨hok, hK⟩ | ⟨hout, -⟩
    · exact ⟨hok, hK⟩
    · exact hout.elim
  have hsent : older.any (putsOff t) = false := by
    simpa [undeferred] using hallowed
  obtain ⟨j, htoken⟩ := At.of_mem (hfrom.token hold holder hlimiter hsteps hsent hfirst)
  exact ⟨j, htoken.lt, htoken.mono holder⟩

namespace RateLimited

def engine : Orchestrator :=
  { Orchestrator.plain with hasRateLimiter := true }

def workflow : WorkflowDef where
  name := "calls"
  steps := [{ id := "a", task := "api", rateLimit := some { limit := 1, period := second } }]

/-- The limiter has no token left. -/
def refusing : World → Call → Choice :=
  World.except fun _ op =>
    match op with
    | .allow .. => some (.wait (some 100))
    | _ => none

/-- The first dispatch is put off, and its timer fires a second later. -/
def deferred : List (Order engine.system) :=
  [register workflow, publish { type := .workflowStarted, runID := "r"
                                start := .inline workflow .nil }] ++
    performUnder refusing (.handle 2) ++ [pass 1000000000] ++ perform (.fire 8)

def sentFirst (w : World) (i : ℕ) : Bool :=
  match w.entryAt i with
  | some (.task t) => t.task = "api" && t.iteration = 0 && t.dispatchNonce.any fun n =>
        match w.entryAt n with
        | some (.minted m) => m.origin ≠ .retry
        | _ => false
  | _ => false

lemma sentFirst_task {w : World} {i : ℕ} (h : sentFirst w i = true) :
    ∃ t, At w.log i (.task t) ∧ t.task = "api" ∧ FirstDispatch w.log t := by
  unfold sentFirst at h
  split at h
  · next t hat =>
    simp only [Bool.and_eq_true, decide_eq_true_eq] at h
    obtain ⟨⟨htask, hiter⟩, hnonce⟩ := h
    obtain ⟨n, hn, hmint⟩ := (Option.any_eq_true _ _).mp hnonce
    split at hmint
    · next m hm =>
      refine ⟨t, At.of_getElem? hat, htask, hiter, n, m, hn, At.of_getElem? hm, ?_⟩
      exact of_decide_eq_true hmint
    · cases hmint
  · cases h

/-- The timer sends the task, and no token was ever taken. -/
theorem deferred_task_without_token : Valid engine workflow ∧ engine.hasRateLimiter = true ∧
    ∃ p : Pool engine.system, Pool.Reaches Conditions.free (emptyPool engine) p ∧
    allSteps (limitsRate "api") p.state.log = true ∧
    (∃ i t, At p.state.log i (.task t) ∧ t.task = "api" ∧ FirstDispatch p.state.log t) ∧
    ∀ task runID stepID nonce, .token task runID stepID nonce ∉ p.state.log := by
  refine ⟨by decide +kernel, rfl, ?_⟩
  obtain ⟨p, hp, htest⟩ := reaches_free engine
    deferred (fun p =>
      allSteps (limitsRate "api") p.state.log && sentFirst p.state 10 &&
      p.state.log.all fun
        | .token .. => false
        | _ => true)
  simp only [Bool.and_eq_true] at htest
  obtain ⟨⟨hsteps, hsent⟩, hnone⟩ := htest
  refine ⟨p, hp, hsteps, ⟨10, sentFirst_task hsent⟩, fun task runID stepID nonce hmem => ?_⟩
  exact absurd (List.all_eq_true.mp hnone _ hmem) (by simp)

/-- Where the limiter has a token, the first dispatch takes it. -/
theorem first_dispatch_with_token : ∃ (p : Pool engine.system) (i : ℕ) (t : TaskPayload),
    Pool.Reaches ((Terms.onMessages (undeferred "api")).conditions engine) (emptyPool engine) p ∧
    At p.state.log i (.task t) ∧ FirstDispatch p.state.log t ∧ ∃ j, j < i ∧
    At p.state.log j (.token "api" t.runID t.stepID t.dispatchNonce) := by
  obtain ⟨p, hp, htest⟩ :=
    Pool.reaches_of_script (Terms.messageChecks_sound (undeferred "api")) (emptyPool engine)
    (launched engine workflow) (fun p =>
      allSteps (limitsRate "api") p.state.log && sentFirst p.state 9)
  rw [Bool.and_eq_true] at htest
  obtain ⟨t, hat, htask, hfirst⟩ := sentFirst_task htest.2
  exact ⟨p, 9, t, hp, hat, hfirst, first_dispatches_rate_limited hp rfl htest.1 hat htask hfirst⟩

end RateLimited

end Dagnats
