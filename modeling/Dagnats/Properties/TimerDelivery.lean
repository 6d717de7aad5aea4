import Dagnats.Interaction.Contract
import Dagnats.Interaction.Script
import Dagnats.Engine.Ledger
import Dagnats.Engine.SleepTimer

/-!
# Timers and their delays

Whether a delay is over is read off the number of the delivery. That is sound
as long as the first delivery is answered: its handler asks for the delay. A
handler that dies, or whose answer is lost, leaves the message to the consumer,
which hands it out again after its waiting time, and the second delivery acts at
once.
-/

namespace Dagnats

open Interaction Delivery

variable {op : SleepCall} {c : Choice} {answer : Settlement} {α : Type}

def SleepMessage.delay (msg : SleepMessage) : Duration :=
  msg.durationMs * millisecond

/-- The delay has a number of nanoseconds that fits in 64 bits. -/
def SleepMessage.Fits (msg : SleepMessage) : Prop :=
  msg.delay < 2 ^ 63

lemma SleepMessage.Fits.timerDelay_eq {msg : SleepMessage} (h : msg.Fits)
    (hpos : 0 < msg.durationMs) : timerDelay msg.durationMs = msg.delay := by
  have hdelay : 0 < msg.delay := Int.mul_pos hpos (by decide)
  have hgo : goMilliseconds msg.durationMs = msg.delay := by
    unfold goMilliseconds
    apply Int.bmod_eq_of_le
    · exact Int.le_trans (by decide) (Int.le_of_lt hdelay)
    · exact Int.lt_of_lt_of_le h (by decide)
  rw [timerDelay, hgo, if_neg (Int.not_le.mpr hdelay)]

namespace SleepState

def Due (start : Time) (msg : SleepMessage) (s : SleepState) : Prop :=
  start + msg.delay ≤ s.now

/-- What holds between any two steps. -/
structure OnTime (start : Time) (msg : SleepMessage) (s : SleepState) : Prop where
  published : s.message.publishedAt = start
  patient : s.message.Patient msg.delay s.now
  acted : ∀ t ∈ s.acted, start + msg.delay ≤ t

/-- Deliveries are counted upwards. -/
def Later (s t : SleepState) : Prop :=
  s.message.delivered ≤ t.message.delivered

end SleepState

open SleepState

variable {st : SleepTimer} {msg : SleepMessage} {s t : SleepState} {start : Time}

/-- The calls that are made on behalf of the timer's action. -/
def SleepCall.acts : SleepCall → Bool
  | .receive | .settle _ => false
  | _ => true

lemma SleepState.receive_eq {a : Option (ℕ × ℕ)} (h : s.receive c = some (a, t)) :
    ∃ m, s.message.deliver s.now = some m ∧ a = some (m.delivered, s.sequence) ∧
      t = { s with message := m } := by
  cases c with
  | done =>
    simp only [receive, Option.map_eq_some_iff, Prod.mk.injEq] at h
    obtain ⟨m, hm, rfl, rfl⟩ := h
    exact ⟨m, hm, rfl, rfl⟩
  | _ => cases h

lemma SleepState.settle_eq {a : Unit} (h : s.settle answer c = some (a, t)) :
    t = { s with message := s.message.settle s.now answer } ∨ t = s := by
  cases c with
  | done => cases h; exact .inl rfl
  | fail => cases h; exact .inr rfl
  | _ => cases h

lemma SleepState.read_eq {v : α} {a : Except Err α} (h : s.read v c = some (a, t)) : t = s.act := by
  cases c with
  | done | fail => cases h; rfl
  | _ => cases h

lemma SleepState.exec_acts (hop : op.acts = true) {a : SleepAnswer op}
    (h : s.exec op c = some (a, t)) :
    t.message = s.message ∧ t.now = s.now ∧ t.acted = s.now :: s.acted := by
  cases op with
  | receive | settle answer => cases hop
  | engine op =>
    obtain ⟨⟨a', w⟩, hw, hr⟩ := Option.map_eq_some_iff.mp h
    obtain ⟨-, rfl⟩ := Prod.mk.inj hr
    refine ⟨rfl, ?_, rfl⟩
    rcases World.exec_cases hw with rfl | ⟨e, -, rfl⟩
    · rfl
    · rfl
  | getWindow key | getTrigger triggerID =>
    obtain rfl := read_eq h
    exact ⟨rfl, rfl, rfl⟩
  | deleteWindow key =>
    cases c with
    | done | lost | fail => cases h; exact ⟨rfl, rfl, rfl⟩
    | _ => cases h

/-! ## The contract of a handler -/

/-- A call on behalf of the action is made when the delay is over, and a negative
answer to the first delivery asks for the delay. -/
def Punctual (start : Time) (msg : SleepMessage) (s : SleepState) : SleepCall → Prop
  | .receive => True
  | .settle answer =>
    ∀ d, answer = .nak d → s.message.delivered = 1 → msg.delay ≤ d
  | _ => s.Due start msg

lemma Punctual.due (h : Punctual start msg s op) (hop : op.acts = true) : s.Due start msg := by
  cases op with
  | receive | settle answer => cases hop
  | _ => exact h

lemma exec_later {a : SleepAnswer op} (h : s.exec op c = some (a, t)) : s.Later t := by
  by_cases hop : op.acts = true
  · rw [Later, (exec_acts hop h).1]
  · cases op with
    | receive =>
      obtain ⟨m, hm, -, rfl⟩ := receive_eq h
      obtain ⟨_, -, -, rfl⟩ := Message.deliver_eq hm
      exact Nat.le_succ _
    | settle answer =>
      rcases settle_eq h with rfl | rfl
      · exact Nat.le_of_eq (Message.settle_delivered ..).symm
      · exact Nat.le_refl _
    | _ => exact absurd rfl hop

lemma SleepState.OnTime.exec {a : SleepAnswer op} (hs : s.OnTime start msg)
    (h : s.exec op c = some (a, t)) (hpunctual : Punctual start msg s op) : t.OnTime start msg := by
  by_cases hop : op.acts = true
  · obtain ⟨hmessage, hnow, hacted⟩ := exec_acts hop h
    refine ⟨by rw [hmessage]; exact hs.published, by rw [hmessage, hnow]; exact hs.patient, ?_⟩
    rw [hacted]
    intro t' ht'
    rcases List.mem_cons.mp ht' with rfl | ht'
    · exact hpunctual.due hop
    · exact hs.acted t' ht'
  · cases op with
    | receive =>
      obtain ⟨m, hm, -, rfl⟩ := receive_eq h
      refine ⟨?_, hs.patient.deliver hm, hs.acted⟩
      obtain ⟨_, -, -, rfl⟩ := Message.deliver_eq hm
      exact hs.published
    | settle answer =>
      rcases settle_eq h with rfl | rfl
      · refine ⟨?_, hs.patient.settle hpunctual, hs.acted⟩
        exact (Message.settle_publishedAt ..).trans hs.published
      · exact hs
    | _ => exact absurd rfl hop

/-- No first delivery is given up before the delay is over. -/
def firstAnswered (st : SleepTimer) (start : Time) (msg : SleepMessage) :
    Conditions (st.system msg) where
  call _ _ := True
  job _ _ := True
  move s
    | .expire => s.message.delivered = 1 → s.Due start msg
    | _ => True

lemma SleepState.OnTime.move {m : SleepMove} (hs : s.OnTime start msg)
    (hm : (firstAnswered st start msg).move s m) (h : s.move m = some t) :
    t.OnTime start msg ∧ s.Later t := by
  cases m with
  | tick d =>
    cases h
    refine ⟨⟨hs.published, hs.patient.later ?_, hs.acted⟩, Nat.le_refl _⟩
    exact Int.le_add_of_nonneg_right (Int.natCast_nonneg d)
  | expire =>
    simp only [SleepState.move, Option.map_eq_some_iff] at h
    obtain ⟨m, hexpire, rfl⟩ := h
    have hdue : s.message.delivered = 1 → s.message.publishedAt + msg.delay ≤ s.now := by
      rw [hs.published]
      exact hm
    have hkept := Message.expire_eq hexpire
    refine ⟨⟨?_, hs.patient.expire hexpire hdue, hs.acted⟩, ?_⟩
    · exact hkept.1.trans hs.published
    · exact Nat.le_of_eq hkept.2.symm
  | others log windows triggers =>
    cases h
    exact ⟨⟨hs.published, hs.patient, hs.acted⟩, Nat.le_refl _⟩

/-- Handlers of the message rely on the deliveries only being counted upwards. -/
def punctual (st : SleepTimer) (start : Time) (msg : SleepMessage) : Contract (st.system msg) where
  inv := OnTime start msg
  rely := Later
  grows := Later
  ok _ _ := True
  guar s op _ _ := Punctual start msg s op
  rely_refl _ := Nat.le_refl _
  rely_trans := Nat.le_trans
  grows_trans := Nat.le_trans
  rely_grows h := h
  exec_grows h := exec_later h

/-! ## Programs that only act -/

/-- The program neither takes a delivery nor answers one. -/
inductive Acting {α : Type} : SleepProg α → Prop where
  | pure (a : α) : Acting (.pure a)
  | fail (e : Err) : Acting (.fail e)
  | call {op : SleepCall} {k : SleepAnswer op → SleepProg α} :
      op.acts = true → (∀ a, Acting (k a)) → Acting (.call op k)

lemma Acting.bind {β : Type} {p : SleepProg α} {f : α → SleepProg β} (hp : Acting p)
    (hf : ∀ a, Acting (f a)) : Acting (p.bind f) := by
  induction hp with
  | pure a => exact hf a
  | fail e => exact .fail e
  | call hop _ ih => exact .call hop ih

lemma Acting.onEngine (p : M α) : Acting (Dagnats.onEngine p) := by
  induction p with
  | pure a => exact .pure a
  | fail e => exact .fail e
  | call op k ih => exact .call rfl ih

lemma acting_handleTimerFire (triggerID key : String) (timerSeq : ℕ) :
    Acting (handleTimerFire triggerID key timerSeq) := by
  have hdelete : Acting (deleteWindow key) := .call rfl fun _ => .pure ()
  have hlive : Acting (loadLiveTrigger triggerID) := by
    refine .call rfl fun a => ?_
    split <;> exact .pure _
  unfold handleTimerFire
  split
  · exact .pure ()
  · refine .call rfl fun a => ?_
    split
    · split
      · exact .pure ()
      · refine hlive.bind fun d => ?_
        cases d with
        | none => exact hdelete
        | some d =>
          refine (Acting.onEngine _).bind fun r => ?_
          cases r with
          | error e => exact .pure ()
          | ok _ => exact hdelete
    · exact .pure ()

lemma SleepTimer.acting_fire (st : SleepTimer) (timerSeq : ℕ) :
    Acting (st.fire timerSeq msg) := by
  cases msg with
  | step tm => exact .onEngine _
  | debounce triggerID key durationMs =>
    by_cases hwired : st.onDebounce = true
    · rw [fire, if_pos hwired]
      exact acting_handleTimerFire ..
    · rw [fire, if_neg hwired]
      exact .pure ()

/-- After the second delivery everything that only acts is punctual. -/
lemma Acting.safe {p : SleepProg α} (hp : Acting p) (hs : 2 ≤ s.message.delivered) :
    Safe (punctual st start msg) (fun _ _ => True) p s := by
  induction hp generalizing s with
  | pure a | fail e => exact fun _ _ _ => trivial
  | @call op k hop _ ih =>
    intro t ht hst _ c a u hexec
    have htwice : 2 ≤ t.message.delivered := Nat.le_trans hs hst
    have hdue : t.Due start msg := by
      have hagain := ht.patient.again htwice
      rwa [ht.published] at hagain
    refine ⟨?_, fun _ => ih a (Nat.le_trans htwice (exec_later hexec))⟩
    change Punctual start msg t op
    cases op with
    | receive | settle answer => cases hop
    | _ => exact hdue

lemma SleepTimer.handleTimerJS_delivered (st : SleepTimer) (n timerSeq : ℕ) :
    st.handleTimerJS (some (n, timerSeq)) (some msg) =
      if n = 1 then .pure (.nak (timerDelay msg.durationMs))
      else (st.fire timerSeq msg).bind fun _ => .pure .ack := rfl

lemma safe_settle (h : ∀ d, answer = .nak d → msg.delay ≤ d) :
    Safe (punctual st start msg) (fun _ _ => True)
      (.call (.settle answer) fun _ => .pure () : SleepProg Unit) s := by
  intro t _ _ _ c a u _
  exact ⟨fun d hd _ => h d hd, fun _ _ _ _ => trivial⟩

lemma SleepTimer.safe_consume (hpos : 0 < msg.durationMs) (hfits : msg.Fits) :
    Safe (punctual st start msg) (fun _ _ => True) (st.consume msg) s := by
  intro t _ _ _ c a u hexec
  refine ⟨trivial, fun _ => ?_⟩
  obtain ⟨m, hm, rfl, rfl⟩ := receive_eq hexec
  have hcounted : 0 < m.delivered := by
    obtain ⟨_, -, -, rfl⟩ := Message.deliver_eq hm
    exact Nat.succ_pos _
  beta_reduce
  rw [handleTimerJS_delivered]
  by_cases hfirst : m.delivered = 1
  · rw [if_pos hfirst]
    apply safe_settle
    intro d hd
    cases hd
    exact Int.le_of_eq (hfits.timerDelay_eq hpos).symm
  · rw [if_neg hfirst]
    have htwice : 2 ≤ m.delivered := by omega
    have hfire : Safe (punctual st start msg) (fun r _ => ∀ a, r = .ok a → a = .ack)
        ((st.fire t.sequence msg).bind fun _ => .pure Settlement.ack)
        { t with message := m } := by
      apply Safe.bind ((st.acting_fire t.sequence).safe htwice)
      · intro _ u _ _ _ v _ _ a ha
        cases ha
        rfl
      · intro e u _ _ _ a ha
        cases ha
    apply Safe.bind hfire
    · intro answer u _ _ hanswer
      apply safe_settle
      intro d hd
      rw [hanswer answer rfl] at hd
      cases hd
    · exact fun _ _ _ _ _ => trivial

lemma punctual_sound (hpos : 0 < msg.durationMs) (hfits : msg.Fits) :
    (punctual st start msg).Sound (firstAnswered st start msg) where
  ok := fun _ => trivial
  call := fun hs h hpunctual => ⟨hs.exec h hpunctual, exec_later h⟩
  move := fun hs hm h => hs.move hm h
  jobs := by
    intro s j p _ _ hstart
    cases hstart
    exact st.safe_consume hpos hfits

/-! ## Timers are not early -/

/-- As long as no first delivery is given up before the delay is over, everything
that a timer does happens after its delay, whoever handles its deliveries and
wherever the handlers stop. -/
theorem timer_not_early (hpos : 0 < msg.durationMs) (hfits : msg.Fits)
    (hmessage : s.message = .published s.now) (hacted : s.acted = []) {p : Pool (st.system msg)}
    (h : Pool.Reaches (firstAnswered st s.now msg) (Pool.initial s) p) : ∀ t ∈ p.state.acted,
    s.now + msg.delay ≤ t := by
  have hinit : s.OnTime s.now msg := by
    constructor
    · rw [hmessage]; rfl
    · rw [hmessage]; exact Message.patient_published
    · rw [hacted]; exact fun _ ht => nomatch ht
  exact ((punctual_sound hpos hfits).reaches hinit h).1.acted

namespace Timers

/-- A sleep of a minute, scheduled at the beginning. -/
def sleep : SleepMessage :=
  .step { action := .sleepComplete, runID := "r", stepID := "a", durationMs := 60000 }

def engine : SleepTimer :=
  ⟨false⟩

def scheduled : SleepState where
  message := .published 0
  sequence := 1
  world := {}
  windows _ := .absent
  triggers _ := .absent
  acted := []

/-- Every call is accepted. -/
def calm (_ : SleepState) (_ : SleepCall) : Choice := .done

/-- One delivery, handled to its end. -/
def handled (i : ℕ) : List (Order (engine.system sleep)) :=
  [.act (.start ()), .drive calm i 10]

def wait (d : ℕ) : Order (engine.system sleep) :=
  .act (.ext (.tick d))

def firstAnsweredChecks : Checks (engine.system sleep) where
  call _ _ := true
  job _ _ := true
  move s
    | .expire => s.message.delivered ≠ 1 || decide (60000000000 ≤ s.now)
    | _ => true

lemma firstAnsweredChecks_sound : firstAnsweredChecks.Sound (firstAnswered engine 0 sleep) where
  call := fun _ => trivial
  job := fun _ => trivial
  move := by
    intro s m h
    cases m with
    | tick d | others log windows triggers => trivial
    | expire =>
      intro hfirst
      simp only [firstAnsweredChecks, hfirst, ne_eq, not_true_eq_false, decide_false,
        Bool.false_or, decide_eq_true_eq] at h
      exact h

/-- Two deliveries a minute apart: the sleep ends after the minute. -/
theorem sleep_on_time : ∃ p : Pool (engine.system sleep),
    Pool.Reaches (firstAnswered engine 0 sleep) (Pool.initial scheduled) p ∧ p.state.acted ≠ [] ∧
    ∀ t ∈ p.state.acted, 0 + sleep.delay ≤ t := by
  obtain ⟨p, hreaches, hacted⟩ :=
    Pool.reaches_of_script firstAnsweredChecks_sound (Pool.initial scheduled :
    Pool (engine.system sleep))
    (handled 0 ++ [wait 60000000000] ++ handled 1) (fun p => p.state.acted ≠ [])
  have hpos : 0 < sleep.durationMs := by decide
  have hfits : sleep.Fits := by unfold SleepMessage.Fits; decide
  exact ⟨p, hreaches, by simpa using hacted,
    timer_not_early (s := scheduled) hpos hfits rfl rfl hreaches⟩

/-- The engine dies with the first delivery; after half a minute the second one
ends a sleep of a minute. -/
theorem sleep_early : ∃ p : Pool (engine.system sleep),
    Pool.Reaches Conditions.free (Pool.initial scheduled) p ∧ ∃ t ∈ p.state.acted,
    t < 0 + sleep.delay := by
  obtain ⟨p, hreaches, hacted⟩ :=
    Pool.reaches_of_script Checks.free_sound (Pool.initial scheduled : Pool (engine.system sleep))
    ([.act (.start ()), .drive calm 0 1, .act (.drop 0), wait 30000000000,
      .act (.ext .expire)] ++ handled 0) (fun p => p.state.acted.any (· < 0 + sleep.delay))
  obtain ⟨t, ht, hearly⟩ := List.any_eq_true.mp hacted
  exact ⟨p, hreaches, t, ht, by simpa using hearly⟩

end Timers

end Dagnats
