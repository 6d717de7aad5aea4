import Dagnats.Properties.CronBackfill

/-!
# One run for a minute

A minute is claimed in the memory of one process, and an update of the trigger
makes the process forget its claim. So each process publishes a start when it
first looks at the trigger in a minute, and once more after an update. The
stream knows a message id for five seconds: there is one run exactly if all
these looks fall within five seconds of the first.
-/

namespace Dagnats.Trigger

open Scheduler

variable {zones : Zones} {asks : ℕ → Bool} {id : String} {d : CronTrigger} {m n p q : ℕ}
  {ts : List Instant} {srv : Server} {now t : Instant} {e : Event} {past : List Event}
  {s s' : Scheduler × Server}

def registered (id : String) (p : ℕ) : List Event → Bool
  | [] => false
  | e :: past =>
    if e.process = p then
      match e.action with
      | .addTrigger d => d.id = id || registered id p past
      | .deleteTrigger id' => id' ≠ id && registered id p past
      | _ => registered id p past
    else registered id p past

def looked (id : String) (p m : ℕ) : List Event → Bool
  | [] => false
  | e :: past =>
    if e.process = p then
      match e.action with
      | .tick => registered id p past && minuteOf e.time = m || looked id p m past
      | .deleteLastFired id' => id' ≠ id && looked id p m past
      | _ => looked id p m past
    else looked id p m past

section

variable (id : String) (m : ℕ)

def Event.opens (past : List Event) (e : Event) : Bool :=
  e.action = .tick && minuteOf e.time = m && registered id e.process past &&
    !looked id e.process m past

/-- When processes looked at the trigger for the first time, the last one first. -/
def openings (id : String) (m : ℕ) : List Event → List Instant
  | [] => []
  | e :: past => if e.opens id m past then e.time :: openings id m past else openings id m past

/-- Some process looks at the trigger in the minute, and all first looks fall within
the memory of the stream. -/
def LooksTogether (events : List Event) : Prop :=
  ∃ first, (openings id m events).getLast? = some first ∧
    ∀ t ∈ openings id m events, t < first + duplicatesWindow

/-! ## A stream that forgets -/

/-- The stream remembers a message of one of these instants. -/
def recent (t : Instant) (ts : List Instant) : Bool :=
  ts.any fun u => t < u + duplicatesWindow

/-- One more message of an id that was stored at these instants. -/
def keep (t : Instant) (ts : List Instant) : List Instant :=
  if recent t ts then ts else t :: ts

lemma recent_eq_true : recent t ts = true ↔ ∃ u ∈ ts, t < u + duplicatesWindow := by
  rw [recent, List.any_eq_true]
  exact exists_congr fun u => and_congr_right fun _ => decide_eq_true_iff

lemma getLast?_keep :
    (keep t ts).getLast? = some (ts.getLast?.getD t) := by
  unfold keep
  split
  · next hrecent =>
    obtain ⟨u, hu, -⟩ := recent_eq_true.mp hrecent
    cases ts with
    | nil => cases hu
    | cons v vs => simp [List.getLast?_cons]
  · rw [List.getLast?_cons]

lemma getLast?_foldr_keep (ts : List Instant) : (ts.foldr keep []).getLast? = ts.getLast? := by
  induction ts with
  | nil => rfl
  | cons t ts ih => rw [List.foldr_cons, getLast?_keep, ih, List.getLast?_cons]

/-- One message is stored, the first, where the others come soon enough. -/
lemma foldr_keep_eq_singleton {first : Instant} : ts.foldr keep [] = [first] ↔ ts.getLast? =
    some first ∧ ∀ t ∈ ts, t < first + duplicatesWindow := by
  have hsoon : ∀ t, recent t [first] = true ↔ t < first + duplicatesWindow := by
    intro t
    rw [recent_eq_true]
    exact ⟨fun ⟨u, hu, hlt⟩ => List.mem_singleton.mp hu ▸ hlt,
      fun hlt => ⟨first, List.mem_singleton_self first, hlt⟩⟩
  constructor
  · intro h
    refine ⟨by rw [← getLast?_foldr_keep, h]; rfl, ?_⟩
    induction ts with
    | nil => cases h
    | cons t ts ih =>
      rw [List.foldr_cons, keep] at h
      split at h
      · next hrecent =>
        rw [h] at hrecent
        exact List.forall_mem_cons.mpr ⟨(hsoon t).mp hrecent, ih h⟩
      · obtain ⟨rfl, hnone⟩ := List.cons.inj h
        have hlast := getLast?_foldr_keep ts
        rw [hnone] at hlast
        rw [List.getLast?_eq_none_iff.mp hlast.symm]
        exact List.forall_mem_singleton.mpr (Nat.lt_add_of_pos_right (by decide))
  · rintro ⟨hlast, hclose⟩
    induction ts with
    | nil => cases hlast
    | cons t ts ih =>
      obtain ⟨ht, hts⟩ := List.forall_mem_cons.mp hclose
      cases ts with
      | nil =>
        cases hlast
        rfl
      | cons u us =>
        rw [List.getLast?_cons_cons] at hlast
        rw [List.foldr_cons, ih hlast hts, keep, if_pos ((hsoon t).mpr ht)]

/-! ## What the cluster knows -/

def startsIn (srv : Server) : List Start :=
  (startsOf id srv).filter fun r => minuteOf r.timestamp = m

/-- When they were stored. -/
def storedIn (srv : Server) : List Instant :=
  (startsIn id m srv).map (·.storedAt)

end

lemma recent_storedIn : recent t (storedIn id (minuteOf t) srv) = true ↔ Remembered id t t srv := by
  rw [recent_eq_true, storedIn, startsIn]
  constructor
  · rintro ⟨u, hu, hlt⟩
    obtain ⟨r, hr, rfl⟩ := List.mem_map.mp hu
    obtain ⟨hr, hminute⟩ := List.mem_filter.mp hr
    exact ⟨r, hr, of_decide_eq_true hminute, hlt⟩
  · rintro ⟨r, hr, hminute, hlt⟩
    exact ⟨r.storedAt, List.mem_map_of_mem (List.mem_filter.mpr ⟨hr, decide_eq_true hminute⟩), hlt⟩

lemma storedIn_fireWorkflow (h : Named srv) :
    storedIn d.id m (fireWorkflow srv d t t) = if minuteOf t = m then keep t (storedIn d.id m srv)
    else storedIn d.id m srv := by
  rcases fireWorkflow_cases h with ⟨hstarts, hmem⟩ | ⟨hstarts, hnot⟩
  · have hsame : storedIn d.id m (fireWorkflow srv d t t) = storedIn d.id m srv := by
      rw [storedIn, startsIn, startsOf, hstarts]
      rfl
    rw [hsame]
    split
    · next hm => rw [keep, if_pos (hm ▸ recent_storedIn.mpr hmem)]
    · rfl
  · have hnew : storedIn d.id m (fireWorkflow srv d t t) =
        if minuteOf t = m then t :: storedIn d.id m srv else storedIn d.id m srv := by
      have hown : (startOf d t t).isOf d.id = true := startOf_isOf.mpr rfl
      have htime : (startOf d t t).timestamp = t := rfl
      rw [storedIn, startsIn, startsOf, hstarts, List.filter_cons, if_pos hown, List.filter_cons,
        htime]
      by_cases hm : minuteOf t = m
      · rw [if_pos hm, if_pos (decide_eq_true hm)]
        rfl
      · rw [if_neg hm, if_neg (mt of_decide_eq_true hm)]
        rfl
    rw [hnew]
    split
    · next hm => rw [keep, if_neg (hm ▸ mt recent_storedIn.mp hnot)]
    · rfl

section

variable (zones : Zones) (asks : ℕ → Bool) (id : String)

def Schedules (d : CronTrigger) : Prop :=
  d.id = id → d.enabled = true ∧ schedule zones d.cron = .ok asks

/-- A scheduler has the trigger as the events say, and may claim a minute that is not
over exactly if it has not looked at it. -/
structure Follows (p : ℕ) (past : List Event) (s : Scheduler) : Prop where
  nodup : (s.triggers.map (·.id)).Nodup
  mem : (∃ d ∈ s.triggers, d.id = id) ↔ registered id p past = true
  schedules : ∀ d ∈ s.triggers, Schedules zones asks id d
  claimable : ∀ m, asks m = true → (∀ e ∈ past, minuteOf e.time ≤ m) →
    (s.claimable id m = true ↔ looked id p m past = false)

structure Tracks (past : List Event) (c : Cluster) : Prop where
  schedulers : ∀ p, Follows zones asks id p past (c.scheduler p)
  stored : ∀ m, asks m = true → storedIn id m c.server = (openings id m past).foldr keep []
  named : Named c.server

end

lemma Follows.idle {u : Scheduler} (h : Follows zones asks id p past u)
    (he : e.process ≠ p) : Follows zones asks id p (e :: past) u := by
  constructor
  · exact h.nodup
  · rw [h.mem, registered, if_neg he]
  · exact h.schedules
  · intro m hm hbefore
    rw [looked, if_neg he]
    exact h.claimable m hm fun x hx => hbefore x (.tail e hx)

lemma openings_of_ne (h : e.action ≠ .tick) : openings id m (e :: past) = openings id m past := by
  simp [openings, Event.opens, h]

section

variable {u : Scheduler} (h : Follows zones asks id p past u)
include h

lemma Follows.addTrigger (hd : Schedules zones asks id d) :
    Follows zones asks id p (⟨t, p, .addTrigger d⟩ :: past) (u.addTrigger d) := by
  constructor
  · refine List.nodup_cons.mpr ⟨?_, h.nodup.sublist (List.filter_sublist.map _)⟩
    simp
  · rw [registered, if_pos rfl, Bool.or_eq_true, ← h.mem, decide_eq_true_eq]
    by_cases hid : d.id = id
    · simp [Scheduler.addTrigger, hid]
    · simp only [Scheduler.addTrigger, List.exists_mem_cons_iff, hid, false_or, List.mem_filter]
      constructor
      · rintro ⟨d', hd', hid'⟩
        exact ⟨d', hd'.1, hid'⟩
      · rintro ⟨d', hd', rfl⟩
        exact ⟨d', ⟨hd', decide_eq_true (Ne.symm hid)⟩, rfl⟩
  · intro d' hd'
    rcases List.mem_cons.mp hd' with rfl | hd'
    · exact hd
    · exact h.schedules d' (List.mem_filter.mp hd').1
  · intro m hm hbefore
    rw [looked, if_pos rfl]
    exact h.claimable m hm fun x hx => hbefore x (.tail _ hx)

lemma Follows.deleteTrigger (id' : String) :
    Follows zones asks id p (⟨t, p, .deleteTrigger id'⟩ :: past) (u.deleteTrigger id') := by
  constructor
  · exact h.nodup.sublist (List.filter_sublist.map _)
  · rw [registered, if_pos rfl, Bool.and_eq_true, ← h.mem, decide_eq_true_eq]
    simp only [Scheduler.deleteTrigger, List.mem_filter, decide_eq_true_eq]
    constructor
    · rintro ⟨d, ⟨hd, hne⟩, rfl⟩
      exact ⟨Ne.symm hne, d, hd, rfl⟩
    · rintro ⟨hne, d, hd, rfl⟩
      exact ⟨d, ⟨hd, Ne.symm hne⟩, rfl⟩
  · intro d hd
    exact h.schedules d (List.mem_filter.mp hd).1
  · intro m hm hbefore
    rw [looked, if_pos rfl]
    exact h.claimable m hm fun x hx => hbefore x (.tail _ hx)

lemma Follows.deleteLastFired (id' : String) :
    Follows zones asks id p (⟨t, p, .deleteLastFired id'⟩ :: past) (u.deleteLastFired id') := by
  constructor
  · exact h.nodup
  · rw [registered, if_pos rfl]
    exact h.mem
  · exact h.schedules
  · intro m hm hbefore
    rw [looked, if_pos rfl]
    by_cases hid : id' = id
    · simp [Scheduler.claimable, Scheduler.deleteLastFired, hid]
    · have hsame : (u.deleteLastFired id').claimable id m = u.claimable id m := by
        simp [Scheduler.claimable, Scheduler.deleteLastFired, Ne.symm hid]
      rw [hsame, h.claimable m hm fun x hx => hbefore x (List.mem_cons_of_mem _ hx)]
      simp [hid]

end

/-! ## Ticks -/

/-- A tick takes away the claim on its own minute, where the process has the trigger. -/
lemma Follows.tick {u u' : Scheduler} (h : Follows zones asks id p past u)
    (htable : u'.triggers = u.triggers)
    (hclaimable : ∀ m, asks m = true → minuteOf t ≤ m → (u'.claimable id m = true ↔
      u.claimable id m = true ∧ ¬(registered id p past = true ∧ minuteOf t = m))) :
    Follows zones asks id p (⟨t, p, .tick⟩ :: past) u' := by
  constructor
  · rw [htable]
    exact h.nodup
  · rw [htable, registered, if_pos rfl]
    exact h.mem
  · rw [htable]
    exact h.schedules
  · intro m hm hbefore
    obtain ⟨hnow, hpast⟩ := List.forall_mem_cons.mp hbefore
    rw [hclaimable m hm hnow, h.claimable m hm hpast, looked, if_pos rfl, Bool.or_eq_false_iff,
      and_comm, Bool.eq_false_iff (b := _ && _), Ne, Bool.and_eq_true, decide_eq_true_eq]

lemma Untouched.claimable (h : Untouched id s s') (m : ℕ) :
    s'.1.claimable id m = s.1.claimable id m := by
  rw [Scheduler.claimable, h.lastFired, Scheduler.claimable]

lemma Untouched.storedIn (h : Untouched id s s') (m : ℕ) :
    storedIn id m s'.2 = storedIn id m s.2 := by
  rw [Trigger.storedIn, startsIn, h.starts]
  rfl

/-- What a tick does for the trigger, if the scheduler has it. -/
structure Ticked (asks : ℕ → Bool) (id : String) (t : Instant) (has : Prop)
    (s s' : Scheduler × Server) : Prop where
  table : s'.1.triggers = s.1.triggers
  claimable : ∀ m, asks m = true → minuteOf t ≤ m → (s'.1.claimable id m = true ↔
    s.1.claimable id m = true ∧ ¬(has ∧ minuteOf t = m))
  claims : has → asks (minuteOf t) = true → s.1.claimable id (minuteOf t) = true →
    storedIn id (minuteOf t) s'.2 = keep t (storedIn id (minuteOf t) s.2)
  others : ∀ m, asks m = true → ¬(has ∧ s.1.claimable id m = true ∧ minuteOf t = m) →
    storedIn id m s'.2 = storedIn id m s.2
  named : Named s'.2

lemma ticked_without (h : Named s.2) (hd : ∀ d ∈ s.1.triggers, d.id ≠ id) :
    Ticked asks id t False s (Scheduler.tick zones t s) := by
  have hsame : Untouched id s (tick zones t s) :=
    foldl_untouched h fun _ hs d hmem => tickTrigger_untouched hs (hd d hmem)
  constructor
  · exact hsame.table
  · intro m _ _
    rw [hsame.claimable, false_and, not_false_eq_true, and_true]
  · exact False.elim
  · exact fun m _ _ => hsame.storedIn m
  · exact hsame.named

lemma claimable_claim (s : Scheduler) :
    (s.claim id n).claimable id m = true ↔ n < m := by
  simp [Scheduler.claimable, claim]

lemma claimable_mono {s : Scheduler} (h : s.claimable id m = true) (hmn : m ≤ n) :
    s.claimable id n = true := by
  rw [Scheduler.claimable, Option.all_eq_true] at h ⊢
  exact fun k hk => decide_eq_true ((of_decide_eq_true (h k hk)).trans_le hmn)

lemma ticked_with (h : Named s.2) (hnodup : (s.1.triggers.map (·.id)).Nodup)
    (hd : d ∈ s.1.triggers) (hschedules : Schedules zones asks d.id d) :
    Ticked asks d.id t True s (Scheduler.tick zones t s) := by
  obtain ⟨henabled, hasks⟩ := hschedules rfl
  obtain ⟨s₁, hbefore, hafter⟩ := tick_own hnodup hd h
  have hfire : tickTrigger zones t s₁ d =
      if asks (minuteOf t) then claimAndFire d t t s₁ else s₁ := by
    rw [tickTrigger, if_pos henabled, shouldFire, hasks, Except.map]
    cases asks (minuteOf t) <;> rfl
  rw [hfire, claimAndFire, hbefore.claimable] at hafter
  by_cases hclaims : asks (minuteOf t) = true ∧ s.1.claimable d.id (minuteOf t) = true
  · rw [if_pos hclaims.1, if_pos hclaims.2] at hafter
    constructor
    · exact hafter.table.trans hbefore.table
    · intro m _ hm
      rw [hafter.claimable, claimable_claim, and_iff_right (claimable_mono hclaims.2 hm), true_and]
      exact hm.lt_iff_ne
    · intro _ _ _
      rw [hafter.storedIn, storedIn_fireWorkflow hbefore.named, if_pos rfl, hbefore.storedIn]
    · intro m _ hnot
      have hm : minuteOf t ≠ m := fun heq => hnot ⟨trivial, heq ▸ hclaims.2, heq⟩
      rw [hafter.storedIn, storedIn_fireWorkflow hbefore.named, if_neg hm, hbefore.storedIn]
    · exact hafter.named
  · -- the schedule does not ask for the minute, or it is claimed
    have hsame : Untouched d.id s (Scheduler.tick zones t s) := by
      apply hbefore.trans
      split at hafter
      · next hnow => rwa [if_neg fun hclaim => hclaims ⟨hnow, hclaim⟩] at hafter
      · exact hafter
    constructor
    · exact hsame.table
    · intro m hm _
      rw [hsame.claimable, true_and]
      refine (and_iff_left_of_imp ?_).symm
      rintro hclaim rfl
      exact hclaims ⟨hm, hclaim⟩
    · exact fun _ hnow hclaim => absurd ⟨hnow, hclaim⟩ hclaims
    · exact fun m _ _ => hsame.storedIn m
    · exact hsame.named

lemma Follows.ticked (h : Follows zones asks id p past s.1) (hnamed : Named s.2) (t : Instant) :
    Ticked asks id t (registered id p past = true) s (Scheduler.tick zones t s) := by
  by_cases hhas : ∃ d ∈ s.1.triggers, d.id = id
  · rw [eq_true (h.mem.mp hhas)]
    obtain ⟨d, hd, rfl⟩ := hhas
    exact ticked_with hnamed h.nodup hd (h.schedules d hd)
  · rw [eq_false (mt h.mem.mpr hhas)]
    exact ticked_without hnamed fun d hd hid => hhas ⟨d, hd, hid⟩

/-! ## Runs of the cluster -/

lemma opens_tick : Event.opens id m past ⟨t, p, .tick⟩ = true ↔
    minuteOf t = m ∧ registered id p past = true ∧ looked id p m past = false := by
  simp [Event.opens, and_assoc]

lemma openings_tick (hbefore : ∀ x ∈ past, minuteOf x.time ≤ minuteOf t)
    (h : Follows zones asks id p past s.1) (hm : asks m = true)
    (hticked : Ticked asks id t (registered id p past = true) s s')
    (hstored : storedIn id m s.2 = (openings id m past).foldr keep []) :
    storedIn id m s'.2 = (openings id m (⟨t, p, .tick⟩ :: past)).foldr keep [] := by
  have hclaims : minuteOf t = m → (s.1.claimable id m = true ↔ looked id p m past = false) := by
    rintro rfl
    exact h.claimable _ hm hbefore
  by_cases hopens : Event.opens id m past ⟨t, p, .tick⟩ = true
  · obtain ⟨rfl, hhas, hlooked⟩ := opens_tick.mp hopens
    rw [openings, if_pos hopens, List.foldr_cons, ← hstored]
    exact hticked.claims hhas hm ((hclaims rfl).mpr hlooked)
  · rw [openings, if_neg hopens, ← hstored]
    apply hticked.others m hm
    rintro ⟨hhas, hclaim, heq⟩
    exact hopens (opens_tick.mpr ⟨heq, hhas, (hclaims heq).mp hclaim⟩)

lemma Tracks.act {c : Cluster} (h : Tracks zones asks id past c)
    (hsorted : ∀ x ∈ past, x.time ≤ e.time)
    (hdefs : ∀ d, e.action = .addTrigger d → Schedules zones asks id d) :
    Tracks zones asks id (e :: past) (c.act zones e) := by
  obtain ⟨t, p, action⟩ := e
  have hown := h.schedulers p
  -- The other schedulers go on as they were.
  have hothers : ∀ u, Follows zones asks id p (⟨t, p, action⟩ :: past) u →
      ∀ q, Follows zones asks id q (⟨t, p, action⟩ :: past)
        (Function.update c.scheduler p u q) := by
    intro u hu q
    by_cases hq : p = q
    · subst hq
      rwa [Function.update_self]
    · rw [Function.update_of_ne (Ne.symm hq)]
      exact (h.schedulers q).idle hq
  cases action with
  | tick =>
    have hticked := hown.ticked (s := (c.scheduler p, c.server)) h.named t
    constructor
    · exact hothers _ (hown.tick hticked.table hticked.claimable)
    · intro m hm
      exact openings_tick (s := (c.scheduler p, c.server))
        (fun x hx => minuteOf_mono (hsorted x hx)) hown hm hticked (h.stored m hm)
    · exact hticked.named
  | addTrigger d =>
    refine ⟨hothers _ (hown.addTrigger (hdefs d rfl)), fun m hm => ?_, h.named⟩
    rw [openings_of_ne (by simp)]
    exact h.stored m hm
  | deleteTrigger id' =>
    refine ⟨hothers _ (hown.deleteTrigger id'), fun m hm => ?_, h.named⟩
    rw [openings_of_ne (by simp)]
    exact h.stored m hm
  | deleteLastFired id' =>
    refine ⟨hothers _ (hown.deleteLastFired id'), fun m hm => ?_, h.named⟩
    rw [openings_of_ne (by simp)]
    exact h.stored m hm

lemma tracks_after {events : List Event} (hsorted : events.Pairwise fun e e' => e'.time ≤ e.time)
    (hdefs : ∀ e ∈ events, ∀ d, e.action = .addTrigger d → Schedules zones asks id d) :
    Tracks zones asks id events (Cluster.after zones events) := by
  induction events with
  | nil =>
    constructor
    · intro p
      exact ⟨List.nodup_nil, by simp [registered, Cluster.after], List.forall_mem_nil _, by
        simp [looked, Cluster.after, Scheduler.claimable]⟩
    · exact fun _ _ => rfl
    · exact List.forall_mem_nil _
  | cons e past ih =>
    obtain ⟨hnow, hpast⟩ := List.pairwise_cons.mp hsorted
    obtain ⟨hd, hds⟩ := List.forall_mem_cons.mp hdefs
    exact (ih hpast hds).act hnow hd

/-- However many schedulers there are and whenever they tick, and whenever the trigger
is updated under the same schedule: a minute that matches starts exactly one run if and
only if all first looks at it fall together. -/
theorem fires_once_iff {events : List Event}
    (hsorted : events.Pairwise fun e e' => e'.time ≤ e.time)
    (hdefs : ∀ e ∈ events, ∀ d, e.action = .addTrigger d → Schedules zones asks id d)
    (hm : asks m = true) : (startsIn id m (Cluster.after zones events).server).length = 1 ↔
    LooksTogether id m events := by
  have hstored := (tracks_after hsorted hdefs).stored m hm
  have hlength : (storedIn id m (Cluster.after zones events).server).length =
      (startsIn id m (Cluster.after zones events).server).length := List.length_map ..
  rw [← hlength, hstored, List.length_eq_one_iff, LooksTogether]
  exact exists_congr fun first => foldr_keep_eq_singleton

namespace Example

/-- Two processes with the same trigger, which both tick in minute 60, the second one
so much later than the first. -/
def twoTicks (delay : Instant) : List Event :=
  [⟨60 * nanosPerMinute + delay, 1, .tick⟩, ⟨60 * nanosPerMinute, 0, .tick⟩,
    ⟨0, 1, .addTrigger (report "0 * * * *")⟩, ⟨0, 0, .addTrigger (report "0 * * * *")⟩]

lemma schedules_report (delay : Instant) : ∀ e ∈ twoTicks delay, ∀ d,
    e.action = .addTrigger d → Schedules onlyUTC (wanted hourly) "report" d := by
  intro e he d hd _
  have hreport : d = report "0 * * * *" := by
    simp only [twoTicks, List.mem_cons, List.not_mem_nil, or_false] at he
    rcases he with rfl | rfl | rfl | rfl <;> cases hd <;> rfl
  rw [hreport]
  exact ⟨rfl, schedule_report parse_hourly⟩

lemma sorted_twoTicks (delay : Instant) :
    (twoTicks delay).Pairwise fun e e' => e'.time ≤ e.time := by
  simp [twoTicks]

/-- One second apart, the second start is dropped. -/
theorem second_later_once :
    (startsIn "report" 60 (Cluster.after onlyUTC (twoTicks (10 ^ 9))).server).length = 1 :=
  (fires_once_iff (sorted_twoTicks _) (schedules_report _) (by decide +kernel)).mpr
    ⟨60 * nanosPerMinute, by decide +kernel, by decide +kernel⟩

/-- Twenty seconds apart, there are two runs. -/
theorem twenty_seconds_later_twice : wanted hourly 60 = true ∧
    (startsIn "report" 60 (Cluster.after onlyUTC (twoTicks (20 * 10 ^ 9))).server).length = 2 := by
  have hstored := (tracks_after (sorted_twoTicks (20 * 10 ^ 9)) (schedules_report _)).stored 60
    (by decide +kernel)
  refine ⟨by decide +kernel, (List.length_map (·.storedAt)).symm.trans ?_⟩
  rw [storedIn] at hstored
  rw [hstored]
  decide +kernel

end Example

end Dagnats.Trigger
