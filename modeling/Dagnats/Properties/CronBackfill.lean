import Dagnats.Interaction.Climb
import Dagnats.Trigger.Fires
import Mathlib.Data.List.Range

/-!
# Replaying missed minutes

After a restart a scheduler scans the minutes since the last fire and replays
those that match, a hundred at most. The scan stops after 10000 minutes and
takes the rest for minutes that do not match. The claims of the process are gone
with the restart, so a tick in the minute of the last fire claims it again.

Everything that a trigger fires has been claimed, and claims only go up: what a
process starts is what its candidates, first the replayed minutes and then those
of the ticks, leave when each one has to be later than the one before.
-/

namespace Dagnats.Trigger

open Interaction Scheduler

variable {zones : Zones} {asks : ℕ → Bool} {id : String} {d : CronTrigger}
  {now clock last : Instant} {m n restart : ℕ} {L ms : List ℕ} {ts : List CronTrigger}
  {s s' : Scheduler × Server}

/-- The minutes for which runs of the trigger were started, in this order. -/
def startedMinutes (id : String) (srv : Server) : List ℕ :=
  (startsOf id srv).reverse.map fun r => minuteOf r.timestamp

/-- The scheduler has these triggers, and the trigger has claimed and started these
minutes. -/
structure Claims (ts : List CronTrigger) (id : String) (s : Scheduler × Server) (L : List ℕ) :
    Prop where
  table : s.1.triggers = ts
  claimed : s.1.lastFired id = L.getLast?
  started : startedMinutes id s.2 = L
  increasing : L.Pairwise (· < ·)
  named : Named s.2

namespace Claims

lemma untouched (h : Claims ts id s L) (h' : Untouched id s s') : Claims ts id s' L := by
  constructor
  · exact h'.table.trans h.table
  · exact h'.lastFired.trans h.claimed
  · rw [startedMinutes, h'.starts]
    exact h.started
  · exact h.increasing
  · exact h'.named

lemma claimAndFire (h : Claims ts d.id s L) (now clock : Instant) :
    Claims ts d.id (claimAndFire d now clock s) (climb L (minuteOf now)) := by
  unfold Scheduler.claimAndFire
  have hclaimable : s.1.claimable d.id (minuteOf now) = L.getLast?.all (· < minuteOf now) := by
    rw [claimable, h.claimed]
  rw [hclaimable]
  split
  · next hlast =>
    have hlt := (forall_lt_iff_getLast? h.increasing).mp hlast
    have hstarts : (fireWorkflow s.2 d now clock).starts = startOf d now clock :: s.2.starts := by
      rcases fireWorkflow_cases h.named with ⟨-, r, hr, hminute, -⟩ | ⟨hstarts, -⟩
      · -- A minute that has been started is not above all claims.
        have hmem : minuteOf now ∈ L := by
          rw [← h.started, ← hminute]
          exact List.mem_map_of_mem (List.mem_reverse.mpr hr)
        exact absurd (hlt _ hmem) (lt_irrefl _)
      · exact hstarts
    have hown : (startOf d now clock).isOf d.id = true := startOf_isOf.mpr rfl
    rw [climb_of_lt h.increasing hlt]
    constructor
    · exact h.table
    · simp [claim]
    · rw [startedMinutes, startsOf, hstarts, List.filter_cons, if_pos hown, List.reverse_cons,
        List.map_append, ← h.started]
      rfl
    · rw [← climb_of_lt h.increasing hlt]
      exact climb_pairwise h.increasing
    · exact h.named.fireWorkflow d now clock
  · next hlast => rwa [climb, if_neg hlast]

end Claims

/-! ## Ticks -/

def tickMinutes (asks : ℕ → Bool) (d : CronTrigger) (ticks : List Instant) : List ℕ :=
  if d.enabled then (ticks.map minuteOf).filter asks else []

section

variable (hasks : schedule zones d.cron = .ok asks) (hnodup : (ts.map (·.id)).Nodup) (hd : d ∈ ts)
  (h : Claims ts d.id s L)
include hasks hnodup hd h

lemma Claims.tick (now : Instant) :
    Claims ts d.id (Scheduler.tick zones now s) ((tickMinutes asks d [now]).foldl climb L) := by
  rw [← h.table] at hnodup hd
  obtain ⟨s', hbefore, hafter⟩ := tick_own hnodup hd h.named
  have hs' := h.untouched hbefore
  apply Claims.untouched ?_ hafter
  unfold tickTrigger tickMinutes
  split
  · rw [shouldFire, hasks, Except.map]
    cases hnow : asks (minuteOf now) with
    | true => simpa [hnow] using hs'.claimAndFire now now
    | false => simpa [hnow] using hs'
  · exact hs'

lemma Claims.ticks (ticks : List Instant) :
    Claims ts d.id (ticks.foldl (fun s now => Scheduler.tick zones now s) s)
      ((tickMinutes asks d ticks).foldl climb L) := by
  induction ticks generalizing s L with
  | nil =>
    have hnone : tickMinutes asks d [] = [] := by simp [tickMinutes]
    rw [hnone]
    exact h
  | cons now ticks ih =>
    have hcons : tickMinutes asks d (now :: ticks) =
        tickMinutes asks d [now] ++ tickMinutes asks d ticks := by
      unfold tickMinutes
      split
      · rw [List.map_cons, List.map_cons, List.map_nil, ← List.filter_append]
        rfl
      · rfl
    rw [hcons, List.foldl_append]
    exact ih (h.tick hasks hnodup hd now)

end

/-! ## The backfill -/

lemma Claims.replay (h : Claims ts d.id s L) (clock : Instant) (ms : List ℕ) : Claims ts d.id
      (ms.foldl (fun s minute => Scheduler.claimAndFire d (minute * nanosPerMinute) clock s) s)
      (ms.foldl climb L) := by
  induction ms generalizing s L with
  | nil => exact h
  | cons m ms ih =>
    have hfirst := h.claimAndFire (m * nanosPerMinute) clock
    rw [minuteOf_mul] at hfirst
    exact ih hfirst

lemma backfillTrigger_cases : ∃ ms : List ℕ, backfillTrigger zones clock s d =
    ms.foldl (fun s minute => Scheduler.claimAndFire d (minute * nanosPerMinute) clock s) s := by
  unfold backfillTrigger
  split
  · split
    · exact ⟨[], rfl⟩
    · split
      · exact ⟨[], rfl⟩
      · exact ⟨_, rfl⟩
  · exact ⟨[], rfl⟩

lemma backfillTrigger_untouched (h : Named s.2) (hid : d.id ≠ id) : Untouched id s
    (backfillTrigger zones clock s d) := by
  obtain ⟨ms, heq⟩ := backfillTrigger_cases
  rw [heq]
  exact foldl_untouched h fun _ hs m _ => claimAndFire_untouched hs hid

lemma backfillTrigger_named (h : Named s.2) : Named (backfillTrigger zones clock s d).2 := by
  obtain ⟨ms, heq⟩ := backfillTrigger_cases
  rw [heq]
  clear heq
  induction ms generalizing s with
  | nil => exact h
  | cons m ms ih => exact ih (h.claimAndFire d (m * nanosPerMinute) clock)

lemma scan_eq (last n current : ℕ) : scan asks last n current =
    (List.range' current (min n (last + 1 - current))).filter asks := by
  induction n generalizing current with
  | zero => simp [scan]
  | succ n ih =>
    rw [scan]
    split
    · next hlt =>
      have hzero : last + 1 - current = 0 := by omega
      rw [hzero, Nat.min_zero]
      rfl
    · next hle =>
      have hsucc : min (n + 1) (last + 1 - current) =
          min n (last + 1 - (current + 1)) + 1 := by omega
      rw [hsucc, List.range'_succ, List.filter_cons, ih]

section

variable (asks last restart)

def due : List ℕ :=
  (List.range' (minuteOf last + 1) (restart - minuteOf last)).filter asks

/-- The due minutes that the scan comes to. -/
def scanned : List ℕ :=
  (List.range' (minuteOf last + 1) (min scanIterationsMax (restart - minuteOf last))).filter asks

/-- The due minutes that lie behind the scan. -/
def unscanned : List ℕ :=
  (List.range' (minuteOf last + 1 + min scanIterationsMax (restart - minuteOf last))
    (restart - minuteOf last - min scanIterationsMax (restart - minuteOf last))).filter asks

end

lemma mem_due : m ∈ due asks last restart ↔ minuteOf last < m ∧ m ≤ restart ∧ asks m = true := by
  unfold due
  rw [List.mem_filter, List.mem_range'_1]
  constructor
  · rintro ⟨⟨hlow, hhigh⟩, hm⟩
    exact ⟨hlow, by omega, hm⟩
  · rintro ⟨hlow, hhigh, hm⟩
    exact ⟨⟨hlow, by omega⟩, hm⟩

lemma due_eq_append : due asks last restart =
    scanned asks last restart ++ unscanned asks last restart := by
  unfold due scanned unscanned
  rw [← List.filter_append, List.range'_append_1, Nat.add_sub_cancel' (Nat.min_le_right _ _)]

lemma le_of_mem_scanned (h : m ∈ scanned asks last restart) :
    m ≤ minuteOf last + scanIterationsMax := by
  obtain ⟨hrange, -⟩ := List.mem_filter.mp h
  have hlt := (List.mem_range'_1.mp hrange).2
  omega

lemma lt_of_mem_unscanned (h : m ∈ unscanned asks last restart) :
    minuteOf last + scanIterationsMax < m := by
  obtain ⟨hrange, -⟩ := List.mem_filter.mp h
  have hbounds := List.mem_range'_1.mp hrange
  omega

lemma scanned_pairwise :
    (scanned asks last restart).Pairwise (· < ·) :=
  List.Pairwise.filter _ List.pairwise_lt_range'

lemma claims_backfill (hasks : schedule zones d.cron = .ok asks)
    (hnodup : (ts.map (·.id)).Nodup) (hd : d ∈ ts) (hback : d.cron.backfill = true)
    (h : Claims ts d.id s []) (hlast : s.2.lastRun d.id = some last) :
    Claims ts d.id (backfill zones clock s)
      ((scanned asks last (minuteOf clock)).take backfillFiresMax) := by
  rw [← h.table] at hnodup hd
  obtain ⟨s', hbefore, hafter⟩ := foldl_unique hnodup hd h.named
    (fun s hs d' hid => backfillTrigger_untouched hs hid)
    (fun s hs => backfillTrigger_named hs)
  apply Claims.untouched ?_ hafter
  have hfound : findMatches zones d last (minuteOf clock) =
      .ok (scanned asks last (minuteOf clock)) := by
    rw [findMatches, hasks, Except.map, scan_eq, minuteOf_add, scanned]
    congr 4
    omega
  simp only [backfillTrigger, hback, if_true, hbefore.lastRun.trans hlast, hfound]
  have hreplay := (h.untouched hbefore).replay clock
    ((scanned asks last (minuteOf clock)).take backfillFiresMax)
  rw [foldl_climb_eq_append] at hreplay
  · exact hreplay
  · exact scanned_pairwise.sublist (List.take_sublist _ _)

/-- A process that has just come up: no claims, and no message id in the memory of
the stream. -/
def restarted (ts : List CronTrigger) (lastRun : String → Option Instant) : Scheduler × Server :=
  (⟨ts, fun _ => none⟩, ⟨[], lastRun⟩)

lemma startedMinutes_runScheduler (lastRun : String → Option Instant)
    (hasks : schedule zones d.cron = .ok asks)
    (hnodup : (ts.map (·.id)).Nodup) (hd : d ∈ ts) (hback : d.cron.backfill = true)
    (hlast : lastRun d.id = some last) (restart : Instant) (ticks : List Instant) :
    startedMinutes d.id (runScheduler zones restart ticks (restarted ts lastRun)).2 =
      (tickMinutes asks d ticks).foldl climb
        ((scanned asks last (minuteOf restart)).take backfillFiresMax) := by
  have hinitial : Claims ts d.id (restarted ts lastRun) [] :=
    ⟨rfl, rfl, rfl, List.Pairwise.nil, fun _ hr => nomatch hr⟩
  exact ((claims_backfill hasks hnodup hd hback hinitial hlast).ticks hasks hnodup hd
    ticks).started

/-! ## Exactly the missed minutes -/

/-- These are runs for the missed minutes, or for the first hundred of them, and for
minutes of the ticks: each once, in increasing order, and all after the last fire. -/
structure Replays (asks : ℕ → Bool) (last restart : Instant) (ticks : List Instant)
    (S : List ℕ) : Prop where
  complete : ∀ m ∈ (due asks last (minuteOf restart)).take backfillFiresMax, m ∈ S
  increasing : S.Pairwise (· < ·)
  missed : ∀ m ∈ S, minuteOf last < m ∧ asks m = true
  only : ∀ m ∈ S, m ∈ (due asks last (minuteOf restart)).take backfillFiresMax ∨
    m ∈ ticks.map minuteOf

/-- The scan reaches the minutes that have to be replayed, unless the last of them is
the current one and a tick comes in it; and no tick comes in a matching minute up to the
last fire. -/
structure WithinReach (asks : ℕ → Bool) (d : CronTrigger) (last restart : Instant)
    (ticks : List Instant) : Prop where
  reached : ∀ m ∈ (due asks last (minuteOf restart)).take backfillFiresMax,
    m ≤ minuteOf last + scanIterationsMax ∨ m = minuteOf restart ∧ m ∈ tickMinutes asks d ticks
  after : ∀ m ∈ tickMinutes asks d ticks, minuteOf last < m

variable {ticks : List Instant}

lemma mem_tickMinutes (h : m ∈ tickMinutes asks d ticks) :
    (∃ t ∈ ticks, minuteOf t = m) ∧ asks m = true := by
  unfold tickMinutes at h
  split at h
  · obtain ⟨hmem, hasks⟩ := List.mem_filter.mp h
    exact ⟨List.mem_map.mp hmem, hasks⟩
  · cases h

lemma tickMinutes_sorted (h : ticks.Pairwise (· ≤ ·)) :
    (tickMinutes asks d ticks).Pairwise (· ≤ ·) := by
  unfold tickMinutes
  split
  · apply List.Pairwise.filter
    rw [List.pairwise_map]
    exact h.imp minuteOf_mono
  · exact List.Pairwise.nil

lemma le_of_mem_tickMinutes {restart : Instant} (hlive : ∀ t ∈ ticks, restart ≤ t)
    (h : m ∈ tickMinutes asks d ticks) : minuteOf restart ≤ m := by
  obtain ⟨⟨t, ht, rfl⟩, -⟩ := mem_tickMinutes h
  exact minuteOf_mono (hlive t ht)

lemma take_due : (due asks last restart).take backfillFiresMax =
    (scanned asks last restart).take backfillFiresMax ++
      (unscanned asks last restart).take (backfillFiresMax -
      (scanned asks last restart).length) := by
  rw [due_eq_append, List.take_append]

lemma mem_take_scanned (h : m ∈ (due asks last restart).take backfillFiresMax)
    (hle : m ≤ minuteOf last + scanIterationsMax) :
    m ∈ (scanned asks last restart).take backfillFiresMax := by
  rw [take_due] at h
  rcases List.mem_append.mp h with h | h
  · exact h
  · exact absurd (lt_of_mem_unscanned (List.mem_of_mem_take h)) (not_lt.mpr hle)

/-- **Backfill.**  A restarted process starts exactly the missed minutes if and only if
they are within its reach. -/
theorem backfill_exact (lastRun : String → Option Instant) {restart : Instant}
    {ticks : List Instant} (hasks : schedule zones d.cron = .ok asks)
    (hnodup : (ts.map (·.id)).Nodup) (hd : d ∈ ts) (hback : d.cron.backfill = true)
    (hlast : lastRun d.id = some last) (hlive : ∀ t ∈ ticks, restart ≤ t)
    (hsorted : ticks.Pairwise (· ≤ ·)) : Replays asks last restart ticks
        (startedMinutes d.id (runScheduler zones restart ticks (restarted ts lastRun)).2) ↔
      WithinReach asks d last restart ticks := by
  rw [startedMinutes_runScheduler lastRun hasks hnodup hd hback hlast]
  have hfirst : ∀ m ∈ (scanned asks last (minuteOf restart)).take backfillFiresMax,
      m ∈ (due asks last (minuteOf restart)).take backfillFiresMax := by
    intro m hm
    rw [take_due]
    exact List.mem_append_left _ hm
  have hdue : ∀ m ∈ (due asks last (minuteOf restart)).take backfillFiresMax,
      minuteOf last < m ∧ m ≤ minuteOf restart ∧ asks m = true :=
    fun m hm => mem_due.mp (List.mem_of_mem_take hm)
  have hincreasing :
      ((scanned asks last (minuteOf restart)).take backfillFiresMax).Pairwise (· < ·) :=
    scanned_pairwise.sublist (List.take_sublist _ _)
  constructor
  · intro h
    constructor
    · intro m hm
      rcases mem_foldl_climb (h.complete m hm) with hmem | hmem
      · exact .inl (le_of_mem_scanned (List.mem_of_mem_take hmem))
      · exact .inr ⟨le_antisymm (hdue m hm).2.1 (le_of_mem_tickMinutes hlive hmem), hmem⟩
    · intro m hm
      by_contra hnot
      -- The process came up in a minute that was fired, so there is nothing to replay.
      have hnone : (scanned asks last (minuteOf restart)).take backfillFiresMax = [] := by
        rw [List.eq_nil_iff_forall_not_mem]
        intro x hx
        have hx := hdue x (hfirst x hx)
        have hle := le_of_mem_tickMinutes hlive hm
        omega
      obtain ⟨first, rest, hticks⟩ := List.exists_cons_of_ne_nil (List.ne_nil_of_mem hm)
      have hticked : (tickMinutes asks d ticks).Pairwise (· ≤ ·) := tickMinutes_sorted hsorted
      have hle : ∀ x ∈ tickMinutes asks d ticks, first ≤ x := by
        intro x hx
        rw [hticks] at hx hticked
        rcases List.mem_cons.mp hx with rfl | hx
        · exact le_rfl
        · exact List.rel_of_pairwise_cons hticked hx
      have hstarted := mem_foldl_climb_of_least (L := []) List.Pairwise.nil
        (fun x hx => nomatch hx) hticked (by rw [hticks]; exact List.mem_cons_self) hle
      rw [hnone] at h
      have hafter := (h.missed first hstarted).1
      exact hnot (lt_of_lt_of_le hafter (hle m hm))
  · intro h
    constructor
    · intro m hm
      by_cases hscanned : m ∈ (scanned asks last (minuteOf restart)).take backfillFiresMax
      · exact subset_foldl_climb _ _ hscanned
      · rcases h.reached m hm with hle | ⟨rfl, hmem⟩
        · exact absurd (mem_take_scanned hm hle) hscanned
        · apply mem_foldl_climb_of_least hincreasing
          · intro x hx
            apply lt_of_le_of_ne (hdue x (hfirst x hx)).2.1
            rintro rfl
            exact hscanned hx
          · exact tickMinutes_sorted hsorted
          · exact hmem
          · exact fun x hx => le_of_mem_tickMinutes hlive hx
    · exact foldl_climb_pairwise hincreasing
    · intro m hm
      rcases mem_foldl_climb hm with hmem | hmem
      · exact ⟨(hdue m (hfirst m hmem)).1, (hdue m (hfirst m hmem)).2.2⟩
      · exact ⟨h.after m hmem, (mem_tickMinutes hmem).2⟩
    · intro m hm
      rcases mem_foldl_climb hm with hmem | hmem
      · exact .inl (hfirst m hmem)
      · exact .inr (List.mem_map.mpr (mem_tickMinutes hmem).1)

namespace Example

/-- What a clock shows in UTC, by the Gregorian calendar. -/
def utc (minute : ℕ) : Cron.Civil :=
  let days := minute / 1440
  let doe := (days + 719468) % 146097
  let yoe := (doe - doe / 1460 + doe / 36524 - doe / 146096) / 365
  let doy := doe - (365 * yoe + yoe / 4 - yoe / 100)
  let mp := (5 * doy + 2) / 153
  { minute := (minute % 60 : ℕ), hour := (minute / 60 % 24 : ℕ)
    day := (doy - (153 * mp + 2) / 5 + 1 : ℕ)
    month := (if mp < 10 then mp + 3 else mp - 9 : ℕ), weekday := ((days + 4) % 7 : ℕ) }

def onlyUTC : Zones := fun name => if name = "UTC" then some utc else none

def report (expression : String) : CronTrigger where
  id := "report"
  workflowID := "report"
  enabled := true
  cron := ⟨expression, "UTC", true⟩

/-- The minutes that a parsed expression asks for. -/
def wanted (expr : Cron.CronExpr) (minute : ℕ) : Bool :=
  expr.matchesTime (utc minute)

lemma schedule_report {expression : String} {expr : Cron.CronExpr}
    (h : Cron.parseCron expression = .ok expr) :
    schedule onlyUTC (report expression).cron = .ok (wanted expr) := by
  unfold schedule
  rw [show (report expression).cron.expression = expression from rfl, h]
  rfl

/-- The first day of every month, at midnight. -/
def monthly : Cron.CronExpr where
  minutes := [0]
  hours := [0]
  daysOfMonth := [1]
  months := Cron.rangeInts 1 12
  daysOfWeek := Cron.rangeInts 0 6
  dayOfMonthRestricted := true
  dayOfWeekRestricted := false

lemma parse_monthly : Cron.parseCron "0 0 1 * *" = .ok monthly := by
  decide +kernel

/-- Only full hours count, and the scan sees 166 of them after midnight. -/
lemma scanned_monthly : scanned (wanted monthly) 0 44645 = [] := by
  have hhours : ∀ k < 167, wanted monthly (60 * k) = true → k = 0 := by decide +kernel
  unfold scanned
  rw [List.filter_eq_nil_iff]
  intro m hm hwanted
  have hbounds := List.mem_range'_1.mp hm
  have hlt : m < 10001 := by
    have hmin := Nat.min_le_left scanIterationsMax (44645 - minuteOf 0)
    have hmax : scanIterationsMax = 10000 := rfl
    have hzero : minuteOf 0 = 0 := rfl
    omega
  have hhour : m % 60 = 0 := by
    unfold wanted Cron.CronExpr.matchesTime at hwanted
    simp only [Bool.and_eq_true] at hwanted
    have hshown : (m : ℤ) % 60 = 0 := by simpa [monthly, utc] using hwanted.1.1.1
    omega
  obtain ⟨k, rfl⟩ := Nat.dvd_of_mod_eq_zero hhour
  have hk := hhours k (by omega) hwanted
  have hlow := hbounds.1
  omega

/-- The process was down from the first of January to the first of February, 1970.
The scan gives up in the first days of January, and the minute is not replayed. -/
theorem monthly_missed : 44640 ∈ due (wanted monthly) 0 44645 ∧
      startedMinutes "report" (runScheduler onlyUTC (44645 * nanosPerMinute) []
        (restarted [report "0 0 1 * *"] fun _ => some 0)).2 = [] ∧
      ¬Replays (wanted monthly) 0 (44645 * nanosPerMinute) []
        (startedMinutes "report" (runScheduler onlyUTC (44645 * nanosPerMinute) []
          (restarted [report "0 0 1 * *"] fun _ => some 0)).2) := by
  have hdue : 44640 ∈ due (wanted monthly) 0 44645 :=
    mem_due.mpr ⟨by decide, by decide, by decide +kernel⟩
  have hnothing : startedMinutes "report" (runScheduler onlyUTC (44645 * nanosPerMinute) []
      (restarted [report "0 0 1 * *"] fun _ => some 0)).2 = [] := by
    have hstarted := startedMinutes_runScheduler (d := report "0 0 1 * *") (fun _ => some 0)
      (schedule_report parse_monthly) (by decide) (List.mem_singleton_self _) rfl rfl
      (44645 * nanosPerMinute) []
    rw [minuteOf_mul, scanned_monthly] at hstarted
    exact hstarted
  refine ⟨hdue, hnothing, fun h => ?_⟩
  rw [hnothing] at h
  obtain ⟨first, rest, hfirst⟩ := List.exists_cons_of_ne_nil (List.ne_nil_of_mem hdue)
  have hmem : first ∈ (due (wanted monthly) 0 (minuteOf (44645 * nanosPerMinute))).take
      backfillFiresMax := by
    rw [minuteOf_mul, hfirst]
    exact .head _
  exact nomatch h.complete first hmem

def hourly : Cron.CronExpr where
  minutes := [0]
  hours := Cron.rangeInts 0 23
  daysOfMonth := Cron.rangeInts 1 31
  months := Cron.rangeInts 1 12
  daysOfWeek := Cron.rangeInts 0 6
  dayOfMonthRestricted := false
  dayOfWeekRestricted := false

lemma parse_hourly : Cron.parseCron "0 * * * *" = .ok hourly := by
  decide +kernel

/-- A process was down for two hours; two ticks come after the backfill. -/
theorem hourly_replayed : Replays (wanted hourly) 0 (125 * nanosPerMinute)
      [125 * nanosPerMinute, 180 * nanosPerMinute]
      (startedMinutes "report" (runScheduler onlyUTC (125 * nanosPerMinute)
        [125 * nanosPerMinute, 180 * nanosPerMinute]
        (restarted [report "0 * * * *"] fun _ => some 0)).2) := by
  apply (backfill_exact (d := report "0 * * * *") (fun _ => some 0)
    (schedule_report parse_hourly) (by decide) (List.mem_singleton_self _) rfl rfl
    (by decide) (by decide)).mpr
  constructor
  · intro m hm
    have hle := (mem_due.mp (List.mem_of_mem_take hm)).2.1
    rw [minuteOf_mul] at hle
    exact .inl (hle.trans (by decide))
  · have hticks : tickMinutes (wanted hourly) (report "0 * * * *")
        [125 * nanosPerMinute, 180 * nanosPerMinute] = [180] := by decide +kernel
    rw [hticks]
    decide

end Example

end Dagnats.Trigger
