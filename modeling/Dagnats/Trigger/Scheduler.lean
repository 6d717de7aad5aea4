import Dagnats.Trigger.Cron
import Mathlib.Logic.Function.Basic

/-!
# The cron scheduler

`internal/trigger/scheduler.go` and `fire.go`: at every tick a scheduler claims
the minute of each trigger that matches and publishes the start of a run. A
claim is kept in the memory of the process; the stream of the starts drops a
message whose id it has stored less than five seconds ago.

Instants are nanoseconds and minutes are counted since the Unix epoch. A time
zone shows the same for all instants of a minute. Left out are the record of a
fire in the trigger history and the gauges.
-/

namespace Dagnats.Trigger

open Cron

abbrev Instant := ℕ

def nanosPerMinute : ℕ := 60 * 10 ^ 9

/-- `Truncate` to the minute. -/
def minuteOf (t : Instant) : ℕ :=
  t / nanosPerMinute

/-- `time.LoadLocation`, and `In` for the minutes of a zone. -/
abbrev Zones := String → Option (ℕ → Civil)

structure CronConfig where
  expression : String
  timezone : String
  backfill : Bool
  deriving DecidableEq

/-- `TriggerDef`, for the triggers that a scheduler takes. -/
structure CronTrigger where
  id : String
  workflowID : String
  enabled : Bool
  cron : CronConfig
  deriving DecidableEq

/-- `ParseCron` and `LoadLocation`: which minutes the trigger asks for. -/
def schedule (zones : Zones) (cron : CronConfig) : Except String (ℕ → Bool) :=
  match parseCron cron.expression with
  | .error e => .error ("ParseCron: " ++ e)
  | .ok expr =>
    match zones cron.timezone with
    | none => .error ("LoadLocation \"" ++ cron.timezone ++ "\"")
    | some loc => .ok fun minute => expr.matchesTime (loc minute)

def shouldFire (zones : Zones) (d : CronTrigger) (now : Instant) : Except String Bool :=
  (schedule zones d.cron).map fun asks => asks (minuteOf now)

def scanIterationsMax : ℕ := 10000

/-- The loop of `findMatches`, from `current` on. -/
def scan (asks : ℕ → Bool) (last : ℕ) : ℕ → ℕ → List ℕ
  | 0, _ => []
  | iterations + 1, current =>
    if last < current then []
    else if asks current then current :: scan asks last iterations (current + 1)
    else scan asks last iterations (current + 1)

/-- The minutes after `start` up to the minute `last`. -/
def findMatches (zones : Zones) (d : CronTrigger) (start : Instant) (last : ℕ) :
    Except String (List ℕ) :=
  (schedule zones d.cron).map fun asks =>
    scan asks last scanIterationsMax (minuteOf (start + nanosPerMinute))

/-- A `workflow.started` event that the stream has stored. -/
structure Start where
  msgID : String
  workflowID : String
  /-- The time in the envelope. -/
  timestamp : Instant
  storedAt : Instant

/-- The stream of the starts, the newest first, and the bucket `trigger_state`. -/
structure Server where
  starts : List Start
  lastRun : String → Option Instant

def duplicatesWindow : ℕ := 5 * 10 ^ 9

/-- The stream stores a start, unless it has the message id from the last five
seconds. -/
def Server.publish (s : Server) (start : Start) : Server :=
  if s.starts.any fun r => r.msgID = start.msgID && start.storedAt < r.storedAt + duplicatesWindow
  then s
  else { s with starts := start :: s.starts }

/-- For a cron fire. -/
def startedDedupID (triggerID : String) (now : Instant) : String :=
  "trigger." ++ triggerID ++ "." ++ toString (minuteOf now)

/-- `Fire`, then `recordLastRun`. A start for `now` is published at the instant `clock`.
-/
def fireWorkflow (s : Server) (d : CronTrigger) (now clock : Instant) : Server :=
  let s := s.publish
    { msgID := startedDedupID d.id now, workflowID := d.workflowID, timestamp := now
      storedAt := clock }
  { s with lastRun := Function.update s.lastRun d.id (some (minuteOf now * nanosPerMinute)) }

/-- The memory of a `Scheduler`. -/
structure Scheduler where
  triggers : List CronTrigger := []
  lastFired : String → Option ℕ := fun _ => none

namespace Scheduler

def addTrigger (s : Scheduler) (d : CronTrigger) : Scheduler :=
  { s with triggers := d :: s.triggers.filter (·.id ≠ d.id) }

variable (s : Scheduler) (id : String)

/-- The first half of `RemoveTrigger`. -/
def deleteTrigger : Scheduler :=
  { s with triggers := s.triggers.filter (·.id ≠ id) }

/-- The second half of `RemoveTrigger`. -/
def deleteLastFired : Scheduler :=
  { s with lastFired := Function.update s.lastFired id none }

def claimable (minute : ℕ) : Bool :=
  (s.lastFired id).all (· < minute)

/-- `claimMinute`, when it returns true. -/
def claim (minute : ℕ) : Scheduler :=
  { s with lastFired := Function.update s.lastFired id (some minute) }

def claimAndFire (d : CronTrigger) (now clock : Instant) (s : Scheduler × Server) :
    Scheduler × Server :=
  if s.1.claimable d.id (minuteOf now) then
    (s.1.claim d.id (minuteOf now), fireWorkflow s.2 d now clock)
  else s

/-- One trigger of a `Tick`; an error is returned to the loop, which drops it. -/
def tickTrigger (zones : Zones) (now : Instant) (s : Scheduler × Server) (d : CronTrigger) :
    Scheduler × Server :=
  if d.enabled then
    match shouldFire zones d now with
    | .ok true => claimAndFire d now now s
    | _ => s
  else s

/-- The triggers share nothing, so they take turns. -/
def tick (zones : Zones) (now : Instant) (s : Scheduler × Server) : Scheduler × Server :=
  s.1.triggers.foldl (tickTrigger zones now) s

def backfillFiresMax : ℕ := 100

variable (zones : Zones) (clock : Instant)

/-- At the instant `clock`. -/
def backfillTrigger (s : Scheduler × Server) (d : CronTrigger) : Scheduler × Server :=
  if d.cron.backfill then
    match s.2.lastRun d.id with
    | none => s
    | some lastRun =>
      match findMatches zones d lastRun (minuteOf clock) with
      | .error _ => s
      | .ok found =>
        (found.take backfillFiresMax).foldl (fun s minute =>
          claimAndFire d (minute * nanosPerMinute) clock s) s
  else s

def backfill (s : Scheduler × Server) : Scheduler × Server :=
  s.1.triggers.foldl (backfillTrigger zones clock) s

/-- The backfill, then a tick at each of these instants. -/
def runScheduler (ticks : List Instant) (s : Scheduler × Server) : Scheduler × Server :=
  ticks.foldl (fun s now => tick zones now s) (backfill zones clock s)

end Scheduler

/-- What a scheduler does; `handleKVUpdate` removes a trigger, in two steps, and adds
its new version. -/
inductive Action where
  | tick
  | addTrigger (d : CronTrigger)
  | deleteTrigger (id : String)
  | deleteLastFired (id : String)
  deriving DecidableEq

def Action.perform (zones : Zones) (now : Instant) (s : Scheduler × Server) :
    Action → Scheduler × Server
  | .tick => Scheduler.tick zones now s
  | .addTrigger d => (s.1.addTrigger d, s.2)
  | .deleteTrigger id => (s.1.deleteTrigger id, s.2)
  | .deleteLastFired id => (s.1.deleteLastFired id, s.2)

structure Event where
  time : Instant
  process : ℕ
  action : Action

/-- Schedulers over one server. -/
structure Cluster where
  scheduler : ℕ → Scheduler := fun _ => {}
  server : Server := ⟨[], fun _ => none⟩

def Cluster.act (zones : Zones) (c : Cluster) (e : Event) : Cluster :=
  let s := e.action.perform zones e.time (c.scheduler e.process, c.server)
  ⟨Function.update c.scheduler e.process s.1, s.2⟩

/-- The cluster after these events, the newest first. -/
def Cluster.after (zones : Zones) : List Event → Cluster
  | [] => {}
  | e :: past => (after zones past).act zones e

end Dagnats.Trigger
