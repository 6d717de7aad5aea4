import Dagnats.Engine.Start

/-!
# Engines over one world

A job is the handling of one history event, the firing of one timer, or one
visit of the reconciler; any number of jobs run at once, interleaved call by
call, as the jobs of different engines are. An event may be handled any number
of times, also by two engines at once. A timer may fire at any time after it was
scheduled and any number of times (`Engine.SleepTimer` is the protocol behind
it).

The world moves by itself when time passes, a definition is registered, or a
worker, the API or a client publishes an event.
-/

namespace Dagnats

open Interaction

inductive Job where
  /-- Handle the event at a position of the log. -/
  | handle (i : ℕ)
  /-- Fire the timer at a position of the log. -/
  | fire (i : ℕ)
  | reconcile (runID : String)
  | release (runID : String)
  deriving DecidableEq

inductive Move where
  | tick (d : ℕ)
  | register (d : WorkflowDef)
  | publish (e : Event)

namespace Orchestrator

variable (o : Orchestrator)

/-- The program of a job, where the job is possible. -/
def startJob (w : World) : Job → Option (M Unit)
  | .handle i =>
    match w.entryAt i with
    | some (.event e) => some (o.handleEvent e)
    | _ => none
  | .fire i =>
    match w.entryAt i with
    | some (.timer t _ _) => some (fireTimer t)
    | _ => none
  | .reconcile runID => some (o.reconcileOneRun runID)
  | .release runID => some (o.reconcileReleasePendingRun runID)

def move (w : World) : Move → Option World
  | .tick d => some { w with now := w.now + d }
  | .register d =>
    match validate o.toExternals d with
    | .ok _ =>
      some ((w.push (.definition (.version d.name (o.defHash d)) d)).push
        (.definition (.latest d.name) d))
    | .error _ => none
  | .publish e => some (w.push (.event e))

/-- The system of all engines with this configuration. -/
def system : System Call Answer Err World where
  Choice := Choice
  exec := World.exec
  Job := Job
  start := o.startJob
  Move := Move
  move := o.move

end Orchestrator

def emptyPool (o : Orchestrator) : Pool o.system :=
  Pool.initial { log := [], now := 0 }

end Dagnats
