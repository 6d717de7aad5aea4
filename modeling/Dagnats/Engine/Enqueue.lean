import Dagnats.Engine.Dispatch

/-!
# Planning and enqueueing

The planning half of a dispatch, one function per step type, `enqueueReady`
itself with the recursion through the queue advance, and the resending of steps
that were saved as dispatched but never sent.
-/

namespace Dagnats

open Interaction

def Orchestrator.resolveSleepDuration (o : Orchestrator) (cfg : ConfigDoc)
    (input : Raw) (t : Time) : Option Duration :=
  let resolved :=
    if cfg.cron ≠ "" ∨ cfg.untilInputPath ≠ "" then o.sleepDelay cfg input t
    else if cfg.duration < 0 then none
    else some cfg.duration
  resolved.filter fun d => d ≤ 365 * 24 * 3600 * second

variable (run : WorkflowRun) (step : StepDef)

/-- The waiter and what is left of the timeout. -/
def waitForEventSend : M Effect := do
  match parseWaitForEventConfig step with
  | none => throw (.other ("WaitForEvent config is nil: " ++ step.id))
  | some opts => do
    let resolved ← ofFault (opts.match_.resolve run true)
    let t ← now
    let timeout :=
      match (run.step step.id).startedAt with
      | some dispatchedAt => opts.timeout - (t - dispatchedAt)
      | none => opts.timeout
    return .wait
      { runID := run.runID, stepID := step.id, eventType := opts.event
        match_ := resolved, cancels := false } timeout

def mapItems : Raw → Option (List Json)
  | .doc (.arr items) => some items
  | .doc .null => some []
  | _ => none

def planMapStep (d : WorkflowDef) (run : WorkflowRun) (step : StepDef) :
    M (WorkflowRun × Effect) := do
  match step.dependsOn with
  | [dep] =>
    match mapItems (run.step dep).output with
    | none => throw (.other "map step: upstream output is not a JSON array")
    | some items =>
      match parseMapConfig step with
      | none => panic "validateAndInitMapInstances"
      | some cfg =>
        if cfg.maxItems < items.length then
          throw (.other "map step: items exceed MaxItems")
        else
          let state := { run.step step.id with
            status := .running
            mapInstances := items.map fun _ => { status := .queued } }
          return (run.setStep step.id state, .map d.name step items)
  | _ => panic "planMapStep: Map step must have exactly one dep"

/-- A detached child completes its step at once. -/
def markSpawnedStep (cfg : ConfigDoc) (childRunID : String) : WorkflowRun :=
  let state := run.step step.id
  run.setStep step.id (if cfg.detach then
      { state with
        status := .completed, childRunID := childRunID
        output := .doc (.obj [("child_run_id", .str childRunID)]) }
    else { state with status := .running, childRunID := childRunID })

def spawnPayload (step : StepDef) (cfg : ConfigDoc) (input : Raw) (childRunID : String) : Raw :=
  .doc (.obj [("child_run_id", .str childRunID), ("child_workflow", .str cfg.workflow),
     ("detach", .bool cfg.detach), ("input", input.marshal.getD .null),
     ("parent_step_id", .str step.id)])

def planSubWorkflow : M (WorkflowRun × Effect) := do
  match parseSubWorkflowConfig step with
  | none => throw (.other "parse sub-workflow config")
  | some cfg => do
    let input ← resolvedInput step run
    let childRunID ← request .newID
    return (markSpawnedStep run step cfg childRunID,
      .spawn (spawnPayload step cfg input childRunID))

/-- `ApprovalGate.Plan`. -/
def planApproval : M (WorkflowRun × Effect) :=
  match parseApprovalConfig step with
  | none => throw (.other "enqueueApprovalStep")
  | some cfg =>
    if milliseconds cfg.timeout ≤ 0 then
      throw (.other "approval timeout must be positive")
    else if cfg.subject = "" then panic "activate: Subject must not be empty"
    else
      return (run.setStep step.id { run.step step.id with status := .running },
        .approval cfg.timeout)

/-- The step is completed by its dispatch. -/
def planRespondStep : M (WorkflowRun × Effect) := do
  match parseConfig .respond step with
  | none => throw (.other "enqueueRespondStep")
  | some cfg =>
    if cfg.status < 0 then
      panic "RespondConfig.Defaulted: Status must not be negative"
    else do
      let body ← ofFault (resolveRespondBody cfg step run)
      let state := { run.step step.id with status := .completed, output := body }
      return (run.setStep step.id state, .respond body)

def planWaitForEventStep : M (WorkflowRun × Effect) := do
  let effect ← waitForEventSend run step
  return (run.setStep step.id { run.step step.id with status := .running }, effect)

namespace Orchestrator

variable (o : Orchestrator) (next : Next)

/-- `sleepHandler.failFinal`: the run fails, and planning ends. -/
def failSleep {α : Type} (run : WorkflowRun) (step : StepDef) (reason : String) : M α := do
  let state := { run.step step.id with status := .failed, error := reason }
  o.failWorkflow next (run.setStep step.id state) step state
  throw .runFinalized

/-- `sleepHandler.plan`. -/
def planSleep (run : WorkflowRun) (step : StepDef) : M (WorkflowRun × Effect) := do
  match parseSleepConfig step with
  | none => o.failSleep next run step "sleep config"
  | some cfg => do
    let t ← now
    match o.resolveSleepDuration cfg run.input t with
    | none => o.failSleep next run step "sleep duration"
    | some sleepFor =>
      let state := { run.step step.id with
        status := .running, wakeAt := some (t + sleepFor) }
      return (run.setStep step.id state, .sleep (max (milliseconds sleepFor) 1))

/-- `none` for the types that are published as tasks. -/
def planStep (d : WorkflowDef) (run : WorkflowRun) (step : StepDef) :
    M (WorkflowRun × Option Effect) := do
  match step.type with
  | .subWorkflow => return (← planSubWorkflow run step).map id some
  | .map => return (← planMapStep d run step).map id some
  | .sleep => return (← o.planSleep next run step).map id some
  | .waitForEvent => return (← planWaitForEventStep run step).map id some
  | .approval => return (← planApproval run step).map id some
  | .respond => return (← planRespondStep run step).map id some
  | .normal | .agentLoop | .agent | .planner => return (run, none)

def planNext (d : WorkflowDef) (acc : WorkflowRun × DispatchPlan) (step : StepDef) :
    M (WorkflowRun × DispatchPlan) := do
  let (run, effect) ← o.planStep next d acc.1 step
  match effect with
  | none =>
    return (run, { acc.2 with normalSteps := acc.2.normalSteps ++ [step] })
  | some effect =>
    return (run, { acc.2 with
      effects := acc.2.effects ++ [(step.id, effect)]
      continueRun := acc.2.continueRun ||
        (step.type = .subWorkflow && (run.step step.id).status = .completed) })

def planDispatch (d : WorkflowDef) (run : WorkflowRun) (ready : List StepDef) :
    M (WorkflowRun × DispatchPlan) :=
  Prog.fold (o.planNext next d) ready (run, {})

end Orchestrator

def countActiveSteps (run : WorkflowRun) : ℕ :=
  run.steps.keys.countP fun id =>
    (run.step id).status = .queued || (run.step id).status = .running

def markSkipped (run : WorkflowRun) (skipped : List StepDef) : WorkflowRun :=
  skipped.foldl (fun r s => r.setStep s.id { r.step s.id with status := .skipped }) run

/-- What `resolveReadySteps` finds: the skipped steps complete the run, the
run is at its step limit, or there are steps to dispatch. -/
inductive Resolution where
  | complete (run : WorkflowRun)
  | full
  | ready (run : WorkflowRun) (steps : List StepDef)

def limitSteps (d : WorkflowDef) (run : WorkflowRun) (ready : List StepDef) :
    Option (List StepDef) :=
  match d.concurrency with
  | none => some ready
  | some limit =>
    if 0 < limit.maxSteps then
      let available := limit.maxSteps - countActiveSteps run
      if available ≤ 0 then none else some (ready.take available.toNat)
    else some ready

def resolveReadySteps (d : WorkflowDef) (run : WorkflowRun) : Resolution :=
  let queued := queuedSet run
  let skipped := resolveSkipped d (completedSet run) queued run
  let run := markSkipped run skipped
  if !skipped.isEmpty && isComplete d (completedSet run) then .complete run
  else
    let ready := (resolveReady d (completedSet run) queued).filter fun s =>
      (run.step s.id).status ≠ .skipped
    match limitSteps d run ready with
    | none => .full
    | some ready => .ready run ready

def markQueued : M WorkflowRun := do
  let state ← stampDispatch run.runID step.id (.enqueue step.type)
    { run.step step.id with status := .queued }
  return run.setStep step.id
    { state with dispatchUnsent := resendable step.type }

/-- Errors are logged. -/
def publishStepQueuedEvents (run : WorkflowRun) (ready : List StepDef) : M Unit :=
  Prog.fold (fun _ step =>
    if step.type = .normal ∨ step.type = .agentLoop then
      ignoring (publishEvent
        { type := .stepQueued, runID := run.runID, stepID := step.id
          attemptNumber := 1 })
    else return ()) ready ()

namespace Orchestrator

variable (o : Orchestrator)

def runDispatchPlan (next : Next) (d : WorkflowDef) (run : WorkflowRun)
    (plan : DispatchPlan) : M Unit := do
  let (sent, sendErr) ← o.sendPlan run plan
  match ← outcome (markSent run sent) with
  | .error e => throw ((Err.join sendErr (some e)).getD e)
  | .ok run =>
    match sendErr with
    | some e => throw e
    | none =>
      if !plan.continueRun then return ()
      else if isComplete d (completedSet run) then o.completeWorkflow next run
      else next d run

def enqueueReadyWith (next : Next) (d : WorkflowDef) (run : WorkflowRun) : M Unit := do
  match resolveReadySteps d run with
  | .complete run => o.completeWorkflow next run
  | .full => return ()
  | .ready run ready =>
    if ready.isEmpty then return ()
    else do
      let run ← Prog.fold markQueued ready run
      match ← outcome (o.planDispatch next d run ready) with
      | .error .runFinalized => return ()
      | .error e => throw e
      | .ok (run, plan) => do
        let run ← saveSnapshot .enqueue run
        publishStepQueuedEvents run ready
        o.runDispatchPlan next d run plan

/-- `enqueueReady`, nested at most so deep. -/
def enqueueDepth : ℕ → Next
  | 0 => fun _ _ => throw (.other "recursion too deep")
  | depth + 1 => o.enqueueReadyWith (enqueueDepth depth)

def enqueueReady (d : WorkflowDef) (run : WorkflowRun) : M Unit :=
  o.enqueueDepth o.callDepth d run

end Orchestrator

def taskStillQueued : M Bool := do
  requireTask step
  request (.taskQueued run.runID step.id (run.step step.id).dispatchNonce)

def planTaskResend (plan : DispatchPlan) : M DispatchPlan := do
  if !resendable step.type then
    panic "planTaskResend: step type is never marked unsent"
  else
    let state := run.step step.id
    let loopIteration := step.type = .agentLoop ∧ 0 < state.iterations
    if state.status ≠ .queued ∧ ¬loopIteration then
      return { plan with alreadySent := plan.alreadySent ++ [step.id] }
    else if ← taskStillQueued run step then
      return { plan with alreadySent := plan.alreadySent ++ [step.id] }
    else if loopIteration then
      return { plan with
        effects := plan.effects ++ [(step.id, .iteration step state)] }
    else return { plan with normalSteps := plan.normalSteps ++ [step] }

/-- `sleepHandler.resume`. -/
def resumeSleep : M Effect := do
  match (run.step step.id).wakeAt with
  | none => panic "sleepHandler.resume: a planned sleep has a wake time"
  | some wakeAt => do
    let t ← now
    return .sleep (max (milliseconds (wakeAt - t)) 1)

def planResendStep (run : WorkflowRun) (plan : DispatchPlan) (step : StepDef) : M DispatchPlan := do
  if !(run.step step.id).dispatchUnsent then return plan
  else
    match step.type with
    | .sleep => do
      let effect ← resumeSleep run step
      return { plan with effects := plan.effects ++ [(step.id, effect)] }
    | .waitForEvent => do
      let effect ← waitForEventSend run step
      return { plan with effects := plan.effects ++ [(step.id, effect)] }
    | _ => planTaskResend run step plan

def planResend (d : WorkflowDef) (run : WorkflowRun) : M DispatchPlan :=
  if d.steps.isEmpty then panic "planResend: def must have steps"
  else Prog.fold (planResendStep run) d.steps {}

def Orchestrator.resendUnsent (o : Orchestrator) (run : WorkflowRun) : M Unit := do
  if !hasUnsentStep run then return ()
  else do
    let d ← o.loadPinnedOrLatestDef run
    let plan ← planResend (effectiveDef d run) run
    let (sent, sendErr) ← o.sendPlan run plan
    match ← outcome (markSent run sent) with
    | .error e => throw ((Err.join sendErr (some e)).getD e)
    | .ok _ =>
      match sendErr with
      | some e => throw e
      | none => return ()

end Dagnats
