import Dagnats.Engine.Enqueue

/-!
# Permanent failure, on-failure steps and compensation

`recovery_manager.go`: what happens when a step has failed for good, and what
the completion of an on-failure or compensation step means for the run.
-/

namespace Dagnats

open Interaction

def findCompensateSource (d : WorkflowDef) (stepID : String) : Option StepDef :=
  d.steps.find? (·.compensate = stepID)

def hexDigits (width n : ℕ) : String :=
  let digits := Nat.toDigits 16 n
  String.ofList (List.replicate (width - digits.length) '0' ++ digits)

/-- `strconv.Quote`, the verb `%q`. JSON has no escapes `\\a`, `\\v`, `\\x` and `\\U`. -/
def quote (isPrint : Char → Bool) (s : String) : String :=
  "\"" ++ String.join (s.toList.map escape) ++ "\""
where
  escape (c : Char) : String :=
    if c.toNat = 34 ∨ c.toNat = 92 then "\\" ++ c.toString
    else if isPrint c then c.toString
    else match c.toNat with
      | 7 => "\\a"
      | 8 => "\\b"
      | 9 => "\\t"
      | 10 => "\\n"
      | 11 => "\\v"
      | 12 => "\\f"
      | 13 => "\\r"
      | n =>
        if n < 32 ∨ n = 127 then "\\x" ++ hexDigits 2 n
        else if n < 65536 then "\\u" ++ hexDigits 4 n
        else "\\U" ++ hexDigits 8 n

example : quote (fun c => 32 ≤ c.toNat) "a\x1b\n" = "\"a\\x1b\\n\"" := by decide +kernel

section

variable (x : Externals)

def Externals.raw (text : String) : Raw :=
  (x.readJSON text).elim (.text text) .doc

/-- The input of an on-failure step. The id of the failed step stands in it unquoted. -/
def failureInput (stepID error : String) : Raw :=
  x.raw ("\x7b\"failed_step\":\"" ++ stepID ++ "\",\"error\":" ++ quote x.isPrint error ++ "\x7d")

/-- `buildCompensateInput`. Its text is a document exactly if each of its values is. -/
def compensateInput (originalID : String) (output : Raw)
    (failedStepID failedError : String) : Raw :=
  let fields := do
    let original ← x.readJSON (quote x.isPrint originalID)
    let value ← output.marshal
    let step ← x.readJSON (quote x.isPrint failedStepID)
    let error ← x.readJSON (quote x.isPrint failedError)
    return [("original_step", original), ("original_output", value), ("trigger_step", step),
      ("trigger_error", error)]
  let text := "\x7b\"original_step\":" ++ quote x.isPrint originalID ++ ",\"original_output\":" ++
    (if output.isEmpty then "null" else output.toText) ++ ",\"trigger_step\":" ++
    quote x.isPrint failedStepID ++ ",\"trigger_error\":" ++ quote x.isPrint failedError ++ "\x7d"
  fields.elim (.text text) fun fs => .doc (.obj fs)

end

/-- Put a step back in the queue under a new nonce. -/
def requeue (run : WorkflowRun) (stepID : String) : M WorkflowRun := do
  let state ← stampDispatch run.runID stepID .requeue
    { run.step stepID with status := .queued }
  return run.setStep stepID state

namespace Orchestrator

variable (o : Orchestrator) (next : Next)

def releaseTaskSlot (d : WorkflowDef) (runID stepID : String) : M Unit :=
  if !o.hasConcurrency then return ()
  else
    match findStepDef d stepID with
    | none => return ()
    | some step =>
      if step.maxTaskConcurrency ≤ 0 then return ()
      else ignoring (request (.notify (.releaseTask step.task runID stepID)))

variable (d : WorkflowDef) (run : WorkflowRun)

/-- False where the target is no step of the definition. -/
def tryOnFailure (step : StepDef) (stepID error : String) : M Bool := do
  match findStepDef d step.onFailure with
  | none => return false
  | some target => do
    let run ← requeue run target.id
    let nonce := (run.step target.id).dispatchNonce
    let run ← saveSnapshot .onFailure run
    o.publish run.runID target (failureInput o.toExternals stepID error) run run.workflowID nonce
    return true

def runOnFailure (step : StepDef) (stepID error : String) : M Bool :=
  if step.onFailure ≠ "" then o.tryOnFailure d run step stepID error
  else return false

/-- The whole chain is queued, its first step sent. -/
def startCompensation (failedStepID failedError : String) : M Unit := do
  match resolveCompensateChain d (completedSet run) with
  | [] => return ()
  | first :: rest => do
    let run ← Prog.fold (fun run (step : StepDef) => requeue run step.id) (first :: rest) run
    let run ← saveSnapshot .compensateStart run
    let originalID := ((findCompensateSource d first.id).map (·.id)).getD ""
    o.publish run.runID first (compensateInput o.toExternals originalID (run.step originalID).output failedStepID
        failedError) run run.workflowID (run.step first.id).dispatchNonce

def failAuxStep (run : WorkflowRun) (step : StepDef) (state : StepState) : M Unit := do
  if step.id = "" then panic "failAuxStep: stepDef.ID must not be empty"
  else do
    let run ← finalizeRun run .compensateFailed (o.releaseAdmission next run)
    publishDeadLetter run step state.error
    notifyParentIfChild run (some ("compensation failed: " ++ state.error))

def handlePermanentFailure (step : StepDef) (state : StepState) (stepID : String) : M Unit := do
  o.releaseTaskSlot d run.runID stepID
  if d.isAux stepID then o.failAuxStep next run step state
  else do
    let handled ← o.runOnFailure d run step stepID state.error
    if handled then return ()
    else if !(resolveCompensateChain d (completedSet run)).isEmpty then
      o.startCompensation d run stepID state.error
    else o.failWorkflow next run step state

def firstFailed : String × String :=
  match d.steps.find? fun s => (run.step s.id).status = .failed with
  | some s => (s.id, (run.step s.id).error)
  | none => ("", "")

def saveCompensateNext (run : WorkflowRun) : M WorkflowRun := do
  match ← outcome (saveSnapshot .compensateNext run) with
  | .ok saved => return saved
  | .error _ => return run

/-- True where the completed step belongs to a compensation. Errors of the save, of the
send and of the finalization are dropped. -/
def handleCompensateCompleted (stepID : String) : M Bool := do
  if !d.isAux stepID || (findCompensateSource d stepID).isNone then return false
  else
    match d.steps.find? fun s =>
        s.compensate ≠ "" && (run.step s.compensate).status = .queued with
    | some source => do
      let target := (findStepDef d source.compensate).getD { id := "" }
      let failed := firstFailed d run
      let input := compensateInput o.toExternals source.id (run.step source.id).output failed.1 failed.2
      let run ← requeue run source.compensate
      let nonce := (run.step source.compensate).dispatchNonce
      let run ← saveCompensateNext run
      if target.id = "" then
        panic "TaskPublisher.Publish: step.ID must not be empty"
      else do
        ignoring (o.publish run.runID target input run run.workflowID nonce)
        return true
    | none => do
      ignoring (finalizeRun run .compensated (o.releaseAdmission next run))
      return true

end Orchestrator

/-- The direct dependents of a recovered step that are still pending. -/
def skipDependents (d : WorkflowDef) (run : WorkflowRun) (stepID : String) : WorkflowRun :=
  (d.steps.filter fun s => s.dependsOn.contains stepID).foldl (fun r s =>
      if (r.step s.id).status = .pending then
        r.setStep s.id { r.step s.id with status := .skipped }
      else r) run

def recoverIfOnFailure (d : WorkflowDef) (run : WorkflowRun)
    (completedStepID : String) : WorkflowRun :=
  match d.steps.find? fun s =>
      s.onFailure = completedStepID && (run.step s.id).status = .failed with
  | none => run
  | some s =>
    skipDependents d (run.setStep s.id { run.step s.id with status := .recovered }) s.id

end Dagnats
