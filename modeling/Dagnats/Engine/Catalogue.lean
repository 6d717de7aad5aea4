import Dagnats.Engine.Lineage
import Dagnats.Engine.Resolution
import Dagnats.Engine.SoloDispatch

/-!
# The catalogue of writes

`Lifecycle` says what a write may do to each single step. This module lists the
writes one by one as the source makes them: for every place that saves a run
over a stored one, what the handler's copy was and which run it hands to the
save.

`Noted` holds the writes that no definition governs, `Resolved` those of
`enqueueReady`, and `Handled` those of the handlers of an event. That the engine
makes no other writes is proved in `Engine.Cataloguing`.
-/

namespace Dagnats

/-- The copy of a handler that acts on the report `e`. -/
def WorkflowRun.acting (run : WorkflowRun) (e : Event) (fenced : Bool) : WorkflowRun :=
  { run with recording := some ⟨e, fenced⟩ }

/-- The step of that identifier, or the zero step of the source. -/
def WorkflowDef.stepDef (d : WorkflowDef) (id : String) : StepDef :=
  (findStepDef d id).getD { id := "" }

def advancedCopy (d : WorkflowDef) (run : WorkflowRun) : WorkflowRun :=
  if isComplete d (completedSet (resolveSkips d run)) then
    { resolveSkips d run with status := .completed }
  else resolveSkips d run

/-- The copy in which the failure that `e` reports is permanent. -/
def failedCopy (run : WorkflowRun) (e : Event) : WorkflowRun :=
  (run.acting e true).setStep e.stepID { failing (run.step e.stepID) e with status := .failed }

/-- Step `id` is put in the queue under nonce `n`. -/
def WorkflowRun.requeued (run : WorkflowRun) (id : String) (n : ℕ) (t : Time) : WorkflowRun :=
  run.setStep id (({ run.step id with status := .queued }).stamped n t)

/-- Steps are put in the queue one after the other. -/
inductive Requeued : List String → WorkflowRun → WorkflowRun → Prop where
  | nil (run : WorkflowRun) : Requeued [] run run
  | cons {id : String} {ids : List String} {run run' : WorkflowRun} (n : ℕ)
      (t : Time) : Requeued ids (run.requeued id n t) run' →
      Requeued (id :: ids) run run'

section Entries

variable (o : Orchestrator) (d : WorkflowDef) (run : WorkflowRun)

/-- The copy in which the step of `e` has just been completed, by a report that
passed the fence or by one that the fence does not look at. -/
inductive CompletedBy (e : Event) : WorkflowRun → Prop where
  | fenced : Accepts o run e → e.type = .stepCompleted →
      CompletedBy e ((run.acting e true).setStep e.stepID
        { adopted (run.step e.stepID) e with
          status := .completed, output := e.payload })
  | unfenced : run.status.isTerminal = false → Does.isCompletion e.type = true →
      isMapInstanceID e.stepID = false →
      fencedEventType e.type = false ∨ (findStepDef d e.stepID).map (·.type) = some .respond →
      CompletedBy e ((run.acting e false).setStep e.stepID
        { run.step e.stepID with status := .completed, output := e.payload })

/-- The copy that `handlePermanentFailure` receives for the failure `e`. -/
inductive FailedBy (e : Event) : WorkflowRun → Prop where
  | exhausted : Accepts o run e → e.type = .stepFailed →
      (parseFailPayload e.payload).failureType ≠ .nonRetriable →
      FailedBy e (failedCopy run e)
  | refused : Accepts o run e → e.type = .stepFailed →
      (parseFailPayload e.payload).failureType = .nonRetriable →
      FailedBy e (resolveSkips d (failedCopy run e))

/-- The copy in which the map step `id` has taken note of the report `e` of one
of its instances, and has status `status`. -/
inductive Instance (e : Event) (id : String) (status : StepStatus) :
    WorkflowRun → Prop where
  | intro (instances : List MapInstanceState) (output : Raw) (error : String) (index : ℤ) :
      run.status.isTerminal = false → isMapInstanceID e.stepID = true →
      parseMapInstanceID e.stepID = .ok (id, index) →
      Instance e id status ((run.acting e false).setStep id
        { run.step id with
          mapInstances := instances, status := status, output := output
          error := error })

/-- A step is completed and nothing else has been decided yet; the run is saved
at this site unless it is complete. -/
inductive Concludes : Site → WorkflowRun → Prop where
  | reported (e : Event) (run' : WorkflowRun) : CompletedBy o d run e run' →
      isCompensation d e.stepID = false →
      Concludes .stepCompleted (recoverIfOnFailure d (advancedCopy d run') e.stepID)
  | planned (e : Event) (run' : WorkflowRun) : CompletedBy o d run e run' →
      Concludes .plannerEmpty run'
  | mapped (e : Event) (id : String) (run' : WorkflowRun) :
      Does.isCompletion e.type = true → Instance run e id .completed run' →
      Concludes .mapCompleted run'
  | awaited (site : Site) (id : String) (output : Raw) :
      site = .waitTimeout ∨ site = .approvalGranted ∨ site = .childCompleted →
      (run.step id).status = .running →
      Concludes site (run.setStep id { run.step id with status := .completed, output := output })

/-- A complete run is closed: it is completed, or its output is refused. -/
inductive Closes : WorkflowRun → Prop where
  | completed (t : Time) : Closes (markTerminal run .completed t)
  | violated (id error : String) (t : Time) : (run.step id).status = .completed →
      Closes (markTerminal (run.setStep id { run.step id with status := .failed, error := error })
        .failed t)

/-- The ready steps have been marked and some of them planned. -/
structure Dispatches (ready : List StepDef) (run' : WorkflowRun) : Prop where
  resolution : resolveReadySteps d run = .ready (resolveSkips d run) ready
  only : OnlySteps (ready.map (·.id)) (resolveSkips d run) run'
  recording : run'.recording = run.recording
  status : ∀ s ∈ ready, (run'.step s.id).atWork = true ∨ (run'.step s.id).status = .completed

def keepsBooks : Site → Bool
  | .markSent | .settleInputs | .releaseDebt | .releaseDone | .releaseRetry
  | .inputQueued => true
  | _ => false

inductive Noted : Site → WorkflowRun → Prop where
  | kept (site : Site) (run' : WorkflowRun) : keepsBooks site = true →
      Alike run run' → run'.recording = none → Noted site run'
  | woken (id : String) (b : Bool) : Noted .wake (run.setStep id
        { run.step id with
          waitUntil := none, waitInput := false
          hasInputs := (run.step id).hasInputs || b, dispatchUnsent := true })
  | advanced (deadline : Option Time) :
      Noted .queueAdvance { run with status := .running, deadline := deadline }
  | queued (e : Event) : e.type = .stepQueued → (run.step e.stepID).status ≠ .completed →
      (run.step e.stepID).status ≠ .failed →
      (run.step e.stepID).status ≠ .running → run.status.isTerminal = false →
      Noted .stepQueued (run.setStep e.stepID
        { run.step e.stepID with
          status := .queued
          attempts := max (run.step e.stepID).attempts e.attemptNumber })
  | started (e : Event) (t : Time) : e.type = .stepStarted →
      (run.step e.stepID).status ≠ .completed →
      (run.step e.stepID).status ≠ .failed → run.status.isTerminal = false →
      Noted .stepStarted (run.setStep e.stepID (startedState (run.step e.stepID) e t).1)
  | cancelled (t : Time) : run.status = .running →
      Noted .finalize (markTerminal (Orchestrator.cancelUnfinishedSteps run) .cancelled t)

inductive Resolved : Site → WorkflowRun → Prop where
  | enqueued (ready : List StepDef) (run' : WorkflowRun) :
      Dispatches d run ready run' → Resolved .enqueue run'
  | skipped (new : WorkflowRun) : resolveReadySteps d run = .complete (resolveSkips d run) →
      Closes (resolveSkips d run) new → Resolved .finalize new
  | closed (new : WorkflowRun) : isComplete d (completedSet run) = true →
      Closes run new → Resolved .finalize new
  | unslept (ready : List StepDef) (run' : WorkflowRun) (step : StepDef)
      (error : String) (t : Time) : Dispatches d run ready run' → step ∈ ready →
      Resolved .finalize (markTerminal (run'.setStep step.id
          { run'.step step.id with status := .failed, error := error }) .failed t)

inductive Handled : Site → WorkflowRun → Prop where
  /-- The next iteration of a loop. -/
  | continued (e : Event) (s : StepState) : Accepts o run e →
      e.type = .stepContinue → s.status = (run.step e.stepID).status →
      Handled .stepContinue ((run.acting e true).setStep e.stepID s)
  /-- The loop may not go on. -/
  | exhausted (e : Event) (s : StepState) (t : Time) : Accepts o run e →
      e.type = .stepContinue → s.status = .failed →
      Handled .finalize (markTerminal ((run.acting e true).setStep e.stepID s) .failed t)
  | retried (e : Event) (s : StepState) : Accepts o run e →
      e.type = .stepFailed → s.status = (run.step e.stepID).status →
      Handled .stepRetry ((run.acting e true).setStep e.stepID s)
  | concluded (site : Site) (run' : WorkflowRun) : Concludes o d run site run' →
      isComplete d (completedSet run') = false → Handled site run'
  | closed (site : Site) (run' new : WorkflowRun) :
      Concludes o d run site run' → isComplete d (completedSet run') = true →
      Closes run' new → Handled .finalize new
  | instance_ (e : Event) (id : String) (run' : WorkflowRun) : Does.isCompletion e.type = true →
      Instance run e id (run.step id).status run' → Handled .mapInstance run'
  | generated (e : Event) (run' : WorkflowRun) (fragment : List StepDef) :
      CompletedBy o d run e run' → (d.stepDef e.stepID).type = .planner →
      (∀ s ∈ fragment, s.id ∉ d.steps.map (·.id)) →
      Handled .plannerFragment (fragment.foldl (fun r s => r.setStep s.id {})
        { run' with dynamicSteps := run'.dynamicSteps ++ fragment })
  /-- The output of a planner is refused. -/
  | misplanned (e : Event) (run' : WorkflowRun) (error : String) (t : Time) :
      CompletedBy o d run e run' →
      Handled .finalize (markTerminal
        (run'.setStep e.stepID { run'.step e.stepID with status := .failed, error := error })
        .failed t)
  /-- The next step of a compensation is sent. -/
  | compensates (e : Event) (run' : WorkflowRun) (source : StepDef) (n : ℕ)
      (t : Time) : CompletedBy o d run e run' →
      isCompensation d e.stepID = true →
      (d.steps.find? fun s => s.compensate ≠ "" &&
        ((recoverIfOnFailure d (advancedCopy d run') e.stepID).step
          s.compensate).status = .queued) = some source →
      Handled .compensateNext
        ((recoverIfOnFailure d (advancedCopy d run') e.stepID).requeued source.compensate n t)
  | compensated (e : Event) (run' : WorkflowRun) (t : Time) :
      CompletedBy o d run e run' → isCompensation d e.stepID = true →
      (d.steps.find? fun s => s.compensate ≠ "" &&
        ((recoverIfOnFailure d (advancedCopy d run') e.stepID).step
          s.compensate).status = .queued) = none →
      Handled .finalize (markTerminal
        (recoverIfOnFailure d (advancedCopy d run') e.stepID) .compensated t)
  /-- The on-failure step is sent. -/
  | routed (e : Event) (run' : WorkflowRun) (target : StepDef) (n : ℕ)
      (t : Time) : FailedBy o d run e run' → d.isAux e.stepID = false →
      (d.stepDef e.stepID).onFailure ≠ "" →
      findStepDef d (d.stepDef e.stepID).onFailure = some target →
      Handled .onFailure (run'.requeued target.id n t)
  /-- The whole compensation chain is queued. -/
  | compensating (e : Event) (run' run'' : WorkflowRun) :
      FailedBy o d run e run' → d.isAux e.stepID = false →
      (d.stepDef e.stepID).onFailure = "" ∨ findStepDef d (d.stepDef e.stepID).onFailure = none →
      resolveCompensateChain d (completedSet run') ≠ [] →
      Requeued ((resolveCompensateChain d (completedSet run')).map (·.id)) run' run'' →
      Handled .compensateStart run''
  | failed (e : Event) (run' : WorkflowRun) (t : Time) :
      FailedBy o d run e run' → d.isAux e.stepID = false →
      (d.stepDef e.stepID).onFailure = "" ∨ findStepDef d (d.stepDef e.stepID).onFailure = none →
      resolveCompensateChain d (completedSet run') = [] →
      Handled .finalize (markTerminal run' .failed t)
  | auxFailed (e : Event) (run' : WorkflowRun) (t : Time) :
      FailedBy o d run e run' → d.isAux e.stepID = true →
      Handled .finalize (markTerminal run' .compensateFailed t)
  | mapRouted (e : Event) (id : String) (run' : WorkflowRun) (target : StepDef)
      (n : ℕ) (t : Time) : e.type = .stepFailed →
      Instance run e id .failed run' → (d.stepDef id).onFailure ≠ "" →
      findStepDef d (d.stepDef id).onFailure = some target →
      Handled .mapOnFailure (run'.requeued target.id n t)
  | mapFailed (e : Event) (id : String) (run' : WorkflowRun) (t : Time) :
      e.type = .stepFailed → Instance run e id .failed run' →
      (d.stepDef id).onFailure = "" →
      Handled .finalize (markTerminal run' .failed t)
  /-- An approval or a child has failed. -/
  | rejected (id error : String) (t : Time) : (run.step id).status = .running →
      Handled .finalize (markTerminal
        (run.setStep id { run.step id with status := .failed, error := error })
        .failed t)
  | wedged (t : Time) : run.status = .running → Handled .finalize (markTerminal run .failed t)

end Entries

variable (o : Orchestrator) (w : World)

/-- `d` is made of the definition `d0` and of the generated steps of a copy; in
the definition that `applyFragment` puts together some stand twice. -/
structure Drawn (d0 : WorkflowDef) (run : WorkflowRun) (d : WorkflowDef) : Prop where
  steps : ∀ s, s ∈ d.steps ↔ s ∈ d0.steps ∨ s ∈ run.dynamicSteps
  concurrency : d.concurrency = d0.concurrency
  aux : ∀ id, d.isAux id = (effectiveDef d0 run).isAux id

/-- A definition that `enqueueReady` is called with for a run: drawn from a
stored copy of it, perhaps an older one, or the one that a spawned child is
healed with. -/
inductive Treats (runID : String) (d : WorkflowDef) : Prop where
  | drawn (rev : ℕ) (stored : WorkflowRun) (d0 : WorkflowDef) :
      Wrote w.log rev stored → stored.runID = runID → PinnedTo o stored d0 →
      Drawn d0 stored d → Treats runID d
  | healed (e : Event) (p : Orchestrator.SpawnPayload) :
      .event e ∈ w.log → e.type = .workflowSpawn →
      Orchestrator.decodeSpawn e.payload = some p → p.childRunID = runID →
      .definition (.latest p.childWorkflow) d ∈ w.log → Valid o d →
      Treats runID d

/-- The run that is handed to the save at `site` by a handler with this copy. -/
inductive Authored (run : WorkflowRun) (site : Site) (new : WorkflowRun) : Prop where
  | noted : Noted run site new → Authored run site new
  | resolved (d : WorkflowDef) : Treats o w run.runID d → Resolved d run site new →
      Authored run site new
  | handled (d : WorkflowDef) : EffectiveFor o run d →
      Handled o d run site new → Authored run site new

/-- The write of `new` over `base` is in the catalogue. -/
def Exact (site : Site) (base new : WorkflowRun) : Prop :=
  ∃ run edited, Alike base run ∧ run.recording = none ∧ Authored o w run site edited ∧
    Alike edited new ∧ new.recording = edited.recording

end Dagnats
