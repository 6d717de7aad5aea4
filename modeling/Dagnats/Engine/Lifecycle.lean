import Mathlib.Logic.Relation
import Dagnats.Engine.Holdings

/-!
# The life of a step

The abstract model of the engine: what may happen to the entry of a step while
a handler holds a copy of the run, which copies may be written back, and which
messages may be sent. It knows no handler and no order of calls, only the log,
the stored run a copy was read from, and the copy.

`StepChange` lists the changes of one entry, `StepAnswer` and `StepReport` those
that record a reported result; `Changes` chains them, and `EntryOk` says when an
entry may be appended. That the engine appends nothing else is proved in the
modules that follow.
-/

namespace Dagnats

open Interaction

variable {runID stepID : String} {run : WorkflowRun} {d : WorkflowDef} {s : StepState}
  {test : StepDef → Bool} {type : StepType} {id : String} {run' : WorkflowRun} {step : StepDef}
  {nonce : Option ℕ} {e : Event} {t : TimerMessage}

def Valid (o : Orchestrator) (d : WorkflowDef) : Prop :=
  validate o.toExternals d = .ok ()

instance (o : Orchestrator) (d : WorkflowDef) : Decidable (Valid o d) :=
  inferInstanceAs (Decidable (validate o.toExternals d = .ok ()))

/-- `d0` is the definition the run is pinned to; a run without a pin follows
the latest definition. -/
def PinnedTo (o : Orchestrator) (run : WorkflowRun) (d0 : WorkflowDef) : Prop :=
  Valid o d0 ∧ (o.defHash d0 = run.defHash ∨ run.defHash = "")

/-- The definition that `loadRunAndDef` returns for the run. -/
def EffectiveFor (o : Orchestrator) (run : WorkflowRun) (d : WorkflowDef) : Prop :=
  ∃ d0, PinnedTo o run d0 ∧ d = effectiveDef d0 run

variable (o : Orchestrator) (log : List Entry)

/-- The definition is in play under this name. -/
structure Stored (name : String) (d : WorkflowDef) : Prop where
  valid : Valid o d
  name_eq : d.name = name
  inPlay : InPlay log d

/-- The definition that `loadRunAndDef` returns for the run, and where it is
from. -/
def Sourced (run : WorkflowRun) (d : WorkflowDef) : Prop :=
  ∃ d0, PinnedTo o run d0 ∧ Stored o log run.workflowID d0 ∧ d = effectiveDef d0 run

lemma Sourced.effective {o : Orchestrator} {log : List Entry} (h : Sourced o log run d) :
    EffectiveFor o run d := by
  obtain ⟨d0, hpin, -, hd⟩ := h
  exact ⟨d0, hpin, hd⟩

/-- A definition that `enqueueReady` may be called with for this run: made of the pinned
and the generated steps of a stored copy, or a valid one that a new run is started or a
child is healed with. -/
def DispatchDef (runID : String) (d : WorkflowDef) : Prop :=
  (Valid o d ∧ InPlay log d) ∨ ∃ rev stored d0, Wrote log rev stored ∧ stored.runID = runID ∧
    PinnedTo o stored d0 ∧ InPlay log d0 ∧ ∀ s ∈ d.steps, s ∈ d0.steps ∨ s ∈ stored.dynamicSteps

/-- A step of a definition that the run is dispatched under, also as one of its
map instances, which hold fewer capabilities, or as a link of the compensation
chain. -/
def StepOf (runID : String) (step : StepDef) : Prop :=
  ∃ d s id dependsOn caps, DispatchDef o log runID d ∧ s ∈ d.steps ∧
    step = { s with id := id, dependsOn := dependsOn, requiredCapabilities := caps }

def Coherent (d : WorkflowDef) : Prop :=
  ∀ s ∈ d.steps, ∀ s' ∈ d.steps, s.id = s'.id → s.type = s'.type

/-- The step counts against `MaxSteps`. -/
def StepState.atWork (s : StepState) : Bool :=
  s.status = .queued || s.status = .running

section

variable (log : List Entry)

/-- The copy is the run as it was stored at `rev`. -/
def Received (rev : ℕ) (run : WorkflowRun) : Prop :=
  ∃ base, Wrote log rev base ∧ run = World.received rev base

def MintedFor (runID stepID : String) (origin : Origin) (s : StepState) (n : ℕ) : Prop :=
  At log n (.minted
    { runID := runID, stepID := stepID, origin := origin
      attempts := s.attempts, iterations := s.iterations })

def MintedNonce (runID stepID : String) (nonce : Option ℕ) : Prop :=
  ∃ n m, nonce = some n ∧ At log n (.minted m) ∧ m.runID = runID ∧ m.stepID = stepID

/-- The step was stamped after revision `rev` was written. -/
def Renewed (rev : ℕ) (s : StepState) : Prop :=
  ∃ n, s.dispatchNonce = some n ∧ rev < n

def EnqueuedAs (s : StepState) (type : StepType) : Prop :=
  ∃ n m, s.dispatchNonce = some n ∧ At log n (.minted m) ∧ m.origin = .enqueue type

end

/-- The step was dispatched as a step of this type, provided that the
definition it was taken from has one type per identifier. -/
def DispatchedAs (runID id : String) (s : StepState) (type : StepType) : Prop :=
  ∃ d, DispatchDef o log runID d ∧ (∃ step ∈ d.steps, step.id = id ∧ step.type = type) ∧
    (Coherent d → EnqueuedAs log s type)

def SentFor (log : List Entry) (runID stepID : String) (nonce : Option ℕ) : Prop :=
  (∃ t, .task t ∈ log ∧ t.runID = runID ∧ t.stepID = stepID ∧ t.dispatchNonce = nonce) ∨
  (∃ t publishedAt, .timer t nonce publishedAt ∈ log ∧ t.runID = runID ∧ t.stepID = stepID) ∨
  (∃ wt, .waiter wt nonce ∈ log ∧ wt.runID = runID ∧ wt.stepID = stepID)

/-- What `planTaskResend` and an iteration that waits for input take for a
send: a step of this type that is no longer queued, or a wait without a
timer. -/
def TakenForSent (type : StepType) (s : StepState) : Prop :=
  ((type = .normal ∨ type = .agentLoop) ∧ s.status ≠ .queued ∧
    ¬(type = .agentLoop ∧ 0 < s.iterations)) ∨
  (type = .agentLoop ∧ 0 < s.iterations ∧ s.waitUntil = none ∧ s.waitInput = true)

/-- Why `markSent` may clear the mark of a step of `run` under `nonce`. -/
inductive Delivered (runID stepID : String) (nonce : Option ℕ) : Prop where
  | sent : SentFor log runID stepID nonce → Delivered runID stepID nonce
  /-- The task was sent under a nonce of its own. -/
  | unstamped : nonce = none → Delivered runID stepID nonce
  /-- The dispatch has an effect that is never repeated. -/
  | unmarked (s : StepState) (type : StepType) : s.dispatchNonce = nonce → resendable type = false →
      DispatchedAs o log runID stepID s type → Delivered runID stepID nonce
  /-- A stored run with the mark was taken for sent. -/
  | taken (rev : ℕ) (stored : WorkflowRun) (d : WorkflowDef) (step : StepDef) :
      Wrote log rev stored → stored.runID = runID → EffectiveFor o stored d →
      step ∈ d.steps → step.id = stepID →
      (stored.step stepID).dispatchNonce = nonce →
      (stored.step stepID).dispatchUnsent = true →
      TakenForSent step.type (stored.step stepID) →
      Delivered runID stepID nonce
  /-- An iteration that has just been planned waits for input alone. -/
  | waits (n : ℕ) (m : Mint) : nonce = some n → At log n (.minted m) → m.origin = .iteration →
      Delivered runID stepID nonce

/-- The message went out after `since`, or was refused. -/
def Tried (log since : List Entry) (n : Notice) : Prop :=
  ∃ older, since <:+ older ∧ ((.notice n :: older) <:+ log ∨ (.refused n :: older) <:+ log)

/-- Where the definition limits the tasks of the step, its slot was given back
after `since`. -/
def SlotReturned (o : Orchestrator) (log since : List Entry) (d : WorkflowDef)
    (runID stepID : String) : Prop :=
  ∀ step, o.hasConcurrency = true → findStepDef d stepID = some step →
    0 < step.maxTaskConcurrency → Tried log since (.releaseTask step.task runID stepID)

def GivesBack (rev : ℕ) (run : WorkflowRun) (e : Event) (d : WorkflowDef) : Prop :=
  Sourced o log run d ∧ ∃ since, .event e ∈ since ∧ rev < since.length ∧
    SlotReturned o log since d run.runID e.stepID

/-- The slots of all steps at work were given back, by their task types or, where
the definition is gone, whatever the task type. -/
def Vacates (rev : ℕ) (run : WorkflowRun) : Prop :=
  ∃ since, rev < since.length ∧ ((∃ d, Sourced o log run d ∧ ∀ id, (run.step id).atWork = true →
        SlotReturned o log since d run.runID id) ∨
      ∀ id, (run.step id).atWork = true → Tried log since (.releaseTask "" run.runID id))

/-- Why a completed step fails after all: its output is refused by the planner it
came from, or by the schema of the workflow. -/
def OutputRefused (run : WorkflowRun) (id : String) : Prop :=
  (∃ r, run.recording = some r ∧ r.event.stepID = id) ∨
    ∃ d, Stored o log run.workflowID d ∧ validateRunOutput o.schemaAccepts d run = some id

/-! ## Changes of one step -/

section Changes

variable (rev : ℕ)

/-- The entry of step `id`, as a handler that holds `run` may replace it. -/
inductive StepChange (run : WorkflowRun) (id : String) : StepState → Prop where
  | inputs (b : Bool) : StepChange run id { run.step id with hasInputs := b }
  | skip : (run.step id).status = .pending ∨ (run.step id).status = .cancelled →
      StepChange run id { run.step id with status := .skipped }
  | dispatch (type : StepType) (n : ℕ) (t : Time) :
      (run.step id).status = .pending ∨ (run.step id).status = .cancelled ∨
        Renewed rev (run.step id) →
      rev < n →
      MintedFor log run.runID id (.enqueue type) (run.step id) n →
      StepChange run id
        { ({ run.step id with status := .queued }).stamped n t with
          dispatchUnsent := resendable type }
  | planRunning (type : StepType) (wakeAt : Option Time) (childRunID : String)
      (instances : List MapInstanceState) :
      Renewed rev (run.step id) → DispatchedAs o log run.runID id (run.step id) type →
      type ≠ .normal → type ≠ .agentLoop →
      StepChange run id
        { run.step id with
          status := .running, wakeAt := wakeAt, childRunID := childRunID
          mapInstances := instances }
  | planCompleted (type : StepType) (output : Raw) (childRunID : String) :
      Renewed rev (run.step id) → DispatchedAs o log run.runID id (run.step id) type →
      type = .subWorkflow ∨ type = .respond →
      StepChange run id
        { run.step id with
          status := .completed, output := output, childRunID := childRunID }
  | planFailed (error : String) : Renewed rev (run.step id) →
      DispatchedAs o log run.runID id (run.step id) .sleep →
      StepChange run id { run.step id with status := .failed, error := error }
  | completeRunning (output : Raw) : Received log rev run → (run.step id).status = .running →
      StepChange run id { run.step id with status := .completed, output := output }
  | failRunning (error : String) : Received log rev run → (run.step id).status = .running →
      StepChange run id { run.step id with status := .failed, error := error }
  | failCompleted (error : String) :
      OutputRefused o log run id → (run.step id).status = .completed →
      StepChange run id { run.step id with status := .failed, error := error }
  | started (e : Event) (t : Time) :
      Received log rev run → .event e ∈ log → e.type = .stepStarted → e.runID = run.runID →
      e.stepID = id → (run.step id).status ≠ .completed →
      (run.step id).status ≠ .failed → run.status.isTerminal = false →
      startedForOtherDispatch (run.step id) e = false →
      StepChange run id (startedState (run.step id) e t).1
  | queued (e : Event) :
      Received log rev run → .event e ∈ log → e.type = .stepQueued → e.runID = run.runID →
      e.stepID = id → (run.step id).status ≠ .completed →
      (run.step id).status ≠ .failed → (run.step id).status ≠ .running →
      run.status.isTerminal = false →
      StepChange run id
        { run.step id with
          status := .queued
          attempts := max (run.step id).attempts e.attemptNumber }
  | sent : (run.step id).dispatchUnsent = true →
      Delivered o log run.runID id (run.step id).dispatchNonce →
      StepChange run id { run.step id with dispatchUnsent := false }
  | recover : (run.step id).status = .failed →
      StepChange run id { run.step id with status := .recovered }
  | requeue (n : ℕ) (t : Time) : rev < n → MintedFor log run.runID id .requeue (run.step id) n →
      StepChange run id (({ run.step id with status := .queued }).stamped n t)
  | wake (b : Bool) :
      Received log rev run → waiting (run.step id) = true → stepFinished (run.step id) = false →
      run.status.isTerminal = false →
      StepChange run id
        { run.step id with
          waitUntil := none, waitInput := false
          hasInputs := (run.step id).hasInputs || b, dispatchUnsent := true }

/-! ## Reported results -/

/-- The fence lets the event through. -/
structure Accepts (run : WorkflowRun) (e : Event) : Prop where
  fenced : fencedEventType e.type = true
  accepted : acceptStepEvent (run.step e.stepID) e o.legacyStepEvents = none
  alive : e.type ≠ .stepContinue → run.status.isTerminal = false
  plain : e.type ≠ .stepContinue → isMapInstanceID e.stepID = false

/-- The state of the step that the handler of an accepted event sees. -/
def adopted (s : StepState) (e : Event) : StepState :=
  if s.status = .queued ∧ 0 < e.attemptNumber ∧ s.attempts < e.attemptNumber then
    { s with attempts := e.attemptNumber }
  else s

/-- The state of the step that the handler of an accepted failure sees. -/
def failing (s : StepState) (e : Event) : StepState :=
  { adopted s e with
    attempts := max (adopted s e).attempts 1
    error := (parseFailPayload e.payload).error }

/-- May the step be retried once more? -/
def retriesLeft (d : WorkflowDef) (stepID : String) (attempts : ℕ) : Bool :=
  ((resolveRetryPolicy d ((findStepDef d stepID).getD { id := "" })).filter
    fun p => (attempts : ℤ) ≤ p.maxAttempts).isSome

/-- The next iteration of an agent loop, opened by the accepted `e`. -/
inductive Continues (run : WorkflowRun) (e : Event) : StepState → Prop where
  | next (s : StepState) (n : ℕ) (t : Time) (loopStartedAt waitUntil : Option Time)
      (waitInput hasInputs : Bool) (carried : Option Raw) :
      s = adopted (run.step e.stepID) e → e.type = .stepContinue → rev < n →
      MintedFor log run.runID e.stepID .iteration { s with iterations := s.iterations + 1 } n →
      continueState e = .pure carried →
      Continues run e
        { ({ s with
              iterations := s.iterations + 1
              loopStartedAt := loopStartedAt }).stamped n t with
          dispatchUnsent := true, loopState := carried.getD s.loopState
          waitUntil := waitUntil, waitInput := waitInput
          hasInputs := hasInputs }

/-- The entry of step `id` after the event `e` that an accepted report
carries. -/
inductive StepAnswer (run : WorkflowRun) (e : Event) : StepState → Prop where
  | complete (d : WorkflowDef) : e.type = .stepCompleted → GivesBack o log rev run e d →
      StepAnswer run e
        { adopted (run.step e.stepID) e with
          status := .completed, output := e.payload }
  | next (s : StepState) : Continues log rev run e s → StepAnswer run e s
  /-- The loop is over its state cap, its last iteration or its duration. -/
  | exhausted (iterations : ℕ) (loopStartedAt : Option Time) (error : String) :
      e.type = .stepContinue →
      (adopted (run.step e.stepID) e).iterations ≤ iterations →
      StepAnswer run e
        { adopted (run.step e.stepID) e with
          iterations := iterations, loopStartedAt := loopStartedAt
          status := .failed, error := error }
  | retry (d : WorkflowDef) (n : ℕ) (t t' : Time) (delayMs : ℤ) :
      e.type = .stepFailed → EffectiveFor o run d →
      (parseFailPayload e.payload).failureType ≠ .nonRetriable →
      retriesLeft d e.stepID (failing (run.step e.stepID) e).attempts = true →
      rev < n →
      MintedFor log run.runID e.stepID .retry (failing (run.step e.stepID) e) n →
      StepAnswer run e (markRetryPending ((failing (run.step e.stepID) e).stamped n t) t' delayMs)
  | fail (d : WorkflowDef) : e.type = .stepFailed → GivesBack o log rev run e d →
      (parseFailPayload e.payload).failureType = .nonRetriable ∨
        retriesLeft d e.stepID (failing (run.step e.stepID) e).attempts = false →
      StepAnswer run e { failing (run.step e.stepID) e with status := .failed }

/-- The entry of step `id` after an event that the fence does not look at: of a sleep, a
wait, a respond step or a map instance. -/
inductive StepReport (run : WorkflowRun) (e : Event) (id : String) :
    StepState → Prop where
  | complete : e.stepID = id → fencedEventType e.type = false ∨
        (∃ d step, EffectiveFor o run d ∧ findStepDef d id = some step ∧ step.type = .respond) →
      StepReport run e id { run.step id with status := .completed, output := e.payload }
  | instance_ (index : ℤ) : parseMapInstanceID e.stepID = .ok (id, index) → StepReport run e id
        { run.step id with
          mapInstances := (run.step id).mapInstances.modify index.toNat fun i =>
            { i with status := .completed, output := e.payload } }
  | instances (index : ℤ) (output : Raw) : parseMapInstanceID e.stepID = .ok (id, index) →
      StepReport run e id
        { run.step id with
          mapInstances := (run.step id).mapInstances.modify index.toNat fun i =>
            { i with status := .completed, output := e.payload }
          status := .completed, output := output }
  | instanceFailed (index : ℤ) (error : MapInstanceState → String) (reason : String) :
      parseMapInstanceID e.stepID = .ok (id, index) →
      StepReport run e id
        { run.step id with
          mapInstances := (run.step id).mapInstances.modify index.toNat fun i =>
            { i with status := .failed, error := error i }
          status := .failed, error := reason }

/-- One change of the copy of a run that a handler holds. Status, deadline and
release flags are edited only by the writes themselves. -/
inductive RunChange : WorkflowRun → WorkflowRun → Prop where
  | stamp (run : WorkflowRun) (t : Time) : RunChange run (stampTerminalSteps run t)
  | step (run : WorkflowRun) (id : String) (s : StepState) :
      StepChange o log rev run id s → RunChange run (run.setStep id s)
  | answer (run : WorkflowRun) (e : Event) (s : StepState) :
      Received log rev run → .event e ∈ log → e.runID = run.runID →
      Accepts o run e → StepAnswer o log rev run e s →
      RunChange run ({ run with recording := some ⟨e, true⟩ }.setStep e.stepID s)
  | report (run : WorkflowRun) (e : Event) (id : String) (s : StepState) :
      Received log rev run → .event e ∈ log → e.runID = run.runID →
      run.status.isTerminal = false → StepReport o run e id s →
      RunChange run ({ run with recording := some ⟨e, false⟩ }.setStep id s)
  | cancel (run : WorkflowRun) :
      Received log rev run → run.status = .running → Vacates o log rev run →
      RunChange run (Orchestrator.cancelUnfinishedSteps run)
  | fragment (run : WorkflowRun) (d0 : WorkflowDef) (fragment : List StepDef) :
      PinnedTo o run d0 → (fragment.map (·.id)).Nodup →
      (∀ s ∈ fragment, s.type = .normal) →
      (∀ s ∈ fragment, s.id ∉ (effectiveDef d0 run).steps.map (·.id)) →
      RunChange run (fragment.foldl (fun r s => r.setStep s.id {})
        { run with dynamicSteps := run.dynamicSteps ++ fragment })

abbrev Changes : WorkflowRun → WorkflowRun → Prop :=
  Relation.ReflTransGen (RunChange o log rev)

end Changes

/-! ## Admission -/

def SlotGranted (d : WorkflowDef) (runID : String) : Prop :=
  ∀ limit, d.concurrency = some limit → o.hasConcurrency = true → 0 < limit.maxRuns →
    HadSlot log (.run d.name) runID

/-- A slot is taken by one who has none, below the limit that a definition in
play sets. -/
def SlotOk (key : SlotKey) (holder : String) : Prop :=
  holder ∉ World.slotsIn key log ∧
    match key with
    | .run workflowID => ∃ d limit, Stored o log workflowID d ∧ d.concurrency = some limit ∧
        ((World.slotsIn key log).length : ℤ) < limit.maxRuns
    | .task task => ∃ runID step, StepOf o log runID step ∧ step.task = task ∧
        ((World.slotsIn key log).length : ℤ) < step.maxTaskConcurrency

/-- A definition in play whose new runs displace the holder of this lock. -/
def Displaces (key : String) : Prop :=
  ∃ d cfg input, Stored o log d.name d ∧ d.singleton = some cfg ∧
    singletonLockKey o.digest d.name cfg input = .ok key ∧ cfg.mode = .cancel

def LockOk (key : String) (lock : SingletonLock) (at_ : Time) : Prop :=
  World.lockIn key log = none ∨ ∃ rev old created, World.lockIn key log = some (rev, old, created) ∧
      (LetGo log rev old created at_ lock.unsaved ∨ Displaces o log key)

/-- A lock is deleted for the run it names, once that run has ended. -/
def UnlockOk (log : List Entry) (key runID : String) : Prop :=
  (∃ rev lock created, World.lockIn key log = some (rev, lock, created) ∧ lock.runID = runID) ∧
  ∃ run, Ended log run ∧ run.runID = runID ∧ run.singletonKey = key

/-- A slot of a workflow is given back for a run that has ended. -/
def NoticeOk (log : List Entry) : Notice → Prop
  | .releaseRun workflowID runID =>
    ∃ run, Ended log run ∧ run.runID = runID ∧ run.workflowID = workflowID
  | _ => True

/-- A run that is written without looking at what is stored was admitted before,
unless it is a child or is refused. -/
structure Introduced (site : Site) (run : WorkflowRun) : Prop where
  source : site ≠ .finalize → ∃ d, Stored o log run.workflowID d ∧
    run.defHash = o.defHash d ∧ (site ≠ .childInitial → run.status = .running →
      SlotGranted o log d run.runID)
  locked : run.singletonKey ≠ "" → run.runID ≠ "" ∧ HadLock log run.singletonKey run.runID

/-! ## Writes -/

/-- What a write of `run` edits besides the steps. -/
inductive SiteEdit (run : WorkflowRun) : Site → WorkflowRun → Prop where
  | plain (site : Site) : SiteEdit run site run
  | finalize (status : RunStatus) (t : Time) :
      ¬(run.status.isTerminal = true ∧ run.completedAt.isSome = true) →
      status.isTerminal = true →
      SiteEdit run .finalize (markTerminal run status t)
  /-- The status of the run that is moved out of the queue is not looked at. -/
  | queueAdvance (deadline : Option Time) :
      SiteEdit run .queueAdvance { run with status := .running, deadline := deadline }
  /-- The completion of a compensation step stores the status that `Advance`
  has set in memory. -/
  | compensateNext : run.status.isTerminal = false →
      SiteEdit run .compensateNext { run with status := .completed }
  | release (site : Site) (pending : Bool) (attempts : ℕ) :
      SiteEdit run site { run with releasePending := pending, releaseAttempts := attempts }

/-- The run `new` may be written over `base`, which is stored at `rev`. -/
structure WriteOk (site : Site) (rev : ℕ) (base new : WorkflowRun) : Prop where
  changes : ∃ run edited, Changes o log rev (World.received rev base) run ∧
    SiteEdit run site edited ∧ new = World.persisted edited
  /-- The write that opens an iteration does nothing else. -/
  continues : site = .stepContinue → ∃ e s t, Accepts o (World.received rev base) e ∧
    Continues log rev (World.received rev base) e s ∧
    new = World.persisted (stampTerminalSteps
      ({ World.received rev base with recording := some ⟨e, true⟩ }.setStep e.stepID s) t)
  /-- The run that is moved out of the queue has a slot. -/
  advances : site = .queueAdvance → ∃ d, PinnedTo o base d ∧
    Stored o log base.workflowID d ∧ SlotGranted o log d base.runID

/-- The entry of a step that was never dispatched. -/
def Untouched (s : StepState) : Prop :=
  ∃ error completedAt, s = { completedAt := completedAt } ∨
    s = { status := .failed, error := error, completedAt := completedAt }

/-- A run that is written without looking at what is stored. -/
structure CreateOk (o : Orchestrator) (site : Site) (run : WorkflowRun) : Prop where
  place : site = .initial ∨ site = .chainInitial ∨ site = .childInitial ∨ site = .finalize
  steps : ∀ id, Untouched (run.step id)
  status : run.status.isTerminal = true ↔ site = .finalize
  completedAt : run.completedAt.isSome = true ↔ site = .finalize
  pinned : site ≠ .finalize → ∃ d0, PinnedTo o run d0
  dynamicSteps : run.dynamicSteps = []
  recording : run.recording = none

/-! ## Messages -/

/-- The state of a step in a copy that some handler holds or held. -/
def HeldStep (runID id : String) (s : StepState) : Prop :=
  ∃ rev base run, Wrote log rev base ∧ base.runID = runID ∧
    Changes o log rev (World.received rev base) run ∧ s = run.step id

/-- A nonce that no step is ever stamped with. -/
def OffBoard (log : List Entry) (nonce : Option ℕ) : Prop :=
  ∃ n m, nonce = some n ∧ At log n (.minted m) ∧ (m.origin = .unstamped ∨ m.origin = .mapInstance)

def WasMarked (runID id : String) (nonce : Option ℕ) : Prop :=
  ∃ s, HeldStep o log runID id s ∧ s.dispatchNonce = nonce ∧ s.dispatchUnsent = true

/-- A task carries the iteration and the nonce of the step, and the next attempt
number, or, as a further iteration, the same; a timer that cannot read the run sends
an unnumbered task. -/
def TaskOk (t : TaskPayload) : Prop :=
  (t.attempt = 0 ∧ t.iteration = 0) ∨
  ∃ s, HeldStep o log t.runID t.stepID s ∧ t.iteration = s.iterations ∧
    (t.dispatchNonce = s.dispatchNonce ∨ OffBoard log t.dispatchNonce ∨
      (s.dispatchNonce = none ∧ s.retryDispatchAt.isSome = true)) ∧
    (t.attempt = s.attempts + 1 ∨ (t.attempt = s.attempts ∧ t.route = .continued ∧
        (WasMarked o log t.runID t.stepID t.dispatchNonce ∨ OffBoard log t.dispatchNonce)))

def RetryTimerOk (t : TimerMessage) : Prop :=
  ∃ s n m, HeldStep o log t.runID t.stepID s ∧ s.attempts = t.attempt ∧ s.dispatchNonce = some n ∧
    t.dispatchNonce = some n ∧ At log n (.minted m) ∧ m.origin = .retry

def rateLimited (step : StepDef) : Bool :=
  step.rateLimit.isSome || step.keyedRateLimit.isSome

def RateAllowed (runID : String) (step : StepDef) (nonce : Option ℕ) : Prop :=
  o.hasRateLimiter = true → rateLimited step = true → .token step.task runID step.id nonce ∈ log

/-- Where the tasks of the step are limited, a slot was held for it after the
dispatch was stamped. -/
def TaskSlotTaken (runID : String) (step : StepDef) (n : ℕ) : Prop :=
  o.hasConcurrency = true → 0 < step.maxTaskConcurrency →
    HadSlotSince n log (.task step.task) (taskSlotHolder runID step.id)

/-- The timer of a task that was put off: by the limiter, or, with the token it
has, by the concurrency limit or for a worker that may not answer. -/
def DeferralOk (t : TimerMessage) : Prop :=
  ∃ step n, StepOf o log t.runID step ∧ step.id = t.stepID ∧
    step.task = t.taskType ∧ t.dispatchNonce = some n ∧
    (t.action = .taskConcurRetry ∨ 0 < t.attempt → RateAllowed o log t.runID step (some n))

def TimerOk (t : TimerMessage) : Prop :=
  match t.action with
  | .retryAfter | .retryBackoff => RetryTimerOk o log t
  | .rateRetry | .taskConcurRetry => DeferralOk o log t
  | .loopDelay =>
    WasMarked o log t.runID t.stepID t.dispatchNonce ∧ 0 < t.iteration
  | _ => True

/-- The timers that send the task of a step. -/
def TimerAction.redispatches : TimerAction → Bool
  | .rateRetry | .taskConcurRetry | .retryAfter | .retryBackoff => true
  | _ => false

lemma TimerAction.redispatches_cases {a : TimerAction} (h : a.redispatches = true) :
    a = .rateRetry ∨ a = .taskConcurRetry ∨ a = .retryAfter ∨ a = .retryBackoff := by
  cases a <;> simp [redispatches] at h ⊢

inductive TaskFrom (t : TaskPayload) : Prop where
  /-- The publisher, with a token and a slot where the step needs them. -/
  | published (step : StepDef) (n : ℕ) :
      StepOf o log t.runID step → step.id = t.stepID → step.task = t.task →
      t.dispatchNonce = some n → MintedNonce log t.runID t.stepID (some n) →
      RateAllowed o log t.runID step (some n) →
      TaskSlotTaken o log t.runID step n → TaskFrom t
  /-- An agent loop, for one more iteration. -/
  | iterated : 0 < t.iteration → TaskFrom t
  /-- A timer, for the dispatch it was set for or for the retry of the step. -/
  | timer (tm : TimerMessage) (dispatch : Option ℕ) (publishedAt : Time) :
      .timer tm dispatch publishedAt ∈ log → tm.action.redispatches = true →
      tm.runID = t.runID → tm.stepID = t.stepID → tm.taskType = t.task →
      (t.dispatchNonce = tm.dispatchNonce ∨ ∃ s, HeldStep o log t.runID t.stepID s ∧
          s.retryDispatchAt.isSome = true ∧ t.dispatchNonce = s.dispatchNonce) →
      TaskFrom t

/-- The step events the engine publishes itself. -/
def EventOk (e : Event) : Prop :=
  match e.type with
  | .stepStarted | .stepContinue => False
  | .stepCompleted => e.iteration = none
  | .stepFailed =>
    ∃ s, HeldStep o log e.runID e.stepID s ∧ s.status = .running ∧ e.iteration = some s.iterations ∧
      e.attemptNumber = s.attempts ∧ e.dispatchNonce = s.dispatchNonce
  | .stepQueued => e.attemptNumber = 1
  | _ => True

/-! ## Logs -/

/-- The engine may append the entry to the log. -/
def EntryOk : Entry → Prop
  | .snapshot site none run => CreateOk o site run ∧ Introduced o log site run
  | .snapshot site (some rev) run =>
    ∃ base, World.latestIn run.runID log = some (rev, base) ∧ WriteOk o log site rev base run
  | .definition key d => Stored o log key.name d
  | .task t => TaskOk o log t ∧ TaskFrom o log t
  | .timer t _ _ => TimerOk o log t
  | .event e => EventOk o log e
  | .lock key lock at_ => LockOk o log key lock at_
  | .unlocked key runID => UnlockOk log key runID
  | .acquired key holder => SlotOk o log key holder
  | .notice n => NoticeOk log n
  | _ => True

def OutsideOk (o : Orchestrator) : Entry → Prop
  | .definition key d => Valid o d ∧ d.name = key.name
  | .event _ => True
  | _ => False

/-- Further conditions on what the engine and what others append. -/
structure Terms where
  engine : List Entry → Entry → Prop
  outside : List Entry → Entry → Prop

def Terms.free : Terms :=
  ⟨fun _ _ => True, fun _ _ => True⟩

def Appended (o : Orchestrator) (K : Terms) (log : List Entry) (e : Entry) : Prop :=
  (EntryOk o log e ∧ K.engine log e) ∨ (OutsideOk o e ∧ K.outside log e)

abbrev LogOk (o : Orchestrator) (K : Terms) : List Entry → Prop :=
  History (Appended o K)

/-! ## Growing logs -/

section Mono

variable {o : Orchestrator} {log log' : List Entry} {rev : ℕ}

lemma DispatchDef.stepOf (h : DispatchDef o log runID d) (hstep : step ∈ d.steps) :
    StepOf o log runID step :=
  ⟨d, step, step.id, step.dependsOn, step.requiredCapabilities, h, hstep, rfl⟩

lemma StepOf.mapInstanceStep {index : ℕ} (h : StepOf o log runID step) :
    StepOf o log runID (Orchestrator.mapInstanceStep step index) := by
  obtain ⟨d, s, other, dependsOn, caps, hd, hs, rfl⟩ := h
  exact ⟨d, s, mapInstanceID other index, dependsOn, stripControlPlaneCapability caps, hd, hs, rfl⟩

lemma StepOf.withDeps {dependsOn : List String} (h : StepOf o log runID step) :
    StepOf o log runID { step with dependsOn := dependsOn } := by
  obtain ⟨d, s, id, other, caps, hd, hs, rfl⟩ := h
  exact ⟨d, s, id, dependsOn, caps, hd, hs, rfl⟩

/-- Every step that a definition in play has, or that was generated, passes the
test. -/
def allSteps (test : StepDef → Bool) (log : List Entry) : Bool :=
  log.all fun
    | .definition _ d => d.steps.all test
    | .event e => e.start.carried.all fun d => d.steps.all test
    | .snapshot _ _ run => run.dynamicSteps.all test
    | _ => true

lemma allSteps_older (h : allSteps test log' = true) (hlog : log <:+ log') :
    allSteps test log = true := by
  rw [allSteps, List.all_eq_true] at h ⊢
  exact fun e he => h e (hlog.subset he)

lemma InPlay.of_allSteps {s : StepDef} (hd : InPlay log d) (h : allSteps test log = true)
    (hs : s ∈ d.steps) : test s = true := by
  rw [allSteps, List.all_eq_true] at h
  cases hd with
  | registered key hmem => exact List.all_eq_true.mp (h _ hmem) s hs
  | started e hmem hcarried =>
    have hall := h _ hmem
    dsimp only at hall
    rw [hcarried] at hall
    exact List.all_eq_true.mp hall s hs

lemma StepOf.of_allSteps (hstep : StepOf o log runID step) (h : allSteps test log = true) :
    ∃ s id dependsOn caps, test s = true ∧
      step = { s with id := id, dependsOn := dependsOn, requiredCapabilities := caps } := by
  obtain ⟨d, s, id, dependsOn, caps, hd, hs, heq⟩ := hstep
  refine ⟨s, id, dependsOn, caps, ?_, heq⟩
  rcases hd with ⟨-, hplay⟩ | ⟨rev, stored, d0, ⟨site, prior, hat⟩, -, -, hplay, hsteps⟩
  · exact hplay.of_allSteps h hs
  · rcases hsteps s hs with hs | hs
    · exact hplay.of_allSteps h hs
    · rw [allSteps, List.all_eq_true] at h
      exact List.all_eq_true.mp (h _ hat.mem) s hs

lemma SlotReturned.since {since since' : List Entry} (h : SlotReturned o log since' d runID stepID)
    (hsince : since <:+ since') : SlotReturned o log since d runID stepID := by
  intro step hcon hfind hpos
  obtain ⟨older, holder, htried⟩ := h step hcon hfind hpos
  exact ⟨older, hsince.trans holder, htried⟩

variable (hlog : log <:+ log')
include hlog

lemma Received.mono (h : Received log rev run) : Received log' rev run := by
  obtain ⟨base, hwrote, hrun⟩ := h
  exact ⟨base, hwrote.mono hlog, hrun⟩

lemma MintedFor.mono {origin : Origin} {n : ℕ} (h : MintedFor log runID stepID origin s n) :
    MintedFor log' runID stepID origin s n :=
  At.mono h hlog

lemma MintedNonce.mono (h : MintedNonce log runID stepID nonce) :
    MintedNonce log' runID stepID nonce := by
  obtain ⟨n, m, hn, hat, hids⟩ := h
  exact ⟨n, m, hn, hat.mono hlog, hids⟩

lemma EnqueuedAs.mono (h : EnqueuedAs log s type) : EnqueuedAs log' s type := by
  obtain ⟨n, m, hn, hat, horigin⟩ := h
  exact ⟨n, m, hn, hat.mono hlog, horigin⟩

lemma Stored.mono {name : String} (h : Stored o log name d) : Stored o log' name d :=
  ⟨h.valid, h.name_eq, h.inPlay.mono hlog⟩

lemma Sourced.mono (h : Sourced o log run d) : Sourced o log' run d := by
  obtain ⟨d0, hpin, hstored, hd⟩ := h
  exact ⟨d0, hpin, hstored.mono hlog, hd⟩

lemma DispatchDef.mono (h : DispatchDef o log runID d) : DispatchDef o log' runID d := by
  rcases h with ⟨hvalid, hplay⟩ | ⟨rev, stored, d0, hwrote, hid, hpin, hplay, hsteps⟩
  · exact .inl ⟨hvalid, hplay.mono hlog⟩
  · exact .inr ⟨rev, stored, d0, hwrote.mono hlog, hid, hpin, hplay.mono hlog, hsteps⟩

lemma StepOf.mono (h : StepOf o log runID step) : StepOf o log' runID step := by
  obtain ⟨d, s, id, dependsOn, caps, hd, hs⟩ := h
  exact ⟨d, s, id, dependsOn, caps, hd.mono hlog, hs⟩

lemma Displaces.mono {key : String} (h : Displaces o log key) : Displaces o log' key := by
  obtain ⟨d, cfg, input, hstored, hcfg⟩ := h
  exact ⟨d, cfg, input, hstored.mono hlog, hcfg⟩

lemma SlotGranted.mono (h : SlotGranted o log d runID) : SlotGranted o log' d runID :=
  fun limit hlimit hcon hpos => (h limit hlimit hcon hpos).mono hlog

lemma Introduced.mono {site : Site} (h : Introduced o log site run) :
    Introduced o log' site run where
  source hsite := by
    obtain ⟨d, hstored, hhash, hslot⟩ := h.source hsite
    exact ⟨d, hstored.mono hlog, hhash, fun hne hrun => (hslot hne hrun).mono hlog⟩
  locked hkey := ⟨(h.locked hkey).1, (h.locked hkey).2.mono hlog⟩

lemma DispatchedAs.mono (h : DispatchedAs o log runID id s type) :
    DispatchedAs o log' runID id s type := by
  obtain ⟨d, hd, hstep, htype⟩ := h
  exact ⟨d, hd.mono hlog, hstep, fun hcoherent => (htype hcoherent).mono hlog⟩

lemma SentFor.mono (h : SentFor log runID stepID nonce) : SentFor log' runID stepID nonce := by
  rcases h with ⟨t, hmem, ht⟩ | ⟨t, publishedAt, hmem, ht⟩ | ⟨wt, hmem, ht⟩
  · exact .inl ⟨t, hlog.subset hmem, ht⟩
  · exact .inr (.inl ⟨t, publishedAt, hlog.subset hmem, ht⟩)
  · exact .inr (.inr ⟨wt, hlog.subset hmem, ht⟩)

lemma Delivered.mono (h : Delivered o log runID stepID nonce) :
    Delivered o log' runID stepID nonce := by
  cases h with
  | sent h => exact .sent (h.mono hlog)
  | unstamped h => exact .unstamped h
  | unmarked s type hnonce htype h =>
    exact .unmarked s type hnonce htype (h.mono hlog)
  | taken rev stored d step hwrote hid hd hstep hstepID hnonce hmark htaken =>
    exact .taken rev stored d step (hwrote.mono hlog) hid hd hstep hstepID hnonce hmark htaken
  | waits n m hn hat horigin => exact .waits n m hn (hat.mono hlog) horigin

lemma Tried.mono {since : List Entry} {n : Notice} (h : Tried log since n) :
    Tried log' since n := by
  obtain ⟨older, hsince, htried⟩ := h
  exact ⟨older, hsince, htried.imp (fun h => h.trans hlog) fun h => h.trans hlog⟩

lemma SlotReturned.mono {since : List Entry} (h : SlotReturned o log since d runID stepID) :
    SlotReturned o log' since d runID stepID :=
  fun step hcon hfind hpos => (h step hcon hfind hpos).mono hlog

lemma GivesBack.mono (h : GivesBack o log rev run e d) : GivesBack o log' rev run e d := by
  obtain ⟨hd, since, hmem, hlt, hret⟩ := h
  exact ⟨hd.mono hlog, since, hmem, hlt, hret.mono hlog⟩

lemma Vacates.mono (h : Vacates o log rev run) : Vacates o log' rev run := by
  obtain ⟨since, hlt, ⟨d, hd, hsteps⟩ | hsteps⟩ := h
  · exact ⟨since, hlt, .inl ⟨d, hd.mono hlog, fun id hid => (hsteps id hid).mono hlog⟩⟩
  · exact ⟨since, hlt, .inr fun id hid => (hsteps id hid).mono hlog⟩

lemma OutputRefused.mono (h : OutputRefused o log run id) : OutputRefused o log' run id := by
  rcases h with h | ⟨d, hstored, hd⟩
  · exact .inl h
  · exact .inr ⟨d, hstored.mono hlog, hd⟩

lemma StepChange.mono (h : StepChange o log rev run id s) : StepChange o log' rev run id s := by
  cases h with
  | inputs b => exact .inputs b
  | skip h => exact .skip h
  | dispatch type n t hs hn hmint =>
    exact .dispatch type n t hs hn (hmint.mono hlog)
  | planRunning type wakeAt childRunID instances hnew has h₁ h₂ =>
    exact .planRunning type wakeAt childRunID instances hnew (has.mono hlog) h₁ h₂
  | planCompleted type output childRunID hnew has htype =>
    exact .planCompleted type output childRunID hnew (has.mono hlog) htype
  | planFailed error hnew has => exact .planFailed error hnew (has.mono hlog)
  | completeRunning output hrun h => exact .completeRunning output (hrun.mono hlog) h
  | failRunning error hrun h => exact .failRunning error (hrun.mono hlog) h
  | failCompleted error hrefused h =>
    exact .failCompleted error (hrefused.mono hlog) h
  | started e t hrun hmem =>
    exact .started e t (hrun.mono hlog) (hlog.subset hmem) ‹_› ‹_› ‹_› ‹_› ‹_› ‹_› ‹_›
  | queued e hrun hmem =>
    exact .queued e (hrun.mono hlog) (hlog.subset hmem) ‹_› ‹_› ‹_› ‹_› ‹_› ‹_› ‹_›
  | sent hmark hsent => exact .sent hmark (hsent.mono hlog)
  | recover h => exact .recover h
  | requeue n t hn hmint => exact .requeue n t hn (hmint.mono hlog)
  | wake b hrun hwait hopen halive => exact .wake b (hrun.mono hlog) hwait hopen halive

lemma Continues.mono (h : Continues log rev run e s) : Continues log' rev run e s := by
  cases h with
  | next s n t loopStartedAt waitUntil waitInput hasInputs carried hs htype hn hmint hcarried =>
      exact .next s n t loopStartedAt waitUntil waitInput hasInputs carried hs
        htype hn (hmint.mono hlog) hcarried

lemma StepAnswer.mono (h : StepAnswer o log rev run e s) : StepAnswer o log' rev run e s := by
  cases h with
  | complete d htype hback => exact .complete d htype (hback.mono hlog)
  | next s h => exact .next s (h.mono hlog)
  | exhausted iterations loopStartedAt error htype hle =>
    exact .exhausted iterations loopStartedAt error htype hle
  | retry d n t t' delayMs htype hd hfail hleft hn hmint =>
    exact .retry d n t t' delayMs htype hd hfail hleft hn (hmint.mono hlog)
  | fail d htype hback hfail => exact .fail d htype (hback.mono hlog) hfail

lemma RunChange.mono (h : RunChange o log rev run run') : RunChange o log' rev run run' := by
  cases h with
  | stamp t => exact .stamp run t
  | step id s h => exact .step run id s (h.mono hlog)
  | answer e s hrun hmem hid haccept h =>
    exact .answer run e s (hrun.mono hlog) (hlog.subset hmem) hid haccept (h.mono hlog)
  | report e id s hrun hmem hid halive h =>
    exact .report run e id s (hrun.mono hlog) (hlog.subset hmem) hid halive h
  | cancel hrun h hvacates => exact .cancel run (hrun.mono hlog) h (hvacates.mono hlog)
  | fragment d0 fragment hd hnodup hnormal hnew =>
    exact .fragment run d0 fragment hd hnodup hnormal hnew

lemma Changes.mono (h : Changes o log rev run run') : Changes o log' rev run run' := by
  induction h with
  | refl => exact .refl
  | tail _ hchange ih => exact ih.tail (hchange.mono hlog)

lemma HeldStep.mono (h : HeldStep o log runID id s) : HeldStep o log' runID id s := by
  obtain ⟨rev, base, run, hwrote, hid, hchanges, hs⟩ := h
  exact ⟨rev, base, run, hwrote.mono hlog, hid, hchanges.mono hlog, hs⟩

lemma OffBoard.mono (h : OffBoard log nonce) : OffBoard log' nonce := by
  obtain ⟨n, m, hn, hat, horigin⟩ := h
  exact ⟨n, m, hn, hat.mono hlog, horigin⟩

lemma WasMarked.mono (h : WasMarked o log runID id nonce) : WasMarked o log' runID id nonce := by
  obtain ⟨s, hheld, hs⟩ := h
  exact ⟨s, hheld.mono hlog, hs⟩

lemma TaskOk.mono {t : TaskPayload} (h : TaskOk o log t) : TaskOk o log' t := by
  rcases h with h | ⟨s, hheld, hiter, hnonce, hatt⟩
  · exact .inl h
  · refine .inr ⟨s, hheld.mono hlog, hiter, ?_, ?_⟩
    · exact hnonce.imp id fun h => h.imp (fun h => h.mono hlog) id
    · exact hatt.imp id fun h =>
        ⟨h.1, h.2.1, h.2.2.imp (fun h => h.mono hlog) fun h => h.mono hlog⟩

lemma RetryTimerOk.mono (h : RetryTimerOk o log t) : RetryTimerOk o log' t := by
  obtain ⟨s, n, m, hheld, hatt, hnonce, htimer, hat, horigin⟩ := h
  exact ⟨s, n, m, hheld.mono hlog, hatt, hnonce, htimer, hat.mono hlog, horigin⟩

lemma RateAllowed.mono (h : RateAllowed o log runID step nonce) :
    RateAllowed o log' runID step nonce :=
  fun hlimiter hlimited => hlog.subset (h hlimiter hlimited)

lemma TaskSlotTaken.mono {n : ℕ} (h : TaskSlotTaken o log runID step n) :
    TaskSlotTaken o log' runID step n :=
  fun hcon hpos => (h hcon hpos).mono hlog

lemma DeferralOk.mono (h : DeferralOk o log t) : DeferralOk o log' t := by
  obtain ⟨step, n, hstep, hid, htask, hnonce, hallowed⟩ := h
  exact ⟨step, n, hstep.mono hlog, hid, htask, hnonce, fun hdue => (hallowed hdue).mono hlog⟩

lemma TimerOk.mono (h : TimerOk o log t) : TimerOk o log' t := by
  unfold TimerOk at h ⊢
  split
  · next haction => exact RetryTimerOk.mono hlog (by simpa [haction] using h)
  · next haction => exact RetryTimerOk.mono hlog (by simpa [haction] using h)
  · next haction => exact DeferralOk.mono hlog (by simpa [haction] using h)
  · next haction => exact DeferralOk.mono hlog (by simpa [haction] using h)
  · next haction =>
    rw [haction] at h
    exact ⟨h.1.mono hlog, h.2⟩
  · trivial

lemma TaskFrom.mono {t : TaskPayload} (h : TaskFrom o log t) : TaskFrom o log' t := by
  cases h with
  | published step n hstep hid htask hnonce hmint hallowed hslot =>
    exact .published step n (hstep.mono hlog) hid htask hnonce (hmint.mono hlog)
      (hallowed.mono hlog) (hslot.mono hlog)
  | iterated h => exact .iterated h
  | timer tm dispatch publishedAt hmem haction hrun hstep htask hnonce =>
    refine .timer tm dispatch publishedAt (hlog.subset hmem) haction hrun hstep
      htask (hnonce.imp id ?_)
    rintro ⟨s, hheld, hs⟩
    exact ⟨s, hheld.mono hlog, hs⟩


end Mono

end Dagnats
