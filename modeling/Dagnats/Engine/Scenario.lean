import Dagnats.Interaction.Script
import Dagnats.Engine.Refinement.Running

/-!
# Scenarios

What concrete runs are made of: a policy under which the services answer and
writes succeed, the lines of a script that hand a job to an engine, and an
engine without the optional services.
-/

namespace Dagnats

open Interaction

variable {w : World} {site : Site} {d d' : WorkflowDef} {i : ℕ}

/-- The position at which a definition was last stored. -/
def World.findDef (key : DefKey) : List Entry → Option ℕ
  | [] => none
  | .definition key' _ :: older =>
    if key' = key then some older.length else findDef key older
  | _ :: older => findDef key older

/-- The policy of a calm day: every call takes effect and is answered, limits
are not reached and nothing is queued elsewhere. -/
def World.calm (w : World) : Call → Choice
  | .getDef key =>
    match World.findDef key w.log with
    | some i => .entry i
    | none => .absent
  | .allow .. => .wait none
  | .inputsQueued .. | .taskQueued .. => .flag false
  | .getWorker _ => .worker ""
  | .listRuns => .entries []
  | .newID => .fresh ("run-" ++ toString w.log.length)
  | _ => .done

/-- What a test reads of a stored run. -/
def World.stored (w : World) (runID : String) {α : Type} (f : WorkflowRun → α) : Option α :=
  (w.latest runID).map fun x => f x.2

def World.hasEvent (w : World) (i : ℕ) (type : EventType) (runID stepID : String) : Bool :=
  match w.entryAt i with
  | some (.event e) => e.type = type && e.runID = runID && e.stepID = stepID
  | _ => false

def World.taskAt (w : World) (i : ℕ) (test : TaskPayload → Bool) : Bool :=
  match w.entryAt i with
  | some (.task t) => test t
  | _ => false

lemma World.taskAt_at {test : TaskPayload → Bool} (h : w.taskAt i test = true) :
    ∃ t, At w.log i (.task t) ∧ test t = true := by
  unfold World.taskAt at h
  split at h
  · next t hat => exact ⟨t, At.of_getElem? hat, h⟩
  · cases h

def World.sentTask (w : World) (test : TaskPayload → Bool) : Bool :=
  w.log.any fun
    | .task t => test t
    | _ => false

lemma World.sentTask_iff {test : TaskPayload → Bool} :
    w.sentTask test = true ↔ ∃ t, .task t ∈ w.log ∧ test t = true := by
  rw [World.sentTask, List.any_eq_true]
  constructor
  · rintro ⟨entry, hmem, h⟩
    split at h
    · next t => exact ⟨t, hmem, h⟩
    · cases h
  · rintro ⟨t, hmem, h⟩
    exact ⟨.task t, hmem, h⟩

def World.wroteAt (w : World) (i : ℕ) (test : WorkflowRun → Bool) : Bool :=
  match w.entryAt i with
  | some (.snapshot _ _ run) => test run
  | _ => false

lemma World.wroteAt_wrote {test : WorkflowRun → Bool} (h : w.wroteAt i test = true) :
    ∃ run, Wrote w.log i run ∧ test run = true := by
  unfold World.wroteAt at h
  split at h
  · next site prior run hat => exact ⟨run, ⟨site, prior, At.of_getElem? hat⟩, h⟩
  · cases h

def World.savedAt (w : World) (i : ℕ) (site : Site) (test : WorkflowRun → Bool) : Bool :=
  match w.entryAt i with
  | some (.snapshot site' _ run) => site' = site && test run
  | _ => false

lemma World.savedAt_at {test : WorkflowRun → Bool} (h : w.savedAt i site test = true) :
    ∃ prior run, At w.log i (.snapshot site prior run) ∧ test run = true := by
  unfold World.savedAt at h
  split at h
  · next site' prior run hat =>
    simp only [Bool.and_eq_true, decide_eq_true_eq] at h
    obtain ⟨rfl, htest⟩ := h
    exact ⟨prior, run, At.of_getElem? hat, htest⟩
  · cases h

/-- Was a run written at the position over another, such that the two pass the
test? -/
def World.overwroteAt (w : World) (i : ℕ) (test : WorkflowRun → WorkflowRun → Bool) : Bool :=
  match w.entryAt i with
  | some (.snapshot _ (some rev) new) => w.wroteAt rev fun base => test base new
  | _ => false

lemma World.overwroteAt_wrote {test : WorkflowRun → WorkflowRun → Bool}
    (h : w.overwroteAt i test = true) : ∃ site rev base new,
    At w.log i (.snapshot site (some rev) new) ∧ Wrote w.log rev base ∧ test base new = true := by
  unfold World.overwroteAt at h
  split at h
  · next site rev new hat =>
    obtain ⟨base, hbase, htest⟩ := wroteAt_wrote h
    exact ⟨site, rev, base, new, At.of_getElem? hat, hbase, htest⟩
  · cases h

/-- A policy that follows the calm one, except for the calls `picks` chooses. -/
def World.except (picks : World → Call → Option Choice) (w : World) (op : Call) : Choice :=
  (picks w op).getD (w.calm op)

namespace Orchestrator

/-- An engine without the optional services. Its hash of a definition is made of the
name and the version only, and every text reads as a document. -/
def plain : Orchestrator where
  defHash d := d.name ++ "@" ++ d.version
  digest s := s
  cronOk _ := true
  sleepDelay _ _ _ := none
  schemaParses _ := true
  schemaAccepts _ _ := true
  decodeFragment _ := none
  readJSON s := some (.str s)
  isPrint _ := true
  hasConcurrency := false
  hasRateLimiter := false
  hasSticky := false

end Orchestrator

/-- Where a script leads from nothing, whatever the conditions. -/
lemma reaches_free (o : Orchestrator) (orders : List (Order o.system)) (test : Pool o.system → Bool)
    (h : ((emptyPool o).follow .free orders).any test = true := by decide +kernel) : ∃ p,
    Pool.Reaches Conditions.free (emptyPool o) p ∧ test p = true :=
  Pool.exists_reaches_of_follow Checks.free_sound h

/-- Steps without a skip condition, compared field by field. -/
def StepDef.same (s t : StepDef) : Bool :=
  s.skipIf.isNone && t.skipIf.isNone &&
  decide (s.id = t.id ∧ s.task = t.task ∧ s.dependsOn = t.dependsOn ∧
    s.retries = t.retries ∧ s.timeout = t.timeout ∧ s.type = t.type ∧
    s.config = t.config ∧ s.retry = t.retry ∧ s.workerGroup = t.workerGroup ∧
    s.onFailure = t.onFailure ∧ s.compensate = t.compensate ∧
    s.rateLimit = t.rateLimit ∧ s.keyedRateLimit = t.keyedRateLimit ∧
    s.maxTaskConcurrency = t.maxTaskConcurrency ∧
    s.requiredCapabilities = t.requiredCapabilities ∧ s.metadata = t.metadata)

lemma StepDef.eq_of_same {s t : StepDef} (h : s.same t = true) : s = t := by
  simp only [same, Bool.and_eq_true, Option.isNone_iff_eq_none, decide_eq_true_eq] at h
  cases s
  cases t
  simp_all

def sameSteps : List StepDef → List StepDef → Bool
  | [], [] => true
  | s :: steps, t :: steps' => s.same t && sameSteps steps steps'
  | _, _ => false

lemma eq_of_sameSteps {steps steps' : List StepDef}
    (h : sameSteps steps steps' = true) : steps = steps' := by
  fun_induction sameSteps steps steps' with
  | case1 => rfl
  | case2 s steps t steps' ih =>
    rw [Bool.and_eq_true] at h
    rw [StepDef.eq_of_same h.1, ih h.2]
  | case3 => cases h

/-- Definitions without schemas, compared field by field. -/
def WorkflowDef.same (d d' : WorkflowDef) : Bool :=
  d.inputSchema.isEmpty && d'.inputSchema.isEmpty && d.outputSchema.isEmpty &&
  d'.outputSchema.isEmpty && sameSteps d.steps d'.steps &&
  decide (d.name = d'.name ∧ d.version = d'.version ∧
    d.defaultRetry = d'.defaultRetry ∧ d.concurrency = d'.concurrency ∧
    d.timeout = d'.timeout ∧ d.auxSteps = d'.auxSteps ∧ d.sticky = d'.sticky ∧
    d.cancelOn = d'.cancelOn ∧ d.singleton = d'.singleton ∧
    d.idempotencyKey = d'.idempotencyKey ∧ d.priority = d'.priority)

lemma Raw.eq_nil_of_isEmpty {r : Raw} (h : r.isEmpty = true) : r = .nil := by
  cases r with
  | nil => rfl
  | text s | doc j => cases h

lemma WorkflowDef.eq_of_same (h : d.same d' = true) : d = d' := by
  simp only [same, Bool.and_eq_true, decide_eq_true_eq] at h
  obtain ⟨⟨⟨⟨⟨hin, hin'⟩, hout⟩, hout'⟩, hsteps⟩, hrest⟩ := h
  have hsame := eq_of_sameSteps hsteps
  have hschema := (Raw.eq_nil_of_isEmpty hin).trans (Raw.eq_nil_of_isEmpty hin').symm
  have hschema' := (Raw.eq_nil_of_isEmpty hout).trans (Raw.eq_nil_of_isEmpty hout').symm
  cases d
  cases d'
  simp_all

/-- The same engine with a hash that no other definition shares with `d`. -/
def Orchestrator.pinning (o : Orchestrator) (d : WorkflowDef) : Orchestrator :=
  { o with defHash := fun d' => if d'.same d then "pinned" else "other" }

lemma Orchestrator.pinning_unique {o : Orchestrator} (hd : d.same d = true)
    (h : (o.pinning d).defHash d' = (o.pinning d).defHash d) : d' = d := by
  simp only [pinning, if_pos hd] at h
  split at h
  · next hsame => exact WorkflowDef.eq_of_same hsame
  · simp at h

/-- An engine that knows the definition by its hash. -/
def knowing (d : WorkflowDef) : Orchestrator :=
  Orchestrator.plain.pinning d

/-- An engine with the slots of runs and tasks. -/
def limiting : Orchestrator :=
  { Orchestrator.plain with hasConcurrency := true }

variable {o : Orchestrator} (j : Job)

/-- Nothing happens but this job, as often as it is started. -/
def only : Conditions o.system :=
  ⟨fun _ _ => True, fun _ j' => j' = j, fun _ _ => False⟩

def onlyChecks : Checks o.system :=
  ⟨fun _ _ => true, fun _ (j' : Job) => j' = j, fun _ _ => false⟩

lemma onlyChecks_sound : (onlyChecks (o := o) j).Sound (only j) where
  call _ := trivial
  job {_ j'} h := @of_decide_eq_true _ (instDecidableEqJob j' j) h
  move h := nomatch h

/-- Give a job to an engine and let it work to the end under a policy. -/
def performUnder (choose : World → Call → Choice) (j : Job) : List (Order o.system) :=
  [.act (.start j), .drive choose 0 400, .act (.drop 0)]

def perform : List (Order o.system) :=
  performUnder World.calm j

def publish (e : Event) : Order o.system :=
  .act (.ext (.publish e))

def register (d : WorkflowDef) : Order o.system :=
  .act (.ext (.register d))

def pass (d : ℕ) : Order o.system :=
  .act (.ext (.tick d))

def launched (o : Orchestrator) (d : WorkflowDef) : List (Order o.system) :=
  [register d, publish { type := .workflowStarted, runID := "r"
                         start := .inline d .nil }] ++ perform (.handle 2)

/-- The answer of a worker to its first task for a step of the run `r`. -/
def answered (type : EventType) (stepID : String) (nonce : ℕ) : Event where
  type := type
  runID := "r"
  stepID := stepID
  attemptNumber := 1
  iteration := some 0
  dispatchNonce := some nonce

/-- The answer is published and handled from its place in the log. -/
def replied (type : EventType) (stepID : String) (nonce i : ℕ) : List (Order o.system) :=
  publish (answered type stepID nonce) :: perform (.handle i)

variable (allows : List Entry → Site → Option ℕ → WorkflowRun → Bool)

/-- Conditions on the writes of the engines that can be evaluated. -/
def Terms.onWrites : Terms where
  engine log e := ∀ site prior run, e = .snapshot site prior run → allows log site prior run = true
  outside _ _ := True

def Terms.checks : Checks o.system where
  call w op := op.write.all fun x => allows w.log x.1 x.2.1 x.2.2
  job _ _ := true
  move _ _ := true

lemma Terms.checks_sound :
    (Terms.checks (o := o) allows).Sound ((Terms.onWrites allows).conditions o) where
  call := by
    rintro w op h e happ site prior run rfl
    have hcheck : op.write.all (fun x => allows w.log x.1 x.2.1 x.2.2) = true := h
    rw [happ.write] at hcheck
    simpa using hcheck
  job _ := trivial
  move := by
    intro w m _
    cases m with
    | tick d | publish e => trivial
    | register d => exact ⟨trivial, trivial⟩

variable (sends : List Entry → TaskPayload → Bool)

/-- Conditions on the writes of the engines and on the tasks they send. -/
def Terms.onWork : Terms where
  engine log e := (Terms.onWrites allows).engine log e ∧ ∀ t, e = .task t → sends log t = true
  outside _ _ := True

def Terms.workChecks : Checks o.system where
  call w op := (op.write.all fun x => allows w.log x.1 x.2.1 x.2.2) &&
    match op with
    | .task t => sends w.log t
    | _ => true
  job _ _ := true
  move _ _ := true

lemma Terms.workChecks_sound :
    (Terms.workChecks (o := o) allows sends).Sound
      ((Terms.onWork allows sends).conditions o) where
  call := by
    intro w op h e happ
    obtain ⟨hwrite, hsend⟩ := Bool.and_eq_true_iff.mp h
    refine ⟨(Terms.checks_sound (o := o) allows).call hwrite e happ, ?_⟩
    rintro t rfl
    cases op
    case task t' =>
      cases happ
      exact hsend
    all_goals simp [Appends] at happ
  job _ := trivial
  move := by
    intro w m _
    cases m with
    | tick d | publish e => trivial
    | register d => exact ⟨trivial, trivial⟩

variable (allows : List Entry → Entry → Bool)

/-- Conditions on the nonces that the engines mint, on the tasks they send and on the
slots they give back. -/
def Terms.onMessages : Terms where
  engine log
    | .minted m => allows log (.minted m) = true
    | .task t => allows log (.task t) = true
    | .notice n => allows log (.notice n) = true
    | _ => True
  outside _ _ := True

def Terms.messageChecks : Checks o.system where
  call w op :=
    match op with
    | .newNonce m => allows w.log (.minted m)
    | .task t => allows w.log (.task t)
    | .notify n => allows w.log (.notice n)
    | _ => true
  job _ _ := true
  move _ _ := true

lemma Terms.messageChecks_sound :
    (Terms.messageChecks (o := o) allows).Sound ((Terms.onMessages allows).conditions o) where
  call := by
    intro w op h e happ
    cases op
    case newNonce m | task t =>
      cases happ
      exact h
    case notify n =>
      rcases happ with rfl | rfl
      · exact h
      · trivial
    all_goals
      cases e
      case minted | task | notice => simp [Appends] at happ
      all_goals trivial
  job _ := trivial
  move := by
    intro w m _
    cases m with
    | tick d | publish e => trivial
    | register d => exact ⟨trivial, trivial⟩

end Dagnats
