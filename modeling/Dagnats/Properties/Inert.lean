import Dagnats.Engine.Scenario

/-!
# Terminal runs are inert

The handlers of a run that is stored with a terminal status. Four of them do
not look at that status: `handleWaitTimeout`, `HandleGranted` and
`handleChildCompleted`, which complete a step that is still running, and
`handleStepContinue`, which opens another iteration of a loop. All others
leave the run as it is.
-/

namespace Dagnats

open Interaction

variable {run : WorkflowRun} {runID : String} {w : World} {base : World} {rev : ℕ}
  {stored : WorkflowRun}

def Concerns (runID : String) : Entry → Prop
  | .snapshot _ _ run => run.runID = runID
  | .task t => t.runID = runID
  | .timer t _ _ => t.runID = runID
  | .waiter wt _ => wt.runID = runID
  | _ => False

/-- Since `base` nothing that concerns the run was appended. -/
def Unconcerned (base : World) (runID : String) (w : World) : Prop :=
  ∃ new, w.log = new ++ base.log ∧ ∀ e ∈ new, ¬Concerns runID e

lemma Unconcerned.push {e : Entry} (h : Unconcerned base runID w) (he : ¬Concerns runID e) :
    Unconcerned base runID (w.push e) := by
  obtain ⟨new, hlog, hnew⟩ := h
  refine ⟨e :: new, by simp [World.push, hlog], fun e' he' => ?_⟩
  rcases List.mem_cons.mp he' with rfl | he'
  · exact he
  · exact hnew e' he'

lemma latestIn_append {new old : List Entry} (h : ∀ e ∈ new, ¬Concerns runID e) :
    World.latestIn runID (new ++ old) = World.latestIn runID old := by
  induction new with
  | nil => rfl
  | cons e new ih =>
    have hrest := ih fun e' he' => h e' (.tail _ he')
    have he := h e (.head _)
    cases e with
    | snapshot site base run =>
      have hother : ¬run.runID = runID := he
      simp only [List.cons_append, World.latestIn]
      rw [if_neg hother]
      exact hrest
    | _ => exact hrest

lemma Unconcerned.latest (h : Unconcerned base runID w) : w.latest runID = base.latest runID := by
  obtain ⟨new, hlog, hnew⟩ := h
  unfold World.latest
  rw [hlog]
  exact latestIn_append hnew

section

variable (o : Orchestrator) (base : World) (runID : String)

/-- The contract of programs that append nothing that concerns the run. -/
def leaving : Contract o.system where
  inv := Unconcerned base runID
  rely _ _ := True
  grows _ _ := True
  ok _ _ := True
  guar w _ _ w' := w' = w ∨ ∃ e, ¬Concerns runID e ∧ w' = w.push e
  rely_refl _ := trivial
  rely_trans _ _ := trivial
  grows_trans _ _ := trivial
  rely_grows _ := trivial
  exec_grows _ := trivial

/-- The program leaves the run alone and returns only values with `J`. -/
def Leaves {α : Type} (p : M α) (J : α → Prop) : Prop :=
  ∀ w, Safe (leaving o base runID) (post (fun a _ => J a) fun _ _ => True) p w

abbrev Spares {α : Type} (p : M α) : Prop :=
  Leaves o base runID p fun _ => True

end

namespace Leaves

variable {o : Orchestrator} {r : String} {α β : Type} {p : M α} {f : α → M β} {J J' : α → Prop}
  {Q : β → Prop}

lemma pure {a : α} (h : J a) : Leaves o base r (Prog.pure a) J :=
  fun _ _ _ _ => h

lemma ends {a : α} : Spares o base r (Prog.pure a) := pure trivial

lemma fail {e : Err} : Leaves o base r (Prog.fail e : M α) J :=
  fun _ _ _ _ => trivial

lemma bind (hp : Leaves o base r p J)
    (hf : ∀ a, J a → Leaves o base r (f a) Q) : Leaves o base r (p.bind f) Q :=
  fun w => Safe.bind (hp w) (fun a t _ _ ha => hf a ha t) fun _ _ _ _ _ => trivial

lemma outcome (hp : Leaves o base r p J) :
    Leaves o base r (Dagnats.outcome p) fun x => ∀ a, x = .ok a → J a := by
  intro w
  refine Safe.attempt (hp w) (fun a t _ _ ha b hb => ?_) (fun e t _ _ _ _ a ha => ?_)
    fun _ _ _ _ _ _ => trivial
  · cases hb
    exact ha
  · cases ha

lemma ignoring (hp : Leaves o base r p J) : Spares o base r (Dagnats.ignoring p) :=
  hp.outcome.bind fun _ _ => ends

lemma ite {c : Prop} [Decidable c] {q : M α} (hp : c → Leaves o base r p J)
    (hq : ¬c → Leaves o base r q J) : Leaves o base r (if c then p else q) J := by
  split
  · next h => exact hp h
  · next h => exact hq h

lemma guard {c : Prop} [Decidable c] {e : Err} {q : M α} (hq : ¬c → Leaves o base r q J) :
    Leaves o base r (if c then Prog.fail e else q) J :=
  ite (fun _ => fail) hq

lemma early {c : Prop} [Decidable c] {a : α} {q : M α} (hq : ¬c → Spares o base r q) :
    Spares o base r (if c then Prog.pure a else q) :=
  ite (fun _ => ends) hq

lemma request {op : Call} {J : Value op → Prop} (hentry : ∀ w e, Appends w op e → ¬Concerns r e)
    (hvalue : ∀ w c v w', Unconcerned base r w → w.exec op c = some (.ok v, w') → J v) :
    Leaves o base r (Dagnats.request op) J := by
  intro w t ht _ _ c a u hexec
  refine ⟨?_, fun _ => ?_⟩
  · rcases World.exec_cases hexec with rfl | ⟨e, happ, rfl⟩
    · exact .inl rfl
    · exact .inr ⟨e, hentry t e happ, rfl⟩
  · cases a with
    | ok v => exact pure (hvalue t c v u ht hexec) u
    | error e => exact fail u

lemma quiet {op : Call} (h : ∀ w e, Appends w op e → ¬Concerns r e) :
    Spares o base r (Dagnats.request op) :=
  request h fun _ _ _ _ _ _ => trivial

lemma now : Spares o base r Dagnats.now :=
  quiet fun _ _ he => he.elim

lemma notify {n : Notice} : Spares o base r (Dagnats.request (.notify n)) :=
  quiet fun _ e he => by rcases he with rfl | rfl <;> exact not_false

lemma publishEvent {e : Event} : Spares o base r (Dagnats.publishEvent e) :=
  quiet fun _ e he => by cases he; exact not_false

lemma getDef {key : DefKey} : Spares o base r (Dagnats.request (.getDef key)) :=
  quiet fun _ _ he => he.elim

lemma load (hstored : base.latest r = some (rev, stored)) :
    Leaves o base r (Dagnats.load r) fun run => run = World.received rev stored := by
  refine request (fun _ _ he => he.elim) fun w c run w' hw hexec => ?_
  obtain ⟨-, hread⟩ := World.read_cases hexec
  obtain ⟨rev', stored', hlatest, rfl⟩ := hread run rfl
  rw [hw.latest, hstored] at hlatest
  cases hlatest
  rfl

lemma loadDef {workflowID : String} : Spares o base r (Dagnats.loadDef workflowID) := getDef

lemma loadPinnedOrLatestDef : Spares o base r (o.loadPinnedOrLatestDef run) := by
  have hheal : Spares o base r (o.selfHealMissingVersion run) := by
    refine bind loadDef fun d _ => guard fun _ => ?_
    refine bind (quiet fun _ e he => ?_) fun _ _ => ends
    cases he
    exact not_false
  refine ite (fun _ => loadDef) fun _ => bind getDef.outcome fun x _ => ?_
  split
  · exact guard fun _ => ends
  · refine bind hheal.outcome fun x _ => ?_
    cases x with
    | ok d => exact ends
    | error e => exact fail
  · exact fail

lemma loadRunAndDef (hstored : base.latest r = some (rev, stored)) :
    Leaves o base r (o.loadRunAndDef r) fun x => x.2 = World.received rev stored := by
  refine bind (load hstored) fun run hrun => ?_
  refine bind loadPinnedOrLatestDef.outcome fun x _ => ?_
  split
  · exact pure hrun
  · exact guard fun _ => fail

/-! ## The handlers of a terminal run -/

section Terminal

variable {e : Event}

lemma late {k : M Unit} (hterm : run.status.isTerminal = true) :
    Spares o base r ((Dagnats.lateEventForTerminalRun run e).bind fun late =>
      if late = true then Prog.pure () else k) := by
  have hlate : Leaves o base r (Dagnats.lateEventForTerminalRun run e) fun late =>
      late = true :=
    guard fun _ => guard fun _ => pure hterm
  exact bind hlate fun late h => early fun hopen => absurd h hopen

lemma finalizeRun {status : RunStatus} {after : M Unit} (hterm : run.status.isTerminal = true)
    (hdone : run.completedAt.isSome = true) :
    Spares o base r (Dagnats.finalizeRun run status after) := by
  refine early fun hopen => ?_
  simp [hterm, hdone] at hopen

lemma notifyParentIfChild {childErr : Option String} :
    Spares o base r (Dagnats.notifyParentIfChild run childErr) :=
  early fun _ => publishEvent

lemma publishDeadLetter {step : StepDef} {reason : String} :
    Spares o base r (Orchestrator.publishDeadLetter run step reason) :=
  guard fun _ => notify.ignoring

lemma failRunning {d : WorkflowDef} {stepID error : String} (hterm : run.status.isTerminal = true)
    (hdone : run.completedAt.isSome = true) :
    Spares o base r (o.failRunning d run stepID error) := by
  refine bind (finalizeRun hterm hdone) fun _ _ => ?_
  refine bind loadDef.ignoring fun _ _ => ?_
  exact bind publishDeadLetter fun _ _ => notifyParentIfChild

lemma not_running (hterm : stored.status.isTerminal = true) :
    (World.received rev stored).status ≠ .running := by
  intro h
  have hrunning : stored.status = .running := h
  rw [hrunning] at hterm
  cases hterm

lemma completeGuarded {k : WorkflowDef × WorkflowRun → M Unit}
    (hstored : base.latest e.runID = some (rev, stored))
    (hidle : (stored.step e.stepID).status ≠ .running) :
    Spares o base e.runID ((o.loadRunAndDef e.runID).bind fun x =>
      if (x.2.step e.stepID).status ≠ .running then Prog.pure () else k x) := by
  refine bind (loadRunAndDef hstored) fun x hx => ?_
  refine early fun hrunning => ?_
  rw [hx] at hrunning
  exact absurd hidle hrunning

variable (hstored : base.latest e.runID = some (rev, stored))
  (hterm : stored.status.isTerminal = true)

include hstored hterm

lemma handleStepQueued : Spares o base e.runID (Dagnats.handleStepQueued e) := by
  refine guard fun _ => bind (load hstored) fun run hrun => ?_
  refine early fun _ => early fun _ => ?_
  subst hrun
  exact late hterm

lemma handleStepStarted : Spares o base e.runID (Dagnats.handleStepStarted e) := by
  refine guard fun _ => bind (load hstored) fun run hrun => ?_
  refine early fun _ => early fun _ => ?_
  subst hrun
  exact late hterm

lemma handleStepCompleted : Spares o base e.runID (o.handleStepCompleted e) := by
  refine guard fun _ => ?_
  refine bind (loadRunAndDef hstored) fun x hx => late ?_
  rw [hx]
  exact hterm

lemma handleStepFailed : Spares o base e.runID (o.handleStepFailed e) := by
  refine guard fun _ => ?_
  refine bind (loadRunAndDef hstored) fun x hx => late ?_
  rw [hx]
  exact hterm

lemma handleInputQueued : Spares o base e.runID (o.handleInputQueued e) := by
  refine guard fun _ => ?_
  refine bind (loadRunAndDef hstored).outcome fun x hx => ?_
  cases x with
  | error err => exact ends
  | ok x =>
    dsimp only
    split
    · exact ends
    · refine early fun _ => ite (fun _ => notify.ignoring) fun hopen => ?_
      rw [hx x rfl] at hopen
      exact absurd (by simp [World.received, hterm]) hopen

lemma handleWaitElapsed : Spares o base e.runID (o.handleWaitElapsed e) := by
  refine guard fun _ => ?_
  refine bind (loadRunAndDef hstored).outcome fun x hx => ?_
  cases x with
  | error err => exact ends
  | ok x =>
    dsimp only
    split
    · exact ends
    · refine early fun hopen => ?_
      rw [hx x rfl] at hopen
      exact absurd (by simp [World.received, hterm]) hopen

lemma handleWorkflowCancelled : Spares o base e.runID (o.handleWorkflowCancelled e) := by
  refine bind (load hstored) fun run hrun => early fun h => ?_
  subst hrun
  exact absurd (not_not.mp h) (not_running hterm)

end Terminal

end Leaves

/-! ## Guarded events -/

def isStepEvent : EventType → Bool
  | .workflowStarted | .workflowSpawn => false
  | _ => true

/-- The event meets a guard of its handler: it does not complete a step that is
still running without asking for the status of the run, and it opens no
iteration. -/
def guarded (o : Orchestrator) (run : WorkflowRun) (e : Event) : Bool :=
  match e.type with
  | .stepWaitTimeout | .approvalGranted | .workflowChildCompleted =>
    (run.step e.stepID).status ≠ .running
  | .stepContinue =>
    (acceptStepEvent (run.step e.stepID) e o.legacyStepEvents).isSome
  | _ => true

namespace Leaves

variable {o : Orchestrator} {e : Event}

lemma handleStepContinue (hstored : base.latest e.runID = some (rev, stored))
    (htype : e.type = .stepContinue)
    (hreject : (acceptStepEvent (stored.step e.stepID) e o.legacyStepEvents).isSome = true) :
    Spares o base e.runID (o.handleStepContinue e) := by
  refine guard fun _ => bind (loadRunAndDef hstored) fun x hx => ?_
  dsimp only
  split
  · exact fail
  · have hfence : Leaves o base e.runID (o.fenceStepEvent x.2 e) fun run =>
        run = none := by
      refine guard fun _ => guard fun _ =>
        ite (fun h => by simp [htype, fencedEventType] at h) fun _ => ?_
      rw [hx]
      dsimp only
      split
      · exact pure rfl
      · next haccept =>
        have hnone : acceptStepEvent (stored.step e.stepID) e o.legacyStepEvents = none := haccept
        rw [hnone] at hreject
        cases hreject
    refine bind hfence fun run hrun => ?_
    subst hrun
    exact ends

section

variable (hstored : base.latest e.runID = some (rev, stored))
  (hterm : stored.status.isTerminal = true)
include hstored hterm

section

variable (hdone : stored.completedAt.isSome = true)
include hdone

lemma failGuarded {p : WorkflowDef × WorkflowRun → M Unit}
    (hp : ∀ x : WorkflowDef × WorkflowRun, x.2.status.isTerminal = true →
      x.2.completedAt.isSome = true → Spares o base e.runID (p x)) :
    Spares o base e.runID ((o.loadRunAndDef e.runID).bind fun x =>
      if (x.2.step e.stepID).status ≠ .running then Prog.pure () else p x) := by
  refine bind (loadRunAndDef hstored) fun x hx => early fun _ => ?_
  refine hp x ?_ ?_
  · rw [hx]
    exact hterm
  · rw [hx]
    exact hdone

lemma handleChildFailed : Spares o base e.runID (o.handleChildFailed e) := by
  refine guard fun _ => failGuarded hstored hterm hdone fun x ht hd => ?_
  split
  · exact fail
  · exact failRunning ht hd

lemma routeEvent (htype : isStepEvent e.type = true) (hguard : guarded o stored e = true) :
    Spares o base e.runID (o.routeEvent e) := by
  unfold Orchestrator.routeEvent
  unfold guarded at hguard
  split <;> simp only [*, decide_eq_true_eq] at hguard htype
  · cases htype
  · exact handleStepCompleted hstored hterm
  · exact handleStepCompleted hstored hterm
  · exact handleStepCompleted hstored hterm
  · exact guard fun _ => completeGuarded hstored hguard
  · next h => exact handleStepContinue hstored h hguard
  · exact handleStepFailed hstored hterm
  · exact handleStepStarted hstored hterm
  · exact handleStepQueued hstored hterm
  · cases htype
  · exact guard fun _ => completeGuarded hstored hguard
  · exact handleChildFailed hstored hterm hdone
  · exact handleWorkflowCancelled hstored hterm
  · exact guard fun _ => completeGuarded hstored hguard
  · exact guard fun _ => failGuarded hstored hterm hdone
      fun _ ht hd => failRunning ht hd
  · exact guard fun _ => failGuarded hstored hterm hdone
      fun _ ht hd => failRunning ht hd
  · exact handleInputQueued hstored hterm
  · exact handleWaitElapsed hstored hterm
  · exact ends

end

lemma dispatchBody (hroute : Spares o base e.runID (o.routeEvent e)) :
    Spares o base e.runID (o.dispatchBody e) := by
  refine bind (load hstored).outcome fun x hx => ?_
  cases x with
  | error err => exact hroute
  | ok run =>
    have hidle : run.status ≠ .running := by
      rw [hx run rfl]
      exact not_running hterm
    refine bind now fun time _ => ite (fun h => absurd h.2 hidle) fun _ => ?_
    refine bind hroute fun _ _ => ite (fun h => ?_) fun _ => ends
    simp only [hasUnsentStep, Bool.and_eq_true, decide_eq_true_eq] at h
    exact absurd h.1 hidle

end

lemma handleEventRounds (n : ℕ) (hbody : Spares o base e.runID (o.dispatchBody e)) :
    Spares o base e.runID (o.handleEventRounds e n) := by
  have hdisp : Spares o base e.runID (o.dispatchEvent e) := by
    have hatt : Spares o base e.runID (Prog.attempt (fun _ => true) (o.dispatchBody e)) :=
      fun w => Safe.attempt (hbody w) (fun _ _ _ _ _ => trivial)
        (fun _ _ _ _ _ _ => trivial) fun _ _ _ _ _ _ => trivial
    refine bind hatt fun x _ => ?_
    split
    · exact ends
    · exact fail
    · exact fail
  induction n with
  | zero => exact fail
  | succ n ih =>
    refine bind hdisp.outcome fun x _ => ?_
    split
    · exact ends
    · exact ih
    · exact fail

lemma handleEvent (hstored : base.latest e.runID = some (rev, stored))
    (hterm : stored.status.isTerminal = true) (hdone : stored.completedAt.isSome = true)
    (htype : isStepEvent e.type = true) (hguard : guarded o stored e = true) :
    Spares o base e.runID (o.handleEvent e) :=
  handleEventRounds _ (dispatchBody hstored hterm (routeEvent hstored hterm hdone htype hguard))

end Leaves

/-! ## Inertness -/

/-- Between `w` and `w'` no step of the run changed its status or output, the
run kept its status, and nothing was sent for its steps. -/
structure Inert (runID : String) (w w' : World) : Prop where
  stored : ∀ rev run, w.latest runID = some (rev, run) →
    ∃ rev' run', w'.latest runID = some (rev', run') ∧ run'.status = run.status ∧
      ∀ id, (run'.step id).status = (run.step id).status ∧
        (run'.step id).output = (run.step id).output
  unsent : ∃ new, w'.log = new ++ w.log ∧ (∀ t, .task t ∈ new → t.runID ≠ runID) ∧
    (∀ t nonce publishedAt, .timer t nonce publishedAt ∈ new → t.runID ≠ runID) ∧
    (∀ wt nonce, .waiter wt nonce ∈ new → wt.runID ≠ runID)

lemma Unconcerned.inert (h : Unconcerned base runID w) : Inert runID base w where
  stored rev run hrun := by
    rw [h.latest]
    exact ⟨rev, run, hrun, rfl, fun _ => ⟨rfl, rfl⟩⟩
  unsent := by
    obtain ⟨new, hlog, hnew⟩ := h
    exact ⟨new, hlog, fun t ht => hnew _ ht, fun t _ _ ht => hnew _ ht, fun wt _ ht => hnew _ ht⟩

section

variable (o : Orchestrator) (run : WorkflowRun)

/-- Any number of engines handle events of one run, each of which is guarded
against the stored `run`; the world around them moves as it likes. -/
def attending : Conditions o.system where
  call _ _ := True
  job w j := ∃ i e, j = .handle i ∧ w.entryAt i = some (.event e) ∧
    e.runID = run.runID ∧ isStepEvent e.type = true ∧ guarded o run e = true
  move _ _ := True

lemma leaving_sound {o : Orchestrator} (hstored : base.latest stored.runID = some (rev, stored))
    (hterm : stored.status.isTerminal = true) (hdone : stored.completedAt.isSome = true) :
    (leaving o base stored.runID).Sound (attending o stored) where
  ok _ := trivial
  call := by
    intro w op c a w' hw _ hguar
    rcases hguar with rfl | ⟨e, he, rfl⟩
    · exact ⟨hw, trivial⟩
    · exact ⟨hw.push he, trivial⟩
  move := by
    intro w m w' hw _ hmove
    refine ⟨?_, trivial⟩
    cases m with
    | tick d => cases hmove; exact hw
    | publish e => cases hmove; exact hw.push not_false
    | register d =>
      simp only [Orchestrator.system, Orchestrator.move] at hmove
      split at hmove
      · cases hmove
        refine Unconcerned.push (Unconcerned.push hw ?_) ?_ <;> exact not_false
      · cases hmove
  jobs := by
    rintro w j p _ ⟨i, e, rfl, hat, hid, htype, hguard⟩ hstart
    simp only [Orchestrator.system, Orchestrator.startJob, hat] at hstart
    cases hstart
    rw [← hid] at hstored ⊢
    exact Safe.conseq (Leaves.handleEvent hstored hterm hdone htype hguard w)
      fun _ _ _ _ _ => trivial

/-- **Terminal runs are inert**, as long as no event completes a step that is
still running without asking for the status of the run, and no event opens an
iteration: whichever of the run's events any number of engines handle, however
their calls are interleaved and end, nothing happens to the run. -/
theorem terminal_inert {o : Orchestrator} {w : World} {rev : ℕ} {run : WorkflowRun}
    (hstored : w.latest run.runID = some (rev, run)) (hterm : run.status.isTerminal = true)
    (hdone : run.completedAt.isSome = true) {p : Pool o.system}
    (hp : Pool.Reaches (attending o run) (Pool.initial w) p) : Inert run.runID w p.state := by
  have hbase : (leaving o w run.runID).inv w := ⟨[], rfl, by simp⟩
  exact ((leaving_sound hstored hterm hdone).reaches hbase hp).1.inert

def attendingChecks : Checks o.system where
  call _ _ := true
  job w j :=
    match j with
    | .handle i =>
      match w.entryAt i with
      | some (.event e) =>
        e.runID = run.runID && isStepEvent e.type && guarded o run e
      | _ => false
    | _ => false
  move _ _ := true

lemma attendingChecks_sound : (attendingChecks o run).Sound (attending o run) where
  call _ := trivial
  move _ := trivial
  job := by
    intro w j h
    cases j with
    | handle i =>
      simp only [attendingChecks] at h
      split at h
      · next e hat =>
        simp only [Bool.and_eq_true, decide_eq_true_eq] at h
        exact ⟨i, e, rfl, hat, h.1.1, h.1.2, h.2⟩
      · cases h
    | _ => cases h

end

/-! ## A run that is not inert -/

namespace Siblings

/-- `b` waits for an event while `a` is at work; `c` comes after `b`. -/
def workflow : WorkflowDef where
  name := "siblings"
  steps :=
    [{ id := "a", task := "work" },
     { id := "b", type := .waitForEvent
       config := .doc
         { event := "go", timeout := 60 * second
           match_ := { left := "data.k", op := "==", right := "input.k" } } },
     { id := "c", task := "work", dependsOn := ["b"] }]

/-- `a` fails for good, and then the wait of `b` times out. -/
def script : List (Order Orchestrator.plain.system) :=
  [register workflow,
    publish { type := .workflowStarted, runID := "r"
              start := .inline workflow (.doc (.obj [("k", .str "v")])) }] ++
  perform (.handle 2) ++
  [publish { type := .stepFailed, runID := "r", stepID := "a"
             payload := .doc (.str "broken"), attemptNumber := 1
             iteration := some 0, dispatchNonce := some 5 }] ++
  perform (.handle 14) ++ [pass 60000000000] ++ perform (.fire 11)

def failed (p : Pool Orchestrator.plain.system) : Bool :=
  p.state.stored "r" (·.status) = some .failed &&
    p.state.stored "r" (fun run => (run.step "b").status) = some .running &&
    p.state.hasEvent 20 .stepWaitTimeout "r" "b"

/-- `b` is completed, and a task for `c` was sent. -/
def disturbed (p : Pool Orchestrator.plain.system) : Bool :=
  p.state.stored "r" (fun run => (run.step "b").status) = some .completed && p.state.log.any fun
      | .task t => t.runID = "r" && t.stepID = "c"
      | _ => false

/-- The rejection of an approval comes too late: nothing but a dead letter is
written. -/
theorem failed_run_inert :
    ∃ (w : World) (rev : ℕ) (run : WorkflowRun) (p : Pool Orchestrator.plain.system),
    w.latest run.runID = some (rev, run) ∧ run.status.isTerminal = true ∧ run.completedAt.isSome =
    true ∧ Pool.Reaches (attending Orchestrator.plain run) (Pool.initial w) p ∧
    w.log.length + 1 < p.state.log.length ∧ Inert run.runID w p.state := by
  obtain ⟨q, -, htest⟩ := reaches_free Orchestrator.plain
    script (fun q => (q.state.latest "r").any fun x => x.2.runID = "r" &&
      x.2.status.isTerminal && x.2.completedAt.isSome &&
      ((Pool.initial q.state).follow (attendingChecks Orchestrator.plain x.2)
        (publish { type := .approvalRejected, runID := "r", stepID := "b" } ::
          perform (.handle 21))).any fun p =>
            q.state.log.length + 1 < p.state.log.length)
  obtain ⟨⟨rev, run⟩, hlatest, hrun⟩ := (Option.any_eq_true ..).mp htest
  simp only [Bool.and_eq_true, decide_eq_true_eq] at hrun
  obtain ⟨p, hp, hlength⟩ := Pool.exists_reaches_of_follow (attendingChecks_sound _ run) hrun.2
  rw [← hrun.1.1.1] at hlatest
  exact ⟨q.state, rev, run, p, hlatest, hrun.1.1.2, hrun.1.2, hp,
    of_decide_eq_true hlength, terminal_inert hlatest hrun.1.1.2 hrun.1.2 hp⟩

/-- The timeout of a wait completes the step of a run that has failed, and the
step after it is sent. -/
theorem failed_run_disturbed : Valid Orchestrator.plain workflow ∧
    ∃ p q : Pool Orchestrator.plain.system,
    Pool.Reaches Conditions.free (emptyPool Orchestrator.plain) p ∧ failed p = true ∧
    Pool.Reaches (only (.handle 20)) (Pool.initial p.state) q ∧ disturbed p = false ∧ disturbed q =
    true := by
  refine ⟨by decide +kernel, ?_⟩
  obtain ⟨p, hp, htest⟩ := reaches_free Orchestrator.plain
    script (fun p => failed p && !disturbed p && ((Pool.initial p.state).follow
      (onlyChecks (.handle 20)) (perform (.handle 20))).any disturbed)
  simp only [Bool.and_eq_true, Bool.not_eq_true'] at htest
  obtain ⟨q, hq, hdisturbed⟩ := Pool.exists_reaches_of_follow (onlyChecks_sound _) htest.2
  exact ⟨p, q, hp, htest.1.1, hq, htest.1.2, hdisturbed⟩

end Siblings

end Dagnats
