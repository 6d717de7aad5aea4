import Dagnats.Properties.Progress
import Dagnats.Properties.SkipConditions

/-!
# The writes of a completion

A handler of an accepted completion that has its run to itself saves the snapshot that
`concludes` computes, and then the dispatch of the steps that `resolveReadySteps` plans
on it, or it ends the run. The writes of the run since the handler was started show how
far it has come.
-/

namespace Dagnats

open Interaction

variable {o : Orchestrator} {d : WorkflowDef} {e : Event} {site : Site} {start ws : List Entry}
  {run run' result result' stored copy : WorkflowRun}

/-- What follows from a completion once its snapshot is known. -/
structure Decision where
  /-- The run is complete. -/
  complete : Bool
  /-- The skips that come before a dispatch. -/
  skips : WorkflowRun → WorkflowRun
  /-- They complete the run. -/
  closes : WorkflowRun → Bool
  planned : WorkflowRun → List StepDef

/-- The decision of `finishOrEnqueue` and `enqueueReady`. -/
def decides (d : WorkflowDef) (result : WorkflowRun) : Decision where
  complete := isComplete d (completedSet result)
  skips := resolveSkips d
  closes run := !(skippedNow d run).isEmpty && isComplete d (completedSet (resolveSkips d run))
  planned := plannedSteps d

/-- The last snapshot of a run that is complete, unless an output is refused. -/
inductive Closing (o : Orchestrator) (result stored : WorkflowRun) : Prop where
  | completed : stored.status = .completed → SameWork result stored → Closing o result stored
  | refused (d : WorkflowDef) (id : String) :
      validateRunOutput o.schemaAccepts d result = some id → stored.status = .failed →
      Closing o result stored

def FinishedSince (o : Orchestrator) (result : WorkflowRun) (start ws : List Entry) : Prop :=
  ∃ newer prior stored older, ws = newer ++ .snapshot .finalize prior stored :: older ∧
    Tended start older ∧ Closing o result stored

/-- The completion is saved as `stored`, and nothing has happened since. -/
structure RecordedAs (result : WorkflowRun) (start : List Entry) (stored : WorkflowRun)
    (ws : List Entry) : Prop where
  work : SameWork result stored
  writes : ∃ prior older, Tended start older ∧
    Tended (.snapshot .stepCompleted prior stored :: older) ws

/-- The planned steps and no others were taken up. -/
structure TakesUp (planned : List StepDef) (run saved : WorkflowRun) : Prop where
  each : ∀ s ∈ planned,
    ((run.step s.id).status = .pending ∨ (run.step s.id).status = .cancelled) ∧
      ((saved.step s.id).atWork = true ∨ (saved.step s.id).status = .completed)
  other : ∀ id, id ∉ planned.map (·.id) → (saved.step id).work = (run.step id).work

def TakenUpSince (result : WorkflowRun) (c : Decision) (start ws : List Entry) : Prop :=
  ∃ stored saved prior older, RecordedAs result start stored older ∧
    TakesUp (c.planned stored) (c.skips stored) saved ∧
    .snapshot .enqueue prior saved :: older <:+ ws

/-- The writes follow the decision; `done` says that the handler has come to its end. A
sleep of which the duration cannot be told ends the run. -/
inductive Follows (o : Orchestrator) (result : WorkflowRun) (c : Decision) (start : List Entry)
    (done : Prop) (ws : List Entry) : Prop where
  | untouched : ¬done → Tended start ws → Follows o result c start done ws
  | finished : c.complete = true → FinishedSince o result start ws → Follows o result c start done ws
  | recorded (stored : WorkflowRun) : c.complete = false → RecordedAs result start stored ws →
      (done → c.planned stored = []) → Follows o result c start done ws
  | dispatched : c.complete = false → TakenUpSince result c start ws →
      Follows o result c start done ws
  | ended (stored : WorkflowRun) : c.complete = false → SameWork result stored →
      (c.closes stored = true ∨ ∃ s ∈ c.planned stored, s.type = .sleep) → EndedSince start ws →
      Follows o result c start done ws

/-! ## Runs that differ in bookkeeping -/

lemma SameWork.validateRunOutput {accepts : Raw → Raw → Bool} (h : SameWork run run') :
    validateRunOutput accepts d run' = validateRunOutput accepts d run := by
  simp only [Dagnats.validateRunOutput, h.status, h.output]

lemma SameWork.skippedNow (h : SameWork run run') : skippedNow d run' = skippedNow d run :=
  h.resolveSkipped

lemma SameWork.candidates (h : SameWork run run') : candidates d run' = candidates d run := by
  have hresolved : resolvedNow d run' = resolvedNow d run := by
    funext id
    simp only [resolvedNow, h.completedSet, h.skippedNow]
  have hfreed : freed d run' = freed d run := by
    funext s
    simp only [freed, hresolved, h.queuedSet]
  rw [Dagnats.candidates, hfreed, ← Dagnats.candidates]

lemma Alike.plannedSteps (h : Alike run run') : plannedSteps d run' = plannedSteps d run := by
  rw [plannedSteps_eq, plannedSteps_eq, h.work.candidates]
  unfold inRoom
  rw [h.active]

lemma Alike.closes (h : Alike run run') :
    (decides d result).closes run' = (decides d result).closes run := by
  simp only [decides, h.work.skippedNow, h.work.resolveSkips.completedSet]

lemma Closing.congr (h : Closing o result stored) (hwork : SameWork result' result) :
    Closing o result' stored := by
  cases h with
  | completed hstatus hsame => exact .completed hstatus (hwork.trans hsame)
  | refused d id hinvalid hstatus =>
    exact .refused d id (hwork.validateRunOutput.symm.trans hinvalid) hstatus

lemma TakesUp.congr {planned : List StepDef} {saved saved' : WorkflowRun}
    (h : TakesUp planned run saved) (hwork : SameWork run' run) (hlike : Alike saved saved') :
    TakesUp planned run' saved' := by
  refine ⟨fun s hs => ?_, fun id hid => (hlike.work id).trans ((h.other id hid).trans (hwork id))⟩
  obtain ⟨hopen, htaken⟩ := h.each s hs
  rw [hwork.status] at hopen
  refine ⟨hopen, htaken.imp (fun hwork => ?_) fun hdone => (hlike.stepStatus s.id).trans hdone⟩
  exact (StepState.atWork_of_core (hlike.core s.id)).trans hwork

lemma SameWork.completedRun {id : String} {output : Raw} (h : SameWork run run') :
    SameWork (completedRun run id output) (completedRun run' id output) :=
  h.setStep (congrArg (fun x => (StepStatus.completed, output, x.2.2)) (h id))

lemma Follows.congr_done {c : Decision} {done done' : Prop}
    (h : Follows o result c start done ws) (hdone : done' ↔ done) :
    Follows o result c start done' ws :=
  propext hdone ▸ h

/-! ## The stages -/

lemma FinishedSince.cons (h : FinishedSince o result start ws) (entry : Entry) :
    FinishedSince o result start (entry :: ws) := by
  obtain ⟨newer, prior, stored, older, rfl, hrest⟩ := h
  exact ⟨entry :: newer, prior, stored, older, rfl, hrest⟩

lemma FinishedSince.ended (h : FinishedSince o result start ws) : EndedSince start ws := by
  obtain ⟨newer, prior, stored, older, rfl, htended, hclosing⟩ := h
  obtain ⟨new, rfl⟩ := htended.suffix
  refine ⟨newer ++ .snapshot .finalize prior stored :: new, by simp, .finalize, prior, stored,
    by simp, ?_⟩
  cases hclosing with
  | completed hstatus _ | refused _ _ _ hstatus => rw [hstatus]; rfl

lemma RecordedAs.suffix (h : RecordedAs result start stored ws) : start <:+ ws := by
  obtain ⟨prior, older, hstart, hws⟩ := h.writes
  exact (hstart.suffix.trans (List.suffix_cons _ _)).trans hws.suffix

lemma RecordedAs.tended {ws' : List Entry} (h : RecordedAs result start stored ws)
    (ht : Tended ws ws') : RecordedAs result start stored ws' := by
  obtain ⟨prior, older, hstart, hws⟩ := h.writes
  exact ⟨h.work, prior, older, hstart, hws.trans ht⟩

lemma TakenUpSince.cons {c : Decision} (h : TakenUpSince result c start ws) (entry : Entry) :
    TakenUpSince result c start (entry :: ws) := by
  obtain ⟨stored, saved, prior, older, hrecorded, htakes, hsuffix⟩ := h
  exact ⟨stored, saved, prior, older, hrecorded, htakes, hsuffix.trans (List.suffix_cons _ _)⟩

lemma TakenUpSince.suffix {c : Decision} (h : TakenUpSince result c start ws) : start <:+ ws := by
  obtain ⟨stored, saved, prior, older, hrecorded, -, hsuffix⟩ := h
  exact (hrecorded.suffix.trans (List.suffix_cons _ _)).trans hsuffix

lemma RecordedAs.congr (h : RecordedAs result start stored ws) (hwork : SameWork result' result) :
    RecordedAs result' start stored ws :=
  ⟨hwork.trans h.work, h.writes⟩

/-- Decisions that agree on whatever may be stored have the same writes. -/
lemma Follows.congr {c c' : Decision} {done : Prop} (h : Follows o result c start done ws)
    (hwork : SameWork result' result) (hcomplete : c'.complete = c.complete)
    (hsame : c.complete = false → ∀ stored, SameWork result stored →
      c'.skips stored = c.skips stored ∧ c'.closes stored = c.closes stored ∧
        c'.planned stored = c.planned stored) : Follows o result' c' start done ws := by
  cases h with
  | untouched hdone h => exact .untouched hdone h
  | finished hdone h =>
    obtain ⟨newer, prior, stored, older, rfl, htended, hclosing⟩ := h
    exact .finished (hcomplete.trans hdone)
      ⟨newer, prior, stored, older, rfl, htended, hclosing.congr hwork⟩
  | recorded stored hopen h hdone =>
    refine .recorded stored (hcomplete.trans hopen) (h.congr hwork) fun hd => ?_
    exact (hsame hopen stored h.work).2.2.trans (hdone hd)
  | dispatched hopen h =>
    obtain ⟨stored, saved, prior, older, hrecorded, htakes, hsuffix⟩ := h
    obtain ⟨hskips, -, hplanned⟩ := hsame hopen stored hrecorded.work
    refine .dispatched (hcomplete.trans hopen)
      ⟨stored, saved, prior, older, hrecorded.congr hwork, ?_, hsuffix⟩
    rw [hskips, hplanned]
    exact htakes
  | ended stored hopen h hwhy hended =>
    obtain ⟨-, hcloses, hplanned⟩ := hsame hopen stored h
    refine .ended stored (hcomplete.trans hopen) (hwork.trans h) ?_ hended
    rw [hcloses, hplanned]
    exact hwhy

/-- The watch over the handling of a completion that leads to `result` under `d`. -/
def concluding (o : Orchestrator) (d : WorkflowDef) (result : WorkflowRun) (e : Event)
    (base : World) : Watch where
  runID := e.runID
  base := base
  keeps := Follows o result (decides d result) (base.writes e.runID) False
  extends_start h := by
    cases h with
    | untouched _ h => exact h.suffix
    | finished _ h => exact h.ended.suffix
    | recorded _ _ h _ => exact h.suffix
    | dispatched _ h => exact h.suffix
    | ended _ _ _ _ h => exact h.suffix
  keeps_tended := by
    intro ws site prior stored run hsite hlast hlike h
    cases h with
    | untouched hdone h => exact .untouched hdone (.write h hsite hlast hlike)
    | finished hcomplete h => exact .finished hcomplete (h.cons _)
    | recorded stored hopen h hdone =>
      exact .recorded stored hopen (h.tended (.write .refl hsite hlast hlike)) hdone
    | dispatched hopen h => exact .dispatched hopen (h.cons _)
    | ended stored hopen hwork hwhy h => exact .ended stored hopen hwork hwhy (h.cons _)

section Handling

variable {base w : World} {next : Next}

/-- A program at the end of which the decision has been followed. -/
abbrev Fulfils (o : Orchestrator) (d : WorkflowDef) (result : WorkflowRun) (e : Event)
    (base w : World) (p : M Unit) : Prop :=
  Safe (solo o (concluding o d result e base)) (post (fun _ t =>
    Follows o result (decides d result) (base.writes e.runID) True (t.writes e.runID))
    fun _ _ => True) p w

lemma Attends.fulfils {p : M Unit} {J : Unit → World → Prop}
    (hp : Attends o (concluding o d result e base) w p J)
    (h : ∀ t, J () t → Follows o result (decides d result) (base.writes e.runID) True
      (t.writes e.runID)) : Fulfils o d result e base w p := by
  refine Safe.conseq hp fun r t _ _ hr => ?_
  cases r with
  | ok a => exact h t hr
  | error err => trivial

/-- Only a sleep reports that the run has ended. -/
lemma attends_sleeps {W : Watch} {J : WorkflowRun × DispatchPlan → World → Prop}
    {ready : List StepDef} (h : Attends o W w (o.planDispatch next d run ready) J) :
    Attends o W w (outcome (o.planDispatch next d run ready)) fun r _ =>
      r = .error .runFinalized → ∃ s ∈ ready, s.type = .sleep := by
  by_cases hsleep : ∃ s ∈ ready, s.type = .sleep
  · exact h.outcome.conseq fun _ _ _ _ _ => hsleep
  · refine (Quiet.planDispatch fun s hs htype => hsleep ⟨s, hs, htype⟩).outcome.attends.conseq
      fun r _ _ hr h => absurd h hr.1.2

lemma Attends.completeWorkflow_finished (hid : copy.runID = e.runID)
    (hopen : ¬(copy.status.isTerminal && copy.completedAt.isSome) = true)
    (hcomplete : isComplete d (completedSet result) = true) (hwork : SameWork result copy)
    (htended : Tended (base.writes e.runID) (w.writes e.runID)) :
    Attends o (concluding o d result e base) w (o.completeWorkflow next copy) fun _ t =>
      FinishedSince o result (base.writes e.runID) (t.writes e.runID) := by
  have hfinal : ∀ {t : World} {run : WorkflowRun} {status : RunStatus} {after : M Unit},
      Apart e.runID w t → run.runID = e.runID →
      ¬(run.status.isTerminal && run.completedAt.isSome) = true →
      (∀ stored, stored.status = status → SameWork run stored → Closing o result stored) →
      Attends o (concluding o d result e base) t (Dagnats.finalizeRun run status after) fun _ u =>
        FinishedSince o result (base.writes e.runID) (u.writes e.runID) := by
    intro t run status after hwt hid hopen hclosing
    refine finalizeWith (P := FinishedSince o result (base.writes e.runID))
      (fun entry h => h.cons entry) (fun h => .finished hcomplete h) (fun h => h.ended) hid hopen
      fun u _ htu time prior stored hlike => ⟨[], prior, stored, _, rfl, ?_, ?_⟩
    · have hwrites : u.writes e.runID = w.writes e.runID := (hwt.trans htu).writes
      exact hwrites ▸ htended
    · exact hclosing stored hlike.status hlike.work
  have hrest : ∀ {t : World} {α : Type} (p : M α),
      FinishedSince o result (base.writes e.runID) (t.writes e.runID) →
      Attends o (concluding o d result e base) t p fun _ u =>
        FinishedSince o result (base.writes e.runID) (u.writes e.runID) := fun p h =>
    of_stable (W := concluding o d result e base)
      (P := FinishedSince o result (base.writes e.runID)) (fun entry h => h.cons entry)
      (fun h => .finished hcomplete h) (fun h => h.ended) h p
  refine bind outputSchemaViolation.attends fun r t _ hr => ?_
  cases r with
  | none =>
    exact bind (hfinal hr.2 hid hopen fun stored hstatus hsame =>
      .completed hstatus (hwork.trans hsame)) fun _ u _ hu => hrest _ hu
  | some stepID =>
    obtain ⟨d', hinvalid⟩ := hr.1 stepID rfl
    exact bind (hfinal hr.2 hid hopen fun stored hstatus _ =>
      .refused d' stepID (hwork.validateRunOutput.symm.trans hinvalid) hstatus)
      fun _ u _ hu => hrest _ hu

section

variable (hopen : isComplete d (completedSet result) = false) (hid : copy.runID = e.runID)
  (hfree : copy.completedAt = none) (hnodup : (d.steps.map (·.id)).Nodup)
include hopen hid hfree hnodup

lemma fulfils_enqueueReadyWith (hlike : Alike stored copy)
    (hrecorded : RecordedAs result (base.writes e.runID) stored (w.writes e.runID)) :
    Fulfils o d result e base w (o.enqueueReadyWith next d copy) := by
  have hfree' : ∀ {run : WorkflowRun}, SameRun copy run →
      ¬(run.status.isTerminal && run.completedAt.isSome) = true := fun h => by
    simp [h.completedAt, hfree]
  have hplanned : plannedSteps d copy = plannedSteps d stored := hlike.plannedSteps
  unfold Orchestrator.enqueueReadyWith
  split
  · next run₁ hres =>
    have hsame : SameRun copy run₁ := resolveReadySteps_complete hres ▸ resolveSkips_sameRun _ copy
    have hcloses : (decides d result).closes stored = true := by
      rw [← hlike.closes]
      by_contra hnot
      rw [resolveReadySteps_eq, if_neg (by exact hnot)] at hres
      split at hres <;> cases hres
    have : (concluding o d result e base).Endable :=
      ⟨fun h => .ended stored hopen hrecorded.work (.inl hcloses) h⟩
    exact (Attends.completeWorkflow (hsame.runID.trans hid) (hfree' hsame)).fulfils fun t h =>
      .ended stored hopen hrecorded.work (.inl hcloses) h
  · next hres =>
    have hnone : plannedSteps d copy = [] := by rw [plannedSteps, hres]
    exact fun t _ hwt => .recorded stored hopen (hrecorded.tended (hwt.writes ▸ .refl))
      fun _ => hplanned.symm.trans hnone
  · next run₁ ready hres =>
    obtain ⟨rfl, hready⟩ := resolveReadySteps_ready hres
    have hready' : plannedSteps d stored = ready := by rw [← hplanned, plannedSteps, hres]
    split
    · next hempty =>
      exact fun t _ hwt => .recorded stored hopen (hrecorded.tended (hwt.writes ▸ .refl))
        fun _ => hready'.trans (List.isEmpty_iff.mp hempty)
    have hids := ready_nodup hnodup hres
    refine Attends.followed Quiet.markQueuedAll.attends (fun _ _ _ => trivial)
      fun run₂ t _ hrun₂ => ?_
    obtain ⟨⟨honly, -, hqueued, -⟩, hwt⟩ := hrun₂
    have hsame : SameRun copy run₂ := (resolveSkips_sameRun d copy).trans honly.sameRun
    have hend : ∀ s ∈ ready, s.type = .sleep → (concluding o d result e base).Endable :=
      fun s hs htype => ⟨fun h => .ended stored hopen hrecorded.work
        (.inr ⟨s, by rw [← hready'] at hs; exact hs, htype⟩) h⟩
    have hplanning : Attends o (concluding o d result e base) t (o.planDispatch next d run₂ ready)
        fun acc u => Planning ready (run₂, {}) acc ∧ Apart e.runID t u :=
      Attends.planDispatch (hsame.runID.trans hid) (hfree' hsame) hend hids fun s hs => by
        simp [StepState.atWork, hqueued s hs]
    refine Attends.followed (hplanning.outcome.and (attends_sleeps hplanning)) (fun _ _ _ => trivial) fun r u _ hr => ?_
    obtain ⟨⟨hok, hended⟩, hwhy⟩ := hr
    split
    · refine fun v _ huv => .ended stored hopen hrecorded.work (.inr ?_) ((hended rfl).apart huv)
      rw [show (decides d result).planned stored = ready from hready']
      exact hwhy rfl
    · exact fun _ _ _ => trivial
    · next planned plan =>
      obtain ⟨hplanning, htu⟩ := hok _ rfl
      have honly' := honly.trans hplanning.only
      have htakes : TakesUp ready (resolveSkips d copy) planned := by
        refine ⟨fun s hs => ⟨(hready s hs).2, ?_⟩, fun id hid => ?_⟩
        · exact (hplanning.each s hs).imp id And.left
        · rw [honly'.other id hid]
      have hdispatched : ∀ prior saved, Alike planned saved →
          TakenUpSince result (decides d result) (base.writes e.runID)
            (.snapshot .enqueue prior saved :: u.writes e.runID) := by
        intro prior saved hsaved
        refine ⟨stored, saved, prior, _, hrecorded.tended ((hwt.trans htu).writes ▸ .refl), ?_,
          List.suffix_rfl⟩
        rw [show (decides d result).planned stored = ready from hready']
        exact htakes.congr hlike.work.resolveSkips hsaved
      refine Attends.followed (Attends.saveSnapshot (honly'.sameRun.runID.trans
        ((resolveSkips_sameRun d copy).runID.trans hid)) fun prior saved hsaved =>
          .dispatched hopen (hdispatched prior saved hsaved)) (fun _ _ _ => trivial)
        fun saved v _ hsaved => ?_
      obtain ⟨prior, written, hwritten, htended⟩ := hsaved.writes
      refine Safe.conseq (safe_of_stable (W := concluding o d result e base)
        (P := TakenUpSince result (decides d result) (base.writes e.runID))
        (fun entry h => h.cons entry) (fun h => .dispatched hopen h)
        (htended.tolerant (fun _ _ _ h => h.cons _) (hdispatched prior written hwritten)) _)
        fun r x _ _ hx => ?_
      cases r with
      | ok a => exact .dispatched hopen hx
      | error err => trivial

end

lemma fulfils_finishOrEnqueue (hid : copy.runID = e.runID) (hfree : copy.completedAt = none)
    (hnodup : (d.steps.map (·.id)).Nodup) (hwork : SameWork result copy)
    (htended : Tended (base.writes e.runID) (w.writes e.runID)) :
    Fulfils o d result e base w (o.finishOrEnqueue d copy .stepCompleted) := by
  unfold Orchestrator.finishOrEnqueue
  rw [hwork.completedSet]
  split
  · next hcomplete =>
    exact (Attends.completeWorkflow_finished hid (by simp [hfree]) hcomplete hwork
      htended).fulfils fun t h => .finished hcomplete h
  · next hopen =>
    rw [Bool.not_eq_true] at hopen
    have hrecorded : ∀ prior stored, Alike copy stored → RecordedAs result (base.writes e.runID)
        stored (.snapshot .stepCompleted prior stored :: w.writes e.runID) :=
      fun prior stored hlike => ⟨hwork.trans hlike.work, prior, _, htended, .refl⟩
    refine Attends.followed (Attends.saveSnapshot hid fun prior stored hlike =>
      .recorded stored hopen (hrecorded prior stored hlike) False.elim) (fun _ _ _ => trivial)
      fun saved t _ hsaved => ?_
    obtain ⟨prior, stored, hlike, ht⟩ := hsaved.writes
    unfold Orchestrator.enqueueReady
    cases o.callDepth with
    | zero => exact fun _ _ _ => trivial
    | succ depth =>
      exact fulfils_enqueueReadyWith hopen (hsaved.alike.runID.trans hid)
        (hsaved.alike.completedAt.trans hfree) hnodup (hlike.symm.trans hsaved.alike)
        ((hrecorded prior stored hlike).tended ht)

end Handling

/-- The completion is that of a step that is no planner. -/
def Ordinary (d : WorkflowDef) (stepID : String) : Prop :=
  (findStepDef d stepID).map (·.type) ≠ some .planner

/-- In every execution of the handler of an accepted completion that has its run to
itself, its writes follow `concludes` and the decision on it. -/
lemma handler_follows {p : Pool o.system} {rev : ℕ} {w : World} {q : M Unit}
    (hreach : Pool.Reaches Conditions.free (emptyPool o) p) (hvalid : Valid o d)
    (hstored : p.state.latest e.runID = some (rev, run)) (hunderway : Underway o d run)
    (hcompleting : Completing o d run e) (hordinary : Ordinary (effectiveDef d run) e.stepID)
    (hruns : Runs o.system (Apart e.runID) p.state (o.handleStepCompleted e) w q) :
    let result := concludes (effectiveDef d run) run e.stepID e.payload
    Follows o result (decides (effectiveDef d run) result) (p.state.writes e.runID)
      (q = .pure ()) (w.writes e.runID) := by
  intro result
  have hlast : lastRun (p.state.writes e.runID) = some run := by
    rw [World.lastRun_writes, hstored]
    rfl
  obtain ⟨hwrote, hid⟩ := World.latestIn_wrote hstored
  have hnodup : ((effectiveDef d run).steps.map (·.id)).Nodup :=
    (reaches_logOk_free hreach).distinctSteps hwrote d hvalid hunderway.pins
  have hfulfils : Fulfils o (effectiveDef d run) result e p.state p.state
      (o.handleStepCompleted e) := by
    refine Attends.handleStepCompleted_of (fun _ _ _ => trivial) rfl hlast hunderway hcompleting
      (fun t rev run' s _ _ hfind htype => ?_) fun t rev run' hwt hhands => ?_
    · exact absurd (by rw [hfind]; simp [htype]) hordinary
    · refine Attends.completeStep_of (fun _ _ _ => trivial) hcompleting.forward
        fun u copy htu hdrafts => ?_
      have hwrites := (hwt.trans htu).writes
      have hreceived : SameWork run (World.received rev run) :=
        (Alike.received rev run).work
      refine fulfils_finishOrEnqueue (hdrafts.runID.trans (hhands.same.runID.trans hid))
        (hdrafts.completedAt.trans (hhands.same.completedAt.trans hunderway.unfinished)) hnodup
        (SameWork.trans ?_ hdrafts.work) (hwrites ▸ .refl)
      exact ((hreceived.trans hhands.work).completedRun).resolveSkips.recoverIfOnFailure
  have hsafe := hruns.safe (C := solo o (concluding o (effectiveDef d run) result e p.state))
    (fun _ _ => trivial) (fun h hst => h.apart hst) (fun h => h)
    ⟨List.suffix_rfl, .untouched not_false .refl⟩ hfulfils
  by_cases hdone : q = .pure ()
  · subst hdone
    exact (hsafe.2 w hsafe.1 (Apart.refl w)).congr_done (by simp)
  · exact hsafe.1.keeps.congr_done (by simp [hdone])

section Scripts

variable (test : WorkflowRun → Bool) (script : List (Order (knowing d).system))

/-- The script leads to a run that awaits `e`, and the handler comes to its end there. -/
def completesAfter (d : WorkflowDef) (e : Event) (test : WorkflowRun → Bool)
    (script : List (Order (knowing d).system)) : Bool :=
  ((emptyPool (knowing d)).follow Checks.free script).any fun p =>
    (p.state.latest e.runID).any (fun x => x.2.status = .running && x.2.completedAt.isNone &&
      x.2.defHash = (knowing d).defHash d && decide (Completing (knowing d) d x.2 e) && test x.2) &&
    (Prog.play (knowing d).system World.calm 400 p.state ((knowing d).handleStepCompleted e)).any
      (·.2.isPure)

lemma completing_of_script (hsame : d.same d = true)
    (h : completesAfter d e test script = true) : let o := knowing d
    ∃ (p : Pool o.system) (rev : ℕ) (run : WorkflowRun) (w : World),
      Pool.Reaches Conditions.free (emptyPool o) p ∧ p.state.latest e.runID = some (rev, run) ∧
      Underway o d run ∧ Completing o d run e ∧ test run = true ∧
      Runs o.system (Apart e.runID) p.state (o.handleStepCompleted e) w (.pure ()) := by
  intro o
  obtain ⟨p, hp, htest⟩ := Pool.exists_reaches_of_follow Checks.free_sound h
  rw [Bool.and_eq_true] at htest
  obtain ⟨⟨rev, run⟩, hlatest, hrun⟩ := (Option.any_eq_true ..).mp htest.1
  obtain ⟨⟨w, q⟩, hplay, hq⟩ := (Option.any_eq_true ..).mp htest.2
  obtain ⟨a, rfl⟩ := Prog.eq_pure_of_isPure hq
  simp only [Bool.and_eq_true, decide_eq_true_eq, Option.isNone_iff_eq_none] at hrun
  obtain ⟨⟨⟨⟨hrunning, hopen⟩, hhash⟩, hcompleting⟩, hrest⟩ := hrun
  have hnamed : o.defHash d ≠ "" := by simp [o, knowing, Orchestrator.pinning, hsame]
  exact ⟨p, rev, run, w, hp, hlatest,
    ⟨hrunning, hopen, hhash, hnamed, fun _ => Orchestrator.pinning_unique hsame⟩, hcompleting,
    hrest, Prog.play_runs Apart.refl hplay⟩

end Scripts

end Dagnats
