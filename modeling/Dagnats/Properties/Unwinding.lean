import Dagnats.Dag.Compensation
import Dagnats.Engine.Effects
import Dagnats.Properties.Deadlock

/-!
# Forward execution after the start of a compensation

Nothing in the snapshot of a run says that it is being compensated. It stays
running, and each handler goes on as before: the completion of a sibling in
flight dispatches ready steps, and another failure starts the chain again.

That forward execution stops is proved for the runs in which the failing step is
the only one at work when the compensation starts and nothing else is ready, and
in which later reports, and the tasks that are sent later, are about steps at work.
From then on every write only puts steps to rest.
-/

namespace Dagnats

open Interaction

variable {o : Orchestrator} {d d' : WorkflowDef} {id : String} {site : Site} {e : Event}
  {status : StepStatus} {run run' run'' base new edited : WorkflowRun} {log : List Entry} {rev : ℕ}
  {s : StepState}

def WorkflowDef.undoes (d : WorkflowDef) (id : String) : Bool :=
  id ≠ "" && d.steps.any (·.compensate = id)

def detached (d : WorkflowDef) (id : String) : Bool :=
  d.isAux id && d.steps.all (·.onFailure ≠ id) &&
    (findStepDef d id).any fun s => s.onFailure = "" && s.type ≠ .planner

/-- In the effective definition `d` of a run under `d0` no step waits for an aux
step, compensations are detached, and what is aux is aux for every earlier
effective definition too. -/
def standsApart (d0 d : WorkflowDef) : Bool :=
  independentOfAux d && d.steps.all (fun s => s.compensate = "" || detached d s.compensate) &&
    d.auxSteps.all fun id => d0.isAux id && (buildAuxSteps d0.steps).contains id

section Apart

variable {d0 : WorkflowDef} (h : standsApart d0 d = true)

include h

section

variable (hid : d.undoes id = true)
include hid

lemma standsApart_detached : detached d id = true := by
  simp only [standsApart, Bool.and_eq_true, List.all_eq_true] at h
  simp only [WorkflowDef.undoes, Bool.and_eq_true, decide_eq_true_eq, List.any_eq_true] at hid
  obtain ⟨hne, s, hs, rfl⟩ := hid
  simpa [hne] using h.1.2 s hs

lemma standsApart_aux : d.isAux id = true := by
  have hdetached := standsApart_detached h hid
  simp only [detached, Bool.and_eq_true] at hdetached
  exact hdetached.1.1

lemma standsApart_stepDef :
    (d.stepDef id).onFailure = "" ∧ (d.stepDef id).type ≠ .planner := by
  have hdetached := standsApart_detached h hid
  simp only [detached, Bool.and_eq_true, Option.any_eq_true] at hdetached
  obtain ⟨-, s, hfind, hs⟩ := hdetached
  rw [WorkflowDef.stepDef, hfind]
  simpa using hs

lemma standsApart_recover (run : WorkflowRun) :
    recoverIfOnFailure d run id = run := by
  have hdetached := standsApart_detached h hid
  simp only [detached, Bool.and_eq_true, List.all_eq_true] at hdetached
  have hnone : (d.steps.find? fun s =>
      s.onFailure = id && (run.step s.id).status = .failed) = none := by
    rw [List.find?_eq_none]
    intro s hs
    have hne := hdetached.1.2 s hs
    simp_all
  rw [recoverIfOnFailure, hnone]

end

lemma standsApart_independent {s : StepDef} {dep : String} (hs : s ∈ d.steps)
    (hplain : d.isAux s.id = false) (hdep : dep ∈ s.dependsOn) : d.isAux dep = false := by
  simp only [standsApart, independentOfAux, Bool.and_eq_true, List.all_eq_true] at h
  have hdeps := h.1.1 s hs
  rw [hplain, Bool.false_or, List.all_eq_true] at hdeps
  simpa using hdeps dep hdep

lemma standsApart_declared {s : StepDef} (hs : s ∈ d.steps) (hne : s.compensate ≠ "") :
    (findStepDef d s.compensate).isSome = true := by
  have hundoes : d.undoes s.compensate = true := by
    simpa [WorkflowDef.undoes, hne] using ⟨s, hs, rfl⟩
  have hdetached := standsApart_detached h hundoes
  simp only [detached, Bool.and_eq_true, Option.any_eq_true] at hdetached
  obtain ⟨-, target, hfind, -⟩ := hdetached
  exact Option.isSome_iff_exists.mpr ⟨target, hfind⟩

end Apart

/-- A definition that may be older: it has no more steps and no fewer aux steps. -/
structure Predates (d' d : WorkflowDef) : Prop where
  steps : ∀ s ∈ d'.steps, s ∈ d.steps
  aux : ∀ id, d.isAux id = true → d'.isAux id = true

lemma Predates.refl (d : WorkflowDef) : Predates d d :=
  ⟨fun _ h => h, fun _ h => h⟩

/-! ## Runs that stand -/

/-- The steps that are not aux stay as settled as they were, and none of them is
resolved. -/
structure Settles (d : WorkflowDef) (run run' : WorkflowRun) : Prop where
  completed : ∀ id, d.isAux id = false → completedSet run' id = true → completedSet run id = true
  settled : ∀ id, d.isAux id = false → (completedSet run id || queuedSet run id) = true →
    (completedSet run' id || queuedSet run' id) = true

lemma Settles.of_status
    (h : ∀ id, d.isAux id = false → (run'.step id).status = (run.step id).status) :
    Settles d run run' where
  completed id hplain hid := by rwa [completedSet, h id hplain] at hid
  settled id hplain hid := by rwa [completedSet, queuedSet, h id hplain]

/-- Besides, no step is put to work. -/
structure Stands (d : WorkflowDef) (run run' : WorkflowRun) : Prop extends
    Settles d run run' where
  dynamicSteps : run'.dynamicSteps = run.dynamicSteps
  rests : Rests run run'

namespace Stands

lemma refl (d : WorkflowDef) (run : WorkflowRun) : Stands d run run :=
  ⟨⟨fun _ _ h => h, fun _ _ h => h⟩, rfl, .refl run⟩

lemma trans (h : Stands d run run') (h' : Stands d run' run'') : Stands d run run'' where
  completed id hplain hid := h.completed id hplain (h'.completed id hplain hid)
  settled id hplain hid := h'.settled id hplain (h.settled id hplain hid)
  dynamicSteps := h'.dynamicSteps.trans h.dynamicSteps
  rests := h.rests.trans h'.rests

lemma of_status (hdyn : run'.dynamicSteps = run.dynamicSteps) (hrests : Rests run run')
    (hstatus : ∀ id, d.isAux id = false → (run'.step id).status = (run.step id).status) :
    Stands d run run' :=
  ⟨.of_status hstatus, hdyn, hrests⟩

lemma of_aux (hid : d.isAux id = true) (hdyn : run'.dynamicSteps = run.dynamicSteps)
    (hrests : Rests run run') (hother : ∀ other, id ≠ other → run'.step other = run.step other) :
    Stands d run run' := by
  refine of_status hdyn hrests fun other hplain => ?_
  rw [hother other]
  rintro rfl
  rw [hid] at hplain
  cases hplain

lemma setStep (hid : d.isAux id = true) (hs : s.atWork = true → (run.step id).atWork = true) :
    Stands d run (run.setStep id s) :=
  of_aux hid rfl (rests_setStep hs) fun _ hne => run.step_setStep_of_ne s hne

lemma failed (hstatus : (run'.step id).status = .failed)
    (hdyn : run'.dynamicSteps = run.dynamicSteps)
    (hother : ∀ other, id ≠ other → run'.step other = run.step other) : Stands d run run' := by
  refine ⟨⟨fun other _ hdone => ?_, fun other _ hsettled => ?_⟩, hdyn,
    fun other hwork => ?_⟩ <;> by_cases hid : id = other
  · rw [← hid, completedSet, hstatus] at hdone
    cases hdone
  · rwa [completedSet, hother other hid] at hdone
  · simp [← hid, queuedSet, hstatus]
  · rwa [completedSet, queuedSet, hother other hid]
  · simp [← hid, StepState.atWork, hstatus] at hwork
  · rwa [hother other hid] at hwork

lemma setFailed (hs : s.status = .failed) : Stands d run (run.setStep id s) :=
  failed (by rw [WorkflowRun.step_setStep_self, hs]) rfl fun _ hne =>
    run.step_setStep_of_ne s hne

lemma terminal (h : Stands d run run') (status : RunStatus) (t : Time) :
    Stands d run (markTerminal run' status t) :=
  ⟨⟨h.completed, h.settled⟩, h.dynamicSteps, h.rests⟩

end Stands

lemma Alike.stands (h : Alike run run') : Stands d run run' :=
  .of_status h.dynamicSteps h.rests fun id _ => h.stepStatus id

/-- Nothing is ready. -/
def Idle (d : WorkflowDef) (run : WorkflowRun) : Prop :=
  resolveReady d (completedSet run) (queuedSet run) = []

lemma idle_iff : Idle d run ↔ ∀ s ∈ d.steps, d.isAux s.id = false →
    (completedSet run s.id || queuedSet run s.id) = false →
    allDepsCompleted s.dependsOn (completedSet run) = false := by
  simp only [Idle, resolveReady, List.filter_eq_nil_iff, Bool.and_eq_true, Bool.not_eq_true',
    not_and, Bool.not_eq_true]
  exact ⟨fun h s hs hplain hopen => h s hs ⟨hopen, hplain⟩,
    fun h s hs ⟨hopen, hplain⟩ => h s hs hplain hopen⟩

section Standing

variable {d0 : WorkflowDef} (hapart : standsApart d0 d = true)

include hapart

lemma Idle.settles (h : Idle d run) (hsettles : Settles d run run') : Idle d run' := by
  rw [idle_iff] at h ⊢
  intro s hs hplain hopen
  have hbefore : (completedSet run s.id || queuedSet run s.id) = false := by
    by_contra hsettled
    rw [hsettles.settled s.id hplain (Bool.not_eq_false _ ▸ hsettled)] at hopen
    cases hopen
  have hdeps := h s hs hplain hbefore
  rw [allDepsCompleted, List.all_eq_false] at hdeps ⊢
  obtain ⟨dep, hdep, hnot⟩ := hdeps
  have haux := standsApart_independent hapart hs hplain hdep
  exact ⟨dep, hdep, fun hdone => hnot (hsettles.completed dep haux hdone)⟩

omit hapart in
/-- Where nothing is ready, nothing but aux steps is skipped. -/
lemma Idle.skips (h : Idle d run) (hd : Predates d' d) : Stands d run (resolveSkips d' run) := by
  refine .of_status (markSkipped_dynamicSteps run _) (rests_resolveSkips d' run)
    fun id hplain => congrArg StepState.status (step_markSkipped_of_not_mem fun hin => ?_)
  obtain ⟨s, hs, rfl⟩ := List.mem_map.mp hin
  obtain ⟨hmem, htest⟩ := List.mem_filter.mp hs
  simp only [Bool.and_eq_true, Bool.not_eq_true'] at htest
  have hdeps := idle_iff.mp h s (hd.steps s hmem) hplain htest.1
  cases hskip : s.skipIf with
  | none => simp [hskip] at htest
  | some c => simp [hskip, hdeps] at htest

lemma Idle.openSteps (h : Idle d run) (hd : Predates d' d) : openSteps d' run = [] := by
  have hskips := h.skips hd
  rw [Dagnats.openSteps, List.filter_eq_nil_iff]
  intro s hs
  exfalso
  obtain ⟨hmem, htest⟩ := List.mem_filter.mp hs
  simp only [Bool.and_eq_true, Bool.not_eq_true', Bool.or_eq_false_iff] at htest
  obtain ⟨⟨⟨hopen, hqueued⟩, haux⟩, hdeps⟩ := htest
  have hplain : d.isAux s.id = false := by
    by_contra hisAux
    rw [hd.aux s.id (by simpa using hisAux)] at haux
    cases haux
  have hbefore : completedSet run s.id = false := by
    by_contra hdone
    rcases passes_resolveSkips d' run s.id with hsame | ⟨-, hskip⟩
    · rw [completedSet, hsame] at hopen
      exact hdone (by simpa [completedSet] using hopen)
    · simp [completedSet, hskip] at hopen
  have hnot := idle_iff.mp h s (hd.steps s hmem) hplain (by simp [hbefore, hqueued])
  rw [allDepsCompleted, List.all_eq_false] at hnot
  obtain ⟨dep, hdep, hdepOpen⟩ := hnot
  have hdepAux := standsApart_independent hapart (hd.steps s hmem) hplain hdep
  exact hdepOpen (hskips.completed dep hdepAux (List.all_eq_true.mp hdeps dep hdep))

end Standing

/-! ## Writes after the start -/

/-- The run is being compensated: nothing but compensations is at work, and nothing
else is ready. -/
structure Halted (d : WorkflowDef) (run : WorkflowRun) : Prop where
  apart : standsApart d (effectiveDef d run) = true
  undoing : ∀ id, (run.step id).atWork = true → (effectiveDef d run).undoes id = true
  idle : Idle (effectiveDef d run) run

lemma Halted.aux (h : Halted d run) (hwork : (run.step id).atWork = true) :
    (effectiveDef d run).isAux id = true :=
  standsApart_aux h.apart (h.undoing id hwork)

lemma Halted.stands (h : Halted d run) (hstands : Stands (effectiveDef d run) run run') :
    Halted d run' := by
  have hdef : effectiveDef d run' = effectiveDef d run := effectiveDef_congr hstands.dynamicSteps
  refine ⟨hdef ▸ h.apart, fun id hwork => hdef ▸ h.undoing id (hstands.rests id hwork), ?_⟩
  rw [hdef]
  exact h.idle.settles h.apart hstands.toSettles

def concernsWork (run : WorkflowRun) (report : Report) : Bool :=
  if report.fenced || !isMapInstanceID report.event.stepID then
    (run.step report.event.stepID).atWork
  else instanceAtWork run report.event

/-- A marker event puts no step to work, and reports are about steps at work. -/
def staysDown (site : Site) (base new : WorkflowRun) : Bool :=
  match site with
  | .stepQueued | .stepStarted => new.working ⊆ base.working
  | _ => new.recording.all (concernsWork base)

lemma stands_marked (h : Halted d run) (hwork : s.atWork = true)
    (hdown : (run.setStep id s).working ⊆ run.working) :
    Stands (effectiveDef d run) run (run.setStep id s) := by
  have hid : (run.step id).atWork = true := by
    refine mem_working.mp (hdown (mem_working.mpr ?_))
    rwa [WorkflowRun.step_setStep_self]
  exact .setStep (h.aux hid) fun _ => hid

lemma Noted.stands (hnoted : Noted run site edited) (h : Halted d run)
    (hdown : staysDown site run edited = true) : Stands (effectiveDef d run) run edited := by
  cases hnoted with
  | kept _ _ hbooks hlike => exact hlike.stands
  | woken id b =>
    exact .of_status rfl (rests_setStep fun hwork => hwork) fun other _ =>
      run.proj_setStep StepState.status (by rfl) other
  | advanced deadline => exact ⟨⟨fun _ _ hid => hid, fun _ _ hid => hid⟩, rfl, .refl run⟩
  | queued e => exact stands_marked h rfl (by simpa [staysDown] using hdown)
  | started e t =>
    refine stands_marked h ?_ (by simpa [staysDown] using hdown)
    simp [StepState.atWork, startedState_status]
  | cancelled t =>
    refine Stands.terminal ?_ .cancelled t
    have hplain : ∀ id, (effectiveDef d run).isAux id = false →
        ((Orchestrator.cancelUnfinishedSteps run).step id).status = (run.step id).status ∨
        ((run.step id).status = .pending ∧
          ((Orchestrator.cancelUnfinishedSteps run).step id).status = .cancelled) := by
      intro id hplain
      rcases status_cancelUnfinishedSteps with hsame | ⟨hpend | hwork, hcancelled⟩
      · exact .inl hsame
      · exact .inr ⟨hpend, hcancelled⟩
      · rw [h.aux hwork] at hplain
        cases hplain
    refine ⟨⟨fun id haux hid => ?_, fun id haux hid => ?_⟩, rfl, rests_cancelUnfinishedSteps⟩
    · rcases hplain id haux with hsame | ⟨-, hcancelled⟩
      · rwa [completedSet, hsame] at hid
      · simp [completedSet, hcancelled] at hid
    · rcases hplain id haux with hsame | ⟨hpend, -⟩
      · rwa [completedSet, queuedSet, hsame]
      · simp [completedSet, queuedSet, hpend] at hid

lemma Closes.stands (h : Closes run new) : Stands d run new := by
  cases h with
  | completed t => exact (Stands.refl d run).terminal .completed t
  | violated id error t => exact (Stands.setFailed rfl).terminal .failed t

lemma Dispatches.stands {ready : List StepDef} (hdisp : Dispatches d' run ready edited)
    (h : Halted d run) (hd : Predates d' (effectiveDef d run)) :
    ready = [] ∧ Stands (effectiveDef d run) run edited := by
  have hready : ready = [] := by
    have hlimit := limitSteps_sublist (resolveReadySteps_limit hdisp.resolution)
    rw [h.idle.openSteps h.apart hd] at hlimit
    exact List.sublist_nil.mp hlimit
  subst hready
  have honly := hdisp.only
  have hstep : ∀ id, edited.step id = (resolveSkips d' run).step id :=
    fun id => honly.other id (List.not_mem_nil)
  refine ⟨rfl, (h.idle.skips hd).trans (.of_status honly.dynamicSteps ?_ fun id _ => ?_)⟩
  · intro id hwork
    rwa [hstep] at hwork
  · rw [hstep]

lemma Resolved.dynamicSteps (h : Resolved d run site edited) :
    edited.dynamicSteps = run.dynamicSteps := by
  have hskips : (resolveSkips d run).dynamicSteps = run.dynamicSteps :=
    markSkipped_dynamicSteps run _
  cases h with
  | enqueued ready _ hdisp => exact hdisp.only.dynamicSteps.trans hskips
  | skipped _ _ hcloses => cases hcloses <;> exact hskips
  | closed _ _ hcloses => cases hcloses <;> rfl
  | unslept ready run' step error t hdisp =>
    exact hdisp.only.dynamicSteps.trans hskips

lemma Resolved.stands (hres : Resolved d' run site edited) (h : Halted d run)
    (hd : Predates d' (effectiveDef d run)) : Stands (effectiveDef d run) run edited := by
  cases hres with
  | enqueued ready _ hdisp => exact (hdisp.stands h hd).2
  | skipped _ _ hcloses => exact (h.idle.skips hd).trans hcloses.stands
  | closed _ _ hcloses => exact hcloses.stands
  | unslept ready run' step error t hdisp hmem =>
    rw [(hdisp.stands h hd).1] at hmem
    cases hmem

lemma CompletedBy.stands (h : CompletedBy o d' run e run') (hid : d.isAux e.stepID = true) :
    Stands d run run' :=
  .of_aux hid (by cases h <;> rfl) h.rests fun _ hne => h.other hne

lemma Instance.stands (h : Instance run e id status run') (hid : d.isAux id = true)
    (hstatus : status = (run.step id).status ∨ status = .completed ∨ status = .failed) :
    Stands d run run' :=
  .of_aux hid (by cases h; rfl) (h.rests hstatus) fun _ hne => h.other hne

lemma CompletedBy.concerns (h : CompletedBy o d run e run')
    (hdown : run'.recording.all (concernsWork run) = true) : (run.step e.stepID).atWork = true := by
  cases h with
  | fenced => exact hdown
  | unfenced _ _ hmap =>
    have hconcerns : concernsWork run ⟨e, false⟩ = true := hdown
    simpa [concernsWork, hmap] using hconcerns

lemma FailedBy.concerns (h : FailedBy o d run e run')
    (hdown : run'.recording.all (concernsWork run) = true) : (run.step e.stepID).atWork = true := by
  simpa [h.accepts.2.2, concernsWork] using hdown

lemma Instance.concerns (h : Instance run e id status run')
    (hdown : run'.recording.all (concernsWork run) = true) : (run.step id).atWork = true := by
  obtain ⟨hrec, hmap⟩ := h.recording
  obtain ⟨index, hparse⟩ := h.parse
  simpa [hrec, concernsWork, hmap, instanceAtWork, hparse] using hdown

/-- The step of a report that passed the fence is put to no more work. -/
lemma stands_acting (h : Halted d run) (hwork : (run.step e.stepID).atWork = true) :
    Stands (effectiveDef d run) run ((run.acting e true).setStep e.stepID s) :=
  .of_aux (h.aux hwork) rfl (rests_acting fun _ => hwork) fun _ hne =>
    (run.acting e true).step_setStep_of_ne s hne

lemma CompletedBy.advanced (hdone : CompletedBy o (effectiveDef d run) run e run')
    (h : Halted d run) (hwork : (run.step e.stepID).atWork = true) : Stands (effectiveDef d run) run
      (recoverIfOnFailure (effectiveDef d run) (advancedCopy (effectiveDef d run) run')
        e.stepID) := by
  have hreport : Stands (effectiveDef d run) run run' := hdone.stands (h.aux hwork)
  have hskips : Stands (effectiveDef d run) run (resolveSkips (effectiveDef d run) run') :=
    hreport.trans ((h.idle.settles h.apart hreport.toSettles).skips (.refl _))
  rw [standsApart_recover h.apart (h.undoing _ hwork), advancedCopy]
  split
  · exact ⟨⟨hskips.completed, hskips.settled⟩, hskips.dynamicSteps, hskips.rests⟩
  · exact hskips

lemma Halted.not_planner (h : Halted d run) (hdone : CompletedBy o (effectiveDef d run) run e run')
    (hplanner : ((effectiveDef d run).stepDef e.stepID).type = .planner)
    (hreport : run'.recording.all (concernsWork run) = true) : False :=
  (standsApart_stepDef h.apart (h.undoing _ (hdone.concerns hreport))).2 hplanner

lemma Concludes.down (h : Concludes o d run site edited) : staysDown site run edited =
    edited.recording.all (concernsWork run) ∧ site ≠ .compensateStart := by
  cases h with
  | awaited _ id output hsite => rcases hsite with rfl | rfl | rfl <;> exact ⟨rfl, by simp⟩
  | _ => exact ⟨rfl, by simp⟩

lemma Concludes.stands (hconc : Concludes o (effectiveDef d run) run site edited)
    (h : Halted d run) (hdown : edited.recording.all (concernsWork run) = true) :
    Stands (effectiveDef d run) run edited := by
  cases hconc with
  | reported e run' hdone =>
    rw [recovered_recording] at hdown
    exact hdone.advanced h (hdone.concerns hdown)
  | planned e _ hdone => exact hdone.stands (h.aux (hdone.concerns hdown))
  | mapped e id _ _ hinst =>
    exact hinst.stands (h.aux (hinst.concerns hdown)) (.inr (.inl rfl))
  | awaited _ id output _ hrunning =>
    refine .setStep (h.aux ?_) fun h => nomatch h
    simp [StepState.atWork, hrunning]

lemma FailedBy.stands {d0 : WorkflowDef} (hreport : FailedBy o d run e run')
    (hidle : Idle d run) (hapart : standsApart d0 d = true) : Stands d run run' := by
  have hfailed : Stands d run (failedCopy run e) :=
    .failed (by rw [step_failedCopy_self]) rfl fun _ hne => step_failedCopy_of_ne run hne
  cases hreport with
  | exhausted => exact hfailed
  | refused => exact hfailed.trans ((hidle.settles hapart hfailed.toSettles).skips (.refl _))

lemma Handled.stands (hhandled : Handled o (effectiveDef d run) run site edited)
    (h : Halted d run) (hdown : staysDown site run edited = true) :
    Stands (effectiveDef d run) run edited ∧ site ≠ .compensateStart := by
  cases hhandled with
  | continued e s | retried e s =>
    have hwork : (run.step e.stepID).atWork = true := hdown
    exact ⟨stands_acting h hwork, by simp⟩
  | exhausted e s t =>
    have hwork : (run.step e.stepID).atWork = true := hdown
    exact ⟨(stands_acting h hwork).terminal .failed t, by simp⟩
  | concluded _ _ hconc =>
    exact ⟨hconc.stands h (hconc.down.1 ▸ hdown), hconc.down.2⟩
  | closed site' run' _ hconc _ hcloses =>
    have hrec : edited.recording = run'.recording := by cases hcloses <;> rfl
    have hreport : run'.recording.all (concernsWork run) = true := hrec ▸ hdown
    exact ⟨(hconc.stands h hreport).trans hcloses.stands, by simp⟩
  | instance_ e id _ _ hinst =>
    exact ⟨hinst.stands (h.aux (hinst.concerns hdown)) (.inl rfl), by simp⟩
  | generated e run' fragment hdone hplanner =>
    exact (h.not_planner hdone hplanner
      (by simpa [staysDown, generated_recording] using hdown)).elim
  | misplanned e run' error t hdone =>
    have hreport := hdone.stands (h.aux (hdone.concerns hdown))
    exact ⟨(hreport.trans (.setFailed rfl)).terminal .failed t, by simp⟩
  | compensates e run' source n t hdone _ hsource =>
    have hreport : run'.recording.all (concernsWork run) = true := by
      rw [← recovered_recording (effectiveDef d run)]
      exact hdown
    have hadvanced := hdone.advanced h (hdone.concerns hreport)
    have hfound := List.find?_some hsource
    simp only [Bool.and_eq_true, decide_eq_true_eq] at hfound
    -- the next compensation has been in the queue since the start
    have hwork : ((recoverIfOnFailure (effectiveDef d run)
        (advancedCopy (effectiveDef d run) run') e.stepID).step
          source.compensate).atWork = true := by
      simp [StepState.atWork, hfound.2]
    have haux := h.aux (hadvanced.rests _ hwork)
    exact ⟨hadvanced.trans (.setStep haux fun _ => hwork), by simp⟩
  | compensated e run' t hdone =>
    have hreport : run'.recording.all (concernsWork run) = true := by
      rw [← recovered_recording (effectiveDef d run)]
      exact hdown
    exact ⟨(hdone.advanced h (hdone.concerns hreport)).terminal .compensated t, by simp⟩
  | routed e run' target n t hreport hplain | failed e run' t hreport hplain =>
    have hwork := hreport.concerns hdown
    rw [h.aux hwork] at hplain
    cases hplain
  | mapRouted e id run' target n t htype hinst honFailure =>
    have hwork := hinst.concerns hdown
    exact absurd (standsApart_stepDef h.apart (h.undoing id hwork)).1 honFailure
  | compensating e run' _ hreport hplain _ _ hreq =>
    have hwork := hreport.concerns (by rw [← hreq.same.2.1]; exact hdown)
    rw [h.aux hwork] at hplain
    cases hplain
  | auxFailed e run' t hreport =>
    exact ⟨(hreport.stands h.idle h.apart).terminal .compensateFailed t, by simp⟩
  | mapFailed e id run' t _ hinst =>
    exact ⟨(hinst.stands (h.aux (hinst.concerns hdown)) (.inr (.inr rfl))).terminal
      .failed t, by simp⟩
  | rejected id error t =>
    exact ⟨(Stands.setFailed rfl).terminal .failed t, by simp⟩
  | wedged t => exact ⟨(Stands.refl _ run).terminal .failed t, by simp⟩

/-! ## The start -/

def isUndoing (log : List Entry) (runID : String) : Bool :=
  log.any fun
    | .snapshot .compensateStart _ run => run.runID = runID
    | _ => false

def beginsAlone (d : WorkflowDef) (base new : WorkflowRun) : Bool :=
  new.recording.all fun report =>
    base.working = {report.event.stepID} && standsApart d (effectiveDef d base) &&
      (resolveReady (effectiveDef d base) (completedSet base) (queuedSet base)).isEmpty

def windsDown (o : Orchestrator) (d : WorkflowDef) (log : List Entry) (site : Site)
    (prior : Option ℕ) (new : WorkflowRun) : Bool :=
  match prior, World.latestIn new.runID log with
  | none, stored => stored.isNone
  | some _, some (_, base) => base.defHash ≠ o.defHash d ||
      ((site ≠ .compensateStart || beginsAlone d base new) &&
        (!isUndoing log new.runID || (staysDown site base new &&
          healsWith (fun d' => o.defHash d' = o.defHash d) log new.runID)))
  | some _, none => true

/-- The step that a task is for. -/
def servedStep (stepID : String) : String :=
  if isMapInstanceID stepID then
    match parseMapInstanceID stepID with
    | .ok (mapID, _) => mapID
    | .error _ => stepID
  else stepID

/-- Once the run is being compensated, the task is for a step at work in it. -/
def sendsWork (o : Orchestrator) (d : WorkflowDef) (log : List Entry) (t : TaskPayload) : Bool :=
  !isUndoing log t.runID || (World.latestIn t.runID log).all fun x =>
    x.2.defHash ≠ o.defHash d || (x.2.step (servedStep t.stepID)).atWork

lemma Authored.started {w : World} (h : Authored o w run .compensateStart edited) :
    ∃ d0 e run', PinnedTo o run d0 ∧ FailedBy o (effectiveDef d0 run) run e run' ∧
      resolveCompensateChain (effectiveDef d0 run) (completedSet run') ≠ [] ∧
      Requeued ((resolveCompensateChain (effectiveDef d0 run) (completedSet run')).map (·.id))
        run' edited := by
  cases h with
  | noted hnoted =>
    cases hnoted with
    | kept _ _ hbooks => cases hbooks
  | resolved d' _ hres => cases hres
  | handled d' heff hhandled =>
    obtain ⟨d0, hpinned, rfl⟩ := heff
    cases hhandled with
    | concluded _ _ hconc => exact absurd rfl hconc.down.2
    | compensating e run' _ hreport _ _ hchain hreq =>
      exact ⟨d0, e, run', hpinned, hreport, hchain, hreq⟩

lemma undoes_of_mem_chain {d0 : WorkflowDef} {completed : String → Bool}
    (hapart : standsApart d0 d = true)
    (h : id ∈ (resolveCompensateChain d completed).map (·.id)) : d.undoes id = true := by
  obtain ⟨s, hs, hne, -, rfl⟩ := exists_of_mem_chain (fun s => standsApart_declared hapart) h
  simpa [WorkflowDef.undoes, hne] using ⟨s, hs, rfl⟩

lemma beginsAlone_report (hlike : Alike base run) (hrec : new.recording = some ⟨e, true⟩)
    (h : beginsAlone d base new = true) : base.working = {e.stepID} ∧
    standsApart d (effectiveDef d run) = true ∧ Idle (effectiveDef d run) run := by
  have hdef : effectiveDef d base = effectiveDef d run :=
    (effectiveDef_congr hlike.dynamicSteps).symm
  simp only [beginsAlone, hrec, hdef, Option.all_some, Bool.and_eq_true,
    decide_eq_true_eq, List.isEmpty_iff] at h
  obtain ⟨⟨hworking, hapart⟩, hready⟩ := h
  exact ⟨hworking, hapart, Idle.settles hapart hready hlike.stands.toSettles⟩

section

variable (hlike : Alike base run) (hreport : FailedBy o (effectiveDef d run) run e run')
    (hreq : Requeued ((resolveCompensateChain (effectiveDef d run) (completedSet run')).map (·.id))
    run' edited)
include hlike hreport hreq

lemma mem_chain_of_started
    (hworking : base.working = {e.stepID}) (hwork : (edited.step id).atWork = true) :
    id ∈ (resolveCompensateChain (effectiveDef d run) (completedSet run')).map (·.id) := by
  by_contra hnot
  rw [hreq.step_of_not_mem hnot] at hwork
  have hbase : id ∈ base.working := by
    rw [← hlike.working, mem_working]
    exact hreport.rests.1 id hwork
  rw [hworking, Finset.mem_singleton] at hbase
  rw [hbase, hreport.rests.2] at hwork
  cases hwork

lemma halted_started
    (hbegins : beginsAlone d base edited = true) : Halted d edited := by
  have hrec : edited.recording = some ⟨e, true⟩ :=
    hreq.same.2.1.trans hreport.accepts.2.2
  obtain ⟨hworking, hapart, hidle⟩ := beginsAlone_report hlike hrec hbegins
  have hfailed := hreport.stands hidle hapart
  have hedited : effectiveDef d edited = effectiveDef d run :=
    effectiveDef_congr (hreq.same.2.2.trans hfailed.dynamicSteps)
  refine ⟨hedited ▸ hapart, fun id hwork => ?_, ?_⟩ <;> rw [hedited]
  · exact undoes_of_mem_chain hapart (mem_chain_of_started hlike hreport hreq hworking hwork)
  · refine (hidle.settles hapart hfailed.toSettles).settles hapart
      (.of_status fun id hplain => congrArg StepState.status (hreq.step_of_not_mem ?_))
    intro hin
    rw [standsApart_aux hapart (undoes_of_mem_chain hapart hin)] at hplain
    cases hplain

end

/-! ## Every write of every run -/

lemma concernsWork_congr (h : Alike base run) : concernsWork run = concernsWork base := by
  funext report
  simp only [concernsWork, h.atWork, h.instanceAtWork]

lemma staysDown_congr (h : Alike base run) (h' : Alike edited new)
    (hrec : new.recording = edited.recording) :
    staysDown site run edited = staysDown site base new := by
  simp only [staysDown, h.working, h'.working, hrec, concernsWork_congr h]

lemma beginsAlone_congr (hrec : new.recording = edited.recording) :
    beginsAlone d base edited = beginsAlone d base new := by
  simp only [beginsAlone, hrec]

/-- The terms under which forward execution stops. -/
abbrev windingTerms (o : Orchestrator) (d : WorkflowDef) : Terms :=
  (Terms.onWork (windsDown o d) (sendsWork o d)).catalogued o

lemma windingTerms_single (o : Orchestrator) (d : WorkflowDef) :
    LogOk.Single (windingTerms o d) := by
  intro log site run hengine
  have hwinds : windsDown o d log site none run = true := hengine.1.1 site none run rfl
  simpa [windsDown] using hwinds

lemma standsApart_effectiveDef (hapart : standsApart d (effectiveDef d base) = true)
    (hid : (effectiveDef d base).isAux id = true) (run : WorkflowRun) :
    d.isAux id = true ∧ (effectiveDef d run).isAux id = true := by
  simp only [standsApart, Bool.and_eq_true, List.all_eq_true] at hapart
  obtain ⟨haux, hbuilt⟩ := hapart.2 id (List.contains_iff_mem.mp hid)
  refine ⟨haux, ?_⟩
  unfold effectiveDef
  split
  · exact haux
  · rw [List.contains_iff_mem] at hbuilt
    simp only [WorkflowDef.isAux, buildAuxSteps, List.flatMap_append, List.contains_iff_mem,
      List.mem_append]
    exact .inl hbuilt

section

variable (hpins : Pins o base d)
include hpins

/-- Whatever definition the run is dispatched with is an older one of its own. -/
lemma Treats.predates (hlog : LogOk o (windingTerms o d) log)
    (hlatest : World.latestIn new.runID log = some (rev, base)) (hnew : new.defHash = base.defHash)
    (hdyn : new.dynamicSteps = base.dynamicSteps)
    (hapart : standsApart d (effectiveDef d base) = true)
    (hheals : healsWith (fun d' => o.defHash d' = o.defHash d) log new.runID = true)
    (h : Treats o { log := .snapshot site (some rev) new :: log } new.runID d') :
    Predates d' (effectiveDef d base) := by
  cases h with
  | drawn i stored d0 hwrote hid hpinned hdrawn =>
    obtain ⟨hhash, hsteps⟩ : stored.defHash = base.defHash ∧
        stored.dynamicSteps ⊆ base.dynamicSteps := by
      obtain ⟨site', prior, hat⟩ := hwrote
      rcases At.cons_iff.mp hat with ⟨-, heq⟩ | hat
      · injection heq with _ _ heq
        rw [heq]
        exact ⟨hnew, hdyn ▸ List.Subset.refl _⟩
      · have hsingle := windingTerms_single o d
        rw [← hid] at hlatest
        exact ⟨(hlog.defHash_eq hsingle ⟨site', prior, hat⟩ hlatest).symm,
          (hlog.dynamicSteps hsingle ⟨site', prior, hat⟩ hlatest).subset⟩
    obtain rfl := (hpins.congr hhash).eq hpinned
    refine ⟨fun s hs => ?_, fun id haux => ?_⟩
    · rw [effectiveDef_steps, List.mem_append]
      exact ((hdrawn.steps s).mp hs).imp_right fun hgenerated => hsteps hgenerated
    · rw [hdrawn.aux]
      exact (standsApart_effectiveDef hapart haux stored).2
  | healed e p hmem htype hdecode hid hdef =>
    have hhash := healsWith_definition hheals (by simpa using hmem) htype hdecode hid
      (by simpa using hdef)
    obtain rfl := hpins.unique d' (by simpa using hhash)
    refine ⟨fun s hs => ?_, fun id haux => (standsApart_effectiveDef hapart haux base).1⟩
    rw [effectiveDef_steps, List.mem_append]
    exact .inl hs

lemma windsDown_write (hlatest : World.latestIn new.runID log = some (rev, base))
    (hengine : (windingTerms o d).engine log (.snapshot site (some rev) new))
    (hundoing : isUndoing log new.runID = true) : staysDown site base new = true ∧
    healsWith (fun d' => o.defHash d' = o.defHash d) log new.runID = true := by
  have hwinds : windsDown o d log site (some rev) new = true := hengine.1.1 site (some rev) new rfl
  simp only [windsDown, hlatest, hpins.hash, ne_eq, not_true_eq_false, decide_false,
    Bool.false_or, Bool.and_eq_true, hundoing, Bool.not_true] at hwinds
  exact hwinds.2

lemma stands_write (hlog : LogOk o (windingTerms o d) log)
    (hundoing : isUndoing log new.runID = true)
    (hlatest : World.latestIn new.runID log = some (rev, base))
    (hwrite : WriteOk o log site rev base new)
    (hengine : (windingTerms o d).engine log (.snapshot site (some rev) new)) (h : Halted d base) :
    Stands (effectiveDef d base) base new ∧ site ≠ .compensateStart := by
  obtain ⟨run, edited, hlike, hrec, hauthored, hlike', hsame⟩ :=
    hengine.2 site rev new base rfl hlatest
  obtain ⟨hdown, hheals⟩ := windsDown_write hpins hlatest hengine hundoing
  rw [← staysDown_congr hlike hlike' hsame] at hdown
  have hdef : effectiveDef d run = effectiveDef d base := effectiveDef_congr hlike.dynamicSteps
  have hrun : Halted d run := h.stands hlike.stands
  suffices hedited : Stands (effectiveDef d run) run edited ∧ site ≠ .compensateStart by
    rw [hdef] at hedited
    exact ⟨hlike.stands.trans (hedited.1.trans hlike'.stands), hedited.2⟩
  cases hauthored with
  | noted hnoted =>
    refine ⟨hnoted.stands hrun hdown, ?_⟩
    rintro rfl
    cases hnoted with
    | kept _ _ hbooks => cases hbooks
  | resolved d' htreats hres =>
    have hrunID : run.runID = new.runID := hlike.runID.trans (World.latestIn_wrote hlatest).2
    have hdyn : new.dynamicSteps = base.dynamicSteps :=
      hlike'.dynamicSteps.trans (hres.dynamicSteps.trans hlike.dynamicSteps)
    rw [hrunID] at htreats
    have hpredates := htreats.predates hpins hlog hlatest hwrite.defHash hdyn h.apart hheals
    refine ⟨hres.stands hrun (hdef ▸ hpredates), ?_⟩
    rintro rfl
    cases hres
  | handled d' heff hhandled =>
    obtain ⟨d0, hpinned, rfl⟩ := heff
    obtain rfl := (hpins.congr hlike.defHash).eq hpinned
    exact hhandled.stands hrun hdown

section

variable (hlatest : World.latestIn new.runID log = some (rev, base))
  (hengine : (windingTerms o d).engine log (.snapshot .compensateStart (some rev) new))
include hlatest hengine

lemma beginsAlone_write : beginsAlone d base new = true := by
  have hwinds : windsDown o d log .compensateStart (some rev) new = true :=
    hengine.1.1 .compensateStart (some rev) new rfl
  simp only [windsDown, hlatest, hpins.hash, ne_eq, not_true_eq_false, decide_false,
    Bool.false_or, Bool.and_eq_true] at hwinds
  exact hwinds.1

lemma halted_write : Halted d new := by
  obtain ⟨run, edited, hlike, hrec, hauthored, hlike', hsame⟩ :=
    hengine.2 .compensateStart rev new base rfl hlatest
  have hbegins := beginsAlone_write hpins hlatest hengine
  obtain ⟨d0, e, run', hpinned, hreport, -, hreq⟩ := hauthored.started
  obtain rfl := (hpins.congr hlike.defHash).eq hpinned
  rw [← beginsAlone_congr hsame] at hbegins
  exact (halted_started hlike hreport hreq hbegins).stands hlike'.stands

end

end

lemma isUndoing_of_at {i : ℕ} {prior : Option ℕ}
    (h : At log i (.snapshot .compensateStart prior run)) : isUndoing log run.runID = true :=
  List.any_eq_true.mpr ⟨_, h.mem, by simp⟩

section

variable (hlog : LogOk o (windingTerms o d) log) {i : ℕ} {prior : Option ℕ}
  (hstart : At log i (.snapshot .compensateStart prior run)) (hpins : Pins o run d)
include hlog hstart hpins

lemma halted_start : Halted d run := by
  obtain ⟨older, -, -, hold, happended⟩ := hlog.entry hstart
  have hcons : LogOk o (windingTerms o d) (.snapshot .compensateStart prior run :: older) :=
    hold.cons happended
  rcases hcons.write with ⟨rev, base, rfl, hlatest, hok⟩ | ⟨-, hcreate⟩
  · exact halted_write (hpins.congr hok.defHash.symm) hlatest hcons.engine
  · rcases hcreate.place with hplace | hplace | hplace | hplace <;> cases hplace

/-- What is stored of the run after the start of its compensation. -/
lemma stored_halted (hlatest : World.latestIn run.runID log = some (rev, base)) :
    Pins o base d ∧ Halted d base ∧ base.dynamicSteps = run.dynamicSteps := by
  obtain ⟨hbase, hbaseID⟩ := World.latestIn_wrote hlatest
  refine LogOk.after (P := fun r => Pins o r d ∧ Halted d r ∧ r.dynamicSteps = run.dynamicSteps)
    hlog (windingTerms_single o d) ⟨hpins, halted_start hlog hstart hpins, rfl⟩ ?_ hstart hbase
    hbaseID (World.le_of_latestIn hlatest ⟨_, _, hstart⟩ rfl)
  intro log site rev base new hlog hat hnew hlatest hok hengine ⟨hpins, hhalted, hdyn⟩
  have hundoing : isUndoing log new.runID = true := hnew ▸ isUndoing_of_at hat
  have hstands := (stands_write hpins hlog hundoing hlatest hok hengine hhalted).1
  exact ⟨hpins.congr hok.defHash, hhalted.stands hstands, hstands.dynamicSteps.trans hdyn⟩

end

namespace Saga

/-- Three steps in a row, the first two with a compensation. -/
def chain : WorkflowDef where
  name := "chain"
  steps := [{ id := "a", task := "work", compensate := "u" },
    { id := "b", task := "work", dependsOn := ["a"], compensate := "v" },
    { id := "c", task := "work", dependsOn := ["b"] }, { id := "u", task := "undo" },
    { id := "v", task := "undo" }]
  auxSteps := ["u", "v"]

/-- Two steps side by side after the first, and one after the second of them. -/
def fork : WorkflowDef where
  name := "fork"
  steps := [{ id := "a", task := "work", compensate := "u" },
    { id := "b", task := "work", dependsOn := ["a"] },
    { id := "c", task := "work", dependsOn := ["a"] },
    { id := "e", task := "work", dependsOn := ["c"] }, { id := "u", task := "undo" }]
  auxSteps := ["u"]

lemma pins {d : WorkflowDef} {run : WorkflowRun} (hsame : d.same d = true)
    (hhash : run.defHash = (knowing d).defHash d) : Pins (knowing d) run d :=
  ⟨hhash, by simp [knowing, Orchestrator.pinning, hsame],
    fun _ => Orchestrator.pinning_unique hsame⟩

end Saga

end Dagnats
