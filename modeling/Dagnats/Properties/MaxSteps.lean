import Dagnats.Engine.Effects
import Dagnats.Engine.Scenario

/-!
# How many steps are at work

`MaxSteps` is applied in one place: `resolveReadySteps` cuts the list of ready
steps to what the limit leaves. Steps are put to work elsewhere too: the start
of a compensation queues the whole chain, a late `step.queued` or `step.started`
revives a step at rest, and a report about a step that is not at work brings in
its on-failure step without anything leaving.

The bound is proved for the runs whose writes of these kinds find room. Every
other write of the catalogue only puts steps to rest or obeys the limit.
-/

namespace Dagnats

open Interaction

variable {o : Orchestrator} {d : WorkflowDef} {run run' edited base new : WorkflowRun} {id : String}
  {site : Site} {e : Event} {log : List Entry}

lemma card_working_le (run : WorkflowRun) : run.working.card ≤ countActiveSteps run := by
  rw [countActiveSteps_eq, List.countP_eq_length_filter]
  exact List.toFinset_card_le _

lemma Rests.card (h : Rests run run') : run'.working.card ≤ run.working.card :=
  Finset.card_le_card h.working

/-! ## Room -/

def WorkflowDef.maxSteps (d : WorkflowDef) : ℤ :=
  (d.concurrency.map (·.maxSteps)).getD 0

section

variable (d : WorkflowDef)

/-- One more step may be put to work. -/
def leavesRoom (run : WorkflowRun) : Bool :=
  (run.working.card : ℤ) < d.maxSteps

def compensations (run : WorkflowRun) (e : Event) : Finset String :=
  ((resolveCompensateChain d (completedSet (afterFailure d run e))).map (·.id)).toFinset

/-- A write at a place that does not look at the limit finds room: a marker event for
what it puts to work, a failure for the on-failure step unless the failed step leaves
its place, a compensation for the whole chain. -/
def findsRoom (site : Site) (base new : WorkflowRun) : Bool :=
  match site with
  | .stepQueued | .stepStarted => decide (new.working ⊆ base.working) || leavesRoom d base
  | .onFailure => new.recording.all fun report =>
    (base.step report.event.stepID).atWork || leavesRoom d base
  | .mapOnFailure => new.recording.all fun report =>
    instanceAtWork base report.event || leavesRoom d base
  | .compensateStart => new.recording.all fun report =>
    ((base.working.erase report.event.stepID ∪
      compensations (effectiveDef d base) base report.event).card : ℤ) ≤ d.maxSteps
  | _ => true

/-- A child is healed with definitions of the same limit only. -/
def healsAlike (log : List Entry) (runID : String) : Bool :=
  healsWith (fun d' => d'.maxSteps = d.maxSteps) log runID

end

def keepsRoom (o : Orchestrator) (d : WorkflowDef) (log : List Entry) (site : Site)
    (prior : Option ℕ) (new : WorkflowRun) : Bool :=
  match prior, World.latestIn new.runID log with
  | none, stored => stored.isNone
  | some _, some (_, base) => base.defHash ≠ o.defHash d ||
      (healsAlike d log new.runID && findsRoom d site base new)
  | some _, none => true

/-! ## One write -/

lemma Dispatches.card {ready : List StepDef} (h : Dispatches d run ready edited)
    (hlimit : 0 < d.maxSteps) : (edited.working.card : ℤ) ≤ d.maxSteps := by
  have hready : (ready.length : ℤ) + countActiveSteps (resolveSkips d run) ≤ d.maxSteps := by
    have hlength := resolveReadySteps_limit h.resolution
    unfold limitSteps at hlength
    unfold WorkflowDef.maxSteps at hlimit ⊢
    split at hlength
    · next hnone => simp [hnone] at hlimit
    · next limit hsome =>
      rw [hsome] at hlimit ⊢
      simp only [Option.map_some, Option.getD_some] at hlimit ⊢
      rw [if_pos hlimit] at hlength
      dsimp only at hlength
      split at hlength
      · cases hlength
      · next havailable =>
        have hle := congrArg List.length (Option.some.inj hlength)
        rw [List.length_take] at hle
        omega
  have hsubset : edited.working ⊆ (resolveSkips d run).working ∪ (ready.map (·.id)).toFinset := by
    intro id hid
    rw [Finset.mem_union, List.mem_toFinset]
    by_cases hin : id ∈ ready.map (·.id)
    · exact .inr hin
    · rw [mem_working, h.only.other id hin] at hid
      exact .inl (mem_working.mpr hid)
  have hcard := (Finset.card_le_card hsubset).trans (Finset.card_union_le _ _)
  have hids := List.toFinset_card_le (ready.map (·.id))
  rw [List.length_map] at hids
  have hactive := card_working_le (resolveSkips d run)
  omega

lemma Resolved.card (h : Resolved d run site edited) (hlimit : 0 < d.maxSteps)
    (hrun : (run.working.card : ℤ) ≤ d.maxSteps) : (edited.working.card : ℤ) ≤ d.maxSteps := by
  cases h with
  | enqueued ready _ hdisp => exact hdisp.card hlimit
  | skipped _ _ hcloses =>
    have hle := ((rests_resolveSkips d run).trans hcloses.rests).card
    omega
  | closed _ _ hcloses =>
    have hle := hcloses.rests.card
    omega
  | unslept ready run' step error t hdisp =>
    have hle : (markTerminal (run'.setStep step.id
      { run'.step step.id with status := .failed, error := error }) .failed t).working.card ≤
        run'.working.card := rests_failed.card
    have hbound := hdisp.card hlimit
    omega

lemma working_setStep (run : WorkflowRun) (id : String) (s : StepState) :
    (run.setStep id s).working ⊆ insert id run.working := by
  intro other hother
  rw [Finset.mem_insert]
  by_cases hid : id = other
  · exact .inl hid.symm
  · rw [mem_working, run.step_setStep_of_ne s hid] at hother
    exact .inr (mem_working.mpr hother)

lemma card_marked {s : StepState}
    (hroom : (decide ((run.setStep id s).working ⊆ run.working) || leavesRoom d run) = true)
    (hrun : (run.working.card : ℤ) ≤ d.maxSteps) :
    ((run.setStep id s).working.card : ℤ) ≤ d.maxSteps := by
  rw [Bool.or_eq_true, decide_eq_true_eq] at hroom
  rcases hroom with hsubset | hroom
  · have hle := Finset.card_le_card hsubset
    omega
  · have hle := (Finset.card_le_card (working_setStep run id s)).trans (Finset.card_insert_le _ _)
    have hlt : (run.working.card : ℤ) < d.maxSteps := by simpa [leavesRoom] using hroom
    omega

lemma Noted.card (h : Noted run site edited) (hroom : findsRoom d site run edited = true)
    (hrun : (run.working.card : ℤ) ≤ d.maxSteps) : (edited.working.card : ℤ) ≤ d.maxSteps := by
  have hrests : Rests run edited → (edited.working.card : ℤ) ≤ d.maxSteps := by
    intro hrests
    have hle := hrests.card
    omega
  cases h with
  | kept _ _ hbooks hlike => exact hrests hlike.rests
  | woken id b => exact hrests (rests_setStep fun h => h)
  | advanced deadline => exact hrests (.refl run)
  | cancelled t => exact hrests rests_cancelUnfinishedSteps
  | queued e | started e t => exact card_marked hroom hrun

/-- A handler comes in where the failed step `id` was at work, or where there is
room. -/
lemma card_replaced {target : String} {n : ℕ} {t : Time} (h : Rests run run')
    (hrest : (run'.step id).atWork = false)
    (hroom : (run.step id).atWork = true ∨ leavesRoom d run = true)
    (hrun : (run.working.card : ℤ) ≤ d.maxSteps) :
    ((run'.requeued target n t).working.card : ℤ) ≤ d.maxSteps := by
  have hcard : (run'.requeued target n t).working.card ≤ run'.working.card + 1 :=
    (Finset.card_le_card (working_setStep run' target _)).trans (Finset.card_insert_le _ _)
  rcases hroom with hwork | hroom
  · have hsubset : run'.working ⊆ run.working.erase id := by
      intro other hother
      refine Finset.mem_erase.mpr ⟨?_, h.working hother⟩
      rintro rfl
      rw [mem_working, hrest] at hother
      cases hother
    have hle := Finset.card_le_card hsubset
    rw [Finset.card_erase_of_mem (mem_working.mpr hwork)] at hle
    have hpos := Finset.card_pos.mpr ⟨id, mem_working.mpr hwork⟩
    omega
  · have hle := h.card
    have hlt : (run.working.card : ℤ) < d.maxSteps := by simpa [leavesRoom] using hroom
    omega

lemma Handled.card (h : Handled o (effectiveDef d run) run site edited)
    (hroom : findsRoom d site run edited = true) (hrun : (run.working.card : ℤ) ≤ d.maxSteps) :
    (edited.working.card : ℤ) ≤ d.maxSteps := by
  have hrests : Rests run edited → (edited.working.card : ℤ) ≤ d.maxSteps := by
    intro hrests
    have hle := hrests.card
    omega
  cases h with
  | continued e s _ _ hs | retried e s _ _ hs =>
    exact hrests (rests_acting fun hwork => by simpa [StepState.atWork, hs] using hwork)
  | exhausted e s t _ _ hs =>
    exact hrests (rests_acting fun hwork => by simp [StepState.atWork, hs] at hwork)
  | concluded _ _ hconc => exact hrests hconc.rests
  | closed _ _ _ hconc _ hcloses =>
    exact hrests (hconc.rests.trans hcloses.rests)
  | instance_ e id _ _ hinst => exact hrests (hinst.rests (.inl rfl))
  | generated e run' fragment hdone =>
    exact hrests (hdone.rests.trans (rests_generated fragment run'))
  | misplanned e run' error t hdone =>
    exact hrests (hdone.rests.trans (rests_failed : Rests run' (run'.setStep e.stepID _)))
  | compensates e run' source n t hdone _ hsource =>
    have hqueued := List.find?_some hsource
    simp only [Bool.and_eq_true, decide_eq_true_eq] at hqueued
    have hstep : Rests (recoverIfOnFailure (effectiveDef d run)
        (advancedCopy (effectiveDef d run) run') e.stepID)
        ((recoverIfOnFailure (effectiveDef d run)
          (advancedCopy (effectiveDef d run) run') e.stepID).requeued source.compensate n t) :=
      rests_setStep fun _ => by simp [StepState.atWork, hqueued.2]
    exact hrests ((hdone.rests.trans rests_recovered).trans hstep)
  | compensated e run' t hdone =>
    exact hrests (hdone.rests.trans rests_recovered)
  | routed e run' target n t hreport =>
    obtain ⟨hrest, hidle⟩ := hreport.rests
    refine card_replaced hrest hidle ?_ hrun
    have hrec : (run'.requeued target.id n t).recording = some ⟨e, true⟩ :=
      hreport.accepts.2.2
    simpa [findsRoom, hrec] using hroom
  | mapRouted e id run' target n t htype hinst =>
    obtain ⟨index, hparse⟩ := hinst.parse
    have hrec : (run'.requeued target.id n t).recording = some ⟨e, false⟩ :=
      hinst.recording.1
    have hidle : (run'.step id).atWork = false := by
      simp [StepState.atWork, hinst.step]
    refine card_replaced (hinst.rests (.inr (.inr rfl))) hidle ?_ hrun
    simpa [findsRoom, hrec, instanceAtWork, hparse] using hroom
  | compensating e run' _ hreport _ _ _ hreq =>
    have hrec : edited.recording = some ⟨e, true⟩ :=
      hreq.same.2.1.trans hreport.accepts.2.2
    have hchain : ((run.working.erase e.stepID ∪
        compensations (effectiveDef d run) run e).card : ℤ) ≤ d.maxSteps := by
      simpa [findsRoom, hrec] using hroom
    have hsubset : edited.working ⊆ run.working.erase e.stepID ∪
        compensations (effectiveDef d run) run e := by
      intro id hid
      rw [Finset.mem_union]
      by_cases hin : id ∈ (resolveCompensateChain (effectiveDef d run)
          (completedSet run')).map (·.id)
      · rw [hreport.eq] at hin
        exact .inr (List.mem_toFinset.mpr hin)
      · rw [mem_working, hreq.step_of_not_mem hin] at hid
        refine .inl (Finset.mem_erase.mpr ⟨?_, mem_working.mpr (hreport.rests.1 id hid)⟩)
        rintro rfl
        rw [hreport.rests.2] at hid
        cases hid
    have hle := Finset.card_le_card hsubset
    omega
  | failed e run' t hreport | auxFailed e run' t hreport => exact hrests hreport.rests.1
  | mapFailed e id run' t _ hinst => exact hrests (hinst.rests (.inr (.inr rfl)))
  | rejected id error t =>
    exact hrests (rests_failed : Rests run (run.setStep id _))
  | wedged t => exact hrests (.refl run)

/-! ## Every write of every run -/

lemma compensations_congr (h : Alike base run) :
    compensations d run e = compensations d base e := by
  have hdone : completedSet (afterFailure d run e) = completedSet (afterFailure d base e) := by
    funext id
    simp only [completedSet, status_afterFailure_congr h]
  rw [compensations, compensations, hdone]

lemma findsRoom_congr (h : Alike base run) (h' : Alike edited new)
    (hrec : new.recording = edited.recording) :
    findsRoom d site run edited = findsRoom d site base new := by
  simp only [findsRoom, leavesRoom, h.working, h'.working, hrec, h.atWork, h.instanceAtWork,
    effectiveDef_congr (d := d) h.dynamicSteps, compensations_congr h]

/-- A definition with a limit, known by a hash of its own. -/
structure Governs (o : Orchestrator) (d : WorkflowDef) : Prop where
  limit : 0 < d.maxSteps
  named : o.defHash d ≠ ""
  unique : ∀ d', o.defHash d' = o.defHash d → d' = d

lemma Governs.eq {d0 : WorkflowDef} (h : Governs o d)
    (hhash : run.defHash = o.defHash d) (hpinned : PinnedTo o run d0) : d0 = d := by
  have hpins : Pins o run d := ⟨hhash, h.named, h.unique⟩
  exact hpins.eq hpinned

/-- The terms under which the bound is proved. -/
abbrev roomyTerms (o : Orchestrator) (d : WorkflowDef) : Terms :=
  (Terms.onWrites (keepsRoom o d)).catalogued o

lemma roomyTerms_single : LogOk.Single (roomyTerms o d) := by
  intro log site run hengine
  have hkeeps : keepsRoom o d log site none run = true := hengine.1 site none run rfl
  simpa [keepsRoom] using hkeeps

section

variable {rev : ℕ} (hd : Governs o d) (hlog : LogOk o (roomyTerms o d) log)
  (hlatest : World.latestIn new.runID log = some (rev, base))
include hd hlog hlatest

/-- Whatever definition a run under `d` is dispatched with has the limit of `d`. -/
lemma Treats.maxSteps {d' : WorkflowDef} (hbase : base.defHash = o.defHash d)
    (hnew : new.defHash = base.defHash)
    (hheals : healsAlike d log new.runID = true)
    (h : Treats o { log := .snapshot site (some rev) new :: log } new.runID d') :
    d'.maxSteps = d.maxSteps := by
  cases h with
  | drawn i stored d0 hwrote hid hpinned hdrawn =>
    have hhash : stored.defHash = o.defHash d := by
      obtain ⟨site', prior, hat⟩ := hwrote
      rcases At.cons_iff.mp hat with ⟨-, heq⟩ | hat
      · injection heq with _ _ heq
        rw [heq, hnew, hbase]
      · have hsame := hlog.defHash_eq roomyTerms_single ⟨site', prior, hat⟩ (hid ▸ hlatest)
        rw [← hsame, hbase]
    obtain rfl := hd.eq hhash hpinned
    rw [WorkflowDef.maxSteps, hdrawn.concurrency, WorkflowDef.maxSteps]
  | healed e p hmem htype hdecode hid hdef =>
    have hmax := healsWith_definition hheals (by simpa using hmem) htype hdecode hid
      (by simpa using hdef)
    simpa using hmax

lemma card_write (hwrite : WriteOk o log site rev base new)
    (hengine : (roomyTerms o d).engine log (.snapshot site (some rev) new))
    (hbound : (base.working.card : ℤ) ≤ d.maxSteps) (hhash : new.defHash = o.defHash d) :
    (new.working.card : ℤ) ≤ d.maxSteps := by
  have hnew := hwrite.defHash
  have hbase : base.defHash = o.defHash d := hnew.symm.trans hhash
  obtain ⟨run, edited, hlike, hrec, hauthored, hlike', hsame⟩ :=
    hengine.2 site rev new base rfl hlatest
  have hkeeps : keepsRoom o d log site (some rev) new = true := hengine.1 site (some rev) new rfl
  simp only [keepsRoom, hlatest, hbase, ne_eq, not_true_eq_false, decide_false,
    Bool.false_or, Bool.and_eq_true] at hkeeps
  obtain ⟨hheals, hroom⟩ := hkeeps
  rw [← findsRoom_congr hlike hlike' hsame] at hroom
  rw [← hlike.working] at hbound
  rw [hlike'.working]
  have hrunID : run.runID = new.runID := hlike.runID.trans (World.latestIn_wrote hlatest).2
  cases hauthored with
  | noted hnoted => exact hnoted.card hroom hbound
  | resolved d' htreats hres =>
    rw [hrunID] at htreats
    have hmax := Treats.maxSteps hd hlog hlatest hbase hnew hheals htreats
    rw [← hmax] at hbound ⊢
    exact hres.card (hmax ▸ hd.limit) hbound
  | handled d' heff hhandled =>
    obtain ⟨d0, hpinned, rfl⟩ := heff
    obtain rfl := hd.eq (hlike.defHash.trans hbase) hpinned
    exact hhandled.card hroom hbound

end

/-- In every run of the engines in which no run is created over a stored one and the
writes that do not look at the limit find room, no snapshot of a run under `d` has
more steps at work than `d` allows. -/
theorem maxSteps_respected (hd : Governs o d) {p : Pool o.system}
    (h : Pool.Reaches ((Terms.onWrites (keepsRoom o d)).conditions o) (emptyPool o) p)
    {rev : ℕ} (hrun : Wrote p.state.log rev run) (hhash : run.defHash = o.defHash d) :
    (run.working.card : ℤ) ≤ d.maxSteps := by
  refine LogOk.stored (P := fun _ run => run.defHash = o.defHash d →
    (run.working.card : ℤ) ≤ d.maxSteps) (reaches_catalogued h) (fun _ h => h) ?_ ?_ hrun hhash
  · intro log site run hcreate _ _
    have hidle : run.working = ∅ := by
      refine Finset.eq_empty_of_forall_notMem fun id hid => ?_
      rw [mem_working] at hid
      obtain ⟨error, completedAt, hstep | hstep⟩ := hcreate.steps id <;>
        simp [hstep, StepState.atWork] at hid
    rw [hidle, Finset.card_empty]
    exact hd.limit.le
  · intro log site rev base run hlog hlatest hwrite hengine hbase hhash
    exact card_write hd hlog hlatest hwrite hengine (hbase (hwrite.defHash ▸ hhash)) hhash

/-! ## One step at a time -/

namespace OneByOne

/-- Two steps with a compensation, and a third one. -/
def undo : WorkflowDef where
  name := "undo"
  concurrency := some { maxSteps := 1 }
  steps := [{ id := "a", task := "work", compensate := "u" },
    { id := "b", task := "work", dependsOn := ["a"], compensate := "v" },
    { id := "c", task := "work", dependsOn := ["b"] }, { id := "u", task := "undo" },
    { id := "v", task := "undo" }]
  auxSteps := ["u", "v"]

/-- Two independent steps, the first with an on-failure step. -/
def mend : WorkflowDef where
  name := "mend"
  concurrency := some { maxSteps := 1 }
  steps := [{ id := "a", task := "work", onFailure := "h" }, { id := "b", task := "work" },
    { id := "h", task := "mend" }]
  auxSteps := ["h"]

lemma governs {d : WorkflowDef} (hlimit : 0 < d.maxSteps) (hsame : d.same d = true) :
    Governs (knowing d) d :=
  ⟨hlimit, by simp [knowing, Orchestrator.pinning, hsame],
    fun _ => Orchestrator.pinning_unique hsame⟩

/-- `a` completes, and `b` is the only step at work. -/
theorem next_step_alone : ∃ (p : Pool (knowing undo).system) (rev : ℕ) (run : WorkflowRun),
      Governs (knowing undo) undo ∧
      Pool.Reaches ((Terms.onWrites (keepsRoom (knowing undo) undo)).conditions (knowing undo))
        (emptyPool (knowing undo)) p ∧
      Wrote p.state.log rev run ∧ run.defHash = (knowing undo).defHash undo ∧
      (run.step "b").status = .queued ∧ (run.working.card : ℤ) ≤ undo.maxSteps := by
  obtain ⟨p, hp, htest⟩ := Pool.reaches_of_script
    (Terms.checks_sound (keepsRoom (knowing undo) undo)) (emptyPool (knowing undo))
    (launched _ undo ++ replied .stepCompleted "a" 5 10) (fun p => p.state.wroteAt 13 fun run =>
        run.defHash = (knowing undo).defHash undo && (run.step "b").status = .queued)
  obtain ⟨run, hrun, htest⟩ := World.wroteAt_wrote htest
  simp only [Bool.and_eq_true, decide_eq_true_eq] at htest
  have hgoverns := governs (d := undo) (by decide) (by decide)
  exact ⟨p, 13, run, hgoverns, hp, hrun, htest.1, htest.2,
    maxSteps_respected hgoverns hp hrun htest.1⟩

/-- A snapshot with more steps at work than the definition allows is reached. -/
def Exceeds (d : WorkflowDef) : Prop :=
  Valid (knowing d) d ∧ Governs (knowing d) d ∧
  ∃ (p : Pool (knowing d).system) (rev : ℕ) (run : WorkflowRun),
    Pool.Reaches Conditions.free (emptyPool (knowing d)) p ∧ Wrote p.state.log rev run ∧
    run.defHash = (knowing d).defHash d ∧ d.maxSteps < run.working.card

lemma exceeds_of_script {d : WorkflowDef} (i : ℕ) (script : List (Order (knowing d).system))
    (hvalid : Valid (knowing d) d) (hgoverns : Governs (knowing d) d)
    (hscript : ((emptyPool (knowing d)).follow Checks.free script).any
      (fun p => p.state.wroteAt i fun run => run.defHash = (knowing d).defHash d &&
        d.maxSteps < run.working.card) = true) : Exceeds d := by
  obtain ⟨p, hp, htest⟩ := Pool.exists_reaches_of_follow Checks.free_sound hscript
  obtain ⟨run, hrun, htest⟩ := World.wroteAt_wrote htest
  simp only [Bool.and_eq_true, decide_eq_true_eq] at htest
  exact ⟨hvalid, hgoverns, p, i, run, hp, hrun, htest.1, htest.2⟩

/-- `c` fails, and both compensations are queued; and a late `step.queued` of `a`,
which was recovered, queues it again beside `b`. -/
theorem limit_exceeded : Exceeds undo ∧ Exceeds mend := by
  constructor
  · refine exceeds_of_script 27 (launched _ undo ++ replied .stepCompleted "a" 5 10 ++
      replied .stepCompleted "b" 12 17 ++
      replied .stepFailed "c" 19 24)
      (by decide +kernel) (governs (by decide) (by decide)) (by decide +kernel)
  · refine exceeds_of_script 21 (launched _ mend ++ replied .stepFailed "a" 5 10 ++
      replied .stepCompleted "h" 11 14 ++
      perform (.handle 7))
      (by decide +kernel) (governs (by decide) (by decide)) (by decide +kernel)

end OneByOne

end Dagnats
