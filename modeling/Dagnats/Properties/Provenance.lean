import Dagnats.Engine.Lineage
import Dagnats.Engine.Scenario

/-!
# What every log of the engines has in common

For any number of engines, in any order of their calls, with lost answers, crashes
and redeliveries: a dispatch answers to one step of one run, a write goes on from
the run it is made over, and what a run holds is given back once it has ended.
-/

namespace Dagnats

open Interaction

variable {o : Orchestrator} {p : Pool o.system} {log : List Entry} {rev i : ℕ}
  {run run' base : WorkflowRun} {id : String} {e : Event} {s s' s'' : StepState} {site : Site}

namespace Logged

def workflow : WorkflowDef where
  name := "solo"
  steps := [{ id := "a", task := "work" }]
  singleton := some { mode := .skip }

/-- A run that takes its lock, does its step and ends. -/
def script : List (Order Orchestrator.plain.system) :=
  launched _ workflow ++ replied .stepCompleted "a" 6 11

end Logged

/-! ## The fence -/

lemma nonce_of_accepted {legacy : Bool} (h : acceptStepEvent s e legacy = none)
    (hidentity : e.hasIdentity = true) (hnonce : e.dispatchNonce ≠ none) :
    s.dispatchNonce = e.dispatchNonce := by
  unfold acceptStepEvent at h
  grind

/-- **One step for each dispatch.**  An answer with a nonce that passes the fence of a step
passes the fence of no other step, of this run or of another, at any time. -/
theorem fence_separates_steps (h : Pool.Reaches Conditions.free (emptyPool o) p)
    (hrun : Wrote p.state.log i run) (hidentity : e.hasIdentity = true)
    (hnonce : e.dispatchNonce ≠ none)
    (haccept : acceptStepEvent (run.step id) e o.legacyStepEvents = none) :
    ∀ j other id', Wrote p.state.log j other →
      acceptStepEvent (other.step id') e o.legacyStepEvents = none →
      other.runID = run.runID ∧ id' = id := by
  intro j other id' hother haccept'
  have hlog := reaches_logOk_free h
  have heq := nonce_of_accepted haccept hidentity hnonce
  have heq' := nonce_of_accepted haccept' hidentity hnonce
  obtain ⟨n, m, hn, hat, hm, hstep, -⟩ := (hlog.allTraced hrun id).minted (heq ▸ hnonce)
  obtain ⟨n', m', hn', hat', hm', hstep', -⟩ := (hlog.allTraced hother id').minted (heq' ▸ hnonce)
  obtain rfl : n' = n := Option.some.inj (by rw [← hn', ← hn, heq, heq'])
  obtain rfl : m' = m := by simpa using hat'.unique hat
  exact ⟨hm'.symm.trans hm, hstep'.symm.trans hstep⟩

theorem Logged.answer_for_one_step : ∃ p, Pool.Reaches Conditions.free (emptyPool .plain) p ∧
    ∃ run, Wrote p.state.log 10 run ∧ ∀ j other id, Wrote p.state.log j other →
      acceptStepEvent (other.step id) (answered .stepCompleted "a" 6) false = none →
      other.runID = run.runID ∧ id = "a" := by
  obtain ⟨p, hp, htest⟩ := reaches_free _ script fun p => p.state.wroteAt 10 fun run =>
    acceptStepEvent (run.step "a") (answered .stepCompleted "a" 6) false = none
  obtain ⟨run, hrun, haccept⟩ := World.wroteAt_wrote htest
  exact ⟨p, hp, run, hrun,
    fence_separates_steps hp hrun rfl (by decide) (of_decide_eq_true haccept)⟩

/-! ## Writes -/

/-- A step after a write over the run stored at `rev`: no counter goes back, and a new
nonce was minted after that run was stored. -/
structure Onward (rev : ℕ) (s s' : StepState) : Prop where
  attempts : s.attempts ≤ s'.attempts
  iterations : s.iterations ≤ s'.iterations
  nonce : s'.dispatchNonce = s.dispatchNonce ∨ Renewed rev s'

namespace Onward

lemma refl (s : StepState) : Onward rev s s :=
  ⟨le_rfl, le_rfl, .inl rfl⟩

lemma trans (h : Onward rev s s') (h' : Onward rev s' s'') : Onward rev s s'' := by
  refine ⟨h.attempts.trans h'.attempts, h.iterations.trans h'.iterations, ?_⟩
  rcases h'.nonce with heq | hnew
  · unfold Renewed
    rw [heq]
    exact h.nonce
  · exact .inr hnew

lemma adopted : Onward rev s (adopted s e) := by
  unfold Dagnats.adopted
  split
  · next h => exact ⟨h.2.2.le, le_rfl, .inl rfl⟩
  · exact refl s

lemma failing : Onward rev s (failing s e) :=
  adopted.trans ⟨le_max_left _ _, le_rfl, .inl rfl⟩

lemma started (t : Time) : Onward rev s (startedState s e t).1 := by
  have hrest : (startedState s e t).1.iterations = s.iterations ∧
      (startedState s e t).1.dispatchNonce = s.dispatchNonce := by
    unfold startedState startAttemptClock
    grind
  exact ⟨(le_max_left _ _).trans_eq (startedState_attempts s e t).symm, hrest.1.ge, .inl hrest.2⟩

lemma setStep {other : String} (h : Onward rev (run.step id) s) :
    Onward rev (run.step other) ((run.setStep id s).step other) := by
  rw [WorkflowRun.step_setStep]
  split
  · next hid => exact hid ▸ h
  · exact refl _

lemma mapSteps {f : String → StepState → StepState} (hf : ∀ id s, Onward rev s (f id s)) :
    Onward rev (run.step id) ({ run with steps := run.steps.mapVals f }.step id) := by
  simp only [WorkflowRun.step, Table.find?_mapVals]
  cases run.steps.find? id with
  | none => exact refl _
  | some s => exact hf id s

end Onward

lemma StepChange.onward (h : StepChange o log rev run id s) : Onward rev (run.step id) s := by
  cases h with
  | dispatch type n t _ hn | requeue n t hn => exact ⟨le_rfl, le_rfl, .inr ⟨n, rfl, hn⟩⟩
  | started e t => exact .started t
  | queued e => exact ⟨le_max_left _ _, le_rfl, .inl rfl⟩
  | _ => exact ⟨le_rfl, le_rfl, .inl rfl⟩

lemma StepAnswer.onward (h : StepAnswer o log rev run e s) : Onward rev (run.step e.stepID) s := by
  cases h with
  | complete => exact Onward.adopted.trans ⟨le_rfl, le_rfl, .inl rfl⟩
  | next s h =>
    cases h with
    | next s n t _ _ _ _ _ hs _ hn =>
      subst hs
      exact Onward.adopted.trans ⟨le_rfl, Nat.le_succ _, .inr ⟨n, rfl, hn⟩⟩
  | exhausted _ _ _ _ hle => exact Onward.adopted.trans ⟨le_rfl, hle, .inl rfl⟩
  | retry d n t t' delayMs _ _ _ _ hn =>
    exact Onward.failing.trans ⟨le_rfl, le_rfl, .inr ⟨n, rfl, hn⟩⟩
  | fail => exact Onward.failing.trans ⟨le_rfl, le_rfl, .inl rfl⟩

lemma StepReport.onward (h : StepReport o run e id s) : Onward rev (run.step id) s := by
  cases h <;> exact ⟨le_rfl, le_rfl, .inl rfl⟩

/-- The step was there before: it is not generated between the two. -/
def NotGenerated (run run' : WorkflowRun) (id : String) : Prop :=
  id ∈ run'.dynamicSteps.map (·.id) → id ∈ run.dynamicSteps.map (·.id)

lemma RunChange.onward (h : RunChange o log rev run run') (hid : NotGenerated run run' id) :
    Onward rev (run.step id) (run'.step id) := by
  cases h with
  | stamp t =>
    refine Onward.mapSteps fun _ s => ?_
    unfold StepState.stampTerminal
    split <;> exact ⟨le_rfl, le_rfl, .inl rfl⟩
  | step id s h => exact h.onward.setStep
  | answer e s _ _ _ _ h =>
    change Onward rev ({ run with recording := some ⟨e, true⟩ }.step id) _
    exact Onward.setStep h.onward
  | report e other s _ _ _ _ h =>
    change Onward rev ({ run with recording := some ⟨e, false⟩ }.step id) _
    exact Onward.setStep h.onward
  | cancel =>
    refine Onward.mapSteps fun _ s => ?_
    split <;> exact ⟨le_rfl, le_rfl, .inl rfl⟩
  | fragment d0 fragment _ _ _ hnew =>
    -- A fragment brings only names that the definition of the run does not have.
    have hfresh : id ∉ fragment.map (·.id) := by
      intro hmem
      obtain ⟨s, hs, rfl⟩ := List.mem_map.mp hmem
      apply hnew s hs
      unfold NotGenerated at hid
      rw [Does.fragment_dynamicSteps, List.map_append, List.mem_append] at hid
      rw [effectiveDef_steps, List.map_append, List.mem_append]
      exact .inr (hid (.inr hmem))
    rw [WorkflowRun.step_foldl_setStep hfresh]
    exact .refl _

lemma Changes.onward (h : Changes o log rev run run') (hid : NotGenerated run run' id) :
    Onward rev (run.step id) (run'.step id) := by
  induction h with
  | refl => exact .refl _
  | tail hchanges hchange ih =>
    have hbefore := List.map_subset (·.id) (Changes.dynamicSteps hchanges).subset
    have hlater := List.map_subset (·.id) hchange.dynamicSteps.subset
    exact (ih fun h => hid (hlater h)).trans (hchange.onward fun h => hbefore (hid h))

/-- A write goes on from the run it is made over: the run keeps its identity and its
definition, steps are generated only under new names, and no step goes back. -/
structure Continued (o : Orchestrator) (rev : ℕ) (base run : WorkflowRun) : Prop where
  runID : run.runID = base.runID
  workflowID : run.workflowID = base.workflowID
  singletonKey : run.singletonKey = base.singletonKey
  defHash : run.defHash = base.defHash
  dynamicSteps : base.dynamicSteps <+: run.dynamicSteps
  distinct : DistinctSteps o run
  onward : ∀ id, NotGenerated base run id → Onward rev (base.step id) (run.step id)

lemma WriteOk.onward (h : WriteOk o log site rev base run) (hid : NotGenerated base run id) :
    Onward rev (base.step id) (run.step id) := by
  obtain ⟨copy, edited, hchanges, hedit, rfl⟩ := h.changes
  have hcopy := fun hid : NotGenerated (World.received rev base) copy id =>
    Changes.onward hchanges hid
  cases hedit <;> exact hcopy hid

/-- **Writes continue.**  Every write over a stored run goes on from that run. -/
theorem writes_continue (h : Pool.Reaches Conditions.free (emptyPool o) p)
    (hat : At p.state.log i (.snapshot site (some rev) run)) (hbase : Wrote p.state.log rev base) :
    Continued o rev base run := by
  have hlog := reaches_logOk_free h
  obtain ⟨older, hsuffix, -, -, ⟨⟨other, hlatest, hwrite⟩, -⟩ | ⟨hout, -⟩⟩ := History.entry hlog hat
  · obtain ⟨hother, hid⟩ := World.latestIn_wrote hlatest
    obtain rfl := (hother.mono ((List.suffix_cons _ older).trans hsuffix)).unique hbase
    exact ⟨hid.symm, hwrite.workflowID, hwrite.singletonKey, hwrite.defHash, hwrite.dynamicSteps,
      hlog.distinctSteps ⟨site, some rev, hat⟩, fun id => hwrite.onward⟩
  · exact hout.elim

theorem Logged.dispatch_continues : ∃ p, Pool.Reaches Conditions.free (emptyPool .plain) p ∧
    ∃ rev base run, Wrote p.state.log rev base ∧ (base.step "a").dispatchNonce = none ∧
      (run.step "a").dispatchNonce = some 6 ∧ Continued .plain rev base run := by
  obtain ⟨p, hp, htest⟩ := reaches_free _ script fun p => p.state.overwroteAt 7 fun base run =>
    (base.step "a").dispatchNonce = none ∧ (run.step "a").dispatchNonce = some 6
  obtain ⟨site, rev, base, run, hat, hbase, htest⟩ := World.overwroteAt_wrote htest
  obtain ⟨hnone, hsome⟩ := of_decide_eq_true htest
  exact ⟨p, hp, rev, base, run, hbase, hnone, hsome, writes_continue hp hat hbase⟩

/-! ## What runs hold -/

/-- The run whose lock or whose slot of the workflow the entry gives back. -/
def Entry.releases : Entry → Option String
  | .unlocked _ runID | .notice (.releaseRun _ runID) => some runID
  | _ => none

/-- **Released after the end.** What a run holds is given back only when it has ended. -/
theorem released_after_end (h : Pool.Reaches Conditions.free (emptyPool o) p) {entry : Entry}
    {runID : String} (hat : At p.state.log i entry) (hreleases : entry.releases = some runID) :
    ∃ older run, (entry :: older) <:+ p.state.log ∧ Ended older run ∧ run.runID = runID := by
  obtain ⟨older, hsuffix, -, -, ⟨hok, -⟩ | ⟨hout, -⟩⟩ := History.entry (reaches_logOk_free h) hat
  · cases entry with
    | unlocked key holder =>
      obtain ⟨-, run, hended, hid, -⟩ := hok
      exact ⟨older, run, hsuffix, hended, hid.trans (Option.some.inj hreleases)⟩
    | notice n =>
      cases n with
      | releaseRun workflowID holder =>
        obtain ⟨run, hended, hid, -⟩ := hok
        exact ⟨older, run, hsuffix, hended, hid.trans (Option.some.inj hreleases)⟩
      | _ => cases hreleases
    | _ => cases hreleases
  · cases entry <;> first | exact hout.elim | cases hreleases

theorem Logged.lock_released : ∃ p, Pool.Reaches Conditions.free (emptyPool .plain) p ∧
    ∃ entry older run, (entry :: older) <:+ p.state.log ∧ entry.releases = some "r" ∧
      Ended older run ∧ run.runID = "r" := by
  obtain ⟨p, hp, htest⟩ := reaches_free _ script fun p =>
    (p.state.entryAt 13).any fun entry => entry.releases = some "r"
  obtain ⟨entry, hat, htest⟩ := (Option.any_eq_true _ _).mp htest
  have hreleases := of_decide_eq_true htest
  obtain ⟨older, run, hsuffix, hrun⟩ := released_after_end hp (At.of_getElem? hat) hreleases
  exact ⟨p, hp, entry, older, run, hsuffix, hreleases, hrun⟩

end Dagnats
