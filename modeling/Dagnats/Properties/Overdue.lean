import Dagnats.Engine.Resolution
import Dagnats.Engine.SoloDispatch

/-!
# Steps that nothing holds up

A step is overdue if it is pending although its dependencies are resolved and
there is room for it. `resolveReadySteps` finds every such step except those to
be skipped, and a dispatch of what it finds leaves none behind, unless the
dispatch completes a step itself.
-/

namespace Dagnats

variable (d : WorkflowDef) (run : WorkflowRun)

def hasRoom : Bool :=
  match d.concurrency with
  | none => true
  | some limit =>
    limit.maxSteps ≤ 0 || (countActiveSteps run : ℤ) < limit.maxSteps

/-- The step is pending although its dependencies are resolved and there is room
for it. -/
structure Overdue (d : WorkflowDef) (run : WorkflowRun) (s : StepDef) : Prop where
  mem : s ∈ d.steps
  pending : (run.step s.id).status = .pending
  resolved : allDepsCompleted s.dependsOn (completedSet run) = true
  plain : d.isAux s.id = false
  room : hasRoom d run = true

def overdueSteps : List StepDef :=
  d.steps.filter fun s => (run.step s.id).status = .pending &&
    allDepsCompleted s.dependsOn (completedSet run) && !d.isAux s.id && hasRoom d run

lemma mem_overdueSteps_iff {d : WorkflowDef} {run : WorkflowRun} {s : StepDef} :
    s ∈ overdueSteps d run ↔ Overdue d run s := by
  simp only [overdueSteps, List.mem_filter, Bool.and_eq_true, decide_eq_true_eq, Bool.not_eq_true']
  constructor
  · rintro ⟨hmem, ⟨⟨hpend, hres⟩, hplain⟩, hroom⟩
    exact ⟨hmem, hpend, hres, hplain, hroom⟩
  · intro h
    exact ⟨h.mem, ⟨⟨h.pending, h.resolved⟩, h.plain⟩, h.room⟩

def skipHolds (run : WorkflowRun) (s : StepDef) : Bool :=
  s.skipIf.any fun c => c.evaluate run

/-- Every step that nothing holds up is one to be skipped. -/
def Progressed : Prop :=
  ∀ s, Overdue d run s → skipHolds run s = true

section Resolution

variable {d run} {run' run'' : WorkflowRun} {ready : List StepDef}

lemma Progressed.alike (h : Progressed d run) (hlike : Alike run run') : Progressed d run' := by
  intro s hs
  have hroom : hasRoom d run' = hasRoom d run := by
    simp only [hasRoom, hlike.active]
  have hdue : Overdue d run s :=
    ⟨hs.mem, hlike.stepStatus s.id ▸ hs.pending, hlike.completedSet ▸ hs.resolved,
      hs.plain, hroom ▸ hs.room⟩
  have hskip : skipHolds run' s = skipHolds run s := by
    unfold skipHolds
    congr 1
    funext c
    exact ParentCond.evaluate_congr (hlike.output c.stepID)
  rw [hskip]
  exact h s hdue

lemma progressed_of_full (h : resolveReadySteps d run = .full) : Progressed d run := by
  intro s hs
  have hlimit : limitSteps d (resolveSkips d run) (openSteps d run) = none := by
    unfold resolveReadySteps at h
    dsimp only at h
    split at h
    · cases h
    · split at h
      · next hlimit => exact hlimit
      · cases h
  have hroom := hs.room
  unfold limitSteps at hlimit
  unfold hasRoom at hroom
  split at hlimit
  · cases hlimit
  · next limit hconcurrency =>
    rw [hconcurrency] at hroom
    split at hlimit
    · next hpos =>
      dsimp only at hlimit
      split at hlimit
      · next havailable =>
        rw [countActiveSteps_resolveSkips] at havailable
        simp only [Bool.or_eq_true, decide_eq_true_eq] at hroom
        omega
      · cases hlimit
    · cases hlimit

lemma progressed_of_nothing_ready (hnodup : (d.steps.map (·.id)).Nodup)
    (h : resolveReadySteps d run = .ready run' []) : Progressed d run := by
  intro s hs
  by_contra hskip
  -- The step is not among the skipped, so that it is found ready.
  have hnot : s.id ∉ (resolveSkipped d (completedSet run) (queuedSet run) run).map (·.id) := by
    intro hin
    obtain ⟨s', hs', hid⟩ := List.mem_map.mp hin
    obtain ⟨hmem, hcond⟩ := List.mem_filter.mp hs'
    obtain rfl : s' = s := List.inj_on_of_nodup_map hnodup hmem hs.mem hid
    simp only [Bool.and_eq_true] at hcond
    unfold skipHolds at hskip
    cases hif : s'.skipIf with
    | none => simp [hif] at hcond
    | some c => simp_all
  have hsame : (resolveSkips d run).step s.id = run.step s.id := step_markSkipped_of_not_mem hnot
  have hres : allDepsCompleted s.dependsOn (completedSet (resolveSkips d run)) = true := by
    refine allDepsCompleted_mono hs.resolved fun dep _ hdone => ?_
    rcases step_markSkipped (resolveSkipped d (completedSet run) (queuedSet run) run)
      run dep with h | h
    · exact (completedSet_congr h).trans hdone
    · exact completedSet_of_skipped h
  have hopen : s ∈ openSteps d run := mem_openSteps hs.mem (hsame ▸ hs.pending) hres hs.plain
  rw [openSteps_eq_nil h] at hopen
  cases hopen

/-- A dispatch that puts every ready step to work leaves nothing overdue. -/
lemma progressed_of_dispatch (h : resolveReadySteps d run = .ready run' ready)
    (honly : OnlySteps (ready.map (·.id)) run' run'')
    (hwork : ∀ s ∈ ready, (run''.step s.id).atWork = true)
    (hcount : countActiveSteps run' + ready.length ≤ countActiveSteps run'') :
    Progressed d run'' := by
  intro s hs
  exfalso
  obtain ⟨rfl, -⟩ := resolveReadySteps_ready h
  have hout : s.id ∉ ready.map (·.id) := by
    intro hin
    obtain ⟨s', hs', hid⟩ := List.mem_map.mp hin
    have hbusy := hwork s' hs'
    rw [hid] at hbusy
    simp [StepState.atWork, hs.pending] at hbusy
  have hres : allDepsCompleted s.dependsOn (completedSet (resolveSkips d run)) = true := by
    refine allDepsCompleted_mono hs.resolved fun dep _ hdone => ?_
    by_cases hin : dep ∈ ready.map (·.id)
    · obtain ⟨s', hs', rfl⟩ := List.mem_map.mp hin
      have hbusy := hwork s' hs'
      unfold StepState.atWork at hbusy
      unfold completedSet at hdone
      split at hdone <;> simp_all
    · exact (completedSet_congr (honly.other dep hin)).symm.trans hdone
  have hopen : s ∈ openSteps d run :=
    mem_openSteps hs.mem (honly.other s.id hout ▸ hs.pending) hres hs.plain
  have hcut : s ∉ ready := fun hin => hout (List.mem_map_of_mem hin)
  -- Only the limit can have left the step out, and then it is reached.
  have hlimit := resolveReadySteps_limit h
  have hroom := hs.room
  unfold limitSteps at hlimit
  unfold hasRoom at hroom
  split at hlimit
  · exact hcut (Option.some.inj hlimit ▸ hopen)
  · next limit hconcurrency =>
    rw [hconcurrency] at hroom
    split at hlimit
    · next hpos =>
      dsimp only at hlimit
      split at hlimit
      · cases hlimit
      · next havailable =>
        have htake := Option.some.inj hlimit
        have hlength : ready.length =
            (limit.maxSteps - countActiveSteps (resolveSkips d run)).toNat := by
          rw [← htake, List.length_take]
          apply min_eq_left
          by_contra hshort
          rw [List.take_of_length_le (by omega)] at htake
          exact hcut (htake ▸ hopen)
        simp only [Bool.or_eq_true, decide_eq_true_eq] at hroom
        omega
    · exact hcut (Option.some.inj hlimit ▸ hopen)

/-- What the dispatch of the steps that are ready makes of a copy. -/
structure Dispatched (d : WorkflowDef) (ready : List StepDef) (run saved : WorkflowRun)
    (plan : DispatchPlan) : Prop where
  same : SameRun run saved
  dynamicSteps : saved.dynamicSteps = run.dynamicSteps
  completed : ∀ id, (run.step id).status = .completed → (saved.step id).status = .completed
  progressed : (∀ s ∈ ready, (saved.step s.id).status ≠ .completed) → Progressed d saved
  clean : ¬plan.Completes → ∀ s ∈ ready, (saved.step s.id).status ≠ .completed
  responds : ∀ id body, (id, .respond body) ∈ plan.effects →
    ∃ s ∈ ready, s.id = id ∧ s.type = .respond ∧ (saved.step s.id).status = .completed
  continues : plan.continueRun = true → ∃ s ∈ ready, (saved.step s.id).status = .completed

lemma Dispatched.of_planning {run₂ saved : WorkflowRun} {plan : DispatchPlan}
    (h : resolveReadySteps d run = .ready run' ready)
    (honly : OnlySteps (ready.map (·.id)) run' run₂)
    (hcount : countActiveSteps run' + ready.length ≤ countActiveSteps run₂)
    (hplan : Planning ready (run₂, {}) (saved, plan)) : Dispatched d ready run saved plan := by
  have honly' := honly.trans hplan.only
  have hready := resolveReadySteps_ready h
  have hrun' := hready.1
  refine ⟨?_, ?_, fun id hid => ?_, fun hnone => ?_, fun hclean s hs => ?_,
    fun id body hmem => ?_, fun hc => ?_⟩
  · exact (hrun' ▸ resolveSkips_sameRun d run : SameRun run run').trans honly'.sameRun
  · refine honly'.dynamicSteps.trans ?_
    rw [hrun']
    exact markSkipped_dynamicSteps run _
  · have hout : id ∉ ready.map (·.id) := by
      intro hin
      obtain ⟨s, hs, rfl⟩ := List.mem_map.mp hin
      exact ready_not_completed h hs hid
    rw [honly'.other id hout, hrun', step_resolveSkips_of_closed (.inl hid)]
    exact hid
  · have hwork : ∀ s ∈ ready, (saved.step s.id).atWork = true := fun s hs =>
      (hplan.each s hs).resolve_right fun hc => hnone s hs hc.1
    exact progressed_of_dispatch h honly' hwork (hcount.trans (hplan.count hwork))
  · intro hcompleted
    rcases hplan.each s hs with hwork | hc
    · simp [StepState.atWork, hcompleted] at hwork
    · exact hclean hc.2
  · rcases hplan.responds id body hmem with hmem | h
    · cases hmem
    · exact h
  · rcases hplan.continues hc with h | h
    · cases h
    · exact h

lemma Dispatched.alike {saved saved' : WorkflowRun} {plan : DispatchPlan}
    (h : Dispatched d ready run saved plan) (hlike : Alike saved saved') :
    (∀ id, (run.step id).status = .completed → (saved'.step id).status = .completed) ∧
    ((∀ s ∈ ready, (saved'.step s.id).status ≠ .completed) → Progressed d saved') ∧
    (plan.continueRun = true → ∃ s ∈ ready, (saved'.step s.id).status = .completed) := by
  refine ⟨fun id hid => ?_, fun hnone => ?_, fun hc => ?_⟩
  · exact (hlike.stepStatus id).trans (h.completed id hid)
  · refine (h.progressed fun s hs => ?_).alike hlike
    rw [← hlike.stepStatus]
    exact hnone s hs
  · obtain ⟨s, hs, hstatus⟩ := h.continues hc
    exact ⟨s, hs, (hlike.stepStatus s.id).trans hstatus⟩

end Resolution

end Dagnats
