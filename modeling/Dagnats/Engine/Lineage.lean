import Dagnats.Engine.Refinement.Running

/-!
# What the writes of a run keep

Which runs have ended, and the fields of a run that no write changes: its
workflow, its lock key, its pin, and, as long as it is pinned, the steps its
definition and its fragments give it.
-/

namespace Dagnats

open Interaction

variable {o : Orchestrator} {K : Terms} {log : List Entry} {older : List Entry} {runID : String}
  {i : ℕ} {run run' base old : WorkflowRun} {rev : ℕ} {site : Site} {d : WorkflowDef}

lemma Ended.of_cons {e : Entry} (h : Ended (e :: older) old) (hid : old.runID = runID)
    (hother : ∀ site prior new, e = .snapshot site prior new → new.runID ≠ runID) :
    Ended older old := by
  obtain ⟨hterm, rev, site, prior, hat⟩ := h
  rcases At.cons_iff.mp hat with ⟨-, heq⟩ | hat
  · exact absurd hid (hother site prior old heq.symm)
  · exact ⟨hterm, rev, site, prior, hat⟩

/-- Where the last write stores a run that has not ended, only the writes before it
can have ended a run of that name. -/
lemma Ended.of_snapshot {prior : Option ℕ} (h : Ended (.snapshot site prior run :: older) old)
    (halive : run.status.isTerminal = false) : Ended older old := by
  obtain ⟨hterm, rev, site', prior', hat⟩ := h
  rcases At.cons_iff.mp hat with ⟨-, heq⟩ | hat
  · injection heq with _ _ heq
    rw [heq, halive] at hterm
    cases hterm
  · exact ⟨hterm, rev, site', prior', hat⟩

lemma not_ended_of_none (h : World.latestIn runID log = none) (hid : old.runID = runID) :
    ¬Ended log old := by
  rintro ⟨-, rev, hwrote⟩
  obtain ⟨rev', base, hsome⟩ := World.exists_latestIn hwrote hid
  rw [h] at hsome
  cases hsome

lemma RunChange.singletonKey (h : RunChange o log rev run run') :
    run'.singletonKey = run.singletonKey := by
  cases h with
  | fragment d0 fragment => rw [WorkflowRun.foldl_setStep]
  | _ => rfl

lemma Changes.singletonKey (h : Changes o log rev run run') :
    run'.singletonKey = run.singletonKey := by
  induction h with
  | refl => rfl
  | tail _ hchange ih => exact hchange.singletonKey.trans ih

section

variable (h : WriteOk o log site rev base run)
include h

/-- A write stores a run as Running only over a Running run, or moves it out of the
queue; and it does not open a run again that has ended. -/
lemma WriteOk.status_cases
    (halive : run.status.isTerminal = false) : run.status = base.status ∨ site = .queueAdvance := by
  obtain ⟨copy, edited, hchanges, hedit, rfl⟩ := h.changes
  have hstatus : copy.status = base.status := hchanges.sameRun.status
  cases hedit with
  | plain | release => exact .inl hstatus
  | queueAdvance => exact .inr rfl
  | finalize status time _ hterm =>
    rw [show (World.persisted (markTerminal copy status time)).status = status from rfl,
      hterm] at halive
    cases halive
  | compensateNext => cases halive

lemma WriteOk.workflowID :
    run.workflowID = base.workflowID := by
  obtain ⟨copy, edited, hchanges, hedit, rfl⟩ := h.changes
  have hcopy : copy.workflowID = base.workflowID := hchanges.sameRun.workflowID
  cases hedit <;> exact hcopy

lemma WriteOk.singletonKey :
    run.singletonKey = base.singletonKey := by
  obtain ⟨copy, edited, hchanges, hedit, rfl⟩ := h.changes
  have hcopy : copy.singletonKey = base.singletonKey := hchanges.singletonKey
  cases hedit <;> exact hcopy

lemma WriteOk.defHash : run.defHash = base.defHash := by
  obtain ⟨copy, edited, hchanges, hedit, rfl⟩ := h.changes
  have hcopy := hchanges.sameRun.defHash
  cases hedit <;> exact hcopy

end

lemma LogOk.defHash_eq (hlog : LogOk o K log) (hK : LogOk.Single K) (hrun : Wrote log i run)
    (hlatest : World.latestIn run.runID log = some (rev, base)) : base.defHash = run.defHash := by
  obtain ⟨hbase, hid⟩ := World.latestIn_wrote hlatest
  exact LogOk.later (R := fun a b : WorkflowRun => b.defHash = a.defHash) hlog hK
    (fun _ => rfl) (fun h h' => h'.trans h) (fun _ _ hwrite _ => hwrite.defHash) hrun hbase hid
    (World.le_of_latestIn hlatest hrun rfl)

/-- The run is pinned to `d`, and no other definition has that hash. -/
structure Pins (o : Orchestrator) (run : WorkflowRun) (d : WorkflowDef) : Prop where
  hash : run.defHash = o.defHash d
  named : o.defHash d ≠ ""
  unique : ∀ d', o.defHash d' = o.defHash d → d' = d

lemma Pins.eq {d' : WorkflowDef} (h : Pins o run d) (h' : PinnedTo o run d') : d' = d := by
  rcases h'.2 with hhash | hempty
  · exact h.unique d' (hhash.trans h.hash)
  · exact absurd (h.hash.symm.trans hempty) h.named

lemma Pins.congr (h : Pins o run d) (hrun : run'.defHash = run.defHash) : Pins o run' d :=
  ⟨hrun.trans h.hash, h.named, h.unique⟩

lemma effectiveDef_steps (d : WorkflowDef) (run : WorkflowRun) :
    (effectiveDef d run).steps = d.steps ++ run.dynamicSteps := by
  unfold effectiveDef
  split
  · next h => rw [List.isEmpty_iff.mp h, List.append_nil]
  · rfl

lemma effectiveDef_congr (h : run'.dynamicSteps = run.dynamicSteps) :
    effectiveDef d run' = effectiveDef d run := by
  simp only [effectiveDef, h]

lemma RunChange.dynamicSteps (h : RunChange o log rev run run') :
    run.dynamicSteps <+: run'.dynamicSteps := by
  cases h with
  | fragment d0 fragment =>
    rw [Does.fragment_dynamicSteps]
    exact List.prefix_append _ _
  | _ => exact List.prefix_rfl

lemma Changes.dynamicSteps (h : Changes o log rev run run') :
    run.dynamicSteps <+: run'.dynamicSteps := by
  induction h with
  | refl => exact List.prefix_rfl
  | tail _ hchange ih => exact ih.trans hchange.dynamicSteps

lemma WriteOk.dynamicSteps (h : WriteOk o log site rev base run) :
    base.dynamicSteps <+: run.dynamicSteps := by
  obtain ⟨copy, edited, hchanges, hedit, rfl⟩ := h.changes
  have hcopy := Changes.dynamicSteps hchanges
  cases hedit <;> exact hcopy

lemma LogOk.dynamicSteps (hlog : LogOk o K log) (hK : LogOk.Single K) (hrun : Wrote log i run)
    (hlatest : World.latestIn run.runID log = some (rev, base)) :
    run.dynamicSteps <+: base.dynamicSteps := by
  obtain ⟨hbase, hid⟩ := World.latestIn_wrote hlatest
  exact LogOk.later (R := fun a b : WorkflowRun => a.dynamicSteps <+: b.dynamicSteps) hlog hK
    (fun _ => List.prefix_rfl) (fun h h' => h.trans h')
    (fun _ _ hwrite _ => hwrite.dynamicSteps) hrun hbase hid (World.le_of_latestIn hlatest hrun rfl)

/-- The steps of the run's definition and the generated ones have distinct
identifiers. -/
def DistinctSteps (o : Orchestrator) (run : WorkflowRun) : Prop :=
  ∀ d, Valid o d → Pins o run d → ((effectiveDef d run).steps.map (·.id)).Nodup

lemma DistinctSteps.congr (h : DistinctSteps o run) (hhash : run'.defHash = run.defHash)
    (hdyn : run'.dynamicSteps = run.dynamicSteps) : DistinctSteps o run' := by
  intro d hvalid hpins
  have hnodup := h d hvalid (hpins.congr hhash.symm)
  rw [effectiveDef_steps] at hnodup ⊢
  rw [hdyn]
  exact hnodup

lemma RunChange.distinctSteps (h : RunChange o log rev run run') (hrun : DistinctSteps o run) :
    DistinctSteps o run' := by
  have hsame := h.sameRun
  cases h with
  | fragment d0 fragment hpinned hnodup hnormal hnew =>
    intro d hvalid hpins
    have hpins' : Pins o run d := hpins.congr hsame.defHash.symm
    obtain rfl := hpins'.eq hpinned
    have hbefore := hrun d0 hvalid hpins'
    simp only [effectiveDef_steps, Does.fragment_dynamicSteps, ← List.append_assoc,
      List.map_append] at hbefore hnew ⊢
    refine List.nodup_append.mpr ⟨hbefore, hnodup, ?_⟩
    rintro id hold _ hin rfl
    obtain ⟨s, hs, rfl⟩ := List.mem_map.mp hin
    exact hnew s hs hold
  | _ => exact hrun.congr rfl rfl

lemma Changes.distinctSteps (h : Changes o log rev run run') (hrun : DistinctSteps o run) :
    DistinctSteps o run' := by
  induction h with
  | refl => exact hrun
  | tail _ hchange ih => exact hchange.distinctSteps ih

lemma LogOk.distinctSteps (hlog : LogOk o K log) (hrun : Wrote log rev run) :
    DistinctSteps o run := by
  refine stored (P := fun _ run => DistinctSteps o run) hlog (fun _ h => h) ?_ ?_ hrun
  · intro log site run hcreate _ d hvalid _
    rw [effectiveDef_steps, hcreate.dynamicSteps, List.append_nil]
    exact validate_nodup hvalid
  · intro log site rev base run _ _ hwrite _ hbase
    obtain ⟨⟨run', edited, hchanges, hedit, rfl⟩, -⟩ := hwrite
    have hreceived : DistinctSteps o (World.received rev base) := hbase.congr rfl rfl
    have hchanged := Changes.distinctSteps hchanges hreceived
    cases hedit <;> exact hchanged.congr rfl rfl

end Dagnats
