import Dagnats.Interaction.Execution
import Dagnats.Engine.DefReaper

/-!
# Definitions and the roots of their trees

The reaper looks at the root run that the key of a definition names. As long as
that run is stored and is alive, or was so within the grace period, no pass
deletes the definition. It does not look at the runs that use the definition: a
child that outlives its root by more than the grace period loses it.
-/

namespace Dagnats

open Interaction

lemma rootOfRest_eq {root name : List Char} (hroot : root ≠ []) (hdot : '.' ∉ root)
    (hname : name ≠ []) : rootOfRest (root ++ '.' :: name) = some (String.ofList root) := by
  have hplain : ∀ c ∈ root, decide (c ≠ '.') = true := by
    intro c hc
    exact decide_eq_true fun heq => hdot (heq ▸ hc)
  have htake : (root ++ '.' :: name).takeWhile (· ≠ '.') = root := by
    rw [List.takeWhile_append_of_pos hplain]
    simp
  have hdrop : (root ++ '.' :: name).dropWhile (· ≠ '.') = '.' :: name := by
    rw [List.dropWhile_append_of_pos hplain]
    simp
  simp only [rootOfRest, htake, hdrop]
  simp [hroot, hname]

lemma rootFromDefKey_scopeName {root name : String} (hroot : root ≠ "") (hdot : '.' ∉ root.toList)
    (hname : name ≠ "") : rootFromDefKey (scopeName root name) = some root := by
  have hkey : (scopeName root name).toList =
      ephemeralDefPrefix.toList ++ (root.toList ++ '.' :: name.toList) := by
    simp [scopeName, scopePrefix]
  have hlist : ∀ {s : String}, s ≠ "" → s.toList ≠ [] := by
    intro s hs hnil
    exact hs (String.toList_eq_nil_iff.mp hnil)
  rw [rootFromDefKey, hkey, if_pos (List.isPrefixOf_iff_prefix.mpr (List.prefix_append _ _)),
    List.drop_left, rootOfRest_eq (hlist hroot) hdot (hlist hname), String.ofList_toList]

/-- At this instant the reaper lets the definitions of this root be. -/
def Retained (grace : Duration) (now : Time) (run : WorkflowRun) : Prop :=
  run.parentRunID ≠ "" ∨ run.status.isTerminal = false ∨ run.completedAt = none ∨
    ∃ t, run.completedAt = some t ∧ now - t ≤ grace

/-- Answers that a pass gets while the root is stored as one of the runs in `found`,
which the clock retains. -/
def RootAnswers (grace : Duration) (root : String) (found : WorkflowRun → Prop) :
    (op : ReapCall) → ReapAnswer op → Prop
  | .load runID, a => runID = root → (∃ run, found run ∧ a = .ok run) ∨ a = .error .unavailable
  | .now, n => ∀ run, found run → Retained grace n run
  | _, _ => True

variable {grace : Duration} {maxDelete : ℕ} {root key : String} {run : WorkflowRun} {c : Choice}
  {found : WorkflowRun → Prop} {doomed : List String} {op : ReapCall} {P : ReapCall → Prop} {s t : ReapState}

lemma rootExpired_kept {other : WorkflowRun} (hnow : P .now) :
    (rootExpired grace other).Within (RootAnswers grace root found) P fun r => found other →
    r ≠ .ok true := by
  rw [rootExpired]
  by_cases hparent : other.parentRunID = ""
  · rw [if_neg (not_not.mpr hparent)]
    by_cases hterm : other.status.isTerminal = true
    · rw [hterm, Bool.not_true, if_neg Bool.false_ne_true]
      cases hdone : other.completedAt with
      | none => exact fun _ => nofun
      | some t =>
        refine ⟨hnow, fun n hretained => ?_⟩
        intro hfound hexpired
        have hlate := of_decide_eq_true (Except.ok.inj hexpired)
        rcases hretained other hfound with h | h | h | ⟨t', ht', hgrace⟩
        · exact h hparent
        · rw [hterm] at h
          cases h
        · rw [hdone] at h
          cases h
        · rw [hdone] at ht'
          cases ht'
          exact Int.not_lt.mpr hgrace hlate
    · rw [Bool.eq_false_iff.mpr hterm, Bool.not_false, if_pos rfl]
      exact fun _ => nofun
  · rw [if_pos hparent]
    exact fun _ => nofun

lemma defShouldBeReaped_kept {root' : String} (hload : ∀ runID, P (.load runID)) (hnow : P .now) :
    (defShouldBeReaped grace root').Within (RootAnswers grace root found) P fun r => root' = root →
    r ≠ .ok true := by
  refine ⟨hload root', fun a ha => ?_⟩
  cases a with
  | ok other =>
    apply (rootExpired_kept hnow).conseq
    intro r hr hroot
    apply hr
    rcases ha hroot with ⟨run, hfound, h⟩ | h
    · exact Except.ok.inj h ▸ hfound
    · cases h
  | error e =>
    by_cases hroot : root' = root
    · rcases ha hroot with ⟨run, -, h⟩ | h
      · cases h
      · cases h
        exact fun _ => nofun
    · cases e <;> exact fun h => absurd h hroot

lemma collectFrom_kept (hload : ∀ runID, P (.load runID))
    (hnow : P .now) (hkey : rootFromDefKey key = some root) {keys : List String}
    (hdoomed : key ∉ doomed) :
    (collectFrom grace maxDelete keys doomed).Within (RootAnswers grace root found) P
      fun r => ∀ picked, r = .ok picked → key ∉ picked := by
  induction keys generalizing doomed with
  | nil => exact fun _ hpicked => Except.ok.inj hpicked ▸ hdoomed
  | cons head keys ih =>
    rw [collectFrom]
    by_cases hfull : maxDelete ≤ doomed.length
    · rw [if_pos hfull]
      exact fun _ hpicked => Except.ok.inj hpicked ▸ hdoomed
    · rw [if_neg hfull]
      cases hroot : rootFromDefKey head with
      | none => exact ih hdoomed
      | some root' =>
        apply (defShouldBeReaped_kept hload hnow).bind
        · intro reap hreap
          apply ih
          by_cases hpick : reap = true
          · rw [if_pos hpick]
            have hother : root' ≠ root := by
              intro hsame
              exact hreap hsame (by rw [hpick])
            have hne : key ≠ head := by
              rintro rfl
              rw [hkey] at hroot
              exact hother (Option.some.inj hroot).symm
            simp [hdoomed, hne]
          · rw [if_neg hpick]
            exact hdoomed
        · exact fun e _ _ => nofun

lemma deleteAll_kept {A : (op : ReapCall) → ReapAnswer op → Prop} (hdoomed : key ∉ doomed) :
    (deleteAll doomed).Within A (· ≠ .delete key) fun _ => True := by
  induction doomed with
  | nil => trivial
  | cons head doomed ih =>
    obtain ⟨hhead, hrest⟩ := not_or.mp (mt List.mem_cons.mpr hdoomed)
    refine ⟨fun h => hhead (ReapCall.delete.inj h).symm, fun a _ => ?_⟩
    cases a with
    | ok _ => exact ih hrest
    | error e => trivial

lemma reapEphemeralDefs_kept (hkey : rootFromDefKey key = some root) :
    (reapEphemeralDefs grace maxDelete).Within (RootAnswers grace root found)
      (· ≠ .delete key) fun _ => True := by
  rw [reapEphemeralDefs]
  by_cases hmax : maxDelete = 0
  · rw [if_pos hmax]
    trivial
  · rw [if_neg hmax]
    have hcollect : (collectReapable grace maxDelete).Within (RootAnswers grace root found)
        (· ≠ .delete key) fun r => ∀ picked, r = .ok picked → key ∉ picked := by
      refine ⟨nofun, fun a _ => ?_⟩
      cases a with
      | error e => exact fun _ => nofun
      | ok keys =>
        by_cases hbound : defReaperMaxScan < keys.length
        · simp only [if_pos hbound]
          exact fun _ => nofun
        · simp only [if_neg hbound]
          exact collectFrom_kept (fun _ => nofun) nofun hkey (List.not_mem_nil)
    have hpicked : ((collectReapable grace maxDelete).attempt Err.isValue).Within
        (RootAnswers grace root found) (· ≠ .delete key)
        fun r => ∀ picked, r = .ok (.ok picked) → key ∉ picked := by
      apply hcollect.attempt
      · intro picked hnot _ h
        exact hnot _ (congrArg _ (Except.ok.inj (Except.ok.inj h)))
      · exact fun _ _ _ => nofun
      · exact fun _ _ _ => nofun
    apply hpicked.bind
    · intro r hr
      cases r with
      | error e => trivial
      | ok picked => exact deleteAll_kept (hr picked rfl)
    · exact fun _ _ => trivial

lemma load_stored {a : Except Err WorkflowRun} (hstored : s.runs root = some (some run))
    (h : s.exec (.load root) c = some (a, t)) : a = .ok run ∨ a = .error .unavailable := by
  cases c with
  | done =>
    left
    rw [← (Prod.mk.inj (Option.some.inj h)).1, ReapState.load, hstored]
  | fail => cases h; exact .inr rfl
  | _ => cases h

lemma now_read {n : Time} (h : s.exec .now c = some (n, t)) : n = s.now := by
  cases c with
  | done => cases h; rfl
  | _ => cases h

/-- No pass deletes a definition of a root that is stored whenever the pass loads it,
as a run that is alive, or was so within the grace period, by the clock that the pass
reads; whoever else works on the buckets in between, and whichever calls fail. -/
theorem reaper_keeps_definitions {name : String} (hroot : root ≠ "") (hdot : '.' ∉ root.toList)
    (hname : name ≠ "") {moments : List (Moment (reaper grace maxDelete))} {r : Except Err Unit}
    (h : (reapEphemeralDefs grace maxDelete).Yields (moments.map Moment.known) r)
    (hretained : ∀ m ∈ moments, m.op = .load root → ∃ run, m.state.runs root = some (some run) ∧
      ∀ m' ∈ moments, m'.op = .now → Retained grace m'.state.now run) :
    ∀ m ∈ moments, m.op ≠ .delete (scopeName root name) := by
  have hanswers : ∀ m ∈ moments, RootAnswers grace root (fun run =>
      ∀ m' ∈ moments, m'.op = .now → Retained grace m'.state.now run) m.op m.answer := by
    intro m hm
    have hfound := hretained m hm
    have hclock : m.op = .now → ∀ run : WorkflowRun,
        (∀ m' ∈ moments, m'.op = .now → Retained grace m'.state.now run) →
        Retained grace m.state.now run := fun hop run hrun => hrun m hm hop
    obtain ⟨s, op, c, a, t, hpossible⟩ := m
    cases op with
    | keys | delete key => trivial
    | load runID =>
      rintro rfl
      obtain ⟨run, hstored, hrun⟩ := hfound rfl
      exact (load_stored hstored hpossible).imp_left fun h => ⟨run, hrun, h⟩
    | now => exact now_read hpossible ▸ hclock rfl
  exact (reapEphemeralDefs_kept (rootFromDefKey_scopeName hroot hdot hname)).calls hanswers h

namespace Reaping

/-- The root of a tree; a run of it registered the definition `plan`. -/
def planner (completedAt : Option Time) : WorkflowRun where
  runID := "r"
  workflowID := "planner"
  status := if completedAt.isSome then .completed else .running
  rootRunID := "r"
  completedAt := completedAt

def child : WorkflowRun where
  runID := "c"
  workflowID := scopeName "r" "plan"
  status := .running
  parentRunID := "r"
  rootRunID := "r"

def store (completedAt : Option Time) : ReapState where
  now := 10
  defs := [child.workflowID]
  runs runID :=
    if runID = "r" then some (some (planner completedAt))
    else if runID = "c" then some (some child) else none

/-- Every call is answered. -/
def calm (_ : ReapState) (_ : ReapCall) : Choice := .done

lemma exec_unchanged {a : ReapAnswer op} (h : s.exec op c = some (a, t)) :
    t.runs = s.runs ∧ t.now = s.now := by
  cases op <;> cases c <;> cases h <;> exact ⟨rfl, rfl⟩

lemma pass_calls {completedAt : Option Time}
    (h : ((reapEphemeralDefs 1 10).record (reaper 1 10) calm (store completedAt)).any
      (fun r => r.1.any (·.op = op)) = true) :
    ∃ (moments : List (Moment (reaper 1 10))) (r : Except Err Unit),
      (reapEphemeralDefs 1 10).Yields (moments.map Moment.known) r ∧
        (∀ m ∈ moments, m.state.runs = (store completedAt).runs) ∧ ∃ m ∈ moments, m.op = op := by
  obtain ⟨⟨moments, r⟩, hrecord, hcalls⟩ := (Option.any_eq_true ..).mp h
  obtain ⟨hyields, hstates⟩ := Prog.record_yields
    (J := fun s : ReapState => s.runs = (store completedAt).runs)
    (fun hs h => (exec_unchanged h).1.trans hs) rfl hrecord
  obtain ⟨m, hm, hop⟩ := List.any_eq_true.mp hcalls
  exact ⟨moments, r, hyields, hstates, m, hm, of_decide_eq_true hop⟩

/-- The root runs: the definition of its child stays. -/
theorem definition_kept : ∃ (moments : List (Moment (reaper 1 10))) (r : Except Err Unit),
    (reapEphemeralDefs 1 10).Yields (moments.map Moment.known) r ∧
    (∃ m ∈ moments, m.op = .load "r") ∧ ∀ m ∈ moments, m.op ≠ .delete (scopeName "r" "plan") := by
  have hrecord : ((reapEphemeralDefs 1 10).record (reaper 1 10) calm (store none)).any
      (fun r => r.1.any (·.op = .load "r")) = true := by decide +kernel
  obtain ⟨moments, r, hyields, hstates, hreads⟩ := pass_calls hrecord
  have hstored : ∀ m ∈ moments, m.state.runs "r" = some (some (planner none)) := by
    intro m hm
    rw [hstates m hm]
    rfl
  exact ⟨moments, r, hyields, hreads, reaper_keeps_definitions (by decide) (by decide)
    (by decide) hyields fun m hm _ => ⟨_, hstored m hm, fun _ _ _ => .inr (.inl rfl)⟩⟩

/-- The root ended long ago, its child still runs: the definition of the child is
deleted. -/
theorem definition_lost : ∃ (moments : List (Moment (reaper 1 10))) (r : Except Err Unit),
    (reapEphemeralDefs 1 10).Yields (moments.map Moment.known) r ∧
    (∀ m ∈ moments, m.state.runs child.runID = some (some child)) ∧ child.status.isTerminal =
    false ∧ ∃ m ∈ moments, m.op = .delete child.workflowID := by
  have hrecord : ((reapEphemeralDefs 1 10).record (reaper 1 10) calm (store (some 0))).any
      (fun r => r.1.any (·.op = .delete child.workflowID)) = true := by decide +kernel
  obtain ⟨moments, r, hyields, hstates, hdeletes⟩ := pass_calls hrecord
  refine ⟨moments, r, hyields, ?_, rfl, hdeletes⟩
  intro m hm
  rw [hstates m hm]
  rfl

end Reaping

end Dagnats
