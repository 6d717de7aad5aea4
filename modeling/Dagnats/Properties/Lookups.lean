import Dagnats.Dag.Acyclic
import Dagnats.Engine.Scenario

/-!
# Values looked up in the data of a run

Matches, the priority and the singleton key take a value from the input of a run or
from the output of a step, by a dot path of the definition. `ExtractDotPath` panics
on an empty path and on absent data; nothing else does in an accepted definition.
-/

namespace Dagnats

variable {o : Orchestrator} {d : WorkflowDef} {run : WorkflowRun} {m : Match}

/-- The function returns, with a value or an error. -/
def Calm {α : Type} (r : Except Fault α) : Prop :=
  ∀ msg, r ≠ .error (.panic msg)

/-- The path that a match looks up, and where; nothing in a step without output. -/
def Match.lookups (m : Match) (run : WorkflowRun) : List (String × Raw) :=
  if "step.".toList.isPrefixOf m.right.toList then
    match splitString m.right "." with
    | _ :: stepID :: _ :: field :: rest =>
      match (run.step stepID).output with
      | .nil => []
      | data => [(".".intercalate (field :: rest), data)]
    | _ => []
  else if "input.".toList.isPrefixOf m.right.toList then
    [(String.ofList (m.right.toList.drop 6), run.input)]
  else []

/-- The matches of the waits of a definition. -/
def waitMatches (d : WorkflowDef) : List Match :=
  d.steps.filterMap fun s =>
    if s.type = .waitForEvent then (parseWaitForEventConfig s).map (·.match_) else none

/-- All that is looked up while a run is started and advanced. -/
def lookups (d : WorkflowDef) (run : WorkflowRun) : List (String × Raw) :=
  (d.cancelOn.flatMap fun c => c.match_.lookups run) ++ (waitMatches d).flatMap (·.lookups run) ++
    ((d.priority.map (·.key)).toList ++ (d.singleton.map (·.key)).toList).filterMap fun key =>
      if key = "" then none else some (key, run.input)

/-- Nothing that is resolved in the data of the run panics. The conditions of the
steps are total (`ParentCond.evaluate`). -/
structure Resolves (o : Orchestrator) (d : WorkflowDef) (run : WorkflowRun) : Prop where
  cancelOn : ∀ c ∈ d.cancelOn, Calm (c.match_.resolve run false)
  waits : ∀ m ∈ waitMatches d, Calm (m.resolve run true)
  priority : Calm (resolvePriority d.priority run.input)
  singleton : ∀ cfg, d.singleton = some cfg → Calm (singletonLockKey o.digest d.name cfg run.input)

/-- The path names something, and there is something to look it up in. -/
def Sane (l : String × Raw) : Prop := l.1 ≠ "" ∧ l.2 ≠ .nil

lemma calm_map {α β : Type} {r : Except Fault α} {f : α → β} : Calm (r.map f) ↔ Calm r := by
  cases r <;> simp [Calm, Except.map]

lemma calm_followPath (parts : List String) (j : Json) : Calm (followPath parts j) := by
  fun_induction followPath parts j <;> simp_all [Calm]

lemma calm_extractDotPath (path : String) (data : Raw) :
    Calm (extractDotPath path data) ↔ Sane (path, data) := by
  unfold extractDotPath Sane
  by_cases hpath : path = ""
  · simp [hpath, Calm]
  · cases data with
    | nil | text s => simp [hpath, Calm]
    | doc j => simp [hpath, calm_followPath]

lemma calm_resolve {outputs : Bool} (hleft : m.left ≠ "") (hright : m.right ≠ "")
    (houtputs : "step.".toList.isPrefixOf m.right.toList = true → outputs = true) :
    Calm (m.resolve run outputs) ↔ ∀ l ∈ m.lookups run, Sane l := by
  unfold Match.resolve Match.lookups
  rw [if_neg hright, if_neg hleft]
  split
  · next hstep =>
    rw [if_pos (houtputs hstep), calm_map, resolveStepPath]
    generalize splitString m.right "." = parts
    rcases parts with _ | ⟨_, _ | ⟨stepID, _ | ⟨_, _ | ⟨field, rest⟩⟩⟩⟩
    case cons.cons.cons.cons =>
      dsimp only
      generalize (run.step stepID).output = data
      cases data with
      | nil => simp [Calm]
      | _ => simp [calm_extractDotPath]
    all_goals simp [Calm]
  · split
    · rw [calm_map]
      unfold resolveInputPath
      generalize run.input = data
      cases data with
      | nil => simp [Calm, Sane]
      | _ => simp [calm_extractDotPath]
    · simp [Calm]

lemma calm_rawLockKey {cfg : SingletonConfig} {input : Raw} (name : String) :
    Calm (rawLockKey name cfg input) ↔ (cfg.key ≠ "" → Sane (cfg.key, input)) := by
  rw [rawLockKey, ← calm_extractDotPath]
  by_cases hkey : cfg.key = ""
  · simp [hkey, Calm]
  · rw [if_neg hkey]
    rcases extractDotPath cfg.key input with (msg | msg) | v <;> simp [hkey, Calm]

lemma calm_resolvePriority {cfg : PriorityConfig} {input : Raw} :
    Calm (resolvePriority (some cfg) input) ↔ (cfg.key ≠ "" → Sane (cfg.key, input)) := by
  rw [resolvePriority, ← calm_extractDotPath]
  by_cases hkey : cfg.key = ""
  · simp [hkey, Calm]
  · rw [if_neg hkey]
    rcases extractDotPath cfg.key input with (msg | msg) | v
    · simp [hkey, Calm]
    · simp [hkey, Calm]
    · dsimp only
      split <;> simp [hkey, Calm]

lemma validate_cancelOn (h : Valid o d) {c : CancelOn} (hc : c ∈ d.cancelOn) :
    c.match_.left ≠ "" ∧ c.match_.right ≠ "" ∧
    "input.".toList.isPrefixOf c.match_.right.toList = true := by
  unfold Valid validate at h
  iterate 9 replace h := (checks_eq_ok h).2
  have hcancel := forM_eq_ok (checks_eq_ok (checks_eq_ok h).1).2 c hc
  obtain ⟨-, hcancel⟩ := checks_eq_ok hcancel
  obtain ⟨hleft, hcancel⟩ := checks_eq_ok hcancel
  obtain ⟨-, hcancel⟩ := checks_eq_ok hcancel
  obtain ⟨hright, hinput⟩ := checks_eq_ok hcancel
  exact ⟨by simpa using check_eq_ok hleft, by simpa using check_eq_ok hright, check_eq_ok hinput⟩

lemma validate_waits (h : Valid o d) (hm : m ∈ waitMatches d) : m.left ≠ "" ∧ m.right ≠ "" := by
  obtain ⟨s, hs, hwait⟩ := List.mem_filterMap.mp hm
  split at hwait
  · next htype =>
    obtain ⟨cfg, hcfg, rfl⟩ := Option.map_eq_some_iff.mp hwait
    obtain ⟨hfirst, -⟩ := checks_eq_ok (validate_references h)
    obtain ⟨-, hstep⟩ := checks_eq_ok (forM_eq_ok hfirst s hs)
    obtain ⟨-, hstep⟩ := checks_eq_ok hstep
    have hmatch := (checks_eq_ok hstep).1
    simp only [validateWaitForEventStep, htype, hcfg, ne_eq, not_true_eq_false, if_false] at hmatch
    obtain ⟨-, hmatch⟩ := checks_eq_ok hmatch
    obtain ⟨hleft, hmatch⟩ := checks_eq_ok hmatch
    obtain ⟨-, hmatch⟩ := checks_eq_ok hmatch
    obtain ⟨hright, -⟩ := checks_eq_ok hmatch
    exact ⟨by simpa using check_eq_ok hleft, by simpa using check_eq_ok hright⟩
  · cases hwait

/-- **Accepted definitions do not panic on run data** exactly where every path that
is looked up is not empty and the data is there. -/
theorem resolves_iff (h : Valid o d) (run : WorkflowRun) :
    Resolves o d run ↔ ∀ l ∈ lookups d run, Sane l := by
  have hcancel : ∀ c ∈ d.cancelOn,
      (Calm (c.match_.resolve run false) ↔ ∀ l ∈ c.match_.lookups run, Sane l) := by
    intro c hc
    obtain ⟨hleft, hright, hinput⟩ := validate_cancelOn h hc
    refine calm_resolve hleft hright fun hstep => absurd hstep ?_
    rw [List.isPrefixOf_iff_prefix] at hinput ⊢
    obtain ⟨rest, hrest⟩ := hinput
    rw [← hrest]
    simp
  have hwaits : ∀ m ∈ waitMatches d,
      (Calm (m.resolve run true) ↔ ∀ l ∈ m.lookups run, Sane l) := fun m hm =>
    calm_resolve (validate_waits h hm).1 (validate_waits h hm).2 fun _ => rfl
  have hkeys : (∀ l ∈ lookups d run, Sane l) ↔
      (∀ c ∈ d.cancelOn, ∀ l ∈ c.match_.lookups run, Sane l) ∧
      (∀ m ∈ waitMatches d, ∀ l ∈ m.lookups run, Sane l) ∧
      (∀ cfg, d.priority = some cfg → cfg.key ≠ "" → Sane (cfg.key, run.input)) ∧
      ∀ cfg, d.singleton = some cfg → cfg.key ≠ "" → Sane (cfg.key, run.input) := by
    simp only [lookups, List.forall_mem_append, List.forall_mem_flatMap, List.forall_mem_filterMap,
      and_assoc]
    refine and_congr Iff.rfl (and_congr Iff.rfl (and_congr ?_ ?_))
    · cases d.priority <;> simp
    · cases d.singleton <;> simp
  rw [hkeys, ← forall₂_congr hcancel, ← forall₂_congr hwaits]
  constructor
  · intro hr
    refine ⟨hr.cancelOn, hr.waits, fun cfg hcfg => ?_, fun cfg hcfg => ?_⟩
    · exact calm_resolvePriority.mp (hcfg ▸ hr.priority)
    · exact (calm_rawLockKey d.name).mp (calm_map.mp (hr.singleton cfg hcfg))
  · rintro ⟨hcancel, hwaits, hpriority, hsingleton⟩
    refine ⟨hcancel, hwaits, ?_, fun cfg hcfg => ?_⟩
    · cases hcfg : d.priority with
      | none => simp [resolvePriority, Calm]
      | some cfg => exact calm_resolvePriority.mpr (hpriority cfg hcfg)
    · exact calm_map.mpr ((calm_rawLockKey d.name).mpr (hsingleton cfg hcfg))

namespace Absent

/-- The wait ends its path in a dot. -/
def workflow : WorkflowDef where
  name := "w"
  steps := [{ id := "a", task := "work" },
    { id := "e", type := .waitForEvent, dependsOn := ["a"], config := .doc
        { event := "x", match_ := ⟨"id", "eq", "step.a.output."⟩, timeout := second } }]
  cancelOn := [⟨"x", "id", "eq", "input.id"⟩]
  priority := some { key := "id", rules := [("v", 1)] }
  singleton := some { mode := .skip, key := "id" }

def bare : WorkflowRun := { runID := "r", workflowID := "w" }

def given : WorkflowRun := { bare with input := .doc (.obj [("id", .str "v")]) }

theorem given_resolves : Valid Orchestrator.plain workflow ∧
    Resolves Orchestrator.plain workflow given := by
  have hvalid : Valid Orchestrator.plain workflow := by decide +kernel
  refine ⟨hvalid, (resolves_iff hvalid given).mpr fun l hl => ?_⟩
  have hall : lookups workflow given = [("id", given.input), ("id", given.input),
      ("id", given.input)] := by rfl
  rw [hall] at hl
  obtain rfl : l = ("id", given.input) := by simpa using hl
  exact ⟨by simp, nofun⟩

/-- Without an input three lookups panic, and with an output of `a` the wait does. -/
theorem accepted_definition_panics : Valid Orchestrator.plain workflow ∧
    (∀ c ∈ workflow.cancelOn, c.match_.resolve bare false =
      .error (.panic "resolveInputPath: workflowInput must not be nil")) ∧
    resolvePriority workflow.priority bare.input =
      .error (.panic "ExtractDotPath: data must not be nil") ∧
    singletonLockKey id workflow.name { mode := .skip, key := "id" } bare.input =
      .error (.panic "ExtractDotPath: data must not be nil") ∧
    ∀ m ∈ waitMatches workflow, m.resolve (given.setStep "a" { output := .doc .null }) true =
      .error (.panic "ExtractDotPath: path must not be empty") := by
  refine ⟨by decide +kernel, ?_, rfl, rfl, ?_⟩
  · simp only [workflow, List.forall_mem_singleton]
    rfl
  · intro m hm
    have hall : waitMatches workflow = [⟨"id", "eq", "step.a.output."⟩] := rfl
    rw [hall, List.mem_singleton] at hm
    subst hm
    rfl

end Absent

end Dagnats
