import Mathlib.Data.Finset.Card
import Dagnats.Interaction.Bucket
import Dagnats.Engine.Start

/-!
# The indexes of the run store

`snapshot.go` keeps two derived keys beside the snapshot `run.<id>` of a run:
`runidx.<id>`, written once, and the marker `runactive.<id>`, there while the
reconciler owns the run. This module models the store, the functions of
`snapshot.go`, `run_event.go` and `reconciler.go` that write it, and the passes
that repair it.

What a handler does to a run between two saves is any change of its status and
its steps. Every stored value decodes; the sweep of old runs, the lifecycle
events, the log lines and the assertions on arguments are left out.
-/

namespace Dagnats.RunIndex

open Interaction

variable {run : WorkflowRun} {id : String} {α : Type}

/-- Where a run is written. -/
inductive WriteSite where
  | initial | advance | finalize | debt | clear

/-- Who writes an entry of the index: the creation of the run, or a pass over the
store. -/
inductive IndexSite where
  | entry | repair

/-- Who deletes a marker. A pass that finds it stale deletes it for what it has
read of the run, where `none` is a read that brought no value; this is not part
of the request. -/
inductive DeleteSite where
  | finalized | cleared
  | stale (seen : Option WorkflowRun)

inductive Call where
  /-- `Load`, a read from the leader. -/
  | load (id : String)
  | put (site : WriteSite) (run : WorkflowRun)
  | create (run : WorkflowRun)
  | update (site : WriteSite) (run : WorkflowRun) (rev : ℕ)
  | createIndex (id : String) (site : IndexSite)
  | deleteIndex (id : String)
  | createActive (id : String)
  | deleteActive (id : String) (site : DeleteSite)
  /-- The names of the snapshots and of the index entries. -/
  | keys
  | listActive
  /-- One read of `ParallelGetJSBestEffort`. -/
  | get (id : String)
  | getMeta
  | putMeta
  | now
  /-- `releaseAdmission`. -/
  | release (id : String)

/-- What a call yields when it succeeds. A `Create` tells whether the key is new. -/
def Value : Call → Type
  | .load _ => WorkflowRun
  | .put .. => ℕ
  | .create _ => Option ℕ
  | .update .. => ℕ
  | .createIndex .. => Bool
  | .deleteIndex _ => Unit
  | .createActive _ => Bool
  | .deleteActive .. => Unit
  | .keys => List String × List String
  | .listActive => List String
  | .get _ => Option WorkflowRun
  | .getMeta => Bool
  | .putMeta => Unit
  | .now => Time
  | .release _ => Unit

def Answer (op : Call) : Type := Except Err (Value op)

abbrev M := Prog Call Answer Err

def request (op : Call) : M (Value op) :=
  .call op fun
    | .ok v => .pure v
    | .error e => .fail e

def throw {α : Type} (e : Err) : M α := .fail e

def outcome {α : Type} (p : M α) : M (Except Err α) := p.attempt Err.isValue

def ignoring {α : Type} (p : M α) : M Unit := do
  let _ ← outcome p
  return ()

variable (run)

def isReconcilerOwned : Bool :=
  !run.status.isTerminal || run.releasePending

variable (id)

/-- A marker that exists is no error. -/
def createActiveEntry : M Unit := do
  let _ ← request (.createActive id)
  return ()

def writeRunIndexEntry : M Unit :=
  ignoring (request (.createIndex id .entry))

/-- The marker first. -/
def createEntryIndexes : M Unit := do
  if isReconcilerOwned run then
    createActiveEntry run.runID
    writeRunIndexEntry run.runID
  else writeRunIndexEntry run.runID

/-- A run without a revision keeps none. -/
def advanceRevision (rev : ℕ) : WorkflowRun :=
  { run with revision := run.revision.map fun _ => rev }

def saveInitial : M WorkflowRun := do
  let rev ← request (.put .initial run)
  createEntryIndexes run
  return advanceRevision run rev

/-- `none` where the run exists. -/
def createSnapshot : M (Option WorkflowRun) := do
  match ← request (.create run) with
  | none => return none
  | some rev => do
    createEntryIndexes run
    return some (advanceRevision run rev)

/-! ## Saving and ending a run -/

def load (id : String) : M WorkflowRun := request (.load id)

def save (site : WriteSite) (run : WorkflowRun) : M WorkflowRun :=
  match run.revision with
  | none => do
    let _ ← request (.put site run)
    return run
  | some rev => do
    let rev' ← request (.update site run rev)
    return { run with revision := some rev' }

def deleteActiveEntry (site : DeleteSite) : M Unit :=
  ignoring (request (.deleteActive id site))

/-- With the rounds that are left. -/
def saveReleaseDebt : ℕ → WorkflowRun → M WorkflowRun
  | 0, _ => throw .conflict
  | n + 1, run => do
    match ← outcome (save .debt { run with releasePending := true }) with
    | .ok saved => return saved
    | .error .conflict => do
      let fresh ← load run.runID
      if !fresh.status.isTerminal then
        throw (.other "run lost its terminal status")
      else saveReleaseDebt n fresh
    | .error e => throw e

def finalizeWithReleaseDebt : M Unit := do
  let run ← saveReleaseDebt releaseDebtSaveAttemptsMax run
  createActiveEntry run.runID

def afterPersist (releases : Bool) : M Unit :=
  if releases then request (.release run.runID) else return ()

def finalizeRun (status : RunStatus) (releases : Bool) : M Unit := do
  if run.status.isTerminal && run.completedAt.isSome then return ()
  else do
    let t ← request .now
    let run ← save .finalize (markTerminal run status t)
    match ← outcome (afterPersist run releases) with
    | .ok _ => deleteActiveEntry run.runID .finalized
    | .error _ => finalizeWithReleaseDebt run

/-- With `reconcileReleaseFailed`. -/
def reconcileReleasePending : M Unit := do
  match ← outcome (request (.release run.runID)) with
  | .ok _ => do
    let run ← save .clear { run with releasePending := false, releaseAttempts := 0 }
    deleteActiveEntry run.runID .cleared
  | .error _ => do
    let attempts := run.releaseAttempts + 1
    if Orchestrator.releaseAttemptsMax ≤ attempts then do
      let run ← save .clear
        { run with releasePending := false, releaseAttempts := attempts }
      deleteActiveEntry run.runID .cleared
    else do
      let _ ← save .clear { run with releaseAttempts := attempts }
      return ()

def reconcileReleasePendingRun : M Unit := do
  let run ← load id
  if run.status.isTerminal ∧ run.releasePending then reconcileReleasePending run
  else return ()

/-! ## Handlers -/

/-- What a handler changes in a run before it saves it. -/
structure Edit where
  status : RunStatus
  steps : Table String StepState

def Edit.apply (e : Edit) (run : WorkflowRun) : WorkflowRun :=
  { run with status := e.status, steps := e.steps }

/-- The end of a run, by a handler that takes it there. -/
structure Ending where
  status : RunStatus
  terminal : status.isTerminal = true
  releases : Bool

def proceed (edits : List Edit) (ending : Option Ending) : M Unit := do
  let run ← Prog.fold (fun run e => save .advance (e.apply run)) edits run
  match ending with
  | none => return ()
  | some e => finalizeRun run e.status e.releases

def fresh : WorkflowRun :=
  { run with completedAt := none, releasePending := false, releaseAttempts := 0
             revision := none }

/-- `createOrHealRun` and `createChildRun` behind their first read: the creating
write advances the revision that the new run is given. -/
def createRun (chain : Bool) (run : WorkflowRun) (edits : List Edit)
    (ending : Option Ending) : M Unit := do
  let run := { fresh run with revision := some 0 }
  if chain then
    match ← createSnapshot run with
    | some run => proceed run edits ending
    | none => do
      let existing ← load run.runID
      proceed existing edits ending
  else do
    let run ← saveInitial run
    proceed run edits ending

def startRun (chain : Bool) (run : WorkflowRun) (edits : List Edit)
    (ending : Option Ending) : M Unit := do
  match ← outcome (load run.runID) with
  | .ok existing => proceed existing edits ending
  | .error .runNotFound => createRun chain run edits ending
  | .error e => throw e

/-- A start that is refused leaves a finished run, which never gets its entry in
the index from here. -/
def refuseRun (status : RunStatus) : M Unit :=
  finalizeRun (fresh run) status false

def handleRun (edits : List Edit) (ending : Option Ending) : M Unit := do
  let run ← load id
  proceed run edits ending

/-! ## Repair -/

structure RepairStats where
  repaired : ℕ := 0
  orphansRemoved : ℕ := 0
  activeRepaired : ℕ := 0
  activeOrphansRemoved : ℕ := 0
  activeValidationTruncated : Bool := false

def RepairStats.add (s other : RepairStats) : RepairStats where
  repaired := s.repaired + other.repaired
  orphansRemoved := s.orphansRemoved + other.orphansRemoved
  activeRepaired := s.activeRepaired + other.activeRepaired
  activeOrphansRemoved := s.activeOrphansRemoved + other.activeOrphansRemoved
  activeValidationTruncated := s.activeValidationTruncated || other.activeValidationTruncated

def repairStatsAllZero (s : RepairStats) : Bool :=
  s.repaired = 0 && s.orphansRemoved = 0 && s.activeRepaired = 0 &&
    s.activeOrphansRemoved = 0 && !s.activeValidationTruncated

def runKeyScanMax : ℕ := 1000000

def repairPageMax : ℕ := 1000

def repairRunIndexMaxIterations : ℕ := runKeyScanMax / repairPageMax + 100

def repairRunIndexRetries : ℕ := 5

def activeOrphanGrace : Duration := 60 * second

/-- The source keeps both as sets, whose order of iteration is arbitrary. -/
def loadRunAndIndexIDSets : M (List String × List String) := do
  let keys ← request .keys
  if runKeyScanMax < keys.1.length then
    throw (.other "loadRunAndIndexIDSets: run key set exceeds bound")
  else return keys

/-- `ParallelGetJSBestEffort`: the value of each snapshot, where its read brought
one. -/
def parallelGetBestEffort : List String → M (List (String × Option WorkflowRun))
  | [] => return []
  | id :: ids => do
    let value ← request (.get id)
    let values ← parallelGetBestEffort ids
    return (id, value) :: values

/-- One round of `backfillMissingIndex`: the index entry first. -/
def backfillEntry (counts : ℕ × ℕ) : String × Option WorkflowRun → M (ℕ × ℕ)
  | (_, none) => return counts
  | (id, some run) => do
    let created ← request (.createIndex id .repair)
    if isReconcilerOwned run then do
      let marked ← request (.createActive id)
      return (counts.1 + Bool.toNat created, counts.2 + Bool.toNat marked)
    else return (counts.1 + Bool.toNat created, counts.2)

/-- The repaired entries and markers. -/
def backfillMissingIndex (runIDs indexIDs : List String) (pageMax : ℕ) : M (ℕ × ℕ) := do
  let missing := (runIDs.filter fun id => !indexIDs.contains id).take pageMax
  let values ← parallelGetBestEffort missing
  Prog.fold backfillEntry values (0, 0)

def removeOrphanIndexEntries (runIDs : List String) (pageMax : ℕ) : List String → ℕ → M ℕ
  | [], removed => return removed
  | id :: indexIDs, removed =>
    if pageMax ≤ removed then return removed
    else if runIDs.contains id then
      removeOrphanIndexEntries runIDs pageMax indexIDs removed
    else do
      request (.deleteIndex id)
      removeOrphanIndexEntries runIDs pageMax indexIDs (removed + 1)

def listActiveRunIDs : M (List String) := do
  let ids ← request .listActive
  if runKeyScanMax < ids.length then
    throw (.other "listActiveRunIDs: active-marker key set exceeds bound")
  else return ids

def withinActiveOrphanGrace : M Bool :=
  match run.completedAt with
  | none => return false
  | some t => do
    let n : Time ← request .now
    return decide (n - t < activeOrphanGrace)

/-- Is a marker stale for what was read of its run?  A read that brought no value
counts as a run that is gone. -/
def markerStale : Option WorkflowRun → M Bool
  | none => return true
  | some run =>
    if isReconcilerOwned run then return false
    else do
      let within ← withinActiveOrphanGrace run
      return !within

/-- One round of `repairActiveOrphans`. -/
def validateMarker (removed : ℕ) (x : String × Option WorkflowRun) : M ℕ := do
  if ← markerStale x.2 then do
    request (.deleteActive x.1 (.stale x.2))
    return removed + 1
  else return removed

/-- The removed markers, and whether there were more than the pass looks at. -/
def repairActiveOrphans (pageMax : ℕ) : M (ℕ × Bool) := do
  let activeIDs ← listActiveRunIDs
  let values ← parallelGetBestEffort (activeIDs.take pageMax)
  let removed ← Prog.fold validateMarker values 0
  return (removed, decide (pageMax < activeIDs.length))

def repairRunIndex (pageMax : ℕ) : M RepairStats := do
  let ids ← loadRunAndIndexIDSets
  let backfilled ← backfillMissingIndex ids.1 ids.2 pageMax
  let orphans ← removeOrphanIndexEntries ids.1 pageMax ids.2 0
  let validated ← repairActiveOrphans pageMax
  return { repaired := backfilled.1, activeRepaired := backfilled.2
           orphansRemoved := orphans, activeOrphansRemoved := validated.1
           activeValidationTruncated := validated.2 }

/-- With the retries that are left. -/
def repairRunIndexOnceWithRetry (pageMax : ℕ) : ℕ → M RepairStats
  | 0 => do
    match ← outcome (repairRunIndex pageMax) with
    | .ok stats => return stats
    | .error _ => throw (.other "run index repair failed")
  | n + 1 => do
    match ← outcome (repairRunIndex pageMax) with
    | .ok stats => return stats
    | .error _ => repairRunIndexOnceWithRetry pageMax n

/-- With the passes that are left. -/
def repairRunIndexToConvergenceWith (pageMax retries : ℕ) : ℕ → RepairStats → M RepairStats
  | 0, _ => throw (.other "run index did not converge")
  | n + 1, totals => do
    let stats ← repairRunIndexOnceWithRetry pageMax retries
    if repairStatsAllZero stats then return totals.add stats
    else repairRunIndexToConvergenceWith pageMax retries n (totals.add stats)

def repairRunIndexToConvergence : M Unit := do
  let _ ← repairRunIndexToConvergenceWith repairPageMax repairRunIndexRetries
    repairRunIndexMaxIterations {}
  return ()

/-! ## The one-time build -/

structure RunBuildMeta where
  runID : String
  createdAt : Time
  active : Bool

def runBuildMeta : String × Option WorkflowRun → Option RunBuildMeta
  | (_, none) => none
  | (id, some run) => some ⟨id, run.createdAt, isReconcilerOwned run⟩

def loadAllRunMetasForBuild : M (List RunBuildMeta) := do
  let keys ← request .keys
  if runKeyScanMax < keys.1.length then
    throw (.other "loadAllRunMetasForBuild: run key set exceeds bound")
  else do
    let values ← parallelGetBestEffort keys.1
    return values.filterMap runBuildMeta

/-- One round of `buildActiveIndexOnce`: the index entry first. -/
def buildEntry (_ : Unit) (m : RunBuildMeta) : M Unit := do
  let _ ← request (.createIndex m.runID .repair)
  if m.active then createActiveEntry m.runID
  else return ()

def buildActiveIndexOnce : M Unit := do
  let built : Bool ← request .getMeta
  if built then return ()
  else do
    let metas ← loadAllRunMetasForBuild
    Prog.fold buildEntry (metas.mergeSort fun m m' => decide (m.createdAt ≤ m'.createdAt)) ()
    request .putMeta

/-! ## The store -/

variable {run id}

/-- The keys of the bucket. `ids` lists the snapshots that there are. -/
structure RunStore where
  now : Time
  runs : Bucket String WorkflowRun
  ids : Finset String
  mem_ids : ∀ id, id ∈ ids ↔ (runs.entries id).isSome = true
  index : Finset String
  active : Finset String
  built : Bool

namespace RunStore

def empty : RunStore where
  now := 0
  runs := ⟨fun _ => none, 0⟩
  ids := ∅
  mem_ids _ := by simp
  index := ∅
  active := ∅
  built := false

/-- An accepted write of a run. Its revision is not part of the value. -/
def write (s : RunStore) (run : WorkflowRun) : RunStore :=
  { s with
    runs := s.runs.write run.runID { run with revision := none }
    ids := insert run.runID s.ids
    mem_ids := by
      intro id
      by_cases hid : id = run.runID
      · subst hid
        simp [Bucket.write_self]
      · rw [Finset.mem_insert, Bucket.write_of_ne _ _ hid, s.mem_ids id]
        simp [hid] }

variable (s : RunStore)

def value (id : String) : Option WorkflowRun :=
  (s.runs.entries id).map (·.2)

def owned (id : String) : Bool :=
  (s.value id).any isReconcilerOwned

@[simp] lemma value_write_self (run : WorkflowRun) :
    (s.write run).value run.runID = some { run with revision := none } := by
  simp [value, write]

lemma value_write_of_ne (h : id ≠ run.runID) : (s.write run).value id = s.value id := by
  simp [value, write, Bucket.write_of_ne _ _ h]

@[simp] lemma owned_write_self (run : WorkflowRun) :
    (s.write run).owned run.runID = isReconcilerOwned run := by
  simp [owned, isReconcilerOwned]

lemma owned_write_of_ne (h : id ≠ run.runID) : (s.write run).owned id = s.owned id := by
  rw [owned, value_write_of_ne s h, owned]

/-- How the server treats a call: it answers, it refuses, the answer is lost, or it
answers with the keys in some order. -/
inductive Choice where
  | done | fail | lost
  | listed (keys more : List String)
  deriving DecidableEq

def reply {α : Type} (s : RunStore) (a : Except Err α) : Choice → Option (Except Err α × RunStore)
  | .done => some (a, s)
  | .fail => some (.error .unavailable, s)
  | _ => none

/-- A write that is accepted, refused, or accepted without an answer. -/
def accept {α : Type} (s : RunStore) (a : α) (t : RunStore) :
    Choice → Option (Except Err α × RunStore)
  | .done => some (.ok a, t)
  | .lost => some (.error .unavailable, t)
  | .fail => some (.error .unavailable, s)
  | .listed .. => none

lemma reply_cases {s t : RunStore} {a b : Except Err α} {c : Choice}
    (h : s.reply a c = some (b, t)) : t = s ∧ (b = a ∨ b = .error .unavailable) := by
  cases c with
  | done => cases h; exact ⟨rfl, .inl rfl⟩
  | fail => cases h; exact ⟨rfl, .inr rfl⟩
  | lost | listed keys more => cases h

lemma accept_cases {s t u : RunStore} {a : α} {b : Except Err α} {c : Choice}
    (h : s.accept a t c = some (b, u)) :
    (u = t ∧ (b = .ok a ∨ b = .error .unavailable)) ∨ (u = s ∧ b = .error .unavailable) := by
  cases c with
  | done => cases h; exact .inl ⟨rfl, .inl rfl⟩
  | lost => cases h; exact .inl ⟨rfl, .inr rfl⟩
  | fail => cases h; exact .inr ⟨rfl, rfl⟩
  | listed keys more => cases h

/-- `keys` lists exactly these names. -/
def Lists (keys : List String) (names : Finset String) : Prop :=
  keys.Nodup ∧ keys.toFinset = names

instance (keys : List String) (names : Finset String) : Decidable (Lists keys names) :=
  inferInstanceAs (Decidable (_ ∧ _))

def createIfNone (run : WorkflowRun) : Choice → Option (Except Err (Option ℕ) × RunStore) :=
  if (s.runs.entries run.runID).isSome then s.reply (.ok none)
  else s.accept (some (s.runs.last + 1)) (s.write run)

def compareAndSet (run : WorkflowRun) (rev : ℕ) : Choice → Option (Except Err ℕ × RunStore) :=
  if (s.runs.entries run.runID).map (·.1) = some rev then
    s.accept (s.runs.last + 1) (s.write run)
  else s.reply (.error .conflict)

def addIndex (id : String) : Choice → Option (Except Err Bool × RunStore) :=
  if id ∈ s.index then s.reply (.ok false)
  else s.accept true { s with index := insert id s.index }

def addActive (id : String) : Choice → Option (Except Err Bool × RunStore) :=
  if id ∈ s.active then s.reply (.ok false)
  else s.accept true { s with active := insert id s.active }

def exec : (op : Call) → Choice → Option (Answer op × RunStore)
  | .load id =>
    s.reply (match s.runs.entries id with
      | some (rev, run) => .ok { run with revision := some rev }
      | none => .error .runNotFound)
  | .put _ run => s.accept (s.runs.last + 1) (s.write run)
  | .create run => s.createIfNone run
  | .update _ run rev => s.compareAndSet run rev
  | .createIndex id _ => s.addIndex id
  | .deleteIndex id => s.accept () { s with index := s.index.erase id }
  | .createActive id => s.addActive id
  | .deleteActive id _ => s.accept () { s with active := s.active.erase id }
  | .keys => fun
      | .listed runIDs indexIDs =>
        if Lists runIDs s.ids ∧ Lists indexIDs s.index then
          some (.ok (runIDs, indexIDs), s)
        else none
      | .fail => some (.error .unavailable, s)
      | _ => none
  | .listActive => fun
      | .listed ids _ =>
        if Lists ids s.active then some (.ok ids, s) else none
      | .fail => some (.error .unavailable, s)
      | _ => none
  | .get id => fun
      | .done => some (.ok ((s.runs.entries id).map (·.2)), s)
      -- The read times out.
      | .fail => some (.ok none, s)
      -- The caller is cancelled.
      | .lost => some (.error .unavailable, s)
      | _ => none
  | .getMeta => s.reply (.ok s.built)
  | .putMeta => s.accept () { s with built := true }
  | .now => fun
      | .done => some (.ok s.now, s)
      | _ => none
  | .release _ => s.reply (.ok ())

section Cases

variable {s t : RunStore} {c : Choice}

lemma compareAndSet_cases {rev : ℕ} {a : Except Err ℕ}
    (h : s.compareAndSet run rev c = some (a, t)) :
    ((∃ stored, s.runs.entries run.runID = some (rev, stored)) ∧ t = s.write run ∧
      (a = .ok (s.runs.last + 1) ∨ a = .error .unavailable)) ∨
    (t = s ∧ (a = .error .conflict ∨ a = .error .unavailable)) := by
  rw [compareAndSet] at h
  by_cases hrev : (s.runs.entries run.runID).map (·.1) = some rev
  · rw [if_pos hrev] at h
    obtain ⟨⟨_, stored⟩, hstored, rfl⟩ := Option.map_eq_some_iff.mp hrev
    rcases accept_cases h with ⟨rfl, ha⟩ | ⟨rfl, ha⟩
    · exact .inl ⟨⟨stored, hstored⟩, rfl, ha⟩
    · exact .inr ⟨rfl, .inr ha⟩
  · rw [if_neg hrev] at h
    obtain ⟨rfl, ha⟩ := reply_cases h
    exact .inr ⟨rfl, ha⟩

lemma createIfNone_cases {a : Except Err (Option ℕ)} (h : s.createIfNone run c = some (a, t)) :
    (s.runs.entries run.runID = none ∧ t = s.write run ∧
      (a = .ok (some (s.runs.last + 1)) ∨ a = .error .unavailable)) ∨
    (t = s ∧ (a = .ok none ∨ a = .error .unavailable)) := by
  rw [createIfNone] at h
  by_cases hrun : (s.runs.entries run.runID).isSome = true
  · rw [if_pos hrun] at h
    obtain ⟨rfl, ha⟩ := reply_cases h
    exact .inr ⟨rfl, ha⟩
  · rw [if_neg hrun] at h
    rcases accept_cases h with ⟨rfl, ha⟩ | ⟨rfl, ha⟩
    · exact .inl ⟨Option.not_isSome_iff_eq_none.mp hrun, rfl, ha⟩
    · exact .inr ⟨rfl, .inr ha⟩

lemma addIndex_cases {a : Except Err Bool} (h : s.addIndex id c = some (a, t)) :
    t = s ∨ t = { s with index := insert id s.index } := by
  rw [addIndex] at h
  by_cases hid : id ∈ s.index
  · rw [if_pos hid] at h
    exact .inl (reply_cases h).1
  · rw [if_neg hid] at h
    rcases accept_cases h with ⟨rfl, -⟩ | ⟨rfl, -⟩
    · exact .inr rfl
    · exact .inl rfl

lemma addActive_cases {a : Except Err Bool} (h : s.addActive id c = some (a, t)) :
    (t = s ∧ (id ∈ s.active ∨ a = .error .unavailable)) ∨
      t = { s with active := insert id s.active } := by
  rw [addActive] at h
  by_cases hid : id ∈ s.active
  · rw [if_pos hid] at h
    exact .inl ⟨(reply_cases h).1, .inl hid⟩
  · rw [if_neg hid] at h
    rcases accept_cases h with ⟨rfl, -⟩ | ⟨rfl, ha⟩
    · exact .inr rfl
    · exact .inl ⟨rfl, .inr ha⟩

end Cases

end RunStore

/-! ## The system -/

inductive Job where
  | start (chain : Bool) (run : WorkflowRun) (edits : List Edit) (ending : Option Ending)
  | refuse (run : WorkflowRun) (ending : Ending)
  | handle (id : String) (edits : List Edit) (ending : Option Ending)
  | reconcile (id : String)
  | repair (pageMax : ℕ)
  | build

def startJob : Job → M Unit
  | .start chain run edits ending => startRun chain run edits ending
  | .refuse run ending => refuseRun run ending.status
  | .handle id edits ending => handleRun id edits ending
  | .reconcile id => reconcileReleasePendingRun id
  | .repair pageMax => ignoring (repairRunIndex pageMax)
  | .build => buildActiveIndexOnce

/-- Any number of engines over one store; time passes by itself. -/
def system : System Call Answer Err RunStore where
  Choice := RunStore.Choice
  exec := RunStore.exec
  Job := Job
  start _ j := some (startJob j)
  Move := ℕ
  move s d := some { s with now := s.now + d }

end Dagnats.RunIndex
