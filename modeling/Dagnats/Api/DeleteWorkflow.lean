import Dagnats.Dag.Validate

/-!
# Deleting a workflow

`DeleteWorkflow` of the service, with the scans that guard it: `ListActive` over
the markers of active runs and `ScanNewestFirst` over the index of all runs.
Both fetch the runs they list with best-effort reads, of which any may be
skipped.

The records are what one call finds: `activeReads` and `indexReads` tell which
reads are answered. What a delete that fails leaves behind is left out.
-/

namespace Dagnats.DeleteWorkflow

/-- What a call of `DeleteWorkflow` finds. A run of which the value does not decode is
`some none`. -/
structure Env where
  defined : Bool
  /-- The triggers, with the workflow that each of them starts. -/
  triggers : Except Fault (List (String × String))
  runs : String → Option (Option WorkflowRun)
  active : Except Fault (List String)
  index : Except Fault (List String)
  activeReads : String → Bool
  indexReads : String → Bool
  versions : Except Fault (List String)

inductive Err where
  | notFound
  | fault (f : Fault)
  | hasTriggers (triggerIDs : List String)
  | hasNonTerminalRuns (listed : List String) (count : ℕ) (atLeast : Bool)

def runKeyScanMax : ℕ := 1000000
def scanBatchSize : ℕ := 256
def scanFetchMax : ℕ := 10000

def dedupeOrderedKeys (keys : List String) : List String :=
  keys.eraseDups

def listActiveRunIDs (env : Env) : Except Fault (List String) := do
  let raw ← env.active
  if runKeyScanMax < raw.length then
    .error (.error "listActiveRunIDs: active-marker key set exceeds bound (1000000)")
  else return dedupeOrderedKeys raw

def listRunIndexKeys (env : Env) : Except Fault (List String) := do
  let raw ← env.index
  if runKeyScanMax < raw.length then .error (.panic "listRunIndexKeys: key set exceeds bound")
  else return dedupeOrderedKeys raw

/-- A run whose read is skipped is left out. -/
def fetchRunsByID (env : Env) (reads : String → Bool) : List String → Except Fault
    (List WorkflowRun)
  | [] => .ok []
  | id :: ids =>
    match if reads id then env.runs id else none with
    | none => fetchRunsByID env reads ids
    | some none => .error (.error "unmarshal")
    | some (some run) => (fetchRunsByID env reads ids).map (run :: ·)

def isReconcilerOwned (run : WorkflowRun) : Bool :=
  !run.status.isTerminal || run.releasePending

/-- The runs, and whether there are more markers than it looks at. -/
def listActive (env : Env) (fetchMax : ℕ) : Except Fault (List WorkflowRun × Bool) := do
  let activeIDs ← listActiveRunIDs env
  let fetched ← fetchRunsByID env env.activeReads (activeIDs.take fetchMax)
  return (fetched.filter isReconcilerOwned, fetchMax < activeIDs.length)

/-- The loop of `ScanNewestFirst`, with the rounds that are left: `rest` are the keys
that it has not come to, the oldest first. -/
def scanRounds (env : Env) (pred : WorkflowRun → Bool) (limit fetchMax : ℕ) :
    ℕ → List String → List WorkflowRun → ℕ → Except Fault (List WorkflowRun × List String × ℕ)
  | 0, rest, found, attempted => .ok (found, rest, attempted)
  | rounds + 1, rest, found, attempted =>
    if rest = [] ∨ limit ≤ found.length ∨ fetchMax ≤ attempted then .ok (found, rest, attempted)
    else do
      let batchSize := min (min scanBatchSize rest.length) (fetchMax - attempted)
      let start := rest.length - batchSize
      let fetched ← fetchRunsByID env env.indexReads (rest.drop start)
      scanRounds env pred limit fetchMax rounds (rest.take start)
        (found ++ (fetched.reverse.filter pred).take (limit - found.length)) (attempted + batchSize)

/-- What a scan attempted, and whether it stopped before the limit and before the end. -/
structure ScanStats where
  attempted : ℕ
  truncated : Bool

/-- A round takes a key at least, so there are as many as keys. -/
def scanNewestFirst (env : Env) (pred : WorkflowRun → Bool) (limit fetchMax : ℕ) :
    Except Fault (List WorkflowRun × ScanStats) :=
  if limit = 0 then .error (.panic "ScanNewestFirst: limit must be positive")
  else if fetchMax < limit then .error (.panic "ScanNewestFirst: fetchMax must be >= limit")
  else do
    let indexKeys ← listRunIndexKeys env
    let (found, rest, attempted) ←
      scanRounds env pred limit (min fetchMax scanFetchMax) indexKeys.length indexKeys [] 0
    return (found, ⟨attempted, !rest.isEmpty && found.length < limit⟩)

def runtimeRunScanMax : ℕ := 10000
def deleteGuardIndexFetchMax : ℕ := scanFetchMax
def deleteGuardIndexMatchMax : ℕ := 1000
def nonTerminalRunListCap : ℕ := 20

variable (env : Env) (name : String)

/-- Among the first ten thousand triggers. -/
def referencingTriggerIDs : Except Fault (List String) := do
  let triggers ← env.triggers
  return ((triggers.take 10000).filter fun t => t.2 = name).map Prod.fst

def activeRunIDsForWorkflow : Except Fault (List String) := do
  let (runs, truncated) ← listActive env runtimeRunScanMax
  if truncated then
    .error (.error ("non-terminal run scan for workflow " ++ quoted name ++
      " truncated at 10000 -- refusing to under-count for delete safety"))
  else return (runs.filter fun run => run.workflowID = name).map (·.runID)

/-- The identifiers, and whether there may be more. -/
def indexedNonTerminalRunIDs : Except Fault (List String × Bool) := do
  let limit := min deleteGuardIndexMatchMax deleteGuardIndexFetchMax
  let (runs, stats) ← scanNewestFirst env
    (fun run => run.workflowID = name && !run.status.isTerminal) limit deleteGuardIndexFetchMax
  return (runs.map (·.runID), stats.truncated || limit ≤ runs.length)

def mergeRunIDs (first second : List String) : List String :=
  (first ++ second).eraseDups

/-- The refusal, if there is one. -/
def nonTerminalRunsForWorkflow : Except Fault (Option Err) := do
  let activeIDs ← activeRunIDsForWorkflow env name
  let (indexedIDs, more) ← indexedNonTerminalRunIDs env name
  let ids := mergeRunIDs activeIDs indexedIDs
  return if ids.isEmpty && !more then none
    else some (.hasNonTerminalRuns (ids.take nonTerminalRunListCap) ids.length more)

/-- Both guards: the reason not to delete, if there is one. -/
def refusal : Except Fault (Option Err) := do
  let triggerIDs ← referencingTriggerIDs env name
  if triggerIDs.isEmpty then nonTerminalRunsForWorkflow env name
  else return some (.hasTriggers triggerIDs)

/-- The keys that it deletes, versions first. -/
def deleteWorkflowInner (force : Bool) : Except Err (List String) :=
  if env.defined then
    match if force then .ok none else refusal env name with
    | .error f => .error (.fault f)
    | .ok (some err) => .error err
    | .ok none => (env.versions.map (· ++ [name])).mapError .fault
  else .error .notFound

end Dagnats.DeleteWorkflow
