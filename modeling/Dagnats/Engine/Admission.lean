import Dagnats.Dag.Priority
import Dagnats.Engine.Store

/-!
# Admission of a run

`admission.go`: the singleton lock of the workflow is claimed first, then the
priority of the run is read off its input, then a slot of the workflow is taken.
A run that finds the lock held is skipped or displaces the holder, and a run
without a slot has to wait.

The lock is claimed before the run is stored, so a lock whose holder is not
stored counts as held for a while. A lock that does not decode, which the source
takes for stale, is the one with an empty holder here.
-/

namespace Dagnats

def acquireRun (workflowID runID : String) (limit : ℤ) : M Bool :=
  if limit ≤ 0 then return true
  else request (.acquire (.run workflowID) runID limit)

def acquireTask (task runID stepID : String) (limit : ℤ) : M Bool :=
  if limit ≤ 0 then return true
  else request (.acquire (.task task) (taskSlotHolder runID stepID) limit)

inductive AdmissionAction where
  | proceed | skip | queue
  deriving DecidableEq

structure AdmissionResult where
  action : AdmissionAction := .proceed
  cancelID : String := ""
  skippedBy : String := ""
  offset : ℤ := 0
  singletonKey : String := ""

def singletonClaimAttemptsMax : ℕ := 4

def singletonUnsavedGrace : Duration := 120 * second

def singletonDigestPrefix : String := "h."

def validKVKey (key : String) : Bool :=
  key ≠ "" && !key.startsWith "." && !key.endsWith "." && !hasSubstring key ".." &&
    key.toList.all fun c =>
      c.isAlphanum || c = '-' || c = '/' || c = '_' || c = '=' || c = '.'

/-- The key before it is encoded: the name of the workflow, and the value the
configuration selects in the input. -/
def rawLockKey (workflowName : String) (cfg : SingletonConfig) (input : Raw) :
    Except Fault String :=
  if cfg.key = "" then .ok workflowName
  else
    match extractDotPath cfg.key input with
    | .ok v => .ok (workflowName ++ "." ++ v.display)
    | .error (.error _) => .ok workflowName
    | .error (.panic msg) => .error (.panic msg)

def singletonLockKey (digest : String → String) (workflowName : String)
    (cfg : SingletonConfig) (input : Raw) : Except Fault String :=
  (rawLockKey workflowName cfg input).map fun key =>
    if validKVKey key && !key.startsWith singletonDigestPrefix then key
    else singletonDigestPrefix ++ digest key

def createLock (key : String) (lock : SingletonLock) : M Bool :=
  request (.createLock key lock)

def updateLock (key : String) (lock : SingletonLock) (rev : ℕ) : M Bool :=
  request (.updateLock key lock rev)

/-- Does the holder of the lock still hold it? The second part of the result is not in
the source: no snapshot of the holder was found. -/
def singletonHolder (lock : SingletonLock) (created : Time) : M (Bool × Bool) := do
  if lock.runID = "" then return (false, false)
  else
    match ← outcome (load lock.runID) with
    | .ok run => return (!run.status.isTerminal, false)
    | .error .runNotFound => do
      let t ← now
      return (t - created < singletonUnsavedGrace, true)
    | .error e => throw e

/-- `none` means that a rival was first. -/
def updateSingletonLock (key : String) (lock : SingletonLock) (rev : ℕ)
    (result : AdmissionResult) : M (Option AdmissionResult) := do
  if ← updateLock key lock rev then return some result
  else return none

def applySingletonMode (mode : SingletonMode) (key newRunID existingRunID : String)
    (rev : ℕ) : M (Option AdmissionResult) :=
  match mode with
  | .skip => return some { action := .skip, skippedBy := existingRunID }
  | .cancel =>
    updateSingletonLock key { runID := newRunID, displaced := existingRunID } rev
      { cancelID := existingRunID }
  | .other => panic "applySingletonMode: unknown mode"

/-- `none` means that the caller should look again. -/
def trySingletonClaim (mode : SingletonMode) (key newRunID : String) :
    M (Option AdmissionResult) := do
  if key = "" ∨ newRunID = "" then
    panic "trySingletonClaim: kvKey and newRunID must not be empty"
  else if ← createLock key { runID := newRunID } then return some {}
  else
    match ← request (.getLock key) with
    | none => return none
    | some (rev, lock, created) => do
      let (held, unsaved) ← singletonHolder lock created
      if lock.runID = newRunID then return some { cancelID := lock.displaced }
      else if !held then
        updateSingletonLock key { runID := newRunID, unsaved } rev {}
      else applySingletonMode mode key newRunID lock.runID rev

/-- The loop of `singletonCheck`, with the attempts that are left. -/
def singletonClaims (mode : SingletonMode) (key newRunID : String) : ℕ → M AdmissionResult
  | 0 => throw (.other ("singleton lock " ++ key ++ " changed during admission"))
  | n + 1 => do
    match ← trySingletonClaim mode key newRunID with
    | some result => return result
    | none => singletonClaims mode key newRunID n

/-- A fault of a function of the `dag` package. -/
def Err.ofFault : Fault → Err
  | .error msg => .other msg
  | .panic msg => .panic msg

def ofFault {α : Type} : Except Fault α → M α
  | .ok a => .pure a
  | .error f => .fail (.ofFault f)

namespace Orchestrator

variable (o : Orchestrator) (d : WorkflowDef) (runID : String)

/-- The result carries the key of the lock. -/
def singletonCheck (input : Raw) : M AdmissionResult := do
  match d.singleton with
  | none => return {}
  | some cfg =>
    if !o.hasSingleton then return {}
    else do
      let key ← ofFault (singletonLockKey o.digest d.name cfg input)
      let result ← singletonClaims cfg.mode key runID singletonClaimAttemptsMax
      return { result with singletonKey := key }

def acquireSlot : M Bool :=
  match d.concurrency with
  | some limit =>
    if o.hasConcurrency then acquireRun d.name runID limit.maxRuns
    else return true
  | none => return true

/-- `Admit`. -/
def admitRun (input : Raw) : M AdmissionResult := do
  let claim ← o.singletonCheck d runID input
  if claim.action = .skip then return claim
  else do
    let offset ← ofFault (resolvePriority d.priority input)
    let acquired ← o.acquireSlot d runID
    return { claim with
      offset := offset, action := if acquired then .proceed else .queue }

/-- A lock that cannot be read, or that another run holds, is left alone. -/
def releaseSingletonLock (run : WorkflowRun) : M Unit := do
  if !o.hasSingleton || run.singletonKey = "" then return ()
  else
    match ← outcome (request (.getLock run.singletonKey)) with
    | .error _ => return ()
    | .ok none => return ()
    | .ok (some (rev, lock, _)) =>
      if lock.runID ≠ run.runID then return ()
      else do
        let _ ← request (.deleteLock run.singletonKey run.runID rev)
        return ()

end Orchestrator

end Dagnats
