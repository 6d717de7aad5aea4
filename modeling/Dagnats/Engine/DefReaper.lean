import Dagnats.Engine.World

/-!
# The reaper of run-scoped definitions

`reapEphemeralDefs` of `reconciler.go` with `collectReapable`,
`defShouldBeReaped` and `rootFromDefKey`, and the names of run-scoped
definitions as `runtimes.go` builds them. A pass lists the keys of
`workflow_defs`, picks those whose root run is gone or has been terminal beyond
the grace period, and deletes them one by one. An error while it picks ends the
pass before anything is deleted.
-/

namespace Dagnats

open Interaction

def ephemeralDefPrefix : String := "agent."

def scopePrefix (root : String) : String :=
  ephemeralDefPrefix ++ root ++ "."

/-- The key of a definition that the tree of `root` registered, and what its keys of
versions begin with. -/
def scopeName (root name : String) : String :=
  scopePrefix root ++ name

/-- `rootFromDefKey`, where `rest` is the key behind `agent.`. -/
def rootOfRest (rest : List Char) : Option String :=
  let root := rest.takeWhile (· ≠ '.')
  match rest.dropWhile (· ≠ '.') with
  | _ :: name =>
    if root.isEmpty || name.isEmpty then none else some (String.ofList root)
  | [] => none

/-- `none` for a key that is never swept. -/
def rootFromDefKey (key : String) : Option String :=
  if ephemeralDefPrefix.toList.isPrefixOf key.toList then
    rootOfRest (key.toList.drop ephemeralDefPrefix.toList.length)
  else none

inductive ReapCall where
  /-- The keys of `workflow_defs`. -/
  | keys
  | load (runID : String)
  | now
  | delete (key : String)
  deriving DecidableEq

def ReapAnswer : ReapCall → Type
  | .keys => Except Err (List String)
  | .load _ => Except Err WorkflowRun
  | .now => Time
  | .delete _ => Except Err Unit

abbrev ReapProg := Prog ReapCall ReapAnswer Err

def defReaperMaxScan : ℕ := 1000000

variable (grace : Duration)

/-- The checks of `defShouldBeReaped` on the root that it loaded. -/
def rootExpired (run : WorkflowRun) : ReapProg Bool :=
  if run.parentRunID ≠ "" then .pure false
  else if !run.status.isTerminal then .pure false
  else
    match run.completedAt with
    | none => .pure false
    | some t => .call .now fun (n : Time) => .pure (decide (grace < n - t))

def defShouldBeReaped (root : String) : ReapProg Bool :=
  .call (.load root) fun
    | .error .runNotFound => .pure true
    | .error e => .fail e
    | .ok run => rootExpired grace run

def collectFrom (grace : Duration) (maxDelete : ℕ) :
    List String → List String → ReapProg (List String)
  | [], doomed => .pure doomed
  | key :: keys, doomed =>
    if maxDelete ≤ doomed.length then .pure doomed
    else
      match rootFromDefKey key with
      | none => collectFrom grace maxDelete keys doomed
      | some root => do
        let reap ← defShouldBeReaped grace root
        collectFrom grace maxDelete keys (if reap then doomed ++ [key] else doomed)

def collectReapable (maxDelete : ℕ) : ReapProg (List String) :=
  .call .keys fun
    | .error e => .fail e
    | .ok keys =>
      if defReaperMaxScan < keys.length then
        .fail (.other "def key set exceeds bound")
      else collectFrom grace maxDelete keys []

/-- The second phase: the first error ends it. -/
def deleteAll : List String → ReapProg Unit
  | [] => .pure ()
  | key :: keys =>
    .call (.delete key) fun
      | .ok _ => deleteAll keys
      | .error _ => .pure ()

def reapEphemeralDefs (grace : Duration) (maxDelete : ℕ) : ReapProg Unit := do
  if maxDelete = 0 then
    .fail (.panic "reapEphemeralDefs: maxDelete must be positive")
  else
    match ← (collectReapable grace maxDelete).attempt Err.isValue with
    | .error _ => return ()
    | .ok doomed => deleteAll doomed

/-- What a run key holds; `none` stands for a value that does not decode. -/
structure ReapState where
  now : Time
  defs : List String
  runs : String → Option (Option WorkflowRun)

namespace ReapState

def load (s : ReapState) (runID : String) : Except Err WorkflowRun :=
  match s.runs runID with
  | none => .error .runNotFound
  | some none => .error (.other "unmarshal run")
  | some (some run) => .ok run

def without (s : ReapState) (key : String) : ReapState :=
  { s with defs := s.defs.filter (· ≠ key) }

def exec (s : ReapState) : (op : ReapCall) → Choice → Option (ReapAnswer op × ReapState)
  | .keys, .done => some (.ok s.defs, s)
  | .keys, .fail => some (.error .unavailable, s)
  | .load runID, .done => some (s.load runID, s)
  | .load _, .fail => some (.error .unavailable, s)
  | .now, .done => some (s.now, s)
  | .delete key, .done => some (.ok (), s.without key)
  | .delete key, .lost => some (.error .unavailable, s.without key)
  | .delete _, .fail => some (.error .unavailable, s)
  | _, _ => none

end ReapState

/-- Passes of the reaper, with everyone else at work on the same buckets. -/
def reaper (maxDelete : ℕ) : System ReapCall ReapAnswer Err ReapState where
  Choice := Choice
  exec := ReapState.exec
  Job := Unit
  start _ _ := some (reapEphemeralDefs grace maxDelete)
  Move := ReapState
  move _ s := some s

end Dagnats
