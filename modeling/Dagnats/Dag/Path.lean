import Dagnats.Dag.Resolve

/-!
# Strings, dot paths and derived documents

The string functions the engine applies to step identifiers and to the paths of
a definition: `strings.Split`, `strconv.Atoi`, `ExtractDotPath`,
`Match.Resolve`, the identifiers of map instances, and the documents computed
from the outputs of a run.
-/

namespace Dagnats

/-- A Go function that returns an error, or panics on a broken precondition. -/
inductive Fault where
  | error (msg : String)
  | panic (msg : String)
  deriving DecidableEq

/-- Leftmost, non-overlapping occurrences; `skip` counts the characters of the
separator that are still to be passed over. -/
def splitChars (sep : List Char) : List Char → ℕ → List (List Char)
  | [], _ => [[]]
  | _ :: cs, skip + 1 => splitChars sep cs skip
  | c :: cs, 0 =>
    if sep.isPrefixOf (c :: cs) then [] :: splitChars sep cs (sep.length - 1)
    else
      match splitChars sep cs 0 with
      | [] => [[c]]
      | word :: words => (c :: word) :: words

/-- `strings.Split` for a separator that is not empty. -/
def splitString (s sep : String) : List String :=
  (splitChars sep.toList s.toList 0).map String.ofList

def hasSubstring (s sub : String) : Bool :=
  1 < (splitString s sub).length

def parseDigits (cs : List Char) : Option ℕ :=
  if cs.isEmpty ∨ ¬cs.all Char.isDigit then none
  else some (cs.foldl (fun n c => 10 * n + (c.toNat - '0'.toNat)) 0)

def signedDigits (s : String) : Option ℤ :=
  match s.toList with
  | '-' :: cs => (parseDigits cs).map fun n => -(n : ℤ)
  | '+' :: cs => (parseDigits cs).map fun n => (n : ℤ)
  | cs => (parseDigits cs).map fun n => (n : ℤ)

/-- `strconv.Atoi`, with the range of its integers. -/
def atoi (s : String) : Option ℤ :=
  (signedDigits s).filter fun n => -2 ^ 63 ≤ n && n < 2 ^ 63

def isMapInstanceID (stepID : String) : Bool :=
  hasSubstring stepID ".map."

def mapInstanceID (stepID : String) (index : ℕ) : String :=
  stepID ++ ".map." ++ toString index

/-- It panics on other identifiers. -/
def parseMapInstanceID (stepID : String) : Except Fault (String × ℤ) :=
  match splitString stepID ".map." with
  | [base, index] =>
    match atoi index with
    | some i => .ok (base, i)
    | none => .error (.panic ("parseMapInstanceID: invalid index: " ++ index))
  | _ => .error (.panic ("parseMapInstanceID: invalid format: " ++ stepID))

/-- The compact text of a document, without escapes. -/
def Json.render : Json → String
  | .null => "null"
  | .bool b => if b then "true" else "false"
  | .num q => toString q
  | .str s => "\"" ++ s ++ "\""
  | .arr items => "[" ++ ",".intercalate (renders items) ++ "]"
  | .obj fields => "\x7b" ++ ",".intercalate (renderFields fields) ++ "\x7d"
where
  renders : List Json → List String
    | [] => []
    | j :: js => j.render :: renders js
  renderFields : List (String × Json) → List String
    | [] => []
    | (k, j) :: fs => ("\"" ++ k ++ "\":" ++ j.render) :: renderFields fs

/-- `string(payload)`. -/
def Raw.toText : Raw → String
  | .nil => ""
  | .text s => s
  | .doc j => j.render

def followPath : List String → Json → Except Fault Json
  | [], j => .ok j
  | part :: parts, .obj fields =>
    match (Json.obj fields).field? part with
    | some v => followPath parts v
    | none => .error (.error ("key not found: " ++ part))
  | part :: _, _ => .error (.error ("expected object at " ++ part))

def extractDotPath (path : String) (data : Raw) : Except Fault Json :=
  if path = "" then .error (.panic "ExtractDotPath: path must not be empty")
  else
    match data with
    | .nil => .error (.panic "ExtractDotPath: data must not be nil")
    | .text _ => .error (.error "unmarshal")
    | .doc j => followPath (splitString path ".") j

structure ResolvedMatch where
  left : String
  op : String
  right : Json

/-- `step.<id>.<any>.<path>` in the output of that step. -/
def resolveStepPath (path : String) (run : WorkflowRun) : Except Fault Json :=
  match splitString path "." with
  | _ :: stepID :: _ :: field :: rest =>
    match (run.step stepID).output with
    | .nil => .error (.error ("step has no output: " ++ stepID))
    | data => extractDotPath (".".intercalate (field :: rest)) data
  | _ => .error (.error ("invalid step path: " ++ path))

/-- `input.<path>` in the run input. -/
def resolveInputPath (path : String) (input : Raw) : Except Fault Json :=
  match input with
  | .nil => .error (.panic "resolveInputPath: workflowInput must not be nil")
  | data => extractDotPath (String.ofList (path.toList.drop 6)) data

/-- `Match.Resolve` against the outputs of a run. `outputs` is false where the
source passes no outputs at all. -/
def Match.resolve (m : Match) (run : WorkflowRun) (outputs : Bool) : Except Fault ResolvedMatch :=
  if m.right = "" then .error (.panic "Match.Resolve: Right must not be empty")
  else if m.left = "" then
    .error (.panic "Match.Resolve: Left must not be empty")
  else if "step.".toList.isPrefixOf m.right.toList then
    if outputs then
      (resolveStepPath m.right run).map fun v => ⟨m.left, m.op, v⟩
    else .error (.panic "resolveStepPath: stepOutputs must not be nil")
  else if "input.".toList.isPrefixOf m.right.toList then
    (resolveInputPath m.right run.input).map fun v => ⟨m.left, m.op, v⟩
  else .error (.error ("unknown path prefix in " ++ m.right))

def hasDependents (d : WorkflowDef) (id : String) : Bool :=
  d.steps.any fun s => s.dependsOn.contains id

/-- The first leaf whose output breaks the schema. -/
def validateRunOutput (accepts : Raw → Raw → Bool) (d : WorkflowDef)
    (run : WorkflowRun) : Option String :=
  if d.outputSchema.isEmpty then none
  else
    (d.steps.find? fun s =>
      let state := run.step s.id
      !hasDependents d s.id && state.status = .completed &&
        !state.output.isEmpty && !accepts d.outputSchema state.output).map (·.id)

/-- The output of the only leaf, or the object of the outputs of the leaves, of which it
takes the first 1001. -/
def collectTerminalOutputs (d : WorkflowDef) (run : WorkflowRun) : Except Fault Raw :=
  if d.steps.isEmpty then
    .error (.panic "collectTerminalOutputs: def has no steps")
  else
    match (d.steps.filter fun s => !hasDependents d s.id).take 1001 with
    | [leaf] => .ok (run.step leaf.id).output
    | leaves =>
      match leaves.mapM fun s =>
          (run.step s.id).output.marshal.map fun j => (s.id, j) with
      | some fields => .ok (.doc (.obj fields))
      | none => .error (.error "marshal terminal outputs")

def pickUpstreamOutput (s : StepDef) (run : WorkflowRun) : Raw :=
  match s.dependsOn with
  | [dep] => (run.step dep).output
  | _ => .nil

def resolveRespondBody (cfg : ConfigDoc) (s : StepDef) (run : WorkflowRun) : Except Fault Raw :=
  let upstream := pickUpstreamOutput s run
  let source := if upstream.isEmpty then run.input else upstream
  if cfg.bodyFrom = "" then .ok source
  else if source.isEmpty then .error (.error "BodyFrom requires source data")
  else (extractDotPath cfg.bodyFrom source).map .doc

end Dagnats
