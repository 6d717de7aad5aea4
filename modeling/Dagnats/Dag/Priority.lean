import Dagnats.Dag.Decimal
import Dagnats.Dag.Path

/-!
# Values of an input that steer admission

`ResolvePriority` (`dag/priority.go`), and the text by which a value of the input
enters a singleton key.
-/

namespace Dagnats

/-- The decoded value: a map has one entry for each key, and `%v` prints it with the
keys sorted. -/
def Json.decoded : Json → Json
  | .arr items => .arr (decodeds items)
  | .obj fields => .obj (decodedFields fields [])
  | j => j
where
  decodeds : List Json → List Json
    | [] => []
    | j :: js => j.decoded :: decodeds js
  decodedFields : List (String × Json) → List (String × Json) → List (String × Json)
    | [], acc => acc
    | (k, j) :: fs, acc => decodedFields fs (insertField k j.decoded acc)

/-- `fmt.Sprintf("%v", …)` of a decoded value. -/
def Json.print : Json → String
  | .null => "<nil>"
  | .bool b => if b then "true" else "false"
  | .num q => formatFloat q
  | .str s => s
  | .arr items => "[" ++ " ".intercalate (prints items) ++ "]"
  | .obj fields => "map[" ++ " ".intercalate (printFields fields) ++ "]"
where
  prints : List Json → List String
    | [] => []
    | j :: js => j.print :: prints js
  printFields : List (String × Json) → List String
    | [] => []
    | (k, j) :: fs => (k ++ ":" ++ j.print) :: printFields fs

/-- The text of a value of the input. -/
def Json.display (j : Json) : String :=
  j.decoded.print

def clampOffset (offset : ℤ) : ℤ :=
  if 600 < offset then 600 else if offset < -600 then -600 else offset

def resolvePriority (cfg : Option PriorityConfig) (input : Raw) : Except Fault ℤ :=
  match cfg with
  | none => .ok 0
  | some cfg =>
    if cfg.key = "" then .ok (clampOffset cfg.defaultOffset)
    else
      match extractDotPath cfg.key input with
      | .error (.panic msg) => .error (.panic msg)
      | .error (.error _) => .ok 0
      | .ok v =>
        match cfg.rules.find? (·.1 = v.display) with
        | some rule => .ok (clampOffset rule.2)
        | none => .ok (clampOffset cfg.defaultOffset)

end Dagnats
