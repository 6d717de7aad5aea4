import Dagnats.Dag.Path

/-!
# Validation

`dag/validate.go` and the per-type checks it calls: what a definition must
satisfy to be registered or started, and what a planner's fragment must satisfy
to be applied. Checks run in the order of the source and the first failure is
the result.
-/

namespace Dagnats

open Interaction

/-- Fail with an error unless the condition holds. -/
def check (ok : Bool) (msg : String) : Except Fault Unit :=
  if ok then .ok () else .error (.error msg)

def quoted (s : String) : String := "\"" ++ s ++ "\""

def taskTypeLenMax : ℕ := 128

def isTaskChar (c : Char) : Bool :=
  ('A' ≤ c && c ≤ 'Z') || ('a' ≤ c && c ≤ 'z') || ('0' ≤ c && c ≤ '9') || c = '_' || c = '-'

/-- Non-empty tokens of task characters, joined by dots. -/
def validTaskType (s : String) : Bool :=
  s.utf8ByteSize ≤ taskTypeLenMax && (splitString s ".").all fun token =>
      !token.toList.isEmpty && token.toList.all isTaskChar

/-- A single token. -/
def validWorkerGroup (s : String) : Bool :=
  validTaskType s && !s.toList.contains '.'

def stepRequiresTask : StepType → Bool
  | .normal | .agentLoop | .agent | .map | .planner => true
  | _ => false

/-- The state of Kahn's algorithm. -/
structure Kahn where
  queue : List String
  inDegree : Table String ℕ
  depth : Table String ℕ
  visited : ℕ := 0
  maxDepth : ℕ := 0

variable (steps : List StepDef)

def degreeOf : Table String ℕ :=
  steps.foldl (fun t s =>
    t.set s.id ((t.find? s.id).getD 0 + s.dependsOn.length)) .empty

/-- The dependents of a step, once for every edge. -/
def dependents (id : String) : List String :=
  steps.flatMap fun s => (s.dependsOn.filter (· = id)).map fun _ => s.id

/-- Follow one edge: the child is queued when its last dependency is done. -/
def Kahn.relax (node : String) (k : Kahn) (child : String) : Kahn :=
  let degree := (k.inDegree.find? child).getD 0 - 1
  let depth := max ((k.depth.find? child).getD 0) ((k.depth.find? node).getD 0 + 1)
  { k with
    inDegree := k.inDegree.set child degree
    depth := k.depth.set child depth
    queue := if degree = 0 then k.queue ++ [child] else k.queue }

/-- Every round takes one step from the queue, so that as many rounds as there
are steps are enough. -/
def Kahn.run (steps : List StepDef) : ℕ → Kahn → Kahn
  | 0, k => k
  | n + 1, k =>
    match k.queue with
    | [] => k
    | node :: rest =>
      let k := { k with
        queue := rest, visited := k.visited + 1
        maxDepth := max k.maxDepth ((k.depth.find? node).getD 0) }
      Kahn.run steps n ((dependents steps node).foldl (Kahn.relax node) k)

def kahn : Kahn :=
  let inDegree := degreeOf steps
  let roots := inDegree.keys.filter fun id => inDegree.find? id = some 0
  Kahn.run steps steps.length
    { queue := roots, inDegree := inDegree
      depth := roots.foldl (fun t id => t.set id 1) .empty }

def detectCycle : Except Fault Unit :=
  check ((kahn steps).visited = steps.length) ("workflow contains a cycle (" ++
    toString (kahn steps).visited ++ " of " ++ toString steps.length ++ " steps reachable)")

def maxChainDepth : ℕ := (kahn steps).maxDepth

/-! ## Steps -/

def validateLoopConfig (s : StepDef) : Except Fault Unit :=
  if s.task = "" ∨ s.type ≠ .agentLoop then .ok ()
  else
    match parseAgentLoopConfig s with
    | none => .error (.error ("step " ++ quoted s.id ++ " is AgentLoop but Config is invalid"))
    | some cfg => check (0 < cfg.maxIterations)
        ("step " ++ quoted s.id ++ " is AgentLoop but MaxIterations is " ++
          toString cfg.maxIterations ++ " (must be > 0)")

def validateMapConfig (s : StepDef) : Except Fault Unit :=
  if s.task = "" ∨ s.type ≠ .map then .ok ()
  else
    match parseMapConfig s with
    | none => .error (.error ("step " ++ quoted s.id ++ ": Config"))
    | some cfg => do
      check (s.dependsOn.length = 1) ("step " ++ quoted s.id ++ " is Map but has " ++
          toString s.dependsOn.length ++
          " dependencies (must have exactly one)")
      check (0 < cfg.maxItems && cfg.maxItems ≤ 10000)
        ("step " ++ quoted s.id ++ " is Map but MaxItems is " ++ toString cfg.maxItems)

variable (d : WorkflowDef) (s : StepDef)

def validateMapNesting : Except Fault Unit :=
  check (s.type ≠ .map || !s.dependsOn.any fun dep =>
      d.steps.any fun t => t.id = dep && t.type = .map)
    ("step " ++ quoted s.id ++ " is Map and depends on a Map step")

def validOps : List String := ["==", "!=", "<", ">", "<=", ">="]

def validateSkipIf : Except Fault Unit :=
  match s.skipIf with
  | none => .ok ()
  | some c =>
    if s.task = "" then .ok ()
    else do
      check (validOps.contains c.op)
        ("step " ++ quoted s.id ++ " SkipIf has invalid operator " ++ quoted c.op)
      check (c.stepID ≠ "") ("step " ++ quoted s.id ++ " SkipIf has empty StepID")
      check (s.dependsOn.contains c.stepID)
        ("step " ++ quoted s.id ++ " SkipIf references " ++ quoted c.stepID ++
          " which is not in DependsOn")

def validateSubWorkflowConfig : Except Fault Unit :=
  if s.type ≠ .subWorkflow then .ok ()
  else
    match parseSubWorkflowConfig s with
    | none => .error (.error ("step " ++ quoted s.id ++ ": invalid sub-workflow config"))
    | some cfg => check (cfg.workflow ≠ "")
        ("step " ++ quoted s.id ++ ": sub-workflow config must have non-empty Workflow")

def maxSleepDuration : Duration := 365 * 24 * 3600 * second

variable (x : Externals)

def validateSleepStep (s : StepDef) : Except Fault Unit :=
  if s.type ≠ .sleep then .ok ()
  else
    match parseSleepConfig s with
    | none => .error (.error ("step " ++ quoted s.id ++ ": invalid sleep config"))
    | some cfg =>
      if cfg.cron ≠ "" then
        check (x.cronOk cfg) ("step " ++ quoted s.id ++ ": invalid sleep cron")
      else if cfg.untilInputPath ≠ "" then .ok ()
      else do
        check (0 < cfg.duration) ("step " ++ quoted s.id ++ ": sleep duration must be positive")
        check (cfg.duration ≤ maxSleepDuration)
          ("step " ++ quoted s.id ++ ": sleep duration exceeds max")

def maxApprovalTimeout : Duration := 168 * 3600 * second

def validateApprovalStep : Except Fault Unit :=
  if s.type ≠ .approval then .ok ()
  else
    match parseApprovalConfig s with
    | none => .error (.error ("step " ++ quoted s.id ++ ": invalid approval config"))
    | some cfg => do
      check (cfg.subject ≠ "") ("step " ++ quoted s.id ++ ": Approval.Subject must not be empty")
      check (0 < cfg.timeout) ("step " ++ quoted s.id ++ ": Approval.Timeout must be positive")
      check (cfg.timeout ≤ maxApprovalTimeout)
        ("step " ++ quoted s.id ++ ": Approval.Timeout exceeds max")

def validatePlannerConfig : Except Fault Unit :=
  if s.type ≠ .planner then .ok ()
  else
    match parsePlannerConfig s with
    | none => .error (.error ("step " ++ quoted s.id ++ ": invalid planner config"))
    | some cfg => do
      check (1 ≤ cfg.maxSteps && cfg.maxSteps ≤ 100)
        ("step " ++ quoted s.id ++ ": PlannerConfig.MaxSteps is " ++
          toString cfg.maxSteps ++ " (must be 1..100)")
      check (0 ≤ cfg.maxDepth && cfg.maxDepth ≤ 10)
        ("step " ++ quoted s.id ++ ": PlannerConfig.MaxDepth is " ++
          toString cfg.maxDepth ++ " (must be 0..10)")

/-- Two limits on one step are a panic. -/
def validateRateLimit (s : StepDef) : Except Fault Unit :=
  match s.rateLimit, s.keyedRateLimit with
  | none, none => .ok ()
  | some _, some _ => .error (.panic
      "validateRateLimit: cannot set both RateLimit and KeyedRateLimit")
  | some r, none => do
    check (0 < r.limit) ("step " ++ quoted s.id ++ ": rate limit must be positive")
    check (0 < r.period) ("step " ++ quoted s.id ++ ": rate limit period must be positive")
  | none, some r => do
    check (r.key ≠ "") ("step " ++ quoted s.id ++ ": keyed rate limit key must not be empty")
    check (0 < r.limit) ("step " ++ quoted s.id ++ ": keyed rate limit must be positive")
    check (0 < r.period) ("step " ++ quoted s.id ++ ": keyed rate limit period must be positive")
    check (0 < r.units) ("step " ++ quoted s.id ++ ": keyed rate limit units must be positive")

/-- For a step that has the task its type requires. -/
def validateStepDispatch : Except Fault Unit :=
  if s.task = "" then .ok ()
  else do
    check (validTaskType s.task) ("step " ++ quoted s.id ++ " has invalid task")
    check (s.workerGroup = "" || validWorkerGroup s.workerGroup)
      ("step " ++ quoted s.id ++ " has invalid worker_group")

def validateMatchDotPaths (stepID : String) (m : Match) (ids : List String) : Except Fault Unit :=
  if "step.".toList.isPrefixOf m.right.toList then
    match splitString m.right "." with
    | _ :: refID :: _ :: _ :: _ => check (ids.contains refID)
        ("step " ++ quoted stepID ++ ": Match.Right references step " ++
          quoted refID ++ " which does not exist")
    | _ => .error (.error ("step " ++ quoted stepID ++ ": invalid step path " ++ quoted m.right))
  else check ("input.".toList.isPrefixOf m.right.toList) ("step " ++ quoted stepID ++
      ": Match.Right must start with step. or input., got " ++ quoted m.right)

def validateWaitForEventStep (ids : List String) : Except Fault Unit :=
  if s.type ≠ .waitForEvent then .ok ()
  else
    match parseWaitForEventConfig s with
    | none => .error (.error ("step " ++ quoted s.id ++ ": WaitForEvent config is nil"))
    | some cfg => do
      check (cfg.event ≠ "") ("step " ++ quoted s.id ++ ": WaitForEvent.Event must not be empty")
      check (cfg.match_.left ≠ "")
        ("step " ++ quoted s.id ++ ": WaitForEvent.Match.Left must not be empty")
      check (cfg.match_.op ≠ "")
        ("step " ++ quoted s.id ++ ": WaitForEvent.Match.Op must not be empty")
      check (cfg.match_.right ≠ "")
        ("step " ++ quoted s.id ++ ": WaitForEvent.Match.Right must not be empty")
      check (0 < cfg.timeout) ("step " ++ quoted s.id ++ ": WaitForEvent.Timeout must be positive")
      validateMatchDotPaths s.id cfg.match_ ids

def validateSingleStep (s : StepDef) (ids : List String) : Except Fault Unit := do
  check (0 ≤ s.retries) ("step " ++ quoted s.id ++ " has negative Retries")
  check (s.dependsOn.all ids.contains)
    ("step " ++ quoted s.id ++ " depends on a step which does not exist")
  validateLoopConfig s
  validateMapConfig s
  validateSkipIf s
  validateSubWorkflowConfig s
  validateSleepStep x s
  validateApprovalStep s
  validatePlannerConfig s
  validateRateLimit s
  check (s.onFailure = "" || ids.contains s.onFailure)
    ("step " ++ quoted s.id ++ " OnFailure references " ++ quoted s.onFailure ++
      " which does not exist")
  check (s.compensate = "" || ids.contains s.compensate)
    ("step " ++ quoted s.id ++ " Compensate references " ++
      quoted s.compensate ++ " which does not exist")
  check (0 ≤ s.maxTaskConcurrency && s.maxTaskConcurrency ≤ 1000)
    ("step " ++ quoted s.id ++ " MaxTaskConcurrency is " ++
      toString s.maxTaskConcurrency ++ " (must be 0..1000)")

def validateAuxTarget (field target : String) : Except Fault Unit :=
  if target = "" then .ok ()
  else do
    check (target ≠ s.id) ("step " ++ quoted s.id ++ " " ++ field ++ " references itself")
    check (((findStepDef d target).map (·.dependsOn)).getD [] = [])
      ("step " ++ quoted s.id ++ " " ++ field ++ " target " ++ quoted target ++
        " must not have DependsOn")

def validateStepReferences (d : WorkflowDef) (ids : List String) : Except Fault Unit := do
  d.steps.forM fun s => do
    validateSingleStep x s ids
    validateStepDispatch s
    validateWaitForEventStep s ids
    validateMapNesting d s
  d.steps.forM fun s => do
    validateAuxTarget d s "OnFailure" s.onFailure
    validateAuxTarget d s "Compensate" s.compensate

/-! ## Definitions -/

def retryMultiplierMax : ℚ := 100

/-- The bounds on one policy; `where_` names its field. -/
def validateRetryPolicy (where_ : String) (p : RetryPolicy) : Except Fault Unit := do
  check (p.maxAttempts ≤ retryAttemptCountMax)
    (where_ ++ ".MaxAttempts is " ++ toString p.maxAttempts ++ " (max 100000)")
  check (p.multiplier = 0 || (1 ≤ p.multiplier && p.multiplier ≤ retryMultiplierMax))
    (where_ ++ ".Multiplier: exponential retry multiplier " ++ "must be in [1, 100] when set")

def validateRetryPolicies : Except Fault Unit := do
  d.defaultRetry.forM (validateRetryPolicy ("workflow " ++ quoted d.name ++ " DefaultRetry"))
  d.steps.forM fun s => do
    s.retry.forM (validateRetryPolicy ("step " ++ quoted s.id ++ " Retry"))
    check (s.retries ≤ retryAttemptCountMax)
      ("step " ++ quoted s.id ++ " Retries is " ++ toString s.retries ++ " (max 100000)")

def validateRequiredFields : Except Fault Unit := do
  check (d.name ≠ "") "workflow name must not be empty"
  d.steps.forM fun s => do
    check (s.id ≠ "") "step: id must not be empty"
    check (s.task ≠ "" || !stepRequiresTask s.type) ("step " ++ quoted s.id ++ " needs a task")

def validateSticky : Except Fault Unit :=
  if d.sticky = .none then .ok ()
  else do
    check (d.sticky ≠ .hard || d.timeout ≠ 0)
      ("workflow " ++ quoted d.name ++ ": hard sticky requires a timeout " ++
        "to prevent permanent blocking")
    check (d.steps.all fun s => s.workerGroup = "")
      ("workflow " ++ quoted d.name ++ ": sticky is incompatible with per-step WorkerGroup")

/-- No empty segment. -/
def validateIdempotencyKey (key : String) : Except Fault Unit :=
  check (key = "" || (splitString key ".").all (· ≠ ""))
    ("idempotency_key " ++ quoted key ++ ": empty segment")

def validatePriority : Except Fault Unit :=
  match d.priority with
  | none => .ok ()
  | some p => do
    check (p.key ≠ "") "priority: key must not be empty"
    check (!p.rules.isEmpty) "priority: rules must not be empty"
    check (p.rules.length ≤ 20) "priority: max 20 rules"
    check (p.rules.all fun r => -600 ≤ r.2 && r.2 ≤ 600) "priority: offset out of [-600, 600]"
    check (-600 ≤ p.defaultOffset && p.defaultOffset ≤ 600)
      "priority: default_offset out of [-600, 600]"

def validateCancelOn : Except Fault Unit := do
  check (d.cancelOn.length ≤ 5) "cancel_on: max 5 entries"
  d.cancelOn.forM fun c => do
    check (c.event ≠ "") "cancel_on: event must not be empty"
    check (c.match_.left ≠ "") "cancel_on: match.left must not be empty"
    check (c.match_.op = "eq") "cancel_on: match.op"
    check (c.match_.right ≠ "") "cancel_on: match.right must not be empty"
    check ("input.".toList.isPrefixOf c.match_.right.toList)
      "cancel_on: match.right must start with input."

def validate (d : WorkflowDef) : Except Fault Unit := do
  check (!d.steps.isEmpty) ("workflow " ++ quoted d.name ++ " has no steps")
  validateRequiredFields d
  let ids := d.steps.map (·.id)
  check ids.Nodup "duplicate step ID"
  validateStepReferences x d ids
  check ((d.concurrency.map fun c => 0 ≤ c.maxSteps && c.maxSteps ≤ 1000).getD true)
    ("workflow " ++ quoted d.name ++ " Concurrency.MaxSteps (must be 0..1000)")
  validateRetryPolicies d
  validateIdempotencyKey d.idempotencyKey
  validateSticky d
  validatePriority d
  validateCancelOn d
  check (!(d.singleton.map (·.mode) = some .other)) "singleton: mode must be skip or cancel"
  check (d.outputSchema.isEmpty || x.schemaParses d.outputSchema)
    ("workflow " ++ quoted d.name ++ " output_schema is invalid")
  detectCycle d.steps

def namespaceFragment (plannerID : String) (fragment : List StepDef) : List StepDef :=
  fragment.map fun s =>
    { s with
      id := plannerID ++ "." ++ s.id, type := .normal
      dependsOn := s.dependsOn.map fun dep => plannerID ++ "." ++ dep }

def validateFragment (fragment : List StepDef) (cfg : ConfigDoc)
    (existingIDs : List String) : Except Fault Unit := do
  if cfg.maxSteps ≤ 0 then
    throw (.panic "ValidateFragment: MaxSteps must be positive")
  check (!fragment.isEmpty) "planner fragment is empty"
  check (fragment.length ≤ cfg.maxSteps) "planner fragment: too many steps"
  let ids := fragment.map (·.id)
  check (ids.all (· ≠ "")) "planner fragment step has empty ID"
  check ids.Nodup "planner fragment has duplicate ID"
  check (ids.all fun id => !existingIDs.contains id)
    "planner fragment ID collides with existing step"
  fragment.forM fun s => do
    check (s.task ≠ "") ("planner fragment step " ++ quoted s.id ++ " has empty task")
    validateStepDispatch s
    check (cfg.allowedTasks.isEmpty || cfg.allowedTasks.contains s.task)
      ("planner fragment step " ++ quoted s.id ++ " uses disallowed task " ++ quoted s.task)
  check (fragment.all fun s => s.dependsOn.all ids.contains)
    "planner fragment: dependency is not in the fragment"
  detectCycle fragment
  check (cfg.maxDepth ≤ 0 || maxChainDepth fragment ≤ cfg.maxDepth) "planner fragment: depth"

/-! ## What validation guarantees -/

lemma check_eq_ok {ok : Bool} {msg : String} (h : check ok msg = .ok ()) : ok = true := by
  unfold check at h
  split at h
  · next hok => exact hok
  · cases h

lemma checks_eq_ok {first : Except Fault Unit} {rest : Unit → Except Fault Unit}
    (h : (first >>= rest) = .ok ()) : first = .ok () ∧ rest () = .ok () := by
  cases first with
  | ok a => exact ⟨rfl, h⟩
  | error e => cases h

lemma validate_nodup {x : Externals} {d : WorkflowDef}
    (h : validate x d = .ok ()) : (d.steps.map (·.id)).Nodup := by
  obtain ⟨-, h⟩ := checks_eq_ok h
  obtain ⟨-, h⟩ := checks_eq_ok h
  obtain ⟨hnodup, -⟩ := checks_eq_ok h
  simpa using check_eq_ok hnodup

lemma validateFragment_ids {fragment : List StepDef} {cfg : ConfigDoc} {existingIDs : List String}
    (h : validateFragment fragment cfg existingIDs = .ok ()) : (fragment.map (·.id)).Nodup ∧
    ∀ s ∈ fragment, s.id ∉ existingIDs := by
  unfold validateFragment at h
  split at h
  · cases h
  · obtain ⟨-, h⟩ := checks_eq_ok h
    obtain ⟨-, h⟩ := checks_eq_ok h
    obtain ⟨-, h⟩ := checks_eq_ok h
    obtain ⟨hnodup, h⟩ := checks_eq_ok h
    obtain ⟨hnew, -⟩ := checks_eq_ok h
    refine ⟨by simpa using check_eq_ok hnodup, fun s hs => ?_⟩
    have hall := check_eq_ok hnew
    simp only [List.all_map, List.all_eq_true, Function.comp, Bool.not_eq_true',
      List.contains_eq_mem, decide_eq_false_iff_not] at hall
    exact hall s hs

end Dagnats
