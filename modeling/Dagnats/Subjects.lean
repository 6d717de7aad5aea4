import Dagnats.Dag.Validate
import Dagnats.Interaction.Tokens

/-!
# Subjects and keys

`internal/natsutil` and `internal/consumername`: the subjects and the keys that
the parts of the system meet under. A task is found by its type and group; the
journal, the inputs and the logs of a step are found by its run and a token made
of its id.
-/

namespace Dagnats

open Interaction

/-- How NATS matches a subject: `*` is one token, `>` at the end one or more. -/
def subjectMatches (filter subject : String) : Bool :=
  tokensMatch ['*'] ['>'] (filter.toList.splitOn '.') (subject.toList.splitOn '.')

def groupSentinel : String := "="

/-- Byte by byte, so a character of several bytes becomes as many underscores. -/
def sanitize (s : String) : String :=
  String.ofList (s.toList.flatMap fun c =>
    if c.isAlphanum || c = '-' || c = '_' then [c]
    else if c = '.' then ['-'] else List.replicate c.utf8Size '_')

def nameFor (taskType group : String) : String :=
  if group = "" then "workers-" ++ sanitize taskType
  else "workers-" ++ sanitize taskType ++ "-" ++ groupSentinel ++ sanitize group

def filterFor (taskType group : String) : String :=
  if group = "" then "task." ++ taskType ++ ".*"
  else "task." ++ taskType ++ "." ++ groupSentinel ++ group ++ ".*"

def legacyFilterFor (taskType group : String) : List String :=
  if group = "" then ["task." ++ taskType ++ ".>"]
  else ["task." ++ taskType ++ "." ++ group ++ ".>", "task." ++ taskType ++ "." ++ group ++ ".*"]

def filterIsLegacyUpgrade (newFilter oldFilter : String) : Except Fault Bool :=
  if newFilter = "" then
    .error (.panic "consumername.FilterIsLegacyUpgrade: newFilter must not be empty")
  else if oldFilter = "" then
    .error (.panic "consumername.FilterIsLegacyUpgrade: oldFilter must not be empty")
  else if ¬".*".toList <:+ newFilter.toList then .ok false
  else
    let trimmed := newFilter.toList.dropLast
    if oldFilter.toList = trimmed ++ ['>'] then .ok true
    else
      -- `strings.Index`
      match trimmed.tails.findIdx? ("." ++ groupSentinel).toList.isPrefixOf with
      | none => .ok false
      | some i =>
        let desentineled := trimmed.take (i + 1) ++ trimmed.drop (i + 1 + groupSentinel.length)
        .ok (oldFilter.toList = desentineled ++ ['*'] || oldFilter.toList = desentineled ++ ['>'])

inductive Adoption where
  | adopts
  | deletes
  | refuses
  deriving DecidableEq

/-- What `adoptConsumer` does with the consumer it finds, which has the filter `old`. -/
def adoptConsumer (filter old : String) : Except Fault Adoption :=
  if filter = "" then .error (.panic "adoptConsumer: filter must not be empty")
  else if old = filter then .ok .adopts
  else (filterIsLegacyUpgrade filter old).map fun legacy => if legacy then .deletes else .refuses

def subjectTokenMaxLen : ℕ := 128

def subjectToken (s : String) : String :=
  String.ofList ((s.toList.map fun c => if isTaskChar c then c else '_').take subjectTokenMaxLen)

/-! ## What belongs to a step

Each of these panics on a run id that is empty or holds a metacharacter. -/

variable (runID stepID : String)

def journalSubject : String :=
  "journal." ++ runID ++ "." ++ subjectToken stepID

/-- For a request id that is its own token. -/
def submissionKey (runID stepID requestID : String) : String :=
  runID ++ "." ++ subjectToken stepID ++ "." ++ requestID

def submissionKeyPrefix : String :=
  runID ++ "." ++ subjectToken stepID

def listingFilter (keyPrefix : String) : String :=
  keyPrefix ++ ".>"

def logSubject (attempt iteration : ℕ) : String :=
  "logs." ++ runID ++ "." ++ subjectToken stepID ++ "." ++ toString attempt ++ "." ++
    toString iteration

def programLogSubject (program runID stepID : String) (attempt iteration : ℕ) : String :=
  "logs.p." ++ program ++ "." ++ runID ++ "." ++ subjectToken stepID ++ "." ++
    toString attempt ++ "." ++ toString iteration

def logMsgID (attempt iteration seq : ℕ) : String :=
  "log-" ++ runID ++ "-" ++ subjectToken stepID ++ "-" ++ toString attempt ++ "-" ++
    toString iteration ++ "-" ++ toString seq

end Dagnats
