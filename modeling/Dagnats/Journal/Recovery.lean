import Dagnats.Journal.Opening

/-!
# Commits that were never announced

`republishCommitted` of the worker and of the bridge: a holder that finds a commit of
its own iteration and attempt publishes the lifecycle event of that commit. The
call that stored the commit would have published it from what it was given.

A body that was stored decodes to what was encoded. Outputs are documents or absent:
a commit with other bytes is not stored.
-/

namespace Dagnats.AgentJournal

/-- The lifecycle event of a commit, as it is published. -/
structure Announcement where
  type : EventType
  runID : String
  stepID : String
  iteration : ℕ
  attempt : ℕ
  dispatchNonce : String
  payload : Raw
  journalSeq : ℕ
  msgID : String

/-- `NewStepEvent` with `SetIdentity`, and its `NATSMsgID`. -/
def announce (task : Task) (type : EventType) (payload : Raw) (seq : ℕ) : Announcement where
  type := type
  runID := task.runID
  stepID := task.stepID
  iteration := task.iteration
  attempt := task.attempt
  dispatchNonce := task.dispatchNonce
  payload := payload
  journalSeq := seq
  msgID := Event.natsMsgID
    { type := type, runID := task.runID, stepID := task.stepID, attemptNumber := task.attempt
      iteration := some task.iteration }

/-- A field with `omitempty`. -/
def omitEmpty (name : String) : Raw → List (String × Json)
  | .doc j => [(name, j)]
  | _ => []

/-- The encoding of a `StepContinuePayload` without state. -/
def continuePayload (output wait : Raw) : Raw :=
  .doc (.obj (omitEmpty "output" output ++ omitEmpty "wait" wait))

/-- The encoding of a `StepFailedPayload`. -/
def failedPayload (error failureType : String) (retryAfterMs : ℤ) : Raw :=
  .doc (.obj (("error", .str error) ::
    ((if failureType = "" then [] else [("failure_type", .str failureType)]) ++
      if retryAfterMs = 0 then [] else [("retry_after_ms", .num retryAfterMs)])))

/-- How the holder of a claim ends its iteration. -/
inductive Ending where
  | continues (output : Option Json) (state : Raw) (wait : Option Json)
  | complete (output : Option Json)
  | fail (error failureType : String) (retryAfterMs : ℤ)

def raw (j : Option Json) : Raw :=
  j.elim .nil .doc

/-- The commit that the worker (`Continue`, `Complete`, `publishFailedPayload`) and the
bridge (`resolveContinue`, `resolveComplete`, `resolveFail`, `failRestartLimit`) store.
-/
def Ending.commit : Ending → Commit
  | .continues output state wait =>
    { action := .continues, output := raw output, state := state, wait := raw wait }
  | .complete output => { action := .complete, output := raw output }
  | .fail error failureType retryAfterMs =>
    { action := .fail, error := error, failureType := failureType
      retryAfterMs := retryAfterMs }

/-- The event that the same call publishes once the commit is stored at `seq`. -/
def Ending.publish (task : Task) (seq : ℕ) : Ending → Announcement
  | .continues output _ wait =>
    announce task .stepContinue (continuePayload (raw output) (raw wait)) seq
  | .complete output => announce task .stepCompleted (raw output) seq
  | .fail error failureType retryAfterMs =>
    announce task .stepFailed (failedPayload error failureType retryAfterMs) seq

inductive Holder where
  | worker | bridge

/-- The bridge leaves the wait of a continue out. -/
def republishCommitted (holder : Holder) (task : Task) (commit : Commit) (seq : ℕ) : Announcement :=
  match commit.action with
  | .continues =>
    announce task .stepContinue (match holder with
      | .worker => continuePayload commit.output commit.wait
      | .bridge => continuePayload commit.output .nil) seq
  | .complete => announce task .stepCompleted commit.output seq
  | .fail =>
    announce task .stepFailed
      (failedPayload commit.error commit.failureType commit.retryAfterMs) seq

/-- What a holder does with the commit that `Open` finds in the records, the oldest
first. With a record of a later iteration at the tail the claim is stale. -/
def recover (holder : Holder) (task : Task) (records : List Record) : Option Announcement :=
  if records.getLast?.any fun r => task.iteration < r.iteration then none
  else
    (Journal.rebuild task records).commitFound.map fun (commit, seq) =>
      republishCommitted holder task commit seq

def Ending.record (ending : Ending) (task : Task) (index expected seq : ℕ) : Record :=
  (recordMessage task .commit index expected (.commit ending.commit)).record seq

/-- The ending asks for a durable wait. -/
def Ending.waits : Ending → Bool
  | .continues _ _ (some _) => true
  | _ => false

variable {task task' : Task} {before after : List Record}

/-- The journal leads a later holder of the execution to its last commit. -/
lemma commitFound_rebuild (ending : Ending) (index expected seq : ℕ)
    (hiter : task'.iteration = task.iteration) (hatt : task'.attempt = task.attempt)
    (hlast : ∀ r ∈ after, r.type = .commit → r.attempt = task.attempt →
      r.iteration < task.iteration) :
    (Journal.rebuild task' (before ++ ending.record task index expected seq :: after)).commitFound =
      some (ending.commit, seq) := by
  let r := ending.record task index expected seq
  have hrebuild := rebuild_reverse task' (before ++ r :: after).reverse
  rw [List.reverse_reverse] at hrebuild
  have hlater : (current task' after.reverse).findSome? (Journal.ownCommit task') = none := by
    refine List.findSome?_eq_none_iff.mpr fun x hx => ?_
    obtain ⟨hmem, hnot⟩ := mem_current.mp hx
    by_contra hsome
    obtain ⟨⟨c, n⟩, hfound⟩ := Option.ne_none_iff_exists'.mp hsome
    obtain ⟨htype, -, hown, -⟩ := ownCommit_eq_some hfound
    have hold := hlast x (List.mem_reverse.mp hmem) htype (hown.trans hatt)
    exact hnot (hiter ▸ hold)
  have hcurrent : current task' (r :: before.reverse) = r :: current task' before.reverse :=
    List.filter_cons_of_pos (by simp [r, Ending.record, recordMessage, hiter])
  have hown : Journal.ownCommit task' r = some (ending.commit, seq) :=
    ownCommit_of_commit rfl rfl hatt.symm
  calc (Journal.rebuild task' (before ++ r :: after)).commitFound
      = (rebuilt task' (before ++ r :: after).reverse).commitFound := by rw [hrebuild]; rfl
    _ = (current task' (after.reverse ++ r :: before.reverse)).findSome?
          (Journal.ownCommit task') := by
        rw [(rebuiltFrom task' _).commitFound]
        simp
    _ = some (ending.commit, seq) := by
        rw [current, List.filter_append, List.findSome?_append]
        change ((current task' after.reverse).findSome? _).or
          ((current task' (r :: before.reverse)).findSome? _) = _
        rw [hlater, hcurrent, List.findSome?_cons, hown]
        rfl

/-- The journal is not stale for a later holder of the execution. -/
lemma current_tail (ending : Ending) (index expected seq : ℕ)
    (hiter : task'.iteration = task.iteration)
    (htail : ∀ r ∈ after.getLast?, r.iteration ≤ task.iteration) :
    ¬((before ++ ending.record task index expected seq :: after).getLast?.any
      fun r => task'.iteration < r.iteration) = true := by
  intro hstale
  obtain ⟨r, hr, hlater⟩ := (Option.any_eq_true ..).mp hstale
  rw [decide_eq_true_eq, hiter] at hlater
  rw [List.getLast?_append_cons, List.getLast?_cons] at hr
  cases hlast : after.getLast? with
  | none =>
    rw [hlast] at hr
    cases hr
    exact Nat.lt_irrefl _ hlater
  | some tail =>
    rw [hlast] at hr
    cases hr
    exact Nat.not_lt.mpr (htail tail hlast) hlater

lemma announce_eq_iff (hrun : task'.runID = task.runID) (hstep : task'.stepID = task.stepID)
    (hiter : task'.iteration = task.iteration) (hatt : task'.attempt = task.attempt)
    (type : EventType) (payload payload' : Raw) (seq : ℕ) :
    announce task' type payload' seq = announce task type payload seq ↔
      task'.dispatchNonce = task.dispatchNonce ∧ payload' = payload := by
  simp [announce, hrun, hstep, hiter, hatt]

/-- A later holder of the iteration and attempt republishes the event of the commit
exactly where it holds the same dispatch and, for the bridge, the commit asks for no wait. -/
theorem recover_eq_publish_iff (holder : Holder) (ending : Ending) (task task' : Task)
    (before after : List Record) (index expected seq : ℕ)
    (hrun : task'.runID = task.runID) (hstep : task'.stepID = task.stepID)
    (hiteration : task'.iteration = task.iteration) (hattempt : task'.attempt = task.attempt)
    (hlast : ∀ r ∈ after, r.type = .commit → r.attempt = task.attempt →
      r.iteration < task.iteration)
    (htail : ∀ r ∈ after.getLast?, r.iteration ≤ task.iteration) :
    recover holder task' (before ++ ending.record task index expected seq :: after) =
        some (ending.publish task seq) ↔
      task'.dispatchNonce = task.dispatchNonce ∧ (holder = .bridge → ending.waits = false) := by
  rw [recover, if_neg (current_tail ending index expected seq hiteration htail),
    commitFound_rebuild ending index expected seq hiteration hattempt hlast,
    Option.map_some, Option.some.injEq]
  cases ending with
  | complete output | fail error failureType retryAfterMs =>
    refine (announce_eq_iff hrun hstep hiteration hattempt ..).trans ?_
    simp [Ending.commit, Ending.waits]
  | continues output state wait =>
    refine (announce_eq_iff hrun hstep hiteration hattempt ..).trans ?_
    cases holder with
    | worker => simp [Ending.commit]
    | bridge => cases wait <;> simp [Ending.commit, Ending.waits, raw, continuePayload, omitEmpty]

namespace Example

def held : Task := ⟨"r1", "agent", 2, 1, "n1", 1, 9⟩

def sleeps : Ending := .continues none .nil (some (.obj [("delay_ms", .num 60000)]))

/-- A worker takes over from a bridge that has stored a wait and died. -/
theorem worker_republishes_wait :
    recover .worker { held with delivered := 2 } [sleeps.record held 0 0 1] =
      some (sleeps.publish held 1) :=
  (recover_eq_publish_iff .worker sleeps held { held with delivered := 2 } [] [] 0 0 1 rfl rfl rfl
    rfl (by simp) (by simp)).mpr ⟨rfl, by simp⟩

/-- A bridge does the same, and the engine sends the next iteration at once. -/
theorem bridge_forgets_wait :
    recover .bridge { held with delivered := 2 } [sleeps.record held 0 0 1] ≠
      some (sleeps.publish held 1) := by
  intro h
  have hpayload : (recover .bridge { held with delivered := 2 }
      [sleeps.record held 0 0 1]).map (·.payload) = some (.doc (.obj [])) := rfl
  rw [h] at hpayload
  cases hpayload

end Example

end Dagnats.AgentJournal
