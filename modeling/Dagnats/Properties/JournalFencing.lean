import Dagnats.Interaction.Script
import Dagnats.Journal.Operations

/-!
# Fencing, commits and acknowledged appends of a step journal

Whatever the writers of a journal do, iterations never go back along its log, and
no claim comes between a claim and the records that it wrote.

The index of a record, and with it the id of its message, stays after a publish
that failed. Where the record was stored all the same, the next operation is
answered with its sequence. Among writers that never publish another record
under a stored id (`Honest`), an append that returns has stored what it was
given, and a commit ends its attempt.
-/

namespace Dagnats.AgentJournal

open Interaction

variable {d : Dispatches} {log : List Record} {r : Record}

/-- The writers are honest. -/
def honest : Conditions (system d) := ⟨Honest, fun _ _ => True, fun _ _ => True⟩

variable {p : Pool (system d)}

lemma inv_of_honest (h : Pool.Reaches honest (Pool.initial Stream.empty) p) :
    ∃ G, Inv d True p.state G :=
  reaches_inv (fun hhonest _ => hhonest) h

def Record.claims (c r : Record) : Prop :=
  c.type = .claim ∧ c.sameClaim r.taskOf = true

lemma LogOk.fenced (h : LogOk d log) (hr : r ∈ log) (htype : r.type ≠ .claim) :
    (∃ c ∈ log, c.claims r ∧ c.seq < r.seq) ∧ ∀ c ∈ log, c.claims r → ∀ x ∈ log, x.type = .claim →
    r.iteration ≤ x.iteration → ¬(c.seq < x.seq ∧ x.seq < r.seq) := by
  constructor
  · obtain ⟨c, hc, hclaim, hdelivery, hle, -⟩ := h.exists_claim hr
    have hne : c.seq ≠ r.seq := by
      intro heq
      rw [h.eq_of_seq hc hr heq] at hclaim
      exact htype hclaim
    have hsame := ((h.dispatched hr).sameClaim_taskOf (h.dispatched hc)).mpr hdelivery
    exact ⟨c, hc, ⟨hclaim, hsame⟩, lt_of_le_of_ne hle hne⟩
  · rintro c hc ⟨hclaim, hsame⟩ x hx hxclaim - ⟨hcx, hxr⟩
    have hdelivery := ((h.dispatched hr).sameClaim_taskOf (h.dispatched hc)).mp hsame
    exact h.no_claim_between hr hc hclaim hdelivery hx hxclaim hcx hxr.le

/-- Along the log of any run the iterations never decrease, every record follows its
claim with no claim of the same or a later iteration in between, and the check has
nothing to report. -/
theorem journal_fenced (h : Pool.Reaches Conditions.free (Pool.initial Stream.empty) p) :
    (p.state.log.reverse.Pairwise fun x r => x.seq < r.seq ∧ x.iteration ≤ r.iteration) ∧
      (∀ r ∈ p.state.log, r.type ≠ .claim → (∃ c ∈ p.state.log, c.claims r ∧ c.seq < r.seq) ∧
          ∀ c ∈ p.state.log, c.claims r → ∀ x ∈ p.state.log, x.type = .claim →
            r.iteration ≤ x.iteration → ¬(c.seq < x.seq ∧ x.seq < r.seq)) ∧
      checkFencing p.state.log.reverse = [] := by
  obtain ⟨G, hinv⟩ : ∃ G, Inv d False p.state G := reaches_inv (fun _ hfalse => hfalse.elim) h
  refine ⟨?_, fun r hr htype => hinv.log.fenced hr htype, hinv.log.checkFencing_eq_nil⟩
  rw [List.pairwise_reverse]
  exact hinv.log.pairwise.imp fun hrx => ⟨hrx.1, hrx.2.1⟩

namespace Example

/-- The dispatches of one attempt of one iteration. -/
def dispatches : Dispatches := ⟨"r", "s", fun _ => 0, fun _ => 1, fun _ => "n"⟩

def entries : List String → Handler
  | [] => .done {}
  | text :: texts => .append .entry (.raw (.text text)) fun _ => entries texts

def worker (handler : Handler) : Order (system dispatches) :=
  .act (.start ⟨1, fun _ => handler⟩)

/-- The worker at a position goes on, and every call is answered. -/
def answered (i n : ℕ) : Order (system dispatches) :=
  .drive (fun _ _ => Stream.Choice.done) i n

/-- The next call of the first worker is carried out, but reported as failed. -/
def lost : Order (system dispatches) := .act (.step 0 Stream.Choice.lost)

/-- A delivery stalls behind its first entry, the next one claims and writes, and the first
comes back. -/
theorem stalled_delivery_fenced : ∃ p : Pool (system dispatches),
    Pool.Reaches Conditions.free (Pool.initial Stream.empty) p ∧ p.state.log.map Record.delivery =
    [(1, 2), (1, 2), (1, 1), (1, 1)] ∧ checkFencing p.state.log.reverse = [] := by
  obtain ⟨p, hp, htest⟩ := Pool.reaches_of_script Checks.free_sound (Pool.initial Stream.empty)
    [worker (entries ["a", "b"]), answered 0 9, worker (entries ["c"]), answered 1 30,
      answered 0 30] (fun p => decide
        (p.state.log.map Record.delivery = [(1, 2), (1, 2), (1, 1), (1, 1)]))
  exact ⟨p, hp, of_decide_eq_true htest, (journal_fenced hp).2.2⟩

end Example

/-- The record at a sequence. -/
def Stream.recordAt (s : Stream) (seq : ℕ) : Option Record :=
  s.log.find? (·.seq = seq)

lemma LogOk.find?_seq (h : LogOk d log) (hr : r ∈ log) : log.find? (·.seq = r.seq) = some r := by
  cases hfound : log.find? (·.seq = r.seq) with
  | none => exact absurd (decide_eq_true rfl) (List.find?_eq_none.mp hfound r hr)
  | some x =>
    have hseq : x.seq = r.seq := by simpa using List.find?_some hfound
    rw [h.eq_of_seq (List.mem_of_find?_eq_some hfound) hr hseq]

/-- In a run of honest writers, the record at the sequence that an append returned is the
one that it was given, and no two appends returned the same sequence. -/
theorem appends_return_stored (h : Pool.Reaches honest (Pool.initial Stream.empty) p) :
    (∀ task type data seq, .stored task type data seq ∈ p.state.trace →
      ∃ r, p.state.recordAt seq = some r ∧ r.type = type ∧ r.data = data) ∧
      (p.state.trace.filterMap Observation.storedSeq?).Nodup := by
  obtain ⟨G, hinv⟩ := inv_of_honest h
  refine ⟨fun task type data seq hmem => ?_, hinv.stored.distinct⟩
  obtain ⟨r, hr, rfl, -, hwritten⟩ := hinv.stored.found hmem
  exact ⟨r, hinv.log.find?_seq hr, hwritten trivial⟩

namespace Example

/-- Are these the same texts, or the same commits without any data? -/
def sameBody : Body → Body → Bool
  | .claim, .claim => true
  | .raw (.text a), .raw (.text b) => a = b
  | .commit ⟨a, .nil, .nil, "", "", 0, .nil⟩, .commit ⟨b, .nil, .nil, "", "", 0, .nil⟩ => a = b
  | _, _ => false

lemma eq_of_sameBody {a b : Body} (h : sameBody a b = true) : a = b := by
  unfold sameBody at h
  split at h
  · rfl
  · rw [of_decide_eq_true h]
  · rw [of_decide_eq_true h]
  · cases h

def honestChecks : Checks (system dispatches) where
  call s op :=
    match op with
    | .publish m => s.log.all fun r => r.msgID ≠ (m.record 0).msgID ||
        (r.type = (m.record 0).type && sameBody r.data (m.record 0).data)
    | _ => true
  job _ _ := true
  move _ _ := true

lemma honestChecks_sound : honestChecks.Sound honest where
  call := by
    intro s op h
    cases op with
    | publish m =>
      intro r hr hid
      have hcheck := List.all_eq_true.mp h r hr
      rw [Bool.or_eq_true, Bool.and_eq_true, decide_eq_true_eq, decide_eq_true_eq] at hcheck
      rcases hcheck with hne | ⟨htype, hdata⟩
      · exact absurd hid hne
      · exact ⟨htype, eq_of_sameBody hdata⟩
    | _ => trivial
  job _ := trivial
  move _ := trivial

/-- The acknowledgement of an entry is lost, and the handler appends the entry again. -/
theorem repeated_append_stored : ∃ p : Pool (system dispatches),
    Pool.Reaches honest (Pool.initial Stream.empty) p ∧
    p.state.trace.filterMap Observation.storedSeq? = [2, 1] ∧ ∀ task type data seq,
    .stored task type data seq ∈ p.state.trace → ∃ r, p.state.recordAt seq = some r ∧ r.type =
    type ∧ r.data = data := by
  obtain ⟨p, hp, htest⟩ := Pool.reaches_of_script honestChecks_sound (Pool.initial Stream.empty)
    [worker (entries ["a", "a"]), answered 0 7, lost, answered 0 30] (fun p => decide
      (p.state.trace.filterMap Observation.storedSeq? = [2, 1]))
  exact ⟨p, hp, of_decide_eq_true htest, (appends_return_stored hp).1⟩

/-- The last append returned the sequence of a record with another text. -/
def returnedOther (p : Pool (system dispatches)) : Bool :=
  p.state.trace.any fun o =>
    match o with
    | .stored _ .entry (.raw (.text "b")) seq =>
      match (p.state.recordAt seq).map Record.data with
      | some (.raw (.text "a")) => true
      | _ => false
    | _ => false

/-- The acknowledgement of an entry is lost. The next entry has the id of the lost one, so
that its append returns the sequence of a record that it has not written. -/
theorem append_returns_other_record : ∃ (p : Pool (system dispatches)) (task : Task) (seq : ℕ),
    Pool.Reaches Conditions.free (Pool.initial Stream.empty) p ∧
    .stored task .entry (.raw (.text "b")) seq ∈ p.state.trace ∧
    (p.state.recordAt seq).map Record.data = some (.raw (.text "a")) := by
  obtain ⟨p, hp, htest⟩ := Pool.reaches_of_script Checks.free_sound (Pool.initial Stream.empty)
    [worker (entries ["a", "b"]), answered 0 7, lost, answered 0 30] returnedOther
  obtain ⟨o, ho, htest⟩ := List.any_eq_true.mp htest
  split at htest
  · next task seq =>
    split at htest
    · next hdata => exact ⟨p, task, seq, hp, ho, hdata⟩
    · cases htest
  · cases htest

end Example

/-- In a run of honest writers, an iteration and attempt has at most one commit, nothing of
it follows the commit, and an `Open` for it that reads the commit returns it and writes
nothing, unless it cannot read the journal or finds a later iteration at the tail. -/
theorem one_commit_per_attempt (h : Pool.Reaches honest (Pool.initial Stream.empty) p) :
    (∀ c ∈ p.state.log, ∀ c' ∈ p.state.log, c.type = .commit → c'.type = .commit →
      c.execution = c'.execution → c = c') ∧
    (∀ c ∈ p.state.log, ∀ r ∈ p.state.log, c.type = .commit → r.execution = c.execution →
      r.seq ≤ c.seq) ∧
    ∀ task n result, .opened task n result ∈ p.state.trace →
      ∀ c ∈ p.state.log, c.type = .commit → c.execution = task.execution → c.seq ≤ n →
        Reports p.state.log task c result := by
  obtain ⟨G, hinv⟩ := inv_of_honest h
  have hsealed := hinv.sealed trivial
  refine ⟨fun c hc c' hc' hcommit hcommit' => hsealed.eq hc hc' hcommit hcommit', ?_,
    fun task n result hmem => (hinv.opened trivial).reports hmem⟩
  intro c hc r hr hcommit hexecution
  exact hsealed.seq_le hinv.log hc hr hcommit hexecution

namespace Example

def readsCommit (p : Pool (system dispatches)) : Bool :=
  p.state.trace.any fun o =>
    match o with
    | .opened task n _ => p.state.log.any fun c =>
      c.type = .commit && (c.execution = task.execution && c.seq ≤ n)
    | _ => false

/-- The acknowledgement of a commit is lost, the handler commits again, and the worker
crashes before it publishes anything. The next delivery opens the journal. -/
theorem repeated_commit_reported : ∃ (p : Pool (system dispatches)) (task : Task) (n : ℕ)
      (result : Except Err (Option (Commit × ℕ))) (c : Record),
      Pool.Reaches honest (Pool.initial Stream.empty) p ∧
      .opened task n result ∈ p.state.trace ∧ c ∈ p.state.log ∧ c.type = .commit ∧
      Reports p.state.log task c result := by
  obtain ⟨p, hp, htest⟩ := Pool.reaches_of_script honestChecks_sound (Pool.initial Stream.empty)
    [worker (.commit { action := .complete } fun _ =>
        .commit { action := .complete } fun _ => .done {}), answered 0 7, lost, answered 0 4,
      .act (.drop 0), worker (entries ["a"]), answered 0 30] readsCommit
  obtain ⟨o, ho, htest⟩ := List.any_eq_true.mp htest
  split at htest
  · next task n result =>
    obtain ⟨c, hc, htest⟩ := List.any_eq_true.mp htest
    rw [Bool.and_eq_true, Bool.and_eq_true, decide_eq_true_eq, decide_eq_true_eq,
      decide_eq_true_eq] at htest
    obtain ⟨hcommit, hexecution, hseq⟩ := htest
    exact ⟨p, task, n, result, c, hp, ho, hc, hcommit,
      (one_commit_per_attempt hp).2.2 task n result ho c hc hcommit hexecution hseq⟩
  · cases htest

/-- The acknowledgement of a commit is lost, and the handler goes on: an entry is taken for
the commit, and then the iteration is committed once more. -/
theorem attempt_committed_twice : ∃ (p : Pool (system dispatches)) (c c' : Record),
    Pool.Reaches Conditions.free (Pool.initial Stream.empty) p ∧ c ∈ p.state.log ∧
    c' ∈ p.state.log ∧ c.type = .commit ∧ c'.type = .commit ∧ c.execution = c'.execution ∧
    c.seq < c'.seq := by
  obtain ⟨p, hp, htest⟩ := Pool.reaches_of_script Checks.free_sound (Pool.initial Stream.empty)
    [worker (.commit { action := .complete } fun _ => .append .entry (.raw (.text "a")) fun _ =>
        .commit { action := .fail } fun _ => .done {}), answered 0 7, lost, answered 0 30]
        (fun p => p.state.log.any fun c => p.state.log.any fun c' => decide
        (c.type = .commit ∧ c'.type = .commit ∧ c.execution = c'.execution ∧ c.seq < c'.seq))
  obtain ⟨c, hc, htest⟩ := List.any_eq_true.mp htest
  obtain ⟨c', hc', htest⟩ := List.any_eq_true.mp htest
  exact ⟨p, c, c', hp, hc, hc', of_decide_eq_true htest⟩

end Example

end Dagnats.AgentJournal
