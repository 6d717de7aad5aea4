import Dagnats.Journal.Appending

/-!
# Opening a step journal

What `rebuild` makes of the records that `Open` reads, and why the claim of an
`Open` may be appended where it is. The claim goes behind what has been read, or
behind a tail that the loop of `append` has classified: of an earlier iteration, or
the claim of an older delivery.
-/

namespace Dagnats.AgentJournal

open Interaction

variable {d : Dispatches} {honest : Prop} {v w : View} {s t : Stream} {task : Task}
  {log older : List Record} {r x : Record} {j : Journal}

/-- The handle after the records of a log, the newest first. -/
def rebuilt (task : Task) (log : List Record) : Journal :=
  log.foldr (fun r j => j.rebuildRecord r) { task := task }

lemma rebuild_reverse (task : Task) (log : List Record) : Journal.rebuild task log.reverse =
      { rebuilt task log with heldPositions := (rebuilt task log).priorUnsafePositions } := by
  rw [Journal.rebuild, List.foldl_reverse]
  rfl

namespace Journal

def ownCommit (task : Task) (r : Record) : Option (Commit × ℕ) :=
  match r.type, r.data with
  | .commit, .commit c => if r.attempt = task.attempt then some (c, r.seq) else none
  | _, _ => none

/-- What a handle keeps while it is rebuilt. -/
structure Rebuilds (j j' : Journal) : Prop where
  task : j'.task = j.task
  next : j'.next = j.next
  done : j'.done = j.done
  fenced : j'.fenced = j.fenced
  honoured : j'.honoured = j.honoured
  toolCalls : j'.toolCalls = j.toolCalls

lemma Rebuilds.trans {j j' j'' : Journal} (h : Rebuilds j j') (h' : Rebuilds j' j'') :
    Rebuilds j j'' where
  task := h'.task.trans h.task
  next := h'.next.trans h.next
  done := h'.done.trans h.done
  fenced := h'.fenced.trans h.fenced
  honoured := h'.honoured.trans h.honoured
  toolCalls := h'.toolCalls.trans h.toolCalls

lemma rebuildRecord_old {j : Journal} {r : Record} (h : r.iteration < j.task.iteration) :
    Rebuilds j (j.rebuildRecord r) ∧ (j.rebuildRecord r).records = j.records ∧
    (j.rebuildRecord r).lastCommitSeq = j.lastCommitSeq ∧ (j.rebuildRecord r).commitFound =
    j.commitFound := by
  rw [rebuildRecord, if_pos h]
  split <;> exact ⟨⟨rfl, rfl, rfl, rfl, rfl, rfl⟩, rfl, rfl, rfl⟩

lemma rebuildCommit_spec (j : Journal) (r : Record) (h : r.type = .commit) :
    Rebuilds j (j.rebuildCommit r) ∧ (j.rebuildCommit r).records = j.records ∧
    (j.rebuildCommit r).lastCommitSeq = r.seq ∧ (j.rebuildCommit r).commitFound =
    (ownCommit j.task r).or j.commitFound := by
  unfold rebuildCommit ownCommit
  rw [h]
  split
  · split
    · next c hdata hatt =>
      refine ⟨⟨rfl, rfl, rfl, rfl, rfl, rfl⟩, rfl, rfl, ?_⟩
      rw [hdata]
      simp [commitFound]
    · next c hdata hatt =>
      refine ⟨⟨rfl, rfl, rfl, rfl, rfl, rfl⟩, rfl, rfl, ?_⟩
      rw [hdata]
      simp [commitFound]
  · next hdata =>
    refine ⟨⟨rfl, rfl, rfl, rfl, rfl, rfl⟩, rfl, rfl, ?_⟩
    split
    · next c _ hc => exact absurd hc (hdata c)
    · rfl

lemma rebuildRecord_current {j : Journal} {r : Record} (h : ¬r.iteration < j.task.iteration) :
    Rebuilds j (j.rebuildRecord r) ∧ (j.rebuildRecord r).records = j.records ++ [r] ∧
    (j.rebuildRecord r).lastCommitSeq = (if r.type = .commit then r.seq else j.lastCommitSeq) ∧
    (j.rebuildRecord r).commitFound = (ownCommit j.task r).or j.commitFound := by
  rw [rebuildRecord, if_neg h, rebuildCurrent]
  by_cases hcommit : r.type = .commit
  · obtain ⟨hframe, hrecords, hlast, hfound⟩ := rebuildCommit_spec
      { j with
        placed := j.placed ++ placedBy r, records := j.records ++ [r]
        restarts := if r.type = RecordType.claim then j.restarts + 1 else 0 } r hcommit
    rw [hcommit] at hframe hrecords hlast hfound ⊢
    exact ⟨⟨hframe.task, hframe.next, hframe.done, hframe.fenced, hframe.honoured,
      hframe.toolCalls⟩, hrecords, hlast, hfound⟩
  · have hnone : ownCommit j.task r = none := by
      unfold ownCommit
      split
      · next hc _ => exact absurd hc hcommit
      · rfl
    rw [hnone, if_neg hcommit]
    split
    · exact ⟨⟨rfl, rfl, rfl, rfl, rfl, rfl⟩, rfl, rfl, rfl⟩
    · next hc => exact absurd hc hcommit
    · exact ⟨⟨rfl, rfl, rfl, rfl, rfl, rfl⟩, rfl, rfl, rfl⟩

end Journal

/-- The records of the iteration, and of later ones. -/
def current (task : Task) (log : List Record) : List Record :=
  log.filter fun r => ¬r.iteration < task.iteration

lemma mem_current : r ∈ current task log ↔ r ∈ log ∧ ¬r.iteration < task.iteration := by
  rw [current, List.mem_filter, decide_eq_true_eq]

/-- What `rebuild` reads off a log. -/
structure RebuiltFrom (task : Task) (log : List Record) (j : Journal) : Prop where
  frame : Journal.Rebuilds { task := task } j
  records : j.records = (current task log).reverse
  lastCommitSeq : j.lastCommitSeq =
    (((current task log).find? (·.type = .commit)).map Record.seq).getD 0
  commitFound : j.commitFound = (current task log).findSome? (Journal.ownCommit task)

lemma rebuiltFrom (task : Task) (log : List Record) : RebuiltFrom task log (rebuilt task log) := by
  induction log with
  | nil => exact ⟨⟨rfl, rfl, rfl, rfl, rfl, rfl⟩, rfl, rfl, rfl⟩
  | cons r log ih =>
    have hstep : rebuilt task (r :: log) = (rebuilt task log).rebuildRecord r := rfl
    have htask : (rebuilt task log).task = task := ih.frame.task
    by_cases hold : r.iteration < task.iteration
    · obtain ⟨hframe, hrecords, hlast, hfound⟩ :=
        Journal.rebuildRecord_old (j := rebuilt task log) (htask ▸ hold)
      have hcurrent : current task (r :: log) = current task log :=
        List.filter_cons_of_neg (by simpa using hold)
      rw [hstep]
      refine ⟨ih.frame.trans hframe, ?_, ?_, ?_⟩
      · rw [hrecords, hcurrent, ih.records]
      · rw [hlast, hcurrent, ih.lastCommitSeq]
      · rw [hfound, hcurrent, ih.commitFound]
    · obtain ⟨hframe, hrecords, hlast, hfound⟩ :=
        Journal.rebuildRecord_current (j := rebuilt task log) (htask ▸ hold)
      have hcurrent : current task (r :: log) = r :: current task log :=
        List.filter_cons_of_pos (by simpa using hold)
      rw [hstep]
      refine ⟨ih.frame.trans hframe, ?_, ?_, ?_⟩
      · rw [hrecords, hcurrent, ih.records, List.reverse_cons]
      · rw [hlast, hcurrent, ih.lastCommitSeq, List.find?_cons]
        by_cases hcommit : r.type = .commit <;> simp [hcommit]
      · rw [hfound, hcurrent, ih.commitFound, htask, List.findSome?_cons]
        cases Journal.ownCommit task r <;> rfl

lemma ownCommit_eq_some {task : Task} {r : Record} {c : Commit} {seq : ℕ}
    (h : Journal.ownCommit task r = some (c, seq)) :
    r.type = .commit ∧ r.data = .commit c ∧ r.attempt = task.attempt ∧ r.seq = seq := by
  unfold Journal.ownCommit at h
  split at h
  · next c' htype hdata =>
    split at h
    · next hatt =>
      cases h
      exact ⟨htype, hdata, hatt, rfl⟩
    · cases h
  · cases h

lemma ownCommit_of_commit {task : Task} {r : Record} {c : Commit} (htype : r.type = .commit)
    (hdata : r.data = .commit c) (hatt : r.attempt = task.attempt) :
    Journal.ownCommit task r = some (c, r.seq) := by
  unfold Journal.ownCommit
  rw [htype, hdata]
  exact if_pos hatt

lemma LogOk.exists_commit (h : LogOk d log) (hr : r ∈ log) (hcommit : r.type = .commit) :
    ∃ c, r.data = .commit c := by
  induction h with
  | nil => cases hr
  | cons _ hfollows ih =>
    rcases List.mem_cons.mp hr with rfl | hr'
    · exact hfollows.commit hcommit
    · exact ih hr'

lemma LogOk.no_commit (h : LogOk d log) {task : Task}
    (hnone : (current task log).findSome? (Journal.ownCommit task) = none) (hr : r ∈ log)
    (hcommit : r.type = .commit) : r.execution ≠ task.execution := by
  intro hexecution
  obtain ⟨hiter, hatt⟩ := Prod.mk.inj hexecution
  obtain ⟨c, hdata⟩ := h.exists_commit hr hcommit
  have hcurrent : r ∈ current task log := mem_current.mpr ⟨hr, Nat.not_lt.mpr hiter.ge⟩
  have hfound := List.findSome?_eq_none_iff.mp hnone r hcurrent
  rw [ownCommit_of_commit hcommit hdata hatt] at hfound
  cases hfound

lemma Sealed.eq (h : Sealed log) {c c' : Record} (hc : c ∈ log) (hc' : c' ∈ log)
    (hcommit : c.type = .commit) (hcommit' : c'.type = .commit)
    (hexecution : c.execution = c'.execution) : c = c' := by
  induction log with
  | nil => cases hc
  | cons r log ih =>
    obtain ⟨hhead, htail⟩ := List.pairwise_cons.mp h
    rcases List.mem_cons.mp hc with rfl | hmem <;> rcases List.mem_cons.mp hc' with rfl | hmem'
    · rfl
    · exact absurd hexecution.symm (hhead c' hmem' hcommit')
    · exact absurd hexecution (hhead c hmem hcommit)
    · exact ih htail hmem hmem'

lemma Sealed.seq_le (h : Sealed log) (hlog : LogOk d log) {c : Record} (hc : c ∈ log) (hr : r ∈ log)
    (hcommit : c.type = .commit) (hexecution : r.execution = c.execution) : r.seq ≤ c.seq := by
  induction hlog with
  | nil => cases hc
  | cons hlog hfollows ih =>
    obtain ⟨hhead, htail⟩ := List.pairwise_cons.mp h
    rcases List.mem_cons.mp hc with rfl | hmem <;> rcases List.mem_cons.mp hr with rfl | hmem'
    · exact le_rfl
    · have := LogOk.seq_le hlog hmem'
      have := hfollows.seq
      omega
    · exact absurd hexecution.symm (hhead c hmem hcommit)
    · exact ih htail hmem hmem'

lemma Sealed.commit_found (hsealed : Sealed log) {task : Task}
    (hiter : ∀ x ∈ log, x.iteration ≤ task.iteration) {found : Commit × ℕ}
    (hfound : (current task log).findSome? (Journal.ownCommit task) = some found) (hr : r ∈ log)
    (hcommit : r.type = .commit) (hexecution : r.execution = task.execution) :
    r.data = .commit found.1 ∧ found.2 = r.seq := by
  obtain ⟨x, hx, hown⟩ := List.exists_of_findSome?_eq_some hfound
  obtain ⟨htype, hdata, hatt, hseq⟩ := ownCommit_eq_some (c := found.1) hown
  obtain ⟨hlog, hge⟩ := mem_current.mp hx
  have hsame : x.execution = task.execution :=
    Prod.ext (le_antisymm (hiter x hlog) (Nat.not_lt.mp hge)) hatt
  obtain rfl := hsealed.eq hr hlog hcommit htype (hexecution.trans hsame.symm)
  exact ⟨hdata, hseq.symm⟩

/-! ## The claim -/

/-- A claim of the delivery may stand behind the record. -/
structure Clear (honest : Prop) (task : Task) (x : Record) : Prop where
  iteration : x.iteration ≤ task.iteration
  delivered : x.streamSeq = task.streamSeq → x.delivered < task.delivered
  commit : honest → x.type = .commit → x.execution ≠ task.execution

/-- The log up to this sequence lets a claim of the delivery follow. -/
def ClearTo (honest : Prop) (task : Task) (e : ℕ) (t : Stream) : Prop :=
  ∃ older, older <:+ t.log ∧ older.length = e ∧ ∀ x ∈ older, Clear honest task x

lemma ClearTo.grows {e : ℕ} (h : ClearTo honest task e s) (hst : s.Grows t) :
    ClearTo honest task e t := by
  obtain ⟨older, hsuffix, hrest⟩ := h
  exact ⟨older, hsuffix.trans hst.1, hrest⟩

lemma ClearTo.all (h : ClearTo honest task t.log.length t) : ∀ x ∈ t.log, Clear honest task x := by
  obtain ⟨older, hsuffix, hlength, hclear⟩ := h
  rwa [hsuffix.eq_of_length hlength] at hclear

lemma Shows.clear_of_earlier (h : Shows d honest v t) {tail : Record} (htail : tail ∈ t.log.head?)
    (hearlier : tail.iteration < v.task.iteration) (hx : x ∈ t.log) : Clear honest v.task x := by
  obtain ⟨G, hinv⟩ := h
  have hle : x.iteration ≤ tail.iteration := by
    refine hinv.log.iteration_le (List.mem_of_mem_head? htail) hx ?_
    have hseq : tail.seq = t.log.length := by
      rw [← hinv.log.tailSeq_eq, Option.mem_def.mp htail]
      rfl
    exact (hinv.log.seq_le hx).trans hseq.ge
  have hlt : x.iteration < v.task.iteration := hle.trans_lt hearlier
  refine ⟨hlt.le, fun hstream => ?_, fun _ _ hexecution => ?_⟩
  · have hsame : x.iteration = v.task.iteration := by
      rw [(hinv.log.dispatched hx).iteration, hstream]
      exact (congrArg Task.iteration hinv.view.task).symm
    exact absurd hsame hlt.ne
  · exact absurd (Prod.mk.inj hexecution).1 hlt.ne

lemma Shows.clear_of_older (h : Shows d honest v t) {tail : Record} (htail : tail ∈ t.log.head?)
    (hclaim : tail.type = .claim) (hstream : tail.streamSeq = v.task.streamSeq)
    (hdeliv : tail.delivered < v.task.delivered) (hx : x ∈ t.log) : Clear honest v.task x := by
  obtain ⟨G, hinv⟩ := h
  have hmem : tail ∈ t.log := List.mem_of_mem_head? htail
  have htailSeq : tail.seq = t.log.length := by
    rw [← hinv.log.tailSeq_eq, Option.mem_def.mp htail]
    rfl
  have hiter : tail.iteration = v.task.iteration := by
    rw [(hinv.log.dispatched hmem).iteration, hstream]
    exact (congrArg Task.iteration hinv.view.task).symm
  have hatt : tail.attempt = v.task.attempt := by
    rw [(hinv.log.dispatched hmem).attempt, hstream]
    exact (congrArg Task.attempt hinv.view.task).symm
  have hle : x.seq ≤ tail.seq := (hinv.log.seq_le hx).trans htailSeq.ge
  refine ⟨(hinv.log.iteration_le hmem hx hle).trans hiter.le, fun hxstream => ?_,
    fun hhonest hcommit hexecution => ?_⟩
  · rcases hle.lt_or_eq with hlt | heq
    · exact (hinv.log.delivered_lt hmem hclaim hx hlt (hxstream.trans hstream.symm)).trans
        hdeliv
    · rwa [hinv.log.eq_of_seq hx hmem heq]
  · -- Nothing of the execution follows its commit, so the tail would be the commit.
    obtain ⟨rest, hlog⟩ : ∃ rest, t.log = tail :: rest := List.head?_eq_some_iff.mp htail
    have hsealed := hinv.sealed hhonest
    rw [hlog] at hsealed hx
    rcases List.mem_cons.mp hx with rfl | hx
    · rw [hclaim] at hcommit
      cases hcommit
    · refine (List.pairwise_cons.mp hsealed).1 x hx hcommit ?_
      exact hexecution.trans (Prod.ext hiter.symm hatt.symm)

lemma Shows.follows_claim (h : Shows d honest v t) (hall : ∀ x ∈ t.log, Clear honest v.task x)
    (hunsent : ∀ x ∈ t.log, x.msgID ≠ msgID v.task 0) :
    Follows d t.log (newRecord v.task .claim 0 .claim (t.log.length + 1)) where
  dispatched := by
    obtain ⟨G, hinv⟩ := h
    exact hinv.view.dispatched _ _ _ _
  seq := rfl
  unsent := hunsent
  monotone x hx := (hall x hx).iteration
  own htype := absurd rfl htype
  claim _ x hx := (hall x hx).delivered
  commit htype := nomatch htype

lemma Shows.grounds_claim (hj : Numbered j v) (hnext : j.next = 0) (hown : v.own = [])
    (hquiet : ∀ n result, .opened v.task n result ∉ v.seen) :
    Grounds d honest v j .claim .claim (ClearTo honest v.task) where
  stable := ClearTo.grows
  lands := by
    rintro e t - hR hshows rfl hunsent
    have hall := hR.all
    rw [hnext] at hunsent ⊢
    exact ⟨hshows.follows_claim hall hunsent,
      fun hhonest x hx hcommit => (hall x hx).commit hhonest hcommit, fun _ => hquiet⟩
  judge := by
    intro e t hR hshows hjudge
    obtain ⟨G, hinv⟩ := id hshows
    have hclearTo : (∀ x ∈ t.log, Clear honest v.task x) →
        ClearTo honest v.task (tailSeq t.log.head?) t :=
      fun hall => ⟨t.log, List.suffix_rfl, hinv.log.tailSeq_eq.symm, hall⟩
    unfold Journal.judge at hjudge
    split at hjudge
    · next hnone =>
      apply hclearTo
      rw [List.head?_eq_none_iff.mp hnone]
      exact List.forall_mem_nil _
    · next tail htail =>
      split at hjudge
      · next hseq =>
        subst hseq
        rw [htail]
        exact hR
      · split at hjudge
        · cases hjudge
        · rw [hj.task] at hjudge
          split at hjudge
          · next hcase =>
            apply hclearTo
            rcases hcase with hsame | hearlier
            · -- The writer has stored nothing yet.
              have hdelivery := (Record.sameClaim_iff.mp hsame).2.2.2
              have hempty := hinv.view.mem_own.mpr ⟨List.mem_of_mem_head? htail, hdelivery⟩
              rw [hown] at hempty
              cases hempty
            · exact fun x hx => hshows.clear_of_earlier htail hearlier hx
          · split at hjudge
            · next holder =>
              simp only [Record.olderDeliveryClaim, Bool.and_eq_true, decide_eq_true_eq] at holder
              obtain ⟨⟨⟨hclaim, -⟩, hstream⟩, hdeliv⟩ := holder
              exact hclearTo fun x hx => hshows.clear_of_older htail hclaim hstream hdeliv hx
            · cases hjudge

/-! ## Open -/

/-- The handle that an `Open` rebuilds, at the tail of what it read. -/
def handleOn (task : Task) (log : List Record) : Journal :=
  { Journal.rebuild task log.reverse with seq := log.length }

/-- The writer holds the journal: it has claimed it, its handle is at a record of its own,
and has seen no commit of its own, unless it is done. -/
structure Holding (honest : Prop) (j : Journal) (v : View) : Prop where
  numbered : Numbered j v
  tail : ∃ x ∈ v.own, x.seq = j.seq
  uncommitted : honest → j.done = false → ∀ x ∈ v.own, x.index < j.next → x.type ≠ .commit

/-- What `Open` can have done, after it had read this log. -/
inductive Opened (honest : Prop) (task : Task) (older : List Record) (w : View) :
    Except Err Journal → Prop where
  | unread : w.own = [] → Opened honest task older w (.error .transport)
  | stale {r : Record} : w.own = [] → r ∈ older → task.iteration < r.iteration →
      Opened honest task older w (.error .stale)
  | committed {j : Journal} {found : Commit × ℕ} : w.own = [] →
      (∀ x ∈ older, x.iteration ≤ task.iteration) → j.done = true →
      j.commitFound = some found →
      (current task older).findSome? (Journal.ownCommit task) = some found →
      Opened honest task older w (.ok j)
  | refused (e : Err) : (current task older).findSome? (Journal.ownCommit task) = none →
      Opened honest task older w (.error e)
  | claimed {j : Journal} :
      (current task older).findSome? (Journal.ownCommit task) = none → Holding honest j w →
      Opened honest task older w (.ok j)

/-- What `Open` reads of the log at a tail is the log as it was then. -/
lemma gives_readRecords (hlog : older <:+ s.log) (hok : LogOk d older) :
    Gives d honest (fun a w _ => w = v ∧ (a = .ok older.reverse ∨ a = .error .transport))
      (Journal.readRecords older.head?) v s := by
  cases holder : older.head? with
  | none =>
    obtain rfl := List.head?_eq_none_iff.mp holder
    exact gives_pure fun _ _ => ⟨rfl, .inl rfl⟩
  | some tail =>
    have hseq : tail.seq = older.length := by
      rw [← hok.tailSeq_eq, holder]
      rfl
    refine Gives.conseq gives_readUpTo ?_
    rintro a w t - ⟨rfl, u, hsu, ⟨G, hinv⟩, ha⟩
    rw [hseq, hinv.log.filter_seq_le (hlog.trans hsu.1)] at ha
    exact ⟨rfl, ha⟩

lemma handleOn_frame :
    Journal.Rebuilds { task := task } (handleOn task log) ∧ (handleOn task log).seq = log.length ∧
      (handleOn task log).records = (current task log).reverse ∧
      (handleOn task log).commitFound = (current task log).findSome? (Journal.ownCommit task) := by
  have h := rebuiltFrom task log
  rw [handleOn, rebuild_reverse]
  exact ⟨⟨h.frame.task, h.frame.next, h.frame.done, h.frame.fenced, h.frame.honoured,
    h.frame.toolCalls⟩, rfl, h.records, h.commitFound⟩

lemma LogOk.iteration_le_of_tail (h : LogOk d log) {i : ℕ}
    (htail : ¬log.head?.any (fun r => i < r.iteration) = true) (hx : x ∈ log) :
    x.iteration ≤ i := by
  cases hhead : log.head? with
  | none =>
    rw [List.head?_eq_none_iff.mp hhead] at hx
    cases hx
  | some tail =>
    rw [hhead] at htail
    have hseq : tail.seq = log.length := by
      rw [← h.tailSeq_eq, hhead]
      rfl
    calc x.iteration ≤ tail.iteration :=
          h.iteration_le (List.mem_of_mem_head? hhead) hx ((h.seq_le hx).trans hseq.ge)
      _ ≤ i := by simpa using htail

/-- Behind what a handle is rebuilt from, its writer may claim. -/
lemma clear_handleOn (hok : LogOk d older) (hstream : task.streamSeq ≠ 0)
    (htask : task = d.task task.streamSeq task.delivered)
    (hstale : ¬older.head?.any (fun r => task.iteration < r.iteration) = true)
    (hnone : (current task older).findSome? (Journal.ownCommit task) = none)
    (hsuperseded : ¬(handleOn task older).supersededDelivery = true)
    (hown : ∀ x ∈ older, x.delivery ≠ task.delivery) : ∀ x ∈ older, Clear honest task x := by
  intro x hx
  have hiter : x.iteration ≤ task.iteration := hok.iteration_le_of_tail hstale hx
  refine ⟨hiter, fun hsame => ?_, fun _ hcommit => hok.no_commit hnone hx hcommit⟩
  have hne : x.delivered ≠ task.delivered := fun heq => hown x hx (Prod.ext hsame heq)
  by_contra hnot
  have hlt : task.delivered < x.delivered := lt_of_le_of_ne (Nat.not_lt.mp hnot) hne.symm
  -- The claim of the later delivery is among the records.
  obtain ⟨c, hc, hclaim, hdelivery, -, -⟩ := hok.exists_claim hx
  obtain ⟨hcstream, hcdelivered⟩ := Prod.mk.inj hdelivery
  have hcurrent : c ∈ current task older := by
    refine mem_current.mpr ⟨hc, ?_⟩
    rw [(hok.dispatched hc).iteration, hcstream, hsame]
    exact (congrArg Task.iteration htask).le.not_gt
  apply hsuperseded
  obtain ⟨hframe, -, hrecords, -⟩ := handleOn_frame
  rw [Journal.supersededDelivery, hframe.task, hrecords, Bool.and_eq_true]
  refine ⟨decide_eq_true hstream, List.any_eq_true.mpr ⟨c, List.mem_reverse.mpr hcurrent, ?_⟩⟩
  rw [Bool.and_eq_true, Bool.and_eq_true, decide_eq_true_eq, decide_eq_true_eq, decide_eq_true_eq]
  exact ⟨⟨hclaim, hcstream.trans hsame⟩, hcdelivered ▸ hlt⟩

lemma gives_appendClaim (hlog : older <:+ s.log)
    (hnone : (current task older).findSome? (Journal.ownCommit task) = none)
    (hclear : ∀ x ∈ older, Clear honest task x) :
    Gives d honest (fun result w _ => w.task = task ∧ Opened honest task older w result)
      (handleOn task older).appendClaim ⟨task, [], []⟩ s := by
  obtain ⟨hframe, hseq, -, -⟩ := handleOn_frame
  rw [Journal.appendClaim, hframe.task, hseq]
  refine Gives.bind (gives_observe_quiet (o := .rebuilt task older.length) rfl rfl) ?_
  rintro a w t hst rfl
  have hnumbered : Numbered (handleOn task older)
      (View.note ⟨task, [], []⟩ (.rebuilt task older.length)) :=
    ⟨hframe.task, List.forall_mem_nil _, fun hmem => by cases List.mem_singleton.mp hmem⟩
  have hquiet : ∀ n result, .opened task n result ∉
      (View.note ⟨task, [], []⟩ (.rebuilt task older.length)).seen :=
    fun n result hmem => by cases List.mem_singleton.mp hmem
  refine Gives.bind (gives_append hnumbered (Shows.grounds_claim hnumbered hframe.next rfl hquiet)
    ⟨older, hlog.trans hst.1, hseq.symm, hclear⟩) ?_
  intro result w u _ hwrote
  have hnumbered' := hnumbered.wrote hwrote
  cases hwrote with
  | refused e fenced | lost e fenced seq => exact gives_pure fun _ _ => ⟨rfl, .refused e hnone⟩
  | known hr _ _ => cases hr
  | stored seq hfresh =>
    refine gives_pure fun _ _ => ⟨rfl, .claimed hnone
      ⟨hnumbered', ⟨_, .head _, rfl⟩, fun _ _ x hx _ hcommit => ?_⟩⟩
    obtain rfl := List.mem_singleton.mp hx
    cases hcommit

lemma commitFound_eq_none : j.commitFound = none ↔ j.committed.isSome = false := by
  rw [Journal.commitFound, Option.map_eq_none_iff, Option.isSome_eq_false_iff,
    Option.isNone_iff_eq_none]

lemma gives_openRebuilt (hlog : older <:+ s.log) (hok : LogOk d older)
    (hview : View.Of d ⟨task, [], []⟩ t) (hown : ∀ x ∈ older, x.delivery ≠ task.delivery)
    (hstale : ¬older.head?.any (fun r => task.iteration < r.iteration) = true) :
    Gives d honest (fun result w _ => w.task = task ∧ Opened honest task older w result)
      (handleOn task older).openRebuilt ⟨task, [], []⟩ s := by
  obtain ⟨-, -, -, hfound⟩ := handleOn_frame
  unfold Journal.openRebuilt
  cases hcommit : (handleOn task older).commitFound with
  | some found =>
    have hcommitted : (handleOn task older).committed.isSome = true := by
      by_contra hnot
      rw [commitFound_eq_none.mpr (by simpa using hnot)] at hcommit
      cases hcommit
    rw [if_pos hcommitted]
    exact gives_pure fun _ _ => ⟨rfl, .committed rfl
      (fun x hx => hok.iteration_le_of_tail hstale hx) rfl hcommit (hfound.symm.trans hcommit)⟩
  | none =>
    have hnone := hfound.symm.trans hcommit
    rw [commitFound_eq_none.mp hcommit, if_neg Bool.false_ne_true]
    by_cases hsuperseded : (handleOn task older).supersededDelivery = true
    · rw [if_pos hsuperseded]
      exact gives_pure fun _ _ => ⟨rfl, .refused .fenced hnone⟩
    rw [if_neg hsuperseded]
    exact gives_appendClaim hlog hnone
      (clear_handleOn hok hview.streamSeq hview.task hstale hnone hsuperseded hown)

lemma gives_openAt {u : Stream} (hread : Shows d honest ⟨task, [], []⟩ u) (hus : u.Grows s) :
    Gives d honest (fun result w _ => w.task = task ∧ Opened honest task u.log w result)
      (Journal.openAt task u.log.head?) ⟨task, [], []⟩ s := by
  obtain ⟨G, hinv⟩ := hread
  unfold Journal.openAt
  by_cases hstale : u.log.head?.any (fun r => task.iteration < r.iteration) = true
  · rw [if_pos hstale]
    obtain ⟨r, hr, hlater⟩ := (Option.any_eq_true ..).mp hstale
    exact gives_pure fun _ _ => ⟨rfl,
      .stale rfl (List.mem_of_mem_head? hr) (of_decide_eq_true hlater)⟩
  rw [if_neg hstale]
  refine Gives.bind (gives_readRecords hus.1 hinv.log) ?_
  rintro records w t hst ⟨rfl, rfl | rfl⟩
  · have hhandle : { Journal.rebuild task u.log.reverse with seq := tailSeq u.log.head? } =
        handleOn task u.log := by
      rw [hinv.log.tailSeq_eq]
      rfl
    dsimp only
    rw [hhandle]
    exact gives_openRebuilt (hus.1.trans hst.1) hinv.log hinv.view
      (fun x hx hdelivery => nomatch hinv.view.mem_own.mpr ⟨hx, hdelivery⟩) hstale
  · exact gives_pure fun _ _ => ⟨rfl, .unread rfl⟩

/-- What an `Open` returns is right about the commits that it had read. -/
lemma Opened.reports {result : Except Err Journal} (h : Opened honest task older w result)
    (hw : w.task = task) (hshows : Shows d honest w t) (hlog : older <:+ t.log) (hhonest : honest)
    {c : Record} (hc : c ∈ t.log) (hcommit : c.type = .commit)
    (hexecution : c.execution = task.execution) (hseq : c.seq ≤ older.length) :
    Reports t.log task c (result.map Journal.commitFound) := by
  obtain ⟨G, hinv⟩ := hshows
  have hread : c ∈ older := by
    rw [← hinv.log.filter_seq_le hlog]
    exact List.mem_filter.mpr ⟨hc, decide_eq_true hseq⟩
  have hok : LogOk d older := hinv.log.suffix hlog
  have hsilent : w.own = [] → ∀ r ∈ t.log, r.delivery ≠ task.delivery := by
    intro hown r hr hdelivery
    have hmem := hinv.view.mem_own.mpr ⟨hr, by rw [hw]; exact hdelivery⟩
    rw [hown] at hmem
    cases hmem
  cases h with
  | unread hown => exact ⟨hsilent hown, .inl rfl⟩
  | stale hown hr hlater =>
    exact ⟨hsilent hown, .inr (.inl ⟨rfl, _, hlog.subset hr, hlater⟩)⟩
  | committed hown hiter _ hfound hsome =>
    have hsealed : Sealed older := (hinv.sealed hhonest).sublist hlog.sublist
    obtain ⟨hdata, heq⟩ := hsealed.commit_found hiter hsome hread hcommit hexecution
    refine ⟨hsilent hown, .inr (.inr ⟨_, hdata, ?_⟩)⟩
    rw [Except.map, hfound, ← heq]
  | refused _ hnone | claimed hnone _ => exact absurd hexecution (hok.no_commit hnone hread hcommit)

lemma Opened.holding (h : Opened honest task older w (.ok j)) (hdone : j.done = false) :
    Holding honest j w := by
  cases h with
  | committed _ _ hj _ _ =>
    rw [hj] at hdone
    cases hdone
  | claimed _ hholding => exact hholding

lemma Holding.note (h : Holding honest j v) {o : Observation} (ho : o.storedSeq? = none) :
    Holding honest j (v.note o) where
  numbered :=
    { h.numbered with
      stored := by
        intro type data seq hmem
        rcases List.mem_cons.mp hmem with heq | hmem
        · rw [← heq] at ho
          cases ho
        · exact h.numbered.stored hmem }
  tail := h.tail
  uncommitted := h.uncommitted

lemma gives_open : Gives d honest
    (fun result w _ => ∀ j, result = .ok j → j.done = false → Holding honest j w)
    (Journal.open task) ⟨task, [], []⟩ s := by
  refine Gives.bind gives_readTail ?_
  rintro tail w t - ⟨rfl, u, -, hshows, hut, rfl | rfl⟩
  · refine Gives.bind (gives_openAt hshows hut) ?_
    rintro result w x htx ⟨hw, hopened⟩
    have htail : tailSeq u.log.head? = u.log.length := by
      obtain ⟨G, hinv⟩ := hshows
      exact hinv.log.tailSeq_eq
    rw [htail]
    refine Gives.bind (gives_observe hw.symm fun y hxy hshowsw => ?_) ?_
    · have hlog : u.log <:+ y.log := (hut.1.trans htx.1).trans hxy.1
      obtain ⟨G, hinv⟩ := id hshowsw
      refine ⟨hinv.stored.note rfl, fun hhonest => ⟨fun hmem => ?_, fun hmem => ?_⟩⟩
      · rcases List.mem_cons.mp hmem with heq | hmem
        · cases heq
          exact hlog.length_le
        · exact (hinv.opened hhonest).read hmem
      · rcases List.mem_cons.mp hmem with heq | hmem
        · cases heq
          intro c hc hcommit hexecution hseq
          exact hopened.reports hw hshowsw hlog hhonest hc hcommit hexecution hseq
        · exact (hinv.opened hhonest).reports hmem
    · rintro a w y - rfl
      refine gives_pure fun _ _ j hj hdone => ?_
      subst hj
      exact (hopened.holding hdone).note rfl
  · exact gives_pure fun _ _ j hj => nomatch hj

end Dagnats.AgentJournal
