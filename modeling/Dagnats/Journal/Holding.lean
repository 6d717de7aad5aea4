import Dagnats.Journal.Opening

/-!
# Holding a step journal

A writer that has claimed appends behind its own records. The operations of the
handle, and whatever a handler does with them, keep this up (`Holding`).
-/

namespace Dagnats.AgentJournal

variable {d : Dispatches} {honest : Prop} {v w : View} {s t : Stream} {j j' : Journal}
  {type : RecordType} {data : Body} {result : Except Err ℕ × Journal}

section

variable {x : Record} (h : Shows d honest v t) (hx : x ∈ v.own)
include h hx

lemma Shows.tail_own (hseq : x.seq = t.log.length) : x ∈ t.log.head? := by
  obtain ⟨G, hinv⟩ := h
  have hmem := (hinv.view.mem_own.mp hx).1
  cases hhead : t.log.head? with
  | none =>
    rw [List.head?_eq_none_iff.mp hhead] at hmem
    cases hmem
  | some tail =>
    have htail : tail.seq = t.log.length := by
      rw [← hinv.log.tailSeq_eq, hhead]
      rfl
    rw [hinv.log.eq_of_seq hmem (List.mem_of_mem_head? hhead) (hseq.trans htail.symm)]
    rfl

/-- Where the tail is the writer's own, the whole log is of no later iteration. -/
lemma Shows.iteration_le (hseq : x.seq = t.log.length) {y : Record} (hy : y ∈ t.log) :
    y.iteration ≤ v.task.iteration := by
  obtain ⟨G, hinv⟩ := h
  obtain ⟨hmem, hdelivery⟩ := hinv.view.mem_own.mp hx
  calc y.iteration ≤ x.iteration :=
        hinv.log.iteration_le hmem hy ((hinv.log.seq_le hy).trans hseq.ge)
    _ = v.task.iteration := by
        rw [(hinv.log.dispatched hmem).iteration, (Prod.mk.inj hdelivery).1]
        exact (congrArg Task.iteration hinv.view.task).symm

lemma Shows.execution_own : x.execution = v.task.execution := by
  obtain ⟨G, hinv⟩ := h
  obtain ⟨hmem, hdelivery⟩ := hinv.view.mem_own.mp hx
  have hstream := (Prod.mk.inj hdelivery).1
  refine Prod.ext ?_ ?_
  · change x.iteration = v.task.iteration
    rw [(hinv.log.dispatched hmem).iteration, hstream]
    exact (congrArg Task.iteration hinv.view.task).symm
  · change x.attempt = v.task.attempt
    rw [(hinv.log.dispatched hmem).attempt, hstream]
    exact (congrArg Task.attempt hinv.view.task).symm

end

lemma Shows.follows_own (h : Shows d honest v t) (htype : type ≠ .claim)
    (hcommit : type = .commit → ∃ c, data = .commit c) {index : ℕ}
    (hunsent : ∀ x ∈ t.log, x.msgID ≠ msgID v.task index) {x : Record} (hx : x ∈ v.own)
    (hseq : x.seq = t.log.length) :
    Follows d t.log (newRecord v.task type index data (t.log.length + 1)) where
  dispatched := by
    obtain ⟨G, hinv⟩ := h
    exact hinv.view.dispatched _ _ _ _
  seq := rfl
  unsent := hunsent
  monotone y hy := h.iteration_le hx hseq hy
  own _ := by
    obtain ⟨G, hinv⟩ := id h
    exact ⟨x, h.tail_own hx hseq, (hinv.view.mem_own.mp hx).2⟩
  claim hclaim := absurd hclaim htype
  commit := hcommit

section

variable (hj : Holding honest j v)
include hj

lemma Holding.no_commit (h : Shows d honest v t) (hhonest : honest) (hdone : j.done = false)
    (hunsent : ∀ x ∈ t.log, x.msgID ≠ msgID v.task j.next) {x : Record} (hx : x ∈ v.own)
    (hseq : x.seq = t.log.length) {y : Record} (hy : y ∈ t.log) (hcommit : y.type = .commit) :
    y.execution ≠ v.task.execution := by
  intro hexecution
  obtain ⟨rest, hlog⟩ : ∃ rest, t.log = x :: rest := List.head?_eq_some_iff.mp (h.tail_own hx hseq)
  have hsealed : Sealed t.log := by
    obtain ⟨G, hinv⟩ := h
    exact hinv.sealed hhonest
  have hmem := hy
  rw [hlog] at hsealed hmem
  rcases List.mem_cons.mp hmem with rfl | hrest
  · -- The tail itself would be the commit, and the handle would be done.
    have hne : y.index ≠ j.next := by
      intro hindex
      have hid := (h.msgID_own hx).2
      rw [hindex] at hid
      exact hunsent y hy hid
    have hlt : y.index < j.next := lt_of_le_of_ne (hj.numbered.index_le y hx) hne
    exact hj.uncommitted hhonest hdone y hx hlt hcommit
  · exact (List.pairwise_cons.mp hsealed).1 y hrest hcommit
      (hexecution.trans (h.execution_own hx).symm)

/-- A holder is never behind a claim of an older delivery, or an earlier iteration. -/
lemma Holding.judge (h : Shows d honest v t) {e : ℕ} (hexpected : ∃ x ∈ v.own, x.seq = e)
    (hjudge : j.judge e t.log.head? = .resync) : ∃ x ∈ v.own, x.seq = tailSeq t.log.head? := by
  have hview := h
  obtain ⟨G, hinv⟩ := hview
  obtain ⟨x, hx, -⟩ := id hexpected
  obtain ⟨hmem, hdelivery⟩ := hinv.view.mem_own.mp hx
  unfold Journal.judge at hjudge
  split at hjudge
  · next hnone =>
    rw [List.head?_eq_none_iff.mp hnone] at hmem
    cases hmem
  · next tail htail =>
    have htailMem := List.mem_of_mem_head? htail
    have htailSeq : tail.seq = t.log.length := by
      rw [← hinv.log.tailSeq_eq, htail]
      rfl
    have hle : x.seq ≤ tail.seq := (hinv.log.seq_le hmem).trans htailSeq.ge
    rw [htail]
    split at hjudge
    · next hseq =>
      subst hseq
      exact hexpected
    · split at hjudge
      · cases hjudge
      · rw [hj.numbered.task] at hjudge
        split at hjudge
        · next hcase =>
          rcases hcase with hsame | hearlier
          · have hown := (Record.sameClaim_iff.mp hsame).2.2.2
            exact ⟨tail, hinv.view.mem_own.mpr ⟨htailMem, hown⟩, rfl⟩
          · have hiter : x.iteration = v.task.iteration :=
              congrArg Prod.fst (h.execution_own hx)
            have := hinv.log.iteration_le htailMem hmem hle
            omega
        · split at hjudge
          · next holder =>
            simp only [Record.olderDeliveryClaim, Bool.and_eq_true, decide_eq_true_eq] at holder
            obtain ⟨⟨⟨hclaim, -⟩, hstream⟩, hdeliv⟩ := holder
            obtain ⟨hxstream, hxdelivered⟩ := Prod.mk.inj hdelivery
            rcases hle.lt_or_eq with hlt | heq
            · have := hinv.log.delivered_lt htailMem hclaim hmem hlt (hxstream.trans hstream.symm)
              omega
            · rw [hinv.log.eq_of_seq hmem htailMem heq] at hxdelivered
              omega
          · cases hjudge

lemma gives_write (htype : type ≠ .claim) (hcommit : type = .commit → ∃ c, data = .commit c) :
    Gives d honest (fun a w _ => Wrote honest v j type data a w) (j.append type data) v s := by
  refine gives_append (R := fun e _ => ∃ x ∈ v.own, x.seq = e) hj.numbered
    ⟨fun h _ => h, ?_, fun h hshows hjudge => hj.judge hshows h hjudge⟩ hj.tail
  rintro e t hdone ⟨x, hx, hseq⟩ hshows rfl hunsent
  refine ⟨hshows.follows_own htype hcommit hunsent hx hseq, fun hhonest y hy hcommit => ?_,
    fun hown => ?_⟩
  · exact hj.no_commit hshows hhonest hdone hunsent hx hseq hy hcommit
  · rw [hown] at hx
    cases hx

lemma Holding.frame (htask : j'.task = j.task) (hseq : j'.seq = j.seq) (hnext : j'.next = j.next)
    (hdone : j'.done = false → j.done = false) : Holding honest j' v where
  numbered :=
    { task := htask.trans hj.numbered.task
      index_le := by rw [hnext]; exact hj.numbered.index_le
      stored := by rw [hnext]; exact hj.numbered.stored }
  tail := by
    rw [hseq]
    exact hj.tail
  uncommitted := by
    intro hhonest hopen
    rw [hnext]
    exact hj.uncommitted hhonest (hdone hopen)

end

lemma Wrote.tail (hw : Wrote honest v j type data result w) (hj : ∃ x ∈ v.own, x.seq = j.seq) :
    ∃ x ∈ w.own, x.seq = result.2.seq := by
  obtain ⟨x, hx, hseq⟩ := hj
  cases hw with
  | refused _ _ => exact ⟨x, hx, hseq⟩
  | lost _ _ _ => exact ⟨x, .tail _ hx, hseq⟩
  | known hr _ _ => exact ⟨_, hr, rfl⟩
  | stored _ _ => exact ⟨_, .head _, rfl⟩

lemma Wrote.uncommitted (hw : Wrote honest v j type data result w) (hhonest : honest)
    (hj : ∀ x ∈ v.own, x.index < j.next → x.type ≠ .commit)
    (htype : result.1.isOk = true → type ≠ .commit) :
    ∀ x ∈ w.own, x.index < result.2.next → x.type ≠ .commit := by
  intro x hx hlt
  cases hw with
  | refused _ _ => exact hj x hx hlt
  | lost _ _ _ =>
    rcases List.mem_cons.mp hx with rfl | hx
    · exact absurd hlt (lt_irrefl _)
    · exact hj x hx hlt
  | known _ _ hheeds =>
    rcases (Nat.le_of_lt_succ hlt).lt_or_eq with hlt | heq
    · exact hj x hx hlt
    · rw [(hheeds hhonest x hx heq).1]
      exact htype rfl
  | stored _ hfresh =>
    rcases List.mem_cons.mp hx with rfl | hx
    · exact htype rfl
    · exact hj x hx (lt_of_le_of_ne (Nat.le_of_lt_succ hlt) (hfresh x hx))

variable (hj : Holding honest j v) (hw : Wrote honest v j type data result w)
include hj hw

lemma Holding.wrote
    (htype : result.1.isOk = true → type ≠ .commit) : Holding honest result.2 w where
  numbered := hj.numbered.wrote hw
  tail := hw.tail hj.tail
  uncommitted hhonest hdone :=
    hw.uncommitted hhonest (hj.uncommitted hhonest (by cases hw <;> exact hdone)) htype

lemma Holding.committed
    (htask : j'.task = result.2.task) (hseq : j'.seq = result.2.seq)
    (hnext : j'.next = result.2.next) (hdone : j'.done = true) : Holding honest j' w where
  numbered :=
    { task := htask.trans (hj.numbered.wrote hw).task
      index_le := by rw [hnext]; exact (hj.numbered.wrote hw).index_le
      stored := by rw [hnext]; exact (hj.numbered.wrote hw).stored }
  tail := by
    rw [hseq]
    exact hw.tail hj.tail
  uncommitted := by
    intro _ hopen
    rw [hdone] at hopen
    cases hopen

end Dagnats.AgentJournal
