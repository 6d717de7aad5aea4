import Mathlib.Data.Multiset.Filter
import Mathlib.Data.Multiset.UnionInter
import Dagnats.Interaction.Concert
import Dagnats.Journal.Log

/-!
# What a writer of a step journal knows

A writer is the only one that appends under its delivery, so it knows its own
records and what was observed at its handle (`View`), whatever the others do.
The views of all writers together with the log make up the invariant `Inv`.

How much is assumed of the calls is left open: nothing, or that a message under
a stored id is the stored one (`honest`).
-/

namespace Dagnats.AgentJournal

open Interaction

variable {log : List Record} {trace : List Observation}

def Record.execution (r : Record) : ℕ × ℕ := (r.iteration, r.attempt)

def Task.execution (t : Task) : ℕ × ℕ := (t.iteration, t.attempt)

/-- Nothing of an execution follows its commit. -/
def Sealed (log : List Record) : Prop :=
  log.Pairwise fun r x => x.type = .commit → x.execution ≠ r.execution

/-- The sequence that a successful append returned. -/
def Observation.storedSeq? : Observation → Option ℕ
  | .stored _ _ _ seq => some seq
  | _ => none

/-- Successful appends returned the sequences of records of their own, which are, among
honest writers, what they wrote. -/
structure StoredOk (honest : Prop) (log : List Record) (trace : List Observation) : Prop where
  found : ∀ {task type data seq}, .stored task type data seq ∈ trace →
    ∃ r ∈ log, r.seq = seq ∧ r.delivery = task.delivery ∧ (honest → r.type = type ∧ r.data = data)
  distinct : (trace.filterMap Observation.storedSeq?).Nodup

/-- What an `Open` makes of a commit of its execution: it returns the commit, unless it
fails to read the journal or finds a later iteration. It writes nothing. -/
structure Reports (log : List Record) (task : Task) (c : Record)
    (result : Except Err (Option (Commit × ℕ))) : Prop where
  silent : ∀ r ∈ log, r.delivery ≠ task.delivery
  result : result = .error .transport ∨
    (result = .error .stale ∧ ∃ r ∈ log, task.iteration < r.iteration) ∨
    ∃ b, c.data = .commit b ∧ result = .ok (some (b, c.seq))

/-- Every `Open` reports the commits that it had before it. -/
structure OpenedOk (log : List Record) (trace : List Observation) : Prop where
  read : ∀ {task n result}, .opened task n result ∈ trace → n ≤ log.length
  reports : ∀ {task n result}, .opened task n result ∈ trace → ∀ c ∈ log,
    c.type = .commit → c.execution = task.execution → c.seq ≤ n → Reports log task c result

lemma StoredOk.push {honest : Prop} (h : StoredOk honest log trace) (r : Record) :
    StoredOk honest (r :: log) trace where
  found hmem := by
    obtain ⟨x, hx, hrest⟩ := h.found hmem
    exact ⟨x, .tail r hx, hrest⟩
  distinct := h.distinct

lemma StoredOk.note {honest : Prop} (h : StoredOk honest log trace) {o : Observation}
    (ho : o.storedSeq? = none) : StoredOk honest log (o :: trace) where
  found hmem := by
    rcases List.mem_cons.mp hmem with rfl | hmem
    · cases ho
    · exact h.found hmem
  distinct := by
    rw [List.filterMap_cons_none ho]
    exact h.distinct

lemma OpenedOk.note (h : OpenedOk log trace) {o : Observation}
    (ho : ∀ task n result, o ≠ .opened task n result) : OpenedOk log (o :: trace) where
  read hmem := by
    rcases List.mem_cons.mp hmem with rfl | hmem
    · exact absurd rfl (ho _ _ _)
    · exact h.read hmem
  reports hmem := by
    rcases List.mem_cons.mp hmem with rfl | hmem
    · exact absurd rfl (ho _ _ _)
    · exact h.reports hmem

/-- A new record is no commit that an earlier `Open` has read. -/
lemma OpenedOk.push {d : Dispatches} (h : OpenedOk log trace) {r : Record}
    (hfollows : Follows d log r) (hquiet : ∀ {task n result}, .opened task n result ∈ trace →
      task.delivery = r.delivery → ∃ x ∈ log, x.delivery = task.delivery) :
    OpenedOk (r :: log) trace where
  read hmem := (h.read hmem).trans (Nat.le_succ _)
  reports := by
    intro task n result hmem c hc hcommit hexecution hseq
    rcases List.mem_cons.mp hc with rfl | hc
    · have hle := h.read hmem
      rw [hfollows.seq] at hseq
      omega
    · have hreports := h.reports hmem c hc hcommit hexecution hseq
      refine ⟨?_, ?_⟩
      · intro x hx hdelivery
        rcases List.mem_cons.mp hx with rfl | hx
        · obtain ⟨y, hy, hown⟩ := hquiet hmem hdelivery.symm
          exact hreports.silent y hy hown
        · exact hreports.silent x hx hdelivery
      · rcases hreports.result with htransport | ⟨hstale, x, hx, hlater⟩ | hcommitted
        · exact .inl htransport
        · exact .inr (.inl ⟨hstale, x, .tail r hx, hlater⟩)
        · exact .inr (.inr hcommitted)

/-- What a writer knows to be its own: the delivery, its records and what was observed at
its handle. -/
structure View where
  task : Task
  own : List Record
  seen : List Observation

namespace View

def push (v : View) (r : Record) : View := { v with own := r :: v.own }

def note (v : View) (o : Observation) : View := { v with seen := o :: v.seen }

/-- The view shows what the stream has of the delivery. -/
structure Of (d : Dispatches) (v : View) (s : Stream) : Prop where
  task : v.task = d.task v.task.streamSeq v.task.delivered
  streamSeq : v.task.streamSeq ≠ 0
  delivered : v.task.delivered ≤ s.deliveries v.task.streamSeq
  own : v.own = s.log.filter (·.delivery = v.task.delivery)
  seen : v.seen = s.trace.filter (·.task = v.task)

variable {d : Dispatches} {v : View} {s : Stream} {r : Record} {o : Observation}

section

variable (h : v.Of d s)
include h

lemma Of.mem_own : r ∈ v.own ↔ r ∈ s.log ∧ r.delivery = v.task.delivery := by
  rw [h.own, List.mem_filter, decide_eq_true_eq]

lemma Of.mem_seen : o ∈ v.seen ↔ o ∈ s.trace ∧ o.task = v.task := by
  rw [h.seen, List.mem_filter, decide_eq_true_eq]

lemma Of.push (hr : r.delivery = v.task.delivery) :
    (v.push r).Of d { s with log := r :: s.log } where
  task := h.task
  streamSeq := h.streamSeq
  delivered := h.delivered
  own := by
    rw [List.filter_cons_of_pos (by exact decide_eq_true hr)]
    exact congrArg (r :: ·) h.own
  seen := h.seen

lemma Of.push_other (hr : r.delivery ≠ v.task.delivery) : v.Of d { s with log := r :: s.log } where
  task := h.task
  streamSeq := h.streamSeq
  delivered := h.delivered
  own := by
    rw [List.filter_cons_of_neg (by simpa using hr)]
    exact h.own
  seen := h.seen

lemma Of.note (ho : o.task = v.task) : (v.note o).Of d { s with trace := o :: s.trace } where
  task := h.task
  streamSeq := h.streamSeq
  delivered := h.delivered
  own := h.own
  seen := by
    rw [List.filter_cons_of_pos (by exact decide_eq_true ho)]
    exact congrArg (o :: ·) h.seen

lemma Of.note_other (ho : o.task ≠ v.task) : v.Of d { s with trace := o :: s.trace } where
  task := h.task
  streamSeq := h.streamSeq
  delivered := h.delivered
  own := h.own
  seen := by
    rw [List.filter_cons_of_neg (by simpa using ho)]
    exact h.seen

end

end View

lemma task_eq_of_delivery {d : Dispatches} {t u : Task} (ht : t = d.task t.streamSeq t.delivered)
    (hu : u = d.task u.streamSeq u.delivered) (h : t.delivery = u.delivery) : t = u := by
  obtain ⟨hstream, hdeliv⟩ := Prod.mk.inj h
  rw [ht, hu, hstream, hdeliv]

/-- A message under a stored id is the stored one. -/
def Honest (s : Stream) : Call → Prop
  | .publish m => ∀ r ∈ s.log, r.msgID = (m.record 0).msgID →
      r.type = (m.record 0).type ∧ r.data = (m.record 0).data
  | _ => True

/-- The delivery of a writer that has one. -/
def deliveryOf (g : Option View) : Option (ℕ × ℕ) := g.map fun v => v.task.delivery

structure Inv (d : Dispatches) (honest : Prop) (s : Stream) (G : Multiset (Option View)) :
    Prop where
  log : LogOk d s.log
  sealed : honest → Sealed s.log
  stored : StoredOk honest s.log s.trace
  opened : honest → OpenedOk s.log s.trace
  delivered : ∀ r ∈ s.log, r.delivered ≤ s.deliveries r.streamSeq
  observed : ∀ o ∈ s.trace, o.task = d.task o.task.streamSeq o.task.delivered ∧
    o.task.delivered ≤ s.deliveries o.task.streamSeq
  views : ∀ v, some v ∈ G → v.Of d s
  nodup : (G.filterMap deliveryOf).Nodup

namespace Inv

variable {d : Dispatches} {honest : Prop} {s : Stream} {G : Multiset (Option View)} {v : View}
  {r : Record} {o : Observation}

lemma drop {g : Option View} (h : Inv d honest s (g ::ₘ G)) : Inv d honest s G :=
  { h with
    views := fun v hv => h.views v (Multiset.mem_cons_of_mem hv)
    nodup := Multiset.nodup_of_le
      (Multiset.filterMap_le_filterMap deliveryOf (Multiset.le_cons_self G g)) h.nodup }

lemma start (h : Inv d honest s G) : Inv d honest s (none ::ₘ G) :=
  { h with
    views := fun v hv => h.views v ((Multiset.mem_cons.mp hv).resolve_left (by simp))
    nodup := by
      rw [Multiset.filterMap_cons_none _ _ rfl]
      exact h.nodup }

/-- A delivery is taken: nobody else has it, and nothing is known of it yet. -/
lemma receive (h : Inv d honest s (none ::ₘ G)) {n : ℕ} (hn : 0 < n) :
    Inv d honest { s with deliveries := Function.update s.deliveries n (s.deliveries n + 1) }
      (some ⟨d.task n (s.deliveries n + 1), [], []⟩ ::ₘ G) := by
  have hle : ∀ m, s.deliveries m ≤ Function.update s.deliveries n (s.deliveries n + 1) m := by
    intro m
    by_cases hm : m = n
    · subst hm
      rw [Function.update_self]
      exact Nat.le_succ _
    · rw [Function.update_of_ne hm]
  have hrest := h.drop
  refine
    { hrest with
      delivered := fun r hr => (hrest.delivered r hr).trans (hle _)
      observed := fun o ho => ⟨(hrest.observed o ho).1, (hrest.observed o ho).2.trans (hle _)⟩
      views := ?_
      nodup := ?_ }
  · intro v hv
    rcases Multiset.mem_cons.mp hv with hnew | hold
    · cases hnew
      refine ⟨rfl, Nat.pos_iff_ne_zero.mp hn, ?_, ?_, ?_⟩
      · exact (Function.update_self n (s.deliveries n + 1) s.deliveries).ge
      · symm
        rw [List.filter_eq_nil_iff]
        intro r hr hdelivery
        rw [decide_eq_true_eq] at hdelivery
        obtain ⟨hstream, hdeliv⟩ := Prod.mk.inj hdelivery
        have hbound := hrest.delivered r hr
        rw [hstream, hdeliv] at hbound
        exact Nat.not_succ_le_self _ hbound
      · symm
        rw [List.filter_eq_nil_iff]
        intro o ho htask
        rw [decide_eq_true_eq] at htask
        have hbound := (hrest.observed o ho).2
        rw [htask] at hbound
        exact Nat.not_succ_le_self _ hbound
    · have hof := hrest.views v hold
      exact { hof with delivered := hof.delivered.trans (hle _) }
  · rw [Multiset.filterMap_cons_some deliveryOf _ G rfl, Multiset.nodup_cons]
    refine ⟨fun hmem => ?_, hrest.nodup⟩
    obtain ⟨g, hg, hdelivery⟩ := (Multiset.mem_filterMap deliveryOf _).mp hmem
    cases g with
    | none => cases hdelivery
    | some w =>
      obtain ⟨hstream, hdeliv⟩ := Prod.mk.inj (Option.some.inj hdelivery)
      have hbound := (hrest.views w hg).delivered
      rw [hstream, hdeliv] at hbound
      exact Nat.not_succ_le_self _ hbound

variable (h : Inv d honest s (some v ::ₘ G))
include h

lemma view : v.Of d s :=
  h.views v (Multiset.mem_cons_self _ _)

lemma delivery_ne {w : View} (hw : some w ∈ G) :
    v.task.delivery ≠ w.task.delivery := by
  intro heq
  have hnodup := h.nodup
  rw [Multiset.filterMap_cons_some deliveryOf (some v) G rfl, Multiset.nodup_cons] at hnodup
  exact hnodup.1 ((Multiset.mem_filterMap deliveryOf _).mpr ⟨some w, hw, congrArg some heq.symm⟩)

lemma push (hfollows : Follows d s.log r)
    (hr : r.delivery = v.task.delivery)
    (hsealed : honest → ∀ x ∈ s.log, x.type = .commit → x.execution ≠ r.execution)
    (hquiet : v.own = [] → ∀ n result, .opened v.task n result ∉ v.seen) :
    Inv d honest { s with log := r :: s.log } (some (v.push r) ::ₘ G) where
  log := .cons h.log hfollows
  sealed hhonest := List.pairwise_cons.mpr ⟨hsealed hhonest, h.sealed hhonest⟩
  stored := h.stored.push r
  opened hhonest := by
    apply (h.opened hhonest).push hfollows
    intro task n result hmem hdelivery
    have htask : task = v.task := task_eq_of_delivery (h.observed _ hmem).1 h.view.task
      (hdelivery.trans hr)
    subst htask
    -- The writer has records of its own, as it is no longer at its claim.
    by_cases hown : v.own = []
    · exact absurd (h.view.mem_seen.mpr ⟨hmem, rfl⟩) (hquiet hown n result)
    · obtain ⟨x, hx⟩ := List.exists_mem_of_ne_nil _ hown
      exact ⟨x, h.view.mem_own.mp hx⟩
  delivered := by
    intro x hx
    rcases List.mem_cons.mp hx with rfl | hx
    · obtain ⟨hstream, hdeliv⟩ := Prod.mk.inj hr
      rw [hstream, hdeliv]
      exact h.view.delivered
    · exact h.delivered x hx
  observed := h.observed
  views := by
    intro w hw
    rcases Multiset.mem_cons.mp hw with hnew | hold
    · cases hnew
      exact h.view.push hr
    · apply (h.drop.views w hold).push_other
      rw [hr]
      exact h.delivery_ne hold
  nodup := by
    have hnodup := h.nodup
    rw [Multiset.filterMap_cons_some deliveryOf (some v) G rfl] at hnodup
    rw [Multiset.filterMap_cons_some deliveryOf (some (v.push r)) G rfl]
    exact hnodup

lemma note (ho : o.task = v.task)
    (hstored : StoredOk honest s.log (o :: s.trace))
    (hopened : honest → OpenedOk s.log (o :: s.trace)) :
    Inv d honest { s with trace := o :: s.trace } (some (v.note o) ::ₘ G) where
  log := h.log
  sealed := h.sealed
  stored := hstored
  opened := hopened
  delivered := h.delivered
  observed := by
    intro x hx
    rcases List.mem_cons.mp hx with rfl | hx
    · rw [ho]
      exact ⟨h.view.task, h.view.delivered⟩
    · exact h.observed x hx
  views := by
    intro w hw
    rcases Multiset.mem_cons.mp hw with hnew | hold
    · cases hnew
      exact h.view.note ho
    · apply (h.drop.views w hold).note_other
      rw [ho]
      intro heq
      exact h.delivery_ne hold (congrArg Task.delivery heq)
  nodup := by
    have hnodup := h.nodup
    rw [Multiset.filterMap_cons_some deliveryOf (some v) G rfl] at hnodup
    rw [Multiset.filterMap_cons_some deliveryOf (some (v.note o)) G rfl]
    exact hnodup

end Inv

def Stream.Grows (s t : Stream) : Prop := s.log <:+ t.log ∧ s.trace <:+ t.trace

lemma Stream.Grows.refl (s : Stream) : s.Grows s := ⟨List.suffix_rfl, List.suffix_rfl⟩

lemma Stream.Grows.trans {s t u : Stream} (hst : s.Grows t) (htu : t.Grows u) : s.Grows u :=
  ⟨hst.1.trans htu.1, hst.2.trans htu.2⟩

def concert (d : Dispatches) (honest : Prop) : Concert (system d) where
  Ghost := Option View
  inv := Inv d honest
  rely := Stream.Grows
  ok s op := honest → Honest s op
  good _ _ := True
  rely_refl := Stream.Grows.refl
  rely_trans := Stream.Grows.trans

end Dagnats.AgentJournal
