import Dagnats.Interaction.Concert
import Dagnats.Engine.RunIndex

/-!
# The phases of the programs over the run store

A run that the reconciler owns and that is in the index has its marker. Whoever
ends a run deletes the marker because nobody else turns the run back into an
owned one before. So each program has a phase: it has ended a run and has yet to
give back its slot (`closing`), or has settled its release debt and has yet to
delete the marker (`clearing`). This module says what one call does to the store
and to the phases, under the conditions `Careful`.
-/

namespace Dagnats.RunIndex

open Interaction

variable {op : Call} {run : WorkflowRun} {s t : RunStore}

/-- The run has ended, and nothing of it is left to release. -/
def finished (run : WorkflowRun) : Bool :=
  run.status.isTerminal && run.completedAt.isSome && !run.releasePending

lemma finished_iff : finished run = true ↔ run.status.isTerminal = true ∧ run.completedAt.isSome =
    true ∧ run.releasePending = false := by
  simp [finished, and_assoc]

lemma isReconcilerOwned_iff : isReconcilerOwned run = true ↔
    (run.status.isTerminal = true → run.releasePending = true) := by
  cases hterm : run.status.isTerminal <;> simp [isReconcilerOwned, hterm]

lemma not_owned_of_finished (h : finished run = true) : isReconcilerOwned run = false := by
  obtain ⟨hterm, -, hpend⟩ := finished_iff.mp h
  simp [isReconcilerOwned, hterm, hpend]

namespace RunStore

lemma owned_of_value {id : String} (h : s.value id = some run) :
    s.owned id = isReconcilerOwned run := by
  rw [owned, h]
  rfl

def finished (s : RunStore) (id : String) : Bool :=
  (s.value id).any RunIndex.finished

lemma finished_of_value {id : String} (h : s.value id = some run) :
    s.finished id = RunIndex.finished run := by
  rw [finished, h]
  rfl

@[simp] lemma finished_write_self :
    (s.write run).finished run.runID = RunIndex.finished run := by
  simp [finished, RunIndex.finished]

lemma finished_write_of_ne {id : String} (h : id ≠ run.runID) :
    (s.write run).finished id = s.finished id := by
  rw [finished, value_write_of_ne s h, finished]

lemma not_owned_of_finished {id : String} (h : s.finished id = true) : s.owned id = false := by
  rw [finished] at h
  rw [owned]
  cases hrun : s.value id with
  | none => rfl
  | some run =>
    rw [hrun] at h
    exact RunIndex.not_owned_of_finished h

/-- What holds of every store: revisions count the writes, a run is stored under its
name, only an ended run owes a release, and every owned run in the index has its marker.
-/
structure Intact (s : RunStore) : Prop where
  numbered : s.runs.Numbered
  named : ∀ {id run}, s.value id = some run → run.runID = id
  settled : ∀ {id run}, s.value id = some run → run.releasePending = true →
    run.status.isTerminal = true ∧ run.completedAt.isSome = true
  marked : ∀ {id}, s.owned id = true → id ∈ s.index → id ∈ s.active

lemma intact_empty : empty.Intact where
  numbered _ _ _ h := nomatch h
  named h := nomatch h
  settled h := nomatch h
  marked h := nomatch h

def Safe (s : RunStore) (id : String) : Prop :=
  (s.value id).isSome = true ∧ (s.owned id = true → id ∈ s.active)

/-- What the others may do to the store between two calls of a program. -/
structure Rely (s t : RunStore) : Prop where
  later : s.runs.Later t.runs
  stored : ∀ {id}, (s.value id).isSome = true → (t.value id).isSome = true
  safe : ∀ {id}, s.Safe id → t.Safe id

lemma Rely.refl (s : RunStore) : s.Rely s :=
  ⟨Bucket.Later.refl _, fun h => h, fun h => h⟩

lemma Rely.trans {u : RunStore} (hst : s.Rely t) (htu : t.Rely u) : s.Rely u :=
  ⟨hst.later.trans htu.later, fun h => htu.stored (hst.stored h), fun h => htu.safe (hst.safe h)⟩

/-- The write neither breaks off a release nor makes an unmarked run an owned one,
unless the run is new and not in the index. -/
structure Fair (s : RunStore) (run : WorkflowRun) : Prop where
  settled : run.releasePending = true → run.status.isTerminal = true ∧ run.completedAt.isSome = true
  marked : isReconcilerOwned run = true →
    (s.value run.runID = none ∧ run.runID ∉ s.index) ∨ s.owned run.runID = true ∨
      run.runID ∈ s.active

lemma Fair.of_finished (h : RunIndex.finished run = true) : s.Fair run where
  settled _ := ⟨(finished_iff.mp h).1, (finished_iff.mp h).2.1⟩
  marked howned := by
    rw [RunIndex.not_owned_of_finished h] at howned
    exact absurd howned Bool.false_ne_true

variable {id : String}

lemma Intact.write (h : s.Intact) (hfair : s.Fair run) : (s.write run).Intact where
  numbered := h.numbered.write _ _
  named := by
    intro id old hold
    by_cases hid : id = run.runID
    · subst hid
      rw [value_write_self] at hold
      cases hold
      rfl
    · rw [value_write_of_ne s hid] at hold
      exact h.named hold
  settled := by
    intro id old hold hpend
    by_cases hid : id = run.runID
    · subst hid
      rw [value_write_self] at hold
      cases hold
      exact hfair.settled hpend
    · rw [value_write_of_ne s hid] at hold
      exact h.settled hold hpend
  marked := by
    intro id howned hindex
    by_cases hid : id = run.runID
    · subst hid
      rw [owned_write_self] at howned
      rcases hfair.marked howned with ⟨-, hnot⟩ | hold | hactive
      · exact absurd hindex hnot
      · exact h.marked hold hindex
      · exact hactive
    · rw [owned_write_of_ne s hid] at howned
      exact h.marked howned hindex

lemma Fair.rely (hfair : s.Fair run) : s.Rely (s.write run) where
  later := Bucket.later_write _ _ _
  stored := by
    intro id hstored
    by_cases hid : id = run.runID
    · subst hid
      rw [value_write_self]
      rfl
    · rwa [value_write_of_ne s hid]
  safe := by
    intro id hsafe
    by_cases hid : id = run.runID
    · subst hid
      refine ⟨by rw [value_write_self]; rfl, fun howned => ?_⟩
      rw [owned_write_self] at howned
      rcases hfair.marked howned with ⟨hnone, -⟩ | hold | hactive
      · rw [Safe, hnone] at hsafe
        exact absurd hsafe.1 Bool.false_ne_true
      · exact hsafe.2 hold
      · exact hactive
    · rw [Safe, value_write_of_ne s hid, owned_write_of_ne s hid]
      exact hsafe

/-- The same runs, and only markers of runs that are not owned are gone. -/
structure Rekeyed (s t : RunStore) : Prop where
  runs : t.runs = s.runs
  index : ∀ {id}, id ∈ t.index → id ∈ s.index ∨ (s.owned id = true → id ∈ t.active)
  active : ∀ {id}, id ∈ s.active → id ∈ t.active ∨ s.owned id = false

lemma Rekeyed.value (h : s.Rekeyed t) (id : String) : t.value id = s.value id := by
  rw [RunStore.value, h.runs, RunStore.value]

lemma Rekeyed.owned (h : s.Rekeyed t) (id : String) : t.owned id = s.owned id := by
  rw [RunStore.owned, h.value, RunStore.owned]

lemma Rekeyed.kept (h : s.Rekeyed t) (howned : s.owned id = true) (hid : id ∈ s.active) :
    id ∈ t.active := by
  rcases h.active hid with hactive | hnot
  · exact hactive
  · rw [howned] at hnot
    exact absurd hnot.symm Bool.false_ne_true

lemma Intact.rekeyed (h : s.Intact) (hst : s.Rekeyed t) : t.Intact where
  numbered := hst.runs ▸ h.numbered
  named hrun := h.named ((hst.value _).symm.trans hrun)
  settled hrun := h.settled ((hst.value _).symm.trans hrun)
  marked := by
    intro id howned hindex
    rw [hst.owned] at howned
    rcases hst.index hindex with hold | hmarked
    · exact hst.kept howned (h.marked howned hold)
    · exact hmarked howned

lemma Rekeyed.rely (h : s.Rekeyed t) : s.Rely t where
  later := h.runs ▸ Bucket.Later.refl _
  stored hid := by rwa [h.value]
  safe := by
    intro id hsafe
    refine ⟨by rw [h.value]; exact hsafe.1, fun howned => ?_⟩
    rw [h.owned] at howned
    exact h.kept howned (hsafe.2 howned)

end RunStore

/-! ## Phases -/

/-- What a program has begun and not ended. -/
inductive Phase where
  | idle
  | closing (id : String)
  | clearing (id : String)
  deriving DecidableEq

/-- A run that is being closed or cleared stays finished, and nobody else is at it
while it is being closed. -/
structure Phased (s : RunStore) (G : Multiset Phase) : Prop where
  closing : ∀ {id}, .closing id ∈ G →
    s.finished id = true ∧ G.count (.closing id) = 1 ∧ .clearing id ∉ G
  clearing : ∀ {id}, .clearing id ∈ G → s.finished id = true

namespace Phased

variable {G : Multiset Phase} {g : Phase} {id : String}

lemma mono (h : Phased s G)
    (hst : ∀ id, .closing id ∈ G ∨ .clearing id ∈ G → s.finished id = true →
      t.finished id = true) : Phased t G where
  closing hid := ⟨hst _ (.inl hid) (h.closing hid).1, (h.closing hid).2⟩
  clearing hid := hst _ (.inr hid) (h.clearing hid)

lemma drop (h : Phased s (g ::ₘ G)) : Phased s G where
  closing := by
    intro id hid
    obtain ⟨hfin, hcount, hclearing⟩ := h.closing (Multiset.mem_cons_of_mem hid)
    refine ⟨hfin, le_antisymm ?_ (Multiset.one_le_count_iff_mem.mpr hid),
      fun hmem => hclearing (Multiset.mem_cons_of_mem hmem)⟩
    calc G.count (.closing id) ≤ (g ::ₘ G).count (.closing id) := Multiset.count_le_count_cons _ _ _
      _ = 1 := hcount
  clearing hid := h.clearing (Multiset.mem_cons_of_mem hid)

lemma finished_of_mem (h : Phased s G) (hid : .closing id ∈ G ∨ .clearing id ∈ G) :
    s.finished id = true := by
  rcases hid with hid | hid
  · exact (h.closing hid).1
  · exact h.clearing hid

lemma free (h : Phased s G) (hid : s.finished id = false) :
    ¬(.closing id ∈ G ∨ .clearing id ∈ G) := by
  intro hmem
  rw [h.finished_of_mem hmem] at hid
  exact Bool.false_ne_true hid.symm

lemma alone (h : Phased s (.closing id ::ₘ G)) :
    s.finished id = true ∧ ¬(.closing id ∈ G ∨ .clearing id ∈ G) := by
  obtain ⟨hfin, hcount, hclearing⟩ := h.closing (Multiset.mem_cons_self _ G)
  refine ⟨hfin, ?_⟩
  rintro (hmem | hmem)
  · rw [Multiset.count_cons_self] at hcount
    have hpos := Multiset.one_le_count_iff_mem.mpr hmem
    omega
  · exact hclearing (Multiset.mem_cons_of_mem hmem)

section

variable (h : Phased s G)
include h

lemma idle : Phased s (.idle ::ₘ G) where
  closing := by
    intro id hid
    have hmem : .closing id ∈ G := by simpa using hid
    obtain ⟨hfin, hcount, hclearing⟩ := h.closing hmem
    exact ⟨hfin, by simpa using hcount, by simpa using hclearing⟩
  clearing := by
    intro id hid
    exact h.clearing (by simpa using hid)

section

variable (hfin : s.finished id = true) (hfree : ¬(.closing id ∈ G ∨ .clearing id ∈ G))
include hfin hfree

lemma close :
    Phased s (.closing id ::ₘ G) where
  closing := by
    intro id' hid'
    by_cases heq : id' = id
    · subst heq
      refine ⟨hfin, ?_, by simpa using fun hmem => hfree (.inr hmem)⟩
      rw [Multiset.count_cons_self, Multiset.count_eq_zero.mpr fun hmem => hfree (.inl hmem)]
    · have hmem : .closing id' ∈ G := by simpa [heq] using hid'
      obtain ⟨hfin', hcount, hclearing⟩ := h.closing hmem
      refine ⟨hfin', ?_, by simpa using hclearing⟩
      rw [Multiset.count_cons_of_ne (by simpa using heq)]
      exact hcount
  clearing := by
    intro id' hid'
    exact h.clearing (by simpa using hid')

lemma clear :
    Phased s (.clearing id ::ₘ G) where
  closing := by
    intro id' hid'
    have hmem : .closing id' ∈ G := by simpa using hid'
    obtain ⟨hfin', hcount, hclearing⟩ := h.closing hmem
    have hne : id' ≠ id := by
      rintro rfl
      exact hfree (.inl hmem)
    refine ⟨hfin', ?_, by simpa [hne] using hclearing⟩
    rw [Multiset.count_cons_of_ne (by simp)]
    exact hcount
  clearing := by
    intro id' hid'
    rcases Multiset.mem_cons.mp hid' with heq | hmem
    · cases heq
      exact hfin
    · exact h.clearing hmem

end

lemma write (hrun : .closing run.runID ∈ G ∨ .clearing run.runID ∈ G → finished run = true) :
    Phased (s.write run) G := by
  refine h.mono fun id hid hfin => ?_
  by_cases heq : id = run.runID
  · subst heq
    rw [RunStore.finished_write_self]
    exact hrun hid
  · rwa [RunStore.finished_write_of_ne heq]

lemma rekeyed (hst : s.Rekeyed t) : Phased t G := by
  refine h.mono fun id _ hfin => ?_
  rwa [RunStore.finished, hst.value]

end

end Phased

/-! ## Conditions -/

/-- The writes that the others count on: a run is written blindly only where nothing is
stored and the index is silent; nobody revives an ended run; a release debt is recorded
while the marker is there; a pass indexes an owned run only behind its marker, and
deletes a marker only for the run that is stored. -/
def Careful (s : RunStore) : Call → Prop
  | .put _ run => s.value run.runID = none ∧ run.runID ∉ s.index
  | .create run => s.value run.runID = none → run.runID ∉ s.index
  | .update .advance run _ =>
    (s.value run.runID).any (·.status.isTerminal) = true → run.status.isTerminal = true
  | .update .debt run _ => run.runID ∈ s.active
  | .createIndex id .repair => s.owned id = true → id ∈ s.active
  | .deleteActive id (.stale seen) => s.value id = seen
  | _ => True

def Spares (s : RunStore) (op : Call) : Prop :=
  ∀ id seen, op = .deleteActive id (.stale seen) → s.owned id = false

def Call.deletesMarker : Call → Bool
  | .deleteActive .. => true
  | _ => false

lemma Spares.of_not_deletes (h : op.deletesMarker = false) : Spares s op := by
  rintro id seen rfl
  cases h

def careful : Conditions system :=
  ⟨Careful, fun _ _ => True, fun _ _ => True⟩

/-- The programs over the store, with their phases. -/
abbrev concert : Concert system where
  Ghost := Phase
  inv s G := s.Intact ∧ Phased s G
  rely := RunStore.Rely
  ok := Careful
  good := Spares
  rely_refl := RunStore.Rely.refl
  rely_trans := RunStore.Rely.trans

/-! ## Calls -/

/-- The calls that leave the keys of the runs alone. -/
def Call.reads : Call → Bool
  | .load _ | .keys | .listActive | .get _ | .getMeta | .putMeta | .now | .release _ => true
  | _ => false

lemma RunStore.rekeyed_of_reads {c : RunStore.Choice} {a : Answer op} (hop : op.reads = true)
    (h : s.exec op c = some (a, t)) : s.Rekeyed t := by
  have hsame : t.runs = s.runs ∧ t.index = s.index ∧ t.active = s.active := by
    cases op with
    | load id | getMeta | release id =>
      obtain ⟨rfl, -⟩ := reply_cases h
      exact ⟨rfl, rfl, rfl⟩
    | keys | listActive =>
      cases c with
      | listed l l' =>
        simp only [RunStore.exec] at h
        split at h
        · cases h; exact ⟨rfl, rfl, rfl⟩
        · cases h
      | fail => cases h; exact ⟨rfl, rfl, rfl⟩
      | done | lost => cases h
    | get id | putMeta => cases c <;> cases h <;> exact ⟨rfl, rfl, rfl⟩
    | now => cases c <;> cases h; exact ⟨rfl, rfl, rfl⟩
    | _ => cases hop
  obtain ⟨hruns, hindex, hactive⟩ := hsame
  exact ⟨hruns, fun hid => .inl (hindex ▸ hid), fun hid => .inl (hactive ▸ hid)⟩

/-- The program ends in phase `g`, and `K` holds where it succeeds. -/
def Keeps {α : Type} (g : Phase) (K : α → RunStore → Prop) :
    Except Err α → Phase → RunStore → Prop :=
  fun r g' t => g' = g ∧ ∀ a, r = .ok a → K a t

/-- Where the program succeeds, it ends in phase `g`, and `K` holds. -/
def Then {α : Type} (g : Phase) (K : α → RunStore → Prop) :
    Except Err α → Phase → RunStore → Prop :=
  fun r g' t => ∀ a, r = .ok a → g' = g ∧ K a t

section Rules

variable {α β : Type} {g g' : Phase} {K : α → RunStore → Prop}
  {R : Except Err β → Phase → RunStore → Prop}

lemma polite_pure {a : α} {Q : Except Err α → Phase → RunStore → Prop}
    (h : ∀ t, s.Rely t → Q (.ok a) g t) : Polite concert Q (Prog.pure a) g s :=
  h

lemma polite_ite {c : Prop} [Decidable c] {p q : M α}
    {Q : Except Err α → Phase → RunStore → Prop} (hp : c → Polite concert Q p g s)
    (hq : ¬c → Polite concert Q q g s) : Polite concert Q (if c then p else q) g s := by
  split
  · next hc => exact hp hc
  · next hc => exact hq hc

lemma Then.of_keeps {p : M α} (h : Polite concert (Keeps g' K) p g s) :
    Polite concert (Then g' K) p g s :=
  h.conseq fun _ _ _ hQ a ha => ⟨hQ.1, hQ.2 a ha⟩

/-- Go on after a program; what the others did meanwhile is what they may do. -/
lemma Then.bind {p : M α} {f : α → M β} (h : Polite concert (Then g' K) p g s)
    (hf : ∀ a t, s.Rely t → K a t → Polite concert R (f a) g' t)
    (herr : ∀ e g t, R (.error e) g t) : Polite concert R (p.bind f) g s := by
  refine (h.since (RunStore.Rely.refl s)).bind ?_ fun e g t _ => herr e g t
  intro a g'' t ⟨hQ, hst⟩
  obtain ⟨rfl, hK⟩ := hQ a rfl
  exact hf a t hst hK

section

variable {p : M α} (h : Polite concert (Keeps g K) p g s)
include h

lemma Keeps.bind {K' : β → RunStore → Prop} {f : α → M β}
    (hf : ∀ a t, s.Rely t → K a t → Polite concert (Keeps g K') (f a) g t) :
    Polite concert (Keeps g K') (p.bind f) g s := by
  refine (h.since (RunStore.Rely.refl s)).bind ?_ ?_
  · intro a g'' t ⟨⟨hg, hK⟩, hst⟩
    cases hg
    exact hf a t hst (hK a rfl)
  · rintro e g'' t ⟨⟨hg, -⟩, -⟩
    exact ⟨hg, fun a ha => nomatch ha⟩

lemma Keeps.outcome :
    Polite concert (Keeps g fun r t => ∀ a, r = .ok a → K a t) (outcome p) g s := by
  refine h.attempt ?_ ?_
  · intro a g' t ⟨hg, hK⟩
    refine ⟨hg, fun r hr b hb => ?_⟩
    cases hr
    exact hK b hb
  · rintro e g' t ⟨hg, -⟩
    refine ⟨⟨hg, fun r hr b hb => ?_⟩, hg, fun r hr => nomatch hr⟩
    cases hr
    cases hb

lemma Keeps.ignoring : Polite concert (Keeps g fun _ _ => True) (ignoring p) g s :=
  Keeps.bind (Keeps.outcome h) fun _ _ _ _ => polite_pure fun _ _ => ⟨rfl, fun _ _ => trivial⟩

end

/-- The program keeps its phase to the end. -/
abbrev Sits (p : M α) (g : Phase) (s : RunStore) : Prop :=
  Polite concert (Keeps g fun _ _ => True) p g s

abbrev Plays (p : M α) (g : Phase) (s : RunStore) : Prop :=
  Polite concert (fun _ _ _ => True) p g s

lemma sits_pure {a : α} : Sits (Prog.pure a) g s :=
  fun _ _ => ⟨rfl, fun _ _ => trivial⟩

lemma sits_throw {e : Err} : Sits (throw e : M α) g s :=
  fun _ _ => ⟨rfl, fun _ _ => trivial⟩

variable {p : M α} {f : α → M β}

lemma Sits.bind (h : Polite concert (Keeps g K) p g s)
    (hf : ∀ a t, K a t → Sits (f a) g t) : Sits (p.bind f) g s :=
  Keeps.bind h fun a t _ => hf a t

lemma Sits.fold {as : List α} {b : β} {f : β → α → M β} (h : ∀ b a t, Sits (f b a) g t) :
    Sits (Prog.fold f as b) g s := by
  apply Polite.fold
  · exact fun _ _ => ⟨rfl, fun _ _ => trivial⟩
  · rintro a - b g' t ⟨rfl, -⟩
    exact h b a t

lemma Sits.plays {p : M α} (h : Sits p g s) : Plays p g s :=
  h.conseq fun _ _ _ _ => trivial

lemma Plays.bind (h : Polite concert (Then g' K) p g s)
    (hf : ∀ a t, s.Rely t → K a t → Plays (f a) g' t) : Plays (p.bind f) g s :=
  Then.bind h hf fun _ _ _ => trivial

lemma Plays.after (h : Polite concert (Keeps g K) p g s)
    (hf : ∀ a t, s.Rely t → K a t → Plays (f a) g t) : Plays (p.bind f) g s :=
  Plays.bind (Then.of_keeps h) hf

lemma polite_request {Q : Except Err (Value op) → Phase → RunStore → Prop}
    (h : ∀ t G, s.Rely t → t.Intact → Phased t (g ::ₘ G) → Careful t op →
      Spares t op ∧ ∀ c a u, t.exec op c = some (a, u) →
        t.Rely u ∧ ∃ g', u.Intact ∧ Phased u (g' ::ₘ G) ∧ ∀ v, u.Rely v → Q a g' v) :
    Polite concert Q (request op) g s := by
  intro t G hst hinv hok
  obtain ⟨hspares, hexec⟩ := h t G hst hinv.1 hinv.2 hok
  refine ⟨hspares, fun c a u hu => ?_⟩
  obtain ⟨htu, g', hintact, hphased, hQ⟩ := hexec c a u hu
  refine ⟨htu, g', ⟨hintact, hphased⟩, ?_⟩
  cases a with
  | ok v | error e => exact hQ

lemma polite_rekey {K : Value op → RunStore → Prop}
    (h : ∀ t G, s.Rely t → t.Intact → Phased t (g ::ₘ G) → Careful t op → Spares t op ∧
      ∀ c a u, t.exec op c = some (a, u) → t.Rekeyed u ∧ ∀ v w, a = .ok v → u.Rely w → K v w) :
    Polite concert (Keeps g K) (request op) g s := by
  refine polite_request fun t G hst hintact hphased hcareful => ?_
  obtain ⟨hspares, hexec⟩ := h t G hst hintact hphased hcareful
  refine ⟨hspares, fun c a u hu => ?_⟩
  obtain ⟨hrekeyed, hK⟩ := hexec c a u hu
  exact ⟨hrekeyed.rely, g, hintact.rekeyed hrekeyed, hphased.rekeyed hrekeyed,
    fun w huw => ⟨rfl, fun v hv => hK v w hv huw⟩⟩

lemma polite_read {K : Value op → RunStore → Prop} (hop : op.reads = true)
    (hK : ∀ t c v u, s.Rely t → t.Intact → t.exec op c = some (.ok v, u) → ∀ w, u.Rely w → K v w) :
    Polite concert (Keeps g K) (request op) g s := by
  refine polite_rekey fun t G hst hintact _ _ =>
    ⟨?_, fun c a u hu => ⟨RunStore.rekeyed_of_reads hop hu, ?_⟩⟩
  · rintro id seen rfl
    cases hop
  · rintro v w rfl huw
    exact hK t c v u hst hintact hu w huw

lemma polite_ask (hop : op.reads = true) :
    Polite concert (Keeps g fun _ _ => True) (request op) g s :=
  polite_read hop fun _ _ _ _ _ _ _ _ _ => trivial

end Rules

/-! ## Writes -/

/-- Two versions of a run of which the same is owned. -/
structure Agrees (stored run : WorkflowRun) : Prop where
  status : stored.status = run.status
  completedAt : stored.completedAt = run.completedAt
  releasePending : stored.releasePending = run.releasePending

def Copy (run : WorkflowRun) (s : RunStore) : Prop :=
  ∃ rev, run.revision = some rev ∧ rev ≤ s.runs.last ∧
    ∀ v, s.runs.entries run.runID = some (rev, v) → Agrees v run

lemma Copy.mono (h : Copy run s) (hst : s.Rely t) : Copy run t := by
  obtain ⟨rev, hrev, hle, hvalue⟩ := h
  refine ⟨rev, hrev, hle.trans hst.later.1, fun v hv => hvalue v ?_⟩
  exact hst.later.2 _ rev v hv hle

lemma copy_write :
    Copy { run with revision := some (s.runs.last + 1) } (s.write run) := by
  refine ⟨s.runs.last + 1, rfl, le_rfl, fun v hv => ?_⟩
  have hself := Bucket.write_self s.runs run.runID { run with revision := none }
  obtain ⟨-, rfl⟩ := Prod.mk.inj (Option.some.inj (hself.symm.trans hv))
  exact ⟨rfl, rfl, rfl⟩

lemma Copy.advance {old new : ℕ} (hrev : run.revision = some old)
    (h : Copy { run with revision := some new } s) : Copy (advanceRevision run new) s := by
  rw [advanceRevision, hrev]
  exact h

section Writes

variable {g g' : Phase} {id : String}

lemma polite_load :
    Polite concert (Keeps g fun run t => Copy run t ∧ run.runID = id) (load id) g s := by
  refine polite_read rfl fun t c v u hst hintact hexec w huw => ?_
  obtain ⟨rfl, hv⟩ := RunStore.reply_cases hexec
  cases hentry : u.runs.entries id with
  | none =>
    rw [hentry] at hv
    rcases hv with hv | hv <;> cases hv
  | some x =>
    obtain ⟨rev, stored⟩ := x
    rw [hentry] at hv
    rcases hv with hv | hv
    · have hvalue : u.value id = some stored := by rw [RunStore.value, hentry]; rfl
      have hname := hintact.named hvalue
      cases hv
      refine ⟨Copy.mono ⟨rev, rfl, (hintact.numbered id rev stored hentry).2, ?_⟩ huw, hname⟩
      intro v hv
      rw [hname, hentry] at hv
      cases hv
      exact ⟨rfl, rfl, rfl⟩
    · cases hv

/-- After a compare-and-set that succeeds the program is in phase `g'`; a conflict
leaves it where it was. -/
def Saved (new : WorkflowRun) (g g' : Phase) : Except Err WorkflowRun → Phase → RunStore → Prop :=
  fun r h t =>
    (∀ saved, r = .ok saved →
      h = g' ∧ Copy saved t ∧ ∃ rev, saved = { new with revision := some rev }) ∧
    (r = .error .conflict → h = g)

lemma polite_save {site : WriteSite} {new : WorkflowRun} (hcopy : Copy run s)
    (hid : new.runID = run.runID) (hrev : new.revision = run.revision)
    (hwrite : ∀ t G rev stored, t.Intact → Phased t (g ::ₘ G) →
      Careful t (.update site new rev) → t.value run.runID = some stored →
      Agrees stored run → t.Fair new ∧ Phased (t.write new) (g' ::ₘ G)) :
    Polite concert (Saved new g g') (save site new) g s := by
  obtain ⟨rev, hrun, -⟩ := id hcopy
  have hsave : save site new = (request (.update site new rev)).bind fun rev' =>
      .pure { new with revision := some rev' } := by
    rw [save, hrev, hrun]
    rfl
  rw [hsave]
  have hcall : Polite concert (fun r h t =>
      (∀ rev', r = .ok rev' → h = g' ∧ Copy { new with revision := some rev' } t) ∧
        (r = .error .conflict → h = g)) (request (.update site new rev)) g s := by
    refine polite_request fun t G hst hintact hphased hcareful => ⟨.of_not_deletes rfl, ?_⟩
    intro c a u hu
    rcases RunStore.compareAndSet_cases hu with ⟨⟨stored, hentry⟩, rfl, ha⟩ | ⟨rfl, ha⟩
    · rw [hid] at hentry
      have hvalue : t.value run.runID = some stored := by rw [RunStore.value, hentry]; rfl
      obtain ⟨rev', hrun', -, hagrees⟩ := hcopy.mono hst
      cases Option.some.inj (hrun.symm.trans hrun')
      obtain ⟨hfair, hphased'⟩ :=
        hwrite t G rev stored hintact hphased hcareful hvalue (hagrees stored hentry)
      refine ⟨hfair.rely, g', hintact.write hfair, hphased', fun v hv => ⟨?_, ?_⟩⟩
      · rintro rev' rfl
        rcases ha with ha | ha
        · cases ha
          exact ⟨rfl, copy_write.mono hv⟩
        · cases ha
      · rintro rfl
        rcases ha with ha | ha <;> cases ha
    · refine ⟨.refl _, g, hintact, hphased, fun v hv => ⟨?_, fun _ => rfl⟩⟩
      rintro rev' rfl
      rcases ha with ha | ha <;> cases ha
  refine hcall.stable.bind ?_ ?_
  · intro rev' h t hK
    refine polite_pure fun u htu => ⟨?_, by simp⟩
    rintro saved hsaved
    cases hsaved
    obtain ⟨rfl, hcopy'⟩ := (hK u htu).1 rev' rfl
    exact ⟨rfl, hcopy', rev', rfl⟩
  · intro e h t hK
    refine ⟨by simp, fun he => ?_⟩
    cases he
    exact (hK t (.refl t)).2 rfl

lemma polite_createActive :
    Polite concert (Keeps g fun _ t => (s.value id).isSome = true → t.Safe id)
      (request (.createActive id)) g s := by
  refine polite_rekey fun t G hst _ _ _ => ⟨.of_not_deletes rfl, fun c a u hu => ?_⟩
  -- The marker is there afterwards, or the call failed.
  have hmarked : t.Rekeyed u ∧ (∀ v, a = .ok v → id ∈ u.active) := by
    rcases RunStore.addActive_cases hu with ⟨rfl, hmem | rfl⟩ | rfl
    · exact ⟨⟨rfl, .inl, .inl⟩, fun _ _ => hmem⟩
    · exact ⟨⟨rfl, .inl, .inl⟩, fun _ hr => nomatch hr⟩
    · exact ⟨⟨rfl, .inl, fun hid => .inl (Finset.mem_insert_of_mem hid)⟩,
        fun _ _ => Finset.mem_insert_self id t.active⟩
  obtain ⟨hrekeyed, hactive⟩ := hmarked
  refine ⟨hrekeyed, fun b v hb huv hstored => huv.safe ⟨?_, fun _ => hactive b hb⟩⟩
  exact hrekeyed.rely.stored (hst.stored hstored)

lemma polite_createIndex {site : IndexSite} (hsafe : site = .entry → s.Safe id) :
    Polite concert (Keeps g fun _ _ => True) (request (.createIndex id site)) g s := by
  refine polite_rekey fun t G hst _ _ hcareful =>
    ⟨.of_not_deletes rfl, fun c a u hu => ⟨?_, fun _ _ _ _ => trivial⟩⟩
  have hmarked : t.owned id = true → id ∈ t.active := by
    cases site with
    | entry => exact (hst.safe (hsafe rfl)).2
    | repair => exact hcareful
  rcases RunStore.addIndex_cases hu with rfl | rfl
  · exact ⟨rfl, .inl, .inl⟩
  · refine ⟨rfl, fun {id'} hid' => ?_, .inl⟩
    rcases Finset.mem_insert.mp hid' with rfl | hold
    · exact .inr hmarked
    · exact .inl hold

lemma polite_deleteIndex :
    Polite concert (Keeps g fun _ _ => True) (request (.deleteIndex id)) g s := by
  refine polite_rekey fun t G _ _ _ _ =>
    ⟨.of_not_deletes rfl, fun c a u hu => ⟨?_, fun _ _ _ _ => trivial⟩⟩
  rcases RunStore.accept_cases hu with ⟨rfl, -⟩ | ⟨rfl, -⟩
  · exact ⟨rfl, fun hid => .inl (Finset.mem_of_mem_erase hid), .inl⟩
  · exact ⟨rfl, .inl, .inl⟩

lemma polite_deleteActive {site : DeleteSite}
    (hid : ∀ t G, Phased t (g ::ₘ G) → Careful t (.deleteActive id site) → t.owned id = false) :
    Polite concert (Keeps g fun _ _ => True) (request (.deleteActive id site)) g s := by
  refine polite_rekey fun t G _ _ hphased hcareful =>
    ⟨?_, fun c a u hu => ⟨?_, fun _ _ _ _ => trivial⟩⟩
  · rintro id' seen heq
    cases heq
    exact hid t G hphased hcareful
  · rcases RunStore.accept_cases hu with ⟨rfl, -⟩ | ⟨rfl, -⟩
    · refine ⟨rfl, .inl, fun {id'} hid' => ?_⟩
      by_cases heq : id' = id
      · subst heq
        exact .inr (hid t G hphased hcareful)
      · exact .inl (Finset.mem_erase.mpr ⟨heq, hid'⟩)
    · exact ⟨rfl, .inl, .inl⟩

def Entered (run : WorkflowRun) (s : RunStore) : Prop :=
  (s.value run.runID).isSome = true ∧ (isReconcilerOwned run = false → s.Safe run.runID)

lemma Entered.mono (h : Entered run s) (hst : s.Rely t) : Entered run t :=
  ⟨hst.stored h.1, fun hrun => hst.safe (h.2 hrun)⟩

lemma entered_write : Entered run (s.write run) := by
  have hstored : ((s.write run).value run.runID).isSome = true := by
    rw [RunStore.value_write_self]
    rfl
  refine ⟨hstored, fun hrun => ⟨hstored, fun howned => ?_⟩⟩
  rw [RunStore.owned_write_self, hrun] at howned
  exact absurd howned Bool.false_ne_true

lemma polite_put {site : WriteSite}
    (hwrite : ∀ t G, Phased t (g ::ₘ G) → t.value run.runID = none →
      run.runID ∉ t.index → t.Fair run ∧ Phased (t.write run) (g' ::ₘ G)) :
    Polite concert (Then g' fun rev t => Copy { run with revision := some rev } t ∧ Entered run t)
      (request (.put site run)) g s := by
  refine polite_request fun t G hst hintact hphased hcareful =>
    ⟨.of_not_deletes rfl, fun c a u hu => ?_⟩
  obtain ⟨hfair, hphased'⟩ := hwrite t G hphased hcareful.1 hcareful.2
  rcases RunStore.accept_cases hu with ⟨rfl, ha⟩ | ⟨rfl, rfl⟩
  · refine ⟨hfair.rely, g', hintact.write hfair, hphased', fun v huv rev hrev => ?_⟩
    rcases ha with rfl | rfl
    · cases hrev
      exact ⟨rfl, copy_write.mono huv, entered_write.mono huv⟩
    · cases hrev
  · exact ⟨.refl _, g, hintact, hphased, fun v _ rev hrev => (nomatch hrev)⟩

lemma polite_create (hwrite : ∀ t G, Phased t (g ::ₘ G) → t.value run.runID = none →
      run.runID ∉ t.index → t.Fair run ∧ Phased (t.write run) (g ::ₘ G)) :
    Polite concert (Then g fun (r : Option ℕ) t => ∀ rev, r = some rev →
        Copy { run with revision := some rev } t ∧ Entered run t)
      (request (.create run)) g s := by
  refine polite_request fun t G hst hintact hphased hcareful =>
    ⟨.of_not_deletes rfl, fun c a u hu => ?_⟩
  rcases RunStore.createIfNone_cases hu with ⟨hnone, rfl, ha⟩ | ⟨rfl, ha⟩
  · have hvalue : t.value run.runID = none := by rw [RunStore.value, hnone]; rfl
    obtain ⟨hfair, hphased'⟩ := hwrite t G hphased hvalue (hcareful hvalue)
    refine ⟨hfair.rely, g, hintact.write hfair, hphased', fun v huv r hr => ?_⟩
    rcases ha with rfl | rfl
    · cases hr
      refine ⟨rfl, fun rev hrev => ?_⟩
      cases hrev
      exact ⟨copy_write.mono huv, entered_write.mono huv⟩
    · cases hr
  · refine ⟨.refl _, g, hintact, hphased, fun v _ r hr => ⟨rfl, fun rev hrev => ?_⟩⟩
    rcases ha with rfl | rfl
    · cases hr
      cases hrev
    · cases hr

end Writes

end Dagnats.RunIndex
