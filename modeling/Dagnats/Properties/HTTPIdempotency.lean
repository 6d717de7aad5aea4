import Dagnats.Interaction.Contract
import Dagnats.Interaction.Script
import Dagnats.Trigger.HTTP

/-!
# Idempotent requests

A request claims its run before it starts it, and nothing takes the claim back
when the start fails: the next request with the same header waits for a run that
nobody will start. The key of a claim and the id of a start run the trigger and
the header together, so two triggers share runs where this makes the keys equal,
and one of them loses its start where it makes the ids equal.

Among requests whose keys and ids are apart, and whose calls are answered, a claim
stands for one trigger and one value, and its run has started once its request
has been answered.
-/

namespace Dagnats.HTTPTrigger

open Interaction

variable {keyValid : String → Bool} {P : Set (String × String)} {s t u : State} {op : Call} {n : ℕ}
  {r : Request} {runID : ℕ}

def Request.pair (r : Request) : String × String :=
  (r.triggerID, r.value)

lemma Request.key_eq_of_pair {r q : Request} (h : r.pair = q.pair) : r.key = q.key := by
  obtain ⟨hid, hvalue⟩ := Prod.mk.inj h
  rw [Request.key, hid, hvalue, Request.key]

def Started (s : State) (runID : ℕ) : Prop :=
  ∃ m ∈ s.starts, m.runID = runID

structure Idempotent (s : State) : Prop where
  /-- Requests share a run only if their triggers and headers are the same. -/
  shared : ∀ x ∈ s.resolved, ∀ y ∈ s.resolved, x.runID = y.runID → x.request.pair = y.request.pair
  /-- One run is started for a trigger and a header. -/
  single : ∀ m ∈ s.starts, ∀ m' ∈ s.starts, m.request.Keyed → m'.request.Keyed →
    m.request.pair = m'.request.pair → m.runID = m'.runID
  /-- A run that others may be waiting for has been started, unless the request
  that is to start it is still at work. -/
  started : ∀ runID ∈ s.answered, Started s runID

/-- No two of these pairs have the same key or the same message id. -/
structure Apart (P : Set (String × String)) : Prop where
  keys : ∀ p ∈ P, ∀ q ∈ P, idempotencyKey p.1 p.2 = idempotencyKey q.1 q.2 → p = q
  ids : ∀ p ∈ P, ∀ q ∈ P, idempotentMsgID p.1 p.2 = idempotentMsgID q.1 q.2 → p = q

/-- The stores answer; an acknowledgement of a start may be lost. -/
def Answered (s : State) : Call → Prop
  | .newRunID _ | .resolved _ | .answered _ => True
  | .publish .. => s.fault ≠ .refused
  | _ => s.fault = .none

def Request.Claimable (keyValid : String → Bool) (P : Set (String × String)) (r : Request) : Prop :=
  r.Keyed → r.idkv = true ∧ keyValid r.key = true ∧ r.pair ∈ P

def regular (keyValid : String → Bool) (P : Set (String × String)) :
    Conditions (system keyValid) where
  call := Answered
  job := fun _ r => Request.Claimable keyValid P r
  move := fun _ m => ∀ key, m ≠ Move.expire key

/-! ## The stores -/

/-- Ids, claims and starts stay. -/
structure Later (s t : State) : Prop where
  owner : ∀ {runID r}, s.owner.find? runID = some r → t.owner.find? runID = some r
  claims : ∀ {key runID}, s.claims.find? key = some runID → t.claims.find? key = some runID
  starts : ∀ {m}, m ∈ s.starts → m ∈ t.starts

lemma Later.refl (s : State) : Later s s :=
  ⟨id, id, id⟩

lemma Later.trans (hst : Later s t) (htu : Later t u) : Later s u :=
  ⟨htu.owner ∘ hst.owner, htu.claims ∘ hst.claims, htu.starts ∘ hst.starts⟩

lemma Later.started (hst : Later s t) (h : Started s runID) : Started t runID := by
  obtain ⟨m, hm, hrun⟩ := h
  exact ⟨m, hst.starts hm, hrun⟩

lemma find?_set_of_none {κ ν : Type} [DecidableEq κ] {table : Table κ ν} {key other : κ}
    {v w : ν} (hnone : table.find? key = none) (h : table.find? other = some w) :
    (table.set key v).find? other = some w := by
  have hne : key ≠ other := by
    rintro rfl
    rw [hnone] at h
    cases h
  rwa [Table.find?_set_of_ne table v hne]

lemma later_store (s : State) (r : Request) (runID : ℕ) : Later s (s.store r runID) := by
  unfold State.store
  split
  · exact Later.refl s
  · exact ⟨id, id, List.mem_cons_of_mem _⟩

lemma exec_later {a : Answer op} (h : s.exec keyValid op n = some (a, t)) : Later s t := by
  cases op with
  | newRunID r =>
    simp only [State.exec] at h
    split at h
    · next hnone => cases h; exact ⟨find?_set_of_none hnone, id, id⟩
    · cases h
  | create key runID =>
    simp only [State.exec] at h
    split at h
    · next hfree => cases h; exact ⟨id, find?_set_of_none hfree.2.2, id⟩
    · cases h; exact Later.refl s
  | publish r runID =>
    cases h
    split
    · exact Later.refl s
    · exact later_store s r runID
  | _ => cases h; exact ⟨id, id, id⟩

/-! ## The invariant -/

/-- The run is the one of the request: it is claimed for it, or was made for it. -/
structure Has (P : Set (String × String)) (s : State) (r : Request) (runID : ℕ) : Prop where
  claimed : r.Keyed → r.pair ∈ P ∧ s.claims.find? r.key = some runID
  owned : ¬r.Keyed → s.owner.find? runID = some r

lemma Has.later (h : Has P s r runID) (hst : Later s t) : Has P t r runID :=
  ⟨fun hkeyed => ⟨(h.claimed hkeyed).1, hst.claims (h.claimed hkeyed).2⟩,
    fun hkeyed => hst.owner (h.owned hkeyed)⟩

def MadeFor (P : Set (String × String)) (s : State) (key : String) (runID : ℕ) : Prop :=
  ∃ r, s.owner.find? runID = some r ∧ r.Keyed ∧ r.pair ∈ P ∧ r.key = key

structure Inv (P : Set (String × String)) (s : State) : Prop where
  claims : ∀ key runID, s.claims.find? key = some runID → MadeFor P s key runID
  resolved : ∀ x ∈ s.resolved, Has P s x.request x.runID
  starts : ∀ m ∈ s.starts, Has P s m.request m.runID
  answered : ∀ runID ∈ s.answered, Started s runID

namespace Inv

lemma empty : Inv P State.empty := by
  constructor
  · exact fun _ _ h => nomatch h
  · exact fun _ h => nomatch h
  · exact fun _ h => nomatch h
  · exact fun _ h => nomatch h

lemma next (h : Inv P s) (hst : Later s t)
    (hclaims : ∀ key runID, t.claims.find? key = some runID →
      s.claims.find? key = some runID ∨ MadeFor P s key runID)
    (hres : ∀ x ∈ t.resolved, x ∈ s.resolved ∨ Has P s x.request x.runID)
    (hstarts : ∀ m ∈ t.starts, m ∈ s.starts ∨ Has P s m.request m.runID)
    (hanswered : ∀ runID ∈ t.answered, runID ∈ s.answered ∨ Started s runID) : Inv P t := by
  constructor
  · intro key runID hclaim
    have hmade : MadeFor P s key runID := (hclaims key runID hclaim).elim (h.claims key runID) id
    obtain ⟨r, howner, hr⟩ := hmade
    exact ⟨r, hst.owner howner, hr⟩
  · intro x hx
    exact ((hres x hx).elim (h.resolved x) id).later hst
  · intro m hm
    exact ((hstarts m hm).elim (h.starts m) id).later hst
  · intro runID hrun
    exact hst.started ((hanswered runID hrun).elim (h.answered runID) id)

section

variable (h : Inv P s) (hP : Apart P)
include h hP

/-- Whoever has a run, has the pair of the request that it was made for. -/
lemma owner_of_has (hhas : Has P s r runID) :
    ∃ q, s.owner.find? runID = some q ∧ q.pair = r.pair := by
  by_cases hkeyed : r.Keyed
  · obtain ⟨hmem, hclaim⟩ := hhas.claimed hkeyed
    obtain ⟨q, howner, -, hq, hkey⟩ := h.claims _ _ hclaim
    exact ⟨q, howner, hP.keys _ hq _ hmem hkey⟩
  · exact ⟨r, hhas.owned hkeyed, rfl⟩

lemma idempotent : Idempotent s := by
  constructor
  · intro x hx y hy hrun
    obtain ⟨q, hq, hpair⟩ := h.owner_of_has hP (h.resolved x hx)
    obtain ⟨q', hq', hpair'⟩ := h.owner_of_has hP (h.resolved y hy)
    rw [hrun, hq'] at hq
    cases hq
    exact hpair.symm.trans hpair'
  · intro m hm m' hm' hkeyed hkeyed' hpair
    have hclaim := ((h.starts m hm).claimed hkeyed).2
    rw [Request.key_eq_of_pair hpair, ((h.starts m' hm').claimed hkeyed').2] at hclaim
    exact (Option.some.inj hclaim).symm
  · exact h.answered

/-- A start that the stream takes for a repetition is one. -/
lemma started_of_msgID (hhas : Has P s r runID) {m : Start} (hm : m ∈ s.starts)
    (hid : m.request.msgID m.runID = r.msgID runID) : m.runID = runID := by
  unfold Request.msgID at hid
  split at hid
  · next hkeyed =>
    split at hid
    · next hkeyed' =>
      obtain ⟨hmem, hclaim⟩ := (h.starts m hm).claimed hkeyed
      obtain ⟨hmem', hclaim'⟩ := hhas.claimed hkeyed'
      have hpair := hP.ids _ hmem _ hmem' (MsgID.header.inj hid)
      rw [Request.key_eq_of_pair hpair, hclaim'] at hclaim
      exact (Option.some.inj hclaim).symm
    · cases hid
  · split at hid
    · cases hid
    · exact MsgID.event.inj hid

lemma started_store (hhas : Has P s r runID) : Started (s.store r runID) runID := by
  unfold State.store
  split
  · next hany =>
    obtain ⟨m, hm, hid⟩ := List.any_eq_true.mp hany
    exact ⟨m, hm, h.started_of_msgID hP hhas hm (of_decide_eq_true hid).1⟩
  · exact ⟨_, .head _, rfl⟩

end

lemma store (h : Inv P s) (hhas : Has P s r runID) : Inv P (s.store r runID) := by
  have hlater := later_store s r runID
  unfold State.store at hlater ⊢
  split
  · exact h
  · next hnew =>
    rw [if_neg hnew] at hlater
    apply h.next hlater (fun _ _ => .inl) (fun _ => .inl) _ fun _ => .inl
    intro m hm
    rcases List.mem_cons.mp hm with rfl | hm
    · exact .inr hhas
    · exact .inl hm

end Inv

/-! ## The contract of a request -/

/-- Claims are made for the owner of a run, and the run is started, and noted, by
those who have it. -/
def Guarded (P : Set (String × String)) (s : State) : Call → Prop
  | .create key runID => MadeFor P s key runID
  | .publish r runID => Has P s r runID
  | .resolved x => Has P s x.request x.runID
  | .answered runID => Started s runID
  | _ => True

def contract (keyValid : String → Bool) (P : Set (String × String)) :
    Contract (system keyValid) where
  inv := Inv P
  rely := Later
  grows := Later
  ok := Answered
  guar s op _ _ := Guarded P s op
  rely_refl := Later.refl
  rely_trans := Later.trans
  grows_trans := Later.trans
  rely_grows := id
  exec_grows := exec_later

/-- The handler keeps the contract. -/
abbrev Serves {α : Type} (keyValid : String → Bool) (P : Set (String × String))
    (p : M α) (s : State) : Prop :=
  Safe (contract keyValid P) (fun _ _ => True) p s

lemma inv_exec (h : Inv P s) {a : Answer op} (hexec : s.exec keyValid op n = some (a, t))
    (hguard : Guarded P s op) : Inv P t := by
  have hst := exec_later hexec
  cases op with
  | newRunID r =>
    simp only [State.exec] at hexec
    split at hexec
    · cases hexec; exact h.next hst (fun _ _ => .inl) (fun _ => .inl) (fun _ => .inl) fun _ => .inl
    · cases hexec
  | create key runID =>
    simp only [State.exec] at hexec
    split at hexec
    · cases hexec
      apply h.next hst _ (fun _ => .inl) (fun _ => .inl) fun _ => .inl
      intro key' runID' hclaim
      rw [Table.find?_set] at hclaim
      split at hclaim
      · next hkey =>
        cases hclaim
        subst hkey
        exact .inr hguard
      · exact .inl hclaim
    · cases hexec; exact h
  | publish r runID =>
    cases hexec
    split
    · exact h
    · exact h.store hguard
  | resolved x =>
    cases hexec
    apply h.next hst (fun _ _ => .inl) _ (fun _ => .inl) fun _ => .inl
    intro y hy
    rcases List.mem_cons.mp hy with rfl | hy
    · exact .inr hguard
    · exact .inl hy
  | answered runID =>
    cases hexec
    apply h.next hst (fun _ _ => .inl) (fun _ => .inl) fun _ => .inl
    intro runID' hrun
    rcases List.mem_cons.mp hrun with rfl | hrun
    · exact .inr hguard
    · exact .inl hrun
  | _ => cases hexec; exact h

/-! ## The handler -/

/-- Every request gets a run of its own, or the one that is claimed for it. -/
lemma serves_resolve {α : Type} {f : ℕ × Bool → M α} {newRunID : ℕ}
    (hr : r.Claimable keyValid P) (howner : s.owner.find? newRunID = some r)
    (hrest : ∀ x t, Has P t r x.1 → Serves keyValid P (f x) t) :
    Serves keyValid P ((resolveIdempotentRunID r newRunID).bind f) s := by
  unfold resolveIdempotentRunID
  split
  · next hplain =>
    apply hrest
    refine ⟨fun hkeyed => ?_, fun _ => howner⟩
    rcases hplain with hidkv | hheader | hvalue
    · rw [(hr hkeyed).1] at hidkv
      cases hidkv
    · exact absurd hheader hkeyed.1
    · exact absurd hvalue hkeyed.2
  · next hplain =>
    have hkeyed : r.Keyed := ⟨fun h => hplain (.inr (.inl h)), fun h => hplain (.inr (.inr h))⟩
    obtain ⟨-, hvalid, hmem⟩ := hr hkeyed
    have has_of_claim {v : State} {run : ℕ} (hclaim : v.claims.find? r.key = some run) :
        Has P v r run := ⟨fun _ => ⟨hmem, hclaim⟩, fun h => absurd hkeyed h⟩
    intro t _ hst (hok : t.fault = .none) _ entry _ hexec
    refine ⟨trivial, fun _ => ?_⟩
    simp only [system, State.exec, hok, hvalid, and_self, Option.some.injEq, Prod.mk.injEq] at hexec
    obtain ⟨hentry, rfl⟩ := hexec
    cases entry with
    | some run => exact hrest _ _ (has_of_claim hentry)
    | none =>
      intro u _ htu (hok : u.fault = .none) _ created v hexec
      refine ⟨⟨r, htu.owner (hst.owner howner), hkeyed, hmem, rfl⟩, fun _ => ?_⟩
      cases hclaim : u.claims.find? r.key with
      | none =>
        simp only [system, State.exec, hok, hvalid, hclaim, ne_eq, reduceCtorEq,
          not_false_eq_true, and_self, if_true, decide_true, Option.some.injEq] at hexec
        obtain ⟨rfl, rfl⟩ := hexec
        exact hrest _ _ (has_of_claim (Table.find?_set_self ..))
      | some run =>
        simp only [system, State.exec, hclaim, reduceCtorEq, and_false, if_false,
          Option.some.injEq] at hexec
        obtain ⟨rfl, rfl⟩ := hexec
        -- The claim that was in the way is still there.
        intro v _ huv (hok : v.fault = .none) _ entry _ hexec
        refine ⟨trivial, fun _ => ?_⟩
        simp only [system, State.exec, hok, hvalid, and_self, huv.claims hclaim,
          Option.some.injEq, Prod.mk.injEq] at hexec
        obtain ⟨rfl, rfl⟩ := hexec
        exact hrest _ _ (has_of_claim (huv.claims hclaim))

lemma serves_dispatch (hP : Apart P) {replay : Bool} (hhas : Has P s r runID) :
    Serves keyValid P ((dispatchAndAwait r runID replay).bind fun _ =>
      match replay with
      | true => .pure ()
      | false => (perform (.answered runID)).bind fun _ => .pure ()) s := by
  intro t _ hst (hok : t.fault = .none) _ subscribed _ hexec
  refine ⟨trivial, fun _ => ?_⟩
  cases hexec
  rw [hok]
  intro u _ htu (hok : u.fault = .none) _ observing _ hexec
  refine ⟨trivial, fun _ => ?_⟩
  cases hexec
  rw [hok]
  cases replay with
  | true => exact fun _ _ _ => trivial
  | false =>
    intro v hv huv (hok : v.fault ≠ .refused) _ _ w hexec
    have hhas := hhas.later ((hst.trans htu).trans huv)
    refine ⟨hhas, fun _ => ?_⟩
    cases hexec
    rw [if_neg hok]
    have hstarted := hv.started_store hP hhas
    intro x _ hwx _ _ _ _ _
    exact ⟨hwx.started hstarted, fun _ _ _ _ => trivial⟩

lemma serves_serveHTTP (hP : Apart P) (hr : r.Claimable keyValid P) :
    Serves keyValid P (serveHTTP r) s := by
  intro t _ _ _ n newRunID u hexec
  refine ⟨trivial, fun _ => ?_⟩
  have howner : u.owner.find? newRunID = some r := by
    simp only [system, State.exec] at hexec
    split at hexec
    · cases hexec; exact Table.find?_set_self ..
    · cases hexec
  apply serves_resolve hr howner
  intro x v hhas w _ hvw _ _ _ z hexec
  refine ⟨hhas.later hvw, fun _ => ?_⟩
  exact serves_dispatch hP (hhas.later (hvw.trans ((contract keyValid P).exec_grows hexec)))

lemma contract_sound (hP : Apart P) : (contract keyValid P).Sound (regular keyValid P) where
  ok h := h
  call hinv hexec hguard := ⟨inv_exec hinv hexec hguard, exec_later hexec⟩
  move := by
    intro s m t hinv hmove h
    cases h
    cases m with
    | expire key => exact absurd rfl (hmove key)
    | _ =>
      refine ⟨hinv.next ?_ (fun _ _ => .inl) (fun _ => .inl) (fun _ => .inl) fun _ => .inl, ?_⟩
      all_goals exact ⟨id, id, id⟩
  jobs := by
    intro s r p _ hr hstart
    cases hstart
    exact serves_serveHTTP hP hr

/-- **Idempotency.**  Among requests whose keys and message ids are apart, in every
run in which claims can be made and last, and calls are answered, requests are
idempotent. -/
theorem requests_idempotent (hP : Apart P) {p : Pool (system keyValid)}
    (h : Pool.Reaches (regular keyValid P) (Pool.initial State.empty) p) : Idempotent p.state :=
  ((contract_sound hP).reaches Inv.empty h).1.idempotent hP

namespace Example

def request (triggerID value : String) : Request :=
  ⟨triggerID, "Idempotency-Key", true, value⟩

def arrives (triggerID value : String) : Order (system fun _ => true) :=
  .act (.start (request triggerID value))

/-- The request at a position goes on for some calls; a new run gets this id. -/
def goes (i n runID : ℕ) : Order (system fun _ => true) :=
  .drive (fun _ _ => runID) i n

def fault (f : Fault) : Order (system fun _ => true) :=
  .act (.ext (Move.fault f))

/-- Every request carries this header, to this trigger, and no call fails. -/
def oneKeyChecks : Checks (system fun _ => true) where
  call s _ := s.fault = .none
  job := fun _ (r : Request) => r.idkv && decide (r.pair = ("orders", "k"))
  move := fun _ (m : Move) => match m with
    | .expire _ => false
    | _ => true

lemma oneKeyChecks_sound : oneKeyChecks.Sound (regular (fun _ => true) {("orders", "k")}) where
  call := by
    intro s op h
    have hok : s.fault = .none := of_decide_eq_true h
    cases op with
    | publish r runID => exact fun hrefused => nomatch hok.symm.trans hrefused
    | newRunID r | resolved x | answered runID => trivial
    | _ => exact hok
  job := by
    intro s r h _
    obtain ⟨hidkv, hpair⟩ := Bool.and_eq_true_iff.mp h
    exact ⟨hidkv, rfl, of_decide_eq_true (p := r.pair = _) hpair⟩
  move := by
    intro s m h key hm
    cases hm
    cases h

/-- Two requests look for a claim at the same time. The slower one waits for the
run of the other. -/
theorem repeated_request_waits : ∃ p : Pool (system fun _ => true),
    Pool.Reaches (regular (fun _ => true) {("orders", "k")}) (Pool.initial State.empty) p ∧
    p.state.resolved.map (fun x => (x.runID, x.replay)) = [(0, false), (0, true)] ∧
    p.state.starts.map (·.runID) = [0] ∧ Idempotent p.state := by
  obtain ⟨p, hp, htest⟩ := Pool.reaches_of_script oneKeyChecks_sound (Pool.initial State.empty)
    [arrives "orders" "k", goes 0 2 0, arrives "orders" "k", goes 1 2 1, goes 0 1 0,
      goes 1 9 1, goes 0 9 0] (fun p => decide
        (p.state.resolved.map (fun x => (x.runID, x.replay)) = [(0, false), (0, true)] ∧
          p.state.starts.map (·.runID) = [0]))
  obtain ⟨hresolved, hstarts⟩ := of_decide_eq_true htest
  have hapart : Apart {("orders", "k")} :=
    ⟨fun _ hp _ hq _ => hp.trans hq.symm, fun _ hp _ hq _ => hp.trans hq.symm⟩
  exact ⟨p, hp, hresolved, hstarts, requests_idempotent hapart hp⟩

/-- A start fails after its run was claimed. The same request comes again and is a
replay of a run that nobody starts; so is a request to another trigger, whose
claim has the same key. -/
theorem failed_start_never_repeated : ∃ p : Pool (system fun _ => true),
    Pool.Reaches Conditions.free (Pool.initial State.empty) p ∧ p.state.resolved =
    [⟨request "a.b" "c", 0, true⟩, ⟨request "a" "b.c", 0, true⟩, ⟨request "a" "b.c", 0, false⟩] ∧
    p.state.starts.map (·.runID) = [] ∧ ¬Idempotent p.state := by
  obtain ⟨p, hp, htest⟩ := Pool.reaches_of_script Checks.free_sound (Pool.initial State.empty)
    [arrives "a" "b.c", goes 0 6 0, fault .refused, goes 0 9 0, fault .none,
      arrives "a" "b.c", goes 1 9 1, arrives "a.b" "c", goes 2 9 2] (fun p => decide
        (p.state.resolved = [⟨request "a.b" "c", 0, true⟩, ⟨request "a" "b.c", 0, true⟩,
          ⟨request "a" "b.c", 0, false⟩] ∧ p.state.starts.map (·.runID) = [] ∧
          p.state.answered = [0]))
  obtain ⟨hresolved, hstarts, hanswered⟩ := of_decide_eq_true htest
  refine ⟨p, hp, hresolved, hstarts, fun h => ?_⟩
  obtain ⟨m, hm, -⟩ := h.started 0 (hanswered ▸ List.mem_singleton_self 0)
  rw [List.map_eq_nil_iff.mp hstarts] at hm
  cases hm

end Example

end Dagnats.HTTPTrigger
