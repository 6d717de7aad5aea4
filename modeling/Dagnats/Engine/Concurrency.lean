import Dagnats.Interaction.Bucket
import Dagnats.Engine.World

/-!
# The concurrency manager

`concurrency.go`: the slots of a workflow or of a task type are a member set
under one key of a bucket, changed by compare-and-set with a bounded number of
rounds. `AcquireRun` and `AcquireTask` ask for a slot in this way, `ReleaseRun`
and `ReleaseTask` give it back.

To the engines the set is a semaphore (`InBounds`, `Effect`): whatever the order
of their calls, and wherever they stop, it changes only by a member that has
room or by the member that is released. The other modules therefore take
`acquire` and `release` for single calls.
-/

namespace Dagnats

open Interaction

namespace Concurrency

/-- `runMembership`, or a value that does not decode as one, such as the counter
of earlier versions. -/
inductive Membership where
  | members (ids : List String)
  | unreadable

def Membership.ids : Membership → List String
  | .members ids => ids
  | .unreadable => []

abbrev P := Prog (Bucket.Call String Membership) Bucket.Answer Err

def concurrencyCASRetriesMax : ℕ := 10

/-- The set and its revision, which is zero where the key does not exist. -/
def readMembers (key : String) : P (List String × ℕ) :=
  .call (.get key) fun
    | none => .fail .unavailable
    | some none => .pure ([], 0)
    | some (some (rev, v)) => .pure (v.ids, rev)

def casWriteMembers (key : String) (members : List String) (rev : ℕ) : P Bool :=
  if rev = 0 then .call (.create key (.members members)) .pure
  else .call (.update key (.members members) rev) .pure

def removeMember (members : List String) (member : String) : List String :=
  members.filter (· ≠ member)

def acquireRounds (key member : String) (limit : ℤ) : ℕ → P Bool
  | 0 => .fail (.other ("acquire " ++ key ++ ": too many CAS retries"))
  | n + 1 => do
    let (members, rev) ← readMembers key
    if member ∈ members then return true
    else if limit ≤ members.length then return false
    else if limit < (members ++ [member]).length then
      .fail (.panic "acquireMember: member set grew beyond limit")
    else if ← casWriteMembers key (members ++ [member]) rev then return true
    else acquireRounds key member limit n

def acquireMember (key member : String) (limit : ℤ) : P Bool :=
  if member = "" then .fail (.panic "acquireMember: member must not be empty")
  else if limit ≤ 0 then .fail (.panic "acquireMember: limit must be positive")
  else acquireRounds key member limit concurrencyCASRetriesMax

def releaseRounds (key member : String) : ℕ → P Unit
  | 0 => .fail (.other ("release " ++ key ++ ": too many CAS retries"))
  | n + 1 => do
    let (members, rev) ← readMembers key
    if member ∉ members then return ()
    else if ← casWriteMembers key (removeMember members member) rev then return ()
    else releaseRounds key member n

def releaseMember (key member : String) : P Unit :=
  if member = "" then .fail (.panic "releaseMember: member must not be empty")
  else if key = "" then .fail (.panic "releaseMember: key must not be empty")
  else releaseRounds key member concurrencyCASRetriesMax

inductive Job where
  | acquire (key member : String)
  | release (key member : String)

def Job.prog (limit : String → ℤ) : Job → P Unit
  | .acquire key member => do
    let _ ← acquireMember key member (limit key)
    return ()
  | .release key member => releaseMember key member

/-- Any number of engines that acquire and release. -/
def managers (limit : String → ℤ) : System (Bucket.Call String Membership) Bucket.Answer Err
      (Bucket String Membership) where
  Choice := Bucket.Choice
  exec := Bucket.exec
  Job := Job
  start _ j := some (j.prog limit)
  Move := Empty
  move _ m := nomatch m

/-- The member set stored under a key. -/
def members (b : Bucket String Membership) (key : String) : List String :=
  match b.entries key with
  | none => []
  | some (_, v) => v.ids

/-- What a job may do to the member sets: add its own member where there is room,
or remove its own member. -/
def Effect (limit : String → ℤ) (before after : String → List String) : Job → Prop
  | .acquire key member => after = before ∨
      (member ∉ before key ∧ ((before key).length : ℤ) < limit key ∧
        after = Function.update before key (before key ++ [member]))
  | .release key member => after = before ∨ (member ∈ before key ∧
        after = Function.update before key (Semaphore.release member (before key)))

section Sets

variable {b b' : Bucket String Membership} {key : String} {ids : List String} {rev : ℕ}

lemma members_write :
    members (b.write key (.members ids)) = Function.update (members b) key ids := by
  funext other
  by_cases h : other = key
  · subst h
    simp [members, Membership.ids]
  · simp [members, Bucket.write_of_ne b _ h, h]

/-- The set and the revision were read from the key some time before `b`. -/
def Seen (b : Bucket String Membership) (key : String) (ids : List String) (rev : ℕ) : Prop :=
  ∃ b₀, Bucket.Numbered b₀ ∧ b₀.Later b ∧ ids = members b₀ key ∧
    ((rev = 0 ∧ b₀.entries key = none) ∨ ∃ v, b₀.entries key = some (rev, v))

lemma Seen.later (h : Seen b key ids rev) (hb : b.Later b') : Seen b' key ids rev := by
  obtain ⟨b₀, hnum, hlater, hseen⟩ := h
  exact ⟨b₀, hnum, hlater.trans hb, hseen⟩

lemma Seen.create (h : Seen b key ids 0) (hnow : b.entries key = none) : members b key = ids := by
  obtain ⟨b₀, hnum, -, hids, ⟨-, hnone⟩ | ⟨v, hv⟩⟩ := h
  · simp [members, hnow, hids, hnone]
  · exact absurd (hnum key 0 v hv).1 (Nat.lt_irrefl 0)

lemma Seen.update (h : Seen b key ids rev) (hrev : rev ≠ 0) {v : Membership}
    (hnow : b.entries key = some (rev, v)) : members b key = ids := by
  obtain ⟨b₀, hnum, hlater, hids, ⟨hzero, -⟩ | ⟨v₀, hv₀⟩⟩ := h
  · exact absurd hzero hrev
  · have heq := hlater.value_eq hnum hv₀ hnow
    simp [members, hnow, hids, hv₀, heq]

end Sets

section Contract

variable (limit : String → ℤ)

/-- Others may write at any time, and keep every set within its bounds. -/
def contract : Contract (managers limit) where
  inv b := b.Numbered ∧ ∀ key, Semaphore.InBounds (limit key) (members b key)
  rely := Bucket.Later
  grows := Bucket.Later
  ok _ _ := True
  guar _ _ _ _ := True
  rely_refl := Bucket.Later.refl
  rely_trans := Bucket.Later.trans
  grows_trans := Bucket.Later.trans
  rely_grows := id
  exec_grows := Bucket.exec_later

def guarantee (j : Job) (b : Bucket String Membership) (op : Bucket.Call String Membership)
    (_ : Bucket.Answer op) (b' : Bucket String Membership) : Prop :=
  (∃ c a, b.exec op c = some (a, b')) ∧ Effect limit (members b) (members b') j

variable {limit} {j : Job} {b : Bucket String Membership} {key member : String}
variable {ids : List String} {rev : ℕ} {α β : Type}

/-- The program of the job `j` does nothing but what the job may do, and returns
with `J`. -/
def Does (limit : String → ℤ) (j : Job) (b : Bucket String Membership) (p : P α)
    (J : α → Bucket String Membership → Prop) : Prop :=
  Safe ((contract limit).guarding (guarantee limit j)) (post J fun _ _ => True) p b

lemma Effect.refl (sets : String → List String) (j : Job) : Effect limit sets sets j := by
  cases j with
  | acquire key member | release key member => exact .inl rfl

variable {J : α → Bucket String Membership → Prop}

lemma Does.pure {a : α} (h : ∀ b', b.Later b' → J a b') : Does limit j b (.pure a) J :=
  fun b' _ hlater => h b' hlater

lemma Does.fail {e : Err} : Does limit j b (.fail e) J :=
  fun _ _ _ => trivial

lemma Does.bind {p : P α} {f : α → P β} {Q : β → Bucket String Membership → Prop}
    (hp : Does limit j b p J)
    (hf : ∀ a b', b.Later b' → J a b' → Does limit j b' (f a) Q) : Does limit j b (p.bind f) Q :=
  Safe.bind hp (fun a b' _ hlater hJ => hf a b' hlater hJ) fun _ _ _ _ _ => trivial

lemma Does.readMembers : Does limit j b (readMembers key) fun r b' => Seen b' key r.1 r.2 := by
  intro b₁ hinv _ _ c a b₂ hexec
  obtain ⟨rfl, ha⟩ := Bucket.get_cases hexec
  refine ⟨⟨⟨c, a, hexec⟩, Effect.refl _ j⟩, fun hinv' => ?_⟩
  rcases ha with rfl | rfl
  · exact fail
  · cases hread : b₂.entries key with
    | none =>
      refine pure fun b' hlater => ⟨b₂, hinv.1, hlater, ?_, .inl ⟨rfl, hread⟩⟩
      simp [members, hread]
    | some entry =>
      obtain ⟨rev, v⟩ := entry
      refine pure fun b' hlater => ⟨b₂, hinv.1, hlater, ?_, .inr ⟨v, hread⟩⟩
      simp [members, hread]

lemma Does.casWriteMembers {new : List String} (hseen : Seen b key ids rev)
    (heffect : ∀ sets : String → List String, sets key = ids →
      Effect limit sets (Function.update sets key new) j) :
    Does limit j b (casWriteMembers key new rev) fun _ _ => True := by
  -- Both writes are carried out only over the set that was read.
  have hwrite : ∀ b₁ : Bucket String Membership, members b₁ key = ids →
      Effect limit (members b₁) (members (b₁.write key (.members new))) j := by
    intro b₁ hids
    rw [members_write]
    exact heffect (members b₁) hids
  unfold Concurrency.casWriteMembers
  split
  · next hzero =>
    subst hzero
    intro b₁ _ hlater _ c a b₂ hexec
    refine ⟨⟨⟨c, a, hexec⟩, ?_⟩, fun _ => pure fun _ _ => trivial⟩
    rcases Bucket.create_cases hexec with ⟨rfl, -⟩ | ⟨hnone, rfl⟩
    · exact Effect.refl _ j
    · exact hwrite b₁ ((hseen.later hlater).create hnone)
  · next hrev =>
    intro b₁ _ hlater _ c a b₂ hexec
    refine ⟨⟨⟨c, a, hexec⟩, ?_⟩, fun _ => pure fun _ _ => trivial⟩
    rcases Bucket.update_cases hexec with ⟨rfl, -⟩ | ⟨⟨old, hold⟩, rfl⟩
    · exact Effect.refl _ j
    · exact hwrite b₁ ((hseen.later hlater).update hrev hold)

lemma Does.acquireRounds (n : ℕ) :
    Does limit (.acquire key member) b (acquireRounds key member (limit key) n)
      fun _ _ => True := by
  induction n generalizing b with
  | zero => exact fail
  | succ n ih =>
    refine bind readMembers fun read b' _ hseen => ?_
    obtain ⟨ids, rev⟩ := read
    dsimp only
    split
    · exact pure fun _ _ => trivial
    · next hmem =>
      split
      · exact pure fun _ _ => trivial
      · next hroom =>
        split
        · exact fail
        · refine bind (casWriteMembers hseen fun sets hids => ?_) fun written b'' _ _ => ?_
          · refine .inr ⟨hids ▸ hmem, ?_, by rw [hids]⟩
            rw [hids]
            exact Int.not_le.mp hroom
          · cases written with
            | true => exact pure fun _ _ => trivial
            | false => exact ih

lemma Does.acquireMember :
    Does limit (.acquire key member) b (acquireMember key member (limit key)) fun _ _ => True := by
  unfold Concurrency.acquireMember
  split
  · exact fail
  · split
    · exact fail
    · exact acquireRounds _

lemma Does.releaseRounds (n : ℕ) :
    Does limit (.release key member) b (releaseRounds key member n) fun _ _ => True := by
  induction n generalizing b with
  | zero => exact fail
  | succ n ih =>
    refine bind readMembers fun read b' _ hseen => ?_
    obtain ⟨ids, rev⟩ := read
    dsimp only
    split
    · exact pure fun _ _ => trivial
    · next hmem =>
      refine bind (casWriteMembers hseen fun sets hids => ?_) fun written b'' _ _ => ?_
      · exact .inr ⟨hids ▸ not_not.mp hmem, by rw [hids]; rfl⟩
      · cases written with
        | true => exact pure fun _ _ => trivial
        | false => exact ih

lemma Does.releaseMember :
    Does limit (.release key member) b (releaseMember key member) fun _ _ => True := by
  unfold Concurrency.releaseMember
  split
  · exact fail
  · split
    · exact fail
    · exact releaseRounds _

lemma Does.prog (j : Job) : Does limit j b (j.prog limit) fun _ _ => True := by
  cases j with
  | acquire key member =>
    exact bind acquireMember fun _ _ _ _ => pure fun _ _ => trivial
  | release key member => exact releaseMember

lemma Effect.inBounds {before after : String → List String} (h : Effect limit before after j)
    (hbefore : ∀ key, Semaphore.InBounds (limit key) (before key)) : ∀ key,
    Semaphore.InBounds (limit key) (after key) := by
  intro other
  cases j with
  | acquire key member =>
    rcases h with rfl | ⟨hmem, hroom, rfl⟩
    · exact hbefore other
    · by_cases heq : other = key
      · subst heq
        rw [Function.update_self]
        exact (hbefore other).append hmem hroom
      · rw [Function.update_of_ne heq]
        exact hbefore other
  | release key member =>
    rcases h with rfl | ⟨-, rfl⟩
    · exact hbefore other
    · by_cases heq : other = key
      · subst heq
        rw [Function.update_self]
        exact (hbefore other).release member
      · rw [Function.update_of_ne heq]
        exact hbefore other

lemma contract_sound : (contract limit).SoundFor (guarantee limit) Conditions.free where
  ok _ := trivial
  call := by
    intro j b op c a b' hinv hexec hguar
    exact ⟨⟨Bucket.exec_numbered hexec hinv.1, hguar.2.inBounds hinv.2⟩, Bucket.exec_later hexec⟩
  move := by
    intro b m
    exact nomatch m
  jobs := by
    intro b j p _ _ hstart
    cases hstart
    exact Safe.conseq (Does.prog j) fun _ _ _ _ _ => trivial

end Contract

end Concurrency

end Dagnats
