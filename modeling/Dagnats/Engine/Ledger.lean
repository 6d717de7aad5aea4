import Dagnats.Interaction.Log
import Dagnats.Engine.System

/-!
# What the calls append and answer

The meaning of a call, as far as proofs look at it: a call leaves the world as
it is or appends one entry (`exec_cases`), and a successful answer says
something about the log that stays true when the log grows.
-/

namespace Dagnats

open Interaction

variable {older : List Entry} {run : WorkflowRun} {e : Entry} {rev : ℕ} {log : List Entry}
  {key runID : String} {c : Choice} {lock : SingletonLock} {α : Type} {op : Call} {site : Site}

/-- The log only grows, and time does not run backwards. -/
def World.Grows (w w' : World) : Prop :=
  w.log <:+ w'.log ∧ w.now ≤ w'.now

lemma World.Grows.refl (w : World) : w.Grows w :=
  ⟨List.suffix_rfl, Int.le_refl _⟩

lemma World.Grows.trans {u v w : World} (huv : u.Grows v) (hvw : v.Grows w) : u.Grows w :=
  ⟨huv.1.trans hvw.1, Int.le_trans huv.2 hvw.2⟩

lemma World.grows_push (w : World) : w.Grows (w.push e) :=
  ⟨List.suffix_cons e w.log, Int.le_refl _⟩

def Appends (w : World) : Call → Entry → Prop
  | .newNonce m, e => e = .minted m
  | .newID, e => ∃ s, e = .mintedID s
  | .put site run, e => e = .snapshot site none (World.persisted run)
  | .create site run, e =>
    w.latest run.runID = none ∧ e = .snapshot site none (World.persisted run)
  | .update site run rev, e =>
    (∃ base, w.latest run.runID = some (rev, base)) ∧
      e = .snapshot site (some rev) (World.persisted run)
  | .createDef key d, e => e = .definition key d
  | .task t, e => e = .task t
  | .timer t dispatch, e => e = .timer t dispatch w.now
  | .event ev, e => e = .event ev
  | .waiter wt dispatch, e => e = .waiter wt dispatch
  | .removeWaiters runID, e => e = .waitersRemoved runID
  | .createLock key lock, e =>
    World.lockIn key w.log = none ∧ e = .lock key lock w.now
  | .updateLock key lock rev, e =>
    (∃ old, World.lockIn key w.log = some (rev, old)) ∧ e = .lock key lock w.now
  | .deleteLock key runID rev, e =>
    (∃ old, World.lockIn key w.log = some (rev, old)) ∧ e = .unlocked key runID
  | .acquire key holder limit, e =>
    holder ∉ World.slotsIn key w.log ∧
      ((World.slotsIn key w.log).length : ℤ) < limit ∧ e = .acquired key holder
  | .allow task runID stepID dispatch, e => e = .token task runID stepID dispatch
  | .notify n, e => e = .notice n ∨ e = .refused n
  | _, _ => False

/-- The write that a call is about to make, with its site and base. -/
def Call.write : Call → Option (Site × Option ℕ × WorkflowRun)
  | .put site run | .create site run => some (site, none, World.persisted run)
  | .update site run rev => some (site, some rev, World.persisted run)
  | _ => none

lemma Appends.write {w : World} {prior : Option ℕ} (h : Appends w op (.snapshot site prior run)) :
    op.write = some (site, prior, run) := by
  cases op <;> simp only [Appends, reduceCtorEq, exists_const, and_false, or_self] at h
  case put => injection h with h₁ h₂ h₃; simp [Call.write, h₁, h₂, h₃]
  case create | update => injection h.2 with h₁ h₂ h₃; simp [Call.write, h₁, h₂, h₃]

namespace World

variable {w w' : World}

lemma commit_cases {v : α} {a : Except Err α} (h : w.commit e v c = some (a, w')) :
    (w' = w ∧ ∀ v', a ≠ .ok v') ∨ (w' = w.push e ∧ ∀ v', a = .ok v' → v' = v) := by
  cases c <;> cases h
  · exact .inr ⟨rfl, fun _ hv => (Except.ok.inj hv).symm⟩
  · exact .inl ⟨rfl, nofun⟩
  · exact .inr ⟨rfl, nofun⟩

lemma commit_ok {v v' : α} (h : w.commit e v c = some (.ok v', w')) : v' = v ∧ w' = w.push e := by
  rcases commit_cases h with ⟨-, hno⟩ | ⟨hpush, hok⟩
  · exact absurd rfl (hno v')
  · exact ⟨hok v' rfl, hpush⟩

variable {a : Except Err Bool}

lemma question_same (h : w.question c = some (a, w')) : w' = w := by
  cases c <;> cases h <;> rfl

lemma question_ok {b : Bool} (h : w.question c = some (.ok b, w')) : c = .flag b ∧ w' = w := by
  cases c <;> cases h
  exact ⟨rfl, rfl⟩

lemma mint_cases {m : Mint} {a : Except Err ℕ} (h : w.mint m c = some (a, w')) :
    a = .ok w.log.length ∧ w' = w.push (.minted m) := by
  cases c <;> cases h
  exact ⟨rfl, rfl⟩

lemma mintID_cases {a : Except Err String} (h : w.mintID c = some (a, w')) :
    ∃ s, w' = w.push (.mintedID s) := by
  cases c <;> simp only [mintID, reduceCtorEq] at h
  split at h
  · cases h; exact ⟨_, rfl⟩
  · cases h

lemma read_cases {a : Except Err WorkflowRun} (h : w.read runID c = some (a, w')) :
    w' = w ∧ ∀ run, a = .ok run → ∃ rev stored, w.latest runID = some (rev, stored) ∧
    run = received rev stored := by
  cases c <;> simp only [read, reduceCtorEq] at h
  · split at h
    · next rev stored hlatest =>
      cases h
      exact ⟨rfl, fun run hrun => ⟨rev, stored, hlatest, (Except.ok.inj hrun).symm⟩⟩
    · cases h; exact ⟨rfl, fun _ h => nomatch h⟩
  · cases h; exact ⟨rfl, fun _ h => nomatch h⟩

lemma read_missing (h : w.read runID c = some (.error .runNotFound, w')) :
    w.latest runID = none := by
  cases c <;> simp only [read, reduceCtorEq] at h
  · split at h
    · cases h
    · next hnone => exact hnone
  · cases h

lemma writeNew_cases {a : Except Err (Option ℕ)} (h : w.writeNew site run c = some (a, w')) :
    (w' = w ∧ ∀ rev, a ≠ .ok (some rev)) ∨ (w.latest run.runID = none ∧
        w' = w.push (.snapshot site none (persisted run)) ∧
        ∀ rev, a = .ok (some rev) → rev = w.log.length) := by
  simp only [writeNew] at h
  split at h
  · next hnone =>
    refine (commit_cases h).imp (fun ⟨hsame, hno⟩ => ⟨hsame, fun _ => hno _⟩) ?_
    exact fun ⟨hpush, hok⟩ => ⟨hnone, hpush, fun _ hrev => Option.some.inj (hok _ hrev)⟩
  · cases c <;> cases h <;> exact .inl ⟨rfl, nofun⟩

lemma compareAndSet_cases {a : Except Err ℕ} (h : w.compareAndSet site run rev c = some (a, w')) :
    (w' = w ∧ ∀ rev', a ≠ .ok rev') ∨ (∃ base, w.latest run.runID = some (rev, base) ∧
        w' = w.push (.snapshot site (some rev) (persisted run)) ∧
        ∀ rev', a = .ok rev' → rev' = w.log.length) := by
  simp only [compareAndSet] at h
  split at h
  · next hrev =>
    obtain ⟨⟨_, base⟩, hbase, rfl⟩ := Option.map_eq_some_iff.mp hrev
    exact (commit_cases h).imp id fun hpush => ⟨base, hbase, hpush⟩
  · cases c <;> cases h <;> exact .inl ⟨rfl, nofun⟩

lemma readDef_cases {key : DefKey} {a : Except Err WorkflowDef}
    (h : w.readDef key c = some (a, w')) : w' = w ∧ ∀ d, a = .ok d → .definition key d ∈ w.log := by
  cases c <;> simp only [readDef, reduceCtorEq] at h
  · cases h; exact ⟨rfl, fun _ h => nomatch h⟩
  · cases h; exact ⟨rfl, fun _ h => nomatch h⟩
  · split at h
    · next hentry =>
      split at h
      · next hkey =>
        cases h
        refine ⟨rfl, fun d hd => ?_⟩
        cases hd
        rw [hkey]
        exact (At.of_getElem? hentry).mem
      · cases h
    · cases h

lemma list_same {a : Except Err (List WorkflowRun)} (h : w.list c = some (a, w')) : w' = w := by
  cases c <;> simp only [list, reduceCtorEq] at h
  · cases h; rfl
  · obtain ⟨_, _, h⟩ := Option.map_eq_some_iff.mp h
    cases h; rfl

lemma conditional_cases {condition : Bool} {a : Except Err Bool}
    (h : w.conditional condition e c = some (a, w')) :
    (w' = w ∧ a ≠ .ok true) ∨ (condition = true ∧ w' = w.push e ∧ a ≠ .ok false) := by
  unfold conditional at h
  split at h
  · next hcond =>
    refine (commit_cases h).imp (fun ⟨hsame, hno⟩ => ⟨hsame, hno true⟩) ?_
    exact fun ⟨hpush, hok⟩ => ⟨hcond, hpush, fun hno => Bool.false_ne_true (hok _ hno)⟩
  · cases c <;> cases h <;> exact .inl ⟨rfl, nofun⟩

lemma claimLock_cases (h : w.claimLock key lock c = some (a, w')) : (w' = w ∧ a ≠ .ok true) ∨
    (lockIn key w.log = none ∧ w' = w.push (.lock key lock w.now) ∧ a ≠ .ok false) := by
  unfold claimLock at h
  split at h
  · cases h
    exact .inl ⟨rfl, by simp⟩
  · refine (conditional_cases h).imp id fun ⟨hcond, hpush⟩ => ?_
    exact ⟨Option.isNone_iff_eq_none.mp hcond, hpush⟩

lemma readLock_cases {a : Except Err (Option (ℕ × SingletonLock × Time))}
    (h : w.readLock key c = some (a, w')) :
    w' = w ∧ ∀ found, a = .ok found → found = lockIn key w.log := by
  cases c <;> simp only [readLock, reduceCtorEq] at h
  · cases h
    exact ⟨rfl, fun found hfound => (Except.ok.inj hfound).symm⟩
  · cases h
    exact ⟨rfl, nofun⟩

lemma moveLock_cases (h : w.moveLock key e rev c = some (a, w')) : (w' = w ∧ a ≠ .ok true) ∨
    ((∃ old, lockIn key w.log = some (rev, old)) ∧ w' = w.push e ∧ a ≠ .ok false) := by
  refine (conditional_cases h).imp id fun ⟨hcond, hpush⟩ => ⟨?_, hpush⟩
  obtain ⟨⟨_, old⟩, hold, rfl⟩ := Option.map_eq_some_iff.mp (of_decide_eq_true hcond)
  exact ⟨old, hold⟩

/-- A slot is taken only where there is room, and a yes means that it is held. -/
lemma acquire_cases {key : SlotKey} {holder : String} {limit : ℤ}
    {a : Except Err Bool} (h : w.acquire key holder limit c = some (a, w')) :
    (w' = w ∧ (a = .ok true → holder ∈ slotsIn key w.log) ∧
      (a = .ok false → holder ∉ slotsIn key w.log ∧ limit ≤ (slotsIn key w.log).length)) ∨
      (holder ∉ slotsIn key w.log ∧ ((slotsIn key w.log).length : ℤ) < limit ∧
        w' = w.push (.acquired key holder) ∧ a ≠ .ok false) := by
  unfold acquire at h
  split at h
  · next hmem =>
    cases c <;> cases h
    · exact .inl ⟨rfl, fun _ => hmem, nofun⟩
    · exact .inl ⟨rfl, nofun, nofun⟩
  · next hmem =>
    unfold conditional at h
    split at h
    · next hroom =>
      rcases commit_cases h with ⟨hsame, hno⟩ | ⟨hpush, hok⟩
      · exact .inl ⟨hsame, fun h => absurd h (hno _), fun h => absurd h (hno _)⟩
      · exact .inr ⟨hmem, of_decide_eq_true hroom, hpush, fun h => Bool.false_ne_true (hok _ h)⟩
    · next hroom =>
      have hfull : limit ≤ (slotsIn key w.log).length := by simpa using hroom
      cases c <;> cases h
      · exact .inl ⟨rfl, nofun, fun _ => ⟨hmem, hfull⟩⟩
      · exact .inl ⟨rfl, nofun, nofun⟩

lemma allowance_cases {a : Except Err (Option ℤ)} (h : w.allowance e c = some (a, w')) :
    (w' = w ∧ a ≠ .ok none) ∨ w' = w.push e := by
  cases c
  case wait ms =>
    cases ms <;> cases h
    · exact .inr rfl
    · exact .inl ⟨rfl, nofun⟩
  all_goals cases h
  · exact .inl ⟨rfl, nofun⟩
  · exact .inr rfl

lemma announce_cases {n : Notice} {a : Except Err Unit} (h : w.announce n c = some (a, w')) :
    w' = w.push (.notice n) ∨ (w' = w.push (.refused n) ∧ a ≠ .ok ()) := by
  cases c <;> cases h
  · exact .inl rfl
  · exact .inr ⟨rfl, nofun⟩
  · exact .inl rfl

lemma exec_cases {a : Answer op} (h : w.exec op c = some (a, w')) :
    w' = w ∨ ∃ e, Appends w op e ∧ w' = w.push e := by
  cases op
  case now => cases c <;> cases h; exact .inl rfl
  case newNonce m => exact .inr ⟨_, rfl, (mint_cases h).2⟩
  case newID =>
    obtain ⟨s, hs⟩ := mintID_cases h
    exact .inr ⟨_, ⟨s, rfl⟩, hs⟩
  case load runID => exact .inl (read_cases h).1
  case create site run =>
    rcases writeNew_cases h with ⟨hsame, _⟩ | ⟨hnone, hpush, _⟩
    · exact .inl hsame
    · exact .inr ⟨_, ⟨hnone, rfl⟩, hpush⟩
  case update site run rev =>
    rcases compareAndSet_cases h with ⟨hsame, _⟩ | ⟨base, hbase, hpush, _⟩
    · exact .inl hsame
    · exact .inr ⟨_, ⟨⟨base, hbase⟩, rfl⟩, hpush⟩
  case listRuns => exact .inl (list_same h)
  case getDef key => exact .inl (readDef_cases h).1
  case taskQueued runID stepID nonce =>
    change (if _ then none else w.question c) = _ at h
    split at h
    · cases h
    · exact .inl (question_same h)
  case createLock key lock =>
    exact (claimLock_cases h).imp And.left fun ⟨hnone, hpush, _⟩ => ⟨_, ⟨hnone, rfl⟩, hpush⟩
  case getLock key => exact .inl (readLock_cases h).1
  case updateLock key lock rev =>
    exact (moveLock_cases h).imp And.left fun ⟨hold, hpush, _⟩ => ⟨_, ⟨hold, rfl⟩, hpush⟩
  case deleteLock key runID rev =>
    exact (moveLock_cases h).imp And.left fun ⟨hold, hpush, _⟩ => ⟨_, ⟨hold, rfl⟩, hpush⟩
  case allow => exact (allowance_cases h).imp And.left fun hpush => ⟨_, rfl, hpush⟩
  case acquire key holder limit =>
    exact (acquire_cases h).imp And.left fun ⟨hmem, hroom, hpush, _⟩ =>
      ⟨_, ⟨hmem, hroom, rfl⟩, hpush⟩
  case notify n =>
    rcases announce_cases h with hpush | ⟨hpush, -⟩
    · exact .inr ⟨_, .inl rfl, hpush⟩
    · exact .inr ⟨_, .inr rfl, hpush⟩
  case getWorker => cases c <;> cases h <;> exact .inl rfl
  case inputsQueued => exact .inl (question_same h)
  all_goals exact (commit_cases h).imp And.left fun h => ⟨_, rfl, h.1⟩

lemma exec_grows {a : Answer op} (h : w.exec op c = some (a, w')) : w.Grows w' := by
  rcases exec_cases h with rfl | ⟨e, _, rfl⟩
  · exact Grows.refl _
  · exact grows_push w

end World

def Wrote (log : List Entry) (rev : ℕ) (run : WorkflowRun) : Prop :=
  ∃ site base, At log rev (.snapshot site base run)

lemma Wrote.mono {log' : List Entry} (h : Wrote log rev run) (hlog : log <:+ log') :
    Wrote log' rev run := by
  obtain ⟨site, base, hat⟩ := h
  exact ⟨site, base, hat.mono hlog⟩

lemma Wrote.lt (h : Wrote log rev run) : rev < log.length := by
  obtain ⟨site, base, hat⟩ := h
  exact hat.lt

lemma Wrote.unique {run' : WorkflowRun} (h : Wrote log rev run) (h' : Wrote log rev run') :
    run = run' := by
  obtain ⟨site, base, hat⟩ := h
  obtain ⟨site', base', hat'⟩ := h'
  have heq := hat.unique hat'
  injection heq

namespace World

lemma latestIn_snapshot (base : Option ℕ) : latestIn runID (.snapshot site base run :: older) =
      if run.runID = runID then some (older.length, run)
      else latestIn runID older := rfl

lemma latestIn_cons_of_other
    (h : ∀ site base run, e = .snapshot site base run → run.runID ≠ runID) :
    latestIn runID (e :: older) = latestIn runID older := by
  cases e with
  | snapshot site base run => rw [latestIn_snapshot, if_neg (h site base run rfl)]
  | _ => rfl

lemma latestIn_cons_of_ne
    (h : ∀ site base run, e ≠ .snapshot site base run) :
    latestIn runID (e :: older) = latestIn runID older :=
  latestIn_cons_of_other fun site base run heq => absurd heq (h site base run)

lemma latestIn_cons (h : latestIn runID (e :: older) = some (rev, run)) :
    (∃ site prior, e = .snapshot site prior run ∧ rev = older.length ∧ run.runID = runID) ∨
    ((∀ site prior new, e = .snapshot site prior new → new.runID ≠ runID) ∧
      latestIn runID older = some (rev, run)) := by
  by_cases hsnap : ∃ site prior new, e = .snapshot site prior new ∧ new.runID = runID
  · obtain ⟨site, prior, new, rfl, hid⟩ := hsnap
    rw [latestIn_snapshot, if_pos hid] at h
    obtain ⟨rfl, rfl⟩ := Prod.mk.inj (Option.some.inj h)
    exact .inl ⟨site, prior, rfl, rfl, hid⟩
  · have hother : ∀ site prior new, e = .snapshot site prior new → new.runID ≠ runID :=
      fun site prior new heq hid => hsnap ⟨site, prior, new, heq, hid⟩
    exact .inr ⟨hother, latestIn_cons_of_other hother ▸ h⟩

lemma latestIn_wrote (h : latestIn runID log = some (rev, run)) :
    Wrote log rev run ∧ run.runID = runID := by
  induction log with
  | nil => cases h
  | cons e older ih =>
    rcases latestIn_cons h with ⟨site, prior, rfl, rfl, hid⟩ | ⟨-, h⟩
    · exact ⟨⟨site, prior, At.head older _⟩, hid⟩
    · exact ⟨(ih h).1.mono (List.suffix_cons e older), (ih h).2⟩

lemma lockIn_at {created : Time} (h : lockIn key log = some (rev, lock, created)) :
    At log rev (.lock key lock created) := by
  induction log with
  | nil => cases h
  | cons e older ih =>
    have hsuffix := List.suffix_cons e older
    cases e with
    | lock key' lock' at_ =>
      simp only [lockIn] at h
      split at h
      · next hkey =>
        cases h
        exact hkey ▸ At.head older _
      · exact (ih h).mono hsuffix
    | unlocked key' runID =>
      simp only [lockIn] at h
      split at h
      · cases h
      · exact (ih h).mono hsuffix
    | _ => exact (ih h).mono hsuffix

end World

end Dagnats
