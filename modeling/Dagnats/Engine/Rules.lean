import Dagnats.Interaction.Contract
import Dagnats.Engine.Stamps

/-!
# The contract of the engine

Every program of the engine keeps one contract: whatever the other programs
append in the meantime, it appends only entries that the abstract model allows.
`Does` is that obligation for one program, together with what is known when the
program returns; an error carries no knowledge. This module gives the rules
for composing programs and one rule per call.
-/

namespace Dagnats

open Interaction

variable {runID key stepID : String} {lock : SingletonLock} {rev : ℕ} {created : Time} {site : Site}
  {run : WorkflowRun} (o : Orchestrator) (K : Terms)

def contract : Contract o.system where
  inv w := LogOk o K w.log
  rely := World.Grows
  grows := World.Grows
  ok w op := ∀ e, Appends w op e → K.engine w.log e
  guar w _ _ w' := w' = w ∨ ∃ e, EntryOk o w.log e ∧ K.engine w.log e ∧ w' = w.push e
  rely_refl := World.Grows.refl
  rely_trans := World.Grows.trans
  grows_trans := World.Grows.trans
  rely_grows := id
  exec_grows := World.exec_grows

/-- From world `w`, the program keeps the contract and returns with `J`. -/
def Does {α : Type} (w : World) (p : M α) (J : α → World → Prop) : Prop :=
  Safe (contract o K) (post J fun _ _ => True) p w

/-- The program keeps the contract; nothing is said about its result. -/
abbrev Keeps {α : Type} (w : World) (p : M α) : Prop :=
  Does o K w p fun _ _ => True

namespace Does

variable {o K} {α β : Type} {w t : World}
variable {p : M α} {f : α → M β} {J J' : α → World → Prop} {Q : β → World → Prop}

lemma pure {a : α} (h : ∀ t, w.Grows t → J a t) : Does o K w (Prog.pure a) J :=
  fun t _ hgrows => h t hgrows

lemma ends {a : α} : Keeps o K w (Prog.pure a) :=
  pure fun _ _ => trivial

lemma fail {e : Err} : Does o K w (Prog.fail e : M α) J :=
  fun _ _ _ => trivial

lemma throw {e : Err} : Does o K w (Dagnats.throw e : M α) J := fail

lemma panic {msg : String} : Does o K w (Dagnats.panic msg : M α) J := fail

section

variable (hp : Does o K w p J)
include hp

lemma bind (hf : ∀ a t, LogOk o K t.log → w.Grows t → J a t → Does o K t (f a) Q) :
    Does o K w (p.bind f) Q :=
  Safe.bind hp hf fun _ _ _ _ _ => trivial

lemma conseq (h : ∀ a t, LogOk o K t.log → w.Grows t → J a t → J' a t) : Does o K w p J' := by
  refine Safe.conseq hp fun r t ht hgrows hr => ?_
  cases r with
  | ok a => exact h a t ht hgrows hr
  | error e => trivial

lemma keeps : Keeps o K w p :=
  hp.conseq fun _ _ _ _ _ => trivial

lemma outcome : Does o K w (Dagnats.outcome p) fun r t => ∀ a, r = .ok a → J a t := by
  refine Safe.attempt hp ?_ ?_ ?_
  · intro a t _ _ hJ b hb
    cases hb
    exact hJ
  · exact fun e t _ _ _ _ a ha => nomatch ha
  · exact fun _ _ _ _ _ _ => trivial

/-- A call of which the program looks at the result and at the error. -/
lemma either {g : Except Err α → M β}
    (herr : ∀ e t, LogOk o K t.log → w.Grows t → Does o K t (g (.error e)) Q)
    (hok : ∀ a t, LogOk o K t.log → w.Grows t → J a t → Does o K t (g (.ok a)) Q) :
    Does o K w ((Dagnats.outcome p).bind g) Q := by
  refine bind hp.outcome fun r t ht hwt hr => ?_
  cases r with
  | error e => exact herr e t ht hwt
  | ok a => exact hok a t ht hwt (hr a rfl)

lemma ignoring : Keeps o K w (Dagnats.ignoring p) :=
  hp.outcome.bind fun _ _ _ _ _ => ends

end

lemma ite {c : Prop} [Decidable c] {q : M α} (hp : c → Does o K w p J)
    (hq : ¬c → Does o K w q J) : Does o K w (if c then p else q) J := by
  split
  · next h => exact hp h
  · next h => exact hq h

lemma guard {c : Prop} [Decidable c] {e : Err} {q : M α} (hq : ¬c → Does o K w q J) :
    Does o K w (if c then Prog.fail e else q) J :=
  ite (fun _ => fail) hq

lemma early {c : Prop} [Decidable c] {a : α} {q : M α} (hq : ¬c → Keeps o K w q) :
    Keeps o K w (if c then Prog.pure a else q) :=
  ite (fun _ => ends) hq

/-- The loop rule: `I` holds of the accumulator between two rounds and is not
disturbed by the others. -/
lemma fold {as : List α} {b : β} {g : β → α → M β} {I : β → World → Prop}
    (hstable : ∀ b t u, World.Grows t u → I b t → I b u) (hinit : I b w)
    (hround : ∀ a ∈ as, ∀ b t, LogOk o K t.log → w.Grows t → I b t → Does o K t (g b a) I) :
    Does o K w (Prog.fold g as b) I :=
  Safe.fold (fun b t u _ hgrows => hstable b t u hgrows) hinit hround

lemma foldKeeps {as : List α} {b : β} {g : β → α → M β}
    (hround : ∀ a ∈ as, ∀ b t, LogOk o K t.log → w.Grows t → Keeps o K t (g b a)) :
    Keeps o K w (Prog.fold g as b) :=
  fold (fun _ _ _ _ _ => trivial) trivial fun a ha b t ht hgrows _ => hround a ha b t ht hgrows

/-- What each round of a loop establishes holds for all of them at its end. -/
lemma foldEach {as : List α} {g : Unit → α → M Unit} {P : α → World → Prop}
    (hstable : ∀ a t u, World.Grows t u → P a t → P a u)
    (hround : ∀ a ∈ as, ∀ t, LogOk o K t.log → w.Grows t → Does o K t (g () a) fun _ => P a) :
    Does o K w (Prog.fold g as ()) fun _ t => ∀ a ∈ as, P a t := by
  induction as generalizing w with
  | nil => exact pure fun _ _ a ha => nomatch ha
  | cons a as ih =>
    refine Safe.of_rely fun t ht hwt => ?_
    refine bind (hround a (.head _) t ht hwt) fun _ u _ htu ha => ?_
    refine conseq (ih fun b hb v hv huv => hround b (.tail a hb) v hv
      (hwt.trans (htu.trans huv))) fun _ v _ huv hrest b hb => ?_
    rcases List.mem_cons.mp hb with rfl | hb
    · exact hstable b u v huv ha
    · exact hrest b hb

/-! ## Calls -/

lemma request {op : Call} {J : Value op → World → Prop}
    (hentry : ∀ t, LogOk o K t.log → w.Grows t → ∀ e, Appends t op e → EntryOk o t.log e)
    (hvalue : ∀ t c v u, LogOk o K t.log → w.Grows t →
      t.exec op c = some (.ok v, u) → ∀ u', u.Grows u' → J v u') :
    Does o K w (Dagnats.request op) J := by
  intro t ht hgrows hok c a u hexec
  refine ⟨?_, fun _ => ?_⟩
  · rcases World.exec_cases hexec with rfl | ⟨e, happ, rfl⟩
    · exact .inl rfl
    · exact .inr ⟨e, hentry t ht hgrows e happ, hok e happ, rfl⟩
  · cases a with
    | ok v => exact pure fun u' hu' => hvalue t c v u ht hgrows hexec u' hu'
    | error e => exact fail

lemma quiet {op : Call} (h : ∀ log t e, Appends t op e → EntryOk o log e) :
    Keeps o K w (Dagnats.request op) :=
  request (fun t _ _ e he => h t.log t e he) fun _ _ _ _ _ _ _ _ _ => trivial

lemma notify {n : Notice} (h : ∀ log, NoticeOk log n := by exact fun _ => trivial) :
    Keeps o K w (Dagnats.request (.notify n)) :=
  quiet fun log _ e he => by
    rcases he with rfl | rfl
    · exact h log
    · trivial

lemma tries {n : Notice} (h : ∀ log, NoticeOk log n := by exact fun _ => trivial) :
    Does o K w (Dagnats.ignoring (Dagnats.request (.notify n))) fun _ t =>
      Tried t.log w.log n := by
  intro t _ hgrows hok c a u hexec
  have hsent : u = t.push (.notice n) ∨ u = t.push (.refused n) :=
    (World.announce_cases hexec).imp id And.left
  refine ⟨.inr ?_, fun _ => ?_⟩
  · rcases hsent with rfl | rfl
    · exact ⟨.notice n, h t.log, hok _ (.inl rfl), rfl⟩
    · exact ⟨.refused n, trivial, hok _ (.inr rfl), rfl⟩
  · have htried : Does o K u (Prog.pure ()) fun _ v => Tried v.log w.log n := by
      refine pure fun v huv => ⟨t.log, hgrows.1, ?_⟩
      rcases hsent with rfl | rfl
      · exact .inl huv.1
      · exact .inr huv.1
    cases a with
    | ok v => exact htried
    | error e =>
      change Does o K u (Prog.bind (α := Except Err Unit)
        (if e.isValue then Prog.pure (.error e) else Prog.fail e) fun _ => Prog.pure ()) _
      split
      · exact htried
      · exact fail

lemma releaseRun {workflowID : String}
    (h : ∃ run, Ended w.log run ∧ run.runID = runID ∧ run.workflowID = workflowID) :
    Keeps o K w (Dagnats.request (.notify (.releaseRun workflowID runID))) := by
  refine request (fun t _ hgrows e he => ?_) fun _ _ _ _ _ _ _ _ _ => trivial
  rcases he with rfl | rfl
  · obtain ⟨run, hended, hids⟩ := h
    exact ⟨run, hended.mono hgrows.1, hids⟩
  · trivial

lemma removeWaiters : Keeps o K w (Dagnats.request (.removeWaiters runID)) :=
  quiet fun _ _ e he => by cases he; trivial

lemma newID : Keeps o K w (Dagnats.request .newID) :=
  quiet fun _ _ e he => by obtain ⟨s, rfl⟩ := he; trivial

lemma nowIs : Does o K w Dagnats.now fun time t => time ≤ t.now := by
  refine request (fun _ _ _ _ he => he.elim) ?_
  intro t c time u _ _ hexec u' hu'
  cases c <;> cases hexec
  exact hu'.2

lemma now : Keeps o K w Dagnats.now :=
  nowIs.keeps

lemma hadLock_push {t u : World} (h : (t.push (.lock key lock t.now)).Grows u) :
    HadLock u.log key lock.runID :=
  ⟨_, t.log.length, lock, t.now, h.1, if_pos rfl, rfl⟩

lemma createLock : Does o K w (Dagnats.createLock key lock) fun b t => b = true →
    HadLock t.log key lock.runID := by
  refine request (fun _ _ _ e he => by obtain ⟨hnone, rfl⟩ := he; exact .inl hnone) ?_
  intro t c b u _ _ hexec u' hu' hb
  subst hb
  rcases World.claimLock_cases hexec with ⟨-, hno⟩ | ⟨-, rfl, -⟩
  · exact absurd rfl hno
  · exact hadLock_push hu'

lemma getLock : Does o K w (Dagnats.request (.getLock key)) fun r t => ∀ rev lock created, r =
    some (rev, lock, created) → At t.log rev (.lock key lock created) ∧
    HadLock t.log key lock.runID := by
  refine request (fun _ _ _ _ he => he.elim) ?_
  intro t c r u _ _ hexec u' hu' rev lock created hr
  obtain ⟨rfl, hfound⟩ := World.readLock_cases hexec
  have hlock := (hfound r rfl).symm.trans hr
  exact ⟨(World.lockIn_at hlock).mono hu'.1, _, rev, lock, created, hu'.1, hlock, rfl⟩

/-- A compare-and-set of a lock meets the lock it was made from. -/
lemma lockIn_of_at {t : World} (hat : At w.log rev (.lock key lock created)) (hgrows : w.Grows t)
    (h : ∃ old, World.lockIn key t.log = some (rev, old)) :
    World.lockIn key t.log = some (rev, lock, created) := by
  obtain ⟨⟨lock', created'⟩, hlock⟩ := h
  have heq := (World.lockIn_at hlock).unique (hat.mono hgrows.1)
  cases heq
  exact hlock

lemma updateLock {old : SingletonLock} (hat : At w.log rev (.lock key old created))
    (h : LetGo w.log rev old created w.now lock.unsaved ∨ Displaces o w.log key) :
    Does o K w (Dagnats.updateLock key lock rev) fun b t => b = true →
    HadLock t.log key lock.runID := by
  refine request (fun t _ hgrows e he => ?_) ?_
  · obtain ⟨hold, rfl⟩ := he
    refine .inr ⟨rev, old, created, lockIn_of_at hat hgrows hold, ?_⟩
    exact h.imp (fun h => h.mono hgrows.1 hgrows.2) fun h => h.mono hgrows.1
  · intro t c b u _ _ hexec u' hu' hb
    subst hb
    rcases World.moveLock_cases hexec with ⟨-, hno⟩ | ⟨-, rfl, -⟩
    · exact absurd rfl hno
    · exact hadLock_push hu'

lemma deleteLock (hat : At w.log rev (.lock key lock created)) (hid : lock.runID = runID)
    (h : ∃ run, Ended w.log run ∧ run.runID = runID ∧ run.singletonKey = key) :
    Keeps o K w (Dagnats.request (.deleteLock key runID rev)) := by
  refine request (fun t _ hgrows e he => ?_) fun _ _ _ _ _ _ _ _ _ => trivial
  obtain ⟨hold, rfl⟩ := he
  obtain ⟨run, hended, hids⟩ := h
  exact ⟨⟨rev, lock, created, lockIn_of_at hat hgrows hold, hid⟩, run, hended.mono hgrows.1, hids⟩

lemma allow {task : String} {dispatch : Option ℕ} :
    Does o K w (Dagnats.request (.allow task runID stepID dispatch)) fun r t => r = none →
    .token task runID stepID dispatch ∈ t.log := by
  refine request (fun _ _ _ e he => by cases he; trivial) ?_
  intro t c r u _ _ hexec u' hu' hr
  subst hr
  rcases World.allowance_cases hexec with ⟨-, hno⟩ | rfl
  · exact absurd rfl hno
  · exact hu'.1.subset (.head _)

lemma acquire {key : SlotKey} {holder : String} {limit : ℤ}
    (h : ∀ t, w.Grows t → holder ∉ World.slotsIn key t.log →
      ((World.slotsIn key t.log).length : ℤ) < limit → SlotOk o t.log key holder) :
    Does o K w (Dagnats.request (.acquire key holder limit)) fun b t =>
      b = true → HadSlotSince w.log.length t.log key holder := by
  refine request (fun t _ hgrows e he => ?_) ?_
  · obtain ⟨hmem, hroom, rfl⟩ := he
    exact h t hgrows hmem hroom
  · intro t c b u _ hgrows hexec u' hu' hb
    subst hb
    rcases World.acquire_cases hexec with ⟨rfl, hheld, -⟩ | ⟨-, -, rfl, -⟩
    · exact ⟨_, hu'.1, hgrows.1.length_le, hheld rfl⟩
    · refine ⟨_, hu'.1, (hgrows.trans (World.grows_push t)).1.length_le, ?_⟩
      simp [World.push, World.slotsIn]

lemma boundWorker : Keeps o K w (Dagnats.request (.getWorker runID)) :=
  quiet fun _ _ _ he => he.elim

lemma inputsQueued : Keeps o K w (Dagnats.request (.inputsQueued runID stepID)) :=
  quiet fun _ _ _ he => he.elim

lemma listRuns : Keeps o K w Dagnats.listRuns :=
  quiet fun _ _ _ he => he.elim

lemma newNonce {m : Mint} : Does o K w (Dagnats.request (.newNonce m)) fun n t => w.log.length ≤ n ∧
    At t.log n (.minted m) := by
  refine request (fun t _ _ e he => by cases he; trivial) ?_
  intro t c v u _ hgrows hexec u' hu'
  obtain ⟨hv, rfl⟩ := World.mint_cases hexec
  cases hv
  exact ⟨hgrows.1.length_le, (At.head t.log _).mono hu'.1⟩

lemma task {t : TaskPayload} (h : TaskOk o w.log t) (hfrom : TaskFrom o w.log t) :
    Does o K w (Dagnats.request (.task t)) fun _ u => .task t ∈ u.log := by
  refine request (fun u _ hgrows e he => by
    cases he; exact ⟨h.mono hgrows.1, hfrom.mono hgrows.1⟩) ?_
  intro u c v u₁ _ _ hexec u' hu'
  obtain ⟨-, rfl⟩ := World.commit_ok hexec
  exact hu'.1.subset (.head _)

lemma waiter {wt : Waiter} {n : Option ℕ} :
    Does o K w (Dagnats.request (.waiter wt n)) fun _ u => .waiter wt n ∈ u.log := by
  refine request (fun u _ hgrows e he => by cases he; trivial) ?_
  intro u c v u₁ _ _ hexec u' hu'
  obtain ⟨-, rfl⟩ := World.commit_ok hexec
  exact hu'.1.subset (.head _)

lemma requireMarshal {message : String} {input : Raw} :
    Keeps o K w (Dagnats.requireMarshal message input) :=
  ite (fun _ => fail) fun _ => ends

lemma schedule {tm : TimerMessage} {n : Option ℕ} (h : ∀ u, w.Grows u → TimerOk o u.log tm) :
    Does o K w (Dagnats.schedule tm n) fun _ u => ∃ publishedAt,
    .timer tm n publishedAt ∈ u.log := by
  refine bind requireMarshal fun _ t _ hwt _ => ?_
  refine request (fun u _ hgrows e he => by cases he; exact h u (hwt.trans hgrows)) ?_
  intro u c v u₁ _ _ hexec u' hu'
  obtain ⟨-, rfl⟩ := World.commit_ok hexec
  exact ⟨u.now, hu'.1.subset (.head _)⟩

lemma publishEvent {e : Event} (h : ∀ u, w.Grows u → EventOk o u.log e) :
    Keeps o K w (Dagnats.publishEvent e) :=
  request (fun u _ hgrows e he => by cases he; exact h u hgrows) fun _ _ _ _ _ _ _ _ _ => trivial

lemma taskQueued {nonce : Option ℕ} :
    Does o K w (Dagnats.request (.taskQueued runID stepID nonce)) fun b u => b = true →
    SentFor u.log runID stepID nonce := by
  refine request (fun _ _ _ _ he => he.elim) ?_
  intro u c v u₁ _ _ hexec u' hu' hv
  change (if _ then none else u.question c) = _ at hexec
  split at hexec
  · cases hexec
  · next hguard =>
    obtain ⟨rfl, rfl⟩ := World.question_ok hexec
    have htask : u₁.hasTask runID stepID nonce = true := by
      simpa [hv] using hguard
    obtain ⟨e, hmem, he⟩ := List.any_eq_true.mp htask
    cases e <;> simp only [Bool.false_eq_true, decide_eq_true_eq] at he
    next t => exact .inl ⟨t, hu'.1.subset hmem, he⟩

lemma stored_of_mem {log : List Entry} {key : DefKey} {d : WorkflowDef} (hlog : LogOk o K log)
    (hmem : .definition key d ∈ log) : Stored o log key.name d := by
  refine ⟨?_, ?_, .registered key hmem⟩
  all_goals
    induction hlog with
    | nil => cases hmem
    | cons _ happ ih =>
      rcases List.mem_cons.mp hmem with rfl | hmem
      · rcases happ with ⟨hstored, -⟩ | ⟨hout, -⟩
        · first
            | exact hstored.valid
            | exact hstored.name_eq
        · first
            | exact hout.1
            | exact hout.2
      · exact ih hmem

lemma getDef {key : DefKey} :
    Does o K w (Dagnats.request (.getDef key)) fun d t => Stored o t.log key.name d := by
  refine request (fun _ _ _ _ he => he.elim) ?_
  intro u c v u₁ hu _ hexec u' hu'
  obtain ⟨rfl, hmem⟩ := World.readDef_cases hexec
  exact (stored_of_mem hu (hmem v rfl)).mono hu'.1

lemma createDef {key : DefKey} {d : WorkflowDef} (h : Stored o w.log key.name d) :
    Keeps o K w (Dagnats.request (.createDef key d)) :=
  request (fun _ _ hgrows e he => by cases he; exact h.mono hgrows.1)
    fun _ _ _ _ _ _ _ _ _ => trivial

end Does

/-! ## Stored runs -/

/-- `run` is a copy of what is or was stored under that identifier. -/
def Loaded (w : World) (runID : String) (run : WorkflowRun) : Prop :=
  ∃ rev stored, Wrote w.log rev stored ∧ stored.runID = runID ∧ run = World.received rev stored

namespace Does

variable {o K} {w : World}

lemma load : Does o K w (Dagnats.load runID) fun run t => Loaded t runID run := by
  refine request (fun _ _ _ _ he => he.elim) ?_
  intro u c v u₁ _ _ hexec u' hu'
  obtain ⟨rfl, hrun⟩ := World.read_cases hexec
  obtain ⟨rev, stored, hlatest, rfl⟩ := hrun v rfl
  obtain ⟨hwrote, hid⟩ := World.latestIn_wrote hlatest
  exact ⟨rev, stored, hwrote.mono hu'.1, hid, rfl⟩

/-- A run that is not found was not stored when it was looked for. -/
lemma lookup : Does o K w (Dagnats.outcome (Dagnats.load runID)) fun r t =>
    (∀ run, r = .ok run → Loaded t runID run) ∧
      (r = .error .runNotFound → MissingSince w.log.length t.log runID) := by
  intro u hu hwu hok c a u₁ hexec
  obtain ⟨rfl, hrun⟩ := World.read_cases hexec
  refine ⟨.inl rfl, fun _ => ?_⟩
  cases a with
  | ok run =>
    refine pure fun u' hu' => ⟨fun run' heq => ?_, nofun⟩
    cases heq
    obtain ⟨rev, stored, hlatest, rfl⟩ := hrun run rfl
    obtain ⟨hwrote, hid⟩ := World.latestIn_wrote hlatest
    exact ⟨rev, stored, hwrote.mono hu'.1, hid, rfl⟩
  | error e =>
    have hmissing : ∀ u', u₁.Grows u' →
        (Except.error e : Except Err WorkflowRun) = .error .runNotFound →
        MissingSince w.log.length u'.log runID := by
      intro u' hu' heq
      cases heq
      exact ⟨_, hu'.1, hwu.1.length_le, World.read_missing hexec⟩
    change Does o K u₁ (α := Except Err WorkflowRun)
      (if e.isValue then Prog.pure (.error e) else Prog.fail e) _
    refine ite (fun _ => pure fun u' hu' => ⟨fun run heq => ?_, hmissing u' hu'⟩) fun _ => fail
    cases heq

section

variable (h : CreateOk o site (World.persisted run))
  (hintro : Introduced o w.log site (World.persisted run))
include h hintro

lemma put : Does o K w (Dagnats.request (.put site run)) fun rev t =>
      Wrote t.log rev (World.persisted run) := by
  refine request (fun _ _ hgrows e he => by
    cases he; exact ⟨h, hintro.mono hgrows.1⟩) ?_
  intro u c v u₁ _ _ hexec u' hu'
  obtain ⟨rfl, rfl⟩ := World.commit_ok hexec
  exact ⟨site, none, (At.head u.log _).mono hu'.1⟩

lemma create : Does o K w (Dagnats.request (.create site run)) fun rev t => ∀ n, rev = some n →
    Wrote t.log n (World.persisted run) := by
  refine request (fun _ _ hgrows e he => by
    obtain ⟨-, rfl⟩ := he; exact ⟨h, hintro.mono hgrows.1⟩) ?_
  intro u c v u₁ _ _ hexec u' hu' n hn
  subst hn
  rcases World.writeNew_cases hexec with ⟨-, hno⟩ | ⟨-, rfl, hrev⟩
  · exact absurd rfl (hno n)
  · rw [hrev n rfl]
    exact ⟨site, none, (At.head u.log _).mono hu'.1⟩

end

/-- A compare-and-set needs to be allowed only over the run it was made
from. -/
lemma update {base : WorkflowRun} (hbase : Wrote w.log rev base)
    (h : ∀ t, w.Grows t → WriteOk o t.log site rev base (World.persisted run)) :
    Does o K w (Dagnats.request (.update site run rev)) fun rev' t =>
      Wrote t.log rev' (World.persisted run) := by
  refine request ?_ ?_
  · intro t _ hgrows e he
    obtain ⟨⟨base', hlatest⟩, rfl⟩ := he
    have heq := (World.latestIn_wrote hlatest).1.unique (hbase.mono hgrows.1)
    subst heq
    exact ⟨base', hlatest, h t hgrows⟩
  · intro u c v u₁ _ _ hexec u' hu'
    rcases World.compareAndSet_cases hexec with ⟨-, hno⟩ | ⟨_, -, rfl, hrev⟩
    · exact absurd rfl (hno v)
    · rw [hrev v rfl]
      exact ⟨site, some rev, (At.head u.log _).mono hu'.1⟩

end Does

end Dagnats
