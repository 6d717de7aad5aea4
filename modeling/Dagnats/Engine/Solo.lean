import Dagnats.Interaction.Rerun
import Dagnats.Engine.Alike

/-!
# A handler that has a run to itself

The sequential view of one handler: nobody else writes the run it works on,
while everything else in the world goes on. All that the handler can tell about
its run is then a matter of the writes of that run, newest first.

`Watch` fixes the run, the log at the beginning and a property of the writes;
`Attends` is the obligation of a program under a watch. A program that makes no
write of any run is `Quiet`, by its text, and every quiet program attends.
-/

namespace Dagnats

open Interaction

variable {run : WorkflowRun} {op : Call}

def Entry.writes (runID : String) : Entry → Bool
  | .snapshot _ _ run => run.runID = runID
  | _ => false

/-- The writes of a run, newest first. -/
def World.writes (w : World) (runID : String) : List Entry :=
  w.log.filter (Entry.writes runID)

/-- The run that the last of the writes has stored. -/
def lastRun : List Entry → Option WorkflowRun
  | .snapshot _ _ run :: _ => some run
  | _ => none

lemma World.lastRun_writes (w : World) (runID : String) :
    lastRun (w.writes runID) = (w.latest runID).map (·.2) := by
  unfold World.writes World.latest
  induction w.log with
  | nil => rfl
  | cons e older ih =>
    cases e with
    | snapshot site prior run =>
      rw [World.latestIn_snapshot]
      by_cases hid : run.runID = runID
      · simp [Entry.writes, hid, lastRun]
      · simpa [Entry.writes, hid] using ih
    | _ => simpa [Entry.writes, World.latestIn] using ih

/-- The others append to the log but do not write the run. -/
structure Apart (runID : String) (w w' : World) : Prop where
  log : w.log <:+ w'.log
  writes : w'.writes runID = w.writes runID

namespace Apart

variable {runID : String} {w w' w'' : World}

lemma refl (w : World) : Apart runID w w :=
  ⟨List.suffix_rfl, rfl⟩

lemma trans (h : Apart runID w w') (h' : Apart runID w' w'') : Apart runID w w'' :=
  ⟨h.log.trans h'.log, h'.writes.trans h.writes⟩

lemma push {e : Entry} (h : e.writes runID = false) : Apart runID w (w.push e) :=
  ⟨List.suffix_cons e w.log, by simp [World.writes, World.push, h]⟩

lemma of_exec {c : Choice} {a : Answer op} (h : w.exec op c = some (a, w'))
    (hop : op.write = none) : Apart runID w w' := by
  rcases World.exec_cases h with rfl | ⟨e, happ, rfl⟩
  · exact refl _
  · refine push ?_
    cases e with
    | snapshot site prior run =>
      rw [happ.write] at hop
      cases hop
    | _ => rfl

end Apart

/-! ## Bookkeeping -/

/-- The sites that write a run again without changing what its steps do. -/
def bookkeeping : Site → Bool
  | .markSent | .settleInputs => true
  | _ => false

/-- Since `ws` only bookkeeping was written. -/
inductive Tended (ws : List Entry) : List Entry → Prop where
  | refl : Tended ws ws
  | write {ws' : List Entry} {site : Site} {prior : Option ℕ}
      {stored run : WorkflowRun} : Tended ws ws' → bookkeeping site = true →
      lastRun ws' = some stored → Alike stored run →
      Tended ws (.snapshot site prior run :: ws')

/-- A property of the writes that bookkeeping does not disturb. -/
def Tolerant (P : List Entry → Prop) : Prop :=
  ∀ {ws site prior stored run}, bookkeeping site = true →
    lastRun ws = some stored → Alike stored run → P ws → P (.snapshot site prior run :: ws)

namespace Tended

variable {ws ws' ws'' : List Entry}

lemma trans (h : Tended ws ws') (h' : Tended ws' ws'') : Tended ws ws'' := by
  induction h' with
  | refl => exact h
  | write _ hsite hlast hlike ih => exact .write ih hsite hlast hlike

lemma suffix (h : Tended ws ws') : ws <:+ ws' := by
  induction h with
  | refl => exact List.suffix_rfl
  | write _ _ _ _ ih => exact ih.trans (List.suffix_cons _ _)

lemma tolerant {P : List Entry → Prop} (hP : Tolerant P) (h : Tended ws ws')
    (hws : P ws) : P ws' := by
  induction h with
  | refl => exact hws
  | write _ hsite hlast hlike ih => exact hP hsite hlast hlike ih

lemma lastRun (h : Tended ws ws') (hws : Dagnats.lastRun ws = some run) :
    ∃ stored, Dagnats.lastRun ws' = some stored ∧ Alike run stored := by
  induction h with
  | refl => exact ⟨run, hws, .refl run⟩
  | write _ _ hlast hlike ih =>
    obtain ⟨stored, hstored, hrun⟩ := ih
    rw [hlast] at hstored
    cases hstored
    exact ⟨_, rfl, hrun.trans hlike⟩

end Tended

/-! ## Watches -/

def EndedSince (start ws : List Entry) : Prop :=
  ∃ new, ws = new ++ start ∧ ∃ site prior run,
    .snapshot site prior run ∈ new ∧ run.status.isTerminal = true

lemma EndedSince.suffix {start ws : List Entry} (h : EndedSince start ws) : start <:+ ws := by
  obtain ⟨new, rfl, -⟩ := h
  exact List.suffix_append new start

lemma EndedSince.cons {start ws : List Entry} (h : EndedSince start ws)
    (e : Entry) : EndedSince start (e :: ws) := by
  obtain ⟨new, rfl, site, prior, run, hmem, hterm⟩ := h
  exact ⟨e :: new, rfl, site, prior, run, .tail _ hmem, hterm⟩

/-- What is watched while a handler works on a run. The log at the beginning is
`base`; `keeps` has to hold of the writes of the run all the way. -/
structure Watch where
  runID : String
  base : World
  keeps : List Entry → Prop
  extends_start : ∀ {ws}, keeps ws → base.writes runID <:+ ws
  keeps_tended : Tolerant keeps

/-- The watch lets the run end. -/
class Watch.Endable (W : Watch) : Prop where
  keeps_ended : ∀ {ws}, EndedSince (W.base.writes W.runID) ws → W.keeps ws

namespace Watch

variable (W : Watch)

/-- A terminal status was stored since the beginning. -/
def Ended (w : World) : Prop :=
  EndedSince (W.base.writes W.runID) (w.writes W.runID)

/-- What holds of every world on the way. -/
structure Holds (w : World) : Prop where
  base : W.base.log <:+ w.log
  keeps : W.keeps (w.writes W.runID)

variable {W}

lemma Holds.apart {w w' : World} (h : W.Holds w) (hw : Apart W.runID w w') : W.Holds w' :=
  ⟨h.base.trans hw.log, hw.writes ▸ h.keeps⟩

lemma Ended.apart {w w' : World} (h : W.Ended w) (hw : Apart W.runID w w') : W.Ended w' := by
  unfold Ended at h ⊢
  rw [hw.writes]
  exact h

end Watch

def solo (o : Orchestrator) (W : Watch) : Contract o.system where
  inv := W.Holds
  rely := Apart W.runID
  grows w w' := w.log <:+ w'.log
  ok _ _ := True
  guar _ _ _ w' := W.Holds w'
  rely_refl := Apart.refl
  rely_trans := Apart.trans
  grows_trans h h' := h.trans h'
  rely_grows h := h.log
  exec_grows h := (World.exec_grows h).1

/-- Where every write keeps a property that is enough for the watch, no program
can break it. -/
lemma safe_of_stable {o : Orchestrator} {W : Watch} {α : Type} {w : World}
    {P : List Entry → Prop} (hcons : ∀ {ws} (e : Entry), P ws → P (e :: ws))
    (hkeeps : ∀ {ws}, P ws → W.keeps ws) (h : P (w.writes W.runID)) (p : M α) :
    Safe (solo o W) (fun _ t => P (t.writes W.runID)) p w := by
  have happart : ∀ {w t}, P (w.writes W.runID) → Apart W.runID w t →
      P (t.writes W.runID) := fun h hwt => hwt.writes ▸ h
  induction p generalizing w with
  | pure a | fail e => exact fun t _ hwt => happart h hwt
  | call op k ih =>
    intro t ht hwt _ c a u hexec
    have hbefore : P (t.writes W.runID) := happart h hwt
    have hnow : P (u.writes W.runID) := by
      rcases World.exec_cases hexec with rfl | ⟨e, -, rfl⟩
      · exact hbefore
      · by_cases he : e.writes W.runID = true
        · have hwrites : (t.push e).writes W.runID = e :: t.writes W.runID :=
            List.filter_cons_of_pos he
          rw [hwrites]
          exact hcons e hbefore
        · exact happart hbefore (Apart.push (by simpa using he))
    have hgrows : t.log <:+ u.log := (World.exec_grows hexec).1
    exact ⟨⟨ht.base.trans hgrows, hkeeps hnow⟩, fun _ => ih a hnow⟩

/-- The program keeps the watch and returns with `J`; where it reports that the
run is finalized, the run has ended. -/
def Attends (o : Orchestrator) (W : Watch) {α : Type} (w : World) (p : M α)
    (J : α → World → Prop) : Prop :=
  Safe (solo o W) (post J fun e t => e = .runFinalized → W.Ended t) p w

namespace Attends

variable {o : Orchestrator} {W : Watch} {α β : Type} {w t : World} {p : M α} {f : α → M β}
  {J J' : α → World → Prop} {Q : β → World → Prop}

lemma pure {a : α} (h : ∀ t, W.Holds t → Apart W.runID w t → J a t) :
    Attends o W w (Prog.pure a) J := h

lemma fail {e : Err} (he : e ≠ .runFinalized) : Attends o W w (Prog.fail e : M α) J :=
  fun _ _ _ h => absurd h he

section

variable (hp : Attends o W w p J)
include hp

lemma bind (hf : ∀ a t, W.Holds t → J a t → Attends o W t (f a) Q) : Attends o W w (p.bind f) Q :=
  Safe.bind hp (fun a t ht _ hJ => hf a t ht hJ) fun _ _ _ _ he => he

lemma conseq (h : ∀ a t, W.Holds t → J a t → J' a t) : Attends o W w p J' := by
  refine Safe.conseq hp fun r t ht _ hr => ?_
  cases r with
  | ok a => exact h a t ht hr
  | error e => exact hr

lemma and (hp' : Attends o W w p J') : Attends o W w p fun a t => J a t ∧ J' a t := by
  refine Safe.conseq (Safe.and hp hp') fun r t _ _ hr => ?_
  cases r with
  | ok a => exact hr
  | error e => exact hr.1

lemma outcome : Attends o W w (Dagnats.outcome p) fun r t => (∀ a, r = .ok a → J a t) ∧
    (r = .error .runFinalized → W.Ended t) := by
  refine Safe.attempt hp ?_ ?_ fun e t _ _ he _ => he
  · intro a t _ _ hJ
    refine ⟨fun b hb => ?_, by simp⟩
    cases hb
    exact hJ
  · intro e t _ _ he _
    refine ⟨by simp, fun h => ?_⟩
    cases h
    exact he rfl

end

lemma ite {c : Prop} [Decidable c] {q : M α} (hp : c → Attends o W w p J)
    (hq : ¬c → Attends o W w q J) : Attends o W w (if c then p else q) J := by
  split
  · next h => exact hp h
  · next h => exact hq h

/-- What every write keeps, once the run has ended, every program keeps. -/
lemma of_stable {P : List Entry → Prop} (hcons : ∀ {ws} (e : Entry), P ws → P (e :: ws))
    (hkeeps : ∀ {ws}, P ws → W.keeps ws)
    (hended : ∀ {ws}, P ws → EndedSince (W.base.writes W.runID) ws)
    (h : P (w.writes W.runID)) (p : M α) :
    Attends o W w p fun _ t => P (t.writes W.runID) := by
  refine Safe.conseq (safe_of_stable hcons hkeeps h p) fun r t _ _ ht => ?_
  cases r with
  | ok a => exact ht
  | error e => exact fun _ => hended ht

lemma of_ended [W.Endable] (h : W.Ended w) (p : M α) : Attends o W w p fun _ t => W.Ended t :=
  of_stable (fun e h => h.cons e) Watch.Endable.keeps_ended (fun h => h) h p

/-- The rest of a program may be held to another postcondition of its errors. -/
lemma followed {Q : β → World → Prop} {E : Err → World → Prop} (hp : Attends o W w p J)
    (hE : ∀ e t, (e = .runFinalized → W.Ended t) → E e t)
    (hf : ∀ a t, W.Holds t → J a t → Safe (solo o W) (post Q E) (f a) t) :
    Safe (solo o W) (post Q E) (p.bind f) w :=
  Safe.bind hp (fun a t ht _ hJ => hf a t ht hJ) fun e t _ _ he => hE e t he

end Attends

/-! ## Quiet programs -/

/-- No call is answered with the error that the engine keeps for itself. -/
def conceivable (op : Call) (a : Answer op) : Prop :=
  a ≠ .error .runFinalized

lemma World.exec_conceivable {w w' : World} {c : Choice} {a : Answer op}
    (h : w.exec op c = some (a, w')) : conceivable op a := by
  rintro rfl
  have hcommit : ∀ {α : Type} {e : Entry} {v : α},
      w.commit e v c ≠ some (.error .runFinalized, w') := by
    intro α e v h
    cases c <;> cases h
  have hquestion : w.question c ≠ some (.error .runFinalized, w') := by
    intro h
    cases c <;> cases h
  have hconditional : ∀ {condition : Bool} {e : Entry},
      w.conditional condition e c ≠ some (.error .runFinalized, w') := by
    intro condition e h
    unfold World.conditional at h
    split at h
    · exact hcommit h
    · cases c <;> cases h
  cases op
  case now | newNonce => cases c <;> cases h
  case newID =>
    cases c <;> simp only [World.exec, World.mintID, reduceCtorEq] at h
    split at h <;> cases h
  case load =>
    cases c <;> simp only [World.exec, World.read, reduceCtorEq] at h
    · split at h <;> cases h
    · cases h
  case put => exact hcommit h
  case create =>
    simp only [World.exec, World.writeNew] at h
    split at h
    · exact hcommit h
    · cases c <;> cases h
  case update =>
    simp only [World.exec, World.compareAndSet] at h
    split at h
    · exact hcommit h
    · cases c <;> cases h
  case listRuns =>
    cases c <;> simp only [World.exec, World.list, reduceCtorEq] at h
    · cases h
    · obtain ⟨_, _, h⟩ := Option.map_eq_some_iff.mp h
      cases h
  case getDef =>
    cases c <;> simp only [World.exec, World.readDef, reduceCtorEq] at h
    · cases h
    · cases h
    · split at h
      · split at h <;> cases h
      · cases h
  case createDef | task | timer | event | waiter | removeWaiters => exact hcommit h
  case taskQueued =>
    change (if _ then none else w.question c) = _ at h
    split at h
    · cases h
    · exact hquestion h
  case createLock =>
    simp only [World.exec, World.claimLock] at h
    split at h
    · cases h
    · exact hconditional h
  case getLock => cases c <;> cases h
  case updateLock | deleteLock => exact hconditional h
  case allow =>
    cases c
    case wait ms => cases ms <;> cases h
    all_goals cases h
  case acquire =>
    simp only [World.exec, World.acquire] at h
    split at h
    · cases c <;> cases h
    · exact hconditional h
  case getWorker => cases c <;> cases h
  case inputsQueued => exact hquestion h
  case notify => cases c <;> cases h

/-- Whatever the answers, the program writes no run and returns only values
with `J`. -/
def Quiet {α : Type} (p : M α) (J : α → Prop) : Prop :=
  p.Within conceivable (fun op => op.write = none) fun r =>
    match r with
    | .ok a => J a
    | .error e => e ≠ .runFinalized

abbrev Silent {α : Type} (p : M α) : Prop := Quiet p fun _ => True

namespace Quiet

variable {α β : Type} {p : M α} {f : α → M β} {J J' : α → Prop} {Q : β → Prop}

lemma pure {a : α} (h : J a) : Quiet (Prog.pure a) J := h

lemma ends {a : α} : Silent (Prog.pure a) := trivial

lemma fail {e : Err} (he : e ≠ .runFinalized) : Quiet (Prog.fail e : M α) J := he

lemma panic {msg : String} : Quiet (Dagnats.panic msg : M α) J :=
  fail (by simp)

lemma other {msg : String} : Quiet (Dagnats.throw (.other msg) : M α) J :=
  fail (by simp)

section

variable (hp : Quiet p J)
include hp

lemma bind (hf : ∀ a, J a → Quiet (f a) Q) : Quiet (p.bind f) Q :=
  Prog.Within.bind hp hf fun _ he => he

lemma conseq (h : ∀ a, J a → J' a) : Quiet p J' := by
  refine Prog.Within.conseq hp fun r hr => ?_
  cases r with
  | ok a => exact h a hr
  | error e => exact hr

lemma outcome : Quiet (Dagnats.outcome p) fun r => (∀ a, r = .ok a → J a) ∧
    r ≠ .error .runFinalized := by
  refine Prog.Within.attempt hp (fun a ha => ⟨fun b hb => ?_, by simp⟩)
    (fun e he => ⟨by simp, fun h => ?_⟩) fun e he => he
  · cases hb
    exact ha
  · cases h
    exact he rfl

lemma ignoring : Silent (Dagnats.ignoring p) :=
  hp.outcome.bind fun _ _ => ends

lemma attends {o : Orchestrator} {W : Watch} {w : World} :
    Attends o W w p fun a t => J a ∧ Apart W.runID w t := by
  induction p generalizing w with
  | pure a => exact fun t _ hwt => ⟨hp, hwt⟩
  | fail e => exact fun t _ _ he => absurd he hp
  | call op k ih =>
    intro t ht hwt _ c a u hexec
    have htu : Apart W.runID t u := Apart.of_exec hexec hp.1
    refine ⟨ht.apart htu, fun _ => ?_⟩
    have hk : Quiet (k a) J := hp.2 a (World.exec_conceivable hexec)
    exact (ih a hk).conseq fun b v _ hb => ⟨hb.1, (hwt.trans htu).trans hb.2⟩

end

lemma ite {c : Prop} [Decidable c] {q : M α} (hp : c → Quiet p J)
    (hq : ¬c → Quiet q J) : Quiet (if c then p else q) J := by
  split
  · next h => exact hp h
  · next h => exact hq h

lemma guard {c : Prop} [Decidable c] {msg : String} {q : M α} (hq : ¬c → Quiet q J) :
    Quiet (if c then Dagnats.panic msg else q) J :=
  ite (fun _ => panic) hq

lemma early {c : Prop} [Decidable c] {a : α} {q : M α} (hq : ¬c → Silent q) :
    Silent (if c then Prog.pure a else q) :=
  ite (fun _ => ends) hq

lemma fold {as : List α} {b : β} {g : β → α → M β} {I : β → Prop} (hinit : I b)
    (hround : ∀ a ∈ as, ∀ b, I b → Quiet (g b a) I) : Quiet (Prog.fold g as b) I :=
  Prog.Within.fold hinit hround

lemma request (h : op.write = none) : Silent (Dagnats.request op) := by
  refine ⟨h, fun a ha => ?_⟩
  cases a with
  | ok v => exact trivial
  | error e => exact fun he => ha (he ▸ rfl)

end Quiet

end Dagnats
