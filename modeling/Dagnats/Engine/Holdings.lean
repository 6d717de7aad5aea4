import Dagnats.Engine.Ledger

/-!
# What runs hold

Slots and singleton locks are read off the log. This module says how they are
kept: whoever had a slot has it still, unless it was given back, and a lock
stays with its holder until it is moved or deleted. It also says which
definitions are in play, and which runs have ended.
-/

namespace Dagnats

open Interaction

variable {log log' older : List Entry} {key : SlotKey} {holder : String} {e : Entry} {i : ℕ}

def DefKey.name : DefKey → String
  | .latest name | .version name _ => name

/-- The definition that a start brings along. -/
def StartPayload.carried : StartPayload → Option WorkflowDef
  | .inline d _ | .bare d => some d
  | _ => none

/-- The definition was registered, or a run was started with it. -/
inductive InPlay (log : List Entry) (d : WorkflowDef) : Prop where
  | registered (key : DefKey) : .definition key d ∈ log → InPlay log d
  | started (e : Event) : .event e ∈ log → e.start.carried = some d → InPlay log d

lemma InPlay.mono {d : WorkflowDef} (h : InPlay log d) (hlog : log <:+ log') : InPlay log' d := by
  cases h with
  | registered key hmem => exact .registered key (hlog.subset hmem)
  | started e hmem hcarried => exact .started e (hlog.subset hmem) hcarried

def Ended (log : List Entry) (run : WorkflowRun) : Prop :=
  run.status.isTerminal = true ∧ ∃ rev, Wrote log rev run

lemma Ended.mono {run : WorkflowRun} (h : Ended log run) (hlog : log <:+ log') :
    Ended log' run := by
  obtain ⟨hterm, rev, hwrote⟩ := h
  exact ⟨hterm, rev, hwrote.mono hlog⟩

def HadSlot (log : List Entry) (key : SlotKey) (holder : String) : Prop :=
  ∃ older, older <:+ log ∧ holder ∈ World.slotsIn key older

lemma HadSlot.mono (h : HadSlot log key holder) (hlog : log <:+ log') :
    HadSlot log' key holder := by
  obtain ⟨older, hsuffix, hmem⟩ := h
  exact ⟨older, hsuffix.trans hlog, hmem⟩

/-- The slot was held when the log had reached position `i`, or later. -/
def HadSlotSince (i : ℕ) (log : List Entry) (key : SlotKey) (holder : String) : Prop :=
  ∃ older, older <:+ log ∧ i ≤ older.length ∧ holder ∈ World.slotsIn key older

lemma HadSlotSince.mono (h : HadSlotSince i log key holder) (hlog : log <:+ log') :
    HadSlotSince i log' key holder := by
  obtain ⟨older, hsuffix, hlength, hmem⟩ := h
  exact ⟨older, hsuffix.trans hlog, hlength, hmem⟩

lemma HadSlotSince.hadSlot (h : HadSlotSince i log key holder) : HadSlot log key holder := by
  obtain ⟨older, hsuffix, -, hmem⟩ := h
  exact ⟨older, hsuffix, hmem⟩

lemma World.mem_slotsIn_cons (h : holder ∈ slotsIn key older) :
    holder ∈ slotsIn key (e :: older) ∨ ∃ n, e = .notice n ∧ n.frees key = some holder := by
  cases e with
  | acquired key' other =>
    left
    simp only [slotsIn]
    split
    · exact List.mem_append_left _ h
    · exact h
  | notice n =>
    simp only [slotsIn]
    cases hfrees : n.frees key with
    | none => exact .inl h
    | some other =>
      by_cases heq : holder = other
      · exact .inr ⟨n, rfl, heq ▸ hfrees⟩
      · exact .inl (Semaphore.mem_release.mpr ⟨h, heq⟩)
  | _ => exact .inl h

lemma World.mem_slotsIn_since (hlog : older <:+ log) (h : holder ∈ slotsIn key older) :
    holder ∈ slotsIn key log ∨ ∃ i n, older.length ≤ i ∧ At log i (.notice n) ∧ n.frees key =
    some holder := by
  induction log with
  | nil => exact .inl (List.suffix_nil.mp hlog ▸ h)
  | cons e rest ih =>
    rcases List.suffix_cons_iff.mp hlog with rfl | hrest
    · exact .inl h
    · rcases ih hrest with hmem | ⟨i, n, hi, hat, hfrees⟩
      · refine (mem_slotsIn_cons hmem).imp id fun ⟨n, he, hfrees⟩ => ?_
        exact ⟨rest.length, n, hrest.length_le, he ▸ At.head rest _, hfrees⟩
      · exact .inr ⟨i, n, hi, hat.mono (List.suffix_cons e rest), hfrees⟩

lemma HadSlot.mem (h : HadSlot log key holder)
    (hkept : ∀ n, .notice n ∈ log → n.frees key ≠ some holder) :
    holder ∈ World.slotsIn key log := by
  obtain ⟨older, hsuffix, hmem⟩ := h
  rcases World.mem_slotsIn_since hsuffix hmem with hmem | ⟨i, n, -, hat, hfrees⟩
  · exact hmem
  · exact absurd hfrees (hkept n hat.mem)

lemma World.slotsIn_inBounds {P : List Entry → Entry → Prop} {limit : ℤ} (hlimit : 0 ≤ limit)
    (h : History P log) (hroom : ∀ older holder, P older (.acquired key holder) →
      holder ∉ slotsIn key older ∧ ((slotsIn key older).length : ℤ) < limit) :
    Semaphore.InBounds limit (slotsIn key log) := by
  induction h with
  | nil => exact .nil hlimit
  | @cons older e _ happ ih =>
    cases e with
    | acquired key' holder =>
      simp only [slotsIn]
      split
      · next hkey =>
        obtain ⟨hmem, hlt⟩ := hroom older holder (hkey ▸ happ)
        exact ih.append hmem hlt
      · exact ih
    | notice n =>
      simp only [slotsIn]
      split
      · exact ih.release _
      · exact ih
    | _ => exact ih

/-- The lock named the run at some time. -/
def HadLock (log : List Entry) (key runID : String) : Prop :=
  ∃ older rev lock created, older <:+ log ∧
    World.lockIn key older = some (rev, lock, created) ∧ lock.runID = runID

lemma HadLock.mono {key runID : String} (h : HadLock log key runID) (hlog : log <:+ log') :
    HadLock log' key runID := by
  obtain ⟨older, rev, lock, created, hsuffix, hlock⟩ := h
  exact ⟨older, rev, lock, created, hsuffix.trans hlog, hlock⟩

/-- At some time since position `n` nothing was stored under the name of the run. -/
def MissingSince (n : ℕ) (log : List Entry) (runID : String) : Prop :=
  ∃ seen, seen <:+ log ∧ n ≤ seen.length ∧ World.latestIn runID seen = none

/-- Why the holder of a lock taken at position `rev` may be replaced at an instant: the
lock names nobody, its holder has ended, or the claimer found, as it noted (`unsaved`),
that the holder was not stored, and the time for that is over. -/
def LetGo (log : List Entry) (rev : ℕ) (lock : SingletonLock) (created now : Time)
    (unsaved : Bool) : Prop :=
  lock.runID = "" ∨ (∃ run, Ended log run ∧ run.runID = lock.runID) ∨
    (unsaved = true ∧ MissingSince (rev + 1) log lock.runID ∧
      singletonUnsavedGrace ≤ now - created)

lemma LetGo.mono {rev : ℕ} {lock : SingletonLock} {created now now' : Time} {unsaved : Bool}
    (h : LetGo log rev lock created now unsaved) (hlog : log <:+ log') (hnow : now ≤ now') :
    LetGo log' rev lock created now' unsaved := by
  rcases h with h | ⟨run, hrun, hid⟩ | ⟨hunsaved, ⟨seen, hseen, hmissing⟩, h⟩
  · exact .inl h
  · exact .inr (.inl ⟨run, hrun.mono hlog, hid⟩)
  · exact .inr (.inr ⟨hunsaved, ⟨seen, hseen.trans hlog, hmissing⟩,
      Int.le_trans h (Int.sub_le_sub_right hnow created)⟩)

def Entry.movesLock (key : String) : Entry → Prop
  | .lock key' _ _ | .unlocked key' _ => key' = key
  | _ => False

lemma World.lockIn_cons_of_ne {key : String} (h : ¬e.movesLock key) :
    lockIn key (e :: older) = lockIn key older := by
  cases e with
  | lock key' lock at_ | unlocked key' runID => exact if_neg h
  | _ => rfl

lemma World.lockIn_since {key : String} (hlog : older <:+ log) : lockIn key log =
    lockIn key older ∨ ∃ e mid, older <:+ mid ∧ (e :: mid) <:+ log ∧ e.movesLock key ∧
    lockIn key mid = lockIn key older := by
  induction log with
  | nil => exact .inl (List.suffix_nil.mp hlog ▸ rfl)
  | cons e rest ih =>
    rcases List.suffix_cons_iff.mp hlog with rfl | hrest
    · exact .inl rfl
    · rcases ih hrest with hsame | ⟨e', mid, hmid, hin, hmoves, hsame⟩
      · by_cases hmoves : e.movesLock key
        · exact .inr ⟨e, rest, hrest, List.suffix_rfl, hmoves, hsame⟩
        · exact .inl ((lockIn_cons_of_ne hmoves).trans hsame)
      · exact .inr ⟨e', mid, hmid, hin.trans (List.suffix_cons e rest), hmoves, hsame⟩

end Dagnats
