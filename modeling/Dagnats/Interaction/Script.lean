import Dagnats.Interaction.Program

/-!
# Scripts

Finite schedules that can be executed. A script mixes single scheduling
decisions with orders to drive one program on, where a policy decides how its
calls end. Every decision is checked first, so that a script that runs through
witnesses a run that meets the conditions.
-/

namespace Interaction

variable {Op : Type} {Ans : Op → Type} {ε σ : Type}

/-- Executable conditions. -/
structure Checks (S : System Op Ans ε σ) where
  call : σ → Op → Bool
  job : σ → S.Job → Bool
  move : σ → S.Move → Bool

section

variable {S : System Op Ans ε σ}

def Checks.free : Checks S :=
  ⟨fun _ _ => true, fun _ _ => true, fun _ _ => true⟩

/-- What passes the checks meets the conditions. -/
structure Checks.Sound (C : Checks S) (A : Conditions S) : Prop where
  call : ∀ {s op}, C.call s op = true → A.call s op
  job : ∀ {s j}, C.job s j = true → A.job s j
  move : ∀ {s m}, C.move s m = true → A.move s m

lemma Checks.free_sound : (Checks.free : Checks S).Sound Conditions.free :=
  ⟨fun _ => trivial, fun _ => trivial, fun _ => trivial⟩

end

inductive Order (S : System Op Ans ε σ) where
  | act (a : Act S)
  /-- Drive the program at a position for at most so many calls. -/
  | drive (choose : σ → Op → S.Choice) (i n : ℕ)

namespace Pool

variable {S : System Op Ans ε σ} {C : Checks S} {A : Conditions S}

def passes (C : Checks S) (p : Pool S) : Act S → Bool
  | .start j => C.job p.state j
  | .step i _ => (p.nextCall i).all fun op => C.call p.state op
  | .drop _ => true
  | .ext m => C.move p.state m

/-- A decision that is taken only if it passes the checks. -/
def checked (C : Checks S) (p : Pool S) (a : Act S) : Option (Pool S) :=
  if p.passes C a then p.act a else none

/-- Drive the program at a position until it ends or the calls are used up. -/
def drive (C : Checks S) (choose : σ → Op → S.Choice) (i : ℕ) : ℕ → Pool S → Option (Pool S)
  | 0, p => some p
  | n + 1, p =>
    match p.nextCall i with
    | none => some p
    | some op =>
      match p.checked C (.step i (choose p.state op)) with
      | some q => drive C choose i n q
      | none => none

def obey (C : Checks S) (p : Pool S) : Order S → Option (Pool S)
  | .act a => p.checked C a
  | .drive choose i n => p.drive C choose i n

def follow (C : Checks S) (p : Pool S) : List (Order S) → Option (Pool S)
  | [] => some p
  | order :: orders =>
    match p.obey C order with
    | some q => q.follow C orders
    | none => none

variable {p : Pool S} (hC : C.Sound A)
include hC

lemma meets_of_passes {a : Act S}
    (h : p.passes C a = true) : Meets A p a := by
  cases a with
  | start j => exact hC.job h
  | step i c =>
    intro op hop
    simp only [passes, hop, Option.all_some] at h
    exact hC.call h
  | drop i => trivial
  | ext m => exact hC.move h

lemma reaches_checked {q r : Pool S} {a : Act S}
    (hq : Reaches A p q) (h : q.checked C a = some r) : Reaches A p r := by
  unfold checked at h
  split at h
  · next hpasses => exact hq.tail a (meets_of_passes hC hpasses) h
  · cases h

lemma reaches_drive {choose : σ → Op → S.Choice} {i n : ℕ} {q r : Pool S}
    (hq : Reaches A p q) (h : q.drive C choose i n = some r) : Reaches A p r := by
  induction n generalizing q with
  | zero =>
    cases h
    exact hq
  | succ n ih =>
    simp only [drive] at h
    split at h
    · cases h
      exact hq
    · split at h
      · next q' hq' => exact ih (reaches_checked hC hq hq') h
      · cases h

lemma reaches_follow {q r : Pool S} {orders : List (Order S)}
    (hq : Reaches A p q) (h : q.follow C orders = some r) : Reaches A p r := by
  induction orders generalizing q with
  | nil =>
    cases h
    exact hq
  | cons order orders ih =>
    simp only [follow] at h
    split at h
    · next q' hq' =>
      refine ih ?_ h
      cases order with
      | act a => exact reaches_checked hC hq hq'
      | drive choose i n => exact reaches_drive hC hq hq'
    · cases h

/-- A script whose last pool passes a test leads to such a pool. -/
lemma exists_reaches_of_follow {orders : List (Order S)}
    {test : Pool S → Bool} (h : (p.follow C orders).any test = true) : ∃ q, Reaches A p q ∧ test q =
    true := by
  obtain ⟨q, hq, htest⟩ := (Option.any_eq_true ..).mp h
  exact ⟨q, reaches_follow hC .refl hq, htest⟩

lemma reaches_of_script (p : Pool S) (orders : List (Order S))
    (test : Pool S → Bool) (h : (p.follow C orders).any test = true := by decide +kernel) : ∃ q,
    Reaches A p q ∧ test q = true :=
  exists_reaches_of_follow hC h

end Pool

end Interaction
