import Mathlib.Data.List.Basic

/-!
# Programs over external calls

A program is a tree of external calls; it continues with whatever the outside
world answers. A `System` gives the calls their meaning by an executable
function of the shared state and of a *choice*, the part of the answer that the
outside world is free to make (a failed call, a lost acknowledgement, the value
of an unmodelled service).

A `Pool` is a shared state with any number of programs. Its steps interleave
them call by call, start new ones, drop one at any point (a crash), and let the
environment move the state.
-/

namespace Interaction

/-- A program that performs calls `Op`, receives answers `Ans op`, and ends in
a value or in an error. -/
inductive Prog (Op : Type) (Ans : Op → Type) (ε α : Type) where
  | pure (a : α)
  | fail (e : ε)
  | call (op : Op) (k : Ans op → Prog Op Ans ε α)

variable {Op : Type} {Ans : Op → Type} {ε σ α β γ : Type}

namespace Prog

/-- Sequencing: errors of the first program end the whole. -/
def bind : Prog Op Ans ε α → (α → Prog Op Ans ε β) → Prog Op Ans ε β
  | .pure a, f => f a
  | .fail e, _ => .fail e
  | .call op k, f => .call op fun r => (k r).bind f

instance : Monad (Prog Op Ans ε) where
  pure := Prog.pure
  bind := Prog.bind

def perform (op : Op) : Prog Op Ans ε (Ans op) :=
  .call op .pure

/-- Run a program and return its error as a value, where `catches` says so. -/
def attempt (catches : ε → Bool) : Prog Op Ans ε α → Prog Op Ans ε (Except ε α)
  | .pure a => .pure (.ok a)
  | .fail e => if catches e then .pure (.error e) else .fail e
  | .call op k => .call op fun r => (k r).attempt catches

/-- A loop over a list that threads an accumulator. -/
def fold (f : β → α → Prog Op Ans ε β) : List α → β → Prog Op Ans ε β
  | [], b => .pure b
  | a :: as, b => (f b a).bind fun b' => fold f as b'

/-- With these calls and answers, in this order, the program comes to its end. -/
inductive Yields : Prog Op Ans ε α → List ((op : Op) × Ans op) → Except ε α → Prop where
  | pure (a : α) : Yields (.pure a) [] (.ok a)
  | fail (e : ε) : Yields (.fail e) [] (.error e)
  | call {op : Op} {k : Ans op → Prog Op Ans ε α} (a : Ans op)
      {trace : List ((op : Op) × Ans op)} {r : Except ε α} :
      Yields (k a) trace r → Yields (.call op k) (⟨op, a⟩ :: trace) r

lemma bind_assoc (p : Prog Op Ans ε α) (f : α → Prog Op Ans ε β)
    (g : β → Prog Op Ans ε γ) : (p.bind f).bind g = p.bind fun a => (f a).bind g := by
  induction p with
  | pure a | fail e => rfl
  | call op k ih => exact congrArg (Prog.call op) (funext fun a => ih a)

end Prog

/-- The meaning of the calls, the programs that may be started, and the moves
the environment makes by itself. -/
structure System (Op : Type) (Ans : Op → Type) (ε σ : Type) where
  Choice : Type
  exec : σ → (op : Op) → Choice → Option (Ans op × σ)
  Job : Type
  start : σ → Job → Option (Prog Op Ans ε Unit)
  Move : Type
  move : σ → Move → Option σ

/-- A shared state and the programs running over it. -/
structure Pool (S : System Op Ans ε σ) where
  state : σ
  threads : List (S.Job × Prog Op Ans ε Unit)

inductive Act (S : System Op Ans ε σ) where
  | start (j : S.Job)
  | step (i : ℕ) (c : S.Choice)
  | drop (i : ℕ)
  | ext (m : S.Move)

/-- Conditions on the single steps of a run: each speaks of the state before
the step and of what the step is about to do. -/
structure Conditions (S : System Op Ans ε σ) where
  call : σ → Op → Prop
  job : σ → S.Job → Prop
  move : σ → S.Move → Prop

def Conditions.free {S : System Op Ans ε σ} : Conditions S :=
  ⟨fun _ _ => True, fun _ _ => True, fun _ _ => True⟩

namespace Pool

variable {S : System Op Ans ε σ}

def initial (s : σ) : Pool S :=
  ⟨s, []⟩

def act (p : Pool S) : Act S → Option (Pool S)
  | .start j =>
    (S.start p.state j).map fun prog => ⟨p.state, p.threads ++ [(j, prog)]⟩
  | .step i c =>
    match p.threads[i]? with
    | some (j, .call op k) =>
      match S.exec p.state op c with
      | some (a, s) => some ⟨s, p.threads.set i (j, k a)⟩
      | none => none
    | _ => none
  | .drop i => some ⟨p.state, p.threads.eraseIdx i⟩
  | .ext m => (S.move p.state m).map fun s => ⟨s, p.threads⟩

/-- The call the `i`-th program is about to make. -/
def nextCall (p : Pool S) (i : ℕ) : Option Op :=
  match p.threads[i]? with
  | some (_, .call op _) => some op
  | _ => none

def Meets (A : Conditions S) (p : Pool S) : Act S → Prop
  | .start j => A.job p.state j
  | .step i _ => ∀ op, p.nextCall i = some op → A.call p.state op
  | .drop _ => True
  | .ext m => A.move p.state m

/-- `q` is reached from `p` by scheduling decisions that all meet the
conditions in the pool they are taken in. -/
inductive Reaches (A : Conditions S) (p : Pool S) : Pool S → Prop where
  | refl : Reaches A p p
  | tail {q r : Pool S} (a : Act S) : Reaches A p q → Meets A q a → q.act a = some r → Reaches A p r

lemma Reaches.mono {A B : Conditions S} {p q : Pool S} (h : Reaches A p q)
    (hAB : ∀ q a, Meets A q a → Meets B q a) : Reaches B p q := by
  induction h with
  | refl => exact .refl
  | tail a _ hmeets hact ih => exact .tail a ih (hAB _ a hmeets) hact

lemma Reaches.free {A : Conditions S} {p q : Pool S} (h : Reaches A p q) :
    Reaches Conditions.free p q := by
  refine h.mono fun q a _ => ?_
  cases a with
  | step i c => exact fun _ _ => trivial
  | _ => trivial

lemma act_cases {p q : Pool S} {a : Act S} (h : p.act a = some q) :
    (∃ j prog, a = .start j ∧ S.start p.state j = some prog ∧
      q = ⟨p.state, p.threads ++ [(j, prog)]⟩) ∨
    (∃ i c j op k r s, a = .step i c ∧ p.threads[i]? = some (j, .call op k) ∧
      S.exec p.state op c = some (r, s) ∧
      q = ⟨s, p.threads.set i (j, k r)⟩) ∨
    (∃ i, a = .drop i ∧ q = ⟨p.state, p.threads.eraseIdx i⟩) ∨
    (∃ m s, a = .ext m ∧ S.move p.state m = some s ∧ q = ⟨s, p.threads⟩) := by
  cases a with
  | start j =>
    left
    simp only [act, Option.map_eq_some_iff] at h
    obtain ⟨prog, hprog, rfl⟩ := h
    exact ⟨j, prog, rfl, hprog, rfl⟩
  | step i c =>
    right; left
    simp only [act] at h
    split at h
    · rename_i j op k hthread
      split at h
      · rename_i r s hexec
        exact ⟨i, c, j, op, k, r, s, rfl, hthread, hexec, (Option.some.inj h).symm⟩
      · cases h
    · cases h
  | drop i =>
    right; right; left
    exact ⟨i, rfl, (Option.some.inj h).symm⟩
  | ext m =>
    right; right; right
    simp only [act, Option.map_eq_some_iff] at h
    obtain ⟨s, hs, rfl⟩ := h
    exact ⟨m, s, rfl, hs, rfl⟩

end Pool

end Interaction
