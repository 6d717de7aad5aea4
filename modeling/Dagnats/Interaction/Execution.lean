import Dagnats.Interaction.Rerun

/-!
# What a program saw

The calls of one program while others change the shared state in between: each
call is made in some state, and the outside treats it in some way that is
possible there. `Prog.Yields` says with which answers the program comes to its
end; a `Moment` adds to a call and its answer how it came about.
-/

namespace Interaction

variable {Op : Type} {Ans : Op → Type} {ε σ α β : Type} {r : Except ε α} {p : Prog Op Ans ε α}
  {S : System Op Ans ε σ}

/-- A call that was made, in the state it was made in. -/
structure Moment (S : System Op Ans ε σ) where
  state : σ
  op : Op
  choice : S.Choice
  answer : Ans op
  next : σ
  possible : S.exec state op choice = some (answer, next)

/-- What the program knows of it. -/
def Moment.known {S : System Op Ans ε σ} (m : Moment S) : (op : Op) × Ans op :=
  ⟨m.op, m.answer⟩

namespace Prog

variable {moments : List (Moment S)}

lemma Yields.of_call {op : Op} {k : Ans op → Prog Op Ans ε α}
    (h : (Prog.call op k).Yields (moments.map Moment.known) r) :
    ∃ m rest a, moments = m :: rest ∧ m.known = ⟨op, a⟩ ∧
    (k a).Yields (rest.map Moment.known) r := by
  generalize htrace : moments.map Moment.known = trace at h
  cases h with
  | call a h =>
    obtain ⟨m, rest, rfl, hm, rfl⟩ := List.map_eq_cons_iff.mp htrace
    exact ⟨m, rest, a, rfl, hm, h⟩

lemma Yields.of_fail {e : ε} {trace : List ((op : Op) × Ans op)}
    (h : (Prog.fail e : Prog Op Ans ε α).Yields trace r) : r = .error e := by
  cases h
  rfl

lemma Yields.of_pure {a : α} (h : (Prog.pure a).Yields (moments.map Moment.known) r) :
    moments = [] ∧ r = .ok a := by
  generalize htrace : moments.map Moment.known = trace at h
  cases h
  exact ⟨List.map_eq_nil_iff.mp htrace, rfl⟩

/-- A sequence that succeeds is its two parts, one after the other. -/
lemma Yields.of_bind {f : α → Prog Op Ans ε β} {b : β}
    (h : (p.bind f).Yields (moments.map Moment.known) (.ok b)) :
    ∃ a front back, moments = front ++ back ∧ p.Yields (front.map Moment.known) (.ok a) ∧
    (f a).Yields (back.map Moment.known) (.ok b) := by
  induction p generalizing moments with
  | pure a => exact ⟨a, [], moments, rfl, .pure a, h⟩
  | fail e => cases Yields.of_fail h
  | call op k ih =>
    obtain ⟨m, rest, a, rfl, hm, hrest⟩ := Yields.of_call h
    obtain ⟨b, front, back, rfl, hfront, hback⟩ := ih a hrest
    refine ⟨b, m :: front, back, rfl, ?_, hback⟩
    rw [List.map_cons, hm]
    exact .call a hfront

/-- What holds of the program text holds of the calls it made, where their answers
were as assumed. -/
lemma Within.calls {A : (op : Op) → Ans op → Prop} {P : Op → Prop} {Q : Except ε α → Prop}
    (hp : p.Within A P Q) (hA : ∀ m ∈ moments, A m.op m.answer)
    (h : p.Yields (moments.map Moment.known) r) : ∀ m ∈ moments, P m.op := by
  induction p generalizing moments with
  | pure a =>
    obtain ⟨rfl, -⟩ := Yields.of_pure h
    exact List.forall_mem_nil _
  | fail e =>
    generalize htrace : moments.map Moment.known = trace at h
    cases h
    rw [List.map_eq_nil_iff.mp htrace]
    exact List.forall_mem_nil _
  | call op k ih =>
    obtain ⟨m, rest, a, rfl, hm, hrest⟩ := Yields.of_call h
    obtain ⟨hmA, hrestA⟩ := List.forall_mem_cons.mp hA
    obtain ⟨s, op', c, a', n, hpossible⟩ := m
    cases hm
    exact List.forall_mem_cons.mpr ⟨hp.1, ih a' (hp.2 a' hmA) hrestA hrest⟩

/-- Execute a program alone, where a policy decides how its calls end, and keep
what happened. -/
def record (S : System Op Ans ε σ) (choose : σ → Op → S.Choice) :
    σ → Prog Op Ans ε α → Option (List (Moment S) × Except ε α)
  | _, .pure a => some ([], .ok a)
  | _, .fail e => some ([], .error e)
  | s, .call op k =>
    match h : S.exec s op (choose s op) with
    | some (a, t) =>
      (record S choose t (k a)).map fun r => (⟨s, op, choose s op, a, t, h⟩ :: r.1, r.2)
    | none => none

/-- What holds at the start and is kept by every call holds whenever a call is
made. -/
lemma record_yields {choose : σ → Op → S.Choice} {J : σ → Prop}
    (hJ : ∀ {s op c a t}, J s → S.exec s op c = some (a, t) → J t) {s : σ}
    (hs : J s) (h : p.record S choose s = some (moments, r)) :
    p.Yields (moments.map Moment.known) r ∧ ∀ m ∈ moments, J m.state := by
  induction p generalizing s moments with
  | pure a =>
    cases h
    exact ⟨.pure a, List.forall_mem_nil _⟩
  | fail e =>
    cases h
    exact ⟨.fail e, List.forall_mem_nil _⟩
  | call op k ih =>
    rw [record] at h
    split at h
    · next a t hexec =>
      obtain ⟨⟨rest, r'⟩, hrest, heq⟩ := Option.map_eq_some_iff.mp h
      cases heq
      obtain ⟨hyields, hstates⟩ := ih a (hJ hs hexec) hrest
      exact ⟨.call a hyields, List.forall_mem_cons.mpr ⟨hs, hstates⟩⟩
    · cases h

end Prog

end Interaction
