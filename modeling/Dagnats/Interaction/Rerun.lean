import Mathlib.Logic.Relation
import Dagnats.Interaction.Contract

/-!
# A program that is stopped and started again

`Runs` follows one program alone, while others change the shared state between
its calls; one that is stopped at some call and started again from its beginning
is `Retried`. What a contract says of the program then holds of every state on
the way.

`Prog.Within` is a property of the program text alone: whatever the answers,
every call is of a certain kind and every result has a certain property.
-/

namespace Interaction

variable {Op : Type} {Ans : Op → Type} {ε σ α β : Type} {s t : σ}

/-- From state `s`, program `p` can get to state `t` with `q` still to run; the
others change the state by `R` between two calls. -/
inductive Runs (S : System Op Ans ε σ) (R : σ → σ → Prop) :
    σ → Prog Op Ans ε α → σ → Prog Op Ans ε α → Prop where
  | rest {s t : σ} (p : Prog Op Ans ε α) : R s t → Runs S R s p t p
  | step {s t u v : σ} {op : Op} {k : Ans op → Prog Op Ans ε α}
      {q : Prog Op Ans ε α} (c : S.Choice) (a : Ans op) :
      R s t → S.exec t op c = some (a, u) → Runs S R u (k a) v q → Runs S R s (.call op k) v q

lemma Runs.exists_step {S : System Op Ans ε σ} {R : σ → σ → Prop} {u v : σ} {op : Op}
    {k : Ans op → Prog Op Ans ε α} (c : S.Choice) (a : Ans op) (hst : R s t)
    (hexec : S.exec t op c = some (a, u)) (h : ∃ q, Runs S R u (k a) v q) :
    ∃ q, Runs S R s (.call op k) v q := by
  obtain ⟨q, hq⟩ := h
  exact ⟨q, .step c a hst hexec hq⟩

variable {p : Prog Op Ans ε α}

lemma Runs.exists_else {S : System Op Ans ε σ} {R : σ → σ → Prop} {c : Prop} [Decidable c]
    {p' : Prog Op Ans ε α} (hc : ¬c) (h : ∃ q, Runs S R s p' t q) :
    ∃ q, Runs S R s (if c then p else p') t q := by
  rw [if_neg hc]
  exact h

/-- The program was started any number of times and stopped each time, at any
point or at its end. -/
def Retried (S : System Op Ans ε σ) (R : σ → σ → Prop) (p : Prog Op Ans ε α) : σ → σ → Prop :=
  Relation.ReflTransGen fun s t => ∃ q, Runs S R s p t q

namespace Prog

/-- Execute a program alone for at most so many calls, under a policy. -/
def play (S : System Op Ans ε σ) (choose : σ → Op → S.Choice) :
    ℕ → σ → Prog Op Ans ε α → Option (σ × Prog Op Ans ε α)
  | 0, s, p => some (s, p)
  | n + 1, s, .call op k =>
    match S.exec s op (choose s op) with
    | some (a, t) => play S choose n t (k a)
    | none => none
  | _ + 1, s, p => some (s, p)

def isPure : Prog Op Ans ε α → Bool
  | .pure _ => true
  | _ => false

lemma eq_pure_of_isPure (h : p.isPure = true) : ∃ a, p = .pure a := by
  cases p with
  | pure a => exact ⟨a, rfl⟩
  | fail e | call op k => cases h

lemma play_runs {S : System Op Ans ε σ} {R : σ → σ → Prop} (hR : ∀ s, R s s)
    {choose : σ → Op → S.Choice} {n : ℕ} {q : Prog Op Ans ε α}
    (h : play S choose n s p = some (t, q)) :
    Runs S R s p t q := by
  induction n generalizing s p with
  | zero =>
    cases h
    exact .rest _ (hR _)
  | succ n ih =>
    cases p with
    | pure a | fail e =>
      cases h
      exact .rest _ (hR _)
    | call op k =>
      simp only [play] at h
      split at h
      · next a u hexec => exact .step _ a (hR s) hexec (ih h)
      · cases h

end Prog

section Sound

variable {S : System Op Ans ε σ} {C : Contract S} {Q : Except ε α → σ → Prop}
  (hok : ∀ s op, C.ok s op) (hrely : ∀ {s t}, C.inv s → C.rely s t → C.inv t)
  (hguar : ∀ {s op a t}, C.guar s op a t → C.inv t)

include hok hrely hguar

lemma Runs.safe {q : Prog Op Ans ε α} (h : Runs S C.rely s p t q) (hs : C.inv s)
    (hp : Safe C Q p s) : C.inv t ∧ Safe C Q q t := by
  induction h with
  | rest p hst => exact ⟨hrely hs hst, hp.mono hst⟩
  | @step s t u v op k q c a hst hexec _ ih =>
    obtain ⟨hcall, hcont⟩ := hp t (hrely hs hst) hst (hok t op) c a u hexec
    exact ih (hguar hcall) (hcont (hguar hcall))

lemma Runs.post {a : α} (h : Runs S C.rely s p t (.pure a)) (hs : C.inv s) (hp : Safe C Q p s) :
    Q (.ok a) t := by
  obtain ⟨ht, hsafe⟩ := h.safe hok hrely hguar hs hp
  exact hsafe t ht (C.rely_refl t)

/-- However often a program is started, the invariant holds. -/
lemma Retried.inv (h : Retried S C.rely p s t) (hs : C.inv s) (hp : ∀ s, C.inv s → Safe C Q p s) :
    C.inv t := by
  induction h with
  | refl => exact hs
  | tail _ hrun ih =>
    obtain ⟨q, hrun⟩ := hrun
    exact (hrun.safe hok hrely hguar ih (hp _ ih)).1

end Sound

namespace Prog

/-- Whatever answers with `A` the calls get, they all satisfy `P` and the
program ends with `Q`. -/
def Within (A : (op : Op) → Ans op → Prop) (P : Op → Prop)
    (Q : Except ε α → Prop) : Prog Op Ans ε α → Prop
  | .pure a => Q (.ok a)
  | .fail e => Q (.error e)
  | .call op k => P op ∧ ∀ a, A op a → (k a).Within A P Q

namespace Within

variable {A : (op : Op) → Ans op → Prop} {P : Op → Prop} {Q : Except ε α → Prop}
  {R : Except ε β → Prop}

section

variable (hp : p.Within A P Q)
include hp

lemma conseq {Q' : Except ε α → Prop} (h : ∀ r, Q r → Q' r) : p.Within A P Q' := by
  induction p with
  | pure a | fail e => exact h _ hp
  | call op k ih => exact ⟨hp.1, fun a ha => ih a (hp.2 a ha)⟩

/-- Fewer answers to deal with, and more calls allowed. -/
lemma weaken {A' : (op : Op) → Ans op → Prop}
    {P' : Op → Prop} (hA : ∀ op a, A' op a → A op a)
    (hP : ∀ op, P op → P' op) : p.Within A' P' Q := by
  induction p with
  | pure a | fail e => exact hp
  | call op k ih => exact ⟨hP op hp.1, fun a ha => ih a (hp.2 a (hA op a ha))⟩

lemma bind {f : α → Prog Op Ans ε β} (hok : ∀ a, Q (.ok a) → (f a).Within A P R)
    (herr : ∀ e, Q (.error e) → R (.error e)) : (p.bind f).Within A P R := by
  induction p with
  | pure a => exact hok a hp
  | fail e => exact herr e hp
  | call op k ih => exact ⟨hp.1, fun a ha => ih a (hp.2 a ha)⟩

lemma attempt {catches : ε → Bool} {R : Except ε (Except ε α) → Prop}
    (hok : ∀ a, Q (.ok a) → R (.ok (.ok a))) (hcaught : ∀ e, Q (.error e) → R (.ok (.error e)))
    (herr : ∀ e, Q (.error e) → R (.error e)) : (p.attempt catches).Within A P R := by
  induction p with
  | pure a => exact hok a hp
  | fail e =>
    simp only [Prog.attempt]
    split
    · exact hcaught e hp
    · exact herr e hp
  | call op k ih => exact ⟨hp.1, fun a ha => ih a (hp.2 a ha)⟩

end

lemma fold {f : β → α → Prog Op Ans ε β} {as : List α} {b : β} {R : Except ε β → Prop}
    (hinit : R (.ok b)) (hround : ∀ a ∈ as, ∀ b, R (.ok b) → (f b a).Within A P R) :
    (Prog.fold f as b).Within A P R := by
  induction as generalizing b with
  | nil => exact hinit
  | cons a as ih =>
    refine bind (hround a (by simp) b hinit) (fun b' hb' => ?_) fun _ he => he
    exact ih hb' fun a' ha' => hround a' (by simp [ha'])

end Within

def Makes (op : Op) : Prog Op Ans ε α → Prop
  | .pure _ => False
  | .fail _ => False
  | .call op' k => op' = op ∨ ∃ a, (k a).Makes op

lemma Within.of_makes {P : Op → Prop} {Q : Except ε α → Prop} {op : Op}
    (hp : p.Within (fun _ _ => True) P Q) (h : p.Makes op) : P op := by
  induction p with
  | pure a | fail e => exact h.elim
  | call op' k ih =>
    rcases h with rfl | ⟨a, ha⟩
    · exact hp.1
    · exact ih a (hp.2 a trivial) ha

end Prog

variable {S : System Op Ans ε σ}

/-- Besides, every call satisfies `P` and is made in a state with `F`. -/
def Conditions.calls (A : Conditions S) (F : σ → Prop) (P : Op → Prop) : Conditions S :=
  { A with call := fun s op => A.call s op ∧ F s ∧ P op }

/-- Judged from a later point: if `F` holds of the states before it, the answers given
by then are in `B`, and every program that was started is within `P`, then every call
made by then is. -/
lemma Pool.Reaches.within {A : Conditions S} {F : σ → Prop} {B : (op : Op) → Ans op → Prop}
    {P : Op → Prop} {p q : Pool S} (hidle : p.threads = [])
    (hexec : ∀ {s op c a t}, S.exec s op c = some (a, t) → F t → F s)
    (hmove : ∀ {s m t}, S.move s m = some t → F t → F s)
    (hanswer : ∀ {q op c a t}, Reaches A p q → S.exec q.state op c = some (a, t) → F t → B op a)
    (hjob : ∀ {s j prog}, S.start s j = some prog → F s → prog.Within B P fun _ => True)
    (h : Reaches A p q) (hq : F q.state) : Reaches (A.calls F P) p q ∧ ∀ thread ∈ q.threads,
    thread.2.Within B P fun _ => True := by
  induction h with
  | refl => exact ⟨.refl, by simp [hidle]⟩
  | @tail q r a hreach hmeets hact ih =>
    rcases Pool.act_cases hact with
      ⟨j, prog, rfl, hj, rfl⟩ | ⟨i, c, j, op, k, b, t, rfl, hthread, hcall, rfl⟩ |
      ⟨i, rfl, rfl⟩ | ⟨m, t, rfl, hm, rfl⟩
    · obtain ⟨hbefore, hwithin⟩ := ih hq
      refine ⟨hbefore.tail (.start j) hmeets hact, fun thread hmem => ?_⟩
      rcases List.mem_append.mp hmem with hold | hnew
      · exact hwithin thread hold
      · rw [List.mem_singleton] at hnew
        subst hnew
        exact hjob hj hq
    · obtain ⟨hbefore, hwithin⟩ := ih (hexec hcall hq)
      obtain ⟨hop, hnext⟩ := hwithin _ (List.mem_of_getElem? hthread)
      refine ⟨hbefore.tail (.step i c) (fun op' hop' =>
        ⟨hmeets op' hop', hexec hcall hq, ?_⟩) hact, fun thread hmem => ?_⟩
      · simp only [Pool.nextCall, hthread, Option.some.injEq] at hop'
        exact hop' ▸ hop
      · rcases List.mem_or_eq_of_mem_set hmem with hold | rfl
        · exact hwithin thread hold
        · exact hnext b (hanswer hreach hcall hq)
    · obtain ⟨hbefore, hwithin⟩ := ih hq
      exact ⟨hbefore.tail (.drop i) trivial hact, fun thread hmem =>
        hwithin thread (List.mem_of_mem_eraseIdx hmem)⟩
    · obtain ⟨hbefore, hwithin⟩ := ih (hmove hm hq)
      exact ⟨hbefore.tail (.ext m) hmeets hact, hwithin⟩

end Interaction
