import Mathlib.Data.Multiset.ZeroCons
import Mathlib.Data.List.Perm.Basic
import Mathlib.Data.List.Forall2
import Dagnats.Interaction.Program

/-!
# Programs in different phases

Where a program may do something only because no other program is about to do
the same, the phases of all programs have to be known together. A `Concert`
gives every running program a *ghost*, which names its phase, and an invariant
of the state and of all ghosts.

`Polite` is the obligation of one program: every call keeps the invariant,
possibly in a new phase, and does to the state only what the others put up with
(`rely`). By `Concert.Sound.reaches` the invariant holds in every reachable pool
with some ghosts, and every call made from there is `good`.
-/

namespace Interaction

variable {Op : Type} {Ans : Op → Type} {ε σ α β : Type} {as : List α} {bs : List β} {op : Op}
  {b : β} {i : ℕ}

structure Concert (S : System Op Ans ε σ) where
  Ghost : Type
  inv : σ → Multiset Ghost → Prop
  rely : σ → σ → Prop
  ok : σ → Op → Prop
  good : σ → Op → Prop
  rely_refl : ∀ s, rely s s
  rely_trans : ∀ {s t u}, rely s t → rely t u → rely s u

/-- From a state since which only the others have acted, every call of the program
is good and keeps the invariant, and the program ends with `Q`. -/
def Polite {S : System Op Ans ε σ} (C : Concert S)
    (Q : Except ε α → C.Ghost → σ → Prop) : Prog Op Ans ε α → C.Ghost → σ → Prop
  | .pure a, g, s => ∀ t, C.rely s t → Q (.ok a) g t
  | .fail e, g, s => ∀ t, C.rely s t → Q (.error e) g t
  | .call op k, g, s =>
    ∀ t G, C.rely s t → C.inv t (g ::ₘ G) → C.ok t op →
      C.good t op ∧ ∀ c a u, S.exec t op c = some (a, u) →
        C.rely t u ∧ ∃ g', C.inv u (g' ::ₘ G) ∧ Polite C Q (k a) g' u

namespace Polite

variable {S : System Op Ans ε σ} {C : Concert S} {Q : Except ε α → C.Ghost → σ → Prop}
  {R : Except ε β → C.Ghost → σ → Prop} {p : Prog Op Ans ε α} {g : C.Ghost} {s t : σ}

lemma mono (h : Polite C Q p g s) (hst : C.rely s t) : Polite C Q p g t := by
  cases p with
  | pure a | fail e => exact fun u htu => h u (C.rely_trans hst htu)
  | call op k => exact fun u G htu => h u G (C.rely_trans hst htu)

lemma call {k : Ans op → Prog Op Ans ε α} {k' : Ans op → Prog Op Ans ε β}
    (h : Polite C Q (.call op k) g s)
    (hnext : ∀ a g t, C.rely s t → Polite C Q (k a) g t → Polite C R (k' a) g t) :
    Polite C R (.call op k') g s := by
  intro t G hst hinv hok
  obtain ⟨hgood, hexec⟩ := h t G hst hinv hok
  refine ⟨hgood, fun c a u hu => ?_⟩
  obtain ⟨htu, g', hinv', hrest⟩ := hexec c a u hu
  exact ⟨htu, g', hinv', hnext a g' u (C.rely_trans hst htu) hrest⟩

section

variable (h : Polite C Q p g s)
include h

lemma conseq {Q' : Except ε α → C.Ghost → σ → Prop}
    (hQ : ∀ r g t, Q r g t → Q' r g t) : Polite C Q' p g s := by
  induction p generalizing g s with
  | pure a | fail e => exact fun t hst => hQ _ _ _ (h t hst)
  | call op k ih => exact h.call fun a _ _ _ hrest => ih a hrest

lemma bind {f : α → Prog Op Ans ε β}
    (hok : ∀ a g t, Q (.ok a) g t → Polite C R (f a) g t)
    (herr : ∀ e g t, Q (.error e) g t → R (.error e) g t) : Polite C R (p.bind f) g s := by
  induction p generalizing g s with
  | pure a => exact hok a g s (h s (C.rely_refl s))
  | fail e => exact fun t hst => herr e g t (h t hst)
  | call op k ih => exact h.call fun a _ _ _ hrest => ih a hrest

lemma attempt {catches : ε → Bool} {R : Except ε (Except ε α) → C.Ghost → σ → Prop}
    (hok : ∀ a g t, Q (.ok a) g t → R (.ok (.ok a)) g t)
    (herr : ∀ e g t, Q (.error e) g t → R (.ok (.error e)) g t ∧ R (.error e) g t) :
    Polite C R (p.attempt catches) g s := by
  induction p generalizing g s with
  | pure a => exact fun t hst => hok a g t (h t hst)
  | fail e =>
    rw [Prog.attempt]
    split
    · exact fun t hst => (herr e g t (h t hst)).1
    · exact fun t hst => (herr e g t (h t hst)).2
  | call op k ih => exact h.call fun a _ _ _ hrest => ih a hrest

lemma since {s₀ : σ} (hs : C.rely s₀ s) :
    Polite C (fun r g t => Q r g t ∧ C.rely s₀ t) p g s := by
  induction p generalizing g s with
  | pure a | fail e => exact fun t hst => ⟨h t hst, C.rely_trans hs hst⟩
  | call op k ih => exact h.call fun a _ _ hst hrest => ih a hrest (C.rely_trans hs hst)

/-- What holds at the end of a program may be assumed to hold for good. -/
lemma stable : Polite C (fun r g t => ∀ u, C.rely t u → Q r g u) p g s := by
  induction p generalizing g s with
  | pure a | fail e => exact fun t hst u htu => h u (C.rely_trans hst htu)
  | call op k ih => exact h.call fun a _ _ _ hrest => ih a hrest

end

/-- The loop rule: `R` holds of the accumulator between two rounds. -/
lemma fold {f : β → α → Prog Op Ans ε β} (hinit : ∀ t, C.rely s t → R (.ok b) g t)
    (hround : ∀ a ∈ as, ∀ b g t, R (.ok b) g t → Polite C R (f b a) g t) :
    Polite C R (Prog.fold f as b) g s := by
  induction as generalizing b g s with
  | nil => exact hinit
  | cons a as ih =>
    have hfirst := hround a (.head _) b g s (hinit s (C.rely_refl s))
    apply hfirst.stable.bind
    · intro b' g' t hb'
      exact ih hb' fun x hx => hround x (.tail a hx)
    · exact fun e g' t he => he t (C.rely_refl t)

end Polite

/-- What has to be known of the system, so that the programs of a pool play
together. -/
structure Concert.Sound {S : System Op Ans ε σ} (C : Concert S) (A : Conditions S) : Prop where
  call : ∀ {s op}, A.call s op → C.ok s op
  start : ∀ {s G j prog}, C.inv s G → A.job s j → S.start s j = some prog →
    ∃ g, C.inv s (g ::ₘ G) ∧ Polite C (fun _ _ _ => True) prog g s
  drop : ∀ {s g G}, C.inv s (g ::ₘ G) → C.inv s G
  move : ∀ {s m t G}, C.inv s G → A.move s m → S.move s m = some t → C.rely s t ∧ C.inv t G

namespace Concert

variable {S : System Op Ans ε σ} {C : Concert S} {A : Conditions S}

/-- The programs of the pool, each in the phase that its ghost names. -/
def Plays (C : Concert S) (ghosts : List C.Ghost) (p : Pool S) : Prop :=
  C.inv p.state ghosts ∧
    List.Forall₂ (fun g thread => Polite C (fun _ _ _ => True) thread.2 g p.state) ghosts p.threads

lemma Plays.thread {ghosts : List C.Ghost} {p : Pool S} (h : C.Plays ghosts p)
    {thread : S.Job × Prog Op Ans ε Unit} (hi : p.threads[i]? = some thread) :
    ∃ g, C.inv p.state (g ::ₘ (ghosts.eraseIdx i : List C.Ghost)) ∧
    Polite C (fun _ _ _ => True) thread.2 g p.state ∧ i < ghosts.length := by
  obtain ⟨hlt, hthread⟩ := List.getElem?_eq_some_iff.mp hi
  have hlt' : i < ghosts.length := h.2.length_eq ▸ hlt
  refine ⟨ghosts[i], ?_, ?_, hlt'⟩
  · rw [Multiset.cons_coe, Multiset.coe_eq_coe.mpr (List.getElem_cons_eraseIdx_perm hlt')]
    exact h.1
  · have hpolite := h.2.get hlt' hlt
    rw [List.get_eq_getElem, List.get_eq_getElem] at hpolite
    rwa [hthread] at hpolite

lemma forall₂_set {R : α → β → Prop} (h : List.Forall₂ R as bs) {a : α} (hab : R a b) :
    List.Forall₂ R (as.set i a) (bs.set i b) := by
  induction h generalizing i with
  | nil => exact .nil
  | cons hhead htail ih =>
    cases i with
    | zero => exact .cons hab htail
    | succ i => exact .cons hhead ih

lemma forall₂_eraseIdx {R : α → β → Prop} (h : List.Forall₂ R as bs) (i : ℕ) :
    List.Forall₂ R (as.eraseIdx i) (bs.eraseIdx i) := by
  induction h generalizing i with
  | nil => exact .nil
  | cons hhead htail ih =>
    cases i with
    | zero => exact htail
    | succ i => exact .cons hhead (ih i)

lemma Sound.step (hC : C.Sound A) {ghosts : List C.Ghost} {p q : Pool S} {a : Act S}
    (h : C.Plays ghosts p) (hmeets : Pool.Meets A p a) (hact : p.act a = some q) :
    ∃ ghosts', C.Plays ghosts' q := by
  rcases Pool.act_cases hact with
    ⟨j, prog, rfl, hj, rfl⟩ | ⟨i, c, j, op, k, b, t, rfl, hthread, hcall, rfl⟩ |
    ⟨i, rfl, rfl⟩ | ⟨m, t, rfl, hm, rfl⟩
  · obtain ⟨g, hinv, hpolite⟩ := hC.start h.1 hmeets hj
    refine ⟨ghosts ++ [g], ?_, List.rel_append h.2 (.cons hpolite .nil)⟩
    rw [Multiset.coe_eq_coe.mpr (List.perm_append_singleton g ghosts)]
    exact hinv
  · obtain ⟨g, hinv, hpolite, hlt⟩ := h.thread hthread
    have hop : C.ok p.state op := hC.call (hmeets op (by simp [Pool.nextCall, hthread]))
    obtain ⟨hrely, g', hinv', hrest⟩ := (hpolite p.state _ (C.rely_refl _) hinv hop).2 c b t hcall
    refine ⟨ghosts.set i g', ?_, forall₂_set (h.2.imp fun _ _ h => h.mono hrely) hrest⟩
    have hperm := Multiset.coe_eq_coe.mpr (List.set_perm_cons_eraseIdx hlt g')
    rw [hperm]
    exact hinv'
  · refine ⟨ghosts.eraseIdx i, ?_, forall₂_eraseIdx h.2 i⟩
    by_cases hlt : i < ghosts.length
    · apply hC.drop (g := ghosts[i])
      rw [Multiset.cons_coe, Multiset.coe_eq_coe.mpr (List.getElem_cons_eraseIdx_perm hlt)]
      exact h.1
    · rw [List.eraseIdx_of_length_le (not_lt.mp hlt)]
      exact h.1
  · obtain ⟨hrely, hinv⟩ := hC.move h.1 hmeets hm
    exact ⟨ghosts, hinv, h.2.imp fun _ _ h => h.mono hrely⟩

lemma Sound.reaches (hC : C.Sound A) {s : σ} {p : Pool S} (hs : C.inv s 0)
    (h : Pool.Reaches A (Pool.initial s) p) : ∃ ghosts, C.Plays ghosts p := by
  induction h with
  | refl => exact ⟨[], hs, .nil⟩
  | tail a _ hmeets hact ih =>
    obtain ⟨ghosts, hplays⟩ := ih
    exact hC.step hplays hmeets hact

lemma Plays.good {ghosts : List C.Ghost} {p : Pool S} (h : C.Plays ghosts p)
    (hi : p.nextCall i = some op) (hok : C.ok p.state op) : C.good p.state op := by
  unfold Pool.nextCall at hi
  split at hi
  · next j op' k hthread =>
    cases hi
    obtain ⟨g, hinv, hpolite, -⟩ := h.thread hthread
    exact (hpolite p.state _ (C.rely_refl _) hinv hok).1
  · cases hi

end Concert

end Interaction
