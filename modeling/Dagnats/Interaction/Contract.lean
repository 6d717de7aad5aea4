import Dagnats.Interaction.Program

/-!
# Contracts for programs that share a state

Between two calls of a program the others may change the shared state. A
`Contract` says what they may do (`rely`), what holds of every state (`inv`), in
which situations calls are considered (`ok`), and what each call must satisfy
(`guar`). The order `grows` is what every call and every interference has in
common; facts that are stable under it carry over from call to call.

`Safe` is the obligation of one program. By `Contract.Sound.reaches` the
invariant holds in every reachable pool, and every call made from there
satisfies the guarantee.
-/

namespace Interaction

variable {Op : Type} {Ans : Op → Type} {ε σ α β : Type}

/-- What a program may assume about the shared state and what it promises. -/
structure Contract (S : System Op Ans ε σ) where
  inv : σ → Prop
  rely : σ → σ → Prop
  grows : σ → σ → Prop
  ok : σ → Op → Prop
  guar : σ → (op : Op) → Ans op → σ → Prop
  rely_refl : ∀ s, rely s s
  rely_trans : ∀ {s t u}, rely s t → rely t u → rely s u
  grows_trans : ∀ {s t u}, grows s t → grows t u → grows s u
  rely_grows : ∀ {s t}, rely s t → grows s t
  exec_grows : ∀ {s op c a t}, S.exec s op c = some (a, t) → grows s t

/-- Every call of the program satisfies the guarantee, whatever the others do
in between, and the program ends with `Q`. -/
def Safe {S : System Op Ans ε σ} (C : Contract S)
    (Q : Except ε α → σ → Prop) : Prog Op Ans ε α → σ → Prop
  | .pure a, s => ∀ t, C.inv t → C.rely s t → Q (.ok a) t
  | .fail e, s => ∀ t, C.inv t → C.rely s t → Q (.error e) t
  | .call op k, s =>
    ∀ t, C.inv t → C.rely s t → C.ok t op →
      ∀ c a u, S.exec t op c = some (a, u) → C.guar t op a u ∧ (C.inv u → Safe C Q (k a) u)

/-- A postcondition given separately for values and for errors. -/
def post (J : α → σ → Prop) (E : ε → σ → Prop) : Except ε α → σ → Prop
  | .ok a, s => J a s
  | .error e, s => E e s

namespace Safe

variable {S : System Op Ans ε σ} {C : Contract S} {Q R : Except ε α → σ → Prop} {s t : σ}
  {p : Prog Op Ans ε α}

lemma mono (h : Safe C Q p s) (hst : C.rely s t) : Safe C Q p t := by
  cases p with
  | pure a | fail e | call op k => exact fun u hu htu => h u hu (C.rely_trans hst htu)

/-- It is enough to be safe in every state the others may produce. -/
lemma of_rely (h : ∀ t, C.inv t → C.rely s t → Safe C Q p t) : Safe C Q p s := by
  cases p with
  | pure a | fail e | call op k => exact fun t ht hst => h t ht hst t ht (C.rely_refl t)

lemma call {op : Op} {k : Ans op → Prog Op Ans ε α} {k' : Ans op → Prog Op Ans ε β}
    {Q : Except ε β → σ → Prop} (hp : Safe C R (.call op k) s)
    (hnext : ∀ a u, C.grows s u → Safe C R (k a) u → Safe C Q (k' a) u) :
    Safe C Q (.call op k') s := by
  intro t ht hst hallow c a u hexec
  obtain ⟨hguar, hcont⟩ := hp t ht hst hallow c a u hexec
  have hsu : C.grows s u := C.grows_trans (C.rely_grows hst) (C.exec_grows hexec)
  exact ⟨hguar, fun hu => hnext a u hsu (hcont hu)⟩

/-- Sequencing. The second program starts in a later state, in which the
postcondition of the first holds. -/
lemma bind {f : α → Prog Op Ans ε β} {Q : Except ε β → σ → Prop}
    (hp : Safe C R p s) (hok : ∀ a t, C.inv t → C.grows s t → R (.ok a) t → Safe C Q (f a) t)
    (herr : ∀ e t, C.inv t → C.grows s t → R (.error e) t → Q (.error e) t) :
    Safe C Q (p.bind f) s := by
  induction p generalizing s with
  | pure a =>
    exact of_rely fun t ht hst => hok a t ht (C.rely_grows hst) (hp t ht hst)
  | fail e =>
    exact fun t ht hst => herr e t ht (C.rely_grows hst) (hp t ht hst)
  | call op k ih =>
    refine hp.call fun a u hsu hrest => ih a hrest ?_ ?_
    · exact fun b v hv huv => hok b v hv (C.grows_trans hsu huv)
    · exact fun e v hv huv => herr e v hv (C.grows_trans hsu huv)

lemma conseq (hp : Safe C R p s)
    (h : ∀ r t, C.inv t → C.grows s t → R r t → Q r t) : Safe C Q p s := by
  induction p generalizing s with
  | pure a | fail e => exact fun t ht hst => h _ t ht (C.rely_grows hst) (hp t ht hst)
  | call op k ih =>
    exact hp.call fun a u hsu hrest => ih a hrest fun r v hv huv => h r v hv (C.grows_trans hsu huv)

lemma and (hp : Safe C Q p s) (hp' : Safe C R p s) : Safe C (fun r t => Q r t ∧ R r t) p s := by
  induction p generalizing s with
  | pure a | fail e => exact fun t ht hst => ⟨hp t ht hst, hp' t ht hst⟩
  | call op k ih =>
    intro t ht hst hallow c a u hexec
    obtain ⟨hguar, hcont⟩ := hp t ht hst hallow c a u hexec
    obtain ⟨-, hcont'⟩ := hp' t ht hst hallow c a u hexec
    exact ⟨hguar, fun hu => ih a (hcont hu) (hcont' hu)⟩

lemma attempt {catches : ε → Bool}
    {Q : Except ε (Except ε α) → σ → Prop} (hp : Safe C R p s)
    (hok : ∀ a t, C.inv t → C.grows s t → R (.ok a) t → Q (.ok (.ok a)) t)
    (hcaught : ∀ e t, C.inv t → C.grows s t → R (.error e) t →
      catches e = true → Q (.ok (.error e)) t)
    (herr : ∀ e t, C.inv t → C.grows s t → R (.error e) t → catches e = false → Q (.error e) t) :
    Safe C Q (p.attempt catches) s := by
  induction p generalizing s with
  | pure a => exact fun t ht hst => hok a t ht (C.rely_grows hst) (hp t ht hst)
  | fail e =>
    simp only [Prog.attempt]
    split
    · next h =>
      exact fun t ht hst => hcaught e t ht (C.rely_grows hst) (hp t ht hst) h
    · next h =>
      exact fun t ht hst => herr e t ht (C.rely_grows hst) (hp t ht hst) (by simpa using h)
  | call op k ih =>
    refine hp.call fun a u hsu hrest => ih a hrest ?_ ?_ ?_
    · exact fun b v hv huv => hok b v hv (C.grows_trans hsu huv)
    · exact fun e v hv huv => hcaught e v hv (C.grows_trans hsu huv)
    · exact fun e v hv huv => herr e v hv (C.grows_trans hsu huv)

/-- The loop rule: `J` holds of the accumulator between two rounds. -/
lemma fold {f : β → α → Prog Op Ans ε β} {as : List α} {b : β} {J : β → σ → Prop}
    {E : ε → σ → Prop} (hstable : ∀ b t u, C.inv u → C.rely t u → J b t → J b u) (hinit : J b s)
    (hround : ∀ a ∈ as, ∀ b t, C.inv t → C.grows s t → J b t → Safe C (post J E) (f b a) t) :
    Safe C (post J E) (Prog.fold f as b) s := by
  induction as generalizing s b with
  | nil => exact fun t ht hst => hstable b s t ht hst hinit
  | cons a as ih =>
    apply of_rely
    intro t ht hst
    have hgrow := C.rely_grows hst
    apply bind (hround a (by simp) b t ht hgrow (hstable b s t ht hst hinit))
    · intro b' u _ htu hJ
      apply ih hJ
      intro a' ha' b'' v hv huv
      exact hround a' (by simp [ha']) b'' v hv (C.grows_trans hgrow (C.grows_trans htu huv))
    · exact fun e u _ _ he => he

end Safe

section

variable {S : System Op Ans ε σ} (C : Contract S)

def Contract.guarding (G : σ → (op : Op) → Ans op → σ → Prop) : Contract S :=
  { C with guar := G }

/-- A contract in which every job has a guarantee of its own is kept by whole pools. -/
structure Contract.SoundFor
    (G : S.Job → σ → (op : Op) → Ans op → σ → Prop) (A : Conditions S) : Prop where
  ok : ∀ {s op}, A.call s op → C.ok s op
  call : ∀ {j s op c a t}, C.inv s → S.exec s op c = some (a, t) →
    G j s op a t → C.inv t ∧ C.rely s t
  move : ∀ {s m t}, C.inv s → A.move s m → S.move s m = some t → C.inv t ∧ C.rely s t
  jobs : ∀ {s j p}, C.inv s → A.job s j → S.start s j = some p →
    Safe (C.guarding (G j)) (fun _ _ => True) p s

def Pool.AllSafeFor (G : S.Job → σ → (op : Op) → Ans op → σ → Prop) (p : Pool S) : Prop :=
  C.inv p.state ∧ ∀ thread ∈ p.threads,
    Safe (C.guarding (G thread.1)) (fun _ _ => True) thread.2 p.state

end

section Pools

variable {S : System Op Ans ε σ} {C : Contract S} {A : Conditions S}
  {G : S.Job → σ → (op : Op) → Ans op → σ → Prop}

lemma Pool.AllSafeFor.move {p : Pool S} {t : σ} (h : p.AllSafeFor C G) (ht : C.inv t)
    (hst : C.rely p.state t) : Pool.AllSafeFor C G ⟨t, p.threads⟩ :=
  ⟨ht, fun thread hthread => (h.2 thread hthread).mono hst⟩

lemma Contract.SoundFor.step (hC : C.SoundFor G A) {p : Pool S} (h : p.AllSafeFor C G) {i : ℕ}
    {j : S.Job} {op : Op} {k : Ans op → Prog Op Ans ε Unit} {c : S.Choice} {a : Ans op} {t : σ}
    (hthread : p.threads[i]? = some (j, .call op k)) (hok : A.call p.state op)
    (hexec : S.exec p.state op c = some (a, t)) : G j p.state op a t ∧
    Pool.AllSafeFor C G ⟨t, p.threads.set i (j, k a)⟩ := by
  obtain ⟨hinv, hsafe⟩ := h
  have hcall := hsafe _ (List.mem_of_getElem? hthread)
  obtain ⟨hguar, hcont⟩ := hcall p.state hinv (C.rely_refl _) (hC.ok hok) c a t hexec
  obtain ⟨ht, hrely⟩ := hC.call hinv hexec hguar
  refine ⟨hguar, ht, fun thread hmem => ?_⟩
  rcases List.mem_or_eq_of_mem_set hmem with hold | rfl
  · exact (hsafe thread hold).mono hrely
  · exact hcont ht

lemma Contract.SoundFor.reaches (hC : C.SoundFor G A) {s : σ} (hs : C.inv s)
    {p : Pool S} (h : Pool.Reaches A (Pool.initial s) p) : p.AllSafeFor C G := by
  induction h with
  | refl => exact ⟨hs, by simp [Pool.initial]⟩
  | @tail q r a _ hmeets hact ih =>
    rcases Pool.act_cases hact with
      ⟨j, prog, rfl, hj, rfl⟩ | ⟨i, c, j, op, k, b, t, rfl, hthread, hexec, rfl⟩ |
      ⟨i, rfl, rfl⟩ | ⟨m, t, rfl, hmove, rfl⟩
    · refine ⟨ih.1, fun thread hmem => ?_⟩
      rcases List.mem_append.mp hmem with hold | hnew
      · exact ih.2 thread hold
      · rw [List.mem_singleton] at hnew
        subst hnew
        exact hC.jobs ih.1 hmeets hj
    · have hok : A.call q.state op := hmeets op (by simp [Pool.nextCall, hthread])
      exact (hC.step ih hthread hok hexec).2
    · exact ⟨ih.1, fun thread hmem => ih.2 thread (List.mem_of_mem_eraseIdx hmem)⟩
    · obtain ⟨ht, hrely⟩ := hC.move ih.1 hmeets hmove
      exact ih.move ht hrely

end Pools

/-- The contract is kept by whole pools: a call that satisfies the guarantee,
and every move of the environment, keeps the invariant and is covered by what
the other programs rely on. -/
structure Contract.Sound {S : System Op Ans ε σ} (C : Contract S)
    (A : Conditions S) : Prop where
  ok : ∀ {s op}, A.call s op → C.ok s op
  call : ∀ {s op c a t}, C.inv s → S.exec s op c = some (a, t) →
    C.guar s op a t → C.inv t ∧ C.rely s t
  move : ∀ {s m t}, C.inv s → A.move s m → S.move s m = some t → C.inv t ∧ C.rely s t
  jobs : ∀ {s j p}, C.inv s → A.job s j → S.start s j = some p → Safe C (fun _ _ => True) p s

def Pool.AllSafe {S : System Op Ans ε σ} (C : Contract S) (p : Pool S) : Prop :=
  C.inv p.state ∧ ∀ thread ∈ p.threads, Safe C (fun _ _ => True) thread.2 p.state

variable {S : System Op Ans ε σ} {C : Contract S} {A : Conditions S}

lemma Contract.Sound.soundFor (hC : C.Sound A) : C.SoundFor (fun _ => C.guar) A :=
  ⟨hC.ok, hC.call, hC.move, hC.jobs⟩

/-- From an idle pool on, the invariant holds and every program is safe. -/
lemma Contract.Sound.reaches (hC : C.Sound A) {s : σ} (hs : C.inv s)
    {p : Pool S} (h : Pool.Reaches A (Pool.initial s) p) : p.AllSafe C :=
  hC.soundFor.reaches hs h

end Interaction
