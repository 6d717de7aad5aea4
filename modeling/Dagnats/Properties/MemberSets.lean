import Dagnats.Interaction.Script
import Dagnats.Engine.Concurrency

/-!
# Member sets are semaphores

Engines that acquire and release slots at the same time, each call of which may be
refused, lose its answer or be the last one its engine makes. A member set stays
free of duplicates and within its limit, an acquirer adds only its own member and
a releaser removes only its own, an acquirer says yes exactly when its member is in
the set as it knows it, and a releaser is done only when its member is not.
-/

namespace Dagnats

open Interaction

namespace Concurrency

/-- The calls a program has made, with their answers. -/
abbrev Trace := List ((op : Bucket.Call String Membership) × Bucket.Answer op)

section Known

variable (key : String) (ids : List String)

/-- The set under the key as the caller knows it after a call: the set it read, or the
set it wrote and was told so. -/
def learn : (op : Bucket.Call String Membership) → Bucket.Answer op → List String
  | .get _, none => ids
  | .get other, some none => if other = key then [] else ids
  | .get other, some (some (_, v)) => if other = key then v.ids else ids
  | .create other v, accepted => if other = key && accepted then v.ids else ids
  | .update other v _, accepted => if other = key && accepted then v.ids else ids

/-- The set under the key that was last read or written. -/
def lastKnown (trace : Trace) : List String :=
  trace.foldl (fun ids step => learn key ids step.1 step.2) ids

@[simp] lemma lastKnown_nil : lastKnown key ids [] = ids := rfl

@[simp] lemma lastKnown_cons (step : (op : Bucket.Call String Membership) × Bucket.Answer op)
    (trace : Trace) : lastKnown key ids (step :: trace) =
      lastKnown key (learn key ids step.1 step.2) trace :=
    rfl

end Known

variable {key member : String} {limit : ℤ} {ids : List String} {trace : Trace}

section Calls

variable {α : Type} {r : Except Err α} (ids : List String)

/-- After a read the caller goes on from the set that it has read. -/
lemma readMembers_yields {next : List String × ℕ → P α}
    (h : (Prog.bind (readMembers key) next).Yields trace r) :
    (r = .error .unavailable ∧ lastKnown key ids trace = ids) ∨
      ∃ read rev rest, (next (read, rev)).Yields rest r ∧
        lastKnown key ids trace = lastKnown key read rest := by
  cases h with
  | call answer hyields =>
    match answer, hyields with
    | none, hyields =>
      cases hyields
      exact .inl ⟨rfl, rfl⟩
    | some none, hyields => exact .inr ⟨[], 0, _, hyields, by simp [learn]⟩
    | some (some (rev, v)), hyields => exact .inr ⟨v.ids, rev, _, hyields, by simp [learn]⟩

/-- After a write the caller goes on from the new set, or from the old one where it was
not accepted. -/
lemma casWriteMembers_yields {rev : ℕ} {new : List String} {done next : P α}
    (h : (Prog.bind (casWriteMembers key new rev) fun written =>
      if written = true then done else next).Yields trace r) :
    (∃ rest, done.Yields rest r ∧ lastKnown key ids trace = lastKnown key new rest) ∨
      ∃ rest, next.Yields rest r ∧ lastKnown key ids trace = lastKnown key ids rest := by
  unfold casWriteMembers at h
  split at h
  all_goals
    cases h with
    | call accepted hyields =>
      cases accepted with
      | true => exact .inl ⟨_, hyields, by simp [learn, Membership.ids]⟩
      | false => exact .inr ⟨_, hyields, by simp [learn]⟩

end Calls

lemma acquireRounds_yields {r : Except Err Bool} (n : ℕ) (hids : member ∉ ids)
    (h : (acquireRounds key member limit n).Yields trace r) :
    r = .ok true ↔ member ∈ lastKnown key ids trace := by
  induction n generalizing ids trace with
  | zero =>
    cases h
    simpa using hids
  | succ n ih =>
    rcases readMembers_yields ids h with ⟨rfl, hknown⟩ | ⟨read, rev, rest, hround, hknown⟩
    · rw [hknown]
      simpa using hids
    · rw [hknown]
      dsimp only at hround
      by_cases hmem : member ∈ read
      · rw [if_pos hmem] at hround
        cases hround
        simpa using hmem
      · rw [if_neg hmem] at hround
        split at hround
        · cases hround
          simpa using hmem
        · split at hround
          · cases hround
            simpa using hmem
          · rcases casWriteMembers_yields read hround with
              ⟨rest', hdone, hknown'⟩ | ⟨rest', hnext, hknown'⟩ <;> rw [hknown']
            · cases hdone
              simp
            · exact ih hmem hnext

/-- An acquirer says yes exactly when its member is in the set it last read or
wrote. -/
lemma acquireMember_yields {r : Except Err Bool}
    (h : (acquireMember key member limit).Yields trace r) :
    r = .ok true ↔ member ∈ lastKnown key [] trace := by
  unfold acquireMember at h
  split at h
  · cases h
    simp
  · split at h
    · cases h
      simp
    · exact acquireRounds_yields _ List.not_mem_nil h

lemma releaseRounds_yields {r : Except Err Unit} (n : ℕ)
    (h : (releaseRounds key member n).Yields trace r) (hok : r = .ok ()) :
    member ∉ lastKnown key ids trace := by
  subst hok
  induction n generalizing ids trace with
  | zero => cases h
  | succ n ih =>
    rcases readMembers_yields ids h with ⟨hfailed, -⟩ | ⟨read, rev, rest, hround, hknown⟩
    · cases hfailed
    · rw [hknown]
      dsimp only at hround
      by_cases hmem : member ∉ read
      · rw [if_pos hmem] at hround
        cases hround
        exact hmem
      · rw [if_neg hmem] at hround
        rcases casWriteMembers_yields read hround with
          ⟨rest', hdone, hknown'⟩ | ⟨rest', hnext, hknown'⟩ <;> rw [hknown']
        · cases hdone
          simp [removeMember]
        · exact ih hnext

/-- A releaser that returns without an error leaves a set without its member, as far
as it knows: it has read such a set, or has written one. -/
lemma releaseMember_yields {r : Except Err Unit}
    (h : (releaseMember key member).Yields trace r) (hok : r = .ok ()) :
    member ∉ lastKnown key ids trace := by
  unfold releaseMember at h
  split at h
  · cases h
    cases hok
  · split at h
    · cases h
      cases hok
    · exact releaseRounds_yields _ h hok

lemma acquireMember_held {r : Except Err Bool} {rev : ℕ} {v : Membership} (hmem : member ∈ v.ids)
    (h : (acquireMember key member limit).Yields (⟨.get key, some (some (rev, v))⟩ :: trace) r) :
    trace = [] ∧ r = .ok true := by
  unfold acquireMember at h
  split at h
  · cases h
  · split at h
    · cases h
    · cases h with
      | call answer hyields =>
        change (if member ∈ v.ids then Prog.pure true else _ : P Bool).Yields trace r at hyields
        rw [if_pos hmem] at hyields
        cases hyields
        exact ⟨rfl, rfl⟩

lemma act_effect {limit : String → ℤ} {p q : Pool (managers limit)} {i : ℕ} {c : Bucket.Choice}
    {j : Job} {prog : P Unit} (hp : p.AllSafeFor (contract limit) (guarantee limit))
    (hthread : p.threads[i]? = some (j, prog)) (hact : p.act (.step i c) = some q) :
    Effect limit (members p.state) (members q.state) j := by
  rcases Pool.act_cases hact with
    ⟨_, _, hno, _⟩ | ⟨i', c', j', op, k, a, b, hstep, hcall, hexec, rfl⟩ |
    ⟨_, hno, _⟩ | ⟨_, _, hno, _⟩
  · cases hno
  · cases hstep
    rw [hthread] at hcall
    cases hcall
    exact (contract_sound.step hp hthread trivial hexec).1.2
  · cases hno
  · cases hno

/-- **Member sets are semaphores.**  Started on sets within their limits, engines
that acquire and release in any order keep every set free of duplicates and
within its limit; every step changes the sets only as its own job may; an
acquirer says yes exactly when its member is in the set it last read or wrote,
at once and without a write where it is in the set it reads; and a releaser that
returns without an error has read or written a set without its member. -/
theorem member_sets_are_semaphores (limit : String → ℤ)
    (b : Bucket String Membership) (hb : b.Numbered)
    (hbounds : ∀ key, Semaphore.InBounds (limit key) (members b key))
    (p : Pool (managers limit))
    (hreach : Pool.Reaches Conditions.free (Pool.initial b) p) :
    (∀ key, (members p.state key).Nodup ∧ ((members p.state key).length : ℤ) ≤ limit key) ∧
    (∀ i c j prog q, p.threads[i]? = some (j, prog) → p.act (.step i c) = some q →
      Effect limit (members p.state) (members q.state) j) ∧
    ∀ key member, (∀ trace r, (acquireMember key member (limit key)).Yields trace r →
        (r = .ok true ↔ member ∈ lastKnown key [] trace)) ∧
      (∀ rev v trace r, member ∈ v.ids → (acquireMember key member (limit key)).Yields
          (⟨.get key, some (some (rev, v))⟩ :: trace) r → trace = [] ∧ r = .ok true) ∧
      ∀ ids trace r, (releaseMember key member).Yields trace r → r = .ok () →
        member ∉ lastKnown key ids trace := by
  have hsafe := contract_sound.reaches ⟨hb, hbounds⟩ hreach
  refine ⟨?_, ?_, ?_⟩
  · intro key
    obtain ⟨hnodup, hbounded⟩ := hsafe.1.2 key
    exact ⟨hnodup, hbounded⟩
  · intro i c j prog q hthread hact
    exact act_effect hsafe hthread hact
  · intro key member
    refine ⟨?_, ?_, ?_⟩
    · intro trace r h
      exact acquireMember_yields h
    · intro rev v trace r hmem h
      exact acquireMember_held hmem h
    · intro ids trace r h hok
      exact releaseMember_yields h hok

/-- Two engines and one slot: the second finds the set full. -/
theorem one_slot_two_engines : ∃ p : Pool (managers fun _ => 1),
    Pool.Reaches Conditions.free (Pool.initial ⟨fun _ => none, 0⟩) p ∧
    members p.state "workflow.w" = ["r"] ∧ p.threads.length = 2 ∧
    (members p.state "workflow.w").Nodup := by
  obtain ⟨p, hreach, htest⟩ :=
    Pool.reaches_of_script Checks.free_sound (Pool.initial ⟨fun _ => none, 0⟩ :
    Pool (managers fun _ => 1))
    [.act (.start (.acquire "workflow.w" "r")), .act (.start (.acquire "workflow.w" "s")),
      .drive (fun _ _ => .done) 0 2, .drive (fun _ _ => .done) 1 1]
      (fun p => members p.state "workflow.w" = ["r"] ∧ p.threads.length = 2)
  obtain ⟨hmembers, hthreads⟩ := of_decide_eq_true htest
  refine ⟨p, hreach, hmembers, hthreads, ?_⟩
  exact ((member_sets_are_semaphores (fun _ => 1) ⟨fun _ => none, 0⟩ (fun _ _ _ h => nomatch h)
    (fun _ => Semaphore.InBounds.nil (by decide)) p hreach).1 "workflow.w").1

end Concurrency

end Dagnats
