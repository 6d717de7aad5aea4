import Dagnats.Engine.Lifecycle

/-!
# The snapshots of a run

The writes of one run form a line: each write but the first is made over the
one before it. Induction rules for the logs of the abstract model: what every
write preserves holds of every stored run, and what every write relates to its
base holds between any two writes of a run.
-/

namespace Dagnats

open Interaction

variable {o : Orchestrator} {K : Terms} {log : List Entry} {prior prior₀ : Option ℕ} {site₀ : Site}
  {start : WorkflowRun} {i j : ℕ} {run : WorkflowRun} {rev : ℕ} {runID : String} {site : Site}

namespace World

lemma le_of_latestIn {base : WorkflowRun} (h : latestIn runID log = some (rev, base))
    (hrun : Wrote log i run) (hid : run.runID = runID) : i ≤ rev := by
  induction log with
  | nil => cases h
  | cons e older ih =>
    obtain ⟨site, prior, hat⟩ := hrun
    rcases latestIn_cons h with ⟨-, -, -, rfl, -⟩ | ⟨hother, h⟩
    · exact Nat.le_of_lt_succ hat.lt
    · rcases At.cons_iff.mp hat with ⟨-, heq⟩ | hold
      · exact absurd hid (hother site prior run heq.symm)
      · exact ih h ⟨site, prior, hold⟩

lemma exists_latestIn (hrun : Wrote log i run) (hid : run.runID = runID) :
    ∃ rev base, latestIn runID log = some (rev, base) := by
  induction log with
  | nil =>
    obtain ⟨site, prior, hat⟩ := hrun
    exact absurd hat.lt (by simp)
  | cons e older ih =>
    by_cases hsnap : ∃ site prior new, e = .snapshot site prior new ∧ new.runID = runID
    · obtain ⟨site, prior, new, rfl, hnew⟩ := hsnap
      rw [latestIn_snapshot, if_pos hnew]
      exact ⟨_, _, rfl⟩
    · rw [latestIn_cons_of_other fun site prior new heq hid =>
        hsnap ⟨site, prior, new, heq, hid⟩]
      obtain ⟨site, prior, hat⟩ := hrun
      rcases At.cons_iff.mp hat with ⟨-, heq⟩ | hold
      · exact absurd ⟨site, prior, run, heq.symm, hid⟩ hsnap
      · exact ih ⟨site, prior, hold⟩

end World

namespace LogOk

lemma write (h : LogOk o K (.snapshot site prior run :: log)) : (∃ rev base, prior = some rev ∧
      World.latestIn run.runID log = some (rev, base) ∧
      WriteOk o log site rev base run) ∨ (prior = none ∧ CreateOk o site run) := by
  rcases h.head with ⟨hok, -⟩ | ⟨hout, -⟩
  · cases prior with
    | none => exact .inr ⟨rfl, hok.1⟩
    | some rev =>
      obtain ⟨base, hlatest, hwrite⟩ := hok
      exact .inl ⟨rev, base, rfl, hlatest, hwrite⟩
  · exact hout.elim

lemma engine (h : LogOk o K (.snapshot site prior run :: log)) :
    K.engine log (.snapshot site prior run) := by
  rcases h.head with ⟨-, hK⟩ | ⟨hout, -⟩
  · exact hK
  · exact hout.elim

/-- What creation establishes and every write preserves holds of every stored
run. -/
lemma stored {P : List Entry → WorkflowRun → Prop} (hlog : LogOk o K log)
    (hmono : ∀ {log log' run}, log <:+ log' → P log run → P log' run)
    (hcreate : ∀ {log site run}, CreateOk o site run →
      K.engine log (.snapshot site none run) → P log run)
    (hwrite : ∀ {log site rev base run}, LogOk o K log →
      World.latestIn run.runID log = some (rev, base) →
      WriteOk o log site rev base run →
      K.engine log (.snapshot site (some rev) run) → P log base → P log run)
    (hrun : Wrote log rev run) : P log run := by
  induction hlog generalizing rev run with
  | nil =>
    obtain ⟨site, prior, hat⟩ := hrun
    exact absurd hat.lt (by simp)
  | @cons older e hold happ ih =>
    obtain ⟨site, prior, hat⟩ := hrun
    rcases At.cons_iff.mp hat with ⟨-, rfl⟩ | hat
    · refine hmono (List.suffix_cons _ older) ?_
      have hcons : LogOk o K (.snapshot site prior run :: older) := hold.cons happ
      rcases hcons.write with ⟨rev', base, rfl, hlatest, hok⟩ | ⟨rfl, hok⟩
      · exact hwrite hold hlatest hok hcons.engine (ih (World.latestIn_wrote hlatest).1)
      · exact hcreate hok hcons.engine
    · exact hmono (List.suffix_cons e older) (ih ⟨site, prior, hat⟩)

lemma introduced (h : LogOk o K (.snapshot site none run :: log)) : Introduced o log site run := by
  rcases h.head with ⟨hok, -⟩ | ⟨hout, -⟩
  · exact hok.2
  · exact hout.elim

/-- What creation establishes, every write of the run carries over from its base and
no other entry destroys holds of the run that is stored. -/
lemma current {P : List Entry → WorkflowRun → Prop} (hlog : LogOk o K log)
    (hother : ∀ {older e run}, (e :: older) <:+ log →
      (∀ site prior new, e = .snapshot site prior new → new.runID ≠ run.runID) →
      P older run → P (e :: older) run)
    (hcreate : ∀ {older site run}, (.snapshot site none run :: older) <:+ log →
      CreateOk o site run → Introduced o older site run →
      K.engine older (.snapshot site none run) →
      P (.snapshot site none run :: older) run) (hwrite : ∀ {older site rev base run},
      (.snapshot site (some rev) run :: older) <:+ log →
      World.latestIn run.runID older = some (rev, base) →
      WriteOk o older site rev base run →
      K.engine older (.snapshot site (some rev) run) → P older base →
      P (.snapshot site (some rev) run :: older) run)
    (hlatest : World.latestIn runID log = some (rev, run)) : P log run := by
  have hpart : ∀ part, part <:+ log → ∀ {rev run},
      World.latestIn runID part = some (rev, run) → P part run := by
    intro part
    induction part with
    | nil =>
      intro _ rev run h
      cases h
    | cons e older ih =>
      intro hin rev run h
      have hcons : LogOk o K (e :: older) := hlog.suffix hin
      rcases World.latestIn_cons h with ⟨site, prior, rfl, -, hid⟩ | ⟨hskip, h⟩
      · rcases hcons.write with ⟨rev, base, rfl, hbase, hok⟩ | ⟨rfl, hok⟩
        · have hold : P older base := ih ((List.suffix_cons _ older).trans hin) (hid ▸ hbase)
          exact hwrite hin hbase hok hcons.engine hold
        · exact hcreate hin hok hcons.introduced hcons.engine
      · have hid := (World.latestIn_wrote h).2
        exact hother hin (hid ▸ hskip) (ih ((List.suffix_cons _ older).trans hin) h)
  exact hpart log List.suffix_rfl hlatest

/-- No run is created over a stored one. -/
def Single (K : Terms) : Prop :=
  ∀ log site run, K.engine log (.snapshot site none run) → World.latestIn run.runID log = none

section

variable (hlog : LogOk o K log) (hK : Single K)
include hlog hK

/-- What holds when one write has been made, and is preserved by every write of that
run made after it and by all other entries, holds of the stored run. -/
lemma ongoing {P : List Entry → WorkflowRun → Prop} {before : List Entry}
    (hstart : P (.snapshot site₀ prior₀ start :: before) start)
    (hother : ∀ {log e run}, run.runID = start.runID →
      (∀ site prior new, e = .snapshot site prior new → new.runID ≠ run.runID) →
      P log run → P (e :: log) run) (hwrite : ∀ {log site rev base run}, LogOk o K log →
      (.snapshot site₀ prior₀ start :: before) <:+ log → run.runID = start.runID →
      World.latestIn run.runID log = some (rev, base) →
      WriteOk o log site rev base run →
      K.engine log (.snapshot site (some rev) run) → P log base →
      P (.snapshot site (some rev) run :: log) run)
    (hsuffix : (.snapshot site₀ prior₀ start :: before) <:+ log)
    (hlatest : World.latestIn start.runID log = some (rev, run)) : P log run := by
  induction hlog generalizing rev run with
  | nil => exact absurd hsuffix (by simp)
  | @cons older e hold happ ih =>
    have hcons : LogOk o K (e :: older) := hold.cons happ
    rcases List.suffix_cons_iff.mp hsuffix with heq | hbefore
    · obtain ⟨rfl, rfl⟩ := List.cons.inj heq
      rw [World.latestIn_snapshot, if_pos rfl] at hlatest
      obtain ⟨-, rfl⟩ := Prod.mk.inj (Option.some.inj hlatest)
      exact hstart
    · rcases World.latestIn_cons hlatest with ⟨site, prior, rfl, -, hid⟩ | ⟨hskip, hlatest⟩
      · rcases hcons.write with ⟨rev, base, rfl, hbase, hok⟩ | ⟨rfl, -⟩
        · exact hwrite hold hbefore hid hbase hok hcons.engine (ih hbefore (hid ▸ hbase))
        · have hat : At older before.length (.snapshot site₀ prior₀ start) :=
            ⟨before, hbefore, rfl⟩
          obtain ⟨rev, base, hsome⟩ := World.exists_latestIn ⟨site₀, prior₀, hat⟩ rfl
          rw [← hid, hK older site run hcons.engine] at hsome
          cases hsome
      · have hid := (World.latestIn_wrote hlatest).2
        exact hother hid (hid ▸ hskip) (ih hbefore hlatest)

/-- What holds of one write and is preserved by every write of that run made after
it holds of all of them. -/
lemma after {P : WorkflowRun → Prop} (hstart : P start)
    (hwrite : ∀ {log site rev base run}, LogOk o K log →
      At log i (.snapshot site₀ prior₀ start) → run.runID = start.runID →
      World.latestIn run.runID log = some (rev, base) →
      WriteOk o log site rev base run →
      K.engine log (.snapshot site (some rev) run) → P base → P run)
    (hi : At log i (.snapshot site₀ prior₀ start)) (hj : Wrote log j run)
    (hid : run.runID = start.runID) (hij : i ≤ j) : P run := by
  obtain ⟨site, prior, hat⟩ := hj
  obtain ⟨older, hsuffix, rfl, hold, happended⟩ := hlog.entry hat
  have hcons : LogOk o K (.snapshot site prior run :: older) := hold.cons happended
  have hlatest : World.latestIn start.runID (.snapshot site prior run :: older) =
      some (older.length, run) := by
    rw [World.latestIn_snapshot, if_pos hid]
  obtain ⟨before, hbefore, rfl⟩ := hi.restrict hsuffix (by simpa using Nat.lt_succ_of_le hij)
  exact ongoing (P := fun _ run => P run) hcons hK hstart (fun _ _ h => h)
    (fun hlog hsuffix => hwrite hlog ⟨before, hsuffix, rfl⟩) hbefore hlatest

/-- What every write relates to its base holds between any two writes of a
run. -/
lemma later {R : WorkflowRun → WorkflowRun → Prop}
    (hrefl : ∀ run, R run run) (htrans : ∀ {a b c}, R a b → R b c → R a c)
    (hwrite : ∀ {log site rev base run}, LogOk o K log →
      World.latestIn run.runID log = some (rev, base) →
      WriteOk o log site rev base run →
      K.engine log (.snapshot site (some rev) run) → R base run) {run' : WorkflowRun}
    (hi : Wrote log i run) (hj : Wrote log j run') (hid : run'.runID = run.runID) (hij : i ≤ j) :
    R run run' := by
  obtain ⟨site, prior, hat⟩ := hi
  refine hlog.after (P := R run) hK (hrefl run) ?_ hat hj hid hij
  intro log site rev base new hlog _ _ hlatest hok hengine hbase
  exact htrans hbase (hwrite hlog hlatest hok hengine)

end

end LogOk

end Dagnats
