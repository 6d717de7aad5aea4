import Dagnats.Engine.Lineage
import Dagnats.Engine.Scenario

/-!
# Singleton runs exclude each other

A run of a singleton workflow claims the lock of its key before its first
snapshot is written, and the lock is deleted once the run has ended. A rival
takes it over from a holder that has ended, or whose snapshot is not there in
time. So a run that is stored and has not ended is named by the lock of its key,
unless its first snapshot comes late: after the run has ended, by a second
engine that handles the same start, or after a rival has looked for it.
-/

namespace Dagnats

open Interaction

variable {o : Orchestrator} {key : String} {e : Entry} {prior : Option ℕ} {at_ : Time}
  {run : WorkflowRun} {w : World} {op : Call} {log : List Entry} {runID : String}
  {new : WorkflowRun} {rev : ℕ} {site : Site}

/-- All claims of the run were made less than the grace period ago. -/
def claimsYoung (w : World) (key runID : String) : Bool :=
  w.log.all fun
    | .lock key' lock at_ =>
      key' ≠ key || lock.runID ≠ runID || w.now - at_ < singletonUnsavedGrace
    | _ => true

/-- Nothing is stored under the name in the lock. -/
def holderUnsaved (w : World) (key : String) : Bool :=
  (World.lockIn key w.log).all fun x => (w.latest x.2.1.runID).isNone

/-- The first snapshot of a run with the key replaces nothing and comes within the grace
period of its claims; it leaves the queue only while it is Pending; and a claimer that
found no snapshot of the holder takes the lock over only while there still is none. -/
def keepsToLock (key : String) (w : World) : Call → Bool
  | .put site run | .create site run =>
    run.singletonKey ≠ key || site = .finalize ||
      ((w.latest run.runID).isNone && claimsYoung w key run.runID)
  | .update site run _ =>
    run.singletonKey ≠ key || site ≠ .queueAdvance ||
      (w.latest run.runID).all fun x => x.2.status = .pending
  | .updateLock key' lock _ => key' ≠ key || !lock.unsaved || holderUnsaved w key
  | _ => true

variable (allows : World → Call → Bool)

/-- Conditions on the calls of the engines that can be evaluated. -/
def onCalls : Conditions o.system where
  call w op := allows w op = true
  job _ _ := True
  move _ _ := True

def callChecks : Checks o.system where
  call := allows
  job _ _ := true
  move _ _ := true

lemma callChecks_sound : (callChecks (o := o) allows).Sound (onCalls allows) where
  call h := h
  job _ := trivial
  move _ := trivial

/-! ## The lock names the run -/

section

variable (key : String) (log : List Entry)

def Named (runID : String) : Prop :=
  ∃ rev lock created, World.lockIn key log = some (rev, lock, created) ∧ lock.runID = runID

/-- What is known of a stored run with the key that has not ended. -/
structure Locked (run : WorkflowRun) : Prop where
  hasID : run.runID ≠ ""
  alive : ∀ old, Ended log old → old.runID ≠ run.runID
  named : Named key log run.runID

/-- The stored runs with the key that have not ended are named by the lock. -/
def AllLocked : Prop :=
  ∀ ⦃runID rev run⦄, World.latestIn runID log = some (rev, run) →
    run.singletonKey = key → run.status.isTerminal = false → Locked key log run

end

lemma AllLocked.eq (h : AllLocked key log) {r r' : String} {rev' : ℕ} {run' : WorkflowRun}
    (hrun : World.latestIn r log = some (rev, run))
    (hrun' : World.latestIn r' log = some (rev', run')) (hkey : run.singletonKey = key)
    (hkey' : run'.singletonKey = key) (halive : run.status.isTerminal = false)
    (halive' : run'.status.isTerminal = false) : r = r' := by
  obtain ⟨rev₁, lock₁, created₁, hlock₁, hid₁⟩ := (h hrun hkey halive).named
  obtain ⟨rev₂, lock₂, created₂, hlock₂, hid₂⟩ := (h hrun' hkey' halive').named
  rw [hlock₁] at hlock₂
  obtain ⟨-, hpair⟩ := Prod.mk.inj (Option.some.inj hlock₂)
  obtain ⟨rfl, -⟩ := Prod.mk.inj hpair
  calc r = run.runID := (World.latestIn_wrote hrun).2.symm
    _ = run'.runID := hid₁.symm.trans hid₂
    _ = r' := (World.latestIn_wrote hrun').2

lemma AllLocked.cons_other (h : AllLocked key log)
    (hsnap : ∀ site prior new, e ≠ .snapshot site prior new) (hlock : ¬e.movesLock key) :
    AllLocked key (e :: log) := by
  intro runID rev run hlatest hkey halive
  rw [World.latestIn_cons_of_ne hsnap] at hlatest
  obtain ⟨hname, hnone, rev', lock, created, hheld, hid⟩ := h hlatest hkey halive
  refine ⟨hname, ?_, ?_⟩
  · intro old hended hold
    exact hnone old (hended.of_cons hold fun site prior new heq =>
      absurd heq (hsnap site prior new)) hold
  · exact ⟨rev', lock, created, (World.lockIn_cons_of_ne hlock).trans hheld, hid⟩

lemma AllLocked.cons_snapshot (h : AllLocked key log)
    (hnew : new.singletonKey = key → new.status.isTerminal = false → Locked key log new) :
    AllLocked key (.snapshot site prior new :: log) := by
  have hlock : World.lockIn key (.snapshot site prior new :: log) = World.lockIn key log := rfl
  intro runID rev run hlatest hkey halive
  rw [World.latestIn_snapshot] at hlatest
  split at hlatest
  · obtain ⟨-, rfl⟩ := Prod.mk.inj (Option.some.inj hlatest)
    obtain ⟨hname, hnone, rev', lock, created, hheld, hid⟩ := hnew hkey halive
    refine ⟨hname, ?_, ?_⟩
    · intro old hended
      exact hnone old (hended.of_snapshot halive)
    · exact ⟨rev', lock, created, hlock.trans hheld, hid⟩
  · next hother =>
    have hrunID : run.runID = runID := (World.latestIn_wrote hlatest).2
    obtain ⟨hname, hnone, rev', lock, created, hheld, hid⟩ := h hlatest hkey halive
    refine ⟨hname, ?_, ?_⟩
    · intro old hended hold
      refine hnone old (hended.of_cons hold fun site' prior' new' heq => ?_) hold
      injection heq with _ _ heq
      rw [hrunID, ← heq]
      exact hother
    · exact ⟨rev', lock, created, hlock.trans hheld, hid⟩

/-- Locks are taken at instants that have passed. -/
def LocksPast (w : World) : Prop :=
  ∀ key lock at_, .lock key lock at_ ∈ w.log → at_ ≤ w.now

/-- A run that had the lock, is not stored and may still be stored in time, has the
lock: a rival would have had to wait. -/
lemma named_of_hadLock {K : Terms} (hlog : LogOk o K w.log) (hpast : LocksPast w)
    (hskip : ¬Displaces o w.log key) (hid : runID ≠ "") (hnone : w.latest runID = none)
    (hyoung : claimsYoung w key runID = true) (h : HadLock w.log key runID) :
    Named key w.log runID := by
  obtain ⟨older, rev, lock, created, hsuffix, hheld, hlock⟩ := h
  have hnobody : ∀ old, Ended w.log old → old.runID ≠ runID :=
    fun old hended hold => not_ended_of_none hnone hold hended
  rcases World.lockIn_since hsuffix with hsame | ⟨e, mid, holder, hin, hmoves, hmid⟩
  · exact ⟨rev, lock, created, hsame.trans hheld, hlock⟩
  · exfalso
    rw [hheld] at hmid
    have hmidlog : mid <:+ w.log := (List.suffix_cons e mid).trans hin
    have happ := (hlog.suffix hin).head
    cases e with
    | lock key' lock' at_ =>
      have hkey : key' = key := hmoves
      subst hkey
      have hok : LockOk o mid key' lock' at_ := happ.elim (fun h => h.1) fun h => h.1.elim
      rcases hok with hfree | ⟨rev', old, created', hold, hletgo⟩
      · rw [hmid] at hfree
        cases hfree
      · rw [hmid] at hold
        cases hold
        rcases hletgo with (hempty | ⟨run, hended, hrun⟩ | ⟨-, -, hgrace⟩) | hdisplaced
        · exact hid (hlock.symm.trans hempty)
        · exact hnobody run (hended.mono hmidlog) (hrun.trans hlock)
        · -- the rival waited for the grace period, which is not over yet
          have hclaim : .lock key' lock created ∈ w.log :=
            ((World.lockIn_at hmid).mono hmidlog).mem
          have hnow := hpast key' lock' at_ (hin.subset (.head _))
          rw [claimsYoung, List.all_eq_true] at hyoung
          have hlt := hyoung _ hclaim
          simp only [ne_eq, not_true_eq_false, decide_false, Bool.false_or, hlock,
            decide_eq_true_eq] at hlt
          exact absurd (Int.le_trans hgrace (Int.sub_le_sub_right hnow created))
            (Int.not_le.mpr hlt)
        · exact hskip (hdisplaced.mono hmidlog)
    | unlocked key' runID' =>
      have hkey : key' = key := hmoves
      subst hkey
      have hok : UnlockOk mid key' runID' := happ.elim (fun h => h.1) fun h => h.1.elim
      obtain ⟨⟨rev', old, created', hold, hname⟩, run, hended, hrun, -⟩ := hok
      rw [hmid] at hold
      cases hold
      exact hnobody run (hended.mono hmidlog) (hrun.trans (hname.symm.trans hlock))
    | _ => exact hmoves

/-! ## One step -/

lemma Appends.lock_at {key : String} {lock : SingletonLock}
    (h : Appends w op (.lock key lock at_)) :
    at_ = w.now ∧ (World.lockIn key w.log = none ∨ ∃ rev, op = .updateLock key lock rev) := by
  cases op <;> simp only [Appends, reduceCtorEq, exists_const, and_false, or_self] at h
  case createLock key' lock' =>
      obtain ⟨hnone, heq⟩ := h
      cases heq
      exact ⟨rfl, .inl hnone⟩
  case updateLock key' lock' rev =>
      obtain ⟨-, heq⟩ := h
      cases heq
      exact ⟨rfl, .inr ⟨rev, rfl⟩⟩

lemma keepsToLock_create (h : keepsToLock key w op = true)
    (happ : Appends w op (.snapshot site none new)) (hkey : new.singletonKey = key)
    (hsite : site ≠ .finalize) :
    w.latest new.runID = none ∧ claimsYoung w key new.runID = true := by
  have hwrite := happ.write
  cases op <;> simp only [Call.write, reduceCtorEq, Option.some.injEq, Prod.mk.injEq,
    false_and, and_false] at hwrite
  all_goals
    obtain ⟨rfl, -, rfl⟩ := hwrite
    have hkey' : _ = key := hkey
    simp only [keepsToLock, ne_eq, decide_not, Bool.or_eq_true, Bool.and_eq_true, Bool.not_eq_true',
      decide_eq_false_iff_not, decide_eq_true_eq, Option.isNone_iff_eq_none] at h
    rcases h with (h | h) | h
    · exact absurd hkey' h
    · exact absurd h hsite
    · exact h

lemma keepsToLock_advance (h : keepsToLock key w op = true)
    (happ : Appends w op (.snapshot .queueAdvance (some rev) new)) (hkey : new.singletonKey = key)
    {x : ℕ × WorkflowRun} (hlatest : w.latest new.runID = some x) : x.2.status = .pending := by
  have hwrite := happ.write
  cases op <;> simp only [Call.write, reduceCtorEq, Option.some.injEq, Prod.mk.injEq,
    false_and, and_false] at hwrite
  case update site run rev' =>
      obtain ⟨rfl, -, rfl⟩ := hwrite
      have hkey' : run.singletonKey = key := hkey
      have hlatest' : w.latest run.runID = some x := hlatest
      simpa [keepsToLock, hkey', hlatest'] using h

/-- Nobody takes the lock over from a run that is stored and has not ended. -/
lemma AllLocked.lock {lock : SingletonLock} (h : AllLocked key w.log)
    (hallowed : keepsToLock key w op = true) (happ : Appends w op (.lock key lock at_))
    (hok : LockOk o w.log key lock at_) (hskip : ¬Displaces o w.log key) :
    AllLocked key (.lock key lock at_ :: w.log) := by
  intro runID rev run hlatest hkey halive
  exfalso
  rw [World.latestIn_cons_of_ne (by simp)] at hlatest
  obtain ⟨hname, hnone, rev', held, created, hheld, hid⟩ := h hlatest hkey halive
  rcases hok with hfree | ⟨rev'', old, created', hold, hletgo⟩
  · rw [hfree] at hheld
    cases hheld
  · rw [hheld] at hold
    cases hold
    rcases hletgo with (hempty | ⟨ended, hended, hsame⟩ | ⟨hunsaved, -⟩) | hdisplaced
    · exact hname (hid.symm.trans hempty)
    · exact hnone ended hended (hsame.trans hid)
    · -- the claimer found no snapshot, and by the condition there still is none
      rcases happ.lock_at.2 with hfree | ⟨rev'', rfl⟩
      · rw [hheld] at hfree
        cases hfree
      · have hrunID : run.runID = runID := (World.latestIn_wrote hlatest).2
        simp [keepsToLock, hunsaved, holderUnsaved, hheld, hid, hrunID, World.latest,
          hlatest] at hallowed
    · exact hskip hdisplaced

lemma AllLocked.unlock (h : AllLocked key log) (hok : UnlockOk log key runID) :
    AllLocked key (.unlocked key runID :: log) := by
  intro runID' rev run hlatest hkey halive
  exfalso
  rw [World.latestIn_cons_of_ne (by simp)] at hlatest
  obtain ⟨-, hnone, rev', lock, created, hheld, hid⟩ := h hlatest hkey halive
  obtain ⟨⟨rev'', lock', created', hheld', hid'⟩, old, hended, hold, -⟩ := hok
  rw [hheld] at hheld'
  cases hheld'
  exact hnone old hended (hold.trans (hid'.symm.trans hid))

section

variable (h : AllLocked key w.log) (hkey : key ≠ "") (hallowed : keepsToLock key w op = true)
include h hkey hallowed

lemma AllLocked.write (happ : Appends w op (.snapshot site prior new))
    (hlog : LogOk o Terms.free (.snapshot site prior new :: w.log)) (hpast : LocksPast w)
    (hskip : ¬Displaces o w.log key) : AllLocked key (.snapshot site prior new :: w.log) := by
  refine h.cons_snapshot fun hnewkey halive => ?_
  rcases hlog.write with ⟨rev, base, rfl, hbase, hwrite⟩ | ⟨rfl, hcreate⟩
  · have hid : base.runID = new.runID := (World.latestIn_wrote hbase).2
    have hbasekey : base.singletonKey = key := hwrite.singletonKey.symm.trans hnewkey
    have hopen : base.status.isTerminal = false := by
      rcases hwrite.status_cases halive with hsame | rfl
      · rw [← hsame]
        exact halive
      · rw [keepsToLock_advance hallowed happ hnewkey hbase]
        rfl
    obtain ⟨hname, hnone, hnamed⟩ := h hbase hbasekey hopen
    rw [hid] at hname hnone hnamed
    exact ⟨hname, hnone, hnamed⟩
  · have hsite : site ≠ .finalize := by
      intro hrefused
      rw [hcreate.status.mpr hrefused] at halive
      cases halive
    obtain ⟨hnone, hyoung⟩ := keepsToLock_create hallowed happ hnewkey hsite
    obtain ⟨hrunID, hhad⟩ := hlog.introduced.locked (hnewkey ▸ hkey)
    rw [hnewkey] at hhad
    refine ⟨hrunID, ?_, ?_⟩
    · intro old hended hold
      exact not_ended_of_none hnone hold hended
    · exact named_of_hadLock hlog.tail hpast hskip hrunID hnone hyoung hhad

lemma AllLocked.append (happ : Appends w op e)
    (hlog : LogOk o Terms.free (e :: w.log)) (hpast : LocksPast w)
    (hskip : ¬Displaces o w.log key) :
    AllLocked key (e :: w.log) := by
  by_cases hmoves : e.movesLock key
  · cases e with
    | lock key' lock at_ =>
      have hsame : key' = key := hmoves
      subst hsame
      exact h.lock hallowed happ (hlog.head.elim (fun h => h.1) fun h => h.1.elim) hskip
    | unlocked key' runID =>
      have hsame : key' = key := hmoves
      subst hsame
      exact h.unlock (hlog.head.elim (fun h => h.1) fun h => h.1.elim)
    | _ => exact hmoves.elim
  · cases e with
    | snapshot site prior new => exact h.write hkey hallowed happ hlog hpast hskip
    | _ => exact h.cons_other (by simp) hmoves

end

/-! ## Whole runs -/

lemma reaches_allLocked {p : Pool o.system} (hkey : key ≠ "")
    (hp : Pool.Reaches (onCalls (keepsToLock key)) (emptyPool o) p)
    (hskip : ¬Displaces o p.state.log key) : AllLocked key p.state.log := by
  have hall : LocksPast p.state ∧ (¬Displaces o p.state.log key → AllLocked key p.state.log) := by
    refine reaches_worlds (I := fun w => LocksPast w ∧
      (¬Displaces o w.log key → AllLocked key w.log)) ?_ ?_ ?_ ?_ hp
    · constructor
      · intro key lock at_ hmem
        cases hmem
      · intro _ runID rev run hlatest
        cases hlatest
    · intro w op e hallowed happ hlog ⟨hpast, hlocked⟩
      constructor
      · intro key' lock at_ hmem
        rcases List.mem_cons.mp hmem with rfl | hmem
        · exact Int.le_of_eq happ.lock_at.1
        · exact hpast key' lock at_ hmem
      · intro hskip
        have hskip' : ¬Displaces o w.log key :=
          fun hdisplaces => hskip (hdisplaces.mono (List.suffix_cons e w.log))
        exact (hlocked hskip').append hkey hallowed happ hlog hpast hskip'
    · intro w e hout _ ⟨hpast, hlocked⟩
      have hother : (∀ site prior new, e ≠ .snapshot site prior new) ∧
          (∀ key, ¬e.movesLock key) ∧ ∀ key lock at_, e ≠ .lock key lock at_ := by
        cases e <;> first | exact hout.elim | simp [Entry.movesLock]
      constructor
      · intro key' lock at_ hmem
        rcases List.mem_cons.mp hmem with heq | hmem
        · exact absurd heq.symm (hother.2.2 key' lock at_)
        · exact hpast key' lock at_ hmem
      · intro hskip
        refine AllLocked.cons_other (hlocked fun hdisplaces => ?_) hother.1 (hother.2.1 key)
        exact hskip (hdisplaces.mono (List.suffix_cons e w.log))
    · intro w d ⟨hpast, hlocked⟩
      refine ⟨fun key lock at_ hmem => ?_, hlocked⟩
      exact Int.le_trans (hpast key lock at_ hmem)
        (Int.le_add_of_nonneg_right (Int.natCast_nonneg d))
  exact hall.2 hskip

/-- **Singleton runs exclude each other.**  In every interleaving of any number of
engines, wherever they crash, in which the calls keep to the lock of the key and no
definition displaces its holder: at most one run with the key is stored that has not
ended, and a release removes the lock only while it names the released run. -/
theorem singleton_exclusion {p : Pool o.system} (hkey : key ≠ "")
    (hp : Pool.Reaches (onCalls (keepsToLock key)) (emptyPool o) p)
    (hskip : ¬Displaces o p.state.log key) :
    (∀ r r' rev rev' run run', p.state.latest r = some (rev, run) →
      p.state.latest r' = some (rev', run') →
      run.singletonKey = key → run'.singletonKey = key →
      run.status.isTerminal = false → run'.status.isTerminal = false → r = r') ∧
    ∀ older runID, (.unlocked key runID :: older) <:+ p.state.log →
      ∃ rev lock created, World.lockIn key older = some (rev, lock, created) ∧
        lock.runID = runID := by
  constructor
  · intro r r' rev rev' run run' hrun hrun' hrunkey hrunkey' halive halive'
    have hlocked := reaches_allLocked hkey hp hskip
    exact hlocked.eq hrun hrun' hrunkey hrunkey' halive halive'
  · intro older runID hin
    have happ := ((reaches_logOk_free hp.free).suffix hin).head
    have hok : UnlockOk older key runID := happ.elim (fun h => h.1) fun h => h.1.elim
    exact hok.1

/-! ## A start that is handled twice -/

/-- No definition in the log displaces the holder of a lock. -/
def skipsOnly (log : List Entry) : Bool :=
  let skips (d : WorkflowDef) : Bool := d.singleton.all fun cfg => cfg.mode ≠ .cancel
  log.all fun
    | .definition _ d => skips d
    | .event e => e.start.carried.all skips
    | _ => true

lemma not_displaces_of_skipsOnly (h : skipsOnly log = true) : ¬Displaces o log key := by
  rintro ⟨d, cfg, input, hd, hcfg, -, hmode⟩
  have hskips : (d.singleton.all fun cfg => cfg.mode ≠ .cancel) = true := by
    rw [skipsOnly, List.all_eq_true] at h
    cases hd.inPlay with
    | registered key hmem => exact h _ hmem
    | started e hmem hcarried =>
      have hall := h _ hmem
      dsimp only at hall
      rw [hcarried] at hall
      exact hall
  simp [hcfg, hmode] at hskips

namespace Solo

def engine : Orchestrator := Orchestrator.plain

/-- One run at a time; a start that finds one at work is skipped. -/
def workflow : WorkflowDef where
  name := "solo"
  steps := [{ id := "a", task := "work" }]
  singleton := some { mode := .skip }

def start (runID : String) : Order engine.system :=
  publish { type := .workflowStarted, runID := runID
            start := .inline workflow .nil }

/-- The stored run has the key and has not ended. -/
def atWork (w : World) (runID : String) : Bool :=
  (w.latest runID).any fun x =>
    x.2.singletonKey = "solo" && !x.2.status.isTerminal

lemma exists_of_atWork (h : atWork w runID = true) : ∃ rev run, w.latest runID = some (rev, run) ∧
    run.singletonKey = "solo" ∧ run.status.isTerminal = false := by
  obtain ⟨⟨rev, run⟩, hlatest, htest⟩ := (Option.any_eq_true _ _).mp h
  rw [Bool.and_eq_true, decide_eq_true_eq, Bool.not_eq_true'] at htest
  exact ⟨rev, run, hlatest, htest⟩

/-- Two engines handle the start of `r`. The first has claimed the lock when the second
starts the run, which completes; `s` is started, and then the first stores `r`. -/
def script : List (Order engine.system) :=
  [register workflow, start "r", .act (.start (.handle 2)), .drive World.calm 0 4,
    .act (.start (.handle 2)), .drive World.calm 1 100, .act (.drop 1),
    publish (answered .stepCompleted "a" 6),
    .act (.start (.handle 11)), .drive World.calm 1 100, .act (.drop 1),
    start "s",
    .act (.start (.handle 17)), .drive World.calm 1 100, .act (.drop 1),
    .drive World.calm 0 100]

/-- Two runs with one key are at work, before any time has passed. -/
theorem two_runs_at_work : Valid engine workflow ∧ ∃ p : Pool engine.system,
    Pool.Reaches Conditions.free (emptyPool engine) p ∧ ¬Displaces engine p.state.log "solo" ∧
    p.state.now = 0 ∧ ∃ rev rev' run run', p.state.latest "r" = some (rev, run) ∧
    p.state.latest "s" = some (rev', run') ∧ run.singletonKey = "solo" ∧ run'.singletonKey =
    "solo" ∧ run.status.isTerminal = false ∧ run'.status.isTerminal = false := by
  refine ⟨by decide +kernel, ?_⟩
  obtain ⟨p, hp, htest⟩ := reaches_free engine script (fun p =>
      skipsOnly p.state.log && decide (p.state.now = 0) &&
      (atWork p.state "r" && atWork p.state "s"))
  simp only [Bool.and_eq_true, decide_eq_true_eq] at htest
  obtain ⟨⟨hskips, hnow⟩, hr, hs⟩ := htest
  obtain ⟨rev, run, hrun, hkey, halive⟩ := exists_of_atWork hr
  obtain ⟨rev', run', hrun', hkey', halive'⟩ := exists_of_atWork hs
  exact ⟨p, hp, not_displaces_of_skipsOnly hskips, hnow, rev, rev', run, run', hrun,
    hrun', hkey, hkey', halive, halive'⟩

/-- A second start is skipped, and the first run is the only one at work. -/
theorem second_start_skipped : ∃ p : Pool engine.system,
    Pool.Reaches (onCalls (keepsToLock "solo")) (emptyPool engine) p ∧ atWork p.state "r" = true ∧
    ∀ r rev run, p.state.latest r = some (rev, run) → run.singletonKey = "solo" →
    run.status.isTerminal = false → r = "r" := by
  obtain ⟨p, hp, htest⟩ :=
    Pool.reaches_of_script (callChecks_sound (keepsToLock "solo")) (emptyPool engine)
    (launched engine workflow ++ [start "s"] ++ perform (.handle 11)) (fun p =>
      skipsOnly p.state.log && atWork p.state "r")
  rw [Bool.and_eq_true] at htest
  obtain ⟨rev, run, hrun, hkey, halive⟩ := exists_of_atWork htest.2
  refine ⟨p, hp, htest.2, fun r rev' run' hrun' hkey' halive' => ?_⟩
  exact (singleton_exclusion (by decide) hp (not_displaces_of_skipsOnly htest.1)).1
    r "r" rev' rev run' run hrun' hrun hkey' hkey halive' halive

end Solo

end Dagnats
