import Dagnats.Engine.Refinement.Saving

/-!
# Definitions and admission keep the contract

What is known about a definition that was loaded for a run, and what admission
leaves behind: a run that may proceed was given a slot where its workflow limits
the runs, and a run that is not skipped had the lock of its key. A lock is taken
from its holder only where the holder has let it go or is displaced.
-/

namespace Dagnats

open Interaction

variable {o : Orchestrator} {K : Terms} {w t : World} {result : AdmissionResult} {log' : List Entry}
  {input : Raw} {lock old : SingletonLock} {step : StepDef} {rev : ℕ} {d : WorkflowDef}
  {run : WorkflowRun} {runID key newRunID : String} {log : List Entry} {created : Time}
  {mode : SingletonMode}

lemma mem_effectiveDef {s : StepDef} :
    s ∈ (effectiveDef d run).steps ↔ s ∈ d.steps ∨ s ∈ run.dynamicSteps := by
  unfold effectiveDef
  split
  · next h => simp [List.isEmpty_iff.mp h]
  · simp

lemma effectiveDef_name :
    (effectiveDef d run).name = d.name := by
  unfold effectiveDef
  split <;> rfl

lemma effectiveDef_concurrency :
    (effectiveDef d run).concurrency = d.concurrency := by
  unfold effectiveDef
  split <;> rfl

lemma Sourced.dispatchDef (h : Sourced o w.log run d) (hrun : Loaded w runID run) :
    DispatchDef o w.log runID d := by
  obtain ⟨d0, hpinned, hstored, rfl⟩ := h
  obtain ⟨rev, stored, hwrote, hid, rfl⟩ := hrun
  exact .inr ⟨rev, stored, d0, hwrote, hid, hpinned, hstored.inPlay, fun s hs =>
    mem_effectiveDef.mp hs⟩

lemma EffectiveFor.congr {run' : WorkflowRun} (h : EffectiveFor o run d)
    (hhash : run'.defHash = run.defHash) (hdyn : run'.dynamicSteps = run.dynamicSteps) :
    EffectiveFor o run' d := by
  obtain ⟨d0, ⟨hvalid, hpin⟩, rfl⟩ := h
  refine ⟨d0, ⟨hvalid, by rwa [hhash]⟩, ?_⟩
  simp only [effectiveDef, hdyn]

lemma findStepDef_some {id : String} (h : findStepDef d id = some step) :
    step ∈ d.steps ∧ step.id = id := by
  refine ⟨List.mem_of_find?_eq_some h, ?_⟩
  simpa using List.find?_some h

namespace Does

lemma loadDef {workflowID : String} :
    Does o K w (Dagnats.loadDef workflowID) fun d t => Stored o t.log workflowID d :=
  getDef

lemma selfHealMissingVersion :
    Does o K w (o.selfHealMissingVersion run) fun d t => PinnedTo o run d ∧
    Stored o t.log run.workflowID d := by
  refine bind loadDef fun d t _ _ hstored => ?_
  refine guard fun hhash => ?_
  refine bind (createDef hstored) fun _ u _ htu _ => pure fun v huv => ?_
  exact ⟨⟨hstored.valid, .inl (not_not.mp hhash)⟩, hstored.mono (htu.trans huv).1⟩

lemma loadPinnedOrLatestDef : Does o K w (o.loadPinnedOrLatestDef run) fun d t => PinnedTo o run d ∧
    Stored o t.log run.workflowID d := by
  refine ite (fun hempty => ?_) fun _ => ?_
  · exact loadDef.conseq fun d _ _ _ hstored => ⟨⟨hstored.valid, .inr hempty⟩, hstored⟩
  · refine bind getDef.outcome fun r t _ _ hr => ?_
    split
    · next d =>
      have hstored := hr d rfl
      refine guard fun hhash => pure fun u htu => ?_
      exact ⟨⟨hstored.valid, .inl (not_not.mp hhash)⟩, hstored.mono htu.1⟩
    · refine bind selfHealMissingVersion.outcome fun r u _ _ hr => ?_
      cases r with
      | ok d => exact pure fun v huv => ⟨(hr d rfl).1, (hr d rfl).2.mono huv.1⟩
      | error e => exact throw
    · exact throw

lemma loadRunAndDef : Does o K w (o.loadRunAndDef runID) fun x t => Loaded t runID x.2 ∧
    Sourced o t.log x.2 x.1 := by
  refine bind load fun run t _ _ hrun => ?_
  refine bind loadPinnedOrLatestDef.outcome fun r u _ htu hr => ?_
  split
  · next d =>
    obtain ⟨hpin, hstored⟩ := hr d rfl
    exact pure fun v hv => ⟨hrun.mono (htu.trans hv), d, hpin, hstored.mono hv.1, rfl⟩
  · exact guard fun _ => throw

lemma ofFault {α : Type} {x : Except Fault α} :
    Does o K w (Dagnats.ofFault x) fun a _ => x = .ok a := by
  cases x with
  | ok a => exact pure fun _ _ => rfl
  | error f => exact fail

end Does

/-- The definition limits the runs of its workflow as one in play does. -/
def LimitsAs (o : Orchestrator) (log : List Entry) (d : WorkflowDef) : Prop :=
  ∃ d0, Stored o log d.name d0 ∧ d0.concurrency = d.concurrency

lemma Loaded.advanceable (h : Loaded w runID run) (hd : Sourced o w.log run d)
    (hslot : SlotGranted o w.log d run.runID) (deadline : Option Time) : Writable o w .queueAdvance
      { run with status := .running, deadline := deadline } := by
  obtain ⟨rev, stored, hwrote, -, rfl⟩ := h
  obtain ⟨d0, hpin, hstored, rfl⟩ := hd
  have hslot0 : SlotGranted o w.log d0 stored.runID := by
    rwa [SlotGranted, effectiveDef_name, effectiveDef_concurrency] at hslot
  refine ⟨rev, stored, rfl, hwrote, fun t ht time => ⟨⟨_, _, ?_,
    (SiteEdit.queueAdvance deadline).stamped time, rfl⟩, (fun h => nomatch h), fun _ => ?_⟩⟩
  · exact .single (.stamp (World.received rev stored) time)
  · exact ⟨d0, hpin, hstored.mono ht.1, hslot0.mono ht.1⟩

/-- The run that a handler holds a copy of has ended. -/
def EndedAs (log : List Entry) (run : WorkflowRun) : Prop :=
  ∃ stored, Ended log stored ∧ stored.runID = run.runID ∧
    stored.workflowID = run.workflowID ∧ stored.singletonKey = run.singletonKey

lemma EndedAs.mono (h : EndedAs log run) (hlog : log <:+ log') : EndedAs log' run := by
  obtain ⟨stored, hended, hids⟩ := h
  exact ⟨stored, hended.mono hlog, hids⟩

lemma Loaded.endedAs (h : Loaded w runID run) (hterm : run.status.isTerminal = true) :
    EndedAs w.log run := by
  obtain ⟨rev, stored, hwrote, -, rfl⟩ := h
  exact ⟨stored, ⟨hterm, rev, hwrote⟩, rfl, rfl, rfl⟩

lemma Saved.endedAs {saved : WorkflowRun} (h : Saved o w run saved)
    (hterm : run.status.isTerminal = true) : EndedAs w.log run := by
  obtain ⟨rev, stored, hwrote, hkin⟩ := h.stored
  exact ⟨stored, ⟨hkin.status ▸ hterm, rev, hwrote⟩, hkin.runID, hkin.workflowID, hkin.singletonKey⟩

lemma Stored.limitsAs {name : String} (h : Stored o log name d) : LimitsAs o log d :=
  ⟨d, ⟨h.valid, rfl, h.inPlay⟩, rfl⟩

lemma Sourced.limitsAs (h : Sourced o log run d) : LimitsAs o log d := by
  obtain ⟨d0, -, hstored, rfl⟩ := h
  refine ⟨d0, ⟨hstored.valid, ?_, hstored.inPlay⟩, ?_⟩
  · rw [effectiveDef_name]
  · rw [effectiveDef_concurrency]

namespace Does

lemma acquireRun {limit : ConcurrencyLimit} (h : LimitsAs o w.log d)
    (hlimit : d.concurrency = some limit) :
    Does o K w (Dagnats.acquireRun d.name runID limit.maxRuns) fun b t => b = true →
    0 < limit.maxRuns → HadSlot t.log (.run d.name) runID := by
  obtain ⟨d0, hstored, hsame⟩ := h
  refine ite (fun hzero => pure fun _ _ _ hpos => ?_) fun _ => ?_
  · exact absurd hpos (Int.not_lt.mpr hzero)
  · refine (acquire fun t ht hmem hroom => ?_).conseq fun b t _ _ hslot hb _ => (hslot hb).hadSlot
    exact ⟨hmem, d0, limit, hstored.mono ht.1, hsame.trans hlimit, hroom⟩

lemma acquireSlot (h : LimitsAs o w.log d) : Does o K w (o.acquireSlot d runID) fun b t => b =
    true → SlotGranted o t.log d runID := by
  unfold Orchestrator.acquireSlot
  split
  · next limit hlimit =>
    refine ite (fun _ => ?_) fun hoff => pure fun _ _ _ limit' _ hon => absurd hon hoff
    refine (acquireRun h hlimit).conseq fun b t _ _ hslot hb limit' hlimit' _ hpos => ?_
    rw [hlimit] at hlimit'
    cases hlimit'
    exact hslot hb hpos
  · next hnone =>
    refine pure fun _ _ _ limit hlimit => ?_
    rw [hnone] at hlimit
    cases hlimit

lemma acquireTask (h : StepOf o w.log runID step) :
    Does o K w (Dagnats.acquireTask step.task runID step.id step.maxTaskConcurrency) fun b t =>
    b = true →
    0 < step.maxTaskConcurrency →
    HadSlotSince w.log.length t.log (.task step.task) (taskSlotHolder runID step.id) := by
  refine ite (fun hzero => pure fun _ _ _ hpos => ?_) fun _ => ?_
  · exact absurd hpos (Int.not_lt.mpr hzero)
  · refine (acquire fun t ht hmem hroom => ?_).conseq fun b t _ _ hslot hb _ => hslot hb
    exact ⟨hmem, runID, step, h.mono ht.1, rfl, hroom⟩

lemma singletonHolder (hat : At w.log rev (.lock key lock created)) :
    Does o K w (Dagnats.singletonHolder lock created) fun r t => r.1 = false →
    LetGo t.log rev lock created t.now r.2 := by
  refine ite (fun hempty => pure fun _ _ _ => .inl hempty) fun _ => ?_
  refine bind lookup fun r t _ _ hr => ?_
  split
  · next run =>
    obtain ⟨rev', stored, hwrote, hid, rfl⟩ := hr.1 run rfl
    refine pure fun u htu hgone => ?_
    have hterm : stored.status.isTerminal = true := by
      simpa [World.received] using hgone
    exact .inr (.inl ⟨stored, ⟨hterm, rev', hwrote.mono htu.1⟩, hid⟩)
  · obtain ⟨seen, hseen, hlength, hmissing⟩ := hr.2 rfl
    refine bind nowIs fun time u _ htu htime => pure fun v huv hgone => ?_
    have hold : ¬time - created < singletonUnsavedGrace := by simpa using hgone
    have hsince : MissingSince (rev + 1) v.log lock.runID :=
      ⟨seen, hseen.trans (htu.trans huv).1, Nat.le_trans hat.lt hlength, hmissing⟩
    refine .inr (.inr ⟨rfl, hsince, Int.le_trans (Int.not_lt.mp hold) ?_⟩)
    exact Int.sub_le_sub_right (Int.le_trans htime huv.2) created
  · exact throw

def Claimed (key runID : String) (r : Option AdmissionResult) (t : World) : Prop :=
  ∀ result, r = some result → result.action ≠ .skip → runID ≠ "" ∧ HadLock t.log key runID

lemma updateSingletonLock (hat : At w.log rev (.lock key old created)) (hid : lock.runID ≠ "")
    (h : LetGo w.log rev old created w.now lock.unsaved ∨ Displaces o w.log key) :
    Does o K w (Dagnats.updateSingletonLock key lock rev result) (Claimed key lock.runID) := by
  refine bind (updateLock hat h) fun moved t _ _ hmoved => ?_
  refine ite (fun htrue => pure fun u htu result' _ _ => ?_) fun _ =>
    pure fun _ _ result' hresult => nomatch hresult
  exact ⟨hid, (hmoved htrue).mono htu.1⟩

lemma applySingletonMode (hat : At w.log rev (.lock key old created)) (hid : newRunID ≠ "")
    (hcancel : mode = .cancel → Displaces o w.log key) :
    Does o K w (Dagnats.applySingletonMode mode key newRunID old.runID rev)
      (Claimed key newRunID) := by
  cases mode with
  | skip =>
    refine pure fun _ _ result hresult hskip => ?_
    cases hresult
    exact absurd rfl hskip
  | cancel => exact updateSingletonLock hat hid (.inr (hcancel rfl))
  | other => exact panic

lemma trySingletonClaim (hcancel : mode = .cancel → Displaces o w.log key) :
    Does o K w (Dagnats.trySingletonClaim mode key newRunID) (Claimed key newRunID) := by
  refine guard fun hnames => ?_
  have hid : newRunID ≠ "" := fun h => hnames (.inr h)
  refine bind createLock fun created t _ hwt hcreated => ?_
  refine ite (fun htrue => pure fun u htu result _ _ =>
    ⟨hid, (hcreated htrue).mono htu.1⟩) fun _ => ?_
  refine bind getLock fun found u _ htu hfound => ?_
  split
  · exact pure fun _ _ result hresult => nomatch hresult
  · next rev lock created =>
    obtain ⟨hat, hlock⟩ := hfound rev lock created rfl
    refine bind (singletonHolder hat) fun held v _ huv hheld => ?_
    have hat' := hat.mono huv.1
    refine ite (fun hown => pure fun x hvx result _ _ => ?_) fun _ =>
      ite (fun hfree => ?_) fun hfree => ?_
    · exact ⟨hid, hown ▸ hlock.mono (huv.trans hvx).1⟩
    · exact updateSingletonLock hat' hid (.inl (hheld (by simpa using hfree)))
    · have hgrows := hwt.trans (htu.trans huv)
      exact applySingletonMode hat' hid fun hmode => (hcancel hmode).mono hgrows.1

lemma singletonClaims (n : ℕ) (hcancel : mode = .cancel → Displaces o w.log key) :
    Does o K w (Dagnats.singletonClaims mode key newRunID n) fun result t =>
      Claimed key newRunID (some result) t := by
  induction n generalizing w with
  | zero => exact throw
  | succ n ih =>
    refine bind (trySingletonClaim hcancel) fun r t _ hwt hr => ?_
    cases r with
    | none => exact ih fun hmode => (hcancel hmode).mono hwt.1
    | some result =>
      refine pure fun u htu result' h hskip => ?_
      obtain ⟨hid, hlock⟩ := hr result' h hskip
      exact ⟨hid, hlock.mono htu.1⟩

/-- What admission means for a run of the definition. -/
structure AdmittedAs (o : Orchestrator) (log : List Entry) (d : WorkflowDef)
    (runID : String) (result : AdmissionResult) : Prop where
  slot : result.action = .proceed → SlotGranted o log d runID
  lock : result.action ≠ .skip → result.singletonKey ≠ "" →
    runID ≠ "" ∧ HadLock log result.singletonKey runID

lemma AdmittedAs.mono (h : AdmittedAs o log d runID result) (hlog : log <:+ log') :
    AdmittedAs o log' d runID result :=
  ⟨fun hgo => (h.slot hgo).mono hlog, fun hgo hkey =>
    ⟨(h.lock hgo hkey).1, (h.lock hgo hkey).2.mono hlog⟩⟩

lemma singletonCheck (h : Stored o w.log d.name d) :
    Does o K w (o.singletonCheck d runID input) fun result t => result.action ≠ .skip →
    result.singletonKey ≠ "" → runID ≠ "" ∧ HadLock t.log result.singletonKey runID := by
  unfold Orchestrator.singletonCheck
  split
  · exact pure fun _ _ _ hkey => absurd rfl hkey
  · next cfg hcfg =>
    refine ite (fun _ => pure fun _ _ _ hkey => absurd rfl hkey) fun _ => ?_
    refine bind ofFault fun key t _ hwt hkey => ?_
    have hcancel : cfg.mode = .cancel → Displaces o t.log key := fun hmode =>
      ⟨d, cfg, input, h.mono hwt.1, hcfg, hkey, hmode⟩
    refine bind (singletonClaims _ hcancel) fun result u _ _ hclaimed => ?_
    refine pure fun v huv hskip _ => ?_
    obtain ⟨hid, hlock⟩ := hclaimed result rfl hskip
    exact ⟨hid, hlock.mono huv.1⟩

lemma admitRun (h : Stored o w.log d.name d) :
    Does o K w (o.admitRun d runID input) fun result t => AdmittedAs o t.log d runID result := by
  refine bind (singletonCheck h) fun claim t _ hwt hclaim => ?_
  refine ite (fun hskip => pure fun u htu => ?_) fun hskip => ?_
  · exact ⟨fun hgo => (by rw [hskip] at hgo; cases hgo), fun hgo => absurd hskip hgo⟩
  · refine bind ofFault fun offset u _ htu _ => ?_
    have hlimits : LimitsAs o u.log d := (h.mono (hwt.trans htu).1).limitsAs
    refine bind (acquireSlot hlimits) fun acquired v _ huv hslot => pure fun x hvx => ?_
    refine ⟨fun hgo => ?_, fun _ hkey => ?_⟩
    · have hacquired : acquired = true := by
        cases acquired with
        | true => rfl
        | false => cases hgo
      exact (hslot hacquired).mono hvx.1
    · obtain ⟨hid, hlock⟩ := hclaim hskip hkey
      exact ⟨hid, hlock.mono (htu.trans (huv.trans hvx)).1⟩

lemma releaseSingletonLock (h : EndedAs w.log run) : Keeps o K w (o.releaseSingletonLock run) := by
  refine early fun _ => ?_
  refine bind getLock.outcome fun r t _ hwt hr => ?_
  split
  · exact ends
  · exact ends
  · next rev lock created =>
    refine early fun hown => ?_
    obtain ⟨stored, hended, hid, -, hkey⟩ := h.mono hwt.1
    have hat := (hr _ rfl rev lock created rfl).1
    refine bind (deleteLock hat (not_not.mp hown) ⟨stored, hended, hid, hkey⟩) fun _ _ _ _ _ => ends

end Does

end Dagnats
