import Dagnats.Journal.Holding

/-!
# Operations of a step journal

Whatever a handler does with the operations of a handle, its writer goes on holding
the journal.
-/

namespace Dagnats.AgentJournal

open Interaction

variable {d : Dispatches} {honest : Prop} {v w : View} {s t : Stream} {j j' : Journal}
  {type : RecordType} {data : Body} {α β : Type} {C : Conditions (system d)}

/-- The writer goes on holding the journal, with the handle that is returned. -/
abbrev Retains (d : Dispatches) (honest : Prop) (p : M (α × Journal)) (v : View) (s : Stream) :
    Prop :=
  Gives d honest (fun a w _ => w.task = v.task ∧ Holding honest a.2 w) p v s

lemma retains_pure {a : α} (hj : Holding honest j v) : Retains d honest (pure (a, j)) v s :=
  gives_pure fun _ _ => ⟨rfl, hj⟩

/-- Go on with the handle that an operation left. -/
lemma Retains.bind {p : M (α × Journal)} {f : α × Journal → M (β × Journal)}
    (hp : Retains d honest p v s)
    (hf : ∀ a j w t, Holding honest j w → Retains d honest (f (a, j)) w t) :
    Retains d honest (p >>= f) v s := by
  refine Gives.bind hp ?_
  rintro ⟨a, j⟩ w t - ⟨hw, hj⟩
  exact Gives.conseq (hf a j w t hj) fun _ _ _ _ h => ⟨h.1.trans hw, h.2⟩

lemma Retains.observe {o : Observation} {f : Unit → M (α × Journal)} (ho : o.isQuiet = true)
    (htask : o.task = v.task) (hj : Holding honest j v)
    (hf : ∀ w t, w.task = v.task → Holding honest j w → Retains d honest (f ()) w t) :
    Retains d honest ((observe o).bind f) v s := by
  refine Gives.bind (gives_observe_quiet ho htask) ?_
  rintro - w t - rfl
  have hholding : Holding honest j (v.note o) := hj.note (by cases o <;> first | rfl | cases ho)
  exact hf (v.note o) t rfl hholding

section

variable (hj : Holding honest j v)
include hj

lemma retains_append (hclaim : type ≠ .claim) (hcommit : type ≠ .commit) :
    Retains d honest (j.append type data) v s :=
  Gives.conseq (gives_write hj hclaim fun h => absurd h hcommit) fun _ _ _ _ hwrote =>
    ⟨hwrote.task_eq, hj.wrote hwrote fun _ => hcommit⟩

lemma retains_appendToolResult {result : ToolResult} :
    Retains d honest (j.appendToolResult result) v s := by
  refine Retains.bind (retains_append hj (by simp) (by simp)) ?_
  intro r j w t hj
  cases r with
  | error e | ok seq => exact retains_pure hj

lemma retains_placeInput {p : InputPlaced} : Retains d honest (j.placeInput p) v s := by
  unfold Journal.placeInput
  split
  · exact gives_fail
  · refine Retains.bind (retains_append hj (by simp) (by simp)) ?_
    intro r j w t hj
    cases r with
    | error e => exact retains_pure hj
    | ok seq => exact retains_pure (hj.frame rfl rfl rfl fun h => h)

lemma retains_commit {c : Commit} : Retains d honest (j.commit c) v s := by
  refine Gives.bind (gives_write hj (by simp) fun _ => ⟨c, rfl⟩) ?_
  rintro ⟨result, j'⟩ w t - hwrote
  cases result with
  | error e =>
    exact gives_pure fun _ _ => ⟨hwrote.task_eq, hj.wrote hwrote fun hok => nomatch hok⟩
  | ok seq =>
    exact gives_pure fun _ _ => ⟨hwrote.task_eq, hj.committed hwrote rfl rfl rfl rfl⟩

lemma retains_resync : Retains d honest j.resync v s := by
  unfold Journal.resync
  split
  · exact retains_pure hj
  refine Gives.bind gives_readTail ?_
  rintro tail w t - ⟨rfl, u, -, ⟨G, hinv⟩, -, rfl | rfl⟩
  swap
  · exact retains_pure hj
  change Gives _ _ _ (if _ then _ else _) _ _
  split
  · exact retains_pure hj
  · split
    · next hsame =>
      -- The tail is a record of the writer.
      obtain ⟨tail, htail, hclaim⟩ := (Option.any_eq_true ..).mp hsame
      rw [hj.numbered.task] at hclaim
      have hown := hinv.view.mem_own.mpr
        ⟨List.mem_of_mem_head? htail, (Record.sameClaim_iff.mp hclaim).2.2.2⟩
      refine retains_pure ⟨⟨hj.numbered.task, hj.numbered.index_le, hj.numbered.stored⟩,
        ⟨tail, hown, ?_⟩, hj.uncommitted⟩
      rw [Option.mem_def.mp htail]
      rfl
    · exact retains_pure (hj.frame rfl rfl rfl fun h => h)

end

lemma retains_model {fn : Journal → M (Journal.Reply × Journal)}
    (hfn : ∀ j v s, Holding honest j v → Retains d honest (fn j) v s) (hj : Holding honest j v) :
    Retains d honest (j.model fn) v s := by
  unfold Journal.model
  split
  · exact retains_pure hj
  dsimp only
  split
  · exact retains_pure (hj.frame rfl rfl rfl fun h => h)
  refine Retains.bind (retains_resync hj) ?_
  intro r j w t hj
  cases r with
  | error e => exact retains_pure hj
  | ok _ =>
    refine Retains.bind (hfn j w t hj) ?_
    intro reply j x u hj
    dsimp only
    split
    · exact retains_pure hj
    split
    · exact retains_pure hj
    refine Retains.bind (retains_append hj (by simp) (by simp)) ?_
    intro r j y z hj
    cases r with
    | error e => exact retains_pure hj
    | ok seq => exact retains_pure (hj.frame rfl rfl rfl fun h => h)

section Tools

variable {call : ToolCall} {replay : Replay} {fn : Journal.ToolFunc}
  (hfn : ∀ call j v s, Holding honest j v → Retains d honest (fn call j) v s)

include hfn in
lemma retains_runTool {recorded : Option Replay} (hj : Holding honest j v) :
    Retains d honest (j.runTool call replay recorded fn) v s := by
  refine Retains.observe rfl hj.numbered.task hj fun w t _ hj => ?_
  refine Retains.bind (hfn call j w t hj) ?_
  intro reply j x u hj
  dsimp only
  split
  · exact retains_pure hj
  · exact retains_appendToolResult hj

include hfn in
lemma retains_freshTool (hj : Holding honest j v) :
    Retains d honest (j.freshTool call replay fn) v s := by
  unfold Journal.freshTool
  split
  · exact retains_pure hj
  refine Retains.bind (retains_append hj (by simp) (by simp)) ?_
  intro r j w t hj
  cases r with
  | error e => exact retains_pure hj
  | ok seq => exact retains_runTool hfn (hj.frame rfl rfl rfl fun h => h)

include hfn in
lemma retains_replayTool {intent : ToolIntent} {r : Record} (hj : Holding honest j v) :
    Retains d honest (j.replayTool call replay fn intent r) v s := by
  have hj' : Holding honest { j with toolCalls := call.call + 1 } v :=
    hj.frame rfl rfl rfl fun h => h
  unfold Journal.replayTool
  split
  · exact retains_pure hj
  dsimp only
  split
  · exact retains_pure hj'
  · split
    · exact retains_runTool hfn hj'
    · exact retains_appendToolResult hj'

include hfn in
lemma retains_tool (hj : Holding honest j v) : Retains d honest (j.tool call replay fn) v s := by
  unfold Journal.tool
  split
  · exact retains_pure hj
  unfold Journal.toolAt
  split
  · have hj' : ∀ r : Record, Holding honest { j with honoured := r.seq :: j.honoured } v :=
      fun _ => hj.frame rfl rfl rfl fun h => h
    unfold Journal.honourPrior
    dsimp only
    split
    · exact retains_pure (hj' _)
    · exact retains_appendToolResult (hj' _)
  · split
    · exact retains_freshTool hfn hj
    · exact retains_replayTool hfn hj

end Tools

lemma retains_issue {op : Operation} {p : M (Except Err α × Journal)} (hj : Holding honest j v)
    (hp : ∀ w t, Holding honest j w → Retains d honest p w t) :
    Retains d honest (issue j op p) v s := by
  refine Retains.observe rfl hj.numbered.task hj fun w t hw hheld => ?_
  refine Gives.bind (hp w t hheld) ?_
  rintro ⟨r, j'⟩ x u - ⟨hx, hj'⟩
  have htask : j.task = x.task := hheld.numbered.task.trans hx.symm
  cases r with
  | ok a => exact gives_pure fun _ _ => ⟨hx, hj'⟩
  | error e =>
    refine Gives.conseq (Retains.observe rfl htask hj' fun _ _ _ hj' => retains_pure hj') ?_
    exact fun _ _ _ _ h => ⟨h.1.trans hx, h.2⟩

lemma retains_run (h : Handler) : ∀ j v s, Holding honest j v →
    Retains d honest (h.run j) v s := by
  induction h with
  | done r => exact fun j v s hj => retains_pure hj
  | append type data k ih =>
    intro j v s hj
    refine Retains.bind (retains_issue hj fun w t hj => ?_) fun a j w t hj => ih a j w t hj
    unfold Journal.appendRecord
    split
    · exact gives_fail
    · next htype =>
      rw [not_or] at htype
      exact retains_append hj htype.1 htype.2
  | pause name durationMs k ih =>
    intro j v s hj
    refine Retains.bind (retains_issue hj fun w t hj => ?_) fun a j w t hj => ih a j w t hj
    exact retains_append hj (by simp) (by simp)
  | placeInput p k ih =>
    intro j v s hj
    exact Retains.bind (retains_issue hj fun w t hj => retains_placeInput hj)
      fun a j w t hj => ih a j w t hj
  | tool call replay fn k ihfn ih =>
    intro j v s hj
    exact Retains.bind (retains_issue hj fun w t hj => retains_tool (fun call => ihfn call) hj)
      fun a j w t hj => ih a j w t hj
  | model fn k ihfn ih =>
    intro j v s hj
    exact Retains.bind (retains_issue hj fun w t hj => retains_model ihfn hj)
      fun a j w t hj => ih a j w t hj
  | commit c k ih =>
    intro j v s hj
    exact Retains.bind (retains_issue hj fun w t hj => retains_commit hj)
      fun a j w t hj => ih a j w t hj

lemma polite_work (job : Job) :
    Polite (concert d honest) (fun _ _ _ => True) (work d job) none s := by
  intro t G _ hinv _
  refine ⟨trivial, fun c n u hu => ?_⟩
  obtain ⟨hn, rfl, rfl⟩ := Stream.receive_cases hu
  refine ⟨⟨List.suffix_rfl, List.suffix_rfl⟩, _, hinv.receive hn, ?_⟩
  dsimp only [Prog.bind]
  refine Polite.bind gives_open ?_ fun _ _ _ _ => trivial
  intro result g u hopen
  obtain ⟨w, rfl, hholding⟩ := hopen result rfl
  cases result with
  | error e => exact fun _ _ => trivial
  | ok j =>
    change Polite _ _ (if _ then _ else _) _ _
    split
    · exact fun _ _ => trivial
    · next hdone =>
      have hj := hholding j rfl (by simpa using hdone)
      exact Polite.bind (retains_run (job.handler j) j w u hj) (fun _ _ _ _ _ _ => trivial)
        fun _ _ _ _ => trivial

lemma concert_sound
    (hC : ∀ {s op}, C.call s op → honest → Honest s op) : (concert d honest).Sound C where
  call := hC
  start := by
    intro s G job prog hinv _ hstart
    cases hstart
    exact ⟨none, hinv.start, polite_work job⟩
  drop hinv := hinv.drop
  move := by
    intro s m
    exact nomatch m

lemma inv_empty : Inv d honest Stream.empty 0 where
  log := .nil
  sealed _ := .nil
  stored := ⟨fun h => (nomatch h), .nil⟩
  opened _ := ⟨fun h => (nomatch h), fun h => (nomatch h)⟩
  delivered _ h := nomatch h
  observed _ h := nomatch h
  views _ h := nomatch h
  nodup := .nil

lemma reaches_inv (hC : ∀ {s op}, C.call s op → honest → Honest s op) {p : Pool (system d)}
    (h : Pool.Reaches C (Pool.initial Stream.empty) p) : ∃ G, Inv d honest p.state G := by
  obtain ⟨ghosts, hinv, -⟩ := (concert_sound hC).reaches inv_empty h
  exact ⟨_, hinv⟩

end Dagnats.AgentJournal
