import Dagnats.Interaction.Segments
import Dagnats.Trigger.Scheduler
import Mathlib.Data.List.Nodup

/-!
# What a trigger fires

The message id of a start names its trigger and its minute, so the triggers of a
scheduler do not disturb one another: whatever one of them does leaves the claim,
the starts and the last run of the others as they are.
-/

namespace Dagnats.Trigger

open Interaction Scheduler

variable {zones : Zones} {asks : ℕ → Bool} {id : String} {d : CronTrigger} {now clock : Instant}
  {m : ℕ} {srv : Server} {s s' s'' : Scheduler × Server} {ts : List CronTrigger}

lemma minuteOf_mul : minuteOf (m * nanosPerMinute) = m :=
  Nat.mul_div_cancel m (by decide)

lemma minuteOf_add (t : Instant) : minuteOf (t + nanosPerMinute) = minuteOf t + 1 :=
  Nat.add_div_right t (by decide)

lemma minuteOf_mono {t u : Instant} (h : t ≤ u) : minuteOf t ≤ minuteOf u :=
  Nat.div_le_div_right h

lemma startedDedupID_inj {id' : String} {now' : Instant}
    (h : startedDedupID id now = startedDedupID id' now') :
    id = id' ∧ minuteOf now = minuteOf now' := by
  have htext : ∀ (id : String) (now : Instant), (startedDedupID id now).toList =
      behind '.' ("trigger.".toList ++ id.toList)
        ([minuteOf now].map fun n => (toString n).toList) := by
    intro id now
    simp [startedDedupID, behind]
  have hchars := congrArg String.toList h
  rw [htext, htext] at hchars
  obtain ⟨hminute, hbase⟩ := behind_numbers_inj (by decide) (by rfl) hchars
  exact ⟨String.toList_injective (List.append_cancel_left hbase), by simpa using hminute⟩

/-- The start belongs to the trigger. -/
def Start.isOf (r : Start) (id : String) : Bool :=
  r.msgID = startedDedupID id r.timestamp

/-- The starts of a trigger, the newest first. -/
def startsOf (id : String) (srv : Server) : List Start :=
  srv.starts.filter (·.isOf id)

/-- Every start belongs to some trigger. -/
def Named (srv : Server) : Prop :=
  ∀ r ∈ srv.starts, ∃ id, r.isOf id = true

/-- The start that a fire publishes. -/
def startOf (d : CronTrigger) (now clock : Instant) : Start where
  msgID := startedDedupID d.id now
  workflowID := d.workflowID
  timestamp := now
  storedAt := clock

lemma startOf_isOf : (startOf d now clock).isOf id = true ↔ d.id = id := by
  unfold Start.isOf startOf
  constructor
  · intro h
    exact (startedDedupID_inj (of_decide_eq_true h)).1
  · rintro rfl
    exact decide_eq_true rfl

def Remembered (id : String) (now clock : Instant) (srv : Server) : Prop :=
  ∃ r ∈ startsOf id srv, minuteOf r.timestamp = minuteOf now ∧ clock < r.storedAt + duplicatesWindow

lemma fireWorkflow_cases (h : Named srv) :
    (fireWorkflow srv d now clock).starts = srv.starts ∧ Remembered d.id now clock srv ∨
    (fireWorkflow srv d now clock).starts = startOf d now clock :: srv.starts ∧
    ¬Remembered d.id now clock srv := by
  have hany : (srv.starts.any fun r => r.msgID = startedDedupID d.id now &&
      clock < r.storedAt + duplicatesWindow) = true ↔ Remembered d.id now clock srv := by
    rw [List.any_eq_true]
    constructor
    · rintro ⟨r, hr, hcond⟩
      obtain ⟨hid, hyoung⟩ := Bool.and_eq_true_iff.mp hcond
      obtain ⟨id', hname⟩ := h r hr
      obtain ⟨rfl, hminute⟩ := startedDedupID_inj
        ((of_decide_eq_true hid).symm.trans (of_decide_eq_true hname))
      exact ⟨r, List.mem_filter.mpr ⟨hr, hname⟩, hminute.symm, of_decide_eq_true hyoung⟩
    · rintro ⟨r, hr, hminute, hyoung⟩
      obtain ⟨hr, hname⟩ := List.mem_filter.mp hr
      refine ⟨r, hr, Bool.and_eq_true_iff.mpr ⟨decide_eq_true ?_, decide_eq_true hyoung⟩⟩
      rw [of_decide_eq_true hname, startedDedupID, startedDedupID, hminute]
  by_cases hmem : Remembered d.id now clock srv
  · refine .inl ⟨?_, hmem⟩
    simp only [fireWorkflow, Server.publish, if_pos (hany.mpr hmem)]
  · refine .inr ⟨?_, hmem⟩
    simp only [fireWorkflow, Server.publish, if_neg (mt hany.mp hmem)]
    rfl

lemma Named.fireWorkflow (h : Named srv) (d : CronTrigger) (now clock : Instant) :
    Named (fireWorkflow srv d now clock) := by
  intro r hr
  rcases fireWorkflow_cases h with ⟨hstarts, -⟩ | ⟨hstarts, -⟩
  · rw [hstarts] at hr
    exact h r hr
  · rw [hstarts] at hr
    rcases List.mem_cons.mp hr with rfl | hr
    · exact ⟨d.id, startOf_isOf.mpr rfl⟩
    · exact h r hr

/-- Nothing of the trigger has changed. -/
structure Untouched (id : String) (s s' : Scheduler × Server) : Prop where
  table : s'.1.triggers = s.1.triggers
  lastFired : s'.1.lastFired id = s.1.lastFired id
  starts : startsOf id s'.2 = startsOf id s.2
  lastRun : s'.2.lastRun id = s.2.lastRun id
  named : Named s'.2

namespace Untouched

lemma refl (h : Named s.2) : Untouched id s s :=
  ⟨rfl, rfl, rfl, rfl, h⟩

lemma trans (h : Untouched id s s') (h' : Untouched id s' s'') : Untouched id s s'' :=
  ⟨h'.table.trans h.table, h'.lastFired.trans h.lastFired, h'.starts.trans h.starts,
    h'.lastRun.trans h.lastRun, h'.named⟩

end Untouched

lemma claimAndFire_untouched (h : Named s.2) (hid : d.id ≠ id) :
    Untouched id s (claimAndFire d now clock s) := by
  unfold claimAndFire
  split
  · constructor
    · rfl
    · exact Function.update_of_ne (Ne.symm hid) ..
    · rcases fireWorkflow_cases h with ⟨hstarts, -⟩ | ⟨hstarts, -⟩
      · rw [startsOf, hstarts, startsOf]
      · have hnot : ¬(startOf d now clock).isOf id = true := mt startOf_isOf.mp hid
        rw [startsOf, hstarts, List.filter_cons, if_neg hnot, startsOf]
    · simp only [fireWorkflow]
      rw [Function.update_of_ne (Ne.symm hid), Server.publish]
      split <;> rfl
    · exact h.fireWorkflow d now clock
  · exact .refl h

lemma foldl_untouched {α : Type} {f : Scheduler × Server → α → Scheduler × Server} {as : List α}
    (h : Named s.2) (hf : ∀ s, Named s.2 → ∀ a ∈ as, Untouched id s (f s a)) :
    Untouched id s (as.foldl f s) := by
  induction as generalizing s with
  | nil => exact .refl h
  | cons a as ih =>
    have hfirst := hf s h a (.head _)
    exact hfirst.trans (ih hfirst.named fun s hs x hx => hf s hs x (.tail a hx))

/-- A loop over the triggers, of which one matters. -/
lemma foldl_unique {f : Scheduler × Server → CronTrigger → Scheduler × Server}
    (hnodup : (ts.map (·.id)).Nodup) (hd : d ∈ ts) (h : Named s.2)
    (hother : ∀ s, Named s.2 → ∀ d', d'.id ≠ d.id → Untouched d.id s (f s d'))
    (hown : ∀ s, Named s.2 → Named (f s d).2) :
    ∃ s', Untouched d.id s s' ∧ Untouched d.id (f s' d) (ts.foldl f s) := by
  obtain ⟨us, vs, rfl⟩ := List.append_of_mem hd
  rw [List.map_append, List.map_cons, List.nodup_append] at hnodup
  obtain ⟨-, hvs, hcross⟩ := hnodup
  have hbefore : Untouched d.id s (us.foldl f s) := by
    apply foldl_untouched h
    intro s hs d' hd'
    apply hother s hs
    intro heq
    exact hcross d'.id (List.mem_map_of_mem hd') d.id (.head _) heq
  refine ⟨us.foldl f s, hbefore, ?_⟩
  rw [List.foldl_append, List.foldl_cons]
  apply foldl_untouched (hown _ hbefore.named)
  intro s hs d' hd'
  apply hother s hs
  intro heq
  exact (List.nodup_cons.mp hvs).1 (List.mem_map.mpr ⟨d', hd', heq⟩)

lemma Named.claimAndFire (h : Named s.2) (d : CronTrigger) (now clock : Instant) :
    Named (claimAndFire d now clock s).2 := by
  unfold Scheduler.claimAndFire
  split
  · exact h.fireWorkflow d now clock
  · exact h

lemma tickTrigger_cases :
    tickTrigger zones now s d = claimAndFire d now now s ∨ tickTrigger zones now s d = s := by
  unfold tickTrigger
  split
  · split
    · exact .inl rfl
    · exact .inr rfl
  · exact .inr rfl

lemma tickTrigger_untouched (h : Named s.2) (hid : d.id ≠ id) : Untouched id s
    (tickTrigger zones now s d) := by
  rcases tickTrigger_cases with heq | heq
  · rw [heq]
    exact claimAndFire_untouched h hid
  · rw [heq]
    exact .refl h

lemma tick_own (hnodup : (s.1.triggers.map (·.id)).Nodup) (hd : d ∈ s.1.triggers)
    (h : Named s.2) :
    ∃ s', Untouched d.id s s' ∧ Untouched d.id (tickTrigger zones now s' d) (tick zones now s) := by
  apply foldl_unique hnodup hd h
  · exact fun s hs d' hid => tickTrigger_untouched hs hid
  · intro s hs
    rcases tickTrigger_cases with heq | heq
    · rw [heq]
      exact hs.claimAndFire d now now
    · rw [heq]
      exact hs

end Dagnats.Trigger
