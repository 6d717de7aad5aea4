import Dagnats.Api.DeleteWorkflow

/-!
# The guard of a delete

A run that has not ended keeps its workflow from being deleted if one of the two
scans examines it. A read that is skipped is not counted by either scan, so a
workflow is deleted under its runs where all of their reads are skipped.
-/

namespace Dagnats.DeleteWorkflow

variable {env : Env} {name id : String} {run : WorkflowRun} {ids : List String}
  {reads : String → Bool} {α : Type}

section

variable (env : Env)

/-- The run is stored under the identifier, belongs to the workflow and has not ended. -/
def Unfinished (name id : String) : Prop :=
  ∃ run, env.runs id = some (some run) ∧ run.workflowID = name ∧ run.status.isTerminal = false

/-- One of the indexes lists the run. -/
def Listed (id : String) : Prop :=
  (∃ ids, env.active = .ok ids ∧ id ∈ ids) ∨ ∃ ids, env.index = .ok ids ∧ id ∈ ids

/-- One of the scans reads the run. -/
def Examined (id : String) : Prop :=
  (∃ ids, env.active = .ok ids ∧ id ∈ ids ∧ env.activeReads id = true) ∨
    ∃ ids, env.index = .ok ids ∧ id ∈ ids ∧ env.indexReads id = true

/-- The workflow is deleted only where no run that is listed is unfinished. -/
def Guarded (name : String) : Prop :=
  ∀ keys, deleteWorkflowInner env name false = .ok keys →
    ∀ id, Listed env id → ¬Unfinished env name id

/-- If there are unfinished runs among those that are listed, one is examined. -/
def Caught (name : String) : Prop :=
  (∃ id, Listed env id ∧ Unfinished env name id) → ∃ id, Examined env id ∧ Unfinished env name id

/-- Nothing else keeps the workflow from being deleted. -/
structure Unobstructed (name : String) : Prop where
  defined : env.defined = true
  untriggered : ∃ triggers, env.triggers = .ok triggers ∧ ∀ t ∈ triggers.take 10000, t.2 ≠ name
  active : ∃ ids, env.active = .ok ids ∧ ids.length ≤ runKeyScanMax ∧
    (dedupeOrderedKeys ids).length ≤ runtimeRunScanMax
  index : ∃ ids, env.index = .ok ids ∧ ids.length ≤ runKeyScanMax ∧
    (dedupeOrderedKeys ids).length ≤ scanFetchMax
  versions : ∃ keys, env.versions = .ok keys
  decodes : ∀ id, Examined env id → env.runs id ≠ some none
  released : ∀ ids, env.active = .ok ids → ∀ id ∈ ids, env.activeReads id = true →
    ∀ run, env.runs id = some (some run) → run.workflowID = name → run.releasePending = false

lemma exists_of_bind_eq_ok {β : Type} {x : Except Fault α} {f : α → Except Fault β} {b : β}
    (h : (x >>= f) = .ok b) : ∃ a, x = .ok a ∧ f a = .ok b := by
  cases x with
  | error e => cases h
  | ok a => exact ⟨a, rfl, h⟩

/-- The run that a read brings, if it is not skipped. -/
def readRun (reads : String → Bool) (id : String) : Option WorkflowRun :=
  if reads id then (env.runs id).join else none

end

lemma readRun_eq_some :
    readRun env reads id = some run ↔ reads id = true ∧ env.runs id = some (some run) := by
  simp [readRun, Option.join_eq_some_iff]

lemma eq_of_fetchRunsByID {runs : List WorkflowRun} (h : fetchRunsByID env reads ids = .ok runs) :
    runs = ids.filterMap (readRun env reads) := by
  induction ids generalizing runs with
  | nil => exact (Except.ok.inj h).symm
  | cons id ids ih =>
    rw [fetchRunsByID] at h
    rw [List.filterMap_cons, readRun]
    split at h
    · next hskip =>
      split at hskip <;> simp_all
    · cases h
    · next run hread =>
      cases hrest : fetchRunsByID env reads ids with
      | error f =>
        rw [hrest] at h
        cases h
      | ok rest =>
        rw [hrest] at h
        cases h
        split at hread <;> simp_all

lemma fetchRunsByID_of_decodes
    (h : ∀ id ∈ ids, reads id = true → env.runs id ≠ some none) :
    fetchRunsByID env reads ids = .ok (ids.filterMap (readRun env reads)) := by
  have hok : ∃ runs, fetchRunsByID env reads ids = .ok runs := by
    induction ids with
    | nil => exact ⟨[], rfl⟩
    | cons id ids ih =>
      obtain ⟨runs, hruns⟩ := ih fun id' hid' => h id' (.tail id hid')
      rw [fetchRunsByID, hruns]
      split
      · exact ⟨runs, rfl⟩
      · next hbad =>
        split at hbad
        · next hread => exact absurd hbad (h id (.head _) hread)
        · cases hbad
      · exact ⟨_, rfl⟩
  obtain ⟨runs, hruns⟩ := hok
  rw [hruns, eq_of_fetchRunsByID hruns]

lemma decodes_of_fetchRunsByID {runs : List WorkflowRun}
    (h : fetchRunsByID env reads ids = .ok runs) :
    ∀ id ∈ ids, reads id = true → env.runs id ≠ some none := by
  induction ids generalizing runs with
  | nil => exact fun _ hid => absurd hid List.not_mem_nil
  | cons id ids ih =>
    rw [fetchRunsByID] at h
    intro id' hid' hread hbad
    rcases List.mem_cons.mp hid' with rfl | hid'
    · rw [if_pos hread, hbad] at h
      cases h
    · split at h
      · exact ih h id' hid' hread hbad
      · cases h
      · cases hrest : fetchRunsByID env reads ids with
        | error f =>
          rw [hrest] at h
          cases h
        | ok rest => exact ih hrest id' hid' hread hbad

/-- The last `k` keys, the newest first. -/
def newest (keys : List String) (k : ℕ) : List String :=
  (keys.drop (keys.length - k)).reverse

lemma newest_split (keys : List String) {size k : ℕ} (hsize : size ≤ keys.length) (hk : size ≤ k) :
    newest keys k = (keys.drop (keys.length - size)).reverse ++
      newest (keys.take (keys.length - size)) (k - size) := by
  have hlength : (keys.take (keys.length - size)).length = keys.length - size := by simp
  have hsplit := List.take_append_drop (keys.length - size) keys
  rw [newest, newest, hlength, ← List.reverse_append,
    show keys.length - size - (k - size) = keys.length - k by omega,
    ← List.drop_append_of_le_length (by rw [hlength]; omega), hsplit]

lemma take_append_take {a : List α} (b c : List α) {n : ℕ} (h : a.length ≤ n) :
    (a ++ b.take (n - a.length) ++ c).take n = (a ++ (b ++ c)).take n := by
  rw [List.append_assoc, List.take_append, List.take_append, List.take_append, List.take_append,
    List.take_take, min_self, List.length_take]
  congr 3
  omega

variable {pred : WorkflowRun → Bool} {limit fetchMax rounds attempted attempted' : ℕ}
  {rest rest' : List String} {found found' : List WorkflowRun}

/-- A scan adds the first runs with the property among those that it may look at, and
below the limit it has looked at all of them. -/
lemma scanRounds_spec (hrounds : rest.length ≤ rounds) (hfound : found.length ≤ limit)
    (hattempted : attempted ≤ fetchMax)
    (h : scanRounds env pred limit fetchMax rounds rest found attempted =
      .ok (found', rest', attempted')) :
    found' = (found ++ ((newest rest (fetchMax - attempted)).filterMap
      (readRun env env.indexReads)).filter pred).take limit ∧
    (found'.length < limit → rest' = rest.take (rest.length - (fetchMax - attempted))) ∧
    attempted' ≤ fetchMax ∧ attempted' + rest'.length = attempted + rest.length := by
  induction rounds generalizing rest found attempted with
  | zero =>
    cases List.length_eq_zero_iff.mp (Nat.le_zero.mp hrounds)
    cases h
    exact ⟨by simp [newest, List.take_of_length_le hfound], fun _ => by simp, hattempted, rfl⟩
  | succ rounds ih =>
    rw [scanRounds] at h
    split at h
    · next hstop =>
      cases h
      rcases hstop with rfl | hstop | hstop
      · exact ⟨by simp [newest, List.take_of_length_le hfound], fun _ => by simp, hattempted, rfl⟩
      · exact ⟨(List.take_left' (le_antisymm hfound hstop)).symm,
          fun hless => absurd hstop (Nat.not_le.mpr hless), hattempted, rfl⟩
      · rw [Nat.sub_eq_zero_of_le hstop]
        exact ⟨by simp [newest, List.take_of_length_le hfound], fun _ => by simp, hattempted, rfl⟩
    · next hgo =>
      rw [not_or, not_or] at hgo
      have hpos : 0 < rest.length := List.length_pos_iff.mpr hgo.1
      have hbatch : 0 < scanBatchSize := by decide
      obtain ⟨fetched, hfetch, h⟩ := exists_of_bind_eq_ok h
      generalize hsize : min (min scanBatchSize rest.length) (fetchMax - attempted) = size at *
      have hlength : (rest.take (rest.length - size)).length = rest.length - size := by simp
      obtain ⟨hresult, hrest, hle, hsum⟩ :=
        ih (by omega) (by rw [List.length_append, List.length_take]; omega) (by omega) h
      rw [eq_of_fetchRunsByID hfetch, take_append_take _ _ hfound, Nat.sub_add_eq] at hresult
      refine ⟨?_, ?_, hle, by omega⟩
      · rw [hresult, newest_split rest (by omega : size ≤ rest.length) (by omega),
          List.filterMap_append, List.filter_append, List.filterMap_reverse]
      · intro hless
        rw [hrest hless, hlength, List.take_take]
        congr 1
        omega

lemma scanRounds_of_decodes (h : ∀ id ∈ rest, env.indexReads id = true → env.runs id ≠ some none) :
    ∃ result, scanRounds env pred limit fetchMax rounds rest found attempted = .ok result := by
  induction rounds generalizing rest found attempted with
  | zero => exact ⟨_, rfl⟩
  | succ rounds ih =>
    rw [scanRounds]
    split
    · exact ⟨_, rfl⟩
    · simp only [bind, Except.bind]
      rw [fetchRunsByID_of_decodes fun id hid => h id (List.mem_of_mem_drop hid)]
      exact ih fun id hid => h id (List.mem_of_mem_take hid)

/-- What a scan has come to decodes. -/
lemma decodes_of_scanRounds
    (h : scanRounds env pred limit fetchMax rounds rest found attempted =
      .ok (found', rest', attempted')) :
    ∀ id ∈ rest, id ∉ rest' → env.indexReads id = true → env.runs id ≠ some none := by
  induction rounds generalizing rest found attempted with
  | zero =>
    cases h
    exact fun _ hid hnot => absurd hid hnot
  | succ rounds ih =>
    rw [scanRounds] at h
    split at h
    · cases h
      exact fun _ hid hnot => absurd hid hnot
    · obtain ⟨fetched, hfetch, h⟩ := exists_of_bind_eq_ok h
      intro id hid hnot
      rw [← List.take_append_drop (rest.length -
        min (min scanBatchSize rest.length) (fetchMax - attempted)) rest, List.mem_append] at hid
      rcases hid with hid | hid
      · exact ih h id hid hnot
      · exact decodes_of_fetchRunsByID hfetch id hid

lemma nodup_dedupeOrderedKeys : ∀ keys, (dedupeOrderedKeys keys).Nodup
  | [] => List.nodup_nil
  | key :: rest => by
    rw [dedupeOrderedKeys, List.eraseDups_cons]
    exact List.nodup_cons.mpr ⟨by simp, nodup_dedupeOrderedKeys _⟩
termination_by keys => keys.length
decreasing_by exact Nat.lt_succ_of_le (List.length_filter_le ..)

lemma exists_not_newest_iff {keys : List String} (hnodup : keys.Nodup) {k : ℕ} :
    (∃ key ∈ keys, key ∉ newest keys k) ↔ keys.take (keys.length - k) ≠ [] := by
  constructor
  · rintro ⟨key, hkey, hnot⟩ hnil
    have hall := List.take_append_drop (keys.length - k) keys
    rw [hnil, List.nil_append] at hall
    rw [newest, hall, List.mem_reverse] at hnot
    exact hnot hkey
  · intro hne
    obtain ⟨key, hkey⟩ := List.exists_mem_of_ne_nil _ hne
    exact ⟨key, List.mem_of_mem_take hkey, fun hnewest =>
      List.disjoint_take_drop hnodup le_rfl hkey (List.mem_reverse.mp hnewest)⟩

/-- The first runs with the property among the newest keys, each key once, and whether a
key is left out. Below the limit it attempts as many keys as it may. -/
structure Scanned (env : Env) (pred : WorkflowRun → Bool) (limit fetchMax : ℕ) (keys : List String)
    (found : List WorkflowRun) (stats : ScanStats) : Prop where
  exact : found =
    (((newest keys fetchMax).filterMap (readRun env env.indexReads)).filter pred).take limit
  once : (newest keys fetchMax).Nodup
  attempted : stats.attempted ≤ fetchMax
  truncated : stats.truncated = true ↔
    found.length < limit ∧ ∃ key ∈ keys, key ∉ newest keys stats.attempted
  reached : found.length < limit → newest keys stats.attempted = newest keys fetchMax

lemma scanned_of_eq_ok {stats : ScanStats} (hindex : env.index = .ok ids)
    (hbound : fetchMax ≤ scanFetchMax)
    (h : scanNewestFirst env pred limit fetchMax = .ok (found, stats)) :
    Scanned env pred limit fetchMax (dedupeOrderedKeys ids) found stats := by
  unfold scanNewestFirst at h
  split_ifs at h
  obtain ⟨keys, hkeys, h⟩ := exists_of_bind_eq_ok h
  obtain ⟨⟨found', rest, attempted⟩, hscan, h⟩ := exists_of_bind_eq_ok h
  cases h
  rw [listRunIndexKeys, hindex] at hkeys
  obtain ⟨raw, hraw, hkeys⟩ := exists_of_bind_eq_ok hkeys
  cases hraw
  split at hkeys
  · cases hkeys
  · have hnodup := nodup_dedupeOrderedKeys ids
    rw [Except.ok.inj hkeys] at hnodup ⊢
    rw [min_eq_left hbound] at hscan
    obtain ⟨hfound, hrest, hle, hsum⟩ :=
      scanRounds_spec le_rfl (Nat.zero_le _) (Nat.zero_le _) hscan
    have hreached : found.length < limit → newest keys attempted = newest keys fetchMax := by
      intro hless
      have hlength := congrArg List.length (hrest hless)
      rw [List.length_take] at hlength
      rw [newest, newest, show keys.length - attempted = keys.length - fetchMax by omega]
    refine ⟨hfound, List.pairwise_reverse.mpr ((hnodup.sublist (List.drop_sublist ..)).imp Ne.symm),
      hle, ?_, hreached⟩
    rw [Bool.and_eq_true, Bool.not_eq_true', List.isEmpty_eq_false_iff, decide_eq_true_eq, and_comm]
    refine and_congr_right fun hless => ?_
    rw [hreached hless, exists_not_newest_iff hnodup, hrest hless]
    rfl

lemma scanNewestFirst_of_decodes (hindex : env.index = .ok ids) (hlist : ids.length ≤ runKeyScanMax)
    (hdecodes : ∀ id ∈ ids, env.indexReads id = true → env.runs id ≠ some none) (hlimit : 1 ≤ limit)
    (hmax : limit ≤ fetchMax) : ∃ result, scanNewestFirst env pred limit fetchMax = .ok result := by
  have hscan : ∃ result, scanRounds env pred limit (min fetchMax scanFetchMax)
      (dedupeOrderedKeys ids).length (dedupeOrderedKeys ids) [] 0 = .ok result :=
    scanRounds_of_decodes fun id hid => hdecodes id (List.mem_eraseDups.mp hid)
  obtain ⟨⟨found, rest, attempted⟩, hscan⟩ := hscan
  rw [scanNewestFirst, if_neg (by omega), if_neg (by omega), listRunIndexKeys, hindex]
  simp only [bind, Except.bind, if_neg (Nat.not_lt.mpr hlist), pure, Except.pure, hscan]
  exact ⟨_, rfl⟩

/-- **Newest first.**  The scan of an index of at most a million keys, whose values decode. -/
theorem scanNewestFirst_exact (hindex : env.index = .ok ids) (hlist : ids.length ≤ runKeyScanMax)
    (hdecodes : ∀ id ∈ ids, env.indexReads id = true → env.runs id ≠ some none)
    (hlimit : 1 ≤ limit) (hmax : limit ≤ fetchMax) (hbound : fetchMax ≤ scanFetchMax) :
    ∃ found stats, scanNewestFirst env pred limit fetchMax = .ok (found, stats) ∧
      Scanned env pred limit fetchMax (dedupeOrderedKeys ids) found stats := by
  obtain ⟨⟨found, stats⟩, h⟩ := scanNewestFirst_of_decodes hindex hlist hdecodes hlimit hmax
  exact ⟨found, stats, h, scanned_of_eq_ok hindex hbound h⟩

/-- A run that is in both indexes, of which both reads time out. -/
def slow : Env where
  defined := true
  triggers := .ok []
  runs _ := some (some { runID := "r1", workflowID := "orders", status := .running })
  active := .ok ["r1"]
  index := .ok ["r1"]
  activeReads _ := false
  indexReads _ := false
  versions := .ok []

def listing (ids : List String) : Env :=
  { slow with index := .ok ids, indexReads := fun _ => true }

theorem repeated_scanned : let ids := ["r1", "r2", "r1"]
    ∃ found stats, scanNewestFirst (listing ids) (fun _ => true) 1 2 = .ok (found, stats) ∧
      Scanned (listing ids) (fun _ => true) 1 2 (dedupeOrderedKeys ids) found stats :=
  scanNewestFirst_exact rfl (by decide) (fun _ _ _ => nofun) (by decide) (by decide) (by decide)

lemma long_listing_refused (h : runKeyScanMax < ids.length) :
    scanNewestFirst (listing ids) (fun _ => true) 1 1 =
      .error (.panic "listRunIndexKeys: key set exceeds bound") := by
  simp [scanNewestFirst, listRunIndexKeys, listing, h, bind, Except.bind]

/-- A listing of more than a million keys is not scanned. -/
theorem crowded_listing_refused :
    scanNewestFirst (listing (List.replicate 1000001 "r")) (fun _ => true) 1 1 =
      .error (.panic "listRunIndexKeys: key set exceeds bound") :=
  long_listing_refused (by rw [List.length_replicate]; decide)

lemma listing_of_scan {stats : ScanStats}
    (h : scanNewestFirst env pred limit fetchMax = .ok (found, stats)) :
    ∃ ids, env.index = .ok ids ∧ ids.length ≤ runKeyScanMax ∧ (found.length < limit →
      stats.truncated = false → ∀ id ∈ ids, env.indexReads id = true → env.runs id ≠ some none) := by
  unfold scanNewestFirst at h
  split_ifs at h
  obtain ⟨keys, hkeys, h⟩ := exists_of_bind_eq_ok h
  obtain ⟨⟨found', rest, attempted⟩, hscan, h⟩ := exists_of_bind_eq_ok h
  cases h
  obtain ⟨ids, hids, hkeys⟩ := exists_of_bind_eq_ok hkeys
  split at hkeys
  · cases hkeys
  · next hlist =>
    cases hkeys
    refine ⟨ids, hids, Nat.not_lt.mp hlist, fun hless hwhole id hid => ?_⟩
    refine decodes_of_scanRounds hscan id (List.mem_eraseDups.mpr hid) fun hrest => ?_
    simp [hless, List.ne_nil_of_mem hrest] at hwhole

/-- What the scan of the markers has found where it names no run of the workflow. -/
structure ActivePasses (env : Env) (name : String) (ids : List String) : Prop where
  listed : env.active = .ok ids
  keys : ids.length ≤ runKeyScanMax
  whole : (dedupeOrderedKeys ids).length ≤ runtimeRunScanMax
  decodes : ∀ id ∈ ids, env.activeReads id = true → env.runs id ≠ some none
  owned : ∀ id ∈ ids, env.activeReads id = true → ∀ run, env.runs id = some (some run) →
    run.workflowID = name → isReconcilerOwned run = false

lemma activePasses_of_nil (h : activeRunIDsForWorkflow env name = .ok []) :
    ∃ ids, ActivePasses env name ids := by
  obtain ⟨⟨runs, truncated⟩, hlist, hrest⟩ := exists_of_bind_eq_ok h
  obtain ⟨keys, hkeys, hlist⟩ := exists_of_bind_eq_ok hlist
  obtain ⟨fetched, hfetch, hlist⟩ := exists_of_bind_eq_ok hlist
  cases hlist
  obtain ⟨ids, hids, hkeys⟩ := exists_of_bind_eq_ok hkeys
  split at hkeys
  · cases hkeys
  · next hbound =>
    cases hkeys
    dsimp only at hrest
    split at hrest
    · cases hrest
    · next hwhole =>
      rw [decide_eq_true_eq, Nat.not_lt] at hwhole
      rw [List.take_of_length_le hwhole] at hfetch
      refine ⟨ids, hids, Nat.not_lt.mp hbound, hwhole, fun id hid => decodes_of_fetchRunsByID hfetch
        id (List.mem_eraseDups.mpr hid), fun id hid hread run hrun hname => ?_⟩
      have hmem : run ∈ fetched := by
        rw [eq_of_fetchRunsByID hfetch]
        exact List.mem_filterMap.mpr ⟨id, List.mem_eraseDups.mpr hid,
          readRun_eq_some.mpr ⟨hread, hrun⟩⟩
      have hnil := List.map_eq_nil_iff.mp (Except.ok.inj hrest)
      rw [List.filter_filter, List.filter_eq_nil_iff] at hnil
      simpa [hname] using hnil run hmem

lemma ActivePasses.not_unfinished (h : ActivePasses env name ids) (hid : id ∈ ids)
    (hread : env.activeReads id = true) : ¬Unfinished env name id := by
  rintro ⟨run, hrun, hname, hopen⟩
  have howned := h.owned id hid hread run hrun hname
  simp [isReconcilerOwned, hopen] at howned

lemma not_unfinished_of_indexed (h : indexedNonTerminalRunIDs env name = .ok ([], false))
    (hids : env.index = .ok ids) (hid : id ∈ ids) (hread : env.indexReads id = true) :
    ¬Unfinished env name id := by
  rintro ⟨run, hrun, hname, hopen⟩
  obtain ⟨⟨runs, stats⟩, hscan, hrest⟩ := exists_of_bind_eq_ok h
  obtain ⟨hfound, hmore⟩ := Prod.mk.inj (Except.ok.inj hrest)
  cases List.map_eq_nil_iff.mp hfound
  have hscanned := scanned_of_eq_ok hids (Nat.le_refl deleteGuardIndexFetchMax) hscan
  -- nothing is left out, so the key is among those that it looked at
  have hnewest : id ∈ newest (dedupeOrderedKeys ids) deleteGuardIndexFetchMax := by
    rw [← hscanned.reached (by decide)]
    by_contra hnot
    simp [hscanned.truncated.mpr ⟨by decide, id, List.mem_eraseDups.mpr hid, hnot⟩] at hmore
  have hnone := hscanned.exact
  rw [eq_comm, List.take_eq_nil_iff, List.filter_eq_nil_iff] at hnone
  refine absurd ?_ (hnone.resolve_left (by decide) run ?_)
  · simp [hname, hopen]
  · exact List.mem_filterMap.mpr ⟨id, hnewest, readRun_eq_some.mpr ⟨hread, hrun⟩⟩

lemma scans_of_passed (h : nonTerminalRunsForWorkflow env name = .ok none) :
    activeRunIDsForWorkflow env name = .ok [] ∧
      indexedNonTerminalRunIDs env name = .ok ([], false) := by
  obtain ⟨activeIDs, hactive, h⟩ := exists_of_bind_eq_ok h
  obtain ⟨⟨indexedIDs, more⟩, hindexed, h⟩ := exists_of_bind_eq_ok h
  have hpass : (mergeRunIDs activeIDs indexedIDs).isEmpty = true ∧ more = false := by
    by_contra hnot
    have hnone := Except.ok.inj h
    rw [if_neg (by simpa using hnot)] at hnone
    cases hnone
  have hnil : activeIDs ++ indexedIDs = [] := by
    refine List.eq_nil_iff_forall_not_mem.mpr fun x hx => ?_
    have hmem : x ∈ mergeRunIDs activeIDs indexedIDs := List.mem_eraseDups.mpr hx
    rw [List.isEmpty_iff.mp hpass.1] at hmem
    cases hmem
  obtain ⟨rfl, rfl⟩ := List.append_eq_nil_iff.mp hnil
  obtain ⟨-, rfl⟩ := hpass
  exact ⟨hactive, hindexed⟩

lemma not_unfinished_of_examined (h : nonTerminalRunsForWorkflow env name = .ok none)
    (hexamined : Examined env id) : ¬Unfinished env name id := by
  obtain ⟨hactive, hindexed⟩ := scans_of_passed h
  rcases hexamined with ⟨ids, hids, hid, hread⟩ | ⟨ids, hids, hid, hread⟩
  · obtain ⟨ids', hpasses⟩ := activePasses_of_nil hactive
    cases hids.symm.trans hpasses.listed
    exact hpasses.not_unfinished hid hread
  · exact not_unfinished_of_indexed hindexed hids hid hread

section

variable (h : Unobstructed env name) (hnone : ∀ id, Examined env id → ¬Unfinished env name id)
include h hnone

lemma Unobstructed.activeRunIDs : activeRunIDsForWorkflow env name = .ok [] := by
  obtain ⟨ids, hids, hkeys, hlength⟩ := h.active
  have hexamined : ∀ id ∈ dedupeOrderedKeys ids, env.activeReads id = true → Examined env id :=
    fun id hid hread => .inl ⟨ids, hids, List.mem_eraseDups.mp hid, hread⟩
  have hfetch := fetchRunsByID_of_decodes
    fun id hid hread => h.decodes id (hexamined id hid hread)
  have hempty : ((((dedupeOrderedKeys ids).filterMap (readRun env env.activeReads)).filter
      isReconcilerOwned).filter fun run => run.workflowID = name) = [] := by
    rw [List.filter_filter]
    refine List.filter_eq_nil_iff.mpr fun run hrun => ?_
    obtain ⟨id, hid, hread⟩ := List.mem_filterMap.mp hrun
    obtain ⟨hread, hstored⟩ := readRun_eq_some.mp hread
    have hend := hnone id (hexamined id hid hread)
    have hreleased := h.released ids hids id (List.mem_eraseDups.mp hid) hread run hstored
    intro howned
    simp only [isReconcilerOwned, Bool.and_eq_true, decide_eq_true_eq, Bool.or_eq_true,
      Bool.not_eq_true'] at howned
    rcases howned.2 with hopen | hpend
    · exact hend ⟨run, hstored, howned.1, hopen⟩
    · simp [hreleased howned.1] at hpend
  simp [activeRunIDsForWorkflow, listActive, listActiveRunIDs, hids, Nat.not_lt.mpr hkeys,
    List.take_of_length_le hlength, hfetch, Nat.not_lt.mpr hlength, hempty, bind, Except.bind, pure,
    Except.pure]

lemma Unobstructed.indexedRunIDs : indexedNonTerminalRunIDs env name = .ok ([], false) := by
  obtain ⟨ids, hids, hkeys, hlength⟩ := h.index
  have hexamined : ∀ id ∈ ids, env.indexReads id = true → Examined env id :=
    fun id hid hread => .inr ⟨ids, hids, hid, hread⟩
  have hscan : ∃ result, scanNewestFirst env
      (fun run => run.workflowID = name && !run.status.isTerminal)
      (min deleteGuardIndexMatchMax deleteGuardIndexFetchMax) deleteGuardIndexFetchMax =
        .ok result :=
    scanNewestFirst_of_decodes hids hkeys (fun id hid hread => h.decodes id
    (hexamined id hid hread))
      (by decide) (by decide)
  obtain ⟨⟨found, stats⟩, hscan⟩ := hscan
  have hscanned := scanned_of_eq_ok hids (Nat.le_refl deleteGuardIndexFetchMax) hscan
  have hempty : found = [] := by
    rw [hscanned.exact, List.filter_eq_nil_iff.mpr, List.take_nil]
    intro run hrun hpred
    obtain ⟨id, hid, hread⟩ := List.mem_filterMap.mp hrun
    obtain ⟨hread, hstored⟩ := readRun_eq_some.mp hread
    have hmem : id ∈ ids :=
      List.mem_eraseDups.mp (List.mem_of_mem_drop (List.mem_reverse.mp hid))
    simp only [Bool.and_eq_true, decide_eq_true_eq, Bool.not_eq_true'] at hpred
    exact hnone id (hexamined id hmem hread) ⟨run, hstored, hpred⟩
  subst hempty
  have hwhole : stats.truncated = false := by
    rw [← Bool.not_eq_true, hscanned.truncated, hscanned.reached (by decide),
      exists_not_newest_iff (nodup_dedupeOrderedKeys ids), deleteGuardIndexFetchMax,
      Nat.sub_eq_zero_of_le hlength]
    simp
  simp only [indexedNonTerminalRunIDs, hscan, hwhole, bind, Except.bind]
  rfl

lemma Unobstructed.passes : ∃ keys, deleteWorkflowInner env name false = .ok keys := by
  obtain ⟨triggers, htriggers, hnamed⟩ := h.untriggered
  obtain ⟨versions, hversions⟩ := h.versions
  have hrefs : referencingTriggerIDs env name = .ok [] := by
    have hempty : ((triggers.take 10000).filter fun t => t.2 = name) = [] :=
      List.filter_eq_nil_iff.mpr fun t ht => by simp [hnamed t ht]
    simp [referencingTriggerIDs, htriggers, hempty, bind, Except.bind, pure, Except.pure]
  have hguard : refusal env name = .ok none := by
    simp [refusal, hrefs, nonTerminalRunsForWorkflow, h.activeRunIDs hnone, h.indexedRunIDs hnone,
      mergeRunIDs, bind, Except.bind, pure, Except.pure]
  refine ⟨versions ++ [name], ?_⟩
  simp [deleteWorkflowInner, h.defined, hguard, hversions, Except.map, Except.mapError]

end

section

variable {keys : List String} (h : deleteWorkflowInner env name false = .ok keys)
include h

lemma passed_of_delete : env.defined = true ∧ (∃ versions, env.versions = .ok versions) ∧
    referencingTriggerIDs env name = .ok [] ∧ nonTerminalRunsForWorkflow env name = .ok none := by
  unfold deleteWorkflowInner at h
  split at h
  · next hdefined =>
    split at h
    · cases h
    · cases h
    · next hrefusal =>
      obtain ⟨refs, hrefs, hrefusal⟩ := exists_of_bind_eq_ok hrefusal
      split at hrefusal
      · next hempty =>
        rw [List.isEmpty_iff.mp hempty] at hrefs
        refine ⟨hdefined, ?_, hrefs, hrefusal⟩
        cases hversions : env.versions with
        | error f =>
          rw [hversions] at h
          cases h
        | ok versions => exact ⟨versions, rfl⟩
      · cases hrefusal
  · cases h

lemma Unobstructed.of_delete : Unobstructed env name := by
  obtain ⟨hdefined, hversions, hrefs, hpassed⟩ := passed_of_delete h
  obtain ⟨hactive, hindexed⟩ := scans_of_passed hpassed
  obtain ⟨triggers, htriggers, hnone⟩ := exists_of_bind_eq_ok hrefs
  obtain ⟨ids, hpasses⟩ := activePasses_of_nil hactive
  obtain ⟨⟨runs, stats⟩, hscan, hrest⟩ := exists_of_bind_eq_ok hindexed
  obtain ⟨hfound, hmore⟩ := Prod.mk.inj (Except.ok.inj hrest)
  cases List.map_eq_nil_iff.mp hfound
  have hwhole : stats.truncated = false := (Bool.or_eq_false_iff.mp hmore).1
  obtain ⟨listed, hlisted, hbound, hdecodes⟩ := listing_of_scan hscan
  have hscanned := scanned_of_eq_ok hlisted (Nat.le_refl deleteGuardIndexFetchMax) hscan
  refine ⟨hdefined, ⟨triggers, htriggers, fun t ht heq => ?_⟩,
    ⟨ids, hpasses.listed, hpasses.keys, hpasses.whole⟩, ⟨listed, hlisted, hbound, ?_⟩, hversions, ?_,
    fun ids' hids' id hid hread run hrun hname => ?_⟩
  · have hnil := List.map_eq_nil_iff.mp (Except.ok.inj hnone)
    exact List.filter_eq_nil_iff.mp hnil t ht (by simpa using heq)
  · -- nothing is left out, so the listing is within the bound
    have hall := mt hscanned.truncated.mpr (by simp [hwhole])
    rw [not_and, hscanned.reached (by decide),
      exists_not_newest_iff (nodup_dedupeOrderedKeys listed), not_not, List.take_eq_nil_iff] at hall
    rcases hall (by decide) with hzero | hnil
    · exact Nat.sub_eq_zero_iff_le.mp hzero
    · simp [hnil]
  · rintro id (⟨ids', hids', hid, hread⟩ | ⟨ids', hids', hid, hread⟩)
    · cases hids'.symm.trans hpasses.listed
      exact hpasses.decodes id hid hread
    · cases hids'.symm.trans hlisted
      exact hdecodes (by decide) hwhole id hid hread
  · cases hids'.symm.trans hpasses.listed
    have howned := hpasses.owned id hid hread run hrun hname
    exact (Bool.or_eq_false_iff.mp howned).2

end

/-- The guard is sound exactly if, where nothing else is in the way of the delete, one of
the unfinished runs is examined. -/
theorem guarded_iff_caught (env : Env) (name : String) :
    Guarded env name ↔ (Unobstructed env name → Caught env name) := by
  constructor
  · rintro hguarded hfree ⟨id, hlisted, hunfinished⟩
    by_contra hnone
    obtain ⟨keys, hkeys⟩ := hfree.passes fun id' hexamined hunfinished' =>
      hnone ⟨id', hexamined, hunfinished'⟩
    exact hguarded keys hkeys id hlisted hunfinished
  · intro hcaught keys hdelete id hlisted hunfinished
    obtain ⟨id', hexamined, hunfinished'⟩ := hcaught (.of_delete hdelete) ⟨id, hlisted, hunfinished⟩
    exact not_unfinished_of_examined (passed_of_delete hdelete).2.2.2 hexamined hunfinished'

/-- Its workflow is deleted while it is running. -/
theorem deleted_under_slow_reads : ¬Guarded slow "orders" := by
  intro h
  exact h ["orders"] rfl "r1" (.inl ⟨["r1"], rfl, .head _⟩) ⟨_, rfl, rfl, rfl⟩

end Dagnats.DeleteWorkflow
