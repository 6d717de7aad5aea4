import Dagnats.Programs.Registrar

/-!
# Reach beyond the own prefix

A protocol, or a read of a bucket, is covered by the join key of the request that
first put it into the record. An update checks both against the key; a first
registration checks the protocols only, so the reads of a first manifest have to
be covered by themselves.
-/

namespace Dagnats.Programs

variable {s : Stored} {req : Request} {c : Choice} {record : Record} {m : Manifest}
  {key : Option JoinKey} {k : JoinKey} {older : List (Manifest × Option JoinKey)}

/-- What a manifest reaches for, and the program that it belongs to. -/
inductive Reach where
  | protocol (p : String)
  | read (r : String)

def Reach.owner : Reach → String
  | .protocol p => protocolRoot p
  | .read r => readOwner r

def Manifest.reach (m : Manifest) : List Reach :=
  m.protocols.map .protocol ++ m.reads.map .read

/-- What a write brings into the record, after `older`, is allowed by its key: the
key allows the program and the owner. -/
def Brings (m : Manifest) (key : Option JoinKey) (older : List (Manifest × Option JoinKey)) :
    Prop :=
  ∀ x ∈ m.reach, (∀ w ∈ older, x ∉ w.1.reach) →
    ∃ k, key = some k ∧ k.allowsName m.name = true ∧ k.allowsName x.owner = true

/-- Everything was covered when it first entered the record. -/
def Covered : List (Manifest × Option JoinKey) → Prop
  | [] => True
  | (m, key) :: older => Brings m key older ∧ Covered older

/-- The stored manifest is the one that was written last. -/
def Stored.Ok (s : Stored) : Prop :=
  Covered s.writes ∧ ∀ record, s.record = some record →
    ∃ key older, s.writes = (record.manifest, key) :: older

/-- The key of a registration covers the reads of its manifest. -/
def Op.CoversReads : Op → Prop
  | .register req _ _ => ∀ k, req.verify = some k →
      ∀ r ∈ req.manifest.reads, readOwner r ≠ req.name → k.allowsName (readOwner r) = true
  | _ => True

lemma Stored.ok_empty : Stored.Ok {} :=
  ⟨trivial, fun _ h => nomatch h⟩

lemma Stored.Ok.write (h : s.Ok) (hbrings : Brings record.manifest key s.writes) :
    (s.write record key).Ok := by
  refine ⟨⟨hbrings, h.1⟩, fun record' hrecord => ?_⟩
  cases hrecord
  exact ⟨key, s.writes, rfl⟩

/-- A manifest that reaches no further than one before brings nothing. -/
lemma Brings.of_mem {w : Manifest × Option JoinKey} (hw : w ∈ older)
    (hreach : m.reach ⊆ w.1.reach) : Brings m key older :=
  fun _ hx hnew => absurd (hreach hx) (hnew w hw)

lemma allowsName_of_verify (h : req.verify = some k) : k.allowsName req.manifest.name = true :=
  (Option.filter_eq_some_iff.mp h).2

lemma allowsName_of_protocolOutside {protocols : List String} {p : String}
    (h : k.protocolOutside protocols = false) (hp : p ∈ protocols) :
    k.allowsName (protocolRoot p) = true := by
  simpa using List.any_eq_false.mp h p hp

lemma brings_of_reserveUse (h : reserveUse false req = some key)
    (hreads : ∀ k, req.verify = some k → ∀ r ∈ req.manifest.reads, readOwner r ≠ req.name →
      k.allowsName (readOwner r) = true) : Brings req.manifest key [] := by
  rw [reserveUse, if_neg (by simp)] at h
  obtain ⟨k, hk, rfl⟩ := Option.map_eq_some_iff.mp h
  obtain ⟨hverify, hinside⟩ := Option.filter_eq_some_iff.mp hk
  have hname := allowsName_of_verify hverify
  intro x hx _
  refine ⟨k, rfl, hname, ?_⟩
  rcases List.mem_append.mp hx with hx | hx
  · obtain ⟨p, hp, rfl⟩ := List.mem_map.mp hx
    exact allowsName_of_protocolOutside (by simpa using hinside) hp
  · obtain ⟨r, hr, rfl⟩ := List.mem_map.mp hx
    by_cases hown : readOwner r = req.name
    · rwa [Reach.owner, hown]
    · exact hreads k hverify r hr hown

lemma brings_of_reserveWidening {stored : Manifest} {old : Option JoinKey}
    (h : reserveWidening false req (widened stored req.manifest) = some key) :
    Brings req.manifest key ((stored, old) :: older) := by
  intro x hx hnew
  -- what is new to the stored manifest is part of the widening
  have hwidens : (∃ p ∈ (widened stored req.manifest).protocols, x = .protocol p) ∨
      ∃ r ∈ (widened stored req.manifest).reads, x = .read r := by
    have hstored := hnew _ (.head _)
    simp only [Manifest.reach, List.mem_append, List.mem_map, not_or] at hx hstored
    rcases hx with ⟨p, hp, rfl⟩ | ⟨r, hr, rfl⟩
    · refine .inl ⟨p, List.mem_filter.mpr ⟨hp, ?_⟩, rfl⟩
      exact decide_eq_true fun h => hstored.1 ⟨p, h, rfl⟩
    · refine .inr ⟨r, List.mem_filter.mpr ⟨hr, ?_⟩, rfl⟩
      exact decide_eq_true fun h => hstored.2 ⟨r, h, rfl⟩
  rw [reserveWidening] at h
  split at h
  · next hnone =>
    have hsame : (widened stored req.manifest).none = true := by simpa using hnone
    simp only [Widening.none, Bool.and_eq_true, List.isEmpty_iff] at hsame
    simp [hsame.1.1, hsame.1.2] at hwidens
  · obtain ⟨k, hk, rfl⟩ := Option.map_eq_some_iff.mp h
    obtain ⟨hverify, hcovers⟩ := Option.filter_eq_some_iff.mp hk
    rw [covers, Bool.and_eq_true, Bool.not_eq_true'] at hcovers
    refine ⟨k, rfl, allowsName_of_verify hverify, ?_⟩
    rcases hwidens with ⟨p, hp, rfl⟩ | ⟨r, hr, rfl⟩
    · exact allowsName_of_protocolOutside hcovers.1 hp
    · exact List.all_eq_true.mp hcovers.2 r hr

lemma Stored.Ok.expire (h : s.Ok) (now : ℕ) : (s.expire now).Ok := by
  unfold Stored.expire
  split
  · exact ok_empty
  · exact h

lemma Stored.Ok.register (h : s.Ok) (ttl : ℕ) (hreads : (Op.register req c ttl).CoversReads) :
    (s.register false req c ttl).Ok := by
  unfold Stored.register
  dsimp only
  split
  · next key _ hkey =>
    split
    · exact ok_empty.write (brings_of_reserveUse hkey hreads)
    · exact h.expire c.now
  · exact h.expire c.now

lemma Stored.Ok.update (h : s.Ok) (hrecord : s.record = some record) :
    (s.update false req c record).Ok := by
  obtain ⟨old, older, hwrites⟩ := h.2 record hrecord
  unfold Stored.update
  split
  · exact h
  · split
    · next hversion =>
      have hsame := of_decide_eq_true hversion
      simp only [Manifest.mk.injEq] at hsame
      have hreach : req.manifest.reach = record.manifest.reach := by
        rw [Manifest.reach, Manifest.reach, hsame.2.2.1, hsame.2.2.2.1]
      exact h.write (hwrites ▸ .of_mem (.head _) fun _ hx => hreach ▸ hx)
    · split
      · exact h
      · next key hkey =>
        have hchanged : (s.write { record with manifest := req.manifest } key).Ok :=
          h.write (hwrites ▸ brings_of_reserveWidening hkey)
        split
        · exact hchanged
        · refine hchanged.write (.of_mem (w := (record.manifest, old)) ?_ (List.Subset.refl _))
          exact .tail _ (hwrites ▸ (.head _))

lemma Stored.Ok.confirm (h : s.Ok) : (s.confirm false req c).Ok := by
  unfold Stored.confirm
  split
  · exact h
  · next record hrecord =>
    obtain ⟨old, older, hwrites⟩ := h.2 record hrecord
    split
    · exact h
    · split
      · split
        · exact h
        · split
          · exact h.write (hwrites ▸ .of_mem (.head _) (List.Subset.refl _))
          · exact ok_empty
      · split
        · exact h
        · exact h.update hrecord

lemma act_ok {programs : String → Stored} {op : Op} (h : ∀ name, (programs name).Ok)
    (hop : op.CoversReads) (name : String) : (act false programs op name).Ok := by
  have hupdate : ∀ {key : String} {t : Stored}, t.Ok →
      (Function.update programs key t name).Ok := by
    intro key t ht
    by_cases hname : name = key
    · subst hname
      rwa [Function.update_self]
    · rw [Function.update_of_ne hname]
      exact h name
  cases op with
  | register req c ttl => exact hupdate ((h _).register ttl hop)
  | confirm req c => exact hupdate (h _).confirm
  | expire key now => exact hupdate ((h _).expire now)

/-- On a server that requires join keys, if the keys of the registrations cover
the reads, then all reach was covered when it was first stored. -/
theorem reach_covered (ops : List Op) (h : ∀ op ∈ ops, op.CoversReads) (name : String) :
    Covered (run false ops name).writes := by
  have hall : ∀ name, (run false ops name).Ok := by
    induction ops using List.reverseRecOn with
    | nil => exact fun _ => Stored.ok_empty
    | append_singleton ops op ih =>
      rw [run, List.foldl_append]
      exact act_ok (ih fun op' hop' => h op' (List.mem_append_left _ hop'))
        (h op (List.mem_append_right _ (List.mem_singleton_self op)))
  exact (hall name).1

/-- A program that reads `tool_registry`, with a key for these names. -/
def reader (nameGlob : String) : Request where
  manifest := { name := "notify", reads := ["tool_registry"] }
  publicKey := "U1"
  joinKey := some (some ⟨"k1", nameGlob⟩)

theorem reader_covered : Covered (run false [.register (reader "?o*") {} 60] "notify").writes :=
  reach_covered _ (by simp [Op.CoversReads]; decide) "notify"

/-- A key for the names `notify*` registers it too. -/
theorem reader_uncovered :
    ¬Covered (run false [.register (reader "notify*") {} 60] "notify").writes := by
  rintro ⟨hbrings, -⟩
  obtain ⟨k, hk, -, hallows⟩ := hbrings (.read "tool_registry") (.head _)
    fun _ h => nomatch h
  cases hk
  revert hallows
  decide

end Dagnats.Programs
