import Mathlib.Data.List.Perm.Subperm
import Mathlib.Order.Lattice.Nat
import Mathlib.Order.WellFoundedSet
import Dagnats.Dag.Validate

/-!
# What the cycle check guarantees

Kahn's algorithm takes a step from its queue only after all its dependencies,
and takes no step twice. A definition that passes the check therefore has an
order of its steps in which each comes after what it depends on.
-/

namespace Dagnats

open Interaction

variable {id : String} {node : String} {done : List String} {k : Kahn} {s : StepDef}
  {child : String}

/-- Every entry comes after the entries it depends on; the last one comes first
in the list. -/
def Ordered {α : Type} (deps : α → List α) : List α → Prop
  | [] => True
  | x :: older => (∀ y ∈ deps x, y ∈ older) ∧ Ordered deps older

namespace Ordered

variable {α : Type} {deps : α → List α} {xs : List α}

lemma closed (h : Ordered deps xs) {x y : α} (hx : x ∈ xs) (hy : y ∈ deps x) : y ∈ xs := by
  induction xs with
  | nil => cases hx
  | cons z older ih =>
    rcases List.mem_cons.mp hx with rfl | hx
    · exact .tail _ (h.1 y hy)
    · exact .tail _ (ih h.2 hx)

/-- What an entry inherits from its dependencies holds of every entry. -/
lemma forall_of_step {P : α → Prop} (h : Ordered deps xs)
    (hstep : ∀ x ∈ xs, (∀ y ∈ deps x, P y) → P x) : ∀ x ∈ xs, P x := by
  induction xs with
  | nil => exact fun x hx => nomatch hx
  | cons z older ih =>
    have holder : ∀ x ∈ older, P x := ih h.2 fun x hx => hstep x (.tail _ hx)
    intro x hx
    rcases List.mem_cons.mp hx with rfl | hx
    · exact hstep x (.head _) fun y hy => holder y (h.1 y hy)
    · exact holder x hx

end Ordered

variable {steps : List StepDef}

def depsOf (steps : List StepDef) (id : String) : List String :=
  ((steps.find? (·.id = id)).map (·.dependsOn)).getD []

lemma depsOf_of_mem (hnodup : (steps.map (·.id)).Nodup) (hs : s ∈ steps) :
    depsOf steps s.id = s.dependsOn := by
  have hfind : steps.find? (·.id = s.id) = some s := by
    induction steps with
    | nil => cases hs
    | cons t rest ih =>
      rw [List.map_cons, List.nodup_cons] at hnodup
      rcases List.mem_cons.mp hs with rfl | hs
      · simp
      · have hne : t.id ≠ s.id := fun h =>
          hnodup.1 (h ▸ List.mem_map_of_mem hs)
        rw [List.find?_cons_of_neg (by simpa using hne)]
        exact ih hnodup.2 hs
  rw [depsOf, hfind]
  rfl

lemma mem_ids_of_mem_dependents (h : child ∈ dependents steps node) : child ∈ steps.map (·.id) := by
  obtain ⟨s, hs, hchild⟩ := List.mem_flatMap.mp h
  obtain ⟨-, -, rfl⟩ := List.mem_map.mp hchild
  exact List.mem_map_of_mem hs

/-- Every edge is listed once on both of its ends. -/
lemma count_dependents (hnodup : (steps.map (·.id)).Nodup) (h : child ∈ steps.map (·.id)) :
    (dependents steps node).count child = (depsOf steps child).count node := by
  have hnone : ∀ {rest : List StepDef}, child ∉ rest.map (·.id) →
      (dependents rest node).count child = 0 := fun hout =>
    List.count_eq_zero.mpr fun hin => hout (mem_ids_of_mem_dependents hin)
  induction steps with
  | nil => cases h
  | cons s rest ih =>
    rw [List.map_cons, List.nodup_cons] at hnodup
    have hsplit : dependents (s :: rest) node =
        ((s.dependsOn.filter (· = node)).map fun _ => s.id) ++ dependents rest node :=
      rfl
    rw [hsplit, List.count_append]
    by_cases hid : s.id = child
    · subst hid
      rw [hnone hnodup.1, Nat.add_zero,
        depsOf_of_mem (by simpa using hnodup) (List.mem_cons_self ..)]
      rw [List.map_const', List.count_replicate_self, ← List.countP_eq_length_filter, List.count]
      congr 1
    · have hrest : child ∈ rest.map (·.id) := by
        simpa [Ne.symm hid] using h
      have hfirst : ((s.dependsOn.filter (· = node)).map fun _ => s.id).count child =
          0 := by
        rw [List.map_const', List.count_replicate]
        simp [hid]
      have hdeps : depsOf (s :: rest) child = depsOf rest child := by
        rw [depsOf, List.find?_cons_of_neg (by simpa using hid), ← depsOf]
      rw [hfirst, Nat.zero_add, hdeps]
      exact ih hnodup.2 hrest

lemma mem_dependents (hnodup : (steps.map (·.id)).Nodup) (h : child ∈ steps.map (·.id)) :
    child ∈ dependents steps node ↔ node ∈ depsOf steps child := by
  rw [← List.count_pos_iff, count_dependents hnodup h, List.count_pos_iff]

/-! ## One round of Kahn's algorithm -/

namespace Kahn

/-- The edges of the step that are still to be followed. -/
def degree (k : Kahn) (id : String) : ℕ :=
  (k.inDegree.find? id).getD 0

def depthOf (k : Kahn) (id : String) : ℕ :=
  (k.depth.find? id).getD 0

/-- Following the edges of `node` to `cs` has counted each of them and queued `fresh`. -/
structure Relaxed (node : String) (k : Kahn) (cs fresh : List String) (k' : Kahn) : Prop where
  visited : k'.visited = k.visited
  maxDepth : k'.maxDepth = k.maxDepth
  degree : ∀ c, k'.degree c = k.degree c - cs.count c
  depth : ∀ c n, k'.depthOf c ≤ n ↔ k.depthOf c ≤ n ∧ (c ∈ cs → k.depthOf node < n)
  queue : k'.queue = k.queue ++ fresh
  nodup : fresh.Nodup
  mem : ∀ c, c ∈ fresh ↔ c ∈ cs ∧ k.degree c = cs.count c

lemma degree_relax (k : Kahn) (node child c : String) : (k.relax node child).degree c = if child =
    c then k.degree c - 1 else k.degree c := by
  unfold Kahn.degree Kahn.relax
  dsimp only
  rw [Table.find?_set]
  split
  · next h => rw [h]; rfl
  · rfl

lemma depthOf_relax (k : Kahn) (node child c : String) : (k.relax node child).depthOf c =
    if child = c then max (k.depthOf c) (k.depthOf node + 1) else k.depthOf c := by
  unfold Kahn.depthOf Kahn.relax
  dsimp only
  rw [Table.find?_set]
  split
  · next h => rw [h]; rfl
  · rfl

lemma relaxed_foldl (cs : List String) (k : Kahn)
    (h : ∀ c, cs.count c ≤ k.degree c) (hnode : node ∉ cs) :
    ∃ fresh, Relaxed node k cs fresh (cs.foldl (Kahn.relax node) k) := by
  induction cs generalizing k with
  | nil => exact ⟨[], rfl, rfl, by simp, by simp, by simp, by simp, by simp⟩
  | cons child rest ih =>
    rw [List.mem_cons, not_or] at hnode
    have hdeg := degree_relax k node child
    have hcount : ∀ c, (child :: rest).count c =
        rest.count c + if child = c then 1 else 0 := fun c => by
      rw [List.count_cons]
      simp
    obtain ⟨fresh, hrest⟩ := ih (k.relax node child) (fun c => by
      have hc := h c
      rw [hcount] at hc
      rw [hdeg]
      split
      · simp_all
        omega
      · simp_all) hnode.2
    have hchild : rest.count child + 1 ≤ k.degree child := by
      have hc := h child
      rw [hcount, if_pos rfl] at hc
      exact hc
    have hdegree : ∀ c, (List.foldl (Kahn.relax node) k (child :: rest)).degree c =
        k.degree c - (child :: rest).count c := fun c => by
      rw [List.foldl_cons, hrest.degree, hdeg, hcount]
      split <;> omega
    have hdepth : ∀ c n, (List.foldl (Kahn.relax node) k (child :: rest)).depthOf c ≤ n ↔
        k.depthOf c ≤ n ∧ (c ∈ child :: rest → k.depthOf node < n) := fun c n => by
      rw [List.foldl_cons, hrest.depth, depthOf_relax, depthOf_relax, if_neg (Ne.symm hnode.1)]
      grind
    by_cases hzero : k.degree child - 1 = 0
    · -- The last edge of `child`: it is queued, and does not occur again.
      have hout : child ∉ rest := List.count_eq_zero.mp (by omega)
      refine ⟨child :: fresh, hrest.visited, hrest.maxDepth, hdegree, hdepth, ?_, ?_, fun c => ?_⟩
      · rw [List.foldl_cons, hrest.queue]
        have hq : (k.relax node child).queue = k.queue ++ [child] := if_pos hzero
        rw [hq, List.append_assoc]
        rfl
      · exact List.nodup_cons.mpr ⟨fun hin => hout ((hrest.mem child).mp hin).1, hrest.nodup⟩
      · rw [List.mem_cons, hrest.mem, hdeg, hcount, List.mem_cons]
        by_cases hc : child = c
        · subst hc
          simp [hout]
          omega
        · simp [hc, Ne.symm hc]
    · refine ⟨fresh, hrest.visited, hrest.maxDepth, hdegree, hdepth, ?_, hrest.nodup, fun c => ?_⟩
      · rw [List.foldl_cons, hrest.queue]
        have hq : (k.relax node child).queue = k.queue := if_neg hzero
        rw [hq]
      · rw [hrest.mem, hdeg, hcount, List.mem_cons]
        by_cases hc : child = c
        · subst hc
          simp only [if_true, true_or, true_and]
          constructor
          · intro hin
            omega
          · intro heq
            exact ⟨List.count_pos_iff.mp (by omega), by omega⟩
        · simp [hc, Ne.symm hc]

/-! ## The whole run -/

/-- The steps in `done` were taken from the queue, the last one first. -/
structure Inv (steps : List StepDef) (k : Kahn) (done : List String) : Prop where
  visited : k.visited = done.length
  nodup : (done ++ k.queue).Nodup
  degree : ∀ id ∈ steps.map (·.id), k.degree id = (depsOf steps id).countP fun dep => dep ∉ done
  ready : ∀ id, id ∈ done ++ k.queue ↔ id ∈ steps.map (·.id) ∧ k.degree id = 0
  ordered : Ordered (depsOf steps) done
  depth : ∀ id ∈ steps.map (·.id), ∀ n, k.depthOf id ≤ n ↔
    (depsOf steps id = [] → 0 < n) ∧ ∀ dep ∈ depsOf steps id, dep ∈ done → k.depthOf dep < n
  maxDepth : ∀ n, k.maxDepth ≤ n ↔ ∀ id ∈ done, k.depthOf id ≤ n

lemma countP_not_mem_cons (deps : List String) (h : node ∉ done) :
    (deps.countP fun dep => dep ∉ done) =
    (deps.countP fun dep => dep ∉ node :: done) + deps.count node := by
  induction deps with
  | nil => rfl
  | cons dep rest ih =>
    rw [List.countP_cons, List.countP_cons, List.count_cons, ih]
    by_cases hdep : dep = node
    · subst hdep
      simp [h]
      omega
    · by_cases hdone : dep ∈ done <;> simp [hdep, hdone]
      omega

/-- The state in which the edges of `node` are followed. -/
def taken (k : Kahn) (node : String) (rest : List String) : Kahn :=
  { k with
    queue := rest, visited := k.visited + 1
    maxDepth := max k.maxDepth ((k.depth.find? node).getD 0) }

lemma Inv.next (hnodup : (steps.map (·.id)).Nodup) {rest : List String}
    (h : Inv steps k done) (hqueue : k.queue = node :: rest) :
    Inv steps ((dependents steps node).foldl (Kahn.relax node) (k.taken node rest))
      (node :: done) := by
  have hall := h.nodup
  have hready := h.ready
  rw [hqueue] at hall hready
  have hnode : node ∉ done := fun hin => List.disjoint_of_nodup_append hall hin (.head _)
  obtain ⟨hstep, hzero⟩ := (hready node).mp (by simp)
  rw [h.degree _ hstep, List.countP_eq_zero] at hzero
  have hnodeDeps : ∀ dep ∈ depsOf steps node, dep ∈ done := by simpa using hzero
  have hordered : Ordered (depsOf steps) (node :: done) := ⟨hnodeDeps, h.ordered⟩
  have hcount : ∀ c, (dependents steps node).count c ≤ k.degree c := by
    intro c
    by_cases hc : c ∈ steps.map (·.id)
    · rw [count_dependents hnodup hc, h.degree c hc, countP_not_mem_cons _ hnode]
      exact Nat.le_add_left _ _
    · rw [List.count_eq_zero.mpr fun hin => hc (mem_ids_of_mem_dependents hin)]
      exact Nat.zero_le _
  -- What is done depends only on what was done before, so `node` is below none of it.
  have hbelow : ∀ id ∈ node :: done, id ∉ dependents steps node := by
    intro id hin hdep
    have hdeps := (mem_dependents hnodup (mem_ids_of_mem_dependents hdep)).mp hdep
    rcases List.mem_cons.mp hin with rfl | hin
    · exact hnode (hnodeDeps _ hdeps)
    · exact hnode (h.ordered.closed hin hdeps)
  obtain ⟨fresh, hrelaxed⟩ := relaxed_foldl (dependents steps node) (k.taken node rest) hcount
    (hbelow node (.head _))
  generalize (dependents steps node).foldl (Kahn.relax node) (k.taken node rest) = k' at hrelaxed
  obtain ⟨hvisited, hmax, hdegree, hdepth, hqueue', hfresh, hmem⟩ := hrelaxed
  change k'.maxDepth = max k.maxDepth (k.depthOf node) at hmax
  change ∀ c, k'.degree c = k.degree c - _ at hdegree
  change ∀ c n, k'.depthOf c ≤ n ↔ k.depthOf c ≤ n ∧ (_ → k.depthOf node < n) at hdepth
  change ∀ c, c ∈ fresh ↔ _ ∧ k.degree c = _ at hmem
  have hsame : ∀ id ∈ node :: done, k'.depthOf id = k.depthOf id := fun id hin =>
    eq_of_forall_ge_iff fun n => by simp [hdepth, hbelow id hin]
  have hpositive : ∀ c ∈ fresh, 0 < k.degree c := fun c hc => by
    obtain ⟨hin, heq⟩ := (hmem c).mp hc
    rw [heq]
    exact List.count_pos_iff.mpr hin
  have hdisjoint : List.Disjoint (done ++ node :: rest) fresh := fun c hin hc =>
    absurd (hpositive c hc) (by simp [((hready c).mp hin).2])
  have hperm : List.Perm (done ++ node :: rest ++ fresh) (node :: done ++ k'.queue) := by
    rw [hqueue', List.cons_append, ← List.append_assoc]
    exact List.perm_middle.append_right fresh
  refine ⟨?_, ?_, fun id hid => ?_, fun id => ?_, hordered, fun id hid n => ?_, fun n => ?_⟩
  · rw [hvisited, List.length_cons, ← h.visited]
    rfl
  · exact hperm.nodup (List.Nodup.append hall hfresh hdisjoint)
  · rw [hdegree, count_dependents hnodup hid, h.degree id hid, countP_not_mem_cons _ hnode,
      Nat.add_sub_cancel]
  · rw [← hperm.mem_iff, List.mem_append, hready, hmem, hdegree]
    have hle := hcount id
    by_cases hin : id ∈ dependents steps node
    · have hid := mem_ids_of_mem_dependents hin
      simp only [hid, hin, true_and]
      omega
    · simp [hin, List.count_eq_zero.mpr hin]
  · rw [hdepth, h.depth id hid, mem_dependents hnodup hid]
    grind
  · rw [hmax, max_le_iff, h.maxDepth, List.forall_mem_cons, hsame node (.head _), and_comm]
    grind

/-- The run ends with an empty queue, or has used all its rounds. -/
lemma Inv.run (hnodup : (steps.map (·.id)).Nodup) (n : ℕ) (h : Inv steps k done) :
    ∃ done', Inv steps (Kahn.run steps n k) done' ∧
      ((Kahn.run steps n k).queue = [] ∨ done'.length = done.length + n) := by
  induction n generalizing k done with
  | zero => exact ⟨done, h, .inr rfl⟩
  | succ n ih =>
    cases hqueue : k.queue with
    | nil =>
      rw [Kahn.run, hqueue]
      exact ⟨done, h, .inl hqueue⟩
    | cons node rest =>
      rw [Kahn.run, hqueue]
      obtain ⟨done', hinv, hend⟩ := ih (h.next hnodup hqueue)
      exact ⟨done', hinv, hend.imp_right fun hlen => by rw [hlen, List.length_cons]; omega⟩

lemma Inv.known (h : Inv steps k done) : done ⊆ steps.map (·.id) := fun id hid =>
  ((h.ready id).mp (List.mem_append_left _ hid)).1

/-- Taking as many steps as there are takes each of them. -/
lemma Inv.all (h : Inv steps k done) (hlength : done.length = steps.length) :
    steps.map (·.id) ⊆ done := by
  have hdone : done.Nodup := (List.nodup_append.mp h.nodup).1
  have hperm := (hdone.subperm h.known).perm_of_length_le (by rw [List.length_map, hlength])
  exact hperm.symm.subset

end Kahn


lemma keys_set_nodup {t : Table String ℕ} (h : t.keys.Nodup) (key : String)
    (value : ℕ) : (t.set key value).keys.Nodup := by
  rw [Table.keys_set]
  split
  · exact h
  · next hnew =>
    have hout : key ∉ t.keys := fun hin => hnew ((t.mem_keys key).mp hin)
    exact List.nodup_append.mpr ⟨h, by simp, fun a ha b hb hab => by
      rw [List.mem_singleton] at hb
      exact hout (hb ▸ hab ▸ ha)⟩

lemma keys_degreeOf_nodup : (degreeOf steps).keys.Nodup :=
  List.foldlRecOn (motive := fun t : Table String ℕ => t.keys.Nodup) steps _
    List.nodup_nil fun _ ht _ _ => keys_set_nodup ht _ _

/-- The steps without a dependency, in the order in which they are queued. -/
def rootsOf (steps : List StepDef) : List String :=
  (degreeOf steps).keys.filter fun id => (degreeOf steps).find? id = some 0

/-- `kahn`, with the roots queued in another order. -/
def kahnFrom (steps : List StepDef) (roots : List String) : Kahn :=
  Kahn.run steps steps.length
    { queue := roots, inDegree := degreeOf steps
      depth := roots.foldl (fun t id => t.set id 1) .empty }

lemma find?_foldl_one (roots : List String) (t : Table String ℕ) :
    (roots.foldl (fun t id => t.set id 1) t).find? id =
      if id ∈ roots then some 1 else t.find? id := by
  induction roots generalizing t with
  | nil => simp
  | cons root rest ih =>
    rw [List.foldl_cons, ih, Table.find?_set]
    grind

section

variable (hnodup : (steps.map (·.id)).Nodup)
include hnodup

/-- `degreeOf`, started from any table that knows none of the steps. -/
lemma find?_foldl_degree (t : Table String ℕ)
    (hnew : ∀ id ∈ steps.map (·.id), t.find? id = none) :
    (steps.foldl (fun t s => t.set s.id ((t.find? s.id).getD 0 + s.dependsOn.length)) t).find? id =
    if id ∈ steps.map (·.id) then some (depsOf steps id).length else t.find? id := by
  induction steps generalizing t with
  | nil => simp
  | cons s rest ih =>
    rw [List.map_cons, List.nodup_cons] at hnodup
    have hfirst : t.find? s.id = none := hnew s.id (.head _)
    have hstep : t.set s.id ((t.find? s.id).getD 0 + s.dependsOn.length) =
        t.set s.id s.dependsOn.length := by
      rw [hfirst, Option.getD_none, Nat.zero_add]
    have hrest : ∀ id ∈ rest.map (·.id), (t.set s.id s.dependsOn.length).find? id = none := by
      intro id hid
      have hne : s.id ≠ id := fun h => hnodup.1 (h ▸ hid)
      rw [Table.find?_set_of_ne _ _ hne]
      exact hnew id (.tail _ hid)
    rw [List.foldl_cons, hstep, ih hnodup.2 _ hrest]
    by_cases hid : s.id = id
    · subst hid
      rw [if_neg hnodup.1, Table.find?_set_self, if_pos (by simp),
        depsOf_of_mem (by simpa using hnodup) (List.mem_cons_self ..)]
    · have hdeps : depsOf (s :: rest) id = depsOf rest id := by
        rw [depsOf, List.find?_cons_of_neg (by simpa using hid), ← depsOf]
      rw [Table.find?_set_of_ne _ _ hid, hdeps]
      simp [Ne.symm hid]

lemma find?_degreeOf : (degreeOf steps).find? id =
    if id ∈ steps.map (·.id) then some (depsOf steps id).length else none :=
  find?_foldl_degree hnodup .empty (fun _ _ => rfl)

lemma Kahn.inv_start {roots : List String} (horder : roots.Perm (rootsOf steps)) :
    Kahn.Inv steps { queue := roots, inDegree := degreeOf steps
                     depth := roots.foldl (fun t id => t.set id 1) .empty } [] := by
  have hroot : ∀ id, id ∈ roots ↔ id ∈ steps.map (·.id) ∧ depsOf steps id = [] := fun id => by
    rw [horder.mem_iff, rootsOf, List.mem_filter, Table.mem_keys, Table.has, find?_degreeOf hnodup]
    by_cases hid : id ∈ steps.map (·.id) <;> simp [hid]
  have hdegree : ∀ id ∈ steps.map (·.id),
      ((degreeOf steps).find? id).getD 0 = (depsOf steps id).length := fun id hid => by
    rw [find?_degreeOf hnodup, if_pos hid, Option.getD_some]
  refine ⟨rfl, horder.nodup_iff.mpr (keys_degreeOf_nodup.filter _), fun id hid => ?_, fun id => ?_,
    trivial, fun id hid n => ?_, by simp⟩
  · exact (hdegree id hid).trans (by simp)
  · rw [List.nil_append, hroot]
    refine and_congr_right fun hid => ?_
    rw [Kahn.degree, hdegree id hid, List.length_eq_zero_iff]
  · rw [Kahn.depthOf, find?_foldl_one]
    by_cases hdeps : depsOf steps id = []
    · rw [if_pos ((hroot id).mpr ⟨hid, hdeps⟩)]
      exact ⟨fun hn => ⟨fun _ => hn, by simp⟩, fun hn => hn.1 hdeps⟩
    · rw [if_neg fun hin => hdeps ((hroot id).mp hin).2]
      exact iff_of_true (Nat.zero_le n) ⟨fun hnone => absurd hnone hdeps, by simp⟩

lemma exists_ordered_of_detectCycle
    (h : detectCycle steps = .ok ()) :
    ∃ order, Ordered (depsOf steps) order ∧ steps.map (·.id) ⊆ order := by
  obtain ⟨order, hinv, -⟩ := (Kahn.inv_start hnodup (.refl _)).run hnodup steps.length
  have hvisited : (kahn steps).visited = steps.length := by
    simpa using check_eq_ok h
  exact ⟨order, hinv.ordered, hinv.all (hinv.visited.symm.trans hvisited)⟩

end

/-! ## What the checks compute -/

/-- Each entry of the chain depends on the next one. -/
def DependencyChain (steps : List StepDef) (ids : List String) : Prop :=
  ids.IsChain (fun id dep => dep ∈ depsOf steps id) ∧ ids ⊆ steps.map (·.id)

/-- No step depends on itself, through however many others. -/
def Acyclic (steps : List StepDef) : Prop :=
  ∀ id, ¬Relation.TransGen (fun dep id => dep ∈ depsOf steps id) id id

/-- `maxChainDepth` with its assertions: it panics without a step and with more than 10000. -/
def chainDepth (steps : List StepDef) (roots : List String) : Option ℕ :=
  if steps = [] ∨ 10000 < steps.length then none else some (kahnFrom steps roots).maxDepth

section

variable (h : Kahn.Inv steps k done)
include h

/-- Without a cycle the queue is not empty before every step is taken. -/
lemma Kahn.Inv.all_of_acyclic (hempty : k.queue = [])
    (hknown : ∀ s ∈ steps, s.dependsOn ⊆ steps.map (·.id))
    (hacyclic : Acyclic steps) : steps.map (·.id) ⊆ done := by
  have : IsStrictOrder String (Relation.TransGen fun dep id => dep ∈ depsOf steps id) :=
    { irrefl := hacyclic, trans := fun _ _ _ => .trans }
  intro id hid
  have hwf := (List.finite_toSet (steps.map (·.id))).wellFoundedOn
    (r := Relation.TransGen fun dep id => dep ∈ depsOf steps id)
  refine hwf.induction hid fun id hid ih => ?_
  by_contra hout
  have hdegree : k.degree id ≠ 0 := fun hzero => hout (by
    simpa [hempty] using (h.ready id).mpr ⟨hid, hzero⟩)
  rw [h.degree id hid, Ne, List.countP_eq_zero] at hdegree
  push Not at hdegree
  obtain ⟨dep, hdep, hleft⟩ := hdegree
  have hin : dep ∈ steps.map (·.id) := by
    unfold depsOf at hdep
    cases hfind : steps.find? (·.id = id) with
    | none => simp [hfind] at hdep
    | some s =>
      rw [hfind] at hdep
      exact hknown s (List.mem_of_find?_eq_some hfind) hdep
  exact absurd (ih dep hin (.single hdep)) (by simpa using hleft)

/-- The depth of a step bounds the chains from it, and no smaller number does. -/
lemma Kahn.Inv.depthOf_le_iff (hid : id ∈ done) {n : ℕ} : k.depthOf id ≤ n ↔
    ∀ older, DependencyChain steps (id :: older) → older.length < n := by
  refine h.ordered.forall_of_step (P := fun id => ∀ n, k.depthOf id ≤ n ↔
    ∀ older, DependencyChain steps (id :: older) → older.length < n) (fun id hid ih n => ?_) id hid n
  have hdone : ∀ dep ∈ depsOf steps id, dep ∈ done := fun dep => h.ordered.closed hid
  rw [h.depth id (h.known hid)]
  constructor
  · rintro ⟨hroot, hdeps⟩ older ⟨hchain, hsubset⟩
    cases older with
    | nil =>
      rcases List.eq_nil_or_concat' (depsOf steps id) with hnil | ⟨_, dep, heq⟩
      · exact hroot hnil
      · exact Nat.zero_lt_of_lt (hdeps dep (by simp [heq]) (hdone dep (by simp [heq])))
    | cons dep older =>
      rw [List.isChain_cons_cons] at hchain
      have hlt := hdeps dep hchain.1 (hdone dep hchain.1)
      have hrest := (ih dep hchain.1 (n - 1)).mp (by omega) older
        ⟨hchain.2, (List.cons_subset.mp hsubset).2⟩
      rw [List.length_cons]
      omega
  · intro hchains
    have hpos := hchains [] ⟨.singleton _, by simpa using h.known hid⟩
    refine ⟨fun _ => hpos, fun dep hdep _ => ?_⟩
    have hle := (ih dep hdep (n - 1)).mpr fun older hchain => by
      have hlt := hchains (dep :: older) ⟨hchain.1.cons_cons hdep,
        List.cons_subset.mpr ⟨h.known hid, hchain.2⟩⟩
      rw [List.length_cons] at hlt
      omega
    omega

variable (hall : steps.map (·.id) ⊆ done)
include hall

lemma Kahn.Inv.acyclic : Acyclic steps := by
  have hlt : ∀ {dep id}, dep ∈ depsOf steps id → k.depthOf dep < k.depthOf id := by
    intro dep id hdep
    have hid : id ∈ steps.map (·.id) := by
      by_contra hout
      rw [depsOf, List.find?_eq_none.mpr (by grind)] at hdep
      cases hdep
    exact ((h.depth id hid _).mp le_rfl).2 dep hdep (h.ordered.closed (hall hid) hdep)
  intro id hcycle
  have hloop := hcycle.lift k.depthOf fun _ _ => hlt
  rw [Relation.transGen_eq_self] at hloop
  exact lt_irrefl _ hloop

lemma Kahn.Inv.isGreatest :
    IsGreatest (List.length '' {ids | DependencyChain steps ids}) k.maxDepth := by
  have hlub : IsLUB (List.length '' {ids | DependencyChain steps ids}) k.maxDepth := by
    rw [isLUB_iff_le_iff]
    intro n
    rw [h.maxDepth, mem_upperBounds, Set.forall_mem_image]
    constructor
    · intro hdepth ids hchain
      cases ids with
      | nil => exact Nat.zero_le n
      | cons id older =>
        have hid := hall (hchain.2 (.head _))
        exact (h.depthOf_le_iff hid).mp (hdepth id hid) older hchain
    · intro hchains id hid
      exact (h.depthOf_le_iff hid).mpr fun older hchain => hchains hchain
  have hsome : (List.length '' {ids | DependencyChain steps ids}).Nonempty :=
    ⟨0, [], ⟨.nil, List.nil_subset _⟩, rfl⟩
  exact ⟨hlub.csSup_eq hsome ▸ Nat.sSup_mem hsome hlub.bddAbove, hlub.1⟩

end

/-- **The graph checks are exact**: the check passes exactly without a cycle, and the
depth is then the number of steps on a longest chain, in whatever order the roots are
queued. -/
theorem graph_checks_exact (hnodup : (steps.map (·.id)).Nodup)
    (hknown : ∀ s ∈ steps, s.dependsOn ⊆ steps.map (·.id)) {roots : List String}
    (horder : roots.Perm (rootsOf steps)) :
    ((kahnFrom steps roots).visited = steps.length ↔ Acyclic steps) ∧
    (detectCycle steps = .ok () ↔ Acyclic steps) ∧
    (Acyclic steps → steps ≠ [] → steps.length ≤ 10000 → ∃ n, chainDepth steps roots = some n ∧
      IsGreatest (List.length '' {ids | DependencyChain steps ids}) n) := by
  have hexact : ∀ {roots}, roots.Perm (rootsOf steps) →
      ((kahnFrom steps roots).visited = steps.length ↔ Acyclic steps) ∧ (Acyclic steps →
        IsGreatest (List.length '' {ids | DependencyChain steps ids})
          (kahnFrom steps roots).maxDepth) := by
    intro roots horder
    obtain ⟨done, hinv, hend⟩ := (Kahn.inv_start hnodup horder).run hnodup steps.length
    have hall : Acyclic steps → steps.map (·.id) ⊆ done := fun hacyclic =>
      hend.elim (fun hempty => hinv.all_of_acyclic hempty hknown hacyclic)
        fun hlen => hinv.all (by simpa using hlen)
    refine ⟨⟨fun hvisited => ?_, fun hacyclic => ?_⟩, fun hacyclic => hinv.isGreatest (hall hacyclic)⟩
    · exact hinv.acyclic (hinv.all (hinv.visited.symm.trans hvisited))
    · have hdone : done.Nodup := (List.nodup_append.mp hinv.nodup).1
      have hperm := (List.perm_ext_iff_of_nodup hdone hnodup).mpr fun id =>
        ⟨fun hid => hinv.known hid, fun hid => hall hacyclic hid⟩
      exact hinv.visited.trans (hperm.length_eq.trans (List.length_map ..))
  refine ⟨(hexact horder).1, ?_, fun hacyclic hsome hfew => ?_⟩
  · rw [← (hexact (.refl _)).1]
    have hvisited : detectCycle steps = .ok () → (kahn steps).visited = steps.length := fun h => by
      simpa using check_eq_ok h
    exact ⟨hvisited, fun hvisited => if_pos (decide_eq_true hvisited)⟩
  · exact ⟨_, if_neg (by simp [hsome, hfew]), (hexact horder).2 hacyclic⟩

/-- `b` names `a` twice. -/
def twoSteps : List StepDef :=
  [{ id := "a" }, { id := "b", dependsOn := ["a", "a"] }]

theorem two_steps_deep : Acyclic twoSteps ∧ ∃ n, chainDepth twoSteps ["a"] = some n ∧
    IsGreatest (List.length '' {ids | DependencyChain twoSteps ids}) n := by
  obtain ⟨hvisited, -, hdepth⟩ := graph_checks_exact
    (by decide : (twoSteps.map (·.id)).Nodup) (by decide)
    (by decide : ["a"].Perm (rootsOf twoSteps))
  have hacyclic := hvisited.mp (by decide)
  exact ⟨hacyclic, hdepth hacyclic (by decide) (by decide)⟩

/-- Without a step there is no cycle, and no depth. -/
theorem no_step_no_depth : detectCycle [] = .ok () ∧ chainDepth [] (rootsOf []) = none := by
  decide

/-! ## Validated definitions -/

lemma forM_eq_ok {α : Type} {f : α → Except Fault Unit} {xs : List α}
    (h : xs.forM f = .ok ()) : ∀ x ∈ xs, f x = .ok () := by
  induction xs with
  | nil => exact fun x hx => nomatch hx
  | cons x xs ih =>
    obtain ⟨hfirst, hrest⟩ := checks_eq_ok h
    intro y hy
    rcases List.mem_cons.mp hy with rfl | hy
    · exact hfirst
    · exact ih hrest y hy

section Validated

variable {x : Externals} {d : WorkflowDef}

variable (h : validate x d = .ok ())
include h

lemma validate_references :
    validateStepReferences x d (d.steps.map (·.id)) = .ok () := by
  obtain ⟨-, h⟩ := checks_eq_ok h
  obtain ⟨-, h⟩ := checks_eq_ok h
  obtain ⟨-, h⟩ := checks_eq_ok h
  exact (checks_eq_ok h).1

lemma validate_dependsOn (hs : s ∈ d.steps) {dep : String}
    (hdep : dep ∈ s.dependsOn) : dep ∈ d.steps.map (·.id) := by
  obtain ⟨hfirst, -⟩ := checks_eq_ok (validate_references h)
  obtain ⟨hsingle, -⟩ := checks_eq_ok (forM_eq_ok hfirst s hs)
  obtain ⟨-, hrest⟩ := checks_eq_ok hsingle
  have hall := check_eq_ok (checks_eq_ok hrest).1
  rw [List.all_eq_true] at hall
  simpa using hall dep hdep

lemma validate_detectCycle : detectCycle d.steps = .ok () := by
  unfold validate at h
  iterate 12 replace h := (checks_eq_ok h).2
  exact h

end Validated

end Dagnats
