import Mathlib
import RwxScene.Proofs.Scene.Validation
import RwxScene.Proofs.Scene.Walk

/-!
# Totals of a scene

Everything that is asked of a whole tree is asked of its walk. The answers are those of recursion
over the tree (`Node.census`): counts are the sums over the node and its children, which a validation
finds as well, however little of the tree is valid; the batches with a tag are those of the node and
then those of its children; and the node that is found by its name is the first of that name.
-/

namespace RwxScene

namespace Node

variable {n : Node} {ns : List Node}

/-! ### Sums over a tree -/

mutual

/-- The sum of a quantity over the nodes of a tree. -/
def total (f : Node → Nat) : Node → Nat
  | ⟨name, placement, joint, children, batches⟩ =>
    f ⟨name, placement, joint, children, batches⟩ + totalAll f children

/-- The sum of a quantity over the nodes of some trees. -/
def totalAll (f : Node → Nat) : List Node → Nat
  | [] => 0
  | n :: ns => total f n + totalAll f ns

end

theorem total_eq (f : Node → Nat) (n : Node) : n.total f = f n + totalAll f n.children := by
  cases n
  rw [total]

theorem totalAll_append (f : Node → Nat) (ns ms : List Node) :
    totalAll f (ns ++ ms) = totalAll f ns + totalAll f ms := by
  induction ns with
  | nil => rw [List.nil_append, totalAll, Nat.zero_add]
  | cons n ns ih => rw [List.cons_append, totalAll, totalAll, ih, Nat.add_assoc]

/-- What is added up over a walk is added up over the tree. -/
theorem sum_map_visit (f : Node → Nat) (ns : List Node) :
    ((visit ns).map f).sum = totalAll f ns := by
  induction ns using visit.induct with
  | case1 =>
    rw [visit_nil]
    rfl
  | case2 n ns ih =>
    rw [visit_cons, List.map_cons, List.sum_cons, ih, totalAll_append, totalAll, total_eq,
      Nat.add_assoc]

theorem sum_map_walk (f : Node → Nat) (n : Node) : (n.walk.map f).sum = n.total f := by
  rw [walk, sum_map_visit, totalAll, totalAll, Nat.add_zero]

theorem sum_map_allBatches (f : Batch → Nat) (n : Node) :
    (n.allBatches.map f).sum = n.total fun m ↦ (m.batches.map f).sum := by
  rw [← sum_map_walk, allBatches, Validation.sum_map_flatMap]

theorem vertexCount_eq (n : Node) : n.vertexCount = (n.allBatches.map Batch.vertexCount).sum := by
  rw [vertexCount, List.sum_eq_foldl, List.foldl_map]

theorem triangleCount_eq (n : Node) :
    n.triangleCount = (n.allBatches.map Batch.triangleCount).sum := by
  rw [triangleCount, List.sum_eq_foldl, List.foldl_map]

theorem nodeCount_eq_total (n : Node) : n.nodeCount = n.total fun _ ↦ 1 := by
  rw [← sum_map_walk, nodeCount]
  simp

theorem batchCount_eq_total (n : Node) : n.batchCount = n.total (·.batches.length) := by
  rw [← sum_map_walk, batchCount, allBatches, List.length_flatMap]

/-! ### Steps of a walk -/

/-- One step of a walk: the first node is taken out and its children take its place. -/
def advance : List Node → List Node
  | [] => []
  | n :: ns => n.children ++ ns

/-- A walk lists the nodes that come to stand in front. -/
theorem getElem?_visit (ns : List Node) (k : Nat) :
    (visit ns)[k]? = (advance^[k] ns).head? := by
  induction k generalizing ns with
  | zero =>
    cases ns with
    | nil =>
      rw [visit_nil]
      rfl
    | cons n ns =>
      rw [visit_cons]
      rfl
  | succ k ih =>
    rw [Function.iterate_succ_apply, ← ih]
    cases ns with
    | nil =>
      rw [advance, visit_nil]
      rfl
    | cons n ns =>
      rw [visit_cons]
      rfl

/-! ### Lookups -/

theorem batchesWithTag_eq (n : Node) (tag : Int) :
    n.batchesWithTag tag =
      n.batches.filter (·.tag == tag) ++ n.children.flatMap (·.batchesWithTag tag) := by
  rw [batchesWithTag, allBatches, walk_eq_flatMap, List.flatMap_cons, List.filter_append,
    List.flatMap_assoc, List.filter_flatMap]
  rfl

theorem find?_eq_some_iff {name : String} {m : Node} : n.find? name = some m ↔
    ∃ before after, n.walk = before ++ m :: after ∧ m.name = name ∧
      ∀ k ∈ before, k.name ≠ name := by
  rw [find?, List.find?_eq_some_iff_append]
  simp only [beq_iff_eq, Bool.not_eq_true', beq_eq_false_iff_ne]
  constructor
  · rintro ⟨hname, before, after, hsplit, hbefore⟩
    exact ⟨before, after, hsplit, hname, hbefore⟩
  · rintro ⟨before, after, hsplit, hname, hbefore⟩
    exact ⟨hname, before, after, hsplit, hbefore⟩

theorem find?_eq_none_iff {name : String} :
    n.find? name = none ↔ ∀ m ∈ n.walk, m.name ≠ name := by
  rw [find?, List.find?_eq_none]
  simp only [beq_iff_eq, Ne]

/-! ### Answers -/

open Validation in
/-- **What is asked of a tree is answered by recursion over the tree.** The walk is the pre-order,
in which every address of the tree has its place; counts, tags and names follow it. -/
theorem census (root : Node) :
    (root.walk = root :: root.children.flatMap walk ∧
      ∀ k, root.walk[k]? = (advance^[k] [root]).head?) ∧
    (root.walk.map some = root.addresses.map root.descend? ∧ root.addresses.Pairwise (· < ·) ∧
      ∀ a, a ∈ root.addresses ↔ (root.descend? a).isSome = true) ∧
    (root.nodeCount = (root.total fun _ ↦ 1) ∧
      root.batchCount = root.total (·.batches.length) ∧
      root.vertexCount = (root.total fun n ↦ (n.batches.map Batch.vertexCount).sum) ∧
      root.triangleCount = root.total fun n ↦ (n.batches.map Batch.triangleCount).sum) ∧
    (∀ o, let stats := (validate o root).stats
      stats.nodes = root.nodeCount ∧ stats.batches = root.batchCount ∧
        stats.vertices = root.vertexCount ∧ stats.triangles = root.triangleCount) ∧
    (∀ tag, root.batchesWithTag tag =
      root.batches.filter (·.tag == tag) ++ root.children.flatMap (·.batchesWithTag tag)) ∧
    ∀ name, (root.find? name = none ↔ ∀ m ∈ root.walk, m.name ≠ name) ∧
      ∀ m, root.find? name = some m ↔ ∃ before after, root.walk = before ++ m :: after ∧
        m.name = name ∧ ∀ k ∈ before, k.name ≠ name := by
  refine ⟨⟨root.walk_eq_flatMap, getElem?_visit [root]⟩,
    ⟨root.map_some_walk, root.pairwise_addresses, fun a ↦ mem_addresses_iff⟩,
    ⟨root.nodeCount_eq_total, root.batchCount_eq_total, ?_, ?_⟩, fun o ↦ ?_, root.batchesWithTag_eq,
    fun name ↦ ⟨find?_eq_none_iff, fun m ↦ find?_eq_some_iff⟩⟩
  · rw [vertexCount_eq, sum_map_allBatches]
  · rw [triangleCount_eq, sum_map_allBatches]
  · rw [stats_validate]
    exact ⟨rfl, rfl, root.vertexCount_eq.symm, root.triangleCount_eq.symm⟩

end Node

end RwxScene
