import Mathlib.Data.List.Basic
import Mathlib.Data.List.Range
import RwxScene.Scene.Node

/-!
# Walks

A walk keeps the nodes still to be visited in one list and puts children in front of it. What stands
in the list is visited tree by tree (`Node.visit_eq_flatMap`), so a walk is a node followed by the
walks of its children (`Node.walk_eq_flatMap`).

Nodes of a tree may be equal, and a walk lists them as often as they occur. An occurrence is told
from others by its address, which says at each level which child to take. The addresses of a tree in
lexicographic order are those of the nodes of its walk (`Node.map_some_walk`).
-/

namespace RwxScene

namespace Node

variable {n m c : Node} {ns : List Node}

/-! ### What is still to be visited -/

theorem visit_append (ns ms : List Node) : visit (ns ++ ms) = visit ns ++ visit ms := by
  induction ns using visit.induct with
  | case1 => rw [visit_nil, List.nil_append, List.nil_append]
  | case2 n ns ih =>
    rw [List.cons_append, visit_cons, visit_cons, ← List.append_assoc, ih, List.cons_append]

theorem walk_eq (n : Node) : n.walk = n :: visit n.children := by
  rw [walk, visit_cons, List.append_nil]

theorem visit_singleton (n : Node) : visit [n] = n :: visit n.children := n.walk_eq

theorem visit_eq_flatMap (ns : List Node) : visit ns = ns.flatMap walk := by
  induction ns with
  | nil => exact visit_nil
  | cons n ns ih =>
    rw [← List.singleton_append, visit_append, ih]
    rfl

/-- A node stands before its children, and these in order. -/
theorem walk_eq_flatMap (n : Node) : n.walk = n :: n.children.flatMap walk := by
  rw [walk_eq, visit_eq_flatMap]

theorem mem_walk_self (n : Node) : n ∈ n.walk := by
  rw [walk_eq]
  exact List.mem_cons_self

theorem mem_walk_of_mem_children (hc : c ∈ n.children) (h : m ∈ c.walk) : m ∈ n.walk := by
  rw [walk_eq_flatMap]
  exact List.mem_cons_of_mem _ (List.mem_flatMap.2 ⟨c, hc, h⟩)

/-- Whoever is visited, so are the children. -/
theorem mem_visit_of_mem_children (h : n ∈ visit ns) (hc : c ∈ n.children) : c ∈ visit ns := by
  induction ns using visit.induct with
  | case1 =>
    rw [visit_nil] at h
    exact absurd h List.not_mem_nil
  | case2 m ns ih =>
    rw [visit_cons] at h ⊢
    refine List.mem_cons_of_mem _ ?_
    rcases List.mem_cons.1 h with rfl | h
    · obtain ⟨before, after, hsplit⟩ := List.append_of_mem hc
      rw [hsplit, List.append_assoc, visit_append, List.cons_append, visit_cons]
      exact List.mem_append_right _ List.mem_cons_self
    · exact ih h

/-- What holds of a node if it holds of its children holds of all nodes. -/
theorem induction {motive : Node → Prop} (node : ∀ n, (∀ c ∈ n.children, motive c) → motive n)
    (n : Node) : motive n := by
  have hsize : ∀ c ∈ n.children, c.size < n.size := by
    intro c hc
    obtain ⟨before, after, hsplit⟩ := List.append_of_mem hc
    rw [size_eq n, hsplit, sizeAll_append, sizeAll]
    omega
  exact node n fun c hc ↦ induction node c
termination_by n.size
decreasing_by exact hsize c hc

theorem outlineAll_eq (depth : Nat) (ns : List Node) :
    outlineAll depth ns = ns.flatMap (outline depth) := by
  induction ns with
  | nil => rfl
  | cons n ns ih => rw [outlineAll, ih, List.flatMap_cons]

/-- An outline lists the nodes of the walk. -/
theorem map_snd_outline (depth : Nat) (n : Node) : (n.outline depth).map Prod.snd = n.walk := by
  induction n using induction generalizing depth with
  | node n ih =>
    have houtline : n.outline depth = (depth, n) :: n.children.flatMap (outline (depth + 1)) := by
      rw [← outlineAll_eq]
      cases n
      rfl
    rw [houtline, walk_eq_flatMap, List.map_cons, List.map_flatMap,
      List.flatMap_congr fun c hc ↦ ih c hc (depth + 1)]

/-! ### Paths -/

/-- The nodes that are passed on the way from a node to one below it, the last of them included. -/
inductive Path : Node → List Node → Node → Prop
  | here (n : Node) : Path n [] n
  | child {n c m : Node} {path : List Node} (hc : c ∈ n.children) (h : Path c path m) :
    Path n (c :: path) m

theorem Path.mem_walk {path : List Node} (h : Path n path m) : m ∈ n.walk := by
  induction h with
  | here n => exact n.mem_walk_self
  | child hc h ih => exact mem_walk_of_mem_children hc ih

/-- A walk visits whatever can be reached. -/
theorem mem_walk_iff : m ∈ n.walk ↔ ∃ path, Path n path m := by
  refine ⟨fun h ↦ ?_, fun ⟨path, h⟩ ↦ h.mem_walk⟩
  induction n using induction with
  | node n ih =>
    rw [walk_eq_flatMap] at h
    rcases List.mem_cons.1 h with rfl | h
    · exact ⟨[], .here _⟩
    · obtain ⟨c, hc, hm⟩ := List.mem_flatMap.1 h
      obtain ⟨path, hpath⟩ := ih c hc hm
      exact ⟨c :: path, .child hc hpath⟩

/-! ### Addresses -/

/-- The node at an address, which says at each level which child to take. -/
def descend? (n : Node) : List Nat → Option Node
  | [] => some n
  | i :: a => n.children[i]?.bind (·.descend? a)

mutual

/-- The addresses of the nodes of a tree. -/
def addresses : Node → List (List Nat)
  | ⟨_, _, _, children, _⟩ => [] :: addressesFrom 0 children

/-- The addresses of the nodes of some trees, the first of which is child `i`. -/
def addressesFrom (i : Nat) : List Node → List (List Nat)
  | [] => []
  | n :: ns => (addresses n).map (i :: ·) ++ addressesFrom (i + 1) ns

end

theorem addressesFrom_eq (i : Nat) (ns : List Node) :
    addressesFrom i ns = (ns.zipIdx i).flatMap fun (n, k) ↦ n.addresses.map (k :: ·) := by
  induction ns generalizing i with
  | nil => rfl
  | cons n ns ih => rw [addressesFrom, ih, List.zipIdx_cons, List.flatMap_cons]

theorem addresses_eq (n : Node) :
    n.addresses = [] :: n.children.zipIdx.flatMap fun (c, k) ↦ c.addresses.map (k :: ·) := by
  rw [← addressesFrom_eq]
  cases n
  rfl

theorem cons_mem_addresses_iff {i : Nat} {a : List Nat} :
    i :: a ∈ n.addresses ↔ ∃ c, n.children[i]? = some c ∧ a ∈ c.addresses := by
  rw [addresses_eq, List.mem_cons, or_iff_right (List.cons_ne_nil i a), List.mem_flatMap]
  constructor
  · rintro ⟨⟨c, k⟩, hc, ha⟩
    obtain ⟨b, hb, heq⟩ := List.mem_map.1 ha
    obtain ⟨rfl, rfl⟩ := List.cons.inj heq
    exact ⟨c, List.mem_zipIdx_iff_getElem?.1 hc, hb⟩
  · rintro ⟨c, hc, ha⟩
    exact ⟨(c, i), List.mem_zipIdx_iff_getElem?.2 hc, List.mem_map_of_mem ha⟩

/-- Where there is a node, there is an address of it. -/
theorem mem_addresses_iff {a : List Nat} : a ∈ n.addresses ↔ (n.descend? a).isSome = true := by
  induction a generalizing n with
  | nil =>
    rw [addresses_eq]
    exact iff_of_true List.mem_cons_self rfl
  | cons i a ih =>
    rw [cons_mem_addresses_iff, descend?, Option.isSome_bind, Option.any_eq_true]
    simp only [ih]

/-- Addresses are listed in lexicographic order. -/
theorem pairwise_addresses (n : Node) : n.addresses.Pairwise (· < ·) := by
  induction n using induction with
  | node n ih =>
    rw [addresses_eq, List.pairwise_cons, List.pairwise_flatMap]
    refine ⟨fun a ha ↦ ?_, fun (c, k) hc ↦ ?_, ?_⟩
    · obtain ⟨⟨c, k⟩, -, ha⟩ := List.mem_flatMap.1 ha
      obtain ⟨b, -, rfl⟩ := List.mem_map.1 ha
      exact List.nil_lt_cons k b
    · refine List.pairwise_map.2 ((ih c ?_).imp List.cons_lt_cons_self.2)
      exact List.fst_mem_of_mem_zipIdx hc
    · -- addresses of different children differ in the first place
      have hplaces : n.children.zipIdx.Pairwise fun x y ↦ x.2 < y.2 := by
        rw [← List.pairwise_map, List.zipIdx_map_snd]
        exact List.pairwise_lt_range'
      refine hplaces.imp fun hlt a ha b hb ↦ ?_
      obtain ⟨a, -, rfl⟩ := List.mem_map.1 ha
      obtain ⟨b, -, rfl⟩ := List.mem_map.1 hb
      exact List.cons_lt_cons_iff.2 (.inl hlt)

/-- The nodes of a walk are those at the addresses of the tree. -/
theorem map_some_walk (n : Node) : n.walk.map some = n.addresses.map n.descend? := by
  induction n using induction with
  | node n ih =>
    have hchild : ∀ x ∈ n.children.zipIdx,
        (x.1.addresses.map (x.2 :: ·)).map n.descend? = x.1.walk.map some := by
      intro (c, k) hc
      have hdescend : n.descend? ∘ (k :: ·) = c.descend? := by
        funext a
        show n.children[k]?.bind _ = _
        rw [List.mem_zipIdx_iff_getElem?.1 hc]
        rfl
      rw [List.map_map, hdescend, ih c (List.fst_mem_of_mem_zipIdx hc)]
    have hwalks : n.children.flatMap (fun c ↦ c.walk.map some) =
        n.children.zipIdx.flatMap fun x ↦ x.1.walk.map some := by
      conv_lhs => rw [← List.zipIdx_map_fst 0 n.children, List.flatMap_map]
    rw [walk_eq_flatMap, addresses_eq, List.map_cons, List.map_cons, List.map_flatMap,
      List.map_flatMap, hwalks, List.flatMap_congr hchild]
    rfl

end Node

end RwxScene
