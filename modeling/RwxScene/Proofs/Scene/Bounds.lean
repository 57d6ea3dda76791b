import Mathlib.Data.List.Basic
import RwxScene.Proofs.Scene.Walk
import RwxScene.Proofs.Space.Bounds

/-!
# Boxes around scenes

The box around a tree holds all its vertices, each carried up to the root by one matrix after the
other (`Node.bounds_conservative`). A child is boxed again at every level, by its eight corners
alone, and what is carried up along with them is not further out than they are.

This needs finite numbers only: the positions, the matrices and the corners that were carried up. A
box is empty just if there is no vertex to be put into it.
-/

namespace RwxScene

/-! ### Boxes around boxes -/

namespace Bounds

variable {acc b : Bounds} {p : Vec3} {batches : List Batch}

theorem Contains.foldl_union (h : acc.Contains p) (batches : List Batch) :
    (batches.foldl (fun acc b ↦ acc.union b.bounds) acc).Contains p := by
  induction batches generalizing acc with
  | nil => exact h
  | cons b batches ih => exact ih (h.union_left b.bounds)

theorem contains_foldl_union (acc : Bounds) {b : Batch} (hb : b ∈ batches)
    (h : b.bounds.Contains p) :
    (batches.foldl (fun acc b ↦ acc.union b.bounds) acc).Contains p := by
  induction batches generalizing acc with
  | nil => exact absurd hb List.not_mem_nil
  | cons c batches ih =>
    rcases List.mem_cons.1 hb with rfl | hb
    · exact (h.union_right acc).foldl_union batches
    · exact ih (acc.union c.bounds) hb

end Bounds

namespace Node

open Bounds

variable {n m c : Node} {ns path : List Node} {acc b : Bounds} {p : Vec3}

theorem bounds_eq (n : Node) : n.bounds =
    boundsFrom (n.batches.foldl (fun acc b ↦ acc.union b.bounds) .empty) n.children := by
  cases n
  rw [bounds]

theorem growPlaced_eq (acc : Bounds) (placement : Placement) (b : Bounds) :
    growPlaced acc placement b = if b.isEmpty then acc
      else (b.corners.map placement.toMatrix.transformPoint).foldl grow acc := by
  rw [growPlaced, List.foldl_map]

theorem contains_growPlaced_of_left (h : acc.Contains p) (placement : Placement) (b : Bounds) :
    (growPlaced acc placement b).Contains p := by
  rw [growPlaced_eq]
  split
  · exact h
  · exact h.foldl_grow _

/-- What is in a box is in the box that is grown by its image. -/
theorem contains_growPlaced (acc : Bounds) {placement : Placement} (hp : b.Contains p)
    (hm : placement.toMatrix.isFinite = true)
    (h : ∀ q ∈ b.corners, (placement.toMatrix.transformPoint q).isFinite = true) :
    (growPlaced acc placement b).Contains (placement.toMatrix.transformPoint p) := by
  rw [growPlaced_eq, if_neg (Bool.eq_false_iff.1 hp.isEmpty_eq_false)]
  exact contains_image (Placement.isAffine_toMatrix hm) hp h fun q hq ↦
    contains_foldl_grow acc (h q hq) (List.mem_map_of_mem hq)

theorem contains_boundsFrom_of_left (h : acc.Contains p) (ns : List Node) :
    (boundsFrom acc ns).Contains p := by
  induction ns generalizing acc with
  | nil => exact h
  | cons n ns ih => exact ih (contains_growPlaced_of_left h n.placement n.bounds)

theorem contains_boundsFrom (acc : Bounds) (hc : c ∈ ns)
    (h : ∀ acc, (growPlaced acc c.placement c.bounds).Contains p) :
    (boundsFrom acc ns).Contains p := by
  induction ns generalizing acc with
  | nil => exact absurd hc List.not_mem_nil
  | cons n ns ih =>
    rcases List.mem_cons.1 hc with rfl | hc
    · exact contains_boundsFrom_of_left (h acc) ns
    · exact ih (growPlaced acc n.placement n.bounds) hc

/-! ### Boxes around trees -/

/-- Batches have boxes around their positions, and everything that is computed for the box around
the node is finite. -/
structure BoxedHere (n : Node) : Prop where
  bounds : ∀ b ∈ n.batches, b.bounds = .ofPoints b.positions.toList
  positions : ∀ b ∈ n.batches, ∀ p ∈ b.positions, p.isFinite = true
  matrices : ∀ c ∈ n.children, c.placement.toMatrix.isFinite = true
  corners : ∀ c ∈ n.children, c.bounds.isEmpty = false →
    ∀ q ∈ c.bounds.corners, (c.placement.toMatrix.transformPoint q).isFinite = true

/-- This holds everywhere in a tree. -/
def Boxed (root : Node) : Prop := ∀ n ∈ root.walk, n.BoxedHere

instance (n : Node) : Decidable n.BoxedHere :=
  decidable_of_iff ((∀ b ∈ n.batches, b.bounds = .ofPoints b.positions.toList ∧
      ∀ p ∈ b.positions, p.isFinite = true) ∧
    ∀ c ∈ n.children, c.placement.toMatrix.isFinite = true ∧ (c.bounds.isEmpty = false →
      ∀ q ∈ c.bounds.corners, (c.placement.toMatrix.transformPoint q).isFinite = true))
    ⟨fun ⟨hbatches, hchildren⟩ ↦ ⟨fun b hb ↦ (hbatches b hb).1, fun b hb ↦ (hbatches b hb).2,
        fun c hc ↦ (hchildren c hc).1, fun c hc ↦ (hchildren c hc).2⟩,
      fun h ↦ ⟨fun b hb ↦ ⟨h.bounds b hb, h.positions b hb⟩,
        fun c hc ↦ ⟨h.matrices c hc, h.corners c hc⟩⟩⟩

instance (root : Node) : Decidable root.Boxed :=
  decidable_of_iff (∀ n ∈ (root.outline 0).map Prod.snd, n.BoxedHere)
    (by rw [map_snd_outline, Boxed])

theorem Boxed.here (h : n.Boxed) : n.BoxedHere := h n n.mem_walk_self

theorem Boxed.child (h : n.Boxed) (hc : c ∈ n.children) : c.Boxed :=
  fun m hm ↦ h m (mem_walk_of_mem_children hc hm)

/-- A point of the last node of a path, seen from where the path begins. -/
def carry (path : List Node) (p : Vec3) : Vec3 :=
  path.foldr (fun c q ↦ c.placement.toMatrix.transformPoint q) p

/-- A vertex carried up a path is in the box at its end. -/
theorem Boxed.contains_carry (h : n.Boxed) (hpath : Path n path m) {b : Batch}
    (hb : b ∈ m.batches) (hp : p ∈ b.positions) : n.bounds.Contains (carry path p) := by
  induction hpath with
  | here n =>
    have hfinite := h.here.positions b hb p hp
    have hbatch : b.bounds.Contains p := by
      rw [h.here.bounds b hb]
      exact contains_foldl_grow .empty hfinite (Array.mem_toList_iff.2 hp)
    rw [bounds_eq]
    exact contains_boundsFrom_of_left (contains_foldl_union .empty hb hbatch) n.children
  | @child n c m path hc hpath ih =>
    have hbelow : c.bounds.Contains (carry path p) := ih (h.child hc) hb
    rw [bounds_eq]
    exact contains_boundsFrom _ hc fun acc ↦ contains_growPlaced acc hbelow
      (h.here.matrices c hc) (h.here.corners c hc hbelow.isEmpty_eq_false)

theorem foldl_union_empty {batches : List Batch} (h : ∀ b ∈ batches, b.bounds = .empty) :
    batches.foldl (fun acc b ↦ acc.union b.bounds) Bounds.empty = .empty := by
  induction batches with
  | nil => rfl
  | cons b batches ih =>
    obtain ⟨hb, hbatches⟩ := List.forall_mem_cons.1 h
    have hunion : Bounds.empty.union .empty = .empty := by decide
    rw [List.foldl_cons, hb, hunion, ih hbatches]

theorem boundsFrom_empty (h : ∀ c ∈ ns, c.bounds = .empty) : boundsFrom .empty ns = .empty := by
  induction ns with
  | nil => rfl
  | cons c ns ih =>
    obtain ⟨hc, hns⟩ := List.forall_mem_cons.1 h
    rw [boundsFrom, hc]
    exact ih hns

/-- Nothing is put into the box of a tree without vertices. -/
theorem bounds_eq_empty (h : ∀ m ∈ n.walk, ∀ b ∈ m.batches, b.bounds = .empty) :
    n.bounds = .empty := by
  induction n using induction with
  | node n ih =>
    rw [bounds_eq, foldl_union_empty (h n n.mem_walk_self), boundsFrom_empty]
    exact fun c hc ↦ ih c hc fun m hm ↦ h m (mem_walk_of_mem_children hc hm)

/-- **The box around a scene is conservative.** It holds every vertex, wherever in the tree it
belongs, and is empty only for want of vertices. -/
theorem bounds_conservative {root : Node} (h : root.Boxed) :
    (∀ path m, Path root path m → ∀ b ∈ m.batches, ∀ p ∈ b.positions,
      root.bounds.Contains (carry path p)) ∧
    (root.bounds.isEmpty = true ↔ ∀ m ∈ root.walk, ∀ b ∈ m.batches, b.vertexCount = 0) := by
  refine ⟨fun path m hpath b hb p hp ↦ h.contains_carry hpath hb hp, fun hempty m hm b hb ↦ ?_,
    fun hnone ↦ ?_⟩
  · obtain ⟨path, hpath⟩ := mem_walk_iff.1 hm
    by_contra hcount
    have hp := Array.getElem_mem (Nat.pos_of_ne_zero hcount)
    have hfalse := (h.contains_carry hpath hb hp).isEmpty_eq_false
    rw [hempty] at hfalse
    exact Bool.false_ne_true hfalse.symm
  · have hbounds : ∀ m ∈ root.walk, ∀ b ∈ m.batches, b.bounds = .empty := by
      intro m hm b hb
      rw [(h m hm).bounds b hb, Array.eq_empty_of_size_eq_zero (hnone m hm b hb)]
      rfl
    rw [bounds_eq_empty hbounds]
    decide

/-- A triangle in a node that is moved inside one that is turned, stretched and reflected. -/
def turned : Node :=
  let triangle : Batch :=
    { positions := #[⟨0.1, 0.2, 0.3⟩, ⟨1, 0, -0.7⟩, ⟨0, 1.3, 0⟩]
      uvs := #[.zero, .zero, .zero]
      normals := #[.up, .up, .up]
      indices := #[0, 1, 2]
      material := .initial
      signature := Material.initial.signature
      tag := 0
      bounds := .ofPoints [⟨0.1, 0.2, 0.3⟩, ⟨1, 0, -0.7⟩, ⟨0, 1.3, 0⟩]
      duplicated := false }
  let inner : Node := ⟨"inner", ⟨⟨10, 0, 0.1⟩, .identity, .one⟩, none, [], [triangle]⟩
  let outer : Node := ⟨"outer", ⟨.zero, ⟨0, 0, 0.6, 0.8⟩, ⟨-2, 0.3, 1⟩⟩, none, [inner], []⟩
  ⟨"root", .identity, none, [outer], []⟩

theorem bounds_conservative_turned : turned.Boxed ∧
    ∀ path m, Path turned path m → ∀ b ∈ m.batches, ∀ p ∈ b.positions,
      turned.bounds.Contains (carry path p) := by
  have hboxed : turned.Boxed := by decide +kernel
  exact ⟨hboxed, (bounds_conservative hboxed).1⟩

end Node

end RwxScene
