import Mathlib
import RwxScene.Proofs.Space.Bounds
import RwxScene.Proofs.Space.Hull

/-!
# Tight boxes

The box around finite points holds them, and each of its faces has one of them on it
(`Bounds.isTight_ofPoints`). The empty box, which it is grown from, ends at the extreme finite
numbers and not at infinities. This is enough: no coordinate lies beyond them, and a face that stays
where the empty box had it has a point there.
-/

namespace RwxScene

namespace Scalar

variable {α : Type} {points : List α}

/-- Sought from the largest scalar on, the least of finite scalars is one of them. -/
theorem exists_foldl_min_eq (f : α → Scalar) (h : ∀ p ∈ points, (f p).isFinite = true)
    (hne : points ≠ []) : ∃ p ∈ points, f p = points.foldl (fun b p ↦ min b (f p)) largest := by
  rcases List.mem_cons.1 (foldl_min_mem f points largest) with hfold | hfold
  · -- nothing was less than the largest scalar, which no scalar exceeds
    obtain ⟨p, hp⟩ := List.exists_mem_of_ne_nil points hne
    have hle := ((le_rank_foldl_min f points largest _).1 le_rfl).2 p hp
    rw [hfold] at hle
    have hge := ((le_iff_rank _ _).1 (le_largest (h p hp))).1
    rw [hfold]
    exact ⟨p, hp, (alike_of_rank_eq (hge.antisymm hle)).eq_of_pos (by decide)⟩
  · exact List.mem_map.1 hfold

theorem exists_foldl_max_eq (f : α → Scalar) (h : ∀ p ∈ points, (f p).isFinite = true)
    (hne : points ≠ []) : ∃ p ∈ points, f p = points.foldl (fun b p ↦ max b (f p)) smallest := by
  have hneg : ∀ p ∈ points, (-f p).isFinite = true :=
    fun p hp ↦ (isFinite_neg (f p)).trans (h p hp)
  obtain ⟨p, hp, heq⟩ := exists_foldl_min_eq (fun p ↦ -f p) hneg hne
  refine ⟨p, hp, ?_⟩
  rw [← neg_neg (f p), heq, ← neg_neg largest, neg_largest, ← neg_foldl_max, neg_neg]

end Scalar

namespace Vec3

/-- The three components. -/
def axes : List (Vec3 → Scalar) := [Vec3.x, Vec3.y, Vec3.z]

theorem forall_mem_axes {P : (Vec3 → Scalar) → Prop} :
    (∀ axis ∈ axes, P axis) ↔ P Vec3.x ∧ P Vec3.y ∧ P Vec3.z := by
  simp only [axes, List.forall_mem_cons, List.not_mem_nil, false_implies, implies_true, and_true]

theorem isFinite_iff_axes {p : Vec3} :
    p.isFinite = true ↔ ∀ axis ∈ axes, (axis p).isFinite = true := by
  rw [forall_mem_axes, isFinite_iff]

end Vec3

namespace Bounds

variable {points : List Vec3}

/-- The box holds the points, and where there are points none of its faces can be moved inwards. -/
structure IsTight (b : Bounds) (points : List Vec3) : Prop where
  contains : ∀ p ∈ points, b.Contains p
  /-- Each face has a point on it. -/
  touches : points ≠ [] → ∀ axis ∈ Vec3.axes,
    (∃ p ∈ points, axis p = axis b.min) ∧ ∃ p ∈ points, axis p = axis b.max
  isEmpty : b.isEmpty = points.isEmpty

/-- Along each axis a box is grown by itself. -/
theorem axis_ofPoints (points : List Vec3) : ∀ axis ∈ Vec3.axes,
    axis (ofPoints points).min = points.foldl (fun s p ↦ Scalar.min s (axis p)) .largest ∧
      axis (ofPoints points).max = points.foldl (fun s p ↦ Scalar.max s (axis p)) .smallest := by
  rw [Vec3.forall_mem_axes, ofPoints, foldl_grow]
  exact ⟨⟨rfl, rfl⟩, ⟨rfl, rfl⟩, ⟨rfl, rfl⟩⟩

theorem isTight_ofPoints (h : ∀ p ∈ points, p.isFinite = true) :
    (ofPoints points).IsTight points := by
  have hcontains : ∀ p ∈ points, (ofPoints points).Contains p :=
    fun p hp ↦ contains_foldl_grow empty (h p hp) hp
  refine ⟨hcontains, fun hne axis haxis ↦ ?_, ?_⟩
  · have hfinite : ∀ p ∈ points, (axis p).isFinite = true :=
      fun p hp ↦ Vec3.isFinite_iff_axes.1 (h p hp) axis haxis
    obtain ⟨hmin, hmax⟩ := axis_ofPoints points axis haxis
    rw [hmin, hmax]
    exact ⟨Scalar.exists_foldl_min_eq axis hfinite hne, Scalar.exists_foldl_max_eq axis hfinite hne⟩
  · cases points with
    | nil => decide
    | cons p points => exact (hcontains p List.mem_cons_self).isEmpty_eq_false

/-- **The box around points is tight, and it does not matter how they are collected.** A second list
of points is added by a union. In any order, in groups and in groups of groups, the points have the
same box. Unions are commutative, associative and idempotent, with the empty box as their unit. -/
theorem ofPoints_tight (h : ∀ p ∈ points, p.isFinite = true) :
    (ofPoints points).IsTight points ∧
    (∀ others, (ofPoints (points ++ others)).Alike ((ofPoints points).union (ofPoints others))) ∧
    (∀ others b, Assembled others b → others.Perm points → b.Alike (ofPoints points)) ∧
    (∀ b c : Bounds, (b.union c).Alike (c.union b)) ∧
    (∀ b c d : Bounds, ((b.union c).union d).Alike (b.union (c.union d))) ∧
    (∀ b : Bounds, b.union b = b) ∧
    (∀ others b, Assembled others b → (b.union empty).Alike b ∧ (empty.union b).Alike b) :=
  ⟨isTight_ofPoints h, ofPoints_append points, fun _ _ hb hperm ↦ hb.alike_of_perm hperm,
    union_comm, union_assoc, union_self,
    fun _ b hb ↦ ⟨hb.union_empty, (union_comm empty b).trans hb.union_empty⟩⟩

/-- Two points as far out as points can be, on both sides of zero. -/
def farthest : List Vec3 := [⟨.largest, -1, 0⟩, ⟨.largest, 3, -0⟩]

theorem ofPoints_tight_farthest : (∀ p ∈ farthest, p.isFinite = true) ∧
    (ofPoints farthest).IsTight farthest ∧
    (ofPoints farthest.reverse).Alike (ofPoints farthest) ∧
    ((ofPoints farthest).union empty).Alike (ofPoints farthest) := by
  have hfinite : ∀ p ∈ farthest, p.isFinite = true := by decide +kernel
  obtain ⟨htight, -, horder, -, -, -, hunit⟩ := ofPoints_tight hfinite
  exact ⟨hfinite, htight, horder _ _ (.group _) (List.reverse_perm farthest),
    (hunit _ _ (.group farthest)).1⟩

end Bounds

end RwxScene
