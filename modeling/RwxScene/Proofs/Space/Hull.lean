import Mathlib
import RwxScene.Proofs.Space.Mirror

/-!
# Boxes around sets of points

The box around a list of points depends on which points there are only, up to the signs of zeros
(`Bounds.alike_ofPoints`). Each of its six extremes is the one of least or greatest rank, so what is
below it is below all of the points.

So boxes around groups of points can be joined instead: whatever the groups and the nesting, this is
the box around all of the points (`Bounds.Assembled.alike`).
-/

namespace RwxScene

/-! ### Extremes of lists -/

namespace Scalar

variable {α : Type} (f : α → Scalar)

theorem le_rank_foldl_min (points : List α) (a : Scalar) (r : WithTop (ℤ ×ₗ ℤ ×ₗ ℤ)) :
    r ≤ rank (points.foldl (fun b p ↦ min b (f p)) a) ↔ r ≤ rank a ∧ ∀ p ∈ points, r ≤ rank (f p) := by
  induction points generalizing a with
  | nil => simp
  | cons p points ih => rw [List.foldl_cons, ih, rank_min, le_inf_iff, List.forall_mem_cons, and_assoc]

/-- The least scalar does not depend on the order or on repetitions. -/
theorem alike_foldl_min {points others : List α} (h : ∀ p, p ∈ points ↔ p ∈ others) (a : Scalar) :
    Alike (points.foldl (fun b p ↦ min b (f p)) a) (others.foldl (fun b p ↦ min b (f p)) a) := by
  refine alike_of_rank_eq (eq_of_forall_le_iff fun r ↦ ?_)
  rw [le_rank_foldl_min, le_rank_foldl_min]
  simp only [h]

theorem neg_foldl_max (points : List α) (a : Scalar) :
    -points.foldl (fun b p ↦ max b (f p)) a = points.foldl (fun b p ↦ min b (-f p)) (-a) := by
  induction points generalizing a with
  | nil => rfl
  | cons p points ih => rw [List.foldl_cons, List.foldl_cons, ih, min_neg_neg]

theorem alike_foldl_max {points others : List α} (h : ∀ p, p ∈ points ↔ p ∈ others) (a : Scalar) :
    Alike (points.foldl (fun b p ↦ max b (f p)) a) (others.foldl (fun b p ↦ max b (f p)) a) := by
  have hneg := (alike_foldl_min (fun p ↦ -f p) h (-a)).neg
  rwa [← neg_foldl_max, ← neg_foldl_max, neg_neg, neg_neg] at hneg

theorem foldl_min_append (points others : List α) (a : Scalar) :
    Alike ((points ++ others).foldl (fun b p ↦ min b (f p)) a)
      (min (points.foldl (fun b p ↦ min b (f p)) a) (others.foldl (fun b p ↦ min b (f p)) a)) := by
  refine alike_of_rank_eq (eq_of_forall_le_iff fun r ↦ ?_)
  rw [rank_min, le_inf_iff, le_rank_foldl_min, le_rank_foldl_min, le_rank_foldl_min,
    List.forall_mem_append]
  tauto

theorem foldl_max_append (points others : List α) (a : Scalar) :
    Alike ((points ++ others).foldl (fun b p ↦ max b (f p)) a)
      (max (points.foldl (fun b p ↦ max b (f p)) a) (others.foldl (fun b p ↦ max b (f p)) a)) := by
  have h := (foldl_min_append (fun p ↦ -f p) points others (-a)).neg
  rwa [← neg_foldl_max, ← neg_foldl_max, ← neg_foldl_max, min_neg_neg, neg_neg, neg_neg] at h

/-- The least scalar is one of those it was sought among. -/
theorem foldl_min_mem (points : List α) (a : Scalar) :
    points.foldl (fun b p ↦ min b (f p)) a ∈ a :: points.map f := by
  induction points generalizing a with
  | nil => exact List.mem_singleton_self a
  | cons p points ih =>
    have hmem := ih (min a (f p))
    rw [List.foldl_cons, List.map_cons]
    rcases min_eq_or a (f p) with hmin | hmin
    · rw [hmin] at hmem ⊢
      exact (List.Sublist.cons_cons a (List.sublist_cons_self (f p) _)).mem hmem
    · rw [hmin] at hmem ⊢
      exact List.mem_cons_of_mem a hmem

end Scalar

/-! ### Boxes -/

namespace Bounds

variable {b c : Bounds} {points others : List Vec3}

/-- A box grows in each direction for itself. -/
theorem foldl_grow (points : List Vec3) (b : Bounds) : points.foldl grow b =
    { min :=
        { x := points.foldl (fun s p ↦ Scalar.min s p.x) b.min.x
          y := points.foldl (fun s p ↦ Scalar.min s p.y) b.min.y
          z := points.foldl (fun s p ↦ Scalar.min s p.z) b.min.z }
      max :=
        { x := points.foldl (fun s p ↦ Scalar.max s p.x) b.max.x
          y := points.foldl (fun s p ↦ Scalar.max s p.y) b.max.y
          z := points.foldl (fun s p ↦ Scalar.max s p.z) b.max.z } } := by
  induction points generalizing b with
  | nil => rfl
  | cons p points ih => exact ih (b.grow p)

/-- The box around the same points is the same one but for the signs of zeros. -/
theorem alike_ofPoints {points others : List Vec3} (h : ∀ p, p ∈ points ↔ p ∈ others) :
    (ofPoints points).Alike (ofPoints others) := by
  rw [ofPoints, ofPoints, foldl_grow, foldl_grow]
  exact
    ⟨⟨Scalar.alike_foldl_min _ h _, Scalar.alike_foldl_min _ h _, Scalar.alike_foldl_min _ h _⟩,
      ⟨Scalar.alike_foldl_max _ h _, Scalar.alike_foldl_max _ h _, Scalar.alike_foldl_max _ h _⟩⟩

/-! ### Unions -/

theorem Alike.union {b' c' : Bounds} (h : b.Alike b') (hc : c.Alike c') :
    (b.union c).Alike (b'.union c') :=
  ⟨⟨h.min.x.min hc.min.x, h.min.y.min hc.min.y, h.min.z.min hc.min.z⟩,
    ⟨h.max.x.max hc.max.x, h.max.y.max hc.max.y, h.max.z.max hc.max.z⟩⟩

theorem union_comm (b c : Bounds) : (b.union c).Alike (c.union b) :=
  ⟨⟨Scalar.min_comm _ _, Scalar.min_comm _ _, Scalar.min_comm _ _⟩,
    ⟨Scalar.max_comm _ _, Scalar.max_comm _ _, Scalar.max_comm _ _⟩⟩

theorem union_assoc (b c d : Bounds) : ((b.union c).union d).Alike (b.union (c.union d)) :=
  ⟨⟨Scalar.min_assoc _ _ _, Scalar.min_assoc _ _ _, Scalar.min_assoc _ _ _⟩,
    ⟨Scalar.max_assoc _ _ _, Scalar.max_assoc _ _ _, Scalar.max_assoc _ _ _⟩⟩

theorem union_self (b : Bounds) : b.union b = b := by
  simp only [union, Vec3.min, Vec3.max, Scalar.min_self, Scalar.max_self]

/-- The box around two lists of points is the union of their boxes. -/
theorem ofPoints_append (points others : List Vec3) :
    (ofPoints (points ++ others)).Alike ((ofPoints points).union (ofPoints others)) := by
  simp only [ofPoints, foldl_grow]
  exact
    ⟨⟨Scalar.foldl_min_append _ _ _ _, Scalar.foldl_min_append _ _ _ _,
        Scalar.foldl_min_append _ _ _ _⟩,
      ⟨Scalar.foldl_max_append _ _ _ _, Scalar.foldl_max_append _ _ _ _,
        Scalar.foldl_max_append _ _ _ _⟩⟩

/-- The box is made of boxes around groups of the points, joined in this order but nested anyhow. -/
inductive Assembled : List Vec3 → Bounds → Prop where
  | group (points : List Vec3) : Assembled points (ofPoints points)
  | union {points others : List Vec3} {b c : Bounds} (hb : Assembled points b)
      (hc : Assembled others c) : Assembled (points ++ others) (b.union c)

/-- It does not matter how points are grouped. -/
theorem Assembled.alike (h : Assembled points b) : b.Alike (ofPoints points) := by
  induction h with
  | group points => exact .refl _
  | union hb hc ihb ihc => exact (ihb.union ihc).trans (ofPoints_append _ _).symm

theorem Assembled.alike_of_perm (h : Assembled others b) (hperm : others.Perm points) :
    b.Alike (ofPoints points) :=
  h.alike.trans (alike_ofPoints fun _ ↦ hperm.mem_iff)

/-- The empty box adds nothing. -/
theorem Assembled.union_empty (h : Assembled points b) : (b.union empty).Alike b := by
  have hunion := (h.union (.group [])).alike
  rw [List.append_nil] at hunion
  exact hunion.trans h.alike.symm

end Bounds

end RwxScene
