import Mathlib
import RwxScene.Mesh.Normals
import RwxScene.Proofs.Space.Mirror
import RwxScene.Proofs.Space.Unit

/-!
# Triangles without a plane

A triangle that has one corner twice spans nothing: its cross product is zero or not finite. A
threshold below zero lets the zero through, and divided by its length it is a vector of which no
component is a number (`Normals.isNaN_ofCorners`). Such a vector makes every sum of normals
worthless, so the average falls back on the direction upward however often the vector is met
(`Normals.average_of_mem_isNaN`).
-/

namespace RwxScene

open Float.Model (UnpackedFloat)
open Float.Model.UnpackedFloat

namespace Scalar

open Unpacked

variable {a b c d : Scalar}

/-! ### Zeros -/

theorem sub_self (h : a.isFinite = true) : Alike (a - a) 0 := by
  rw [sub_eq]
  rcases zero_or_finite (show (unpacked a).isFinite = true from h) with ⟨s, hs⟩ | ⟨s, m, e, hm, hs⟩
  · rw [hs]
    exact alike_ofUnpacked (by cases s <;> exact same_zero _ _)
  · rw [hs]
    refine alike_ofUnpacked (v := .zero .positive) (.inl ?_)
    simp only [sub, Int.sub_self, Float.Model.UnpackedFloat.normalize]
    rfl

theorem isFinite_of_sub (h : (a - b).isFinite = true) : a.isFinite = true ∧ b.isFinite = true := by
  rw [sub_eq, Unpacked.sub_eq_add_neg, ← unpacked_neg, ← add_eq] at h
  obtain ⟨ha, hb⟩ := isFinite_of_add h
  exact ⟨ha, (isFinite_neg b).symm.trans hb⟩

/-- A finite product with zero. -/
theorem mul_alike_zero (ha : Alike a 0) (h : (a * b).isFinite = true) : Alike (a * b) 0 :=
  (ha.mul (.refl b)).trans (zero_mul (isFinite_of_mul h).2)

theorem sub_alike_zero (ha : Alike a 0) (hb : Alike b 0) : Alike (a - b) 0 :=
  (ha.sub hb).trans (sub_self rfl)

/-! ### What is no number -/

theorem isNaN_ofUnpacked : (ofUnpacked .notANumber).isNaN = true := rfl

theorem isNaN_add_left (h : a.isNaN = true) (b : Scalar) : (a + b).isNaN = true := by
  have hadd : ∀ u, add .binary32 .notANumber u = .notANumber := by
    intro u
    cases u <;> rfl
  rw [add_eq, isNaN_iff.1 h, hadd]
  exact isNaN_ofUnpacked

theorem isNaN_add_right (h : b.isNaN = true) (a : Scalar) : (a + b).isNaN = true := by
  rw [add_comm]
  exact isNaN_add_left h a

theorem isNaN_sub_left (h : a.isNaN = true) (b : Scalar) : (a - b).isNaN = true := by
  rw [sub_eq, Unpacked.sub_eq_add_neg, ← unpacked_neg, ← add_eq]
  exact isNaN_add_left h _

theorem isNaN_sub_right (h : b.isNaN = true) (a : Scalar) : (a - b).isNaN = true := by
  rw [sub_eq, Unpacked.sub_eq_add_neg, ← unpacked_neg, ← add_eq]
  exact isNaN_add_right ((isNaN_neg b).trans h) _

theorem isNaN_zero_div (ha : Alike a 0) (hb : Alike b 0) : (a / b).isNaN = true := by
  obtain ⟨s, hs⟩ := alike_zero_iff.1 ha
  obtain ⟨t, ht⟩ := alike_zero_iff.1 hb
  rw [div_eq, hs, ht]
  exact isNaN_ofUnpacked

end Scalar

namespace Vec3

open Scalar (sub_alike_zero mul_alike_zero isFinite_of_sub isFinite_of_mul mul_self_zero
  isNaN_zero_div not_isFinite_of_isNaN)

variable {a b p q : Vec3} {epsilon : Scalar}

/-- The zero vector, whatever the signs of its components. -/
abbrev Vanishes (a : Vec3) : Prop := a.Alike .zero

/-- No component is a number. -/
structure IsNaN (a : Vec3) : Prop where
  x : a.x.isNaN = true
  y : a.y.isNaN = true
  z : a.z.isNaN = true

theorem vanishes_sub_self (h : (p - p).isFinite = true) : (p - p).Vanishes := by
  obtain ⟨hx, hy, hz⟩ := isFinite_iff.1 h
  exact ⟨Scalar.sub_self (isFinite_of_sub hx).1, Scalar.sub_self (isFinite_of_sub hy).1,
    Scalar.sub_self (isFinite_of_sub hz).1⟩

/-- The parts of a finite cross product are finite. -/
theorem isFinite_of_cross (h : (a.cross b).isFinite = true) :
    (a.y * b.z).isFinite = true ∧ (a.z * b.y).isFinite = true ∧ (a.z * b.x).isFinite = true ∧
      (a.x * b.z).isFinite = true ∧ (a.x * b.y).isFinite = true ∧ (a.y * b.x).isFinite = true := by
  obtain ⟨hx, hy, hz⟩ := isFinite_iff.1 h
  exact ⟨(isFinite_of_sub hx).1, (isFinite_of_sub hx).2, (isFinite_of_sub hy).1,
    (isFinite_of_sub hy).2, (isFinite_of_sub hz).1, (isFinite_of_sub hz).2⟩

theorem isFinite_left_of_cross (h : (a.cross b).isFinite = true) : a.isFinite = true := by
  obtain ⟨hyz, hzy, -, hxz, -, -⟩ := isFinite_of_cross h
  exact isFinite_iff.2
    ⟨(isFinite_of_mul hxz).1, (isFinite_of_mul hyz).1, (isFinite_of_mul hzy).1⟩

theorem isFinite_right_of_cross (h : (a.cross b).isFinite = true) : b.isFinite = true := by
  obtain ⟨hyz, hzy, hzx, -, -, -⟩ := isFinite_of_cross h
  exact isFinite_iff.2
    ⟨(isFinite_of_mul hzx).2, (isFinite_of_mul hzy).2, (isFinite_of_mul hyz).2⟩

theorem vanishes_cross_left (ha : a.Vanishes) (h : (a.cross b).isFinite = true) :
    (a.cross b).Vanishes := by
  obtain ⟨hyz, hzy, hzx, hxz, hxy, hyx⟩ := isFinite_of_cross h
  exact ⟨sub_alike_zero (mul_alike_zero ha.y hyz) (mul_alike_zero ha.z hzy),
    sub_alike_zero (mul_alike_zero ha.z hzx) (mul_alike_zero ha.x hxz),
    sub_alike_zero (mul_alike_zero ha.x hxy) (mul_alike_zero ha.y hyx)⟩

theorem vanishes_cross_right (hb : b.Vanishes) (h : (a.cross b).isFinite = true) :
    (a.cross b).Vanishes := by
  have hmul : ∀ {c d : Scalar}, Scalar.Alike d 0 → (c * d).isFinite = true →
      Scalar.Alike (c * d) 0 := by
    intro c d hd h
    rw [Scalar.mul_comm] at h ⊢
    exact mul_alike_zero hd h
  obtain ⟨hyz, hzy, hzx, hxz, hxy, hyx⟩ := isFinite_of_cross h
  exact ⟨sub_alike_zero (hmul hb.z hyz) (hmul hb.y hzy),
    sub_alike_zero (hmul hb.x hzx) (hmul hb.z hxz), sub_alike_zero (hmul hb.y hxy) (hmul hb.x hyx)⟩

theorem vanishes_cross_self (h : (a.cross a).isFinite = true) : (a.cross a).Vanishes := by
  obtain ⟨hyz, -, hzx, -, hxy, -⟩ := isFinite_of_cross h
  have hsub : ∀ {c d : Scalar}, (c * d).isFinite = true → Scalar.Alike (c * d - d * c) 0 := by
    intro c d h
    rw [Scalar.mul_comm d c]
    exact Scalar.sub_self h
  exact ⟨hsub hyz, hsub hzx, hsub hxy⟩

/-- What is made of a vanishing vector by dividing it by its length. -/
theorem isNaN_div_length (ha : a.Vanishes) : (a / a.length).IsNaN := by
  have hlength : Scalar.Alike a.length 0 := by
    have hsquare : a.lengthSquared = 0 := by
      rw [lengthSquared, dot, mul_self_zero ha.x, mul_self_zero ha.y, mul_self_zero ha.z]
      rfl
    rw [length, hsquare]
    exact .inl (by decide)
  exact ⟨isNaN_zero_div ha.x hlength, isNaN_zero_div ha.y hlength, isNaN_zero_div ha.z hlength⟩

/-- A unit vector is the quotient by a finite length above the threshold. -/
theorem normalize?_eq_some_iff {n : Vec3} : a.normalize? epsilon = some n ↔
    (a.length.isFinite = true ∧ epsilon < a.length) ∧ a / a.length = n := by
  simp only [normalize?, Bool.and_eq_true, decide_eq_true_eq, Option.ite_none_right_eq_some,
    Option.some.injEq]

theorem IsNaN.normalize?_eq_none (ha : a.IsNaN) (epsilon : Scalar) :
    a.normalize? epsilon = none := by
  refine Option.eq_none_iff_forall_ne_some.2 fun n h ↦ ?_
  have hfinite := isFinite_of_length (normalize?_eq_some_iff.1 h).1.1
  have hx := (isFinite_iff.1 hfinite).1
  rw [not_isFinite_of_isNaN ha.x] at hx
  exact Bool.false_ne_true hx

end Vec3

namespace Normals

open Vec3
open Scalar (isNaN_add_left isNaN_add_right isNaN_sub_left isNaN_sub_right)

variable {epsilon : Scalar}

/-- A triangle that has a corner twice has no normal, or one that is not a number. -/
theorem isNaN_ofCorners {t : Triangle Vec3} (ht : ¬t.toList.Nodup) {n : Vec3}
    (h : ofCorners epsilon t = some n) : n.IsNaN := by
  obtain ⟨⟨hlength, -⟩, rfl⟩ := normalize?_eq_some_iff.1 h
  have hcross := isFinite_of_length hlength
  refine isNaN_div_length ?_
  have hleft := isFinite_left_of_cross hcross
  have hright := isFinite_right_of_cross hcross
  obtain ⟨p, q, r⟩ := t
  have hcases : p = q ∨ p = r ∨ q = r := by
    by_contra! hne
    exact ht (by simp [Triangle.toList, hne])
  rcases hcases with rfl | rfl | rfl
  · exact vanishes_cross_left (vanishes_sub_self hleft) hcross
  · exact vanishes_cross_right (vanishes_sub_self hright) hcross
  · exact vanishes_cross_self hcross

/-- One vector that is not a number makes a sum that is none. -/
theorem isNaN_alignedSum {normals : List Vec3} {n : Vec3} (hn : n.IsNaN) (h : n ∈ normals) :
    (alignedSum normals).IsNaN := by
  obtain ⟨front, back, rfl⟩ := List.append_of_mem h
  rw [alignedSum, List.foldl_append, List.foldl_cons]
  have hstep : ∀ {a b : Vec3}, a.IsNaN ∨ b.IsNaN →
      (if a.dot b < 0 then a - b else a + b).IsNaN := by
    rintro a b (ha | hb)
    · split
      · exact ⟨isNaN_sub_left ha.x _, isNaN_sub_left ha.y _, isNaN_sub_left ha.z _⟩
      · exact ⟨isNaN_add_left ha.x _, isNaN_add_left ha.y _, isNaN_add_left ha.z _⟩
    · split
      · exact ⟨isNaN_sub_right hb.x _, isNaN_sub_right hb.y _, isNaN_sub_right hb.z _⟩
      · exact ⟨isNaN_add_right hb.x _, isNaN_add_right hb.y _, isNaN_add_right hb.z _⟩
  -- the sum is lost when the vector is met, and stays so
  have hrest : ∀ {a : Vec3}, a.IsNaN →
      (back.foldl (fun sum n ↦ if sum.dot n < 0 then sum - n else sum + n) a).IsNaN := by
    induction back with
    | nil => exact id
    | cons b back ih => exact fun ha ↦ ih (by simp) (hstep (.inl ha))
  exact hrest (hstep (.inr hn))

theorem average_of_mem_isNaN {normals : List Vec3} {n : Vec3} (hn : n.IsNaN) (h : n ∈ normals)
    (epsilon : Scalar) : average epsilon normals = .up := by
  rw [average, (isNaN_alignedSum hn h).normalize?_eq_none, Option.getD_none]

end Normals

end RwxScene
