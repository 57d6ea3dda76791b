import Mathlib
import RwxScene.Proofs.Scalar.Interval
import RwxScene.Proofs.Space.Degenerate
import RwxScene.Proofs.Space.Reflection
import RwxScene.Space.Bounds
import RwxScene.Space.Placement

/-!
# Boxes and their images

A box keeps what it holds when it is grown or joined with another one. Around the images of the
eight corners of a box lies the image of every point in it (`Bounds.contains_image`), although all of
them are rounded: a component of an image is a sum of products, each of which is monotone in the
component of the point, in one direction or the other, and so least at one corner and greatest at
another one (`Bounds.exists_corners_between`).

The matrix of a placement has the last row of an affine map (`Placement.isAffine_toMatrix`), so the
image of a point is not divided by its fourth component.
-/

namespace RwxScene

open Scalar (Alike Between)

/-! ### Points in boxes -/

namespace Bounds

variable {b c : Bounds} {p q r : Vec3} {points : List Vec3}

theorem Contains.union_left (h : b.Contains p) (c : Bounds) : (b.union c).Contains p := by
  obtain ⟨⟨hlx, hhx⟩, ⟨hly, hhy⟩, ⟨hlz, hhz⟩⟩ := h
  exact ⟨⟨Scalar.min_le_iff.2 (.inl hlx), Scalar.le_max_iff.2 (.inl hhx)⟩,
    ⟨Scalar.min_le_iff.2 (.inl hly), Scalar.le_max_iff.2 (.inl hhy)⟩,
    ⟨Scalar.min_le_iff.2 (.inl hlz), Scalar.le_max_iff.2 (.inl hhz)⟩⟩

theorem Contains.union_right (h : c.Contains p) (b : Bounds) : (b.union c).Contains p := by
  obtain ⟨⟨hlx, hhx⟩, ⟨hly, hhy⟩, ⟨hlz, hhz⟩⟩ := h
  exact ⟨⟨Scalar.min_le_iff.2 (.inr hlx), Scalar.le_max_iff.2 (.inr hhx)⟩,
    ⟨Scalar.min_le_iff.2 (.inr hly), Scalar.le_max_iff.2 (.inr hhy)⟩,
    ⟨Scalar.min_le_iff.2 (.inr hlz), Scalar.le_max_iff.2 (.inr hhz)⟩⟩

/-- Growing by a point is joining with the box of that point. -/
theorem Contains.grow (h : b.Contains p) (q : Vec3) : (b.grow q).Contains p := h.union_left ⟨q, q⟩

theorem contains_point (h : p.isFinite = true) : Contains ⟨p, p⟩ p := by
  obtain ⟨hx, hy, hz⟩ := Vec3.isFinite_iff.1 h
  have hx := Scalar.le_refl_of_isFinite hx
  have hy := Scalar.le_refl_of_isFinite hy
  have hz := Scalar.le_refl_of_isFinite hz
  exact ⟨⟨hx, hx⟩, ⟨hy, hy⟩, ⟨hz, hz⟩⟩

theorem Contains.foldl_grow (h : b.Contains p) (points : List Vec3) :
    (points.foldl Bounds.grow b).Contains p := by
  induction points generalizing b with
  | nil => exact h
  | cons q points ih => exact ih (h.grow q)

theorem contains_foldl_grow (b : Bounds) (h : p.isFinite = true) (hp : p ∈ points) :
    (points.foldl grow b).Contains p := by
  induction points generalizing b with
  | nil => exact absurd hp List.not_mem_nil
  | cons q points ih =>
    rcases List.mem_cons.1 hp with rfl | hp
    · exact ((contains_point h).union_right b).foldl_grow points
    · exact ih (b.grow q) hp

/-- A box that holds a point is not empty. -/
theorem Contains.isEmpty_eq_false (h : b.Contains p) : b.isEmpty = false := by
  obtain ⟨⟨hlx, hhx⟩, ⟨hly, hhy⟩, ⟨hlz, hhz⟩⟩ := h
  have hx := Scalar.not_lt_of_le (Scalar.le_trans hlx hhx)
  have hy := Scalar.not_lt_of_le (Scalar.le_trans hly hhy)
  have hz := Scalar.not_lt_of_le (Scalar.le_trans hlz hhz)
  simp only [isEmpty, Bool.or_eq_false_iff, decide_eq_false_iff_not]
  exact ⟨⟨hx, hy⟩, hz⟩

/-! ### Components of images -/

/-- A component of the image of a point. -/
def component (s t u v : Scalar) (p : Vec3) : Scalar := s * p.x + t * p.y + u * p.z + v * 1

theorem mem_corners {x y z : Scalar} (hx : x ∈ [b.min.x, b.max.x]) (hy : y ∈ [b.min.y, b.max.y])
    (hz : z ∈ [b.min.z, b.max.z]) : ⟨x, y, z⟩ ∈ b.corners := by
  simp only [List.mem_cons, List.not_mem_nil, or_false] at hx hy hz
  rcases hx with rfl | rfl <;> rcases hy with rfl | rfl <;> rcases hz with rfl | rfl <;>
    simp [corners]

/-- What a finite component is computed from is finite. -/
theorem isFinite_of_component {s t u v : Scalar} (h : (component s t u v p).isFinite = true) :
    ((s * p.x).isFinite = true ∧ (t * p.y).isFinite = true ∧ (u * p.z).isFinite = true) ∧
      (s * p.x + t * p.y).isFinite = true ∧ (s * p.x + t * p.y + u * p.z).isFinite = true ∧
        (v * 1).isFinite = true := by
  obtain ⟨hxyz, hv⟩ := Scalar.isFinite_of_add h
  obtain ⟨hxy, hz⟩ := Scalar.isFinite_of_add hxyz
  obtain ⟨hx, hy⟩ := Scalar.isFinite_of_add hxy
  exact ⟨⟨hx, hy, hz⟩, hxy, hxyz, hv⟩

/-- A component of the image of a point in a box lies between those of two corners. -/
theorem exists_corners_between {s t u v : Scalar} (hp : b.Contains p)
    (h : ∀ q ∈ b.corners, (component s t u v q).isFinite = true) :
    ∃ q ∈ b.corners, ∃ r ∈ b.corners,
      Between (component s t u v q) (component s t u v p) (component s t u v r) := by
  have hfinite : ∀ {x y z : Scalar}, x ∈ [b.min.x, b.max.x] → y ∈ [b.min.y, b.max.y] →
      z ∈ [b.min.z, b.max.z] → (component s t u v ⟨x, y, z⟩).isFinite = true :=
    fun hx hy hz ↦ h _ (mem_corners hx hy hz)
  have hmin : ∀ {x x' : Scalar}, x ∈ [x, x'] := List.mem_cons_self
  have hmax : ∀ {x x' : Scalar}, x' ∈ [x, x'] := List.mem_cons_of_mem _ List.mem_cons_self
  obtain ⟨⟨hlx, hly, hlz⟩, -, -, hv⟩ := isFinite_of_component (hfinite hmin hmin hmin)
  obtain ⟨⟨hhx, hhy, hhz⟩, -⟩ := isFinite_of_component (hfinite hmax hmax hmax)
  have hx := Between.of_le (Scalar.isFinite_of_mul hlx).2 (Scalar.isFinite_of_mul hhx).2 hp.1.1
    hp.1.2
  have hy := Between.of_le (Scalar.isFinite_of_mul hly).2 (Scalar.isFinite_of_mul hhy).2 hp.2.1.1
    hp.2.1.2
  have hz := Between.of_le (Scalar.isFinite_of_mul hlz).2 (Scalar.isFinite_of_mul hhz).2 hp.2.2.1
    hp.2.2.2
  -- each product is least and greatest at ends of its own
  obtain ⟨x, hxmem, x', hxmem', hx⟩ := hx.exists_mul hlx hhx
  obtain ⟨y, hymem, y', hymem', hy⟩ := hy.exists_mul hly hhy
  obtain ⟨z, hzmem, z', hzmem', hz⟩ := hz.exists_mul hlz hhz
  have hlow := hfinite hxmem hymem hzmem
  have hhigh := hfinite hxmem' hymem' hzmem'
  obtain ⟨-, hlow₂, hlow₃, -⟩ := isFinite_of_component hlow
  obtain ⟨-, hhigh₂, hhigh₃, -⟩ := isFinite_of_component hhigh
  refine ⟨⟨x, y, z⟩, mem_corners hxmem hymem hzmem, ⟨x', y', z'⟩,
    mem_corners hxmem' hymem' hzmem', ?_⟩
  exact ((hx.add hy hlow₂ hhigh₂).add hz hlow₃ hhigh₃).add (.refl hv) hlow hhigh

/-- What bounds a component at all corners bounds it in the whole box. -/
theorem component_mem {s t u v l h : Scalar} (hp : b.Contains p)
    (hfinite : ∀ q ∈ b.corners, (component s t u v q).isFinite = true)
    (hc : ∀ q ∈ b.corners, l ≤ component s t u v q ∧ component s t u v q ≤ h) :
    l ≤ component s t u v p ∧ component s t u v p ≤ h := by
  obtain ⟨q, hq, r, hr, hbetween⟩ := exists_corners_between hp hfinite
  exact ⟨Scalar.le_trans (hc q hq).1 hbetween.low_le, Scalar.le_trans hbetween.le_high (hc r hr).2⟩

end Bounds

/-! ### Affine matrices -/

namespace Mat4

variable {m n : Mat4} {p : Vec3}

/-- The last row is that of an affine map. -/
structure IsAffine (m : Mat4) : Prop where
  c₀ : Alike m.c₀.w 0
  c₁ : Alike m.c₁.w 0
  c₂ : Alike m.c₂.w 0
  c₃ : Alike m.c₃.w 1

/-- An affine map keeps the fourth component. -/
theorem IsAffine.apply (hm : m.IsAffine) {v : Vec4} (hv : v.isFinite = true) :
    Alike (m.apply v).w v.w := by
  obtain ⟨hx, hy, hz, -⟩ := Vec4.isFinite_iff.1 hv
  have hzero : ∀ {a b : Scalar}, Alike a 0 → b.isFinite = true → Alike (a * b) 0 :=
    fun {a b} ha hb ↦ (ha.mul (.refl b)).trans (Scalar.zero_mul hb)
  have hw : Alike (m.c₃.w * v.w) v.w :=
    (hm.c₃.mul (.refl v.w)).trans (.of_eq (Scalar.one_mul v.w))
  exact (Scalar.alike_sum₄ (hzero hm.c₀ hx) (hzero hm.c₁ hy) (hzero hm.c₂ hz) _).trans hw

theorem IsAffine.mul (hm : m.IsAffine) (hn : n.IsAffine) (h : n.isFinite = true) :
    (m * n).IsAffine := by
  obtain ⟨h₀, h₁, h₂, h₃⟩ := isFinite_iff.1 h
  exact ⟨(hm.apply h₀).trans hn.c₀, (hm.apply h₁).trans hn.c₁, (hm.apply h₂).trans hn.c₂,
    (hm.apply h₃).trans hn.c₃⟩

/-- The image of a point under an affine map is not divided by anything. -/
theorem IsAffine.transformPoint_eq (hm : m.IsAffine) (hp : p.isFinite = true) :
    m.transformPoint p = (m.apply (p.extend 1)).xyz := by
  have hfinite : Float32.isFinite 1 = true := by rfl
  have hw := hm.apply (v := p.extend 1) ((Bool.and_eq_true _ _).mpr ⟨hp, hfinite⟩)
  have hone : ((m.apply (p.extend 1)).w == 1) = ((1 : Scalar) == 1) := hw.beq_eq (.refl 1)
  replace hone := hone.trans (by decide : ((1 : Scalar) == 1) = true)
  refine if_neg ?_
  rw [bne, bne, hone, Bool.not_true, Bool.and_false]
  exact Bool.false_ne_true

/-- A point with a finite image is finite, and so is the image before the division. -/
theorem isFinite_of_transformPoint (h : (m.transformPoint p).isFinite = true) :
    (m.apply (p.extend 1)).xyz.isFinite = true ∧ p.isFinite = true := by
  have himage : (m.apply (p.extend 1)).xyz.isFinite = true := by
    rw [transformPoint] at h
    split at h
    · obtain ⟨hx, hy, hz⟩ := Vec3.isFinite_iff.1 h
      exact Vec3.isFinite_iff.2 ⟨Scalar.isFinite_of_div hx, Scalar.isFinite_of_div hy,
        Scalar.isFinite_of_div hz⟩
    · exact h
  obtain ⟨hx, hy, hz⟩ := (Bounds.isFinite_of_component (Vec3.isFinite_iff.1 himage).1).1
  exact ⟨himage, Vec3.isFinite_iff.2 ⟨(Scalar.isFinite_of_mul hx).2, (Scalar.isFinite_of_mul hy).2,
    (Scalar.isFinite_of_mul hz).2⟩⟩

end Mat4

namespace Bounds

variable {b c : Bounds} {p : Vec3} {m : Mat4}

/-- What lies between finite corners is finite. -/
theorem Contains.isFinite (hp : b.Contains p) (h : ∀ q ∈ b.corners, q.isFinite = true) :
    p.isFinite = true := by
  obtain ⟨hlx, hly, hlz⟩ := Vec3.isFinite_iff.1 (h b.min List.mem_cons_self)
  obtain ⟨hhx, hhy, hhz⟩ := Vec3.isFinite_iff.1 (h b.max (by simp [corners]))
  exact Vec3.isFinite_iff.2 ⟨Scalar.isFinite_of_le_of_le hlx hhx hp.1.1 hp.1.2,
    Scalar.isFinite_of_le_of_le hly hhy hp.2.1.1 hp.2.1.2,
    Scalar.isFinite_of_le_of_le hlz hhz hp.2.2.1 hp.2.2.2⟩

/-- A box around the images of the corners holds the image of every point of the box. -/
theorem contains_image (hm : m.IsAffine) (hp : b.Contains p)
    (h : ∀ q ∈ b.corners, (m.transformPoint q).isFinite = true)
    (hc : ∀ q ∈ b.corners, c.Contains (m.transformPoint q)) : c.Contains (m.transformPoint p) := by
  have hpoints : ∀ q ∈ b.corners, q.isFinite = true :=
    fun q hq ↦ (Mat4.isFinite_of_transformPoint (h q hq)).2
  have himages : ∀ q ∈ b.corners, (m.apply (q.extend 1)).xyz.isFinite = true :=
    fun q hq ↦ (Mat4.isFinite_of_transformPoint (h q hq)).1
  have hc : ∀ q ∈ b.corners, c.Contains (m.apply (q.extend 1)).xyz :=
    fun q hq ↦ hm.transformPoint_eq (hpoints q hq) ▸ hc q hq
  rw [hm.transformPoint_eq (hp.isFinite hpoints)]
  refine ⟨?_, ?_, ?_⟩
  · exact component_mem hp (fun q hq ↦ (Vec3.isFinite_iff.1 (himages q hq)).1)
      fun q hq ↦ (hc q hq).1
  · exact component_mem hp (fun q hq ↦ (Vec3.isFinite_iff.1 (himages q hq)).2.1)
      fun q hq ↦ (hc q hq).2.1
  · exact component_mem hp (fun q hq ↦ (Vec3.isFinite_iff.1 (himages q hq)).2.2)
      fun q hq ↦ (hc q hq).2.2

end Bounds

theorem Placement.isAffine_toMatrix {p : Placement} (h : p.toMatrix.isFinite = true) :
    p.toMatrix.IsAffine := by
  obtain ⟨hmoved, hscaled⟩ := Mat4.isFinite_of_mul h
  obtain ⟨-, hturned⟩ := Mat4.isFinite_of_mul hmoved
  have hmove : (Mat4.ofTranslation p.position).IsAffine := ⟨.refl 0, .refl 0, .refl 0, .refl 1⟩
  have hturn : (Mat4.ofQuat p.rotation).IsAffine := ⟨.refl 0, .refl 0, .refl 0, .refl 1⟩
  have hscale : (Mat4.ofScale p.scale).IsAffine := ⟨.refl 0, .refl 0, .refl 0, .refl 1⟩
  exact (hmove.mul hturn hturned).mul hscale hscaled

end RwxScene
