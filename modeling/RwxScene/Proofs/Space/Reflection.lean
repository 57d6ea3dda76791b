import RwxScene.Proofs.Space.Mirror
import RwxScene.Space.Matrix

/-!
# Matrices in the mirror

A matrix seen in the plane `x = 0` has another sign at the entries of the first row and of the first
column, but for the one that is in both (`Mat4.Image`). Reflecting with rounded arithmetic gives just
that, as long as all entries are finite (`Mat4.image_reflectX`): every sum has one term that counts,
and the others vanish. If an entry is not finite, nor is one of the reflected matrix.

A determinant is the same on both sides of the mirror, since each of its products has an even number
of factors that change their sign.
-/

namespace RwxScene

open Scalar (Alike)

/-! ### Sums with one term that counts -/

namespace Scalar

variable {a b c d : Scalar}

theorem alike_add (h : Alike a 0) (b : Scalar) : Alike (a + b) b := by
  rw [add_comm]
  exact add_alike h b

theorem alike_sum₁ (hb : Alike b 0) (hc : Alike c 0) (hd : Alike d 0) (a : Scalar) :
    Alike (a + b + c + d) a :=
  (add_alike hd _).trans ((add_alike hc _).trans (add_alike hb a))

theorem alike_sum₂ (ha : Alike a 0) (hc : Alike c 0) (hd : Alike d 0) (b : Scalar) :
    Alike (a + b + c + d) b :=
  (add_alike hd _).trans ((add_alike hc _).trans (alike_add ha b))

theorem alike_sum₃ (ha : Alike a 0) (hb : Alike b 0) (hd : Alike d 0) (c : Scalar) :
    Alike (a + b + c + d) c :=
  (add_alike hd _).trans (alike_add ((add_alike hb a).trans ha) c)

theorem alike_sum₄ (ha : Alike a 0) (hb : Alike b 0) (hc : Alike c 0) (d : Scalar) :
    Alike (a + b + c + d) d :=
  alike_add ((add_alike hc _).trans ((add_alike hb a).trans ha)) d

theorem mul_zero (h : a.isFinite = true) : Alike (a * 0) 0 := by
  rw [mul_comm]
  exact zero_mul h

theorem mul_one (a : Scalar) : a * 1 = a := by
  rw [mul_comm, one_mul]

theorem mul_neg_one (a : Scalar) : a * -1 = -a := by
  rw [mul_comm, neg_one_mul]

end Scalar

/-! ### Columns -/

namespace Vec4

/-- As for vectors with three components. -/
structure Image (odd : Bool) (a b : Vec4) : Prop where
  x : Scalar.Image odd a.x b.x
  y : Scalar.Image (!odd) a.y b.y
  z : Scalar.Image (!odd) a.z b.z
  w : Scalar.Image (!odd) a.w b.w

/-- The vectors are alike in all components. -/
structure Alike (a b : Vec4) : Prop where
  x : Scalar.Alike a.x b.x
  y : Scalar.Alike a.y b.y
  z : Scalar.Alike a.z b.z
  w : Scalar.Alike a.w b.w

/-- The column of zeros. -/
def zero : Vec4 := ⟨0, 0, 0, 0⟩

variable {odd : Bool} {a b c d : Vec4}

theorem isFinite_iff : a.isFinite = true ↔
    a.x.isFinite = true ∧ a.y.isFinite = true ∧ a.z.isFinite = true ∧ a.w.isFinite = true := by
  simp only [isFinite, Vec3.isFinite, xyz, Bool.and_eq_true, and_assoc]

namespace Image

theorem xyz (h : Image odd a b) : Vec3.Image odd a.xyz b.xyz := ⟨h.x, h.y, h.z⟩

theorem isFinite_eq (h : Image odd a b) : a.isFinite = b.isFinite := by
  rw [Vec4.isFinite, Vec4.isFinite, h.xyz.isFinite_eq, h.w.isFinite_eq]

theorem of_alike (hab : Alike a b) (h : Image odd b c) : Image odd a c :=
  ⟨⟨hab.x.trans h.x.alike⟩, ⟨hab.y.trans h.y.alike⟩, ⟨hab.z.trans h.z.alike⟩,
    ⟨hab.w.trans h.w.alike⟩⟩

end Image

section Columns

theorem alike_sum₁ (hb : Alike b zero) (hc : Alike c zero) (hd : Alike d zero) (a : Vec4) :
    Alike (a + b + c + d) a :=
  ⟨Scalar.alike_sum₁ hb.x hc.x hd.x _, Scalar.alike_sum₁ hb.y hc.y hd.y _,
    Scalar.alike_sum₁ hb.z hc.z hd.z _, Scalar.alike_sum₁ hb.w hc.w hd.w _⟩

theorem alike_sum₂ (ha : Alike a zero) (hc : Alike c zero) (hd : Alike d zero) (b : Vec4) :
    Alike (a + b + c + d) b :=
  ⟨Scalar.alike_sum₂ ha.x hc.x hd.x _, Scalar.alike_sum₂ ha.y hc.y hd.y _,
    Scalar.alike_sum₂ ha.z hc.z hd.z _, Scalar.alike_sum₂ ha.w hc.w hd.w _⟩

theorem alike_sum₃ (ha : Alike a zero) (hb : Alike b zero) (hd : Alike d zero) (c : Vec4) :
    Alike (a + b + c + d) c :=
  ⟨Scalar.alike_sum₃ ha.x hb.x hd.x _, Scalar.alike_sum₃ ha.y hb.y hd.y _,
    Scalar.alike_sum₃ ha.z hb.z hd.z _, Scalar.alike_sum₃ ha.w hb.w hd.w _⟩

theorem alike_sum₄ (ha : Alike a zero) (hb : Alike b zero) (hc : Alike c zero) (d : Vec4) :
    Alike (a + b + c + d) d :=
  ⟨Scalar.alike_sum₄ ha.x hb.x hc.x _, Scalar.alike_sum₄ ha.y hb.y hc.y _,
    Scalar.alike_sum₄ ha.z hb.z hc.z _, Scalar.alike_sum₄ ha.w hb.w hc.w _⟩

theorem mul_zero (h : a.isFinite = true) : Alike (a * (0 : Scalar)) zero := by
  obtain ⟨hx, hy, hz, hw⟩ := isFinite_iff.1 h
  exact ⟨Scalar.mul_zero hx, Scalar.mul_zero hy, Scalar.mul_zero hz, Scalar.mul_zero hw⟩

theorem mul_one (a : Vec4) : Alike (a * (1 : Scalar)) a :=
  ⟨.of_eq (Scalar.mul_one a.x), .of_eq (Scalar.mul_one a.y), .of_eq (Scalar.mul_one a.z),
    .of_eq (Scalar.mul_one a.w)⟩

theorem Image.mul_neg_one (h : Image odd a b) : Image (!odd) (a * (-1 : Scalar)) b := by
  obtain ⟨hx, hy, hz, hw⟩ := h
  replace hx := hx.neg
  replace hy := hy.neg
  replace hz := hz.neg
  replace hw := hw.neg
  rw [← Scalar.mul_neg_one] at hx hy hz hw
  exact ⟨hx, hy, hz, hw⟩

end Columns

end Vec4

/-! ### Matrices -/

namespace Mat4

/-- The first matrix is the second one with another sign of all entries that belong to the first row
or to the first column, but not to both. -/
structure Image (m n : Mat4) : Prop where
  c₀ : Vec4.Image false m.c₀ n.c₀
  c₁ : Vec4.Image true m.c₁ n.c₁
  c₂ : Vec4.Image true m.c₂ n.c₂
  c₃ : Vec4.Image true m.c₃ n.c₃

theorem isFinite_iff {m : Mat4} : m.isFinite = true ↔ m.c₀.isFinite = true ∧
    m.c₁.isFinite = true ∧ m.c₂.isFinite = true ∧ m.c₃.isFinite = true := by
  simp only [isFinite, Bool.and_eq_true, and_assoc]

namespace Image

variable {m n : Mat4}

theorem isFinite_eq (h : Image m n) : m.isFinite = n.isFinite := by
  simp only [Mat4.isFinite, h.c₀.isFinite_eq, h.c₁.isFinite_eq, h.c₂.isFinite_eq,
    h.c₃.isFinite_eq]

theorem identity : Image .identity .identity :=
  ⟨⟨.refl 1, .zero _, .zero _, .zero _⟩, ⟨.zero _, .refl 1, .zero _, .zero _⟩,
    ⟨.zero _, .zero _, .refl 1, .zero _⟩, ⟨.zero _, .zero _, .zero _, .refl 1⟩⟩

/-- The determinant is the same on both sides of the mirror: every product in it has an even number
of factors that change their sign. -/
theorem determinant (h : Image m n) : Scalar.Alike m.determinant n.determinant := by
  obtain ⟨a, b, c, d⟩ := h
  have hs₀ := (a.x.mul b.y).sub (b.x.mul a.y)
  have hs₁ := (a.x.mul b.z).sub (b.x.mul a.z)
  have hs₂ := (a.x.mul b.w).sub (b.x.mul a.w)
  have hs₃ := (a.y.mul b.z).sub (b.y.mul a.z)
  have hs₄ := (a.y.mul b.w).sub (b.y.mul a.w)
  have hs₅ := (a.z.mul b.w).sub (b.z.mul a.w)
  have ht₅ := (c.z.mul d.w).sub (d.z.mul c.w)
  have ht₄ := (c.y.mul d.w).sub (d.y.mul c.w)
  have ht₃ := (c.y.mul d.z).sub (d.y.mul c.z)
  have ht₂ := (c.x.mul d.w).sub (d.x.mul c.w)
  have ht₁ := (c.x.mul d.z).sub (d.x.mul c.z)
  have ht₀ := (c.x.mul d.y).sub (d.x.mul c.y)
  exact ((((((hs₀.mul ht₅).sub (hs₁.mul ht₄)).add (hs₂.mul ht₃)).add (hs₃.mul ht₂)).sub
    (hs₄.mul ht₁)).add (hs₅.mul ht₀)).even

end Image

/-! ### Reflecting -/

/-- The columns of the reflection are units but for a sign, so each component of a product is one of
the factor. -/
theorem image_reflection_apply {v : Vec4} (h : v.isFinite = true) :
    Vec4.Image true (reflection.apply v) v := by
  obtain ⟨hx, hy, hz, hw⟩ := Vec4.isFinite_iff.1 h
  replace hx := Scalar.zero_mul hx
  replace hy := Scalar.zero_mul hy
  replace hz := Scalar.zero_mul hz
  replace hw := Scalar.zero_mul hw
  exact ⟨⟨(Scalar.alike_sum₁ hy hz hw _).trans (.of_eq (Scalar.neg_one_mul v.x))⟩,
    ⟨(Scalar.alike_sum₂ hx hz hw _).trans (.of_eq (Scalar.one_mul v.y))⟩,
    ⟨(Scalar.alike_sum₃ hx hy hw _).trans (.of_eq (Scalar.one_mul v.z))⟩,
    ⟨(Scalar.alike_sum₄ hx hy hz _).trans (.of_eq (Scalar.one_mul v.w))⟩⟩

/-- Reflecting behind a map that has been reflected before it. -/
theorem image_mul_reflection {m n : Mat4} (h₀ : Vec4.Image true m.c₀ n.c₀)
    (h₁ : Vec4.Image true m.c₁ n.c₁) (h₂ : Vec4.Image true m.c₂ n.c₂)
    (h₃ : Vec4.Image true m.c₃ n.c₃) (hm : m.isFinite = true) : Image (m * reflection) n := by
  obtain ⟨hz₀, hz₁, hz₂, hz₃⟩ := isFinite_iff.1 hm
  replace hz₀ := Vec4.mul_zero hz₀
  replace hz₁ := Vec4.mul_zero hz₁
  replace hz₂ := Vec4.mul_zero hz₂
  replace hz₃ := Vec4.mul_zero hz₃
  refine ⟨?_, ?_, ?_, ?_⟩
  · exact .of_alike (Vec4.alike_sum₁ hz₁ hz₂ hz₃ _) h₀.mul_neg_one
  · exact .of_alike (Vec4.alike_sum₂ hz₀ hz₂ hz₃ _) (.of_alike (Vec4.mul_one _) h₁)
  · exact .of_alike (Vec4.alike_sum₃ hz₀ hz₁ hz₃ _) (.of_alike (Vec4.mul_one _) h₂)
  · exact .of_alike (Vec4.alike_sum₄ hz₀ hz₁ hz₂ _) (.of_alike (Vec4.mul_one _) h₃)

/-- A finite matrix is reflected to its image. -/
theorem image_reflectX {m : Mat4} (h : m.isFinite = true) : Image m.reflectX m := by
  obtain ⟨hf₀, hf₁, hf₂, hf₃⟩ := isFinite_iff.1 h
  have h₀ := image_reflection_apply hf₀
  have h₁ := image_reflection_apply hf₁
  have h₂ := image_reflection_apply hf₂
  have h₃ := image_reflection_apply hf₃
  have hfinite : (reflection * m).isFinite = true :=
    isFinite_iff.2 ⟨h₀.isFinite_eq.trans hf₀, h₁.isFinite_eq.trans hf₁, h₂.isFinite_eq.trans hf₂,
      h₃.isFinite_eq.trans hf₃⟩
  exact image_mul_reflection h₀ h₁ h₂ h₃ hfinite

theorem isFinite_of_apply {m : Mat4} {v : Vec4} (h : (m.apply v).isFinite = true) :
    m.isFinite = true ∧ v.isFinite = true := by
  have hsum : ∀ {a b c d : Scalar}, (a * v.x + b * v.y + c * v.z + d * v.w).isFinite = true →
      (a.isFinite = true ∧ b.isFinite = true ∧ c.isFinite = true ∧ d.isFinite = true) ∧
        v.isFinite = true := by
    intro a b c d h
    obtain ⟨h, hd⟩ := Scalar.isFinite_of_add h
    obtain ⟨h, hc⟩ := Scalar.isFinite_of_add h
    obtain ⟨ha, hb⟩ := Scalar.isFinite_of_add h
    obtain ⟨ha, hx⟩ := Scalar.isFinite_of_mul ha
    obtain ⟨hb, hy⟩ := Scalar.isFinite_of_mul hb
    obtain ⟨hc, hz⟩ := Scalar.isFinite_of_mul hc
    obtain ⟨hd, hw⟩ := Scalar.isFinite_of_mul hd
    exact ⟨⟨ha, hb, hc, hd⟩, Vec4.isFinite_iff.2 ⟨hx, hy, hz, hw⟩⟩
  obtain ⟨hx, hy, hz, hw⟩ := Vec4.isFinite_iff.1 h
  obtain ⟨⟨hx₀, hx₁, hx₂, hx₃⟩, hv⟩ := hsum hx
  obtain ⟨⟨hy₀, hy₁, hy₂, hy₃⟩, -⟩ := hsum hy
  obtain ⟨⟨hz₀, hz₁, hz₂, hz₃⟩, -⟩ := hsum hz
  obtain ⟨⟨hw₀, hw₁, hw₂, hw₃⟩, -⟩ := hsum hw
  exact ⟨isFinite_iff.2 ⟨Vec4.isFinite_iff.2 ⟨hx₀, hy₀, hz₀, hw₀⟩,
    Vec4.isFinite_iff.2 ⟨hx₁, hy₁, hz₁, hw₁⟩, Vec4.isFinite_iff.2 ⟨hx₂, hy₂, hz₂, hw₂⟩,
    Vec4.isFinite_iff.2 ⟨hx₃, hy₃, hz₃, hw₃⟩⟩, hv⟩

/-- What is not finite spoils the reflected matrix as well. -/
theorem isFinite_of_mul {m n : Mat4} (h : (m * n).isFinite = true) :
    m.isFinite = true ∧ n.isFinite = true := by
  obtain ⟨h₀, h₁, h₂, h₃⟩ := isFinite_iff.1 h
  obtain ⟨hm, h₀⟩ := isFinite_of_apply h₀
  exact ⟨hm, isFinite_iff.2 ⟨h₀, (isFinite_of_apply h₁).2, (isFinite_of_apply h₂).2,
    (isFinite_of_apply h₃).2⟩⟩

theorem isFinite_reflectX (m : Mat4) : m.reflectX.isFinite = m.isFinite := by
  refine Bool.eq_iff_iff.2 ⟨fun h ↦ ?_, fun h ↦ (image_reflectX h).isFinite_eq.trans h⟩
  exact (isFinite_of_mul (isFinite_of_mul h).1).2

end Mat4

end RwxScene
