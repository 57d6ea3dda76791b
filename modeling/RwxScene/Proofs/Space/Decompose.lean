import RwxScene.Proofs.Space.Reflection
import RwxScene.Space.Placement

/-!
# Placements in the mirror

Decomposing a reflected matrix gives the mirrored placement and finds the same
(`Placement.decompose_reflectX`). Every decision on the way is made by a quantity that is the same on
both sides of the mirror: a determinant, the length of an axis, the trace. What is divided by is even
the same bit for bit, with one exception: where a rotation is read off by its largest component, the
divisor may be a zero of either sign. Then nothing finite is left to read, and the rotation is the
identity on both sides.
-/

namespace RwxScene

open Scalar (Alike)

/-! ### Rotations -/

namespace Quat

/-- The opposite quaternion, which is the same rotation. -/
instance : Neg Quat := ⟨fun q ↦ ⟨-q.x, -q.y, -q.z, -q.w⟩⟩

/-- The rotation seen in the plane `x = 0`. -/
def mirror (q : Quat) : Quat := ⟨q.x, -q.y, -q.z, q.w⟩

/-- The quaternions are alike in all components. -/
structure Alike (p q : Quat) : Prop where
  x : Scalar.Alike p.x q.x
  y : Scalar.Alike p.y q.y
  z : Scalar.Alike p.z q.z
  w : Scalar.Alike p.w q.w

/-- The first quaternion is the second one with another sign of the first and the last component if
`odd` is true, and of the other two if not. -/
structure Image (odd : Bool) (p q : Quat) : Prop where
  x : Scalar.Image odd p.x q.x
  y : Scalar.Image (!odd) p.y q.y
  z : Scalar.Image (!odd) p.z q.z
  w : Scalar.Image odd p.w q.w

namespace Image

variable {odd : Bool} {p q : Quat}

/-- Both kinds of images are the mirrored rotation. -/
theorem alike_or (h : Image odd p q) : p.Alike q.mirror ∨ p.Alike (-q.mirror) := by
  cases odd with
  | false => exact .inl ⟨h.x.even, h.y.odd, h.z.odd, h.w.even⟩
  | true =>
    refine .inr ⟨h.x.odd, h.y.even.trans (.of_eq ?_), h.z.even.trans (.of_eq ?_), h.w.odd⟩
    · exact (Scalar.neg_neg q.y).symm
    · exact (Scalar.neg_neg q.z).symm

theorem identity : Image false .identity .identity := ⟨.zero _, .zero _, .zero _, .refl 1⟩

theorem length_eq (h : Image odd p q) : p.length = q.length := by
  have hdot : p.dot p = q.dot q := by
    rw [dot, dot, h.x.square_eq, h.y.square_eq, h.z.square_eq, h.w.square_eq]
  rw [length, length, hdot]

theorem isFinite_eq (h : Image odd p q) : p.isFinite = q.isFinite := by
  rw [isFinite, isFinite, h.x.isFinite_eq, h.y.isFinite_eq, h.z.isFinite_eq, h.w.isFinite_eq]

theorem exists_normalize (h : Image odd p q) : ∃ odd, Image odd p.normalize q.normalize := by
  simp only [normalize, h.length_eq]
  split
  · exact ⟨odd, h.x.div _, h.y.div _, h.z.div _, h.w.div _⟩
  · exact ⟨false, identity⟩

end Image

/-- A quaternion whose real part is not finite has no direction. -/
theorem normalize_eq_identity {q : Quat} (h : q.w.isFinite = false) : q.normalize = identity := by
  refine if_neg fun hlength ↦ ?_
  have hdot := Scalar.isFinite_of_sqrt ((Bool.and_eq_true _ _).mp hlength).2
  have hw := (Scalar.isFinite_of_mul (Scalar.isFinite_of_add hdot).2).1
  rw [h] at hw
  exact Bool.false_ne_true hw

end Quat

/-! ### Bases -/

namespace Basis

/-- As for matrices with four columns. -/
structure Image (m n : Basis) : Prop where
  c₀ : Vec3.Image false m.c₀ n.c₀
  c₁ : Vec3.Image true m.c₁ n.c₁
  c₂ : Vec3.Image true m.c₂ n.c₂

namespace Image

variable {m n : Basis}

theorem determinant (h : Image m n) : Alike m.determinant n.determinant := by
  obtain ⟨a, b, c⟩ := h
  have hx := a.x.mul ((b.y.mul c.z).sub (c.y.mul b.z))
  have hy := b.x.mul ((a.y.mul c.z).sub (c.y.mul a.z))
  have hz := c.x.mul ((a.y.mul b.z).sub (b.y.mul a.z))
  exact ((hx.sub hy).add hz).even

/-- Dividing each axis by a length keeps the image. -/
theorem div (h : Image m n) (v : Vec3) :
    Image ⟨m.c₀ / v.x, m.c₁ / v.y, m.c₂ / v.z⟩ ⟨n.c₀ / v.x, n.c₁ / v.y, n.c₂ / v.z⟩ :=
  ⟨h.c₀.div _, h.c₁.div _, h.c₂.div _⟩

end Image

end Basis

theorem Mat4.Image.basis {m n : Mat4} (h : Mat4.Image m n) : Basis.Image m.basis n.basis :=
  ⟨h.c₀.xyz, h.c₁.xyz, h.c₂.xyz⟩

/-! ### Reading a rotation off a basis -/

namespace Quat

/-- Quotients by what is the same on both sides, or a zero on both sides. -/
theorem exists_normalize_of_divisor {s t : Scalar} (h : Scalar.Alike s t) {p q : Quat}
    (hp : Scalar.Alike s 0 → p.w.isFinite = false) (hq : Scalar.Alike t 0 → q.w.isFinite = false)
    (himage : s = t → ∃ odd, Image odd p q) : ∃ odd, Image odd p.normalize q.normalize := by
  rcases h.eq_or_zero with heq | ⟨hs, ht⟩
  · obtain ⟨odd, himage⟩ := himage heq
    exact himage.exists_normalize
  · rw [normalize_eq_identity (hp hs), normalize_eq_identity (hq ht)]
    exact ⟨false, .identity⟩

theorem exists_normalize_ofBasis {m n : Basis} (h : Basis.Image m n) :
    ∃ odd, Image odd (ofBasis m).normalize (ofBasis n).normalize := by
  obtain ⟨a, b, c⟩ := h
  have hdivisor : ∀ {s t : Scalar}, Scalar.Image false s t →
      Scalar.Alike (s.sqrt * 2) (t.sqrt * 2) := fun h ↦ h.even.sqrt.mul (.refl 2)
  have htrace := (a.x.add b.y).add c.z
  have hpos := (Scalar.Alike.refl 0).lt_iff htrace.even
  have hba := b.y.even.lt_iff a.x.even
  have hca := c.z.even.lt_iff a.x.even
  have hcb := c.z.even.lt_iff b.y.even
  simp only [ofBasis, hpos, hba, hca, hcb]
  split
  · next hlt =>
    -- a trace that is positive is the same bit for bit
    rw [htrace.even.eq_of_pos hlt]
    refine Image.exists_normalize (?_ : Image false _ _)
    exact ⟨(b.z.sub c.y).div _, (c.x.sub a.z).div _, (a.y.sub b.x).div _, .refl _⟩
  split
  · refine exists_normalize_of_divisor (hdivisor ((((Scalar.Image.refl 1).add a.x).sub b.y).sub c.z))
      (fun hs ↦ Scalar.isFinite_div_zero hs _) (fun ht ↦ Scalar.isFinite_div_zero ht _) fun heq ↦ ?_
    rw [heq]
    exact ⟨false, .refl _, (a.y.add b.x).div _, (c.x.add a.z).div _, (b.z.sub c.y).div _⟩
  split
  · refine exists_normalize_of_divisor (hdivisor ((((Scalar.Image.refl 1).add b.y).sub a.x).sub c.z))
      (fun hs ↦ Scalar.isFinite_div_zero hs _) (fun ht ↦ Scalar.isFinite_div_zero ht _) fun heq ↦ ?_
    rw [heq]
    exact ⟨true, (a.y.add b.x).div _, .refl _, (b.z.add c.y).div _, (c.x.sub a.z).div _⟩
  · refine exists_normalize_of_divisor (hdivisor ((((Scalar.Image.refl 1).add c.z).sub a.x).sub b.y))
      (fun hs ↦ Scalar.isFinite_div_zero hs _) (fun ht ↦ Scalar.isFinite_div_zero ht _) fun heq ↦ ?_
    rw [heq]
    exact ⟨true, (c.x.add a.z).div _, (b.z.add c.y).div _, .refl _, (a.y.sub b.x).div _⟩

end Quat

/-! ### Decomposing -/

namespace Placement

/-- The placement in the mirror: the rotation is that of the mirrored one, of which there are two
quaternions. -/
structure MirrorOf (p q : Placement) : Prop where
  position : p.position.Alike q.position.mirror
  rotation : p.rotation.Alike q.rotation.mirror ∨ p.rotation.Alike (-q.rotation.mirror)
  scale : p.scale = q.scale

theorem MirrorOf.identity : MirrorOf .identity .identity :=
  ⟨Vec3.Image.zero.alike, Quat.Image.identity.alike_or, rfl⟩

theorem isFinite_of_readable {m : Mat4} (h : unreadable m = false) : m.isFinite = true := by
  simp only [unreadable, Bool.or_eq_false_iff, Bool.not_eq_false'] at h
  exact h.1.1

theorem unreadable_reflectX (m : Mat4) : unreadable m.reflectX = unreadable m := by
  simp only [unreadable, Mat4.isFinite_reflectX]
  cases hfinite : m.isFinite with
  | false => simp only [Bool.not_false, Bool.true_or]
  | true =>
    have hdeterminant := (Mat4.image_reflectX hfinite).determinant
    simp only [hdeterminant.isFinite_eq, hdeterminant.beq_eq (.refl 0)]

/-- What is decomposed, be it in place of a matrix that cannot be. -/
theorem image_readable (m : Mat4) :
    Mat4.Image (if unreadable m.reflectX then .identity else m.reflectX)
      (if unreadable m then .identity else m) := by
  rw [unreadable_reflectX]
  split
  · exact .identity
  · next h => exact Mat4.image_reflectX (isFinite_of_readable (Bool.eq_false_iff.2 h))

theorem scaleOf_eq {odd : Bool} {a b : Vec3} (h : Vec3.Image odd a b) : scaleOf a = scaleOf b := by
  rw [scaleOf, scaleOf, h.length_eq]

theorem skewed_eq {m n : Basis} (h : Basis.Image m n) :
    skewed m.determinant = skewed n.determinant := by
  rw [skewed, skewed, h.determinant.isFinite_eq, h.determinant.abs_eq]

/-- The rotation that is read off the scaled axes. -/
theorem exists_rotation_image {m n : Basis} (h : Basis.Image m n) :
    let q := (Quat.ofBasis m).normalize
    let r := (Quat.ofBasis n).normalize
    ∃ odd, Quat.Image odd
      (if skewed m.determinant then .identity else if q.isFinite then q else .identity)
      (if skewed n.determinant then .identity else if r.isFinite then r else .identity) := by
  intro q r
  obtain ⟨odd, hq⟩ : ∃ odd, Quat.Image odd q r := Quat.exists_normalize_ofBasis h
  rw [skewed_eq h, hq.isFinite_eq]
  split
  · exact ⟨false, .identity⟩
  split
  · exact ⟨odd, hq⟩
  · exact ⟨false, .identity⟩

/-- **Decomposing goes with the mirror.** -/
theorem decompose_reflectX (m : Mat4) :
    (decompose m.reflectX).1.MirrorOf (decompose m).1 ∧
      (decompose m.reflectX).2 = (decompose m).2 := by
  have h := image_readable m
  simp only [decompose]
  generalize (if unreadable m.reflectX then Mat4.identity else m.reflectX) = k at h ⊢
  generalize (if unreadable m then Mat4.identity else m) = n at h ⊢
  have hbasis := h.basis
  have hreflected := hbasis.determinant.lt_iff (.refl 0)
  simp only [scaleOf_eq hbasis.c₀, scaleOf_eq hbasis.c₁, scaleOf_eq hbasis.c₂, hreflected,
    unreadable_reflectX, hbasis.c₀.length_eq, hbasis.c₁.length_eq, hbasis.c₂.length_eq]
  -- the axes are divided by one and the same scale on both sides
  have hresidue := hbasis.div ⟨if n.basis.determinant < 0 then -scaleOf n.basis.c₀
    else scaleOf n.basis.c₀, scaleOf n.basis.c₁, scaleOf n.basis.c₂⟩
  obtain ⟨odd, hrotation⟩ := exists_rotation_image hresidue
  refine ⟨⟨h.c₃.xyz.alike, ?_, rfl⟩, ?_⟩
  · simpa only [decide_eq_true_eq] using hrotation.alike_or
  · have := skewed_eq hresidue
    simpa only [decide_eq_true_eq, Findings.mk.injEq, true_and] using this

end Placement

end RwxScene
