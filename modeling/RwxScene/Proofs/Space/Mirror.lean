import RwxScene.Proofs.Scalar.Extremes
import RwxScene.Space.Bounds

/-!
# Vectors and boxes in the mirror

`Vec3.Image` relates a vector to one seen in the plane `x = 0`: either the first component changes
its sign, or the two others do, as in the first column of a matrix. Sums and inner products follow
the parity of the components; a cross product follows with its factors exchanged, which is what the
flipped winding of a mirrored triangle makes up for (`Vec3.Image.cross_swap`).

A box is mirrored by exchanging the extremes of the first component, and the box around mirrored
points is the mirrored box bit for bit (`Bounds.ofPoints_map_mirror`). Around the same points in
another order it is the same box but for the signs of zeros.
-/

namespace RwxScene

/-! ### Points and directions -/

namespace Vec3

/-- The vectors are alike in all components. -/
structure Alike (a b : Vec3) : Prop where
  x : Scalar.Alike a.x b.x
  y : Scalar.Alike a.y b.y
  z : Scalar.Alike a.z b.z

/-- The first vector is the second one with another sign of the first component if `odd` is true,
and of the other two if not. -/
structure Image (odd : Bool) (a b : Vec3) : Prop where
  x : Scalar.Image odd a.x b.x
  y : Scalar.Image (!odd) a.y b.y
  z : Scalar.Image (!odd) a.z b.z

theorem isFinite_iff {a : Vec3} :
    a.isFinite = true ↔ a.x.isFinite = true ∧ a.y.isFinite = true ∧ a.z.isFinite = true := by
  rw [isFinite, Bool.and_eq_true, Bool.and_eq_true, and_assoc]

theorem image_mirror (a : Vec3) : Image true a.mirror a := ⟨.neg_self a.x, .refl a.y, .refl a.z⟩

theorem Alike.refl (a : Vec3) : Alike a a := ⟨.refl _, .refl _, .refl _⟩

theorem Alike.symm {a b : Vec3} (h : Alike a b) : Alike b a := ⟨h.x.symm, h.y.symm, h.z.symm⟩

theorem Alike.trans {a b c : Vec3} (h : Alike a b) (hbc : Alike b c) : Alike a c :=
  ⟨h.x.trans hbc.x, h.y.trans hbc.y, h.z.trans hbc.z⟩

namespace Image

variable {odd : Bool} {a b c d : Vec3}

theorem alike (h : Image true a b) : a.Alike b.mirror := ⟨h.x.odd, h.y.even, h.z.even⟩

theorem zero : Image true .zero .zero := ⟨.zero _, .zero _, .zero _⟩

theorem up : Image true .up .up := ⟨.zero _, .refl _, .zero _⟩

theorem add (hab : Image odd a b) (hcd : Image odd c d) : Image odd (a + c) (b + d) :=
  ⟨hab.x.add hcd.x, hab.y.add hcd.y, hab.z.add hcd.z⟩

theorem sub (hab : Image odd a b) (hcd : Image odd c d) : Image odd (a - c) (b - d) :=
  ⟨hab.x.sub hcd.x, hab.y.sub hcd.y, hab.z.sub hcd.z⟩

theorem div (h : Image odd a b) (s : Scalar) : Image odd (a / s) (b / s) :=
  ⟨h.x.div s, h.y.div s, h.z.div s⟩

/-- An inner product is the same on both sides of the mirror. -/
theorem dot (hab : Image odd a b) (hcd : Image odd c d) : Scalar.Alike (a.dot c) (b.dot d) := by
  have hx := hab.x.mul hcd.x
  have hy := hab.y.mul hcd.y
  have hz := hab.z.mul hcd.z
  rw [Bool.xor_self] at hx hy hz
  exact ((hx.add hy).add hz).even

/-- A cross product is mirrored with its factors exchanged. -/
theorem cross_swap (hab : Image true a b) (hcd : Image true c d) :
    Image true (a.cross c) (d.cross b) := by
  refine ⟨?_, ?_, ?_⟩
  · show Scalar.Image true (a.y * c.z - a.z * c.y) (d.y * b.z - d.z * b.y)
    rw [Scalar.mul_comm d.y, Scalar.mul_comm d.z]
    exact (hab.y.mul hcd.z).sub_swap (hab.z.mul hcd.y)
  · show Scalar.Image false (a.z * c.x - a.x * c.z) (d.z * b.x - d.x * b.z)
    rw [Scalar.mul_comm d.z, Scalar.mul_comm d.x]
    exact (hab.z.mul hcd.x).sub_swap (hab.x.mul hcd.z)
  · show Scalar.Image false (a.x * c.y - a.y * c.x) (d.x * b.y - d.y * b.x)
    rw [Scalar.mul_comm d.x, Scalar.mul_comm d.y]
    exact (hab.x.mul hcd.y).sub_swap (hab.y.mul hcd.x)

/-- A length is the same bit for bit, so that it can be divided by. -/
theorem length_eq (h : Image odd a b) : a.length = b.length := by
  have hsquared : a.lengthSquared = b.lengthSquared := by
    show a.x * a.x + a.y * a.y + a.z * a.z = b.x * b.x + b.y * b.y + b.z * b.z
    rw [h.x.square_eq, h.y.square_eq, h.z.square_eq]
  exact congrArg Float32.sqrt hsquared

theorem normalize? (h : Image odd a b) (epsilon : Scalar) :
    Option.Rel (Image odd) (a.normalize? epsilon) (b.normalize? epsilon) := by
  simp only [Vec3.normalize?, h.length_eq]
  split
  · exact .some (h.div _)
  · exact .none

theorem isFinite_eq (h : Image odd a b) : a.isFinite = b.isFinite := by
  rw [Vec3.isFinite, Vec3.isFinite, h.x.isFinite_eq, h.y.isFinite_eq, h.z.isFinite_eq]

end Image

end Vec3

/-! ### Boxes -/

namespace Bounds

/-- The box seen in the plane `x = 0`: the extremes of the first component change places. -/
def mirror (b : Bounds) : Bounds := ⟨{ b.min with x := -b.max.x }, { b.max with x := -b.min.x }⟩

/-- The boxes have corners that are alike. -/
structure Alike (b c : Bounds) : Prop where
  min : b.min.Alike c.min
  max : b.max.Alike c.max

variable {b c d : Bounds} {p q : Vec3}

theorem Alike.refl (b : Bounds) : Alike b b := ⟨.refl _, .refl _⟩

theorem Alike.symm (h : Alike b c) : Alike c b := ⟨h.min.symm, h.max.symm⟩

theorem Alike.trans (h : Alike b c) (hcd : Alike c d) : Alike b d :=
  ⟨h.min.trans hcd.min, h.max.trans hcd.max⟩

theorem Alike.grow (h : Alike b c) (hpq : p.Alike q) : Alike (b.grow p) (c.grow q) :=
  ⟨⟨h.min.x.min hpq.x, h.min.y.min hpq.y, h.min.z.min hpq.z⟩,
    ⟨h.max.x.max hpq.x, h.max.y.max hpq.y, h.max.z.max hpq.z⟩⟩

/-- The order in which points are collected decides on the signs of zeros only. -/
theorem grow_right_comm (b : Bounds) (p q : Vec3) :
    Alike ((b.grow p).grow q) ((b.grow q).grow p) :=
  ⟨⟨Scalar.min_right_comm _ _ _, Scalar.min_right_comm _ _ _, Scalar.min_right_comm _ _ _⟩,
    ⟨Scalar.max_right_comm _ _ _, Scalar.max_right_comm _ _ _, Scalar.max_right_comm _ _ _⟩⟩

theorem mirror_empty : mirror empty = empty := by decide

/-- Growing goes with the mirror bit for bit. -/
theorem mirror_grow (b : Bounds) (p : Vec3) : (b.grow p).mirror = b.mirror.grow p.mirror := by
  have hmin := Scalar.min_neg_neg b.max.x p.x
  have hmax := Scalar.max_neg_neg b.min.x p.x
  simp only [mirror, grow, Vec3.min, Vec3.max, Vec3.mirror, hmin, hmax]

theorem ofPoints_map_mirror (points : List Vec3) :
    ofPoints (points.map Vec3.mirror) = (ofPoints points).mirror := by
  have hfoldl : ∀ b : Bounds,
      (points.map Vec3.mirror).foldl grow b.mirror = (points.foldl grow b).mirror := by
    induction points with
    | nil => exact fun _ ↦ rfl
    | cons p points ih =>
      intro b
      rw [List.map_cons, List.foldl_cons, ← mirror_grow, ih]
      rfl
  have h := hfoldl empty
  rwa [mirror_empty] at h

end Bounds

end RwxScene
