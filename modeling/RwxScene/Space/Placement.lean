import RwxScene.Space.Quaternion

/-!
# Placements

A node is placed by a position, a rotation and a scale. `Placement.decompose` reads them off any
matrix at all: what cannot be read is replaced by a neutral value, and `Findings` records each
replacement. A reflection is no replacement; it becomes a negative first scale.
-/

namespace RwxScene

/-- Position, rotation and scale, applied in the order scale, rotation, position. -/
structure Placement where
  position : Vec3
  rotation : Quat
  scale : Vec3
deriving DecidableEq

/-- What `Placement.decompose` met in a matrix. -/
structure Findings where
  /-- An entry or the determinant was not finite, or the determinant was zero; the identity was
  decomposed instead. -/
  invalidMatrix : Bool
  /-- An axis had no usable length and was given length one. -/
  collapsedAxis : Bool
  /-- The determinant was negative; the first scale carries the sign. -/
  reflected : Bool
  /-- The axes, brought to length one, were no rotation; the rotation was left out. -/
  nonOrthogonal : Bool
deriving DecidableEq

/-- Something was replaced. -/
def Findings.anyRepaired (f : Findings) : Bool :=
  f.invalidMatrix || f.collapsedAxis || f.nonOrthogonal

namespace Placement

def identity : Placement := ⟨.zero, .identity, .one⟩

/-- A shorter axis has collapsed. -/
def scaleEpsilon : Scalar := 1e-6

/-- How far the determinant of a rotation may be from one. -/
def orthogonalityTolerance : Scalar := 0.1

/-- The length of an axis cannot serve as a scale. -/
def collapsed (length : Scalar) : Bool := !length.isFinite || length < scaleEpsilon

/-- The length of an axis as a scale. -/
def scaleOf (axis : Vec3) : Scalar := if collapsed axis.length then 1 else axis.length

/-- The determinant of what remains after scaling rules a rotation out. -/
def skewed (determinant : Scalar) : Bool :=
  !determinant.isFinite || orthogonalityTolerance < (determinant.abs - 1).abs

/-- No placement can be read off the matrix. -/
def unreadable (m : Mat4) : Bool :=
  let determinant := m.determinant
  !m.isFinite || !determinant.isFinite || determinant == 0

/-- Position, rotation and scale of a matrix, and what was met on the way. -/
def decompose (m : Mat4) : Placement × Findings :=
  let invalid := unreadable m
  let m := if invalid then .identity else m
  let basis := m.basis
  let reflected : Bool := basis.determinant < 0
  let sx := scaleOf basis.c₀
  let scale : Vec3 := ⟨if reflected then -sx else sx, scaleOf basis.c₁, scaleOf basis.c₂⟩
  let residue : Basis := ⟨basis.c₀ / scale.x, basis.c₁ / scale.y, basis.c₂ / scale.z⟩
  let skew := skewed residue.determinant
  let q := (Quat.ofBasis residue).normalize
  (⟨m.translation, if skew then .identity else if q.isFinite then q else .identity, scale⟩,
    { invalidMatrix := invalid
      collapsedAxis :=
        collapsed basis.c₀.length || collapsed basis.c₁.length || collapsed basis.c₂.length
      reflected := reflected
      nonOrthogonal := skew })

/-- The matrix that scales, rotates and then moves. -/
def toMatrix (p : Placement) : Mat4 :=
  Mat4.ofTranslation p.position * Mat4.ofQuat p.rotation * Mat4.ofScale p.scale

end Placement

end RwxScene
