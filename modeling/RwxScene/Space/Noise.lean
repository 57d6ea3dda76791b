import RwxScene.Space.Matrix

/-!
# Noise in matrices

Matrices that are written out in full carry rounding noise. `sanitize` sets small entries, and those
that are no finite numbers, to zero, and then a last entry of zero to one, so that points keep a
fourth component. It counts what it sets.
-/

namespace RwxScene

/-- An entry carries no information. -/
def isNoise (threshold v : Scalar) : Bool := !v.isFinite || (v != 0 && v.abs < threshold)

/-- The matrix of sixteen entries without noise, and the number of entries set on the way. -/
def Mat4.sanitize (threshold : Scalar) (entries : Vector Scalar 16) : Mat4 × Nat :=
  let m := ofEntries (entries.map fun v ↦ if isNoise threshold v then 0 else v)
  let changed := entries.countP (isNoise threshold)
  if m.c₃.w == 0 then ({ m with c₃ := { m.c₃ with w := 1 } }, changed + 1) else (m, changed)

end RwxScene
