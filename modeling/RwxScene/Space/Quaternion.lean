import RwxScene.Space.Matrix

/-!
# Quaternions

A rotation is kept as a quaternion with its real part last. `ofBasis` reads the rotation off an
orthonormal basis by the component of largest magnitude, which keeps the divisor away from zero.
-/

namespace RwxScene

/-- A quaternion, its real part last. -/
structure Quat where
  x : Scalar
  y : Scalar
  z : Scalar
  w : Scalar
deriving DecidableEq

namespace Quat

/-- The rotation that moves nothing. -/
def identity : Quat := ⟨0, 0, 0, 1⟩

/-- The rotation about `axis` by `angle` radians. -/
def ofAxisAngle (axis : Vec3) (angle : Scalar) : Quat :=
  let half := angle * 0.5
  let sin := half.sin
  let axis := axis.normalize
  ⟨axis.x * sin, axis.y * sin, axis.z * sin, half.cos⟩

/-- The rotation whose matrix has these columns, if they are orthonormal and right-handed. -/
def ofBasis (m : Basis) : Quat :=
  let ⟨a, b, c⟩ := m
  let trace := a.x + b.y + c.z
  if 0 < trace then
    let s := (trace + 1).sqrt * 2
    ⟨(b.z - c.y) / s, (c.x - a.z) / s, (a.y - b.x) / s, 0.25 * s⟩
  else if b.y < a.x && c.z < a.x then
    let s := (1 + a.x - b.y - c.z).sqrt * 2
    ⟨0.25 * s, (a.y + b.x) / s, (c.x + a.z) / s, (b.z - c.y) / s⟩
  else if c.z < b.y then
    let s := (1 + b.y - a.x - c.z).sqrt * 2
    ⟨(a.y + b.x) / s, 0.25 * s, (b.z + c.y) / s, (c.x - a.z) / s⟩
  else
    let s := (1 + c.z - a.x - b.y).sqrt * 2
    ⟨(c.x + a.z) / s, (b.z + c.y) / s, 0.25 * s, (a.y - b.x) / s⟩

def dot (p q : Quat) : Scalar := p.x * q.x + p.y * q.y + p.z * q.z + p.w * q.w

def length (q : Quat) : Scalar := (q.dot q).sqrt

/-- The unit quaternion in the direction of `q`; the identity where there is none. -/
def normalize (q : Quat) : Quat :=
  let length := q.length
  if 0 < length && length.isFinite then ⟨q.x / length, q.y / length, q.z / length, q.w / length⟩
  else identity

def isFinite (q : Quat) : Bool := q.x.isFinite && q.y.isFinite && q.z.isFinite && q.w.isFinite

/-- The imaginary part. -/
def imaginary (q : Quat) : Vec3 := ⟨q.x, q.y, q.z⟩

/-- The rotated vector. -/
def rotate (q : Quat) (v : Vec3) : Vec3 :=
  let t := q.imaginary.cross v
  v + (t * q.w + q.imaginary.cross t) * (2 : Scalar)

end Quat

/-- The matrix of a rotation. -/
def Mat4.ofQuat (q : Quat) : Mat4 :=
  let x₂ := q.x + q.x
  let y₂ := q.y + q.y
  let z₂ := q.z + q.z
  let xx := q.x * x₂
  let xy := q.x * y₂
  let xz := q.x * z₂
  let yy := q.y * y₂
  let yz := q.y * z₂
  let zz := q.z * z₂
  let wx := q.w * x₂
  let wy := q.w * y₂
  let wz := q.w * z₂
  ⟨⟨1 - (yy + zz), xy + wz, xz - wy, 0⟩, ⟨xy - wz, 1 - (xx + zz), yz + wx, 0⟩,
    ⟨xz + wy, yz - wx, 1 - (xx + yy), 0⟩, .unitW⟩

end RwxScene
