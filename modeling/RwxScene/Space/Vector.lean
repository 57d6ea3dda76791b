import RwxScene.Scalar

/-!
# Vectors

Points and directions (`Vec3`), homogeneous columns (`Vec4`) and texture coordinates (`UV`).

Equality of the types is equality of their bits. The comparison that the arithmetic makes, in which
the two zeros agree and what is not a number agrees with nothing, is `Vec4.agrees`.
-/

namespace RwxScene

/-! ### Texture coordinates -/

/-- A texture coordinate pair. -/
structure UV where
  u : Scalar
  v : Scalar
deriving DecidableEq

namespace UV

/-- The corner of the texture, used where a vertex names no coordinates. -/
def zero : UV := ⟨0, 0⟩

/-- Both coordinates are finite. -/
def isFinite (t : UV) : Bool := t.u.isFinite && t.v.isFinite

end UV

/-! ### Points and directions -/

/-- A point or direction in space. -/
structure Vec3 where
  x : Scalar
  y : Scalar
  z : Scalar
deriving DecidableEq

namespace Vec3

/-- The vector with three equal components. -/
def splat (s : Scalar) : Vec3 := ⟨s, s, s⟩

/-- The origin. -/
def zero : Vec3 := splat 0

/-- The vector of ones. -/
def one : Vec3 := splat 1

/-- The second axis, which is up. -/
def up : Vec3 := ⟨0, 1, 0⟩

instance : Add Vec3 := ⟨fun a b ↦ ⟨a.x + b.x, a.y + b.y, a.z + b.z⟩⟩

instance : Sub Vec3 := ⟨fun a b ↦ ⟨a.x - b.x, a.y - b.y, a.z - b.z⟩⟩

instance : HMul Vec3 Scalar Vec3 := ⟨fun a s ↦ ⟨a.x * s, a.y * s, a.z * s⟩⟩

instance : HDiv Vec3 Scalar Vec3 := ⟨fun a s ↦ ⟨a.x / s, a.y / s, a.z / s⟩⟩

/-- The opposite vector is the product with minus one. -/
instance : Neg Vec3 := ⟨fun a ↦ a * (-1 : Scalar)⟩

/-- The inner product, added from left to right. -/
def dot (a b : Vec3) : Scalar := a.x * b.x + a.y * b.y + a.z * b.z

/-- The right-handed cross product. -/
def cross (a b : Vec3) : Vec3 :=
  ⟨a.y * b.z - a.z * b.y, a.z * b.x - a.x * b.z, a.x * b.y - a.y * b.x⟩

def lengthSquared (a : Vec3) : Scalar := a.dot a

def length (a : Vec3) : Scalar := a.lengthSquared.sqrt

/-- The unit vector in the direction of `a`, unless its length is not finite or does not exceed
`epsilon`. -/
def normalize? (a : Vec3) (epsilon : Scalar) : Option Vec3 :=
  let length := a.length
  if length.isFinite && epsilon < length then some (a / length) else none

/-- The unit vector in the direction of `a`; the origin where there is none. -/
def normalize (a : Vec3) : Vec3 := (a.normalize? 0).getD zero

def isFinite (a : Vec3) : Bool := a.x.isFinite && a.y.isFinite && a.z.isFinite

/-- The minimum in each component. -/
def min (a b : Vec3) : Vec3 := ⟨Scalar.min a.x b.x, Scalar.min a.y b.y, Scalar.min a.z b.z⟩

/-- The maximum in each component. -/
def max (a b : Vec3) : Vec3 := ⟨Scalar.max a.x b.x, Scalar.max a.y b.y, Scalar.max a.z b.z⟩

/-- The image in the plane `x = 0`. -/
def mirror (a : Vec3) : Vec3 := { a with x := -a.x }

end Vec3

/-! ### Homogeneous columns -/

/-- A column of a matrix, or a point in homogeneous coordinates. -/
structure Vec4 where
  x : Scalar
  y : Scalar
  z : Scalar
  w : Scalar
deriving DecidableEq

namespace Vec4

def unitX : Vec4 := ⟨1, 0, 0, 0⟩

def unitY : Vec4 := ⟨0, 1, 0, 0⟩

def unitZ : Vec4 := ⟨0, 0, 1, 0⟩

def unitW : Vec4 := ⟨0, 0, 0, 1⟩

instance : Add Vec4 := ⟨fun a b ↦ ⟨a.x + b.x, a.y + b.y, a.z + b.z, a.w + b.w⟩⟩

instance : Sub Vec4 := ⟨fun a b ↦ ⟨a.x - b.x, a.y - b.y, a.z - b.z, a.w - b.w⟩⟩

instance : HMul Vec4 Scalar Vec4 := ⟨fun a s ↦ ⟨a.x * s, a.y * s, a.z * s, a.w * s⟩⟩

instance : HDiv Vec4 Scalar Vec4 := ⟨fun a s ↦ ⟨a.x / s, a.y / s, a.z / s, a.w / s⟩⟩

/-- The first three components. -/
def xyz (a : Vec4) : Vec3 := ⟨a.x, a.y, a.z⟩

def isFinite (a : Vec4) : Bool := a.xyz.isFinite && a.w.isFinite

/-- Numeric equality of all components. -/
def agrees (a b : Vec4) : Bool := a.x == b.x && a.y == b.y && a.z == b.z && a.w == b.w

end Vec4

/-- The homogeneous form with the given fourth component. -/
def Vec3.extend (a : Vec3) (w : Scalar) : Vec4 := ⟨a.x, a.y, a.z, w⟩

end RwxScene
