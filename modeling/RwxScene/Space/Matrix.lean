import RwxScene.Space.Vector

/-!
# Matrices

A `Mat4` maps homogeneous points and is stored by columns; a `Basis` is its upper-left block, the
images of the three axes. Products are formed column by column and each column is a sum from left to
right, so the order of every rounding is part of these definitions.
-/

namespace RwxScene

/-! ### The linear part -/

/-- Three columns of three: the images of the axes. -/
structure Basis where
  c₀ : Vec3
  c₁ : Vec3
  c₂ : Vec3
deriving DecidableEq

/-- The determinant, expanded along the first row. -/
def Basis.determinant (m : Basis) : Scalar :=
  m.c₀.x * (m.c₁.y * m.c₂.z - m.c₂.y * m.c₁.z)
    - m.c₁.x * (m.c₀.y * m.c₂.z - m.c₂.y * m.c₀.z)
    + m.c₂.x * (m.c₀.y * m.c₁.z - m.c₁.y * m.c₀.z)

/-! ### Homogeneous matrices -/

/-- Four columns of four. -/
structure Mat4 where
  c₀ : Vec4
  c₁ : Vec4
  c₂ : Vec4
  c₃ : Vec4
deriving DecidableEq

namespace Mat4

def identity : Mat4 := ⟨.unitX, .unitY, .unitZ, .unitW⟩

/-- The reflection in the plane `x = 0`. -/
def reflection : Mat4 := ⟨⟨-1, 0, 0, 0⟩, .unitY, .unitZ, .unitW⟩

/-- The sum of the columns, each times its component of `v`. -/
def apply (m : Mat4) (v : Vec4) : Vec4 := m.c₀ * v.x + m.c₁ * v.y + m.c₂ * v.z + m.c₃ * v.w

instance : Mul Mat4 := ⟨fun m n ↦ ⟨m.apply n.c₀, m.apply n.c₁, m.apply n.c₂, m.apply n.c₃⟩⟩

def ofTranslation (v : Vec3) : Mat4 := ⟨.unitX, .unitY, .unitZ, v.extend 1⟩

def ofScale (v : Vec3) : Mat4 := ⟨⟨v.x, 0, 0, 0⟩, ⟨0, v.y, 0, 0⟩, ⟨0, 0, v.z, 0⟩, .unitW⟩

/-- An axis that is not longer than this has no direction. -/
def axisEpsilon : Scalar := 1e-12

/-- The rotation about `axis` by `angle` radians, by Rodrigues' formula; an axis without a direction
gives the identity. -/
def ofAxisAngle (axis : Vec3) (angle : Scalar) : Mat4 :=
  match axis.normalize? axisEpsilon with
  | none => identity
  | some ⟨x, y, z⟩ =>
    let sin := angle.sin
    let cos := angle.cos
    let t := 1 - cos
    ⟨⟨t * x * x + cos, t * x * y + sin * z, t * x * z - sin * y, 0⟩,
      ⟨t * x * y - sin * z, t * y * y + cos, t * y * z + sin * x, 0⟩,
      ⟨t * x * z + sin * y, t * y * z - sin * x, t * z * z + cos, 0⟩,
      .unitW⟩

def translation (m : Mat4) : Vec3 := m.c₃.xyz

/-- The upper-left block. -/
def basis (m : Mat4) : Basis := ⟨m.c₀.xyz, m.c₁.xyz, m.c₂.xyz⟩

/-- The image of a point, divided by its fourth component where that is neither zero nor one. -/
def transformPoint (m : Mat4) (p : Vec3) : Vec3 :=
  let v := m.apply (p.extend 1)
  if v.w != 0 && v.w != 1 then v.xyz / v.w else v.xyz

/-- The image of a direction. -/
def transformVector (m : Mat4) (v : Vec3) : Vec3 := (m.apply (v.extend 0)).xyz

/-- The determinant, from the minors of the first two and of the last two columns. -/
def determinant (m : Mat4) : Scalar :=
  let ⟨a, b, c, d⟩ := m
  let s₀ := a.x * b.y - b.x * a.y
  let s₁ := a.x * b.z - b.x * a.z
  let s₂ := a.x * b.w - b.x * a.w
  let s₃ := a.y * b.z - b.y * a.z
  let s₄ := a.y * b.w - b.y * a.w
  let s₅ := a.z * b.w - b.z * a.w
  let t₅ := c.z * d.w - d.z * c.w
  let t₄ := c.y * d.w - d.y * c.w
  let t₃ := c.y * d.z - d.y * c.z
  let t₂ := c.x * d.w - d.x * c.w
  let t₁ := c.x * d.z - d.x * c.z
  let t₀ := c.x * d.y - d.x * c.y
  s₀ * t₅ - s₁ * t₄ + s₂ * t₃ + s₃ * t₂ - s₄ * t₁ + s₅ * t₀

def isFinite (m : Mat4) : Bool :=
  m.c₀.isFinite && m.c₁.isFinite && m.c₂.isFinite && m.c₃.isFinite

/-- Numeric equality of all entries. -/
def agrees (m n : Mat4) : Bool :=
  m.c₀.agrees n.c₀ && m.c₁.agrees n.c₁ && m.c₂.agrees n.c₂ && m.c₃.agrees n.c₃

/-- The same map seen in mirrored space: reflect, apply, reflect back. -/
def reflectX (m : Mat4) : Mat4 := reflection * m * reflection

/-! ### Sixteen entries in a row -/

/-- The matrix of sixteen entries, column by column. -/
def ofEntries (e : Vector Scalar 16) : Mat4 :=
  ⟨⟨e[0], e[1], e[2], e[3]⟩, ⟨e[4], e[5], e[6], e[7]⟩, ⟨e[8], e[9], e[10], e[11]⟩,
    ⟨e[12], e[13], e[14], e[15]⟩⟩

/-- The sixteen entries, column by column. -/
def entries (m : Mat4) : Vector Scalar 16 :=
  #v[m.c₀.x, m.c₀.y, m.c₀.z, m.c₀.w, m.c₁.x, m.c₁.y, m.c₁.z, m.c₁.w,
    m.c₂.x, m.c₂.y, m.c₂.z, m.c₂.w, m.c₃.x, m.c₃.y, m.c₃.z, m.c₃.w]

@[simp] theorem ofEntries_entries (m : Mat4) : ofEntries m.entries = m := rfl

end Mat4

end RwxScene
