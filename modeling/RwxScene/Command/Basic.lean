import RwxScene.Space.Vector
import RwxScene.Material.Directive

/-!
# Commands

A line of a scene text is one command. Faces name vertices by the order in which these were
declared in the innermost clump, beginning with one.
-/

namespace RwxScene

/-- How the corners of a face are written. -/
inductive FaceShape where
  | triangle
  | quad
  | polygon
deriving DecidableEq

/-- A face over the vertices of the innermost clump. -/
structure Face where
  shape : FaceShape
  /-- The corners, counted from one. -/
  indices : List Nat
  /-- A tag for this face alone. -/
  tag : Option Int
deriving DecidableEq

/-- A change of the matrix in force. -/
inductive Transformation where
  | translate (v : Vec3)
  | rotate (axis : Vec3) (degrees : Scalar)
  | scale (v : Vec3)
  /-- Sixteen entries, column by column, in place of the matrix. -/
  | set (entries : Vector Scalar 16)
  | identity
deriving DecidableEq

/-- A begin or an end of a scope, or a reset. -/
inductive ScopeMark where
  | clumpBegin
  | clumpEnd
  | transformBegin
  | transformEnd
  | jointBegin
  | jointEnd
  | identityJoint
deriving DecidableEq

/-- What a line says. -/
inductive Command where
  | vertex (position : Vec3) (uv : Option UV)
  | face (f : Face)
  | material (d : Directive)
  | transform (t : Transformation)
  | scope (s : ScopeMark)
  | rotateJoint (axis : Vec3) (degrees : Scalar)
deriving DecidableEq

end RwxScene
