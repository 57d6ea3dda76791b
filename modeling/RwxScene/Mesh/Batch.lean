import RwxScene.Mesh.Builder
import RwxScene.Mesh.Normals
import RwxScene.Settings
import RwxScene.Space.Bounds

/-!
# Batches

A batch is a list of triangles of one material with everything needed to draw it. `Builder.finish`
makes it: positions and winding are brought to the handedness of the scene, and normals are found.
Where a surface that is seen from both sides folds over, every triangle gets three vertices of its
own with the normal of its plane.
-/

namespace RwxScene

/-- Triangles that are drawn with one material. -/
structure Batch where
  positions : Array Vec3
  /-- One for each position. -/
  uvs : Array UV
  /-- One for each position. -/
  normals : Array Vec3
  /-- Three for each triangle, counted from zero. A batch has fewer than `2 ^ 32` corners, so they
  have thirty-two bits. -/
  indices : Array Nat
  material : Material
  signature : Signature
  tag : Int
  bounds : Bounds
  /-- Every triangle has vertices of its own. -/
  duplicated : Bool
deriving DecidableEq

namespace Batch

def vertexCount (b : Batch) : Nat := b.positions.size

def triangleCount (b : Batch) : Nat := b.indices.size / 3

def triangles (b : Batch) : List (Triangle Nat) := Triangle.ofList b.indices.toList

/-! ### Buffers -/

/-- The four bytes of a number, the lowest first. -/
def littleEndian (n : UInt32) : List UInt8 :=
  [n.toUInt8, (n >>> 8).toUInt8, (n >>> 16).toUInt8, (n >>> 24).toUInt8]

/-- The scalars of a vertex: position, normal, texture coordinates and colour. -/
def vertexScalars (color : Color) (alpha : Scalar) (position normal : Vec3) (uv : UV) :
    List Scalar :=
  [position.x, position.y, position.z, normal.x, normal.y, normal.z, uv.u, uv.v,
    color.red, color.green, color.blue, alpha]

/-- The vertices one after the other, as far as all their attributes go. -/
def interleaved (b : Batch) : List Scalar :=
  let (color, alpha) := b.material.effectiveColor
  (b.positions.toList.zip (b.normals.toList.zip b.uvs.toList)).flatMap fun (p, n, t) ↦
    vertexScalars color alpha p n t

def vertexBytes (b : Batch) : List UInt8 := b.interleaved.flatMap fun s ↦ littleEndian s.toBits

def indexBytes (b : Batch) : List UInt8 := b.indices.toList.flatMap fun i ↦ littleEndian i.toUInt32

end Batch

/-! ### Finishing -/

namespace Builder

/-- The positions in the finished scene. -/
def exportedPositions (h : Handedness) (b : Builder) : Array Vec3 :=
  b.vertices.map fun v ↦ h.point v.position

/-- The triangles in the finished scene; a mirror image is wound the other way round. -/
def exportedTriangles (h : Handedness) (b : Builder) : List (Triangle Nat) :=
  match h with
  | .right => b.triangles.toList
  | .left => b.triangles.toList.map Triangle.flip

/-- The triangles in the finished scene with their normals. -/
def exportedFaces (s : Settings) (b : Builder) : List (Triangle Nat × Option Vec3) :=
  let positions := b.exportedPositions s.handedness
  (b.exportedTriangles s.handedness).map fun t ↦
    (t, Normals.ofTriangle s.degenerateNormalEpsilon positions t)

/-- The batch, and the number of its triangles without a normal. The batch has fewer than `2 ^ 32`
corners: only then are indices of thirty-two bits the natural numbers that stand here. -/
def finish (s : Settings) (b : Builder) : Batch × Nat :=
  let positions := b.exportedPositions s.handedness
  let uvs := b.vertices.map Vertex.uv
  let faces := b.exportedFaces s
  let gathered := Normals.gather positions.size (Normals.incidences faces)
  let duplicated :=
    b.material.isDoubleSided && gathered.any (Normals.opposed s.opposingNormalDot)
  let batch : Batch :=
    if duplicated then
      let corners := (faces.flatMap fun (t, n) ↦ t.toList.map (·, n.getD .up)).toArray
      let positions := corners.map fun (i, _) ↦ Normals.position positions i
      { positions
        uvs := corners.map fun (i, _) ↦ uvs[i]?.getD .zero
        normals := corners.map (·.2)
        indices := Array.range corners.size
        material := b.material
        signature := b.signature
        tag := b.material.tag
        bounds := .ofPoints positions.toList
        duplicated }
    else
      { positions
        uvs
        normals := gathered.map (Normals.average s.degenerateNormalEpsilon)
        indices := (faces.flatMap (·.1.toList)).toArray
        material := b.material
        signature := b.signature
        tag := b.material.tag
        bounds := .ofPoints positions.toList
        duplicated }
  (batch, faces.countP (·.2.isNone))

end Builder

end RwxScene
