import Std.Data.TreeMap
import RwxScene.Material.Signature
import RwxScene.Mesh.Triangulation

/-!
# Building batches

A clump keeps its vertices in a `Pool`. A `Builder` collects triangles over a pool and copies the
vertices that they use, each at its first use, so that what it holds no longer depends on the pool.
-/

namespace RwxScene

/-! ### Pools -/

/-- A vertex as it was declared. -/
structure Vertex where
  position : Vec3
  uv : UV
deriving DecidableEq

/-- The vertices of a clump, in order. -/
abbrev Pool := Array Vertex

/-- The offsets of vertices counted from one, if the pool has all of them. -/
def Pool.resolve (pool : Pool) (indices : List Nat) : Option (List Nat) :=
  indices.mapM fun i ↦ if 0 < i ∧ i ≤ pool.size then some (i - 1) else none

/-- The vertex at an offset; there is one at every offset that was resolved. -/
def Pool.vertex (pool : Pool) (offset : Nat) : Vertex := pool[offset]?.getD ⟨.zero, .zero⟩

/-! ### Builders -/

/-- A batch in the making. It has fewer than `2 ^ 32` corners, so that the places of its vertices
have thirty-two bits. -/
structure Builder where
  material : Material
  signature : Signature
  /-- Where the vertex at an offset of the pool was copied to. -/
  slots : Std.TreeMap Nat Nat
  vertices : Array Vertex
  triangles : Array (Triangle Nat)

namespace Builder

/-- A batch without triangles. -/
def new (material : Material) (signature : Signature) : Builder :=
  ⟨material, signature, ∅, #[], #[]⟩

def isEmpty (b : Builder) : Bool := b.triangles.isEmpty

/-- The place of the vertex at an offset, which is copied if it is not there yet. -/
def place (b : Builder) (pool : Pool) (offset : Nat) : Nat × Builder :=
  match b.slots[offset]? with
  | some i => (i, b)
  | none =>
    (b.vertices.size,
      { b with
        slots := b.slots.insert offset b.vertices.size
        vertices := b.vertices.push (pool.vertex offset) })

/-- The batch with one more triangle, whose corners are offsets of the pool. -/
def push (b : Builder) (pool : Pool) (t : Triangle Nat) : Builder :=
  let (i, b) := b.place pool t.first
  let (j, b) := b.place pool t.second
  let (k, b) := b.place pool t.third
  { b with triangles := b.triangles.push ⟨i, j, k⟩ }

/-- The batch with some more triangles. -/
def pushAll (b : Builder) (pool : Pool) (ts : List (Triangle Nat)) : Builder :=
  ts.foldl (fun b t ↦ b.push pool t) b

end Builder

end RwxScene
