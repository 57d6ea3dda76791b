import RwxScene.Decimal.Shortest
import RwxScene.Scene.Node
import RwxScene.Text.Quoted

/-!
# Validation

Batches are checked before they are drawn. A batch needs triangles, as many attributes as positions,
indices that exist, finite coordinates and unit normals. Triangles without area do no harm; they are
counted and mentioned.

A `Problem` says what is wrong with which batch. A batch without indices, or with arrays of
different lengths, is not looked at any further.
-/

namespace RwxScene.Validation

/-! ### Problems -/

/-- What is wrong with a batch. -/
inductive Fault where
  | emptyBatch
  | invalidIndexCount (count : Nat)
  | attributeLengthMismatch (positions uvs normals : Nat)
  | indexOutOfBounds (index vertexCount : Nat)
  | nonFiniteVertex (vertex : Nat)
  | invalidNormal (vertex : Nat) (normal : Vec3)
deriving DecidableEq

/-- What is wrong with which batch of which node. -/
structure Problem where
  node : String
  batch : Nat
  fault : Fault
deriving DecidableEq

/-- Scalars in messages: exponents below a ten-thousandth and from ten to the sixteenth on. -/
def scalarStyle : Decimal.Style := ⟨-4, 16, false, .away⟩

def scalar (s : Scalar) : String := String.ofList (scalarStyle.write s)

/-- Texts with commas between them. -/
def commas (texts : List String) : String := ", ".intercalate texts

/-- The kind of a fault, and what it says besides the place. -/
def Fault.parts : Fault → String × List String
  | .emptyBatch => ("EmptyBatch", [])
  | .invalidIndexCount n => ("InvalidIndexCount", ["index_count: " ++ toString n])
  | .attributeLengthMismatch positions uvs normals =>
    ("AttributeLengthMismatch",
      ["positions: " ++ toString positions, "uvs: " ++ toString uvs,
        "normals: " ++ toString normals])
  | .indexOutOfBounds i n =>
    ("IndexOutOfBounds", ["index_value: " ++ toString i, "vertex_count: " ++ toString n])
  | .nonFiniteVertex i => ("NonFiniteVertex", ["vertex_index: " ++ toString i])
  | .invalidNormal i n =>
    ("InvalidNormal",
      ["vertex_index: " ++ toString i,
        "normal: [" ++ commas [scalar n.x, scalar n.y, scalar n.z] ++ "]"])

/-- A problem in one line. -/
def Problem.message (p : Problem) : String :=
  let (kind, parts) := p.fault.parts
  let place := ["node: " ++ Text.Quoted.literal p.node, "batch_index: " ++ toString p.batch]
  kind ++ " \x7b " ++ commas (place ++ parts) ++ " \x7d"

/-- Triangles without area in a batch. -/
structure Warning where
  node : String
  batch : Nat
  triangles : Nat
deriving DecidableEq

/-- A warning in one line. -/
def Warning.message (w : Warning) : String :=
  "Node " ++ w.node ++ " batch " ++ toString w.batch ++ ": " ++ toString w.triangles ++
    " degenerate triangle(s)"

/-! ### Options -/

/-- What is checked, and how strictly. -/
structure Options where
  checkDegenerateTriangles : Bool
  checkNormals : Bool
  /-- A triangle with less area is degenerate. -/
  minTriangleArea : Scalar
  /-- How far the squared length of a normal may be from one. -/
  normalTolerance : Scalar
deriving DecidableEq

/-- Everything is checked. -/
def Options.initial : Options := ⟨true, true, 1e-10, 0.01⟩

/-! ### Checks -/

/-- A triangle does not have the least area. An area that is not a number counts as none. -/
def isDegenerate (minArea : Scalar) (t : Triangle Vec3) : Bool :=
  let area₂ := ((t.second - t.first).cross (t.third - t.first)).lengthSquared * 0.25
  !(minArea * minArea ≤ area₂)

/-- The squared length of a normal is too far from one. -/
def isOffUnit (tolerance : Scalar) (normal : Vec3) : Bool :=
  tolerance < (normal.lengthSquared - 1).abs

/-- What is wrong with the vertex `i`. -/
def vertexFault (o : Options) (i : Nat) (position normal : Vec3) : Option Fault :=
  if !(position.isFinite && normal.isFinite) then some (.nonFiniteVertex i)
  else if o.checkNormals && isOffUnit o.normalTolerance normal then some (.invalidNormal i normal)
  else none

/-- The number of attributes differs from the number of positions. -/
def hasMismatch (b : Batch) : Bool :=
  b.uvs.size != b.positions.size || b.normals.size != b.positions.size

/-- The faults of indices and vertices. -/
def contentFaults (o : Options) (b : Batch) : List Fault :=
  (b.indices.toList.filter (b.positions.size ≤ ·)).map (.indexOutOfBounds · b.positions.size) ++
    (b.positions.toList.zip b.normals.toList).zipIdx.filterMap fun ((p, n), i) ↦ vertexFault o i p n

/-- Everything that is wrong with a batch. -/
def faults (o : Options) (b : Batch) : List Fault :=
  if b.indices.isEmpty then [.emptyBatch]
  else
    (if b.indices.size % 3 ≠ 0 then [.invalidIndexCount b.indices.size] else []) ++
      if hasMismatch b then
        [.attributeLengthMismatch b.positions.size b.uvs.size b.normals.size]
      else contentFaults o b

/-- The corners of a triangle, if there are vertices for all of them. -/
def cornersOf? (b : Batch) (t : Triangle Nat) : Option (Triangle Vec3) := do
  return ⟨← b.positions[t.first]?, ← b.positions[t.second]?, ← b.positions[t.third]?⟩

/-- The number of triangles without area, in a batch that can be looked at. -/
def degenerateCount (o : Options) (b : Batch) : Nat :=
  if !o.checkDegenerateTriangles || b.indices.isEmpty || hasMismatch b then 0
  else (b.triangles.filterMap (cornersOf? b)).countP (isDegenerate o.minTriangleArea)

/-! ### Scenes -/

/-- How much there is in a scene. -/
structure Stats where
  nodes : Nat
  batches : Nat
  vertices : Nat
  triangles : Nat
  degenerate : Nat
  duplicated : Nat
deriving DecidableEq

/-- What a validation finds. -/
structure Report where
  problems : List Problem
  warnings : List Warning
  stats : Stats
deriving DecidableEq

namespace Report

/-- Nothing was looked at yet. -/
def start : Report := ⟨[], [], ⟨0, 0, 0, 0, 0, 0⟩⟩

def isValid (r : Report) : Bool := r.problems.isEmpty

/-- The report with one more batch looked at. -/
def addBatch (o : Options) (node : String) (r : Report) (b : Batch × Nat) : Report :=
  let (b, i) := b
  let degenerate := degenerateCount o b
  { problems := r.problems ++ (faults o b).map fun f ↦ ⟨node, i, f⟩
    warnings := r.warnings ++ if degenerate = 0 then [] else [⟨node, i, degenerate⟩]
    stats :=
      { nodes := r.stats.nodes
        batches := r.stats.batches + 1
        vertices := r.stats.vertices + b.vertexCount
        triangles := r.stats.triangles + b.triangleCount
        degenerate := r.stats.degenerate + degenerate
        duplicated := r.stats.duplicated + if b.duplicated then 1 else 0 } }

/-- The report with one more node looked at. -/
def addNode (o : Options) (r : Report) (n : Node) : Report :=
  n.batches.zipIdx.foldl (addBatch o n.name)
    { r with stats := { r.stats with nodes := r.stats.nodes + 1 } }

end Report

/-- Looks at every batch of a scene. -/
def validate (o : Options) (root : Node) : Report := root.walk.foldl (Report.addNode o) .start

end RwxScene.Validation
