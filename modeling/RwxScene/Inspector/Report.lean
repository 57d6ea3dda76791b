import RwxScene.Decimal.Fixed
import RwxScene.Json.Codec

/-!
# Reports

What the inspector says about a model: a tree of its nodes with their batches, or all of it as JSON.
-/

namespace RwxScene.Inspector

open Validation (Report commas)

/-! ### Text -/

/-- A coordinate with three decimals. -/
def coordinate (s : Scalar) : String := String.ofList (Decimal.fixed 3 s)

def coordinates (v : Vec3) : String :=
  "(" ++ commas [coordinate v.x, coordinate v.y, coordinate v.z] ++ ")"

/-- The blanks in front of a node at this depth. -/
def indentation (depth : Nat) : String := String.ofList (List.replicate (2 * depth) ' ')

def colorText (c : Color × Scalar) : String :=
  "[" ++ commas ([c.1.red, c.1.green, c.1.blue, c.2].map Validation.scalar) ++ "]"

/-- The line of a batch. -/
def batchLine (depth : Nat) (b : Batch × Nat) : String :=
  let (b, i) := b
  let textures := b.material.textureNames
  indentation depth ++ "  [" ++ toString i ++ "] " ++ toString b.vertexCount ++ " vertices, " ++
    toString b.triangleCount ++ " triangles, tag " ++ toString b.tag ++ ", color " ++
    colorText b.material.effectiveColor ++
    (if textures.isEmpty then "" else ", textures " ++ "/".intercalate textures) ++
    if b.duplicated then ", two-sided" else ""

/-- The lines of a node. -/
def nodeLines (n : Nat × Node) : List String :=
  let (depth, n) := n
  (indentation depth ++ n.name ++ " pos=" ++ coordinates n.placement.position ++ " scale=" ++
    coordinates n.placement.scale) :: n.batches.zipIdx.map (batchLine depth)

/-- The lines of a tree. -/
def treeLines (root : Node) : List String := (root.outline 0).flatMap nodeLines

/-- The lines of a validation. -/
def validationLines (r : Report) : List String :=
  ("validation: " ++ (if r.isValid then "ok" else "FAILED") ++ " (" ++
      commas
        [toString r.stats.nodes ++ " nodes", toString r.stats.batches ++ " batches",
          toString r.stats.vertices ++ " vertices", toString r.stats.triangles ++ " triangles"] ++
      ")") ::
    (r.problems.map fun p ↦ "  error: " ++ p.message) ++
    r.warnings.map fun w ↦ "  warning: " ++ w.message

/-- The report as text. -/
def textReport (m : Model) (validation : Option Report) : String :=
  let lines := treeLines m.root ++ m.diagnostics.summary :: (validation.map validationLines).getD []
  String.join (lines.map (· ++ "\n"))

/-! ### JSON -/

def ofValidation (r : Report) : Json.Value :=
  .object
    [("valid", .bool r.isValid), ("errors", .list (.string ·.message) r.problems),
      ("warnings", .list (.string ·.message) r.warnings)]

/-- The report as JSON. -/
def jsonReport (m : Model) (validation : Option Report) : String :=
  let fields :=
    match validation with
    | none => []
    | some r => [("validation", ofValidation r)]
  (Json.Value.object (("model", Json.ofModel m) :: fields)).pretty "" ++ "\n"

end RwxScene.Inspector
