import RwxScene.Json.Decoder
import RwxScene.Model.Basic

/-!
# Models in JSON

How each type of a model is written as JSON, and beside it how it is read back. Records are written
with their fields in a fixed order. Points, colours and coordinates inside a batch are arrays;
columns, rotations and placements are objects. A joint is written only where there is one.
-/

namespace RwxScene.Json

/-! ### Numbers in bounds -/

/-- A count, in sixty-four bits. -/
def count : Decoder Nat := .natural UInt64.size

/-- An index, in thirty-two bits. -/
def index : Decoder Nat := .natural UInt32.size

/-- A tag, in thirty-two bits with a sign. -/
def tag : Decoder Int := .integer Int32.minValue.toInt Int32.maxValue.toInt

/-- A choice as its word. -/
def ofChoice {α : Type} [Vocabulary α] (a : α) : Value := .string (Vocabulary.word a)

/-! ### Space -/

def ofVec3 (v : Vec3) : Value :=
  .object [("x", .scalar v.x), ("y", .scalar v.y), ("z", .scalar v.z)]

def vec3 : Decoder Vec3 :=
  .record ["x", "y", "z"] fun r ↦ do
    return { x := ← r.required "x" .scalar, y := ← r.required "y" .scalar
             z := ← r.required "z" .scalar }

def ofVec4 (v : Vec4) : Value :=
  .object [("x", .scalar v.x), ("y", .scalar v.y), ("z", .scalar v.z), ("w", .scalar v.w)]

def vec4 : Decoder Vec4 :=
  .record ["x", "y", "z", "w"] fun r ↦ do
    return { x := ← r.required "x" .scalar, y := ← r.required "y" .scalar
             z := ← r.required "z" .scalar, w := ← r.required "w" .scalar }

def ofQuat (q : Quat) : Value :=
  .object [("x", .scalar q.x), ("y", .scalar q.y), ("z", .scalar q.z), ("w", .scalar q.w)]

def quat : Decoder Quat :=
  .record ["x", "y", "z", "w"] fun r ↦ do
    return { x := ← r.required "x" .scalar, y := ← r.required "y" .scalar
             z := ← r.required "z" .scalar, w := ← r.required "w" .scalar }

def ofMat4 (m : Mat4) : Value :=
  .object [("cols", .array [ofVec4 m.c₀, ofVec4 m.c₁, ofVec4 m.c₂, ofVec4 m.c₃])]

def mat4 : Decoder Mat4 :=
  .record ["cols"] fun r ↦ do
    match ← r.required "cols" (.list vec4) with
    | [a, b, c, d] => some ⟨a, b, c, d⟩
    | _ => none

def ofPlacement (p : Placement) : Value :=
  .object [("position", ofVec3 p.position), ("rotation", ofQuat p.rotation),
    ("scale", ofVec3 p.scale)]

def placement : Decoder Placement :=
  .record ["position", "rotation", "scale"] fun r ↦ do
    return { position := ← r.required "position" vec3, rotation := ← r.required "rotation" quat
             scale := ← r.required "scale" vec3 }

def ofBounds (b : Bounds) : Value := .object [("min", ofVec3 b.min), ("max", ofVec3 b.max)]

def bounds : Decoder Bounds :=
  .record ["min", "max"] fun r ↦ do
    return { min := ← r.required "min" vec3, max := ← r.required "max" vec3 }

/-- A point as an array. -/
def ofPoint (v : Vec3) : Value := .array [.scalar v.x, .scalar v.y, .scalar v.z]

def point : Decoder Vec3 := fun depth v ↦
  match Decoder.list .scalar depth v with
  | some [x, y, z] => some ⟨x, y, z⟩
  | _ => none

/-- Texture coordinates as an array. -/
def ofUV (t : UV) : Value := .array [.scalar t.u, .scalar t.v]

def uv : Decoder UV := fun depth v ↦
  match Decoder.list .scalar depth v with
  | some [u, v] => some ⟨u, v⟩
  | _ => none

/-! ### Materials -/

/-- A colour as an array. -/
def ofColor (c : Color) : Value := .array [.scalar c.red, .scalar c.green, .scalar c.blue]

def color : Decoder Color := fun depth v ↦
  match Decoder.list .scalar depth v with
  | some [r, g, b] => some ⟨r, g, b⟩
  | _ => none

def ofSurface (s : Surface) : Value :=
  .object [("ambient", .scalar s.ambient), ("diffuse", .scalar s.diffuse),
    ("specular", .scalar s.specular)]

def surface : Decoder Surface :=
  .record ["ambient", "diffuse", "specular"] fun r ↦ do
    return { ambient := ← r.required "ambient" .scalar, diffuse := ← r.required "diffuse" .scalar
             specular := ← r.required "specular" .scalar }

def ofTextureModes (t : TextureModes) : Value :=
  .object [("lit", .bool t.lit), ("foreshorten", .bool t.foreshorten), ("filter", .bool t.filter)]

def textureModes : Decoder TextureModes :=
  .record ["lit", "foreshorten", "filter"] fun r ↦ do
    return { lit := ← r.required "lit" .bool, foreshorten := ← r.required "foreshorten" .bool
             filter := ← r.required "filter" .bool }

def ofMaterial (m : Material) : Value :=
  .object
    [("color_explicit", .bool m.colorExplicit),
      ("color", ofColor m.color),
      ("opacity", .scalar m.opacity),
      ("surface", ofSurface m.surface),
      ("light_sampling", ofChoice m.lightSampling),
      ("geometry_sampling", ofChoice m.geometrySampling),
      ("texture_modes", ofTextureModes m.textureModes),
      ("material_mode", ofChoice m.mode),
      ("texture", .option .string m.texture),
      ("mask", .option .string m.mask),
      ("normal_map", .option .string m.normalMap),
      ("specular_map", .option .string m.specularMap),
      ("tint", .bool m.tint),
      ("texture_address_mode", ofChoice m.addressMode),
      ("collision", .bool m.collision),
      ("tag", .integer m.tag),
      ("ratio", .scalar m.ratio)]

def material : Decoder Material :=
  .record ["color_explicit", "color", "opacity", "surface", "light_sampling", "geometry_sampling",
      "texture_modes", "material_mode", "texture", "mask", "normal_map", "specular_map", "tint",
      "texture_address_mode", "collision", "tag", "ratio"] fun r ↦ do
    return {
      colorExplicit := ← r.required "color_explicit" .bool
      color := ← r.required "color" color
      opacity := ← r.required "opacity" .scalar
      surface := ← r.required "surface" surface
      lightSampling := ← r.required "light_sampling" .choice
      geometrySampling := ← r.required "geometry_sampling" .choice
      textureModes := ← r.required "texture_modes" textureModes
      mode := ← r.required "material_mode" .choice
      texture := ← r.optional "texture" .string
      mask := ← r.optional "mask" .string
      normalMap := ← r.optional "normal_map" .string
      specularMap := ← r.optional "specular_map" .string
      tint := ← r.required "tint" .bool
      addressMode := ← r.required "texture_address_mode" .choice
      collision := ← r.required "collision" .bool
      tag := ← r.required "tag" tag
      ratio := ← r.required "ratio" .scalar }

/-! ### Scenes -/

def ofBatch (b : Batch) : Value :=
  .object
    [("positions", .list ofPoint b.positions.toList),
      ("uvs", .list ofUV b.uvs.toList),
      ("normals", .list ofPoint b.normals.toList),
      ("indices", .list .natural b.indices.toList),
      ("material", ofMaterial b.material),
      ("signature", .string b.signature.text),
      ("tag", .integer b.tag),
      ("bounds", ofBounds b.bounds),
      ("duplicated", .bool b.duplicated)]

def batch : Decoder Batch :=
  .record ["positions", "uvs", "normals", "indices", "material", "signature", "tag", "bounds",
      "duplicated"] fun r ↦ do
    return {
      positions := (← r.required "positions" (.list point)).toArray
      uvs := (← r.required "uvs" (.list uv)).toArray
      normals := (← r.required "normals" (.list point)).toArray
      indices := (← r.required "indices" (.list index)).toArray
      material := ← r.required "material" material
      signature := ⟨← r.required "signature" .string⟩
      tag := ← r.required "tag" tag
      bounds := ← r.required "bounds" bounds
      duplicated := ← r.required "duplicated" .bool }

/-- The joint of a node as a field, if there is one. -/
def jointField : Option Mat4 → List (String × Value)
  | none => []
  | some m => [("joint", ofMat4 m)]

mutual

def ofNode : Node → Value
  | ⟨name, p, joint, children, batches⟩ =>
    .object
      ([("name", .string name), ("transform", ofPlacement p)] ++ jointField joint ++
        [("children", .array (ofNodes children)), ("batches", .list ofBatch batches)])

def ofNodes : List Node → List Value
  | [] => []
  | n :: ns => ofNode n :: ofNodes ns

end

/-- A node lies two levels inside the one above it: in the array of its children. -/
def node : Decoder Node
  | depth + 2 =>
    Decoder.record ["name", "transform", "joint", "children", "batches"]
      (fun r ↦ do
        return {
          name := ← r.required "name" .string
          placement := ← r.required "transform" placement
          joint := ← r.withDefault "joint" none (.option mat4)
          children := ← r.required "children" (.list fun _ ↦ node depth)
          batches := ← r.required "batches" (.list batch) })
      (depth + 2)
  | _ => fun _ ↦ none

def ofDiagnostics (d : Diagnostics) : Value :=
  .object
    [("lines", .natural d.lines),
      ("ignored_lines", .natural d.ignoredLines),
      ("out_of_range_faces", .natural d.outOfRangeFaces),
      ("degenerate_triangles", .natural d.degenerateTriangles),
      ("sanitized_matrix_components", .natural d.sanitizedMatrixComponents),
      ("repaired_matrices", .natural d.repairedMatrices),
      ("unmatched_scope_ends", .natural d.unmatchedScopeEnds),
      ("auto_closed_clumps", .natural d.autoClosedClumps),
      ("duplicated_batches", .natural d.duplicatedBatches)]

def diagnostics : Decoder Diagnostics :=
  .record ["lines", "ignored_lines", "out_of_range_faces", "degenerate_triangles",
      "sanitized_matrix_components", "repaired_matrices", "unmatched_scope_ends",
      "auto_closed_clumps", "duplicated_batches"] fun r ↦ do
    return {
      lines := ← r.required "lines" count
      ignoredLines := ← r.required "ignored_lines" count
      outOfRangeFaces := ← r.required "out_of_range_faces" count
      degenerateTriangles := ← r.required "degenerate_triangles" count
      sanitizedMatrixComponents := ← r.required "sanitized_matrix_components" count
      repairedMatrices := ← r.required "repaired_matrices" count
      unmatchedScopeEnds := ← r.required "unmatched_scope_ends" count
      autoClosedClumps := ← r.required "auto_closed_clumps" count
      duplicatedBatches := ← r.required "duplicated_batches" count }

def ofModel (m : Model) : Value :=
  .object [("path", .string m.path), ("root", ofNode m.root),
    ("diagnostics", ofDiagnostics m.diagnostics)]

def model : Decoder Model :=
  .record ["path", "root", "diagnostics"] fun r ↦ do
    return { path := ← r.required "path" .string, root := ← r.required "root" node
             diagnostics := ← r.required "diagnostics" diagnostics }

/-! ### Settings -/

def ofSettings (s : Settings) : Value :=
  .object
    [("handedness", ofChoice s.handedness),
      ("opposing_normal_dot", .scalar s.opposingNormalDot),
      ("degenerate_normal_epsilon", .scalar s.degenerateNormalEpsilon),
      ("matrix_noise_threshold", .scalar s.matrixNoiseThreshold),
      ("inverted_mask_substrings", .list .string s.invertedMasks)]

def settings : Decoder Settings :=
  let initial := Settings.initial
  .record ["handedness", "opposing_normal_dot", "degenerate_normal_epsilon",
      "matrix_noise_threshold", "inverted_mask_substrings"] fun r ↦ do
    return {
      handedness := ← r.withDefault "handedness" initial.handedness .choice
      opposingNormalDot := ← r.withDefault "opposing_normal_dot" initial.opposingNormalDot .scalar
      degenerateNormalEpsilon :=
        ← r.withDefault "degenerate_normal_epsilon" initial.degenerateNormalEpsilon .scalar
      matrixNoiseThreshold :=
        ← r.withDefault "matrix_noise_threshold" initial.matrixNoiseThreshold .scalar
      invertedMasks :=
        ← r.withDefault "inverted_mask_substrings" initial.invertedMasks (.list .string) }

end RwxScene.Json
