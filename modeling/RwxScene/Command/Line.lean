import RwxScene.Command.Arguments
import RwxScene.Command.Comment

/-!
# Lines

A line is read in three steps: the comment is taken off, the rest is cut into words, and the first
word, in any case, says how to read the others. A word that is left over spoils the line. Lines that
are no command are told apart from lines without a word.
-/

namespace RwxScene

/-! ### Keywords -/

/-- What a line can begin with. -/
inductive Keyword where
  | vertex
  | triangle
  | quad
  | polygon
  | texture
  | color
  | opacity
  | surface
  | ambient
  | diffuse
  | specular
  | lightSampling
  | geometrySampling
  | textureModes
  | addTextureModes
  | removeTextureModes
  | materialMode
  | addMaterialMode
  | removeMaterialMode
  | textureAddressMode
  | collision
  | tint
  | tag
  | clumpBegin
  | clumpEnd
  | transformBegin
  | transformEnd
  | jointTransformBegin
  | jointTransformEnd
  | identityJoint
  | translate
  | rotate
  | scale
  | identity
  | transform
  | rotateJoint
deriving DecidableEq

namespace Keyword

/-- Every keyword with its spellings in small letters. -/
def table : List (Keyword × List String) :=
  [(vertex, ["vertex", "vertexext"]),
    (triangle, ["triangle", "triangleext"]),
    (quad, ["quad", "quadext"]),
    (polygon, ["polygon", "polygonext"]),
    (texture, ["texture"]),
    (color, ["color"]),
    (opacity, ["opacity"]),
    (surface, ["surface"]),
    (ambient, ["ambient"]),
    (diffuse, ["diffuse"]),
    (specular, ["specular"]),
    (lightSampling, ["lightsampling"]),
    (geometrySampling, ["geometrysampling"]),
    (textureModes, ["texturemode", "texturemodes"]),
    (addTextureModes, ["addtexturemode", "addtexturemodes"]),
    (removeTextureModes, ["removetexturemode", "removetexturemodes"]),
    (materialMode, ["materialmode", "materialmodes"]),
    (addMaterialMode, ["addmaterialmode", "addmaterialmodes"]),
    (removeMaterialMode, ["removematerialmode", "removematerialmodes"]),
    (textureAddressMode, ["textureaddressmode"]),
    (collision, ["collision"]),
    (tint, ["tint"]),
    (tag, ["tag"]),
    (clumpBegin, ["clumpbegin"]),
    (clumpEnd, ["clumpend"]),
    (transformBegin, ["transformbegin"]),
    (transformEnd, ["transformend"]),
    (jointTransformBegin, ["jointtransformbegin"]),
    (jointTransformEnd, ["jointtransformend"]),
    (identityJoint, ["identityjoint"]),
    (translate, ["translate"]),
    (rotate, ["rotate"]),
    (scale, ["scale"]),
    (identity, ["identity"]),
    (transform, ["transform"]),
    (rotateJoint, ["rotatejointtm"])]

/-- The keyword with this spelling. -/
def ofWord? (w : String) : Option Keyword :=
  (table.find? fun (_, spellings) ↦ spellings.contains w).map (·.1)

open Arguments

/-- The command that a keyword begins, from the words behind it. -/
def arguments : Keyword → Arguments Command
  | vertex => do
    let position ← vec3
    if ← flag "uv" then
      let u ← number
      let v ← number
      return .vertex position (some ⟨u, v⟩)
    else return .vertex position none
  | triangle => do
    let indices ← times index 3
    return .face ⟨.triangle, indices.toList, ← faceTag⟩
  | quad => do
    let indices ← times index 4
    return .face ⟨.quad, indices.toList, ← faceTag⟩
  | polygon => do
    let declared ← index
    let indices ← corners
    if declared < 3 ∨ indices.length ≠ declared then fail (.polygonCount declared indices.length)
    else return .face ⟨.polygon, indices, ← faceTag⟩
  | texture => do return .material (.texture (← Arguments.texture))
  | color => do
    let v ← vec3
    return .material (.color ⟨v.x, v.y, v.z⟩)
  | opacity => do return .material (.opacity (← number))
  | surface => do
    let v ← vec3
    return .material (.surface ⟨v.x, v.y, v.z⟩)
  | ambient => do return .material (.ambient (← number))
  | diffuse => do return .material (.diffuse (← number))
  | specular => do return .material (.specular (← number))
  | lightSampling => do return .material (.lightSampling (← choice))
  | geometrySampling => do return .material (.geometrySampling (← choice))
  | textureModes => do return .material (.textureModes (← Arguments.textureModes))
  | addTextureModes => do return .material (.addTextureModes (← someTextureModes))
  | removeTextureModes => do return .material (.removeTextureModes (← someTextureModes))
  | materialMode => do
    if ← isEnd then return .material (.mode .none) else return .material (.mode (← choice))
  | addMaterialMode => do return .material (.addMode (← choice))
  | removeMaterialMode => do return .material (.removeMode (← choice))
  | textureAddressMode => do return .material (.addressMode (← choice))
  | collision => do return .material (.collision (← switch))
  | tint => do return .material (.tint (← switch))
  | tag => do return .material (.tag (← Arguments.tag))
  | clumpBegin => pure (.scope .clumpBegin)
  | clumpEnd => pure (.scope .clumpEnd)
  | transformBegin => pure (.scope .transformBegin)
  | transformEnd => pure (.scope .transformEnd)
  | jointTransformBegin => pure (.scope .jointBegin)
  | jointTransformEnd => pure (.scope .jointEnd)
  | identityJoint => pure (.scope .identityJoint)
  | translate => do return .transform (.translate (← vec3))
  | rotate => do
    let axis ← vec3
    return .transform (.rotate axis (← number))
  | scale => do return .transform (.scale (← vec3))
  | identity => pure (.transform .identity)
  | transform => do return .transform (.set (← times number 16))
  | rotateJoint => do
    let axis ← vec3
    return .rotateJoint axis (← number)

end Keyword

/-! ### Lines -/

/-- What a line turns out to be. -/
inductive Line where
  /-- Without a word. -/
  | blank
  | command (c : Command)
  | rejected (r : Rejection)
deriving DecidableEq

namespace Line

/-- Reads the words of a line. -/
def ofWords : List String → Line
  | [] => blank
  | w :: ws =>
    let k := Text.lower w
    match Keyword.ofWord? k with
    | none => rejected (.unknownKeyword k)
    | some keyword =>
      match keyword.arguments k ws with
      | .error e => rejected e
      | .ok (c, []) => command c
      | .ok (_, w :: _) => rejected (.trailingWord w)

/-- Reads a line. -/
def read (cs : List Char) : Line := ofWords (Text.words (Comment.strip cs))

/-- The command of a line, if it is one. -/
def command? : Line → Option Command
  | command c => some c
  | _ => none

/-- Why a line was rejected, if it was. -/
def rejection? : Line → Option Rejection
  | rejected r => some r
  | _ => none

end Line

end RwxScene
