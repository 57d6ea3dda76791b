import RwxScene.Proofs.Command.Readers

/-!
# Forms of lines

A keyword has its spellings (`Keyword.spellings`), and what may follow it has a `Form`.
`Form.Phrase` says which words have that form and which command they are. Every keyword has one form
(`Keyword.form`), with its own command or words in it. Nothing here mentions how words are read, nor
the table in which keywords are looked up.
-/

namespace RwxScene

/-! ### Textures -/

/-- The word for an attribute of a texture. -/
def Arguments.TextureAttribute.spelling : Arguments.TextureAttribute → String
  | mask => "mask"
  | normal => "normal"
  | specular => "specular"
  | ratio => "ratio"

/-- Words for attributes of a texture, two for each. -/
inductive Attributes : List String → List (Arguments.TextureAttribute × String) → Prop
  | nil : Attributes [] []
  | cons {v w : String} {ws : List String} {a : Arguments.TextureAttribute}
    {as : List (Arguments.TextureAttribute × String)} (hv : Text.Spells v a.spelling)
    (hw : a = .ratio → ∃ s, IsNumber w s) (hws : Attributes ws as) :
    Attributes (v :: w :: ws) ((a, w) :: as)

/-- The last value given for an attribute. -/
def lastOf (a : Arguments.TextureAttribute) (as : List (Arguments.TextureAttribute × String)) :
    Option String :=
  ((as.filter (·.1 = a)).getLast?).map (·.2)

/-- The name given last for an attribute, if there is one. -/
inductive LastName (a : Arguments.TextureAttribute)
    (as : List (Arguments.TextureAttribute × String)) : Option String → Prop
  | absent (h : lastOf a as = none) : LastName a as none
  | given {w : String} {n : Option String} (h : lastOf a as = some w) (hw : IsName w n) :
    LastName a as n

/-- A texture: a name, and attributes of which the last one of each kind holds. -/
inductive IsTexture : List String → TextureSpec → Prop
  | intro {w : String} {ws : List String} {as : List (Arguments.TextureAttribute × String)}
    {name mask normal specular : Option String} {ratio : Option Scalar} (hw : IsName w name)
    (hws : Attributes ws as) (hmask : LastName .mask as mask) (hnormal : LastName .normal as normal)
    (hspecular : LastName .specular as specular)
    (hratio : Option.Rel IsNumber (lastOf .ratio as) ratio) :
    IsTexture (w :: ws) { name, mask, normal, specular, ratio }

/-- Words for texture modes, in any order and as often as one likes. -/
structure ModeWords (ws : List String) (m : TextureModes) : Prop where
  known : ∀ w ∈ ws, ∃ s ∈ ["null", "lit", "foreshorten", "filter"], Text.Spells w s
  lit : m.lit = true ↔ ∃ w ∈ ws, Text.Spells w "lit"
  foreshorten : m.foreshorten = true ↔ ∃ w ∈ ws, Text.Spells w "foreshorten"
  filter : m.filter = true ↔ ∃ w ∈ ws, Text.Spells w "filter"

/-! ### Forms -/

/-- The form of what follows a keyword, with the command that is meant. -/
inductive Form where
  /-- No word. -/
  | plain (c : Command)
  | number (f : Scalar → Command)
  | vector (f : Vec3 → Command)
  /-- A vector and a number. -/
  | turn (f : Vec3 → Scalar → Command)
  /-- Sixteen numbers. -/
  | matrix (f : Vector Scalar 16 → Command)
  /-- An integer. -/
  | tag (f : Int → Command)
  /-- One of some words; if `absent` is a command, there may also be no word. -/
  | word (absent : Option Command) (choices : List (String × Command))
  /-- Texture modes, at least so many. -/
  | modes (least : Nat) (f : TextureModes → Command)
  | texture
  /-- Three numbers, and two behind the word `uv`. -/
  | vertex
  /-- A fixed number of vertices. -/
  | face (shape : FaceShape) (corners : Nat)
  /-- Vertices with their number before them. -/
  | polygon

/-- The words are of this form and mean this command. -/
inductive Form.Phrase : Form → List String → Command → Prop
  | plain {c : Command} : Phrase (.plain c) [] c
  | number {f : Scalar → Command} {ws : List String} {s : Scalar} (hws : Numbers ws [s]) :
    Phrase (.number f) ws (f s)
  | vector {f : Vec3 → Command} {ws : List String} {x y z : Scalar} (hws : Numbers ws [x, y, z]) :
    Phrase (.vector f) ws (f ⟨x, y, z⟩)
  | turn {f : Vec3 → Scalar → Command} {ws : List String} {x y z s : Scalar}
    (hws : Numbers ws [x, y, z, s]) : Phrase (.turn f) ws (f ⟨x, y, z⟩ s)
  | matrix {f : Vector Scalar 16 → Command} {ws : List String} {entries : Vector Scalar 16}
    (hws : Numbers ws entries.toList) : Phrase (.matrix f) ws (f entries)
  | tag {f : Int → Command} {w : String} {t : Int} (hw : IsTag w t) : Phrase (.tag f) [w] (f t)
  | word {absent : Option Command} {choices : List (String × Command)} {w s : String} {c : Command}
    (hw : Text.Spells w s) (hs : (s, c) ∈ choices) : Phrase (.word absent choices) [w] c
  | absent {c : Command} {choices : List (String × Command)} : Phrase (.word (some c) choices) [] c
  | modes {least : Nat} {f : TextureModes → Command} {ws : List String} {m : TextureModes}
    (hleast : least ≤ ws.length) (hws : ModeWords ws m) : Phrase (.modes least f) ws (f m)
  | texture {ws : List String} {t : TextureSpec} (hws : IsTexture ws t) :
    Phrase .texture ws (.material (.texture t))
  | vertex {ws : List String} {x y z : Scalar} (hws : Numbers ws [x, y, z]) :
    Phrase .vertex ws (.vertex ⟨x, y, z⟩ none)
  | vertexUv {us vs : List String} {w : String} {x y z u v : Scalar} (hus : Numbers us [x, y, z])
    (hw : Text.Spells w "uv") (hvs : Numbers vs [u, v]) :
    Phrase .vertex (us ++ w :: vs) (.vertex ⟨x, y, z⟩ (some ⟨u, v⟩))
  | face {shape : FaceShape} {n : Nat} {us vs : List String} {is : List Nat} {tag : Option Int}
    (hus : Indices us is) (hlength : is.length = n) (hvs : TagSuffix vs tag) :
    Phrase (.face shape n) (us ++ vs) (.face ⟨shape, is, tag⟩)
  | polygon {w : String} {n : Nat} {us vs : List String} {is : List Nat} {tag : Option Int}
    (hw : IsIndex w n) (hthree : 3 ≤ n) (hus : Indices us is) (hlength : is.length = n)
    (hvs : TagSuffix vs tag) : Phrase .polygon (w :: (us ++ vs)) (.face ⟨.polygon, is, tag⟩)

/-! ### Keywords -/

/-- All spellings of a keyword, in small letters. -/
def Keyword.spellings : Keyword → List String
  | vertex => ["vertex", "vertexext"]
  | triangle => ["triangle", "triangleext"]
  | quad => ["quad", "quadext"]
  | polygon => ["polygon", "polygonext"]
  | texture => ["texture"]
  | color => ["color"]
  | opacity => ["opacity"]
  | surface => ["surface"]
  | ambient => ["ambient"]
  | diffuse => ["diffuse"]
  | specular => ["specular"]
  | lightSampling => ["lightsampling"]
  | geometrySampling => ["geometrysampling"]
  | textureModes => ["texturemode", "texturemodes"]
  | addTextureModes => ["addtexturemode", "addtexturemodes"]
  | removeTextureModes => ["removetexturemode", "removetexturemodes"]
  | materialMode => ["materialmode", "materialmodes"]
  | addMaterialMode => ["addmaterialmode", "addmaterialmodes"]
  | removeMaterialMode => ["removematerialmode", "removematerialmodes"]
  | textureAddressMode => ["textureaddressmode"]
  | collision => ["collision"]
  | tint => ["tint"]
  | tag => ["tag"]
  | clumpBegin => ["clumpbegin"]
  | clumpEnd => ["clumpend"]
  | transformBegin => ["transformbegin"]
  | transformEnd => ["transformend"]
  | jointTransformBegin => ["jointtransformbegin"]
  | jointTransformEnd => ["jointtransformend"]
  | identityJoint => ["identityjoint"]
  | translate => ["translate"]
  | rotate => ["rotate"]
  | scale => ["scale"]
  | identity => ["identity"]
  | transform => ["transform"]
  | rotateJoint => ["rotatejointtm"]

/-- The words for material modes. -/
def materialModes (f : MaterialMode → Directive) : List (String × Command) :=
  [("none", .material (f .none)), ("null", .material (f .null)), ("double", .material (f .double))]

/-- The words of a switch. -/
def onOff (f : Bool → Directive) : List (String × Command) :=
  [("on", .material (f true)), ("off", .material (f false))]

/-- The form of what follows a keyword. -/
def Keyword.form : Keyword → Form
  | vertex => .vertex
  | triangle => .face .triangle 3
  | quad => .face .quad 4
  | polygon => .polygon
  | texture => .texture
  | color => .vector fun v ↦ .material (.color ⟨v.x, v.y, v.z⟩)
  | opacity => .number fun s ↦ .material (.opacity s)
  | surface => .vector fun v ↦ .material (.surface ⟨v.x, v.y, v.z⟩)
  | ambient => .number fun s ↦ .material (.ambient s)
  | diffuse => .number fun s ↦ .material (.diffuse s)
  | specular => .number fun s ↦ .material (.specular s)
  | lightSampling => .word none
    [("facet", .material (.lightSampling .facet)), ("vertex", .material (.lightSampling .vertex))]
  | geometrySampling => .word none
    [("pointcloud", .material (.geometrySampling .pointCloud)),
      ("wireframe", .material (.geometrySampling .wireframe)),
      ("solid", .material (.geometrySampling .solid))]
  | textureModes => .modes 0 fun m ↦ .material (.textureModes m)
  | addTextureModes => .modes 1 fun m ↦ .material (.addTextureModes m)
  | removeTextureModes => .modes 1 fun m ↦ .material (.removeTextureModes m)
  | materialMode => .word (some (.material (.mode .none))) (materialModes .mode)
  | addMaterialMode => .word none (materialModes .addMode)
  | removeMaterialMode => .word none (materialModes .removeMode)
  | textureAddressMode => .word none
    [("wrap", .material (.addressMode .wrap)), ("mirror", .material (.addressMode .mirror)),
      ("clamp", .material (.addressMode .clamp))]
  | collision => .word none (onOff .collision)
  | tint => .word none (onOff .tint)
  | tag => .tag fun t ↦ .material (.tag t)
  | clumpBegin => .plain (.scope .clumpBegin)
  | clumpEnd => .plain (.scope .clumpEnd)
  | transformBegin => .plain (.scope .transformBegin)
  | transformEnd => .plain (.scope .transformEnd)
  | jointTransformBegin => .plain (.scope .jointBegin)
  | jointTransformEnd => .plain (.scope .jointEnd)
  | identityJoint => .plain (.scope .identityJoint)
  | translate => .vector fun v ↦ .transform (.translate v)
  | rotate => .turn fun axis degrees ↦ .transform (.rotate axis degrees)
  | scale => .vector fun v ↦ .transform (.scale v)
  | identity => .plain (.transform .identity)
  | transform => .matrix fun entries ↦ .transform (.set entries)
  | rotateJoint => .turn .rotateJoint

end RwxScene
