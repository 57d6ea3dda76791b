import RwxScene.Scalar
import RwxScene.Text.Blank
import RwxScene.Text.Vocabulary

/-!
# Materials

A `Material` is all that a scope says about surfaces. The defaults describe an opaque white solid
that is lit from one side and can be walked into.
-/

namespace RwxScene

/-! ### Choices -/

/-- Where light is computed. -/
inductive LightSampling where
  | facet
  | vertex
deriving DecidableEq

instance : Vocabulary LightSampling where
  members := [.facet, .vertex]
  word
    | .facet => "facet"
    | .vertex => "vertex"
  find?_word a := by cases a <;> decide

/-- What is drawn of a shape. -/
inductive GeometrySampling where
  | pointCloud
  | wireframe
  | solid
deriving DecidableEq

instance : Vocabulary GeometrySampling where
  members := [.pointCloud, .wireframe, .solid]
  word
    | .pointCloud => "pointcloud"
    | .wireframe => "wireframe"
    | .solid => "solid"
  find?_word a := by cases a <;> decide

/-- From which sides a surface is seen. -/
inductive MaterialMode where
  | none
  | null
  | double
deriving DecidableEq

instance : Vocabulary MaterialMode where
  members := [.none, .null, .double]
  word
    | .none => "none"
    | .null => "null"
    | .double => "double"
  find?_word a := by cases a <;> decide

/-- How a texture goes on beyond its edges. -/
inductive AddressMode where
  | wrap
  | mirror
  | clamp
deriving DecidableEq

instance : Vocabulary AddressMode where
  members := [.wrap, .mirror, .clamp]
  word
    | .wrap => "wrap"
    | .mirror => "mirror"
    | .clamp => "clamp"
  find?_word a := by cases a <;> decide

/-! ### Parts of a material -/

/-- Red, green and blue. -/
structure Color where
  red : Scalar
  green : Scalar
  blue : Scalar
deriving DecidableEq

namespace Color

def white : Color := ⟨1, 1, 1⟩

/-- Each part brought into the unit interval. -/
def clamp (c : Color) : Color := ⟨c.red.clampUnit, c.green.clampUnit, c.blue.clampUnit⟩

end Color

/-- The coefficients of reflection. -/
structure Surface where
  ambient : Scalar
  diffuse : Scalar
  specular : Scalar
deriving DecidableEq

/-- A set of ways to draw a texture. -/
structure TextureModes where
  lit : Bool
  foreshorten : Bool
  filter : Bool
deriving DecidableEq

namespace TextureModes

def none : TextureModes := ⟨false, false, false⟩

def all : TextureModes := ⟨true, true, true⟩

def union (a b : TextureModes) : TextureModes :=
  ⟨a.lit || b.lit, a.foreshorten || b.foreshorten, a.filter || b.filter⟩

def difference (a b : TextureModes) : TextureModes :=
  ⟨a.lit && !b.lit, a.foreshorten && !b.foreshorten, a.filter && !b.filter⟩

def isEmpty (a : TextureModes) : Bool := a == none

end TextureModes

/-! ### Materials -/

/-- The surface attributes of one scope. -/
structure Material where
  /-- A colour was given here or in a scope around this one. -/
  colorExplicit : Bool
  color : Color
  opacity : Scalar
  surface : Surface
  lightSampling : LightSampling
  geometrySampling : GeometrySampling
  textureModes : TextureModes
  mode : MaterialMode
  texture : Option String
  mask : Option String
  normalMap : Option String
  specularMap : Option String
  tint : Bool
  addressMode : AddressMode
  collision : Bool
  tag : Int
  ratio : Scalar
deriving DecidableEq

namespace Material

/-- The material at the start of a scene. -/
def initial : Material where
  colorExplicit := false
  color := .white
  opacity := 1
  surface := ⟨0, 1, 0⟩
  lightSampling := .facet
  geometrySampling := .solid
  textureModes := .all
  mode := .none
  texture := none
  mask := none
  normalMap := none
  specularMap := none
  tint := false
  addressMode := .wrap
  collision := true
  tag := 0
  ratio := 1

/-- The colour and opacity to draw with: white unless a colour was given. -/
def effectiveColor (m : Material) : Color × Scalar :=
  (if m.colorExplicit then m.color else .white, m.opacity)

def isDoubleSided (m : Material) : Bool := m.mode == .double

/-- Every image that the material names. -/
def textureNames (m : Material) : List String :=
  [m.texture, m.mask, m.normalMap, m.specularMap].filterMap id

/-- The name of the mask holds one of `marks`, whatever the case; an empty mark is in no name. -/
def maskInverted (marks : List String) (m : Material) : Bool :=
  match m.mask with
  | none => false
  | some mask =>
    marks.any fun mark ↦
      mark != "" && Text.occursIn (Text.lower mark).toList (Text.lower mask).toList

end Material

end RwxScene
