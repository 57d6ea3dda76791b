import RwxScene.Material.Basic

/-!
# Material directives

A directive changes some attributes of a material and leaves the others. What is said about colour
and opacity is brought into the unit interval; a new texture takes the place of the old one together
with all its maps.
-/

namespace RwxScene

/-- A texture with its maps and its ratio. -/
structure TextureSpec where
  name : Option String
  mask : Option String
  normal : Option String
  specular : Option String
  ratio : Option Scalar
deriving DecidableEq

/-- A texture without maps. -/
def TextureSpec.ofName (name : Option String) : TextureSpec := ⟨name, none, none, none, none⟩

/-- A change of a material. -/
inductive Directive where
  | color (c : Color)
  | opacity (s : Scalar)
  | surface (s : Surface)
  | ambient (s : Scalar)
  | diffuse (s : Scalar)
  | specular (s : Scalar)
  | lightSampling (l : LightSampling)
  | geometrySampling (g : GeometrySampling)
  | textureModes (t : TextureModes)
  | addTextureModes (t : TextureModes)
  | removeTextureModes (t : TextureModes)
  | mode (m : MaterialMode)
  | addMode (m : MaterialMode)
  | removeMode (m : MaterialMode)
  | texture (t : TextureSpec)
  | addressMode (a : AddressMode)
  | collision (on : Bool)
  | tag (n : Int)
  | tint (on : Bool)
deriving DecidableEq

namespace Material

/-- The material after a directive. -/
def apply (m : Material) : Directive → Material
  | .color c => { m with color := c.clamp, colorExplicit := true }
  | .opacity s => { m with opacity := s.clampUnit }
  | .surface s => { m with surface := s }
  | .ambient s => { m with surface := { m.surface with ambient := s } }
  | .diffuse s => { m with surface := { m.surface with diffuse := s } }
  | .specular s => { m with surface := { m.surface with specular := s } }
  | .lightSampling l => { m with lightSampling := l }
  | .geometrySampling g => { m with geometrySampling := g }
  | .textureModes t => { m with textureModes := t }
  | .addTextureModes t => { m with textureModes := m.textureModes.union t }
  | .removeTextureModes t => { m with textureModes := m.textureModes.difference t }
  | .mode k => { m with mode := k }
  | .addMode k => { m with mode := k }
  | .removeMode k => { m with mode := if m.mode = k then .none else m.mode }
  | .texture t =>
    { m with
      texture := t.name
      mask := t.mask
      normalMap := t.normal
      specularMap := t.specular
      ratio := t.ratio.getD 1 }
  | .addressMode a => { m with addressMode := a }
  | .collision on => { m with collision := on }
  | .tag n => { m with tag := n }
  | .tint on => { m with tint := on }

/-- The material after some directives. -/
def applyAll (m : Material) (ds : List Directive) : Material := ds.foldl apply m

end Material

end RwxScene
