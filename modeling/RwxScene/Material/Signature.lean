import RwxScene.Material.Basic
import RwxScene.Decimal.Fixed

/-!
# Signatures

A signature is a text that materials share when they are drawn alike. It lists every attribute, the
scalars with six decimals and after the sign of a zero is dropped, the names after their length in
bytes. Batches are told apart by signatures, so what the text leaves out (the further decimals)
never splits one.
-/

namespace RwxScene

/-- The text that tells materials apart. -/
structure Signature where
  text : String
deriving DecidableEq

namespace Signature

/-- The decimals of a scalar in a signature. -/
def places : Nat := 6

/-- A scalar with six decimals; adding zero drops the sign of a negative zero. -/
def scalar (s : Scalar) : String := String.ofList (Decimal.fixed places (s + 0))

def flag (b : Bool) : String := if b then "1" else "0"

/-- A name after its label and its length in bytes; a dash for no name. -/
def name (label : String) : Option String → String
  | none => "|" ++ label ++ "-"
  | some s => "|" ++ label ++ toString s.utf8ByteSize ++ ":" ++ s

/-! ### Labels of choices -/

def lightSampling : LightSampling → String
  | .facet => "Facet"
  | .vertex => "Vertex"

def geometrySampling : GeometrySampling → String
  | .pointCloud => "PointCloud"
  | .wireframe => "Wireframe"
  | .solid => "Solid"

def mode : MaterialMode → String
  | .none => "None"
  | .null => "Null"
  | .double => "Double"

def addressMode : AddressMode → String
  | .wrap => "Wrap"
  | .mirror => "Mirror"
  | .clamp => "Clamp"

end Signature

open Signature in
/-- The signature of a material. -/
def Material.signature (m : Material) : Signature where
  text :=
    "c" ++ flag m.colorExplicit ++ ":" ++ scalar m.color.red ++ "," ++ scalar m.color.green ++ ","
      ++ scalar m.color.blue ++ "|o" ++ scalar m.opacity
      ++ "|s" ++ scalar m.surface.ambient ++ "," ++ scalar m.surface.diffuse ++ ","
      ++ scalar m.surface.specular
      ++ "|ls" ++ Signature.lightSampling m.lightSampling
      ++ "|gs" ++ Signature.geometrySampling m.geometrySampling
      ++ "|tm" ++ flag m.textureModes.lit ++ flag m.textureModes.foreshorten
      ++ flag m.textureModes.filter
      ++ "|mm" ++ Signature.mode m.mode
      ++ name "t" m.texture ++ name "m" m.mask ++ name "n" m.normalMap
      ++ name "sp" m.specularMap
      ++ "|ti" ++ flag m.tint ++ "|ta" ++ Signature.addressMode m.addressMode
      ++ "|co" ++ flag m.collision ++ "|tg" ++ toString m.tag ++ "|r" ++ scalar m.ratio

end RwxScene
