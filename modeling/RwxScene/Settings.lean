import RwxScene.Space.Matrix
import RwxScene.Text.Blank
import RwxScene.Text.Vocabulary

/-!
# Settings

The handedness of the finished scene, and the thresholds by which geometry is judged on the way.
Scenes are written right-handed; a left-handed scene is their mirror image in the plane `x = 0`.
-/

namespace RwxScene

/-! ### Handedness -/

/-- On which side of the first two axes the third one lies. -/
inductive Handedness where
  | right
  | left
deriving DecidableEq

instance : Vocabulary Handedness where
  members := [.right, .left]
  word
    | .right => "right"
    | .left => "left"
  find?_word a := by cases a <;> decide

namespace Handedness

/-- The handedness that a person may mean, in any case, by one of several names. -/
def ofName? (name : String) : Option Handedness :=
  let w := Text.lower name
  if w = "right" ∨ w = "rh" ∨ w = "right-handed" then some right
  else if w = "left" ∨ w = "lh" ∨ w = "left-handed" then some left
  else none

/-- What is said of a name that means neither. -/
def unknownMessage (name : String) : String := "Unknown handedness: " ++ name

/-- A point of the written scene in the finished one. -/
def point (h : Handedness) (p : Vec3) : Vec3 :=
  match h with
  | right => p
  | left => p.mirror

/-- A map of the written scene in the finished one. -/
def matrix (h : Handedness) (m : Mat4) : Mat4 :=
  match h with
  | right => m
  | left => m.reflectX

end Handedness

/-! ### Settings -/

/-- How scenes are loaded. -/
structure Settings where
  handedness : Handedness
  /-- Two normals whose inner product is below this are opposed. -/
  opposingNormalDot : Scalar
  /-- A normal that is not longer than this has no direction. -/
  degenerateNormalEpsilon : Scalar
  /-- Entries of a matrix that are smaller than this are noise. -/
  matrixNoiseThreshold : Scalar
  /-- What the name of a mask holds if the mask is inverted. -/
  invertedMasks : List String
deriving DecidableEq

/-- The settings where nothing else is said. -/
def Settings.initial : Settings where
  handedness := .right
  opposingNormalDot := -0.001
  degenerateNormalEpsilon := 1e-8
  matrixNoiseThreshold := 1e-6
  invertedMasks := []

end RwxScene
