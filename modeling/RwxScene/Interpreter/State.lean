import RwxScene.Diagnostics
import RwxScene.Scene.Node

/-!
# The state of an interpretation

Clumps nest, and inside a clump transform scopes nest. What a clump has of its own is a `Level`: its
node as far as it is known, the matrix and material in force, its open transform scopes, its
vertices and the batch that is being built. The levels around it wait in a list, untouched, until it
ends; so an end never reaches into the scopes of another clump, and nothing has to be restored but
the list.

Joints have a stack of their own that takes no notice of clumps.
-/

namespace RwxScene

/-- What holds again at the end of a transform scope. -/
structure Saved where
  matrix : Mat4
  material : Material
deriving DecidableEq

/-- A clump that is open. -/
structure Level where
  node : Node
  matrix : Mat4
  material : Material
  /-- The signature of the material, once it was needed. -/
  memo : Option Signature
  /-- The open transform scopes, the innermost first. -/
  scopes : List Saved
  pool : Pool
  batch : Option Builder

namespace Level

/-- The level of a clump that has just been opened. -/
def opened (name : String) (matrix : Mat4) (material : Material) (memo : Option Signature) :
    Level :=
  { node := .new name, matrix, material, memo, scopes := [], pool := #[], batch := none }

/-- The signature of the material in force. -/
def signature (l : Level) : Signature := l.memo.getD l.material.signature

/-- The level with the signature of its material kept for the next time. -/
def remember (l : Level) : Level := { l with memo := some l.signature }

/-- The level with another material; nothing is known of its signature. -/
def withMaterial (l : Level) (m : Material) : Level := { l with material := m, memo := none }

/-- The material of a face with this tag. -/
def faceMaterial (l : Level) (tag : Option Int) : Material :=
  { l.material with tag := tag.getD l.material.tag }

/-- The face has another tag than the material in force. -/
def retagged (l : Level) : Option Int → Bool
  | some t => t != l.material.tag
  | none => false

end Level

/-- An interpretation under way. -/
structure State where
  settings : Settings
  /-- The innermost clump, or the root of the scene. -/
  level : Level
  /-- The levels around it, from the inside out. -/
  outer : List Level
  joint : Mat4
  /-- The joints to go back to, the last one first. -/
  joints : List Mat4
  /-- The number of clumps so far. -/
  clumps : Nat
  /-- The vertices of the open clump are already where its matrix would put them. -/
  baked : Bool
  prototypeOpen : Bool
  /-- What every vertex goes through. -/
  instanceTransform : Option Mat4
  diagnostics : Diagnostics

namespace State

/-- The state before the first line. -/
def start (settings : Settings) : State where
  settings := settings
  level := .opened "root" .identity .initial none
  outer := []
  joint := .identity
  joints := []
  clumps := 0
  baked := false
  prototypeOpen := false
  instanceTransform := none
  diagnostics := .none

/-! ### What a host may set -/

/-- From now on the vertices of the open clump are taken to be where its matrix would put them. -/
def markBaked (s : State) : State := { s with baked := true }

/-- Remembers whether a prototype is open. -/
def setPrototypeOpen (s : State) (isOpen : Bool) : State := { s with prototypeOpen := isOpen }

/-- From now on every vertex goes through this map. -/
def setInstanceTransform (s : State) (m : Option Mat4) : State := { s with instanceTransform := m }

/-! ### Views -/

/-- The number of open clumps. -/
def depth (s : State) : Nat := s.outer.length

/-- The number of vertices in the innermost clump. -/
def vertexCount (s : State) : Nat := s.level.pool.size

/-- The state with another diagnostics. -/
def count (s : State) (f : Diagnostics → Diagnostics) : State :=
  { s with diagnostics := f s.diagnostics }

/-- One more end of a scope that was not open. -/
def countUnmatched (s : State) : State :=
  s.count fun d ↦ { d with unmatchedScopeEnds := d.unmatchedScopeEnds + 1 }

end State

end RwxScene
