import RwxScene.Settings
import RwxScene.Toml.Reader

/-!
# Settings in TOML

A document of settings may name any of them; the others keep their initial values, and other keys
are passed over. An integer serves as a scalar.
-/

namespace RwxScene.Toml

/-- The scalar nearest to a number. -/
def scalar? : Item → Option Scalar
  | .integer n => some (Float32.ofInt n)
  | .float x => some (.ofDouble x)
  | _ => none

def string? : Item → Option String
  | .string s => some s
  | _ => none

def strings? : Item → Option (List String)
  | .array items => items.mapM string?
  | _ => none

/-- Nothing is said. -/
def isVacant : Item → Bool
  | .array [] => true
  | .table _ [] => true
  | _ => false

/-- A choice, as its word or as a table with that key alone, under which nothing is said. -/
def choice? {α : Type} [Vocabulary α] : Item → Option α
  | .string s => Vocabulary.ofWord? s
  | .table _ [(key, item)] => if isVacant item then Vocabulary.ofWord? key else none
  | _ => none

/-- What an item says, or the initial value where there is none. -/
def field? {α : Type} (entries : Entries) (key : String) (initial : α) (read? : Item → Option α) :
    Option α :=
  match entries.lookup key with
  | some item => read? item
  | none => some initial

/-- The settings of a document. -/
def settingsOf? (e : Entries) : Option Settings := do
  let initial := Settings.initial
  return {
    handedness := ← field? e "handedness" initial.handedness choice?
    opposingNormalDot := ← field? e "opposing_normal_dot" initial.opposingNormalDot scalar?
    degenerateNormalEpsilon :=
      ← field? e "degenerate_normal_epsilon" initial.degenerateNormalEpsilon scalar?
    matrixNoiseThreshold := ← field? e "matrix_noise_threshold" initial.matrixNoiseThreshold scalar?
    invertedMasks := ← field? e "inverted_mask_substrings" initial.invertedMasks strings? }

/-- Reads a document of settings, where `document?` reads documents. -/
def settings? (text : String) (document? : List Char → Option Entries := read?) : Option Settings :=
  (document? text.toList).bind settingsOf?

end RwxScene.Toml
