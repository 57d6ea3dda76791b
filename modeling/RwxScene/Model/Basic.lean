import RwxScene.Diagnostics
import RwxScene.Scene.Validation
import RwxScene.Text.Utf8

/-!
# Models

A model is the scene of one text with the counts of what was mended. A text fails to load only if
there is nothing in it to interpret.
-/

namespace RwxScene

/-- A scene that was loaded. -/
structure Model where
  /-- The name under which the text is known. -/
  path : String
  root : Node
  diagnostics : Diagnostics

/-- What a validation with the usual options finds in a model. -/
def Model.validate (m : Model) : Validation.Report := Validation.validate .initial m.root

/-- Why there is no model. -/
inductive LoadError where
  /-- The text has no word. -/
  | emptyInput (path : String)
  | invalidUtf8 (path : String) (fault : Text.Utf8.Fault)
deriving DecidableEq

def LoadError.message : LoadError → String
  | .emptyInput path => "Empty input: " ++ path
  | .invalidUtf8 path fault => "Invalid UTF-8 in " ++ path ++ ": " ++ fault.message

end RwxScene
