import RwxScene.Inspector.Options
import RwxScene.Inspector.Report
import RwxScene.Model.Load

/-!
# Runs of the inspector

A run is a function of its arguments and of what it sees of the world. It ends with two if it cannot
be told what to do, with one if the scene does not load or is found faulty, and with zero otherwise.
-/

namespace RwxScene.Inspector

/-- How a run ends. -/
structure Outcome where
  exitCode : Nat
  output : String
  errors : List String
deriving DecidableEq

/-- How the inspector is called. -/
def usage : String :=
  "usage: rwx-inspect [--json] [--validate] [--left] [--config file.toml] <model.rwx>"

/-- Loads the scene in a file, or says why it cannot. -/
def loadFile (w : World) (settings : Settings) (path : String) : Except String Model :=
  match w.files path with
  | .error fault => .error (unreadableMessage path fault)
  | .ok bytes =>
    match Model.ofBytes bytes path settings with
    | .error e => .error e.message
    | .ok m => .ok m

/-- Reports on the scene that the options name. -/
def inspect (w : World) (o : Options) : Outcome :=
  match o.input with
  | none => ⟨1, "", ["No input file given"]⟩
  | some path =>
    match loadFile w o.settings path with
    | .error message => ⟨1, "", [message]⟩
    | .ok m =>
      let validation := if o.validate then some m.validate else none
      let output :=
        match o.format with
        | .text => textReport m validation
        | .json => jsonReport m validation
      if validation.any (!·.isValid) then ⟨1, output, ["Validation failed"]⟩ else ⟨0, output, []⟩

/-- A run with these arguments. -/
def run (w : World) (arguments : List String) : Outcome :=
  match Options.resolve w arguments with
  | .error e => ⟨2, "", [e.message, usage]⟩
  | .ok o => inspect w o

end RwxScene.Inspector
