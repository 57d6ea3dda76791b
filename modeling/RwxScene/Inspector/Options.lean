import RwxScene.Inspector.Files
import RwxScene.Text.Utf8
import RwxScene.Toml.Settings

/-!
# Options of the inspector

Options come from four places. An argument goes before a variable of the environment, that before a
file of settings, and that before the initial values.

The file of settings is the one named behind the first `--config`, else the one named by a variable,
else a file of a fixed name if there is one.
-/

namespace RwxScene.Inspector

/-- What a report looks like. -/
inductive Format where
  | text
  | json
deriving DecidableEq

def Format.name : Format → String
  | .text => "text"
  | .json => "json"

/-- What one run of the inspector is to do. -/
structure Options where
  settings : Settings
  format : Format
  /-- The scene is validated, too. -/
  validate : Bool
  /-- The scene to load. -/
  input : Option String
  /-- The file from which settings were taken. -/
  configPath : Option String
deriving DecidableEq

/-- The options where nothing is said. -/
def Options.initial : Options := ⟨.initial, .text, false, none, none⟩

/-- What a run can see of the world, and how it reads documents. -/
structure World where
  environment : String → Option String
  files : String → FileResult
  /-- The document that a text is, if it is one. -/
  document? : List Char → Option Toml.Entries := Toml.read?

/-- Why there are no options. -/
inductive OptionsError where
  | configWithoutPath
  | unreadable (path : String) (fault : FileFault)
  | invalidConfig
  | unknownHandedness (name : String)
  | invalidOpposingDot (value : String)
  | unknownFlag (flag : String)
  | unexpectedArgument (argument : String)
deriving DecidableEq

/-- What is said of a file that cannot be read. -/
def unreadableMessage (path : String) (fault : FileFault) : String :=
  "Failed to read " ++ path ++ ": " ++ fault.message

def OptionsError.message : OptionsError → String
  | .configWithoutPath => "--config requires a path"
  | .unreadable path fault => unreadableMessage path fault
  | .invalidConfig => "Invalid loader configuration:"
  | .unknownHandedness name => Handedness.unknownMessage name
  | .invalidOpposingDot value => "Invalid RWX_OPPOSING_DOT: " ++ value
  | .unknownFlag flag => "Unknown flag: " ++ flag
  | .unexpectedArgument argument => "Unexpected argument: " ++ argument

/-! ### The file of settings -/

/-- The file of settings that is used where none is named. -/
def defaultConfig : String := "rwx.toml"

/-- What stands behind the first `--config`, if there is one. -/
def firstConfig? : List String → Option (Option String)
  | [] => none
  | a :: rest => if a = "--config" then some rest.head? else firstConfig? rest

/-- The file of settings, if there is one. -/
def configPath (w : World) (arguments : List String) : Except OptionsError (Option String) :=
  match firstConfig? arguments with
  | some none => .error .configWithoutPath
  | some (some path) => .ok (some path)
  | none =>
    match w.environment "RWX_CONFIG" with
    | some path => .ok (if path = "" then localConfig else some path)
    | none => .ok localConfig
where
  localConfig : Option String :=
    if (w.files defaultConfig).isThere then some defaultConfig else none

/-- Reads a file of settings. -/
def readConfig (w : World) (path : String) : Except OptionsError Settings :=
  match w.files path with
  | .error fault => .error (.unreadable path fault)
  | .ok bytes =>
    match Text.Utf8.decode bytes with
    | .error _ => .error (.unreadable path .notText)
    | .ok text =>
      match Toml.settings? text w.document? with
      | none => .error .invalidConfig
      | some s => .ok s

/-- The options after the file of settings. -/
def fromConfig (w : World) (arguments : List String) : Except OptionsError Options := do
  match ← configPath w arguments with
  | none => return .initial
  | some path =>
    return { Options.initial with settings := ← readConfig w path, configPath := some path }

/-! ### The environment -/

/-- A decimal numeral, or a word for infinity or for what is no number. -/
def readScalar? (cs : List Char) : Option Scalar :=
  let (negative, rest) := Decimal.takeSign cs
  let word := Text.lower (String.ofList rest)
  if word = "inf" ∨ word = "infinity" then
    some (Float32.ofBits (if negative then 0xff800000 else 0x7f800000))
  else if word = "nan" then some (Float32.ofBits 0x7fc00000)
  else (Decimal.Numeral.read? cs).map Decimal.Numeral.toScalar

/-- The pieces between commas that are not blank, without the blanks around them. -/
def commaList (value : String) : List String :=
  ((Text.cut ',' value.toList).map fun p ↦ String.ofList (Text.trim p)).filter (· != "")

/-- What a variable says, if it is set. -/
def World.readVariable {α : Type} (w : World) (name : String) (read? : String → Option α)
    (fault : String → OptionsError) (before : α) : Except OptionsError α :=
  match w.environment name with
  | none => .ok before
  | some value =>
    match read? value with
    | some a => .ok a
    | none => .error (fault value)

/-- The options after the environment. -/
def fromVariables (w : World) (o : Options) : Except OptionsError Options := do
  let handedness ← w.readVariable "RWX_HANDEDNESS" Handedness.ofName? .unknownHandedness
    o.settings.handedness
  let opposingNormalDot ← w.readVariable "RWX_OPPOSING_DOT" (readScalar? ·.toList)
    .invalidOpposingDot o.settings.opposingNormalDot
  let invertedMasks :=
    match w.environment "RWX_INVERTED_MASKS" with
    | none => o.settings.invertedMasks
    | some value => commaList value
  let format :=
    match w.environment "RWX_JSON" with
    | some value => if value = "1" ∨ value = "true" then .json else o.format
    | none => o.format
  return { o with
    settings := { o.settings with handedness, opposingNormalDot, invertedMasks }
    format }

/-! ### Arguments -/

/-- The argument is meant as a flag. -/
def isFlag (argument : String) : Bool := ['-', '-'].isPrefixOf argument.toList

/-- The options after the arguments. -/
def fromArguments (o : Options) : List String → Except OptionsError Options
  | [] => .ok o
  | ["--config"] => .ok o
  | "--config" :: _ :: rest => fromArguments o rest
  | a :: rest =>
    if a = "--json" then fromArguments { o with format := .json } rest
    else if a = "--validate" then fromArguments { o with validate := true } rest
    else if a = "--left" then
      fromArguments { o with settings := { o.settings with handedness := .left } } rest
    else if isFlag a then .error (.unknownFlag a)
    else if o.input.isSome then .error (.unexpectedArgument a)
    else fromArguments { o with input := some a } rest

/-- The options of a run with these arguments. -/
def Options.resolve (w : World) (arguments : List String) : Except OptionsError Options := do
  fromArguments (← fromVariables w (← fromConfig w arguments)) arguments

end RwxScene.Inspector
