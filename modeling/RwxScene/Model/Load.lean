import RwxScene.Interpreter.Step
import RwxScene.Model.Basic
import RwxScene.Text.Lines

/-!
# Loading

A text is loaded as a whole or in slices of lines. Both take the same steps: `Load.advance` follows
up to a number of lines, and what is left at the end is followed by `Load.finish`.
-/

namespace RwxScene

/-- A load under way. -/
structure Load where
  path : String
  /-- The length of the text in bytes. -/
  size : Nat
  /-- The number of bytes followed so far. -/
  cursor : Nat
  /-- The text that is still to come. -/
  rest : List Char
  state : State
  lines : Nat
  ignored : Nat

namespace Load

/-- A load of a text from its beginning. -/
def start (text : List Char) (path : String) (settings : Settings) : Load where
  path := path
  size := Text.byteLength text
  cursor := 0
  rest := text
  state := .start settings
  lines := 0
  ignored := 0

/-- Nothing is left of the text. -/
def isDone (l : Load) : Bool := l.rest.isEmpty

/-- Follows the next line. -/
def stepLine (l : Load) : Load :=
  let (line, rest) := Text.takeLine l.rest
  let read := Line.read (Text.chomp line)
  { l with
    cursor := l.cursor + Text.lineBytes l.rest
    rest
    state := l.state.step read
    lines := l.lines + 1
    ignored := l.ignored + if read.rejection?.isSome then 1 else 0 }

/-- Follows lines until the budget is spent or none is left. -/
def advance (l : Load) : Nat → Load
  | 0 => l
  | budget + 1 => if l.isDone then l else l.stepLine.advance budget

/-- The number of lines that `advance` follows. -/
def consumed (l : Load) : Nat → Nat
  | 0 => 0
  | budget + 1 => if l.isDone then 0 else l.stepLine.consumed budget + 1

/-- The part of the bytes that was followed; all of an empty text. -/
def progress (l : Load) : Scalar :=
  if l.size = 0 then 1 else .ofNat l.cursor / .ofNat l.size

/-- Follows what is left. A line is at least one character long, so there are no more lines than
characters. -/
def finish (l : Load) : Model :=
  let l := l.advance l.rest.length
  let (root, diagnostics) := l.state.finish
  { path := l.path
    root
    diagnostics := { diagnostics with lines := l.lines, ignoredLines := l.ignored } }

/-! ### Texts -/

/-- The text without a mark of byte order in front. -/
def dropMark (text : List Char) : List Char :=
  match text with
  | [] => []
  | c :: cs => if c.toNat = 0xfeff then cs else c :: cs

/-- Begins to load a text, if there is anything in it. -/
def begin (text path : String) (settings : Settings) : Except LoadError Load :=
  let cs := dropMark text.toList
  if cs.all Text.isBlank then .error (.emptyInput path) else .ok (start cs path settings)

end Load

namespace Model

/-- The model of a text. -/
def ofText (text path : String) (settings : Settings) : Except LoadError Model :=
  (Load.begin text path settings).map Load.finish

/-- The model of the bytes of a text. -/
def ofBytes (bytes : ByteArray) (path : String) (settings : Settings) : Except LoadError Model :=
  match Text.Utf8.decode bytes with
  | .error fault => .error (.invalidUtf8 path fault)
  | .ok text => ofText text path settings

end Model

end RwxScene
