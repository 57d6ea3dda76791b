/-!
# Control characters and sequences

To a terminal some characters are commands. An escape begins a sequence of characters that together
are one command; the character behind it tells the kind of the sequence, and the kind tells where it
ends. `withoutControls` is what remains of a text where there is no terminal.

The tabulator, the line feed, the form feed and the carriage return are text, even within a sequence
unless it holds a string. Text then goes on up to the next control, and the sequence goes on there.
-/

namespace RwxScene.Text

/-- Where in a sequence a text stands. -/
inductive Mode where
  /-- In none. -/
  | plain
  /-- Behind the escape. -/
  | escape
  /-- Behind an escape with a blank or a mark after it. -/
  | marked
  /-- In a control sequence, which ends with a letter. -/
  | control
  /-- At the beginning of a device control. -/
  | device
  /-- In the parameters of a device control. -/
  | deviceParameters
  /-- In the marks behind these. -/
  | deviceMarks
  /-- In a string, which ends with the byte `9c`. -/
  | string
  /-- In a command to the operating system, which ends with the bell. -/
  | command
deriving DecidableEq

/-- The character has a number between these two. -/
def isBetween (first last : Nat) (c : Char) : Bool := first ≤ c.toNat && c.toNat ≤ last

/-- The control is text. -/
def isLayout (c : Char) : Bool := c = '\t' || c = '\n' || c.toNat = 12 || c = '\r'

/-- The character is text where no sequence is about. -/
def isText (c : Char) : Bool := isLayout c || isBetween 0x20 0x7e c || 0x80 ≤ c.toNat

namespace Mode

/-- Where a text stands behind a character that is not shown. An escape begins a new sequence, and
two controls break off the one that is about. -/
def next (m : Mode) (c : Char) : Mode :=
  if c.toNat = 0x1b then .escape
  else if c.toNat = 0x18 ∨ c.toNat = 0x1a then .plain
  else
    match m with
    | .plain => .plain
    | .escape =>
      if isBetween 0x20 0x2f c then .marked
      else if c = '[' then .control
      else if c = ']' then .command
      else if c = 'P' then .device
      else if c = 'X' ∨ c = '^' ∨ c = '_' then .string
      else if isBetween 0x30 0x7e c then .plain
      else .escape
    | .marked => if isBetween 0x30 0x7e c then .plain else .marked
    | .control => if isBetween 0x40 0x7e c then .plain else .control
    | .device =>
      if isBetween 0x20 0x2f c then .deviceMarks
      else if isBetween 0x30 0x3f c then .deviceParameters
      else if isBetween 0x40 0x7e c then .string
      else .device
    | .deviceParameters =>
      if isBetween 0x20 0x2f c then .deviceMarks
      else if isBetween 0x3c 0x7e c then .string
      else .deviceParameters
    | .deviceMarks => if isBetween 0x30 0x7e c then .string else .deviceMarks
    | .string => if (String.utf8EncodeChar c).contains 0x9c then .plain else .string
    | .command => if c.toNat = 7 then .plain else .command

/-- The character is shown, where the one before it was not. -/
def shows (m : Mode) (c : Char) : Bool :=
  match m with
  | .plain => isText c
  | .escape | .marked | .control => isLayout c
  | _ => false

/-- The part of a text that is shown. `inText` tells that the character before it was. A character
outside of ASCII ends the sequence that text has interrupted. -/
def shown (m : Mode) (inText : Bool) : List Char → List Char
  | [] => []
  | c :: cs =>
    if if inText then isText c else m.shows c then
      c :: shown (if 0x80 ≤ c.toNat then .plain else m) true cs
    else shown (m.next c) false cs

end Mode

/-- The text without control characters and sequences. -/
def withoutControls (cs : List Char) : List Char := Mode.plain.shown true cs

end RwxScene.Text
