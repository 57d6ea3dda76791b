import RwxScene.Text.Unseen

/-!
# Quoted text

Two forms of text between double quotes.

* `json` escapes the quote, the backslash and the control characters below the blank, and leaves all
  else.
* `literal` also escapes every character that would not be seen, by its number.
-/

namespace RwxScene.Text.Quoted

/-- The digits of `n` in base sixteen, at least `width` of them. -/
def hex (width n : Nat) : List Char :=
  let ds := Nat.toDigits 16 n
  List.replicate (width - ds.length) '0' ++ ds

/-- A text between double quotes, each character escaped. -/
def enclose (escape : Char → List Char) (cs : List Char) : List Char :=
  '"' :: (cs.flatMap escape ++ ['"'])

/-! ### The form of JSON -/

def escapeJson (c : Char) : List Char :=
  if c = '"' then ['\\', '"']
  else if c = '\\' then ['\\', '\\']
  else if 0x20 ≤ c.toNat then [c]
  else if c = '\n' then ['\\', 'n']
  else if c = '\r' then ['\\', 'r']
  else if c = '\t' then ['\\', 't']
  else if c.toNat = 8 then ['\\', 'b']
  else if c.toNat = 12 then ['\\', 'f']
  else '\\' :: 'u' :: hex 4 c.toNat

/-- The text as a string of JSON. -/
def json (s : String) : String := String.ofList (enclose escapeJson s.toList)

/-! ### The form of a literal -/

def escapeLiteral (c : Char) : List Char :=
  if c = '"' then ['\\', '"']
  else if c = '\\' then ['\\', '\\']
  else if c = '\n' then ['\\', 'n']
  else if c = '\r' then ['\\', 'r']
  else if c = '\t' then ['\\', 't']
  else if c.toNat = 0 then ['\\', '0']
  else if isUnseen c then '\\' :: 'u' :: '{' :: (hex 1 c.toNat ++ ['}'])
  else [c]

/-- The text as a literal. -/
def literal (s : String) : String := String.ofList (enclose escapeLiteral s.toList)

end RwxScene.Text.Quoted
