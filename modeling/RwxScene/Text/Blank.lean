/-!
# Blanks, words and case

The characters that part words are those with the property `White_Space`. Words are the longest runs
of other characters. Case is told apart for the letters of ASCII only.
-/

namespace RwxScene.Text

/-! ### Blanks -/

/-- The character has the property `White_Space`. -/
def isBlank (c : Char) : Bool :=
  let n := c.toNat
  (9 ≤ n && n ≤ 13) || n == 0x20 || n == 0x85 || n == 0xa0 || n == 0x1680 ||
    (0x2000 ≤ n && n ≤ 0x200a) || n == 0x2028 || n == 0x2029 || n == 0x202f || n == 0x205f ||
    n == 0x3000

/-- The text without the blanks at both ends. -/
def trim (cs : List Char) : List Char :=
  ((cs.dropWhile isBlank).reverse.dropWhile isBlank).reverse

/-- The text without the blanks at both ends. -/
def trimmed (s : String) : String := String.ofList (trim s.toList)

/-! ### Words -/

/-- The longest runs of characters that are not blank, in order. -/
def runs : List Char → List (List Char)
  | [] => []
  | c :: cs =>
    if isBlank c then runs cs
    else
      match cs, runs cs with
      | d :: _, w :: ws => if isBlank d then [c] :: w :: ws else (c :: w) :: ws
      | _, ws => [c] :: ws

/-- The words of a text. -/
def words (cs : List Char) : List String := (runs cs).map String.ofList

/-! ### Case -/

/-- The text with the capitals of ASCII made small. -/
def lower (s : String) : String := String.ofList (s.toList.map Char.toLower)

/-- Whether `needle` stands somewhere in `hay`. -/
def occursIn (needle : List Char) : List Char → Bool
  | [] => needle.isEmpty
  | c :: cs => needle.isPrefixOf (c :: cs) || occursIn needle cs

end RwxScene.Text
