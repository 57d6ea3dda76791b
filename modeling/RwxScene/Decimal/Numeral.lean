import RwxScene.Scalar

/-!
# Decimal numerals

A numeral is an optional sign, digits with at most one point among them, and an optional exponent.
`Numeral.read?` accepts exactly this and keeps the number in three integers, so that no digit is
lost before the one rounding of `Numeral.toScalar` (or of `Numeral.toDouble`, for formats whose
numbers are binary64).

Integers have a grammar of their own: a sign and digits, within bounds.
-/

namespace RwxScene.Decimal

/-! ### Digits -/

/-- The value of a digit. -/
def digitValue (c : Char) : Nat := c.toNat - 48

/-- The number that a row of digits writes. -/
def ofDigits (ds : List Char) : Nat := ds.foldl (fun n c ↦ 10 * n + digitValue c) 0

/-- A row of digits and what follows it. -/
def spanDigits (cs : List Char) : List Char × List Char :=
  (cs.takeWhile Char.isDigit, cs.dropWhile Char.isDigit)

theorem spanDigits_append (cs : List Char) : (spanDigits cs).1 ++ (spanDigits cs).2 = cs :=
  List.takeWhile_append_dropWhile

/-- Whether a sign says minus, and what follows it. -/
def takeSign : List Char → Bool × List Char
  | '-' :: cs => (true, cs)
  | '+' :: cs => (false, cs)
  | cs => (false, cs)

/-! ### Numerals -/

/-- The number `digits * 10 ^ exponent`, with a sign that a zero keeps. -/
structure Numeral where
  negative : Bool
  digits : Nat
  exponent : Int
deriving DecidableEq

namespace Numeral

/-- The power of ten that ends a numeral; nothing at all stands for the zeroth. -/
def readExponent? : List Char → Option Int
  | [] => some 0
  | c :: cs =>
    if c = 'e' ∨ c = 'E' then
      let (negative, ds) := takeSign cs
      if ds.isEmpty || !ds.all Char.isDigit then none
      else some (if negative then -(ofDigits ds : Int) else ofDigits ds)
    else none

/-- Reads a numeral and refuses all else. -/
def read? (cs : List Char) : Option Numeral :=
  let (negative, cs) := takeSign cs
  let (whole, cs) := spanDigits cs
  let (fraction, cs) :=
    match cs with
    | '.' :: cs => spanDigits cs
    | cs => ([], cs)
  if whole.isEmpty && fraction.isEmpty then none
  else (readExponent? cs).map fun e ↦ ⟨negative, ofDigits (whole ++ fraction), e - fraction.length⟩

/-- The nearest scalar, ties to even; infinite where the number is out of range. -/
def toScalar (n : Numeral) : Scalar :=
  let magnitude := Float32.ofScientific n.digits (n.exponent < 0) n.exponent.natAbs
  if n.negative then -magnitude else magnitude

/-- The nearest binary64 number, ties to even; infinite where the number is out of range. -/
def toDouble (n : Numeral) : Float :=
  let magnitude := Float.ofScientific n.digits (n.exponent < 0) n.exponent.natAbs
  if n.negative then -magnitude else magnitude

end Numeral

/-! ### Integers -/

/-- Digits and nothing else. -/
def readDigits? (cs : List Char) : Option Nat :=
  if cs.isEmpty || !cs.all Char.isDigit then none else some (ofDigits cs)

/-- An integer with an optional sign, from `least` to `greatest`. -/
def readInteger? (least greatest : Int) (cs : List Char) : Option Int := do
  let (negative, ds) := takeSign cs
  let magnitude ← readDigits? ds
  let n : Int := if negative then -magnitude else magnitude
  if least ≤ n ∧ n ≤ greatest then some n else none

/-- A natural number below `bound`; a plus sign may precede it, a minus sign may not. -/
def readNatural? (bound : Nat) (cs : List Char) : Option Nat := do
  let ds :=
    match cs with
    | '+' :: ds => ds
    | ds => ds
  let n ← readDigits? ds
  if n < bound then some n else none

end RwxScene.Decimal
