import RwxScene.Decimal.Fixed

/-!
# Shortest decimals

The shortest decimal of a finite scalar is the number with the fewest digits among those that round
to it, and of several the one nearest to it.

`Interval` holds the numbers that round to a scalar. The search goes over grids of powers of ten
from coarse to fine: the first grid with a point in the interval gives the fewest digits, and of its
points only the two neighbours of the scalar can be nearest. `Style` then says how the digits are
set.
-/

namespace RwxScene.Decimal

open Float.Model Float.Model.UnpackedFloat

/-! ### Digits -/

/-- The numbers from `least * 2 ^ scale` to `greatest * 2 ^ scale` round to `value * 2 ^ scale`; the
ends do so only if `closed` holds. -/
structure Interval where
  least : Nat
  value : Nat
  greatest : Nat
  scale : Int
  closed : Bool
deriving DecidableEq

/-- The interval of the binary32 number `m * 2 ^ e`. Below a power of two the neighbour is only half
as far, unless it is subnormal. An end is a tie, which goes to the even significand. -/
def Interval.of (m : Nat) (e : Int) : Interval where
  least := if m = Nat.pow 2 23 ∧ -149 < e then 4 * m - 1 else 4 * m - 2
  value := 4 * m
  greatest := 4 * m + 2
  scale := e - 2
  closed := m % 2 = 0

/-- Where two decimals of the same length are equally near. -/
inductive Tie where
  /-- The greater one is taken. -/
  | away
  /-- The one with an even last digit is taken. -/
  | toEven
deriving DecidableEq

/-- The point of the grid `10 ^ k` that is nearest to the value, if a point lies in the interval. -/
def Interval.gridPoint? (i : Interval) (tie : Tie) (k : Int) : Option Nat :=
  let stretch := Nat.pow 2 i.scale.toNat * Nat.pow 10 (-k).toNat
  let unit := Nat.pow 10 k.toNat * Nat.pow 2 (-i.scale).toNat
  let value := i.value * stretch
  let least := i.least * stretch
  let greatest := i.greatest * stretch
  let low := value / unit
  let high := low + 1
  let lowFits := if i.closed then least ≤ low * unit else least < low * unit
  let highFits := if i.closed then high * unit ≤ greatest else high * unit < greatest
  let twice := 2 * (value % unit)
  if lowFits ∧ highFits then
    if twice < unit ∨ (twice = unit ∧ tie = .toEven ∧ low % 2 = 0) then some low else some high
  else if lowFits then some low
  else if highFits then some high
  else none

/-- The number `digits * 10 ^ exponent`. -/
structure Digits where
  digits : Nat
  exponent : Int
deriving DecidableEq

/-- The first grid point on the way from `10 ^ k` down, for `steps` grids. -/
def Interval.search (i : Interval) (tie : Tie) (k : Int) : Nat → Option Digits
  | 0 => none
  | steps + 1 =>
    match i.gridPoint? tie k with
    | some d => some ⟨d, k⟩
    | none => i.search tie (k - 1) steps

/-- The shortest decimal of the binary32 number `m * 2 ^ e`. From `10 ^ 38` down to `10 ^ -46` there
is a grid with a point in every interval. -/
def shortest (tie : Tie) (m : Nat) (e : Int) : Digits :=
  ((Interval.of m e).search tie 38 85).getD ⟨0, 0⟩

/-! ### Setting the digits -/

/-- How a decimal is set. -/
structure Style where
  /-- The least power of ten of a leading digit that is written without an exponent. -/
  least : Int
  /-- From this power of ten on an exponent is written. -/
  bound : Int
  /-- An exponent that is not negative has a plus sign. -/
  plus : Bool
  tie : Tie
deriving DecidableEq

/-- Digits with a point after the first one, if more than one. -/
def pointed : List Char → List Char
  | [] => []
  | [d] => [d]
  | d :: ds => d :: '.' :: ds

/-- The exponent of a leading digit. -/
def Style.exponent (s : Style) (k : Int) : List Char :=
  let sign := if k < 0 then ['-'] else if s.plus then ['+'] else []
  'e' :: (sign ++ Nat.toDigits 10 k.natAbs)

/-- The decimal `ds * 10 ^ k` without an exponent, with at least one digit on both sides of the
point. -/
def positional (ds : List Char) (k : Int) : List Char :=
  if 0 ≤ k then ds ++ List.replicate k.toNat '0' ++ ['.', '0']
  else
    let places := (-k).toNat
    if places < ds.length then ds.take (ds.length - places) ++ '.' :: ds.drop (ds.length - places)
    else '0' :: '.' :: (List.replicate (places - ds.length) '0' ++ ds)

/-- A decimal in the style `s`. -/
def Style.set (s : Style) (d : Digits) : List Char :=
  let ds := Nat.toDigits 10 d.digits
  let leading := d.exponent + ds.length - 1
  if s.least ≤ leading ∧ leading < s.bound then positional ds d.exponent
  else pointed ds ++ s.exponent leading

/-- The shortest decimal of a scalar in the style `s`. -/
def Style.write (s : Style) (x : Scalar) : List Char :=
  match x.toModel.unpack with
  | .notANumber => ['N', 'a', 'N']
  | .infinity sign => signed sign ['i', 'n', 'f']
  | .zero sign => signed sign ['0', '.', '0']
  | .finite sign m e _ => signed sign (s.set (shortest s.tie m e))

end RwxScene.Decimal
