import RwxScene.Scalar

/-!
# Decimals of fixed length

`fixed places x` writes a scalar with a set number of digits after the point. The exact binary value
is rounded once, a half to the even neighbour. A sign is kept also where every digit written is
zero.
-/

namespace RwxScene.Decimal

open Float.Model Float.Model.UnpackedFloat

/-- The quotient rounded to the nearest natural number, a half to the even neighbour. -/
def roundQuotient (a b : Nat) : Nat :=
  let q := a / b
  let twice := 2 * (a % b)
  if twice < b ∨ (twice = b ∧ q % 2 = 0) then q else q + 1

/-- The multiple of `10 ^ -places` nearest to `m * 2 ^ e`, counted in those units. -/
def scaled (places m : Nat) (e : Int) : Nat :=
  roundQuotient (m * Nat.pow 10 places * Nat.pow 2 e.toNat) (Nat.pow 2 (-e).toNat)

/-- Digits on both sides of a point that has `places` digits behind it. -/
def insertPoint (places n : Nat) : List Char :=
  let fraction := Nat.toDigits 10 (n % Nat.pow 10 places)
  Nat.toDigits 10 (n / Nat.pow 10 places) ++
    '.' :: (List.replicate (places - fraction.length) '0' ++ fraction)

/-- A minus sign in front of a negative number. -/
def signed (sign : Sign) (cs : List Char) : List Char :=
  match sign with
  | .positive => cs
  | .negative => '-' :: cs

/-- The scalar with `places` digits after the point. -/
def fixed (places : Nat) (x : Scalar) : List Char :=
  match x.toModel.unpack with
  | .notANumber => ['N', 'a', 'N']
  | .infinity s => signed s ['i', 'n', 'f']
  | .zero s => signed s (insertPoint places 0)
  | .finite s m e _ => signed s (insertPoint places (scaled places m e))

end RwxScene.Decimal
