/-!
# Scalars

Every length, angle, colour and coefficient of a scene is a binary32 number, and all arithmetic on
them is the plain rounded arithmetic of that format, in the order in which a formula is written.
Four operations are given here because their rule is not settled by the arithmetic alone.

* `min` and `max` pass over an operand that is not a number when the other one is a number. Of two
  equal operands they keep the left one, so the sign of a zero is that of the operand met first.
* `clampUnit` compares and nothing else, so what is not a number and a negative zero stay.
* `ofDouble` rounds once, to the nearest scalar, and keeps the sign of what becomes zero.
* `ofDegrees` is one multiplication by the binary32 number nearest to `π / 180`.
-/

namespace RwxScene

/-- A binary32 number. -/
abbrev Scalar := Float32

namespace Scalar

/-- The largest finite scalar. -/
def largest : Scalar := Float32.ofBits 0x7f7fffff

/-- The smallest finite scalar. -/
def smallest : Scalar := Float32.ofBits 0xff7fffff

/-- The lesser operand; one that is not a number is passed over. -/
def min (a b : Scalar) : Scalar :=
  if a.isNaN then b else if b < a then b else a

/-- The greater operand; one that is not a number is passed over. -/
def max (a b : Scalar) : Scalar :=
  if a.isNaN then b else if a < b then b else a

/-- The nearest point of the unit interval. -/
def clampUnit (a : Scalar) : Scalar :=
  if a < 0 then 0 else if 1 < a then 1 else a

/-- The scalar nearest to a binary64 number, ties to even; infinite where that is out of range. -/
def ofDouble (x : Float) : Scalar :=
  .ofModel <| .pack <|
    match x.toModel.unpack with
    | .finite sign mantissa exponent _ => .round .binary32 sign mantissa exponent
    | u => u

/-- The factor from degrees to radians. -/
def radiansPerDegree : Scalar := Float32.ofBits 0x3c8efa35

/-- An angle in radians. -/
def ofDegrees (degrees : Scalar) : Scalar := degrees * radiansPerDegree

end Scalar

end RwxScene
