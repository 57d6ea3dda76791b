import RwxScene.Decimal.Numeral
import RwxScene.Json.Value

/-!
# Reading JSON

`read?` reads a text that is one value with blanks around it and refuses all else.

Numbers are taken as binary64 numbers in a way that is fast rather than exact: digits are gathered
as long as they fit in sixty-four bits, the others only count, and the significand is multiplied or
divided by a power of ten.
-/

namespace RwxScene.Json

open Decimal (digitValue spanDigits takeSign ofDigits)

/-! ### Numbers -/

/-- Gathers digits into a number of sixty-four bits. Returns it with the number of digits gathered
and what follows them, which begins with a digit if the next one does not fit. -/
def gather (significand count : Nat) : List Char → Nat × Nat × List Char
  | [] => (significand, count, [])
  | c :: cs =>
    let next := 10 * significand + digitValue c
    if c.isDigit ∧ next < UInt64.size then gather next (count + 1) cs else (significand, count, c :: cs)

/-- The greatest power of ten that a binary64 number is multiplied or divided by at once. -/
def greatestPower : Nat := 308

/-- The power of ten as a binary64 number. -/
def powerOfTen (k : Nat) : Float := Float.ofScientific 1 false k

/-- Divides by a power of ten, in steps if it is too great for one. A zero stays zero. -/
def divide (x : Float) (k : Nat) : Float :=
  if k ≤ greatestPower then x / powerOfTen k
  else if x == 0 then x
  else divide (x / powerOfTen greatestPower) (k - greatestPower)
termination_by k
decreasing_by simp_all [greatestPower]; omega

/-- The number `significand * 10 ^ exponent`, unless it is out of range. -/
def assemble? (significand : Nat) (exponent : Int) : Option Float :=
  let x := Float.ofNat significand
  if exponent < 0 then some (divide x exponent.natAbs)
  else if exponent.natAbs ≤ greatestPower then
    let y := x * powerOfTen exponent.natAbs
    if y.isInf then none else some y
  else if x == 0 then some x
  else none

/-- A number with a sign, or `unusable` if it is out of range. -/
def signedDouble (negative : Bool) : Option Float → Value
  | none => .unusable
  | some x => .number (.double (if negative then -x else x))

/-- A power of ten in an exponent is kept below this. -/
def exponentBound : Nat := Nat.pow 2 31

/-- The power of ten behind a number, and what follows it. -/
def exponentPart? (cs : List Char) : Option (Option Int × List Char) :=
  match cs with
  | [] => some (none, [])
  | c :: rest =>
    if c = 'e' ∨ c = 'E' then
      let (negative, rest) := takeSign rest
      let (ds, rest) := spanDigits rest
      if ds.isEmpty then none
      else
        let e : Int := ofDigits ds
        some (some (if negative then -e else e), rest)
    else some (none, cs)

/-- A number from its parts. An exponent that is far out of range makes any number zero or unusable.
-/
def number (negative : Bool) (significand : Nat) (before : Int) (exponent : Int) : Value :=
  if exponentBound ≤ exponent.natAbs then
    if exponent < 0 ∨ significand = 0 then signedDouble negative (some 0) else .unusable
  else signedDouble negative (assemble? significand (before + exponent))

/-- An integer, or a binary64 number where sixty-four bits do not hold it. A minus sign in front of
zero is kept by the latter. -/
def wholeNumber (negative : Bool) (significand : Nat) : Value :=
  if !negative then .natural significand
  else if 0 < significand ∧ significand ≤ Nat.pow 2 63 then .integer (-significand)
  else signedDouble true (some (Float.ofNat significand))

/-- The number whose first digits have been gathered, and what follows it. -/
def numberAfter? (negative : Bool) (significand : Nat) (cs : List Char) :
    Option (Value × List Char) :=
  let (surplus, cs) := spanDigits cs
  match cs with
  | '.' :: rest =>
    let (significand, count, rest) := gather significand 0 rest
    let (ignored, rest) := spanDigits rest
    if count = 0 && ignored.isEmpty then none
    else
      match exponentPart? rest with
      | none => none
      | some (e, rest) =>
        some (number negative significand (surplus.length - count) (e.getD 0), rest)
  | _ =>
    match exponentPart? cs with
    | none => none
    | some (some e, rest) => some (number negative significand surplus.length e, rest)
    | some (none, rest) =>
      if surplus.isEmpty then some (wholeNumber negative significand, rest)
      else some (number negative significand surplus.length 0, rest)

/-- A number without its sign, and what follows it. A zero in front of other digits is refused. -/
def magnitude? (negative : Bool) : List Char → Option (Value × List Char)
  | [] => none
  | c :: cs =>
    if c = '0' then
      match cs with
      | d :: _ => if d.isDigit then none else numberAfter? negative 0 cs
      | [] => numberAfter? negative 0 cs
    else if c.isDigit then
      let (significand, _, rest) := gather (digitValue c) 1 cs
      numberAfter? negative significand rest
    else none

/-- A number and what follows it. -/
def number? : List Char → Option (Value × List Char)
  | '-' :: cs => magnitude? true cs
  | cs => magnitude? false cs

/-! ### Texts -/

/-- The value of a digit in base sixteen. -/
def hexValue? (c : Char) : Option Nat :=
  if c.isDigit then some (digitValue c)
  else if 'a' ≤ c ∧ c ≤ 'f' then some (c.toNat - 87)
  else if 'A' ≤ c ∧ c ≤ 'F' then some (c.toNat - 55)
  else none

/-- Four digits in base sixteen. -/
def fourHex? (a b c d : Char) : Option Nat := do
  return 4096 * (← hexValue? a) + 256 * (← hexValue? b) + 16 * (← hexValue? c) + (← hexValue? d)

/-- The character that a short escape stands for. -/
def shortEscape? (c : Char) : Option Char :=
  if c = '"' ∨ c = '\\' ∨ c = '/' then some c
  else if c = 'b' then some (Char.ofNat 8)
  else if c = 'f' then some (Char.ofNat 12)
  else if c = 'n' then some '\n'
  else if c = 'r' then some '\r'
  else if c = 't' then some '\t'
  else none

/-- What a text is made of: units of sixteen bits where it says so, characters elsewhere. -/
inductive Unit16 where
  | char (c : Char)
  | unit (n : Nat)

/-- The pieces of a text up to the closing quote, and what follows it. -/
def pieces? : List Char → Option (List Unit16 × List Char)
  | [] => none
  | '"' :: rest => some ([], rest)
  | '\\' :: 'u' :: a :: b :: c :: d :: rest => do
    let n ← fourHex? a b c d
    let (us, rest) ← pieces? rest
    return (.unit n :: us, rest)
  | '\\' :: c :: rest => do
    let c ← shortEscape? c
    let (us, rest) ← pieces? rest
    return (.char c :: us, rest)
  | c :: rest =>
    if c.toNat < 0x20 ∨ c = '\\' then none
    else do
      let (us, rest) ← pieces? rest
      return (.char c :: us, rest)

/-- The characters of a text, unless half of a surrogate pair stands alone. -/
def join? : List Unit16 → Option (List Char)
  | [] => some []
  | .char c :: us => (join? us).map (c :: ·)
  | .unit n :: .unit m :: us =>
    if 0xd800 ≤ n ∧ n < 0xdc00 then
      if 0xdc00 ≤ m ∧ m < 0xe000 then
        (join? us).map (Char.ofNat (0x10000 + 1024 * (n - 0xd800) + (m - 0xdc00)) :: ·)
      else none
    else if 0xdc00 ≤ n ∧ n < 0xe000 then none
    else (join? (.unit m :: us)).map (Char.ofNat n :: ·)
  | .unit n :: us => if 0xd800 ≤ n ∧ n < 0xe000 then none else (join? us).map (Char.ofNat n :: ·)

/-- The text behind an opening quote, if it stands for characters, and what follows it. -/
def text? (cs : List Char) : Option (Option String × List Char) :=
  (pieces? cs).map fun (us, rest) ↦ ((join? us).map String.ofList, rest)

/-! ### Values -/

/-- The text from its first character on that is no blank of JSON. -/
def skip (cs : List Char) : List Char :=
  cs.dropWhile fun c ↦ c = ' ' ∨ c = '\n' ∨ c = '\t' ∨ c = '\r'

/-- The fields of an object; unusable if a name is. -/
def objectOf (fields : List (Option String × Value)) : Value :=
  match fields.mapM fun (k, v) ↦ k.map (·, v) with
  | some fields => .object fields
  | none => .unusable

mutual

/-- A value and what follows it. -/
def value? : Nat → List Char → Option (Value × List Char)
  | 0, _ => none
  | fuel + 1, cs =>
    match skip cs with
    | 'n' :: 'u' :: 'l' :: 'l' :: rest => some (.null, rest)
    | 't' :: 'r' :: 'u' :: 'e' :: rest => some (.bool true, rest)
    | 'f' :: 'a' :: 'l' :: 's' :: 'e' :: rest => some (.bool false, rest)
    | '"' :: rest => (text? rest).map fun (s, rest) ↦ (s.elim .unusable .string, rest)
    | '[' :: rest =>
      match skip rest with
      | ']' :: rest => some (.array [], rest)
      | rest => elements? fuel [] rest
    | '{' :: rest =>
      match skip rest with
      | '}' :: rest => some (.object [], rest)
      | rest => fields? fuel [] rest
    | rest => number? rest

/-- The elements of an array after those in `done`, which are in reverse. -/
def elements? : Nat → List Value → List Char → Option (Value × List Char)
  | 0, _, _ => none
  | fuel + 1, done, cs =>
    match value? fuel cs with
    | none => none
    | some (v, rest) =>
      match skip rest with
      | ']' :: rest => some (.array (v :: done).reverse, rest)
      | ',' :: rest => elements? fuel (v :: done) rest
      | _ => none

/-- The fields of an object after those in `done`, which are in reverse. -/
def fields? : Nat → List (Option String × Value) → List Char → Option (Value × List Char)
  | 0, _, _ => none
  | fuel + 1, done, cs =>
    match skip cs with
    | '"' :: rest =>
      match text? rest with
      | none => none
      | some (k, rest) =>
        match skip rest with
        | ':' :: rest =>
          match value? fuel rest with
          | none => none
          | some (v, rest) =>
            match skip rest with
            | '}' :: rest => some (objectOf ((k, v) :: done).reverse, rest)
            | ',' :: rest => fields? fuel ((k, v) :: done) rest
            | _ => none
        | _ => none
    | _ => none

end

/-- Reads a text that is one value. Between two steps without a character read lies at most one. -/
def read? (cs : List Char) : Option Value :=
  match value? (2 * cs.length + 2) cs with
  | some (v, rest) => if (skip rest).isEmpty then some v else none
  | none => none

end RwxScene.Json
