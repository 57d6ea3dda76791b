/-!
# UTF-8

Bytes that are no UTF-8 are refused with the place and kind of the first fault. A sequence is faulty
from its first byte on; its length counts the bytes that a correct sequence could still begin with.
-/

namespace RwxScene.Text.Utf8

/-! ### The shape of a sequence -/

/-- Bytes from `least` to `greatest`. -/
structure Range where
  least : UInt8
  greatest : UInt8
deriving DecidableEq

def Range.contains (r : Range) (b : UInt8) : Bool := r.least ≤ b && b ≤ r.greatest

/-- Any byte that continues a sequence. -/
def continuation : Range := ⟨0x80, 0xbf⟩

/-- The bytes that have to follow a first byte; the second one is narrowed where a longer form than
needed, a surrogate or a number beyond the last character would begin. -/
def following (b : UInt8) : Option (List Range) :=
  if b < 0x80 then some []
  else if b < 0xc2 then none
  else if b < 0xe0 then some [continuation]
  else if b < 0xf0 then
    let second : Range :=
      if b = 0xe0 then ⟨0xa0, 0xbf⟩ else if b = 0xed then ⟨0x80, 0x9f⟩ else continuation
    some [second, continuation]
  else if b < 0xf5 then
    let second : Range :=
      if b = 0xf0 then ⟨0x90, 0xbf⟩ else if b = 0xf4 then ⟨0x80, 0x8f⟩ else continuation
    some [second, continuation, continuation]
  else none

/-! ### Faults -/

/-- Why bytes are no text. -/
inductive Fault where
  /-- The `length` bytes from `index` begin no sequence, or are followed by a byte that does not
  continue them. -/
  | invalid (length index : Nat)
  /-- The bytes end within the sequence that begins at `index`. -/
  | incomplete (index : Nat)
deriving DecidableEq

def Fault.message : Fault → String
  | .invalid length index =>
    "invalid utf-8 sequence of " ++ toString length ++ " bytes from index " ++ toString index
  | .incomplete index => "incomplete utf-8 byte sequence from index " ++ toString index

/-- The first fault of some bytes. The current sequence begins at `start`, and after `seen` of its
bytes those in `ranges` are to come. -/
def firstFault (start seen : Nat) (ranges : List Range) : List UInt8 → Option Fault
  | [] => if seen = 0 then none else some (.incomplete start)
  | b :: bs =>
    match ranges with
    | [] =>
      match following b with
      | none => some (.invalid 1 start)
      | some [] => firstFault (start + 1) 0 [] bs
      | some ranges => firstFault start 1 ranges bs
    | r :: rs =>
      if !r.contains b then some (.invalid seen start)
      else if rs.isEmpty then firstFault (start + seen + 1) 0 [] bs
      else firstFault start (seen + 1) rs bs

/-- The text of some bytes. -/
def decode (bytes : ByteArray) : Except Fault String :=
  match String.fromUTF8? bytes with
  | some s => .ok s
  | none => .error ((firstFault 0 0 [] bytes.toList).getD (.incomplete bytes.size))

end RwxScene.Text.Utf8
