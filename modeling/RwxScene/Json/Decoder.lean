import RwxScene.Json.Value
import RwxScene.Text.Vocabulary

/-!
# Decoding JSON

A `Decoder` makes something of a value, or nothing. It is handed the number of arrays and objects
that may still be entered, so that what is nested too deep is refused.

A record is an object with the names of its fields, in any order and with others between them that
are passed over; or an array of its fields in their order. A field may be *required*; it may be
*optional*, and is then absent where it is null or where an object has no such name; or it may have
a *default*, which stands for it where it is missing in either form.
-/

namespace RwxScene.Json

/-- Makes something of a value that has so many levels left to enter. -/
def Decoder (α : Type) : Type := Nat → Value → Option α

/-- The number of arrays and objects that may lie around a value. -/
def deepest : Nat := 127

namespace Decoder

variable {α β : Type}

/-! ### Single values -/

def bool : Decoder Bool := fun _ v ↦
  match v with
  | .bool b => some b
  | _ => none

def string : Decoder String := fun _ v ↦
  match v with
  | .string s => some s
  | _ => none

/-- An integer from `least` to `greatest`. -/
def integer (least greatest : Int) : Decoder Int := fun _ v ↦
  match v with
  | .number (.integer n) => if least ≤ n ∧ n ≤ greatest then some n else none
  | _ => none

/-- A natural number below `bound`. -/
def natural (bound : Nat) : Decoder Nat := fun _ v ↦
  match v with
  | .number (.integer n) => if 0 ≤ n ∧ n < bound then some n.toNat else none
  | _ => none

/-- The scalar nearest to a number. -/
def scalar : Decoder Scalar := fun _ v ↦
  match v with
  | .number (.integer n) => some (Float32.ofInt n)
  | .number (.double x) => some (.ofDouble x)
  | .number (.scalar s) => some s
  | _ => none

/-- A choice, as its word or as an object with that name alone, which is null. -/
def choice [Vocabulary α] : Decoder α := fun depth v ↦
  match v with
  | .string s => Vocabulary.ofWord? s
  | .object [(s, .null)] => if depth = 0 then none else Vocabulary.ofWord? s
  | _ => none

/-- Something or null. -/
def option (d : Decoder α) : Decoder (Option α) := fun depth v ↦
  match v with
  | .null => some none
  | v => (d depth v).map some

/-- The elements of an array. -/
def list (d : Decoder α) : Decoder (List α) := fun depth v ↦
  match depth, v with
  | depth + 1, .array vs => vs.mapM (d depth)
  | _, _ => none

/-! ### Records -/

/-- The fields of a record as they were found. -/
structure Fields where
  /-- Found by their place in an array. -/
  byPlace : Bool
  found : List (String × Value)
  /-- The levels left inside the record. -/
  depth : Nat

namespace Fields

def required (r : Fields) (name : String) (d : Decoder α) : Option α :=
  (r.found.lookup name).bind (d r.depth)

def optional (r : Fields) (name : String) (d : Decoder α) : Option (Option α) :=
  match r.found.lookup name with
  | some v => option d r.depth v
  | none => if r.byPlace then none else some none

def withDefault (r : Fields) (name : String) (fallback : α) (d : Decoder α) : Option α :=
  match r.found.lookup name with
  | some v => d r.depth v
  | none => some fallback

end Fields

/-- None of the names occurs twice. -/
def distinct (names : List String) (fields : List (String × Value)) : Bool :=
  names.all fun name ↦ (fields.filter (·.1 == name)).length ≤ 1

/-- A record with these names of fields. -/
def record (names : List String) (build : Fields → Option α) : Decoder α := fun depth v ↦
  match depth, v with
  | depth + 1, .object fields =>
    if distinct names fields then build ⟨false, fields, depth⟩ else none
  | depth + 1, .array vs =>
    if vs.length ≤ names.length then build ⟨true, names.zip vs, depth⟩ else none
  | _, _ => none

end Decoder

end RwxScene.Json
