import RwxScene.Decimal.Shortest
import RwxScene.Text.Quoted

/-!
# JSON values

A value as it is read or written. Numbers keep the kind in which they came: an integer, a binary64
number that was read, or a scalar that is to be written. A text or number that is well formed and
yet stands for nothing (half of a surrogate pair, a number out of range) is `unusable`: it may stand
where nobody looks at it.
-/

namespace RwxScene.Json

/-- A number, by where it comes from. -/
inductive Number where
  | integer (n : Int)
  /-- Read, with a fraction or an exponent or too many digits. -/
  | double (x : Float)
  /-- To be written. -/
  | scalar (s : Scalar)

/-- A value. -/
inductive Value where
  | null
  | bool (b : Bool)
  | number (n : Number)
  | string (s : String)
  | array (elements : List Value)
  | object (fields : List (String × Value))
  | unusable

namespace Value

/-- A natural number. -/
def natural (n : Nat) : Value := number (.integer n)

/-- An integer. -/
def integer (n : Int) : Value := number (.integer n)

/-- A scalar; what is not finite is written as null. -/
def scalar (s : Scalar) : Value := if s.isFinite then number (.scalar s) else null

/-- A list, each element written in the same way. -/
def list {α : Type} (f : α → Value) (as : List α) : Value := array (as.map f)

/-- A value or null. -/
def option {α : Type} (f : α → Value) : Option α → Value
  | some a => f a
  | none => null

end Value

/-! ### Printing -/

/-- Scalars in JSON: an exponent below a millionth and from ten to the thirteenth on. -/
def scalarStyle : Decimal.Style := ⟨-6, 13, true, .toEven⟩

/-- The text of a number. A binary64 number is written as the nearest scalar. -/
def Number.print : Number → String
  | .integer n => toString n
  | .double x => String.ofList (scalarStyle.write (Scalar.ofDouble x))
  | .scalar s => String.ofList (scalarStyle.write s)

mutual

/-- The text of a value in one line. -/
def Value.compact : Value → String
  | .null => "null"
  | .bool b => if b then "true" else "false"
  | .number n => n.print
  | .string s => Text.Quoted.json s
  | .array vs => "[" ++ ",".intercalate (compactElements vs) ++ "]"
  | .object fs => "\x7b" ++ ",".intercalate (compactFields fs) ++ "\x7d"
  | .unusable => "null"

/-- The texts of elements. -/
def compactElements : List Value → List String
  | [] => []
  | v :: vs => v.compact :: compactElements vs

/-- The texts of fields. -/
def compactFields : List (String × Value) → List String
  | [] => []
  | (k, v) :: fs => (Text.Quoted.json k ++ ":" ++ v.compact) :: compactFields fs

end

/-- Lines between brackets, each indented and all but the last with a comma. -/
def block (opening closing : String) (indent : String) (lines : List String) : String :=
  if lines.isEmpty then opening ++ closing
  else
    opening ++ "\n" ++ ",\n".intercalate (lines.map fun l ↦ indent ++ "  " ++ l) ++ "\n" ++
      indent ++ closing

mutual

/-- The text of a value over several lines, the first of which begins after `indent`. -/
def Value.pretty (indent : String) : Value → String
  | .null => "null"
  | .bool b => if b then "true" else "false"
  | .number n => n.print
  | .string s => Text.Quoted.json s
  | .array vs => block "[" "]" indent (prettyElements (indent ++ "  ") vs)
  | .object fs => block "\x7b" "\x7d" indent (prettyFields (indent ++ "  ") fs)
  | .unusable => "null"

/-- The texts of elements. -/
def prettyElements (indent : String) : List Value → List String
  | [] => []
  | v :: vs => v.pretty indent :: prettyElements indent vs

/-- The texts of fields. -/
def prettyFields (indent : String) : List (String × Value) → List String
  | [] => []
  | (k, v) :: fs => (Text.Quoted.json k ++ ": " ++ v.pretty indent) :: prettyFields indent fs

end

end RwxScene.Json
