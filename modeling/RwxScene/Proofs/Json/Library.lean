import Mathlib
import RwxScene.Json.Decoder

/-!
# Libraries of JSON

A library prints values as texts and reads texts as values. What models need of it is said in
`Library.Documented` and of no particular library: a printed value is read again, but for its
scalars. Where a scalar was printed some number is found, and what a decoder makes of that number is
the scalar again if it lasts at all (`Decoder.Lasts`).
-/

namespace RwxScene.Json

/-- The scalar is finite, and a decoder finds it again in the number that is read where it was
printed. -/
structure Decoder.Lasts (found : Scalar → Value) (s : Scalar) : Prop where
  finite : s.isFinite = true
  survives : Decoder.scalar 0 (found s) = some s

namespace Value

variable (found : Scalar → Value)

mutual

/-- What is read where a value was printed, if these numbers are found where scalars were. -/
def reread : Value → Value
  | null => null
  | bool b => bool b
  | number (.integer n) => number (.integer n)
  | number (.double x) => found (.ofDouble x)
  | number (.scalar s) => found s
  | string s => string s
  | array vs => array (rereadElements vs)
  | object fs => object (rereadFields fs)
  | unusable => null

/-- What is read where elements were printed. -/
def rereadElements : List Value → List Value
  | [] => []
  | v :: vs => v.reread :: rereadElements vs

/-- What is read where fields were printed. -/
def rereadFields : List (String × Value) → List (String × Value)
  | [] => []
  | (k, v) :: fs => (k, v.reread) :: rereadFields fs

end

@[simp] theorem reread_array (vs : List Value) :
    (array vs).reread found = array (vs.map (reread found)) := by
  have helements : ∀ vs : List Value, rereadElements found vs = vs.map (reread found) := by
    intro vs
    induction vs with
    | nil => rfl
    | cons v vs ih => rw [rereadElements, ih, List.map_cons]
  rw [reread, helements]

@[simp] theorem reread_object (fs : List (String × Value)) :
    (object fs).reread found = object (fs.map fun f ↦ (f.1, f.2.reread found)) := by
  have hfields : ∀ fs : List (String × Value),
      rereadFields found fs = fs.map fun f ↦ (f.1, f.2.reread found) := by
    intro fs
    induction fs with
    | nil => rfl
    | cons f fs ih => rw [rereadFields, ih, List.map_cons]
  rw [reread, hfields]

/-- The value has a text from which it can be read: integers have sixty-four bits, and scalars
last. -/
inductive Printable : Value → Prop
  | null : Printable null
  | bool (b : Bool) : Printable (bool b)
  | integer {n : ℤ} (hleast : -2 ^ 63 ≤ n) (hgreatest : n < 2 ^ 64) :
    Printable (number (.integer n))
  | scalar {s : Scalar} (h : Decoder.Lasts found s) : Printable (number (.scalar s))
  | string (s : String) : Printable (string s)
  | array {vs : List Value} (h : ∀ v ∈ vs, v.Printable) : Printable (array vs)
  | object {fs : List (String × Value)} (h : ∀ f ∈ fs, f.2.Printable) : Printable (object fs)

end Value

/-- A library that prints and reads values. -/
structure Library where
  /-- The text of a value. -/
  print : Value → String
  /-- The value that a text is, if it is one. -/
  read? : String → Option Value
  /-- How many arrays and objects a decoder may enter inside one another. -/
  limit : ℕ

/-- What is documented of a library. -/
structure Library.Documented (library : Library) (found : Scalar → Value) : Prop where
  /-- Texts, integers and lasting scalars survive printing and reading, and so does what is made of
  them. -/
  read?_print : ∀ v : Value, v.Printable found →
    library.read? (library.print v) = some (v.reread found)
  /-- Of one hundred and twenty-eight levels the last may not be entered. -/
  limit_eq : library.limit = 127

end RwxScene.Json
