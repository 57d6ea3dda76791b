import RwxScene.Command.Basic

/-!
# Triangulation

A face with more than three corners is cut into a fan: every triangle has the first corner and two
neighbours. The winding of the face is that of its triangles.
-/

namespace RwxScene

/-- Three corners in their order of winding. -/
structure Triangle (α : Type) where
  first : α
  second : α
  third : α
deriving DecidableEq

namespace Triangle

variable {α β : Type}

def map (f : α → β) (t : Triangle α) : Triangle β := ⟨f t.first, f t.second, f t.third⟩

def toList (t : Triangle α) : List α := [t.first, t.second, t.third]

/-- The same triangle seen from behind. -/
def flip (t : Triangle α) : Triangle α := ⟨t.first, t.third, t.second⟩

@[simp] theorem length_toList (t : Triangle α) : t.toList.length = 3 := rfl

@[simp] theorem toList_map (f : α → β) (t : Triangle α) : (t.map f).toList = t.toList.map f := rfl

@[simp] theorem flip_flip (t : Triangle α) : t.flip.flip = t := rfl

/-- The triples of a list, in order; one or two elements at the end are left out. -/
def ofList : List α → List (Triangle α)
  | a :: b :: c :: l => ⟨a, b, c⟩ :: ofList l
  | _ => []

theorem ofList_flatMap_toList (ts : List (Triangle α)) : ofList (ts.flatMap toList) = ts := by
  induction ts with
  | nil => rfl
  | cons t ts ih => simp [toList, ofList, ih]

end Triangle

/-! ### Fans -/

/-- The triangles with corner `a` and two neighbours of a list. -/
def fanFrom {α : Type} (a : α) : List α → List (Triangle α)
  | b :: c :: l => ⟨a, b, c⟩ :: fanFrom a (c :: l)
  | _ => []

/-- The fan of a polygon. -/
def fan {α : Type} : List α → List (Triangle α)
  | [] => []
  | a :: l => fanFrom a l

theorem length_fanFrom {α : Type} (a : α) (l : List α) : (fanFrom a l).length = l.length - 1 := by
  induction l with
  | nil => rfl
  | cons b l ih =>
    cases l with
    | nil => rfl
    | cons c l => simp [fanFrom, ih]

/-- A polygon of `n` corners has `n - 2` triangles. -/
theorem length_fan {α : Type} (l : List α) : (fan l).length = l.length - 2 := by
  cases l with
  | nil => rfl
  | cons a l => simp [fan, length_fanFrom]

/-- The corners of a face that count; further ones are passed over. -/
def FaceShape.corners {α : Type} (shape : FaceShape) (l : List α) : List α :=
  match shape with
  | .triangle => l.take 3
  | .quad => l.take 4
  | .polygon => l

/-- The triangles of a face. -/
def FaceShape.triangulate {α : Type} (shape : FaceShape) (l : List α) : List (Triangle α) :=
  fan (shape.corners l)

end RwxScene
