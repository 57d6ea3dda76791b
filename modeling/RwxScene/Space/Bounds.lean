import RwxScene.Space.Vector

/-!
# Bounds

An axis-aligned box. The empty box is inverted: its least corner is the largest finite point and its
greatest corner the smallest, so the first point it is grown by becomes both corners.
-/

namespace RwxScene

/-- An axis-aligned box. -/
structure Bounds where
  min : Vec3
  max : Vec3
deriving DecidableEq

namespace Bounds

/-- The box without points. -/
def empty : Bounds := ⟨.splat .largest, .splat .smallest⟩

/-- The least box that holds `b` and `p`. -/
def grow (b : Bounds) (p : Vec3) : Bounds := ⟨b.min.min p, b.max.max p⟩

/-- The least box around some points. -/
def ofPoints (points : List Vec3) : Bounds := points.foldl grow empty

/-- The least box that holds both. -/
def union (b c : Bounds) : Bounds := ⟨b.min.min c.min, b.max.max c.max⟩

/-- The box holds no point. -/
def isEmpty (b : Bounds) : Bool := b.max.x < b.min.x || b.max.y < b.min.y || b.max.z < b.min.z

/-- The eight corners. -/
def corners (b : Bounds) : List Vec3 :=
  [⟨b.min.x, b.min.y, b.min.z⟩, ⟨b.max.x, b.min.y, b.min.z⟩, ⟨b.min.x, b.max.y, b.min.z⟩,
    ⟨b.max.x, b.max.y, b.min.z⟩, ⟨b.min.x, b.min.y, b.max.z⟩, ⟨b.max.x, b.min.y, b.max.z⟩,
    ⟨b.min.x, b.max.y, b.max.z⟩, ⟨b.max.x, b.max.y, b.max.z⟩]

/-- A corner or any other point is inside when it lies between the two extreme corners. -/
def Contains (b : Bounds) (p : Vec3) : Prop :=
  (b.min.x ≤ p.x ∧ p.x ≤ b.max.x) ∧ (b.min.y ≤ p.y ∧ p.y ≤ b.max.y) ∧
    (b.min.z ≤ p.z ∧ p.z ≤ b.max.z)

instance (b : Bounds) (p : Vec3) : Decidable (b.Contains p) :=
  inferInstanceAs (Decidable (_ ∧ _ ∧ _))

end Bounds

end RwxScene
