import Mathlib
import RwxScene.Proofs.Mesh.SelfContained
import RwxScene.Proofs.Space.Unit

/-!
# Normals of finished batches

Every normal of a finished batch is nearly a unit vector (`Builder.isNearUnit_finish`): it is one that
was made by dividing a vector by its length, or it is the direction upward. Nothing is said of the
vector: the normals that meet at a vertex may be many, and their sum may be anything.
-/

namespace RwxScene

namespace Normals

variable {epsilon : Scalar}

theorem isNearUnit_getD {n : Option Vec3} (h : ∀ v, n = some v → v.IsNearUnit) :
    (n.getD .up).IsNearUnit := by
  cases n with
  | none => exact Vec3.isNearUnit_up
  | some v => exact h v rfl

theorem isNearUnit_average (hepsilon : epsilon.Guards) (normals : List Vec3) :
    (average epsilon normals).IsNearUnit :=
  isNearUnit_getD fun _ h ↦ Vec3.isNearUnit_of_normalize? hepsilon h

theorem isNearUnit_ofTriangle (hepsilon : epsilon.Guards) (positions : Array Vec3)
    (t : Triangle Nat) : ((ofTriangle epsilon positions t).getD .up).IsNearUnit :=
  isNearUnit_getD fun _ h ↦ Vec3.isNearUnit_of_normalize? hepsilon h

end Normals

/-- Whatever the triangles are like, no normal is far from unit length. -/
theorem Builder.isNearUnit_finish {s : Settings} (hs : Scalar.Guards s.degenerateNormalEpsilon)
    (b : Builder) : ∀ n ∈ (b.finish s).1.normals, n.IsNearUnit := by
  intro n hn
  simp only [finish] at hn
  split at hn
  · -- the three corners of a triangle have its own normal
    obtain ⟨⟨i, m⟩, hm, rfl⟩ := Array.mem_map.1 hn
    obtain ⟨⟨t, k⟩, hface, hm⟩ := List.mem_flatMap.1 (List.mem_toArray.1 hm)
    obtain ⟨j, -, hj⟩ := List.mem_map.1 hm
    obtain ⟨u, -, hu⟩ := List.mem_map.1 hface
    obtain ⟨-, rfl⟩ := Prod.mk.inj hj
    obtain ⟨-, rfl⟩ := Prod.mk.inj hu
    exact Normals.isNearUnit_ofTriangle hs _ u
  · obtain ⟨normals, -, rfl⟩ := Array.mem_map.1 hn
    exact Normals.isNearUnit_average hs normals

end RwxScene
