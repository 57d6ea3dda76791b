import RwxScene.Proofs.Scalar.Value
import RwxScene.Proofs.Space.Decompose

/-!
# Placements that can be used

`Placement.decompose` has an answer for all matrices, and whatever it answers can be computed with
(`Placement.Usable`): all components are finite, no scale is near zero, and of the scales only the
first may be negative. Lengths, determinants and quotients may overflow or fail to be numbers on the
way; each goes through a comparison that what is no number does not pass, so nothing needs to be
said about how large they can become.
-/

namespace RwxScene

/-! ### Signs of scales -/

namespace Scalar

variable {a : Scalar}

theorem neg_lt_zero_iff : -a < 0 ↔ 0 < a := by
  rw [← (Alike.refl (-a)).lt_iff neg_zero, neg_lt_neg_iff]

theorem abs_neg (a : Scalar) : (-a).abs = a.abs := by
  show ofUnpacked (unpacked (-a)).abs = ofUnpacked (unpacked a).abs
  rw [unpacked_neg]
  cases unpacked a <;> rfl

theorem abs_of_pos (h : 0 < a) : a.abs = a := by
  rw [lt_iff, unpacked_zero] at h
  have habs : (unpacked a).abs = unpacked a := by
    revert h
    rcases unpacked a with (_ | _) | - | s | ⟨_ | _, m, e, hm⟩
    · exact fun h ↦ absurd h (by decide)
    · exact fun _ ↦ rfl
    · exact fun h ↦ absurd h (by decide)
    · exact fun h ↦ absurd h (by cases s <;> decide)
    · exact fun h ↦ absurd h (by simp [Float.Model.UnpackedFloat.compare])
    · exact fun _ ↦ rfl
  show ofUnpacked (unpacked a).abs = a
  rw [habs, ofUnpacked_unpacked]

end Scalar

/-! ### Decomposing -/

namespace Placement

open Scalar (le_of_not_lt lt_of_lt_of_le)

/-- What is computed from the placement is computed from finite numbers, and can be undone. -/
structure Usable (p : Placement) : Prop where
  position : p.position.isFinite = true
  rotation : p.rotation.isFinite = true
  scale : p.scale.isFinite = true
  le_x : scaleEpsilon ≤ p.scale.x.abs
  le_y : scaleEpsilon ≤ p.scale.y.abs
  le_z : scaleEpsilon ≤ p.scale.z.abs
  y_pos : 0 < p.scale.y
  z_pos : 0 < p.scale.z

theorem decompose_of_unreadable {m : Mat4} (h : unreadable m = true) :
    decompose m = (.identity, ⟨true, false, false, false⟩) := by
  simp only [decompose, h, if_true]
  decide +kernel

/-- The length of an axis as a scale is neither too small nor too large. -/
theorem scaleOf_usable (axis : Vec3) :
    (scaleOf axis).isFinite = true ∧ scaleEpsilon ≤ scaleOf axis := by
  rw [scaleOf]
  split
  · exact ⟨rfl, by decide +kernel⟩
  · next h =>
    rw [collapsed, Bool.or_eq_true, not_or, Bool.not_eq_true', Bool.not_eq_false,
      decide_eq_true_eq] at h
    refine ⟨h.1, le_of_not_lt ?_ (by decide +kernel) h.2⟩
    exact Scalar.not_isNaN_of_isFinite h.1

theorem scaleOf_pos (axis : Vec3) : 0 < scaleOf axis :=
  lt_of_lt_of_le (by decide +kernel) (scaleOf_usable axis).2

/-- A scale, with the sign of a reflection or without it. -/
theorem signed_usable (reflected : Bool) (axis : Vec3) :
    let s := if reflected then -scaleOf axis else scaleOf axis
    s.isFinite = true ∧ scaleEpsilon ≤ s.abs ∧ (s < 0 ↔ reflected = true) := by
  obtain ⟨hfinite, hle⟩ := scaleOf_usable axis
  have hpos := scaleOf_pos axis
  have habs := Scalar.abs_of_pos hpos
  cases reflected with
  | false =>
    refine ⟨hfinite, ?_, fun hneg ↦ ?_, fun h ↦ absurd h Bool.false_ne_true⟩
    · show scaleEpsilon ≤ (scaleOf axis).abs
      rwa [habs]
    · exact absurd hneg (Scalar.not_lt_of_lt hpos)
  | true =>
    refine ⟨(Scalar.isFinite_neg _).trans hfinite, ?_, fun _ ↦ rfl, fun _ ↦ ?_⟩
    · show scaleEpsilon ≤ (-scaleOf axis).abs
      rwa [Scalar.abs_neg, habs]
    · exact Scalar.neg_lt_zero_iff.2 hpos

/-- A rotation that is not finite is left out. -/
theorem isFinite_rotation (skew : Bool) (q : Quat) :
    (if skew then Quat.identity else if q.isFinite then q else .identity).isFinite = true := by
  split_ifs with _ h
  · decide +kernel
  · exact h
  · decide +kernel

theorem usable_identity : identity.Usable := by
  constructor <;> decide +kernel

/-- **Every matrix has a placement that can be used.** It is that of the matrix, unless the findings
say otherwise. -/
theorem decompose_usable (m : Mat4) :
    let (p, found) := decompose m
    p.Usable ∧ (p.scale.x < 0 ↔ found.reflected = true) ∧
      (found.invalidMatrix = false → p.position = m.translation) ∧
      (found.invalidMatrix = true → p = .identity ∧ found = ⟨true, false, false, false⟩) ∧
      (found.nonOrthogonal = true → p.rotation = .identity) := by
  cases hm : unreadable m with
  | true =>
    rw [decompose_of_unreadable hm]
    refine ⟨usable_identity, ?_, fun h ↦ absurd h.symm Bool.false_ne_true, fun _ ↦ ⟨rfl, rfl⟩,
      fun _ ↦ rfl⟩
    decide +kernel
  | false =>
    have hfinite := Mat4.isFinite_iff.1 (isFinite_of_readable hm)
    have hposition : m.translation.isFinite = true := ((Bool.and_eq_true _ _).mp hfinite.2.2.2).1
    obtain ⟨hx, hlex, hneg⟩ := signed_usable (decide (m.basis.determinant < 0)) m.basis.c₀
    obtain ⟨hy, hley, -⟩ := signed_usable false m.basis.c₁
    obtain ⟨hz, hlez, -⟩ := signed_usable false m.basis.c₂
    simp only [decompose, hm]
    exact ⟨⟨hposition, isFinite_rotation _ _, Vec3.isFinite_iff.2 ⟨hx, hy, hz⟩, hlex, hley, hlez,
      scaleOf_pos _, scaleOf_pos _⟩, hneg, fun _ ↦ rfl, fun h ↦ absurd h Bool.false_ne_true,
      fun h ↦ if_pos h⟩

end Placement

end RwxScene
