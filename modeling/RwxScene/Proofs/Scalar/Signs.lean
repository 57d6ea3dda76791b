import Mathlib
import RwxScene.Proofs.Scalar.Packing

/-!
# Signs of numbers

How the arithmetic of unpacked numbers goes with signs. Rounding to the nearest number treats both
signs alike, so products and quotients have exactly the sign that one expects, and the sum of the
opposite numbers is the opposite of the sum but for the sign of a zero: that of a sum that vanishes
is always positive.

So numbers are compared but for that sign (`Same`), and all operations but the division by a zero
respect it.
-/

namespace RwxScene

open Float.Model (Format UnpackedFloat)
open Float.Model.UnpackedFloat

namespace Unpacked

/-! ### Opposite signs -/

section Sign

theorem sign_neg_neg (s : Sign) : - -s = s := by
  cases s <;> rfl

theorem sign_neg_beq_neg (s t : Sign) : (-s == -t) = (s == t) := by
  cases s <;> cases t <;> rfl

theorem sign_neg_mul (s t : Sign) : -s * t = -(s * t) := by
  cases s <;> cases t <;> rfl

theorem sign_neg_div (s t : Sign) : -s / t = -(s / t) := by
  cases s <;> cases t <;> rfl

theorem sign_mul_comm (s t : Sign) : s * t = t * s := by
  cases s <;> cases t <;> rfl

theorem sign_neg_apply (s : Sign) (n : Int) : (-s).apply n = -s.apply n := by
  cases s with
  | negative => exact (Int.neg_neg n).symm
  | positive => rfl

end Sign

/-! ### Opposite numbers -/

variable (spec : Format)

theorem neg_neg (u : UnpackedFloat) : u.neg.neg = u := by
  cases u <;> simp [neg, sign_neg_neg]

/-- Rounding has no preference for a sign. -/
theorem roundWithAccuracy_neg (s : Sign) (m : Nat) (e : Int) (a : Accuracy) :
    roundWithAccuracy spec (-s) m e a = (roundWithAccuracy spec s m e a).neg := by
  simp only [roundWithAccuracy]
  split
  · rfl
  · rfl

theorem round_neg (s : Sign) (m : Nat) (e : Int) :
    UnpackedFloat.round spec (-s) m e = (UnpackedFloat.round spec s m e).neg :=
  roundWithAccuracy_neg spec s _ _ .exact

theorem normalize_neg {n : Int} (hn : n ≠ 0) (e : Int) (s : Sign) :
    normalize spec (-n) e s = (normalize spec n e s).neg := by
  rcases Int.lt_or_gt_of_ne hn with h | h
  · rw [UnpackedFloat.normalize, UnpackedFloat.normalize,
      Int.compare_eq_gt.2 (by omega : -n > 0), Int.compare_eq_lt.2 h]
    exact round_neg spec .negative _ e
  · rw [UnpackedFloat.normalize, UnpackedFloat.normalize,
      Int.compare_eq_lt.2 (by omega : -n < 0), Int.compare_eq_gt.2 h, Int.neg_neg]
    exact round_neg spec .positive _ e

theorem sub_eq_add_neg (u v : UnpackedFloat) : sub spec u v = add spec u v.neg := by
  cases u <;> cases v <;> simp [sub, add, neg, sign_neg_apply, Int.sub_eq_add_neg]

theorem add_comm (u v : UnpackedFloat) : add spec u v = add spec v u := by
  cases u <;> cases v <;> simp only [add, Int.add_comm, Int.min_comm]
  case infinity.infinity s t => cases s <;> cases t <;> rfl
  case zero.zero s t => cases s <;> cases t <;> rfl

theorem mul_comm (u v : UnpackedFloat) : mul spec u v = mul spec v u := by
  cases u <;> cases v <;> simp only [mul, sign_mul_comm, Nat.mul_comm, Int.add_comm]

theorem neg_mul (u v : UnpackedFloat) : mul spec u.neg v = (mul spec u v).neg := by
  cases u <;> cases v <;> simp only [mul, neg, sign_neg_mul, roundWithAccuracy_neg]

theorem neg_div (u v : UnpackedFloat) : div spec u.neg v = (div spec u v).neg := by
  cases u <;> cases v <;> simp only [div, neg, sign_neg_div, roundWithAccuracy_neg]

/-! ### Numbers but for the sign of zero -/

/-- The numbers are the same, or both are zero. -/
def Same (u v : UnpackedFloat) : Prop := u = v ∨ ∃ s t, u = .zero s ∧ v = .zero t

variable {spec} {u u' v v' w : UnpackedFloat}

theorem Same.refl (u : UnpackedFloat) : Same u u := .inl rfl

theorem same_zero (s t : Sign) : Same (.zero s) (.zero t) := .inr ⟨s, t, rfl, rfl⟩

theorem Same.symm (h : Same u v) : Same v u := by
  rcases h with rfl | ⟨s, t, rfl, rfl⟩
  · exact .refl u
  · exact same_zero t s

theorem Same.trans (huv : Same u v) (hvw : Same v w) : Same u w := by
  rcases huv with rfl | ⟨s, t, rfl, rfl⟩
  · exact hvw
  · rcases hvw with rfl | ⟨-, r, -, rfl⟩
    · exact same_zero s t
    · exact same_zero s r

theorem Same.neg (h : Same u v) : Same u.neg v.neg := by
  rcases h with rfl | ⟨s, t, rfl, rfl⟩
  · exact .refl _
  · exact same_zero _ _

theorem add_zero_same (u : UnpackedFloat) (s t : Sign) :
    Same (UnpackedFloat.add spec u (.zero s)) (UnpackedFloat.add spec u (.zero t)) := by
  cases u with
  | zero r =>
    simp only [UnpackedFloat.add]
    split_ifs <;> exact same_zero _ _
  | _ => exact .refl _

theorem Same.add (hu : Same u u') (hv : Same v v') :
    Same (UnpackedFloat.add spec u v) (UnpackedFloat.add spec u' v') := by
  have hright : ∀ w, Same (UnpackedFloat.add spec w v) (UnpackedFloat.add spec w v') := by
    intro w
    rcases hv with rfl | ⟨s, t, rfl, rfl⟩
    · exact .refl _
    · exact add_zero_same w s t
  refine (hright u).trans ?_
  rcases hu with rfl | ⟨s, t, rfl, rfl⟩
  · exact .refl _
  · rw [add_comm, add_comm spec _ v']
    exact add_zero_same v' s t

theorem Same.sub (hu : Same u u') (hv : Same v v') :
    Same (UnpackedFloat.sub spec u v) (UnpackedFloat.sub spec u' v') := by
  rw [sub_eq_add_neg, sub_eq_add_neg]
  exact hu.add hv.neg

theorem mul_zero_same (u : UnpackedFloat) (s t : Sign) :
    Same (UnpackedFloat.mul spec u (.zero s)) (UnpackedFloat.mul spec u (.zero t)) := by
  cases u with
  | zero r => exact same_zero _ _
  | finite => exact same_zero _ _
  | _ => exact .refl _

theorem Same.mul (hu : Same u u') (hv : Same v v') :
    Same (UnpackedFloat.mul spec u v) (UnpackedFloat.mul spec u' v') := by
  have hright : ∀ w, Same (UnpackedFloat.mul spec w v) (UnpackedFloat.mul spec w v') := by
    intro w
    rcases hv with rfl | ⟨s, t, rfl, rfl⟩
    · exact .refl _
    · exact mul_zero_same w s t
  refine (hright u).trans ?_
  rcases hu with rfl | ⟨s, t, rfl, rfl⟩
  · exact .refl _
  · rw [mul_comm, mul_comm spec _ v']
    exact mul_zero_same v' s t

/-- The divisor is kept, as that of a division by zero decides on a sign. -/
theorem Same.div (hu : Same u u') (v : UnpackedFloat) :
    Same (UnpackedFloat.div spec u v) (UnpackedFloat.div spec u' v) := by
  rcases hu with rfl | ⟨s, t, rfl, rfl⟩
  · exact .refl _
  · cases v with
    | finite => exact same_zero _ _
    | infinity => exact same_zero _ _
    | _ => exact .refl _

theorem Same.sqrt (h : Same u v) :
    Same (UnpackedFloat.sqrt spec u) (UnpackedFloat.sqrt spec v) := by
  rcases h with rfl | ⟨s, t, rfl, rfl⟩
  · exact .refl _
  · exact same_zero _ _

theorem Same.abs_eq (h : Same u v) : u.abs = v.abs := by
  rcases h with rfl | ⟨s, t, rfl, rfl⟩
  · rfl
  · rfl

/-- Only where a sum vanishes the sum of the opposite numbers is not the opposite. -/
theorem add_neg_neg (u v : UnpackedFloat) :
    Same (UnpackedFloat.add spec u.neg v.neg) (UnpackedFloat.add spec u v).neg := by
  cases u with
  | notANumber => exact .refl _
  | infinity s =>
    cases v with
    | infinity t =>
      simp only [UnpackedFloat.add, UnpackedFloat.neg, sign_neg_beq_neg]
      split <;> exact .refl _
    | _ => exact .refl _
  | zero s =>
    cases v with
    | zero t =>
      simp only [UnpackedFloat.add, UnpackedFloat.neg]
      split_ifs <;> exact same_zero _ _
    | _ => exact .refl _
  | finite s m e hm =>
    cases v with
    | finite t n f hn =>
      simp only [UnpackedFloat.add, UnpackedFloat.neg, sign_neg_apply, ← Int.neg_add]
      by_cases hzero : s.apply (decreaseExponent m e (min e f)).1 +
          t.apply (decreaseExponent n f (min e f)).1 = 0
      · rw [hzero]
        exact same_zero _ _
      · rw [normalize_neg spec hzero]
        exact .refl _
    | _ => exact .refl _

theorem sub_neg_neg (u v : UnpackedFloat) :
    Same (UnpackedFloat.sub spec u.neg v.neg) (UnpackedFloat.sub spec u v).neg := by
  rw [sub_eq_add_neg, sub_eq_add_neg]
  exact add_neg_neg u v.neg

/-- Terms in the other order. -/
theorem sub_comm (u v : UnpackedFloat) :
    Same (UnpackedFloat.sub spec v u) (UnpackedFloat.sub spec u v).neg := by
  have h : Same (UnpackedFloat.add spec u.neg v.neg.neg) (UnpackedFloat.add spec u v.neg).neg :=
    add_neg_neg u v.neg
  rw [neg_neg, add_comm] at h
  rw [sub_eq_add_neg, sub_eq_add_neg]
  exact h

end Unpacked

end RwxScene
