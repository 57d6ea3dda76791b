import Mathlib
import RwxScene.Proofs.Scalar.Order

/-!
# Exact products

A finite scalar unpacks to a number in canonical form (`canonical_unpack`), and rounding leaves such
a number as it is. So the product with one is the number itself, bit for bit, and the product with
minus one is its opposite.
-/

namespace RwxScene

open Float.Model (Format UnpackedFloat totalExponent)
open Float.Model.UnpackedFloat

namespace Unpacked

/-- The mantissa has as many bits as the format keeps at this magnitude. -/
def Fits (m : Nat) (e : Int) : Prop := Format.binary32.targetExponent (totalExponent m e) = e

theorem fits_iff {m : Nat} {e : Int} : Fits m e ↔ max ((m.log2 : Int) + 1 + e - 24) (-149) = e :=
  Iff.rfl

/-- The number has the mantissa that the format wants. -/
def Canonical : UnpackedFloat → Prop
  | .finite _ m e _ => Fits m e
  | _ => True

theorem canonical_unpack (b : BitVec Format.binary32.numBits) : Canonical (unpack .binary32 b) := by
  have hlt : (unpackMantissa b).toNat < 2 ^ 23 := (unpackMantissa b).isLt
  rw [unpack]
  split_ifs with hones hzero hnone hzero
  · trivial
  · trivial
  · trivial
  · refine fits_iff.2 ?_
    have hlog : (unpackMantissa b).toNat.log2 < 23 :=
      (Nat.log2_lt fun h ↦ hzero (BitVec.toNat_inj.1 h)).2 hlt
    have he : ((unpackExponent b).toNat : Int) = 0 := by
      rw [hnone]
      rfl
    show max (((unpackMantissa b).toNat.log2 : Int) + 1 +
      ((unpackExponent b).toNat - (127 + 23) + 1) - 24) (-149) =
        (unpackExponent b).toNat - (127 + 23) + 1
    omega
  · refine fits_iff.2 ?_
    have hm : (1#1 ++ unpackMantissa b).toNat = _ := Bits.toNat_one_append (unpackMantissa b)
    have hlog : (1#1 ++ unpackMantissa b).toNat.log2 = 23 := Bits.log2_eq (by omega) (by omega)
    have he : (unpackExponent b).toNat ≠ 0 := fun h ↦ hnone (BitVec.toNat_inj.1 h)
    show max (((1#1 ++ unpackMantissa b).toNat.log2 : Int) + 1 +
      ((unpackExponent b).toNat - (127 + 23)) - 24) (-149) = (unpackExponent b).toNat - (127 + 23)
    omega

/-! ### Rounding -/

theorem repeat_shiftRightOne (m n : Nat) :
    n.repeat ExtendedMantissa.shiftRightOne ⟨m * 2 ^ n, false, false⟩ = ⟨m, false, false⟩ := by
  induction n generalizing m with
  | zero => simp [Nat.repeat]
  | succ n ih =>
    rw [Nat.repeat, Nat.pow_succ', ← Nat.mul_assoc, ih (m * 2)]
    simp [ExtendedMantissa.shiftRightOne]

theorem log2_mul_two_pow {m : Nat} (hm : 0 < m) (n : Nat) : (m * 2 ^ n).log2 = m.log2 + n := by
  induction n with
  | zero => simp
  | succ n ih =>
    have hne : m * 2 ^ n ≠ 0 := Nat.ne_of_gt (Nat.mul_pos hm (Nat.two_pow_pos n))
    rw [Nat.pow_succ', Nat.mul_left_comm, Nat.log2_two_mul hne, ih]
    rfl

variable {m : Nat} {e : Int}

/-- Bits that are zero can be shifted out. -/
theorem shiftToTargetExponent_eq (h : Fits m e) (hm : 0 < m) (n : Nat) :
    shiftToTargetExponent .binary32 (m * 2 ^ n) (e - n) .exact = (⟨m, false, false⟩, e) := by
  have htotal : totalExponent (m * 2 ^ n) (e - n) = totalExponent m e := by
    rw [totalExponent, totalExponent, log2_mul_two_pow hm]
    omega
  have hshift : (e - (e - n)).toNat = n := by omega
  rw [shiftToTargetExponent, htotal, h]
  simp only [shiftToExponent, hshift]
  exact Prod.ext (repeat_shiftRightOne m n) (by omega)

theorem roundWithAccuracy_eq (h : Fits m e) (hm : 0 < m) (s : Sign) (n : Nat) :
    roundWithAccuracy .binary32 s (m * 2 ^ n) (e - n) .exact = .finite s m e hm := by
  have hagain := shiftToTargetExponent_eq h hm 0
  rw [Nat.pow_zero, Nat.mul_one, Int.ofNat_zero, Int.sub_zero] at hagain
  have hround : (⟨m, false, false⟩ : ExtendedMantissa).roundedMantissa = m := rfl
  rw [roundWithAccuracy, shiftToTargetExponent_eq h hm n]
  simp only [hround, hagain]
  exact dif_neg (Nat.ne_of_gt hm)

end Unpacked

namespace Scalar

theorem unpacked_zero : unpacked 0 = .zero .positive := by rfl

theorem unpacked_one : ∃ h, unpacked 1 = .finite .positive (2 ^ 23) (-23) h := ⟨by decide, by rfl⟩

theorem canonical_unpacked (a : Scalar) : Unpacked.Canonical (unpacked a) :=
  Unpacked.canonical_unpack _

theorem one_mul (a : Scalar) : 1 * a = a := by
  obtain ⟨h, hone⟩ := unpacked_one
  have hcanonical := canonical_unpacked a
  have hmul : mul .binary32 (unpacked 1) (unpacked a) = unpacked a := by
    rw [hone]
    cases ha : unpacked a with
    | notANumber => rfl
    | infinity s => cases s <;> rfl
    | zero s => cases s <;> rfl
    | finite s m e hm =>
      rw [ha] at hcanonical
      have hround := Unpacked.roundWithAccuracy_eq hcanonical hm s 23
      have hsign : Sign.positive * s = s := by cases s <;> rfl
      rw [mul, hsign, Nat.mul_comm, Int.add_comm]
      exact hround
  rw [mul_eq, hmul, ofUnpacked_unpacked]

theorem neg_one_mul (a : Scalar) : -1 * a = -a := by
  rw [mul_eq, unpacked_neg, Unpacked.neg_mul, ofUnpacked_neg, ← mul_eq, one_mul]

end Scalar

end RwxScene
