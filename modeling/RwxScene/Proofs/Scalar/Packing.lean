import Mathlib
import RwxScene.Scalar

/-!
# Scalars and their parts

A scalar is a bit pattern, and its arithmetic is that of unpacked numbers: take apart, compute, put
together again. What is shown here makes it possible to reason about the unpacked numbers alone. A
scalar is determined by what it unpacks to (`Scalar.unpacked_inj`), and the opposite scalar unpacks to
the opposite number (`Scalar.unpacked_neg`), also where it is the result of some arithmetic
(`Scalar.ofUnpacked_neg`).
-/

namespace RwxScene

open Float.Model (Format UnpackedFloat)
open Float.Model.UnpackedFloat

/-! ### Bits -/

namespace Bits

theorem ofBitVec_toBitVec (s : Sign) : Sign.ofBitVec s.toBitVec = s := by
  cases s <;> rfl

theorem toBitVec_ofBitVec (b : BitVec 1) : (Sign.ofBitVec b).toBitVec = b := by
  revert b
  decide

variable {spec : Format}

theorem unpackSign_packComponents (s : Sign) (e : BitVec spec.exponentBits)
    (m : BitVec spec.mantissaBitsWithoutImplicit) :
    unpackSign (packComponents spec s e m) = s.toBitVec := by
  refine BitVec.eq_of_getLsbD_eq fun i hi ↦ ?_
  obtain rfl : i = 0 := by omega
  simp [unpackSign, packComponents, BitVec.getLsbD_append, BitVec.getElem_append]

/-- A bit pattern is made of its sign, exponent and mantissa. -/
theorem packComponents_unpack (b : BitVec Format.binary32.numBits) :
    packComponents .binary32 (Sign.ofBitVec (unpackSign b)) (unpackExponent b) (unpackMantissa b) =
      b := by
  rw [packComponents, toBitVec_ofBitVec, unpackSign, unpackExponent, unpackMantissa]
  ext i hi
  simp only [BitVec.extractLsb]
  grind

/-- The sign has no influence on the rest. -/
theorem unpack_packComponents_neg (s : Sign) (e : BitVec spec.exponentBits)
    (m : BitVec spec.mantissaBitsWithoutImplicit) :
    unpack spec (packComponents spec (-s) e m) =
      (unpack spec (packComponents spec s e m)).neg := by
  simp only [unpack, unpackSign_packComponents, unpackExponent_packComponents,
    unpackMantissa_packComponents, ofBitVec_toBitVec]
  split_ifs <;> rfl

/-- Packing the opposite number changes the sign and nothing else. -/
theorem pack_neg (u : UnpackedFloat) :
    u = .notANumber ∨ ∃ s e m, pack spec u = packComponents spec s e m ∧
      pack spec u.neg = packComponents spec (-s) e m := by
  cases u with
  | notANumber => exact .inl rfl
  | infinity s => exact .inr ⟨s, _, _, rfl, rfl⟩
  | zero s => exact .inr ⟨s, _, _, rfl, rfl⟩
  | finite s m e hm =>
    refine .inr ?_
    simp only [pack, neg]
    split_ifs
    · exact ⟨s, _, _, rfl, rfl⟩
    · exact ⟨s, _, _, rfl, rfl⟩
    · exact ⟨s, _, _, rfl, rfl⟩

theorem neg_notANumber : notANumber.neg = notANumber := rfl

theorem unpack_packedNaN : unpack .binary32 (packedNaN .binary32) = .notANumber := by
  rfl

theorem unpack_pack_neg (u : UnpackedFloat) :
    unpack .binary32 (pack .binary32 u.neg) =
      (unpack .binary32 (pack .binary32 u)).neg := by
  rcases pack_neg u with rfl | ⟨s, e, m, hu, hneg⟩
  · rw [neg_notANumber, pack, unpack_packedNaN, neg_notANumber]
  · rw [hu, hneg, unpack_packComponents_neg]

/-! ### Taking apart and putting together -/

theorem toNat_one_append (m : BitVec 23) : (1#1 ++ m).toNat = 2 ^ 23 + m.toNat := by
  rw [BitVec.toNat_append, ← Nat.shiftLeft_add_eq_or_of_lt m.isLt]
  simp [Nat.shiftLeft_eq]

theorem log2_eq {m : Nat} (hle : 2 ^ 23 ≤ m) (hlt : m < 2 ^ 24) : m.log2 = 23 :=
  (Nat.log2_eq_iff (by omega)).2 ⟨hle, hlt⟩

theorem pack_normal (s : Sign) {e : BitVec 8} (he : e ≠ -1#8) (m : BitVec 23)
    (h : 0 < (1#1 ++ m).toNat) :
    pack .binary32 (.finite s (1#1 ++ m).toNat (e.toNat - 150) h) =
      packComponents .binary32 s e m := by
  have hm := toNat_one_append m
  have hlt := m.isLt
  have hlog : (1#1 ++ m).toNat.log2 = 23 := log2_eq (by omega) (by omega)
  have he : e.toNat ≠ 255 := fun h ↦ he (BitVec.toNat_inj.1 h)
  have hbias : ((e.toNat : Int) - 150 + Format.binary32.exponentBias +
      Format.binary32.mantissaBitsWithoutImplicit).toNat = e.toNat := by
    show ((e.toNat : Int) - 150 + 127 + 23).toNat = _
    omega
  rw [pack]
  simp only [hbias, hlog]
  have hbound : ¬2 ^ 8 ≤ e.toNat + 1 := by
    have := e.isLt
    omega
  rw [if_neg hbound, if_pos (show 23 + 1 = Format.binary32.mantissaBits from rfl), hm]
  congr 1
  · simp
  · refine BitVec.toNat_inj.1 ?_
    rw [BitVec.toNat_ofNat]
    show _ % 2 ^ 23 = _
    omega

theorem pack_subnormal (s : Sign) (m : BitVec 23) (h : 0 < m.toNat) :
    pack .binary32 (.finite s m.toNat (-149) h) = packComponents .binary32 s 0 m := by
  have hlog : m.toNat.log2 < 23 := (Nat.log2_lt (Nat.ne_of_gt h)).2 m.isLt
  rw [pack]
  simp only
  rw [if_neg (by decide), if_neg]
  · congr 1
    simp
  · show ¬_ = 24
    omega

/-- Nothing is lost by taking a valid bit pattern apart. -/
theorem pack_unpack {b : BitVec Format.binary32.numBits} (h : Format.binary32.Valid b) :
    pack .binary32 (unpack .binary32 b) = b := by
  have hparts := packComponents_unpack b
  rw [unpack]
  split_ifs with hones hzero hnone hzero
  · rw [hones, hzero] at hparts
    exact hparts
  · exact (h.eq_packedNaN hones hzero).symm
  · rw [hnone, hzero] at hparts
    exact hparts
  · rw [hnone] at hparts ⊢
    exact (pack_subnormal _ _ _).trans hparts
  · exact (pack_normal _ hones _ _).trans hparts

end Bits

/-! ### Scalars -/

namespace Scalar

/-- The number that a scalar stands for. -/
def unpacked (a : Scalar) : UnpackedFloat := a.toModel.unpack

/-- The scalar of a number that has been rounded. -/
def ofUnpacked (u : UnpackedFloat) : Scalar := .ofModel (.pack u)

@[simp] theorem ofUnpacked_unpacked (a : Scalar) : ofUnpacked a.unpacked = a := by
  have hbits := Bits.pack_unpack a.toModel.valid
  obtain ⟨⟨⟨bits⟩, valid⟩⟩ := a
  simp only [ofUnpacked, unpacked, Float32.Model.pack, Float32.Model.unpack] at hbits ⊢
  simp only [hbits]

theorem unpacked_ofUnpacked (u : UnpackedFloat) :
    unpacked (ofUnpacked u) = unpack .binary32 (pack .binary32 u) := rfl

theorem unpacked_inj {a b : Scalar} (h : unpacked a = unpacked b) : a = b := by
  rw [← ofUnpacked_unpacked a, h, ofUnpacked_unpacked]

theorem add_eq (a b : Scalar) : a + b = ofUnpacked (add .binary32 (unpacked a) (unpacked b)) := rfl

theorem sub_eq (a b : Scalar) : a - b = ofUnpacked (sub .binary32 (unpacked a) (unpacked b)) := rfl

theorem mul_eq (a b : Scalar) : a * b = ofUnpacked (mul .binary32 (unpacked a) (unpacked b)) := rfl

theorem div_eq (a b : Scalar) : a / b = ofUnpacked (div .binary32 (unpacked a) (unpacked b)) := rfl

theorem neg_eq (a : Scalar) : -a = ofUnpacked (unpacked a).neg := rfl

@[simp] theorem unpacked_neg (a : Scalar) : unpacked (-a) = (unpacked a).neg := by
  rw [neg_eq, unpacked_ofUnpacked, Bits.unpack_pack_neg, ← unpacked_ofUnpacked, ofUnpacked_unpacked]

theorem ofUnpacked_neg (u : UnpackedFloat) : ofUnpacked u.neg = -ofUnpacked u := by
  refine unpacked_inj ?_
  rw [unpacked_neg, unpacked_ofUnpacked, unpacked_ofUnpacked, Bits.unpack_pack_neg]

end Scalar

end RwxScene
