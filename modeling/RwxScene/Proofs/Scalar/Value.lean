import Mathlib
import RwxScene.Proofs.Scalar.Alike

/-!
# The values of scalars

A finite scalar stands for a real number (`Scalar.value`). Among numbers in canonical form, which is
what scalars unpack to, the exponent decides before the mantissa does; so a scalar that is less than
another one has the lesser value (`Scalar.value_lt_value`).

A number in canonical form survives packing, unless its exponent is beyond the largest one that the
format has; then an infinity takes its place (`Bits.unpack_pack_finite`).
-/

namespace RwxScene

open Float.Model (Format UnpackedFloat totalExponent)
open Float.Model.UnpackedFloat

/-! ### Canonical form -/

namespace Unpacked

variable {s : Sign} {m : Nat} {e : Int}

theorem Fits.log2_le (h : Fits m e) : m.log2 ≤ 23 := by
  have := fits_iff.1 h
  omega

theorem Fits.neg_149_le (h : Fits m e) : -149 ≤ e := by
  have := fits_iff.1 h
  omega

theorem Fits.lt_two_pow (h : Fits m e) : m < 2 ^ 24 := by
  have hlog := h.log2_le
  have hlt : m < 2 ^ (m.log2 + 1) := Nat.lt_log2_self
  exact Nat.lt_of_lt_of_le hlt (Nat.pow_le_pow_right (by decide) (by omega))

/-- Above the least exponent all bits of the mantissa are used. -/
theorem Fits.log2_eq (h : Fits m e) (he : -149 < e) : m.log2 = 23 := by
  have := fits_iff.1 h
  omega

theorem Fits.two_pow_le (h : Fits m e) (he : -149 < e) (hm : 0 < m) : 2 ^ 23 ≤ m := by
  have hle := Nat.log2_self_le (Nat.ne_of_gt hm)
  rwa [h.log2_eq he] at hle

end Unpacked

/-! ### Packing numbers in canonical form -/

namespace Bits

open Unpacked

variable {s : Sign} {m : Nat} {e : Int}

theorem unpack_packComponents_normal (s : Sign) {e : BitVec 8} (m : BitVec 23) (hones : e ≠ -1#8)
    (hzero : e ≠ 0#8) (h : 0 < (1#1 ++ m).toNat) :
    unpack .binary32 (packComponents .binary32 s e m) =
      .finite s (1#1 ++ m).toNat (e.toNat - 150) h := by
  simp only [unpack, unpackSign_packComponents, unpackExponent_packComponents,
    unpackMantissa_packComponents, ofBitVec_toBitVec]
  rw [if_neg hones, if_neg hzero]
  rfl

theorem unpack_packComponents_subnormal (s : Sign) {m : BitVec 23} (hm : m ≠ 0#23)
    (h : 0 < m.toNat) :
    unpack .binary32 (packComponents .binary32 s 0#8 m) = .finite s m.toNat (-149) h := by
  simp only [unpack, unpackSign_packComponents, unpackExponent_packComponents,
    unpackMantissa_packComponents, ofBitVec_toBitVec]
  rw [if_neg (by decide), if_pos trivial, dif_neg hm]
  rfl

/-- The leading bit of a mantissa is left out and put back. -/
theorem unpack_pack_normal (hle : 2 ^ 23 ≤ m) (hlt : m < 2 ^ 24) (hm : 0 < m) (hmin : -149 ≤ e)
    (hmax : e ≤ 104) :
    unpack .binary32 (pack .binary32 (.finite s m e hm)) = .finite s m e hm := by
  have hexponent : (BitVec.ofNat 8 (e + 150).toNat).toNat = (e + 150).toNat := by
    rw [BitVec.toNat_ofNat]
    omega
  have hmantissa : (1#1 ++ BitVec.ofNat 23 (m - 2 ^ 23)).toNat = m := by
    rw [toNat_one_append, BitVec.toNat_ofNat]
    omega
  have hne : ∀ c : BitVec 8, c.toNat = 0 ∨ c.toNat = 255 → BitVec.ofNat 8 (e + 150).toNat ≠ c := by
    rintro c hc rfl
    rw [hexponent] at hc
    omega
  have hpos : 0 < (1#1 ++ BitVec.ofNat 23 (m - 2 ^ 23)).toNat := by omega
  have hback := unpack_packComponents_normal s _ (hne _ (.inr rfl)) (hne _ (.inl rfl)) hpos
  rw [← pack_normal s (hne _ (.inr rfl)) _ hpos] at hback
  have hnumber : UnpackedFloat.finite s (1#1 ++ BitVec.ofNat 23 (m - 2 ^ 23)).toNat
      ((BitVec.ofNat 8 (e + 150).toNat).toNat - 150) hpos = .finite s m e hm := by
    simp only [hmantissa, hexponent]
    congr 1
    omega
  rwa [hnumber] at hback

theorem unpack_pack_subnormal (hm : 0 < m) (hlt : m < 2 ^ 23) :
    unpack .binary32 (pack .binary32 (.finite s m (-149) hm)) = .finite s m (-149) hm := by
  have hmantissa : (BitVec.ofNat 23 m).toNat = m := by
    rw [BitVec.toNat_ofNat]
    omega
  have hpos : 0 < (BitVec.ofNat 23 m).toNat := by omega
  have hne : BitVec.ofNat 23 m ≠ 0#23 := fun h ↦ by
    rw [h] at hpos
    exact absurd hpos (by decide)
  have hback := unpack_packComponents_subnormal s hne hpos
  have hpack : pack .binary32 (.finite s (BitVec.ofNat 23 m).toNat (-149) hpos) =
      packComponents .binary32 s 0#8 (BitVec.ofNat 23 m) := pack_subnormal s _ hpos
  rw [← hpack] at hback
  simp only [hmantissa] at hback
  exact hback

/-- A number in canonical form that is not too large is kept. -/
theorem unpack_pack_finite (h : Fits m e) (hm : 0 < m) (he : e ≤ 104) :
    unpack .binary32 (pack .binary32 (.finite s m e hm)) = .finite s m e hm := by
  have hmin := h.neg_149_le
  by_cases hle : 2 ^ 23 ≤ m
  · exact unpack_pack_normal hle h.lt_two_pow hm hmin he
  · obtain rfl : e = -149 := by
      by_contra hne
      exact hle (h.two_pow_le (by omega) hm)
    exact unpack_pack_subnormal hm (not_le.1 hle)

/-- What is too large becomes infinite. -/
theorem pack_of_large (hm : 0 < m) (he : 104 < e) :
    pack .binary32 (.finite s m e hm) = pack .binary32 (.infinity s) := by
  rw [pack]
  exact if_pos (show 2 ^ 8 ≤ (e + 127 + 23).toNat + 1 by omega)

end Bits

/-! ### Values -/

namespace Unpacked

variable {s t : Sign} {m n : Nat} {e f : Int} {u v : UnpackedFloat}

theorem zero_or_finite (h : u.isFinite = true) :
    (∃ s, u = .zero s) ∨ ∃ s m e hm, u = .finite s m e hm := by
  cases u with
  | notANumber => exact absurd h (by decide)
  | infinity s => exact absurd h (by simp [UnpackedFloat.isFinite])
  | zero s => exact .inl ⟨s, rfl⟩
  | finite s m e hm => exact .inr ⟨s, m, e, hm, rfl⟩

/-- A sign as a number. -/
noncomputable def factor : Sign → ℝ
  | .negative => -1
  | .positive => 1

theorem abs_factor (s : Sign) : |factor s| = 1 := by
  cases s with
  | negative => rw [factor, abs_neg, abs_one]
  | positive => exact abs_one

theorem factor_neg (s : Sign) : factor (-s) = -factor s := by
  cases s with
  | negative =>
    show (1 : ℝ) = - -1
    norm_num
  | positive => rfl

theorem factor_mul (s t : Sign) : factor (s * t) = factor s * factor t := by
  rcases s with _ | _ <;> rcases t with _ | _
  · show (1 : ℝ) = -1 * -1
    norm_num
  · exact (mul_one (-1 : ℝ)).symm
  · exact (one_mul (-1 : ℝ)).symm
  · exact (one_mul (1 : ℝ)).symm

theorem factor_div (s t : Sign) : factor (s / t) = factor s / factor t := by
  rcases s with _ | _ <;> rcases t with _ | _
  · show (1 : ℝ) = -1 / -1
    norm_num
  · exact (div_one (-1 : ℝ)).symm
  · show (-1 : ℝ) = 1 / -1
    norm_num
  · exact (div_one (1 : ℝ)).symm

theorem cast_apply (s : Sign) (m : Nat) : ((s.apply m : ℤ) : ℝ) = factor s * m := by
  cases s with
  | negative => simp [factor, Sign.apply]
  | positive => simp [factor, Sign.apply]

/-- The real number that is meant; zero where none is meant. -/
noncomputable def value : UnpackedFloat → ℝ
  | .finite s m e _ => factor s * (m * 2 ^ e)
  | _ => 0

theorem abs_value_finite (s : Sign) (hm : 0 < m) : |value (.finite s m e hm)| = m * 2 ^ e := by
  rw [value, abs_mul, abs_factor, one_mul, abs_of_nonneg]
  exact mul_nonneg (Nat.cast_nonneg m) (zpow_pos two_pos e).le

theorem value_finite_pos (hm : 0 < m) : 0 < value (.finite .positive m e hm) :=
  mul_pos one_pos (mul_pos (Nat.cast_pos.2 hm) (zpow_pos two_pos e))

@[simp] theorem value_neg (u : UnpackedFloat) : value u.neg = -value u := by
  cases u with
  | finite s m e hm => rw [UnpackedFloat.neg, value, value, factor_neg, neg_mul_eq_neg_mul]
  | _ => exact neg_zero.symm

theorem abs_eq_or (u : UnpackedFloat) : u.abs = u ∨ u.abs = u.neg := by
  rcases u with (_ | _) | - | (_ | _) | ⟨_ | _, m, e, hm⟩
  · exact .inr rfl
  · exact .inl rfl
  · exact .inl rfl
  · exact .inr rfl
  · exact .inl rfl
  · exact .inr rfl
  · exact .inl rfl

/-- The exponent decides before the mantissa does. -/
theorem Fits.mul_two_pow_lt (hu : Fits m e) (hv : Fits n f) (hn : 0 < n)
    (h : (compare e f).then (compare m n) = .lt) : (m : ℝ) * 2 ^ e < n * 2 ^ f := by
  rcases Ordering.then_eq_lt.1 h with h | ⟨he, hlt⟩
  · have he : e + 1 ≤ f := compare_lt_iff_lt.1 h
    have hn : 2 ^ 23 ≤ n := hv.two_pow_le (by have := hu.neg_149_le; omega) hn
    calc (m : ℝ) * 2 ^ e < 2 ^ 24 * 2 ^ e := by
          gcongr
          exact_mod_cast hu.lt_two_pow
      _ = 2 ^ 23 * 2 ^ (e + 1) := by
          rw [zpow_add_one₀ two_ne_zero]
          ring
      _ ≤ n * 2 ^ f := by
          gcongr
          · exact_mod_cast hn
          · exact one_le_two
  · obtain rfl : e = f := compare_eq_iff_eq.1 he
    gcongr
    exact compare_lt_iff_lt.1 hlt

/-- Comparing positive numbers is comparing their values. -/
theorem value_lt_value_of_positive (hu : Fits m e) (hv : Fits n f) (hm : 0 < m) (hn : 0 < n)
    (h : UnpackedFloat.compare (.finite .positive m e hm) (.finite .positive n f hn) = some .lt) :
    value (.finite .positive m e hm) < value (.finite .positive n f hn) := by
  have hlt := hu.mul_two_pow_lt hv hn (Option.some.inj h)
  rwa [← abs_value_finite .positive hm, ← abs_value_finite .positive hn,
    abs_of_pos (value_finite_pos hm), abs_of_pos (value_finite_pos hn)] at hlt

theorem value_finite_neg (hm : 0 < m) : value (.finite .negative m e hm) < 0 := by
  have h := value_neg (.finite .positive m e hm)
  rw [UnpackedFloat.neg] at h
  exact h.trans_lt (neg_neg_of_pos (value_finite_pos hm))

/-- Comparing numbers in canonical form is comparing their values. -/
theorem value_lt_value (hu : Canonical u) (hv : Canonical v) (hfu : u.isFinite = true)
    (hfv : v.isFinite = true) (h : u.compare v = some .lt) : value u < value v := by
  rcases u with (_ | _) | - | s | ⟨_ | _, m, e, hm⟩ <;>
    rcases v with (_ | _) | - | t | ⟨_ | _, n, f, hn⟩ <;>
      first
        | contradiction
        | exact absurd (Option.some.inj h) (by decide)
        | skip
  case finite.negative.finite.negative =>
    have hpos : UnpackedFloat.compare (.finite .positive n f hn) (.finite .positive m e hm) =
        some .lt := by
      rw [← h, ← compare_neg_neg]
      rfl
    have hlt := value_lt_value_of_positive hv hu hn hm hpos
    rw [← neg_lt_neg_iff, ← value_neg, ← value_neg] at hlt
    exact hlt
  case finite.positive.finite.positive => exact value_lt_value_of_positive hu hv hm hn h
  case finite.negative.finite.positive => exact (value_finite_neg hm).trans (value_finite_pos hn)
  case finite.negative.zero => exact value_finite_neg hm
  case zero.finite.positive => exact value_finite_pos hn

end Unpacked

namespace Scalar

open Unpacked

variable {a b c : Scalar} {u : UnpackedFloat}

/-- The real number that a finite scalar stands for. -/
noncomputable def value (a : Scalar) : ℝ := Unpacked.value (unpacked a)

@[simp] theorem value_neg (a : Scalar) : (-a).value = -a.value := by
  rw [value, unpacked_neg, Unpacked.value_neg, ← value]

theorem value_zero : value 0 = 0 := by
  rw [value, unpacked_zero]
  rfl

theorem value_of_unpacked {m : Nat} {e : Int} {hm : 0 < m}
    (h : unpacked a = .finite .positive m e hm) : a.value = m * 2 ^ e := by
  rw [value, h]
  exact MulOneClass.one_mul _

theorem value_one : value 1 = 1 := by
  obtain ⟨_, h⟩ := unpacked_one
  rw [value_of_unpacked h]
  norm_num

/-- The lesser of two finite scalars has the lesser value. -/
theorem value_lt_value (ha : a.isFinite = true) (hb : b.isFinite = true) (h : a < b) :
    a.value < b.value :=
  Unpacked.value_lt_value (canonical_unpacked a) (canonical_unpacked b) ha hb (lt_iff.1 h)

theorem abs_eq_or (a : Scalar) : a.abs = a ∨ a.abs = -a := by
  have habs : a.abs = ofUnpacked (unpacked a).abs := rfl
  rcases Unpacked.abs_eq_or (unpacked a) with h | h
  · exact .inl (by rw [habs, h, ofUnpacked_unpacked])
  · exact .inr (by rw [habs, h, ofUnpacked_neg, ofUnpacked_unpacked])

theorem isFinite_abs (a : Scalar) : a.abs.isFinite = a.isFinite := by
  rcases abs_eq_or a with h | h
  · rw [h]
  · rw [h, isFinite_neg]

theorem value_abs_le (a : Scalar) : value a.abs ≤ |a.value| := by
  rcases abs_eq_or a with h | h
  · rw [h]
    exact le_abs_self _
  · rw [h, value_neg]
    exact neg_le_abs _

/-! ### Packed values -/

theorem unpacked_ofUnpacked_zero (s : Sign) : unpacked (ofUnpacked (.zero s)) = .zero s := by
  cases s <;> rfl

/-- A finite scalar has no exponent beyond the largest one. -/
theorem le_of_isFinite_ofUnpacked {s : Sign} {m : Nat} {e : Int} {hm : 0 < m}
    (h : (ofUnpacked (.finite s m e hm)).isFinite = true) : e ≤ 104 := by
  by_contra he
  replace h : (unpack .binary32 (pack .binary32 (.finite s m e hm))).isFinite = true := h
  rw [Bits.pack_of_large hm (not_le.1 he)] at h
  exact absurd (isFinite_of_ofUnpacked (u := .infinity s) h) (by simp [UnpackedFloat.isFinite])

/-- Nothing is lost by packing a number in canonical form that stays finite. -/
theorem unpacked_ofUnpacked_of_isFinite (hu : Canonical u) (h : (ofUnpacked u).isFinite = true) :
    unpacked (ofUnpacked u) = u := by
  rcases zero_or_finite (isFinite_of_ofUnpacked h) with ⟨s, rfl⟩ | ⟨s, m, e, hm, rfl⟩
  · exact unpacked_ofUnpacked_zero s
  · exact Bits.unpack_pack_finite hu hm (le_of_isFinite_ofUnpacked h)

/-- What stays finite is less than the first power of two that does not. -/
theorem abs_value_lt_of_isFinite (hu : Canonical u) (h : (ofUnpacked u).isFinite = true) :
    |Unpacked.value u| < 2 ^ 128 := by
  rcases zero_or_finite (isFinite_of_ofUnpacked h) with ⟨s, rfl⟩ | ⟨s, m, e, hm, rfl⟩
  · have hzero : |Unpacked.value (.zero s)| = 0 := abs_zero
    rw [hzero]
    positivity
  · have hm' : m < 2 ^ 24 := Fits.lt_two_pow hu
    have he := le_of_isFinite_ofUnpacked h
    rw [abs_value_finite]
    calc (m : ℝ) * 2 ^ e < 2 ^ 24 * 2 ^ e := by
          gcongr
          exact_mod_cast hm'
      _ ≤ 2 ^ 24 * 2 ^ (104 : ℤ) := by
          gcongr
          exact one_le_two
      _ = 2 ^ 128 := by norm_num

/-- A number in canonical form stays finite if its exponent is not too large. -/
theorem isFinite_ofUnpacked (hu : Canonical u) (hfinite : u.isFinite = true)
    (h : |Unpacked.value u| < 2 ^ 128) : (ofUnpacked u).isFinite = true := by
  rcases zero_or_finite hfinite with ⟨s, rfl⟩ | ⟨s, m, e, hm, rfl⟩
  · show (unpacked (ofUnpacked (.zero s))).isFinite = true
    rw [unpacked_ofUnpacked_zero]
    rfl
  · have he : e ≤ 104 := by
      by_contra! he
      -- the mantissa has all its bits, so the value is at least that of the first exponent too large
      have hm : 2 ^ 23 ≤ m := hu.two_pow_le (by omega) hm
      refine h.not_ge ?_
      rw [abs_value_finite]
      calc (2 : ℝ) ^ 128 = 2 ^ 23 * 2 ^ (105 : ℤ) := by norm_num
        _ ≤ (m : ℝ) * 2 ^ e := by
          gcongr
          · exact_mod_cast hm
          · exact one_le_two
          · omega
    show (unpack .binary32 (pack .binary32 (.finite s m e hm))).isFinite = true
    rw [Bits.unpack_pack_finite hu hm he]
    rfl

end Scalar

end RwxScene
