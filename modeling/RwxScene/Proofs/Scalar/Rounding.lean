import Mathlib
import RwxScene.Proofs.Scalar.Value

/-!
# Rounding errors

An operation on scalars gives the exact result, but for one rounding. How far that may be off is
stated for all operations alike: a scalar `Rounds` a real number if it is finite, unless the number
is huge, and if it then is as close as the number of bits of the format allows, relative to the
number or, near zero, absolutely.

Rounding a number that is given by a mantissa and an exponent drops the bits beyond the exponent
that the format wants (`target`). Of the mantissa that is left the next one may be taken, so the
error is at most one unit of that exponent (`exists_roundWithAccuracy`). That is twice what is true,
and it is the same for all directions of rounding.

Sums and products are computed exactly and then rounded, if need be (`Rounded`).
-/

namespace RwxScene

open Float.Model (Format UnpackedFloat totalExponent)
open Float.Model.UnpackedFloat

namespace Unpacked

variable {s : Sign} {m n k : Nat} {e f t : Int} {a : Accuracy}

/-! ### Dropping bits -/

theorem mantissa_repeat (em : ExtendedMantissa) (n : Nat) :
    (n.repeat ExtendedMantissa.shiftRightOne em).mantissa = em.mantissa / 2 ^ n := by
  induction n with
  | zero => exact (Nat.div_one _).symm
  | succ n ih =>
    rw [Nat.repeat, ExtendedMantissa.shiftRightOne, ih, Nat.div_div_eq_div_mul, Nat.pow_succ]

theorem mantissa_ofMantissaAndAccuracy (m : Nat) (a : Accuracy) :
    (ExtendedMantissa.ofMantissaAndAccuracy m a).mantissa = m := by
  rcases a with - | (- | - | -) <;> rfl

theorem le_roundedMantissa (em : ExtendedMantissa) : em.mantissa ≤ em.roundedMantissa := by
  rcases em with ⟨m, _ | _, _ | _⟩
  · exact Nat.le_refl m
  · exact Nat.le_refl m
  · exact Nat.le_add_right m _
  · exact Nat.le_succ m

theorem roundedMantissa_le (em : ExtendedMantissa) : em.roundedMantissa ≤ em.mantissa + 1 := by
  rcases em with ⟨m, _ | _, _ | _⟩
  · exact Nat.le_succ m
  · exact Nat.le_succ m
  · exact Nat.add_le_add_left (Nat.le_of_lt_succ (Nat.mod_lt m two_pos)) m
  · exact Nat.le_refl (m + 1)

/-! ### The exponent that is wanted -/

/-- The exponent that the format wants at this magnitude. -/
def target (m : Nat) (e : Int) : Int := max ((m.log2 : Int) + 1 + e - 24) (-149)

theorem target_cases (m : Nat) (e : Int) :
    target m e = -149 ∨ -149 < target m e ∧ target m e = m.log2 + e - 23 := by
  rw [target]
  omega

theorem div_two_pow_lt (h : target m e = e + k) : m / 2 ^ k < 2 ^ 24 := by
  rw [target] at h
  rw [Nat.div_lt_iff_lt_mul (Nat.two_pow_pos k), ← Nat.pow_add]
  exact Nat.lt_of_lt_of_le Nat.lt_log2_self (Nat.pow_le_pow_right two_pos (by omega))

/-- No more bits are dropped than the format has no room for. -/
theorem two_pow_le_div (h : target m e = e + k) (ht : -149 < target m e) : 2 ^ 23 ≤ m / 2 ^ k := by
  rw [target] at h ht
  have hlog : m.log2 = 23 + k := by omega
  have hm : m ≠ 0 := by
    rintro rfl
    rw [Nat.log2_zero] at hlog
    omega
  rw [Nat.le_div_iff_mul_le (Nat.two_pow_pos k), ← Nat.pow_add, ← hlog]
  exact Nat.log2_self_le hm

/-- What is left of a mantissa is one that the format wants, unless it was rounded up to a power of
two; then that power has one bit too many, which is zero. -/
theorem fits_or_eq {r : Nat} (h : target m e = e + k) (hle : m / 2 ^ k ≤ r)
    (hlt : r ≤ m / 2 ^ k + 1) (hr : 0 < r) :
    Fits r (target m e) ∨ r = 2 ^ 24 ∧ Fits (2 ^ 23) (target m e + 1) := by
  have hbound := div_two_pow_lt h
  have hmin : -149 ≤ target m e := by
    rw [target]
    omega
  rcases Nat.lt_or_eq_of_le (show r ≤ 2 ^ 24 by omega) with hr' | rfl
  · refine .inl (fits_iff.2 ?_)
    have hlog : r.log2 < 24 := (Nat.log2_lt (Nat.ne_of_gt hr)).2 hr'
    rcases target_cases m e with ht | ⟨ht, -⟩
    · omega
    · have hlog : r.log2 = 23 := Bits.log2_eq ((two_pow_le_div h ht).trans hle) hr'
      omega
  · refine .inr ⟨rfl, fits_iff.2 ?_⟩
    have hlog : (2 ^ 23 : Nat).log2 = 23 := Bits.log2_eq (by decide) (by decide)
    omega

/-! ### Rounding -/

theorem mantissa_shiftToTargetExponent (m : Nat) (e : Int) (a : Accuracy) :
    (shiftToTargetExponent .binary32 m e a).1.mantissa = m / 2 ^ (target m e - e).toNat :=
  (mantissa_repeat _ _).trans (by rw [mantissa_ofMantissaAndAccuracy]; rfl)

theorem exponent_shiftToTargetExponent (m : Nat) (e : Int) (a : Accuracy) :
    (shiftToTargetExponent .binary32 m e a).2 = e + (target m e - e).toNat := rfl

/-- The number that a rounded mantissa stands for. -/
structure Settles (u : UnpackedFloat) (s : Sign) (r : Nat) (t : Int) : Prop where
  canonical : Canonical u
  isFinite : u.isFinite = true
  value : value u = factor s * (r * 2 ^ t)

/-- Of the second shift in rounding, which settles the mantissa, nothing is lost. -/
theorem settles_of_shift {r : Nat} {em : ExtendedMantissa}
    (hshift : shiftToTargetExponent .binary32 m e a = (em, t)) (hr : em.roundedMantissa = r)
    (h : 0 < r → Fits r t ∨ r = 2 ^ 24 ∧ Fits (2 ^ 23) (t + 1)) :
    Settles (roundWithAccuracy .binary32 s m e a) s r t := by
  simp only [roundWithAccuracy, hshift, hr]
  rcases Nat.eq_zero_or_pos r with rfl | hpos
  · have hzero := mantissa_shiftToTargetExponent 0 t .exact
    rw [Nat.zero_div] at hzero
    rw [dif_pos hzero]
    refine ⟨trivial, rfl, ?_⟩
    show (0 : ℝ) = factor s * ((0 : ℕ) * 2 ^ t)
    rw [Nat.cast_zero, zero_mul, mul_zero]
  · rcases h hpos with hfits | ⟨rfl, hfits⟩
    · have hagain := shiftToTargetExponent_eq hfits hpos 0
      rw [Nat.pow_zero, Nat.mul_one, Int.ofNat_zero, Int.sub_zero] at hagain
      simp only [hagain]
      rw [dif_neg (Nat.ne_of_gt hpos)]
      exact ⟨hfits, rfl, rfl⟩
    · have hagain := shiftToTargetExponent_eq hfits (by decide) 1
      rw [show t + 1 - (1 : ℕ) = t by omega] at hagain
      simp only [show (2 : ℕ) ^ 24 = 2 ^ 23 * 2 ^ 1 from rfl, hagain]
      rw [dif_neg (by decide)]
      refine ⟨hfits, rfl, ?_⟩
      rw [Unpacked.value, zpow_add_one₀ two_ne_zero]
      push_cast
      ring

/-- What becomes of a mantissa whose last bits are dropped. -/
theorem settles_roundWithAccuracy (h : target m e = e + k) (s : Sign) (a : Accuracy) :
    Settles (roundWithAccuracy .binary32 s m e a) s
      (k.repeat ExtendedMantissa.shiftRightOne (.ofMantissaAndAccuracy m a)).roundedMantissa
      (target m e) := by
  have hk : (target m e - e).toNat = k := by omega
  set em := k.repeat ExtendedMantissa.shiftRightOne (.ofMantissaAndAccuracy m a) with hem
  have hmantissa : em.mantissa = m / 2 ^ k := by
    rw [hem, mantissa_repeat, mantissa_ofMantissaAndAccuracy]
  have hshift : shiftToTargetExponent .binary32 m e a = (em, target m e) := by
    refine Prod.ext ?_ ?_
    · show (target m e - e).toNat.repeat ExtendedMantissa.shiftRightOne _ = em
      rw [hk]
    · rw [exponent_shiftToTargetExponent, hk, h]
  refine settles_of_shift hshift rfl (fits_or_eq h ?_ ?_)
  · exact hmantissa ▸ le_roundedMantissa em
  · exact hmantissa ▸ roundedMantissa_le em

/-- The mantissa that is rounded is what is left of the one that is given, or the next one. -/
theorem exists_roundWithAccuracy (h : target m e = e + k) (s : Sign) (a : Accuracy) :
    ∃ r : ℕ, m / 2 ^ k ≤ r ∧ r ≤ m / 2 ^ k + 1 ∧
      Settles (roundWithAccuracy .binary32 s m e a) s r (target m e) := by
  refine ⟨_, ?_, ?_, settles_roundWithAccuracy h s a⟩
  · refine le_of_eq_of_le ?_ (le_roundedMantissa _)
    rw [mantissa_repeat, mantissa_ofMantissaAndAccuracy]
  · refine (roundedMantissa_le _).trans_eq ?_
    rw [mantissa_repeat, mantissa_ofMantissaAndAccuracy]

/-! ### Errors -/

/-- The number is in canonical form and as close to `x` as the format allows, but for its largest
exponent. -/
structure Approximates (u : UnpackedFloat) (x : ℝ) : Prop where
  canonical : Canonical u
  isFinite : u.isFinite = true
  near : |value u - x| ≤ 2⁻¹ ^ 23 * |x| + 2⁻¹ ^ 149

theorem approximates_value {u : UnpackedFloat} (hu : Canonical u) (h : u.isFinite = true) :
    Approximates u (value u) := by
  refine ⟨hu, h, ?_⟩
  rw [sub_self, abs_zero]
  positivity

theorem canonical_neg {u : UnpackedFloat} (h : Canonical u) : Canonical u.neg := by
  cases u <;> exact h

theorem isFinite_neg {u : UnpackedFloat} (h : u.isFinite = true) : u.neg.isFinite = true := by
  cases u <;> exact h

/-- The mantissa has all the bits that rounding looks at. -/
def Enough (m : Nat) (e : Int) : Prop := e ≤ -149 ∨ 2 ^ 23 ≤ m

theorem Enough.le_target (h : Enough m e) : e ≤ target m e := by
  rw [target]
  rcases h with h | h
  · omega
  · have hlog : 23 ≤ m.log2 := (Nat.le_log2 (by omega)).2 h
    omega

theorem enough_of_le_target (hm : 0 < m) (h : e ≤ target m e) : Enough m e := by
  by_contra hfew
  obtain ⟨he, hlt⟩ := not_or.1 hfew
  have hlog : m.log2 < 23 := (Nat.log2_lt (Nat.ne_of_gt hm)).2 (not_le.1 hlt)
  rw [target] at h
  omega

theorem Enough.two_pow_target_le (h : Enough m e) :
    (2 : ℝ) ^ target m e ≤ 2⁻¹ ^ 23 * (m * 2 ^ e) + 2⁻¹ ^ 149 := by
  have hnonneg : (0 : ℝ) ≤ m * 2 ^ e := mul_nonneg (Nat.cast_nonneg m) (zpow_pos two_pos e).le
  rcases target_cases m e with ht | ⟨hlt, ht⟩
  · rw [ht]
    have hmin : (2 : ℝ) ^ (-149 : ℤ) = 2⁻¹ ^ 149 := by norm_num
    rw [hmin]
    exact le_add_of_nonneg_left (by positivity)
  · have hm : m ≠ 0 := by
      rintro rfl
      rw [Nat.log2_zero] at ht
      rcases h with h | h <;> omega
    have hlog : (2 : ℝ) ^ m.log2 ≤ m := by exact_mod_cast Nat.log2_self_le hm
    refine le_add_of_le_of_nonneg ?_ (by positivity)
    calc (2 : ℝ) ^ target m e = 2⁻¹ ^ 23 * (2 ^ m.log2 * 2 ^ e) := by
          rw [ht, zpow_sub₀ two_ne_zero, zpow_add₀ two_ne_zero, zpow_natCast]
          norm_num
          ring
      _ ≤ 2⁻¹ ^ 23 * (m * 2 ^ e) := by gcongr

/-- Rounding a number of which the bits above its exponent are given. -/
theorem approximates_roundWithAccuracy (h : Enough m e) (s : Sign) (a : Accuracy) {x : ℝ}
    (hle : m * 2 ^ e ≤ x) (hlt : x ≤ (m + 1) * 2 ^ e) :
    Approximates (roundWithAccuracy .binary32 s m e a) (factor s * x) := by
  obtain ⟨k, hk⟩ := Int.eq_ofNat_of_zero_le (Int.sub_nonneg.2 h.le_target)
  have hk : target m e = e + k := by omega
  obtain ⟨r, hr, hr', hsettles⟩ := exists_roundWithAccuracy hk s a
  refine ⟨hsettles.canonical, hsettles.isFinite, ?_⟩
  have hnonneg : (0 : ℝ) ≤ m * 2 ^ e := mul_nonneg (Nat.cast_nonneg m) (zpow_pos two_pos e).le
  have hx : 0 ≤ x := hnonneg.trans hle
  have hpow : (2 : ℝ) ^ target m e = 2 ^ k * 2 ^ e := by
    rw [hk, Int.add_comm, zpow_add₀ two_ne_zero, zpow_natCast]
  -- the number and its approximation lie between the same two multiples of the last bit
  set q := m / 2 ^ k with hq
  have hlow : (q : ℝ) * 2 ^ target m e ≤ x := by
    refine le_trans ?_ hle
    rw [hpow, ← mul_assoc]
    gcongr
    exact_mod_cast Nat.div_mul_le_self m (2 ^ k)
  have hhigh : x ≤ (q + 1) * 2 ^ target m e := by
    refine hlt.trans ?_
    rw [hpow, ← mul_assoc]
    gcongr
    have hlt := Nat.lt_mul_div_succ m (Nat.two_pow_pos k)
    rw [Nat.mul_comm] at hlt
    exact_mod_cast hlt
  have hr : (q : ℝ) * 2 ^ target m e ≤ r * 2 ^ target m e := by gcongr
  have hr' : (r : ℝ) * 2 ^ target m e ≤ (q + 1) * 2 ^ target m e := by
    gcongr
    exact_mod_cast hr'
  calc |value (roundWithAccuracy .binary32 s m e a) - factor s * x|
      = |r * 2 ^ target m e - x| := by
        rw [hsettles.value, ← mul_sub, abs_mul, abs_factor, one_mul]
    _ ≤ 2 ^ target m e := by
        rw [abs_le]
        constructor <;> linarith
    _ ≤ 2⁻¹ ^ 23 * (m * 2 ^ e) + 2⁻¹ ^ 149 := h.two_pow_target_le
    _ ≤ 2⁻¹ ^ 23 * |factor s * x| + 2⁻¹ ^ 149 := by
        rw [abs_mul, abs_factor, one_mul, abs_of_nonneg hx]
        gcongr

/-- The number is what is made of `x` where all bits of `x` are known: `x` itself, or the result of
rounding a mantissa that has all the bits that rounding looks at. -/
inductive Rounded : UnpackedFloat → ℝ → Prop
  | exact {u : UnpackedFloat} (hu : Canonical u) (h : u.isFinite = true) : Rounded u (value u)
  | round {m : Nat} {e : Int} (h : Enough m e) (s : Sign) :
    Rounded (roundWithAccuracy .binary32 s m e .exact) (factor s * (m * 2 ^ e))

theorem Rounded.approximates {u : UnpackedFloat} {x : ℝ} (h : Rounded u x) : Approximates u x := by
  cases h with
  | exact hu h => exact approximates_value hu h
  | round h s =>
    refine approximates_roundWithAccuracy h s .exact le_rfl ?_
    gcongr
    exact le_add_of_nonneg_right zero_le_one

/-! ### Sums -/

theorem shiftLeft_mul_two_pow (m k : Nat) (e : Int) :
    ((m <<< k : ℕ) : ℝ) * 2 ^ (e - k) = m * 2 ^ e := by
  rw [Nat.shiftLeft_eq, zpow_sub₀ two_ne_zero, zpow_natCast]
  push_cast
  field_simp

theorem two_pow_le_shiftLeft (hm : 0 < m) (hn : n ≤ m.log2 + k) : 2 ^ n ≤ m <<< k := by
  rw [Nat.shiftLeft_eq]
  calc 2 ^ n ≤ 2 ^ m.log2 * 2 ^ k := by
        rw [← Nat.pow_add]
        exact Nat.pow_le_pow_right two_pos hn
    _ ≤ m * 2 ^ k := Nat.mul_le_mul_right _ (Nat.log2_self_le (Nat.ne_of_gt hm))

theorem rounded_round (hm : 0 < m) (s : Sign) (e : Int) :
    Rounded (UnpackedFloat.round .binary32 s m e) (factor s * (m * 2 ^ e)) := by
  show Rounded (roundWithAccuracy .binary32 s (m <<< (e - target m e).toNat)
    (e - (e - target m e).toNat) .exact) _
  rw [← shiftLeft_mul_two_pow m (e - target m e).toNat e]
  refine Rounded.round (enough_of_le_target ?_ ?_) s
  · rw [Nat.shiftLeft_eq]
    exact Nat.mul_pos hm (Nat.two_pow_pos _)
  · rw [target, target, Nat.shiftLeft_eq, log2_mul_two_pow hm]
    omega

theorem rounded_normalize (n e : Int) (s : Sign) :
    Rounded (UnpackedFloat.normalize .binary32 n e s) (n * 2 ^ e) := by
  rcases Int.lt_trichotomy n 0 with h | rfl | h
  · have hround := rounded_round (m := (-n).toNat) (by omega) .negative e
    have hn : (((-n).toNat : ℕ) : ℝ) = -n := by
      exact_mod_cast congrArg (Int.cast (R := ℝ)) (Int.toNat_of_nonneg (by omega : 0 ≤ -n))
    rw [hn, factor, neg_one_mul, neg_mul_eq_neg_mul, InvolutiveNeg.neg_neg] at hround
    rw [UnpackedFloat.normalize, Int.compare_eq_lt.2 h]
    exact hround
  · have hzero := Rounded.exact (u := .zero s) trivial rfl
    rw [Int.cast_zero, zero_mul]
    exact hzero
  · have hround := rounded_round (m := n.toNat) (by omega) .positive e
    have hn : ((n.toNat : ℕ) : ℝ) = n := by
      exact_mod_cast congrArg (Int.cast (R := ℝ)) (Int.toNat_of_nonneg (by omega : 0 ≤ n))
    rw [hn, factor, one_mul] at hround
    rw [UnpackedFloat.normalize, Int.compare_eq_gt.2 h]
    exact hround

variable {u v : UnpackedFloat}

theorem rounded_zero (s : Sign) : Rounded (.zero s) 0 := Rounded.exact trivial rfl

theorem rounded_zero_add (hv : Canonical v) (hfv : v.isFinite = true) (s : Sign) :
    Rounded (add .binary32 (.zero s) v) (value v) := by
  rcases zero_or_finite hfv with ⟨t, rfl⟩ | ⟨t, n, f, hn, rfl⟩
  · rw [add]
    split_ifs <;> exact rounded_zero _
  · exact Rounded.exact hv hfv

theorem rounded_add (hu : Canonical u) (hv : Canonical v) (hfu : u.isFinite = true)
    (hfv : v.isFinite = true) : Rounded (add .binary32 u v) (value u + value v) := by
  rcases zero_or_finite hfu with ⟨s, rfl⟩ | ⟨s, m, e, hm, rfl⟩
  · rw [show value (.zero s) = 0 from rfl, zero_add]
    exact rounded_zero_add hv hfv s
  · rcases zero_or_finite hfv with ⟨t, rfl⟩ | ⟨t, n, f, hn, rfl⟩
    · rw [show value (.zero t) = 0 from rfl, add_zero, Unpacked.add_comm]
      exact rounded_zero_add hu hfu t
    · have hsum := rounded_normalize (s.apply (m <<< (e - min e f).toNat : ℕ) +
        t.apply (n <<< (f - min e f).toNat : ℕ)) (min e f) .positive
      have he := shiftLeft_mul_two_pow m (e - min e f).toNat e
      have hf := shiftLeft_mul_two_pow n (f - min e f).toNat f
      rw [show e - ((e - min e f).toNat : ℤ) = min e f by omega] at he
      rw [show f - ((f - min e f).toNat : ℤ) = min e f by omega] at hf
      rw [Int.cast_add, cast_apply, cast_apply, add_mul, mul_assoc, mul_assoc, he, hf] at hsum
      exact hsum

theorem rounded_sub (hu : Canonical u) (hv : Canonical v) (hfu : u.isFinite = true)
    (hfv : v.isFinite = true) : Rounded (sub .binary32 u v) (value u - value v) := by
  have h := rounded_add hu (canonical_neg hv) hfu (isFinite_neg hfv)
  rw [value_neg, ← SubNegMonoid.sub_eq_add_neg] at h
  rw [Unpacked.sub_eq_add_neg]
  exact h

/-! ### Products and quotients -/

/-- Together, the mantissas of two numbers have all bits that their product needs. -/
theorem Fits.enough_mul (hu : Fits m e) (hv : Fits n f) (hm : 0 < m) (hn : 0 < n) :
    Enough (m * n) (e + f) := by
  have he := hu.neg_149_le
  have hf := hv.neg_149_le
  by_cases hle : -149 < e
  · exact .inr ((hu.two_pow_le hle hm).trans (Nat.le_mul_of_pos_right m hn))
  by_cases hlf : -149 < f
  · exact .inr ((hv.two_pow_le hlf hn).trans (Nat.le_mul_of_pos_left n hm))
  exact .inl (by omega)

theorem rounded_mul (hu : Canonical u) (hv : Canonical v) (hfu : u.isFinite = true)
    (hfv : v.isFinite = true) : Rounded (mul .binary32 u v) (value u * value v) := by
  rcases zero_or_finite hfu with ⟨s, rfl⟩ | ⟨s, m, e, hm, rfl⟩
  · rw [show value (.zero s) = 0 from rfl, zero_mul]
    rcases zero_or_finite hfv with ⟨t, rfl⟩ | ⟨t, n, f, hn, rfl⟩ <;> exact rounded_zero _
  · rcases zero_or_finite hfv with ⟨t, rfl⟩ | ⟨t, n, f, hn, rfl⟩
    · rw [show value (.zero t) = 0 from rfl, mul_zero]
      exact rounded_zero _
    · have hvalue : value (.finite s m e hm) * value (.finite t n f hn) =
          factor (s * t) * ((m * n : ℕ) * 2 ^ (e + f)) := by
        rw [value, value, factor_mul, zpow_add₀ two_ne_zero]
        push_cast
        ring
      rw [hvalue]
      exact Rounded.round (hu.enough_mul hv hm hn) _

/-- The quotient of the mantissas has all bits that it needs. -/
theorem enough_div (hm : 0 < m) (hn : 0 < n) {t : Int}
    (ht : t ≤ max (m.log2 + 1 + e - (n.log2 + 1 + f) - 24) (-149)) :
    Enough (m <<< (e - f - t).toNat / n) t := by
  by_cases hmin : t ≤ -149
  · exact .inl hmin
  · refine .inr ((Nat.le_div_iff_mul_le hn).2 ?_)
    calc 2 ^ 23 * n ≤ 2 ^ 23 * 2 ^ (n.log2 + 1) := Nat.mul_le_mul_left _ Nat.lt_log2_self.le
      _ = 2 ^ (n.log2 + 24) := by ring
      _ ≤ m <<< (e - f - t).toNat := two_pow_le_shiftLeft hm (by omega)

theorem approximates_div (hfu : u.isFinite = true) (hfv : v.isFinite = true) (hv : value v ≠ 0) :
    Approximates (div .binary32 u v) (value u / value v) := by
  rcases zero_or_finite hfv with ⟨t, rfl⟩ | ⟨t, n, f, hn, rfl⟩
  · exact absurd rfl hv
  rcases zero_or_finite hfu with ⟨s, rfl⟩ | ⟨s, m, e, hm, rfl⟩
  · rw [show value (.zero s) = 0 from rfl, zero_div]
    exact (rounded_zero _).approximates
  · set t' := min (e - f) (max ((m.log2 : ℤ) + 1 + e - (n.log2 + 1 + f) - 24) (-149)) with ht'
    show Approximates (roundWithAccuracy .binary32 (s / t) (m <<< (e - f - t').toNat / n) t'
      (accuracyOfFraction (m <<< (e - f - t').toNat % n) n)) _
    have hn' : (0 : ℝ) < n := Nat.cast_pos.2 hn
    have hvalue : value (.finite s m e hm) / value (.finite t n f hn) =
        factor (s / t) * ((m <<< (e - f - t').toNat : ℕ) / n * 2 ^ t') := by
      have hshift := shiftLeft_mul_two_pow m (e - f - t').toNat (e - f)
      rw [show e - f - ((e - f - t').toNat : ℤ) = t' by omega, zpow_sub₀ two_ne_zero] at hshift
      rw [div_mul_eq_mul_div, hshift, value, value, factor_div]
      field_simp
    rw [hvalue]
    refine approximates_roundWithAccuracy (enough_div hm hn (min_le_right _ _)) _ _ ?_ ?_
    · gcongr
      exact Nat.cast_div_le
    · gcongr
      rw [div_le_iff₀ hn']
      have hlt := Nat.lt_mul_div_succ (m <<< (e - f - t').toNat) hn
      rw [Nat.mul_comm] at hlt
      exact_mod_cast hlt.le

/-! ### Square roots -/

theorem enough_sqrt (hm : 0 < m) {t : Int}
    (ht : t ≤ max ((m.log2 + 1 + e + 1) / 2 - 24) (-149)) :
    Enough (Nat.sqrt (m <<< (e - 2 * t).toNat)) t := by
  by_cases hmin : t ≤ -149
  · exact .inl hmin
  · refine .inr (Nat.le_sqrt.2 ?_)
    rw [← Nat.pow_add]
    exact two_pow_le_shiftLeft hm (by omega)

theorem approximates_sqrt (hfu : u.isFinite = true) (hu : 0 ≤ value u) :
    Approximates (UnpackedFloat.sqrt .binary32 u) (√(value u)) := by
  rcases zero_or_finite hfu with ⟨s, rfl⟩ | ⟨_ | _, m, e, hm, rfl⟩
  · rw [show value (.zero s) = 0 from rfl, Real.sqrt_zero]
    exact (rounded_zero s).approximates
  · exact absurd hu (not_le.2 (value_finite_neg hm))
  · set t := min (e / 2) (max (((m.log2 : ℤ) + 1 + e + 1) / 2 - 24) (-149)) with ht
    have hvalue : √(value (.finite .positive m e hm)) =
        factor .positive * (√((m <<< (e - 2 * t).toNat : ℕ)) * 2 ^ t) := by
      have hshift := shiftLeft_mul_two_pow m (e - 2 * t).toNat e
      rw [show e - ((e - 2 * t).toNat : ℤ) = t + t by omega, zpow_add₀ two_ne_zero] at hshift
      rw [value, factor, one_mul, one_mul, ← hshift, Real.sqrt_mul (Nat.cast_nonneg _),
        Real.sqrt_mul_self (zpow_pos two_pos t).le]
    rw [hvalue]
    refine approximates_roundWithAccuracy (m := Nat.sqrt (m <<< (e - 2 * t).toNat)) (e := t)
      (enough_sqrt hm (min_le_right _ _)) .positive _ ?_ ?_
    · gcongr
      exact Real.nat_sqrt_le_real_sqrt
    · gcongr
      exact Real.real_sqrt_lt_nat_sqrt_succ.le

end Unpacked

/-! ### Scalars -/

namespace Scalar

open Unpacked

variable {a b : Scalar} {u : UnpackedFloat} {x : ℝ}

/-- The scalar is what a computation gives whose exact result is `x`. -/
structure Rounds (a : Scalar) (x : ℝ) : Prop where
  isFinite : |x| ≤ 2 ^ 127 → a.isFinite = true
  near : a.isFinite = true → |a.value - x| ≤ 2⁻¹ ^ 23 * |x| + 2⁻¹ ^ 149

theorem rounds_ofUnpacked (h : Approximates u x) : Rounds (ofUnpacked u) x := by
  have hnear := h.near
  refine ⟨fun hx ↦ isFinite_ofUnpacked h.canonical h.isFinite ?_, fun hfinite ↦ ?_⟩
  · have habs := abs_add_le (Unpacked.value u - x) x
    rw [sub_add_cancel] at habs
    calc |Unpacked.value u| ≤ 2⁻¹ ^ 23 * |x| + 2⁻¹ ^ 149 + |x| := by linarith
      _ ≤ 2⁻¹ ^ 23 * 2 ^ 127 + 2⁻¹ ^ 149 + 2 ^ 127 := by gcongr
      _ < 2 ^ 128 := by norm_num
  · rw [value, unpacked_ofUnpacked_of_isFinite h.canonical hfinite]
    exact hnear

theorem rounds_add (ha : a.isFinite = true) (hb : b.isFinite = true) :
    Rounds (a + b) (a.value + b.value) :=
  rounds_ofUnpacked (rounded_add (canonical_unpacked a) (canonical_unpacked b) ha hb).approximates

theorem rounds_sub (ha : a.isFinite = true) (hb : b.isFinite = true) :
    Rounds (a - b) (a.value - b.value) :=
  rounds_ofUnpacked (rounded_sub (canonical_unpacked a) (canonical_unpacked b) ha hb).approximates

theorem rounds_mul (ha : a.isFinite = true) (hb : b.isFinite = true) :
    Rounds (a * b) (a.value * b.value) :=
  rounds_ofUnpacked (rounded_mul (canonical_unpacked a) (canonical_unpacked b) ha hb).approximates

theorem rounds_div (ha : a.isFinite = true) (hb : b.isFinite = true) (hzero : b.value ≠ 0) :
    Rounds (a / b) (a.value / b.value) :=
  rounds_ofUnpacked (approximates_div ha hb hzero)

theorem rounds_sqrt (ha : a.isFinite = true) (hnonneg : 0 ≤ a.value) :
    Rounds a.sqrt (√a.value) :=
  rounds_ofUnpacked (approximates_sqrt ha hnonneg)

/-- No negative number has a square root. -/
theorem value_nonneg_of_isFinite_sqrt (h : a.sqrt.isFinite = true) : 0 ≤ a.value := by
  have hsqrt : (UnpackedFloat.sqrt .binary32 (unpacked a)).isFinite = true :=
    isFinite_of_ofUnpacked h
  rw [value]
  rcases zero_or_finite (Unpacked.isFinite_of_sqrt hsqrt) with ⟨s, hs⟩ | ⟨_ | _, m, e, hm, hs⟩
  · rw [hs]
    exact le_rfl
  · rw [hs] at hsqrt
    exact absurd hsqrt (by simp [UnpackedFloat.sqrt, UnpackedFloat.isFinite])
  · rw [hs]
    exact (value_finite_pos hm).le

end Scalar

end RwxScene
