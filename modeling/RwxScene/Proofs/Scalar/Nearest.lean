import Mathlib
import RwxScene.Proofs.Scalar.Rounding

/-!
# Nearest numbers

A sum or a product is rounded to a nearest number of the format (`Unpacked.Rounded.nearest`). Of the
bits that a shift drops it keeps two, which is enough to say whether what is left or the next
mantissa is nearer (`Keeps`). Numbers with smaller exponents are no rivals: they are less than every
number that is rounded with the exponent in question.

So rounding is monotone (`Nearest.value_le_value`). Nothing needs to be said about ties for that, as
two reals that are nearest to the same two numbers cannot differ.
-/

namespace RwxScene

open Float.Model (Format UnpackedFloat)
open Float.Model.UnpackedFloat

namespace Unpacked

variable {s : Sign} {m k : Nat} {e t : Int} {em : ExtendedMantissa} {u v : UnpackedFloat} {x y : ℝ}

/-! ### Bits that are dropped -/

/-- What a shift by `k` places keeps of `m`: the quotient, whether the remainder is at least one
half of the divisor, and whether it is anything else than nothing or one half. -/
structure Keeps (em : ExtendedMantissa) (m k : Nat) : Prop where
  mantissa : em.mantissa = m / 2 ^ k
  below : em.roundBit = false → 2 * (m % 2 ^ k) < 2 ^ k
  above : em.roundBit = true → 2 ^ k ≤ 2 * (m % 2 ^ k)
  tie : em.stickyBit = false → m % 2 ^ k = 0 ∨ 2 * (m % 2 ^ k) = 2 ^ k

theorem Keeps.shiftRightOne (h : Keeps em m k) : Keeps em.shiftRightOne m (k + 1) := by
  have hmod : m % 2 ^ (k + 1) = m % 2 ^ k + 2 ^ k * (em.mantissa % 2) := by
    rw [h.mantissa, Nat.mod_pow_succ]
  have hlt : m % 2 ^ k < 2 ^ k := Nat.mod_lt m (Nat.two_pow_pos k)
  have hbit := Nat.mod_two_eq_zero_or_one em.mantissa
  refine ⟨?_, fun hround ↦ ?_, fun hround ↦ ?_, fun hsticky ↦ ?_⟩
  · rw [ExtendedMantissa.shiftRightOne, h.mantissa, Nat.div_div_eq_div_mul, Nat.pow_succ]
  · have hzero : em.mantissa % 2 = 0 := by simpa [ExtendedMantissa.shiftRightOne] using hround
    rw [hmod, hzero, Nat.pow_succ]
    omega
  · have hone : em.mantissa % 2 = 1 := by simpa [ExtendedMantissa.shiftRightOne] using hround
    rw [hmod, hone, Nat.pow_succ]
    omega
  · obtain ⟨hround, hsticky⟩ : em.roundBit = false ∧ em.stickyBit = false := by
      simpa [ExtendedMantissa.shiftRightOne] using hsticky
    have hrest : m % 2 ^ k = 0 := by
      rcases h.tie hsticky with hzero | hhalf
      · exact hzero
      · exact absurd hhalf (Nat.ne_of_lt (h.below hround))
    rcases hbit with hbit | hbit
    · exact .inl (by rw [hmod, hrest, hbit, Nat.zero_add, Nat.mul_zero])
    · exact .inr (by rw [hmod, hrest, hbit, Nat.pow_succ]; omega)

theorem keeps_repeat (m k : Nat) :
    Keeps (k.repeat ExtendedMantissa.shiftRightOne ⟨m, false, false⟩) m k := by
  induction k with
  | zero =>
    have hmod : m % 2 ^ 0 = 0 := Nat.mod_one m
    refine ⟨(Nat.div_one m).symm, fun _ ↦ ?_, fun h ↦ ?_, fun _ ↦ .inl hmod⟩
    · rw [hmod]
      decide
    · exact absurd h Bool.false_ne_true
  | succ k ih => exact ih.shiftRightOne

theorem roundedMantissa_of_below (h : em.roundBit = false) : em.roundedMantissa = em.mantissa := by
  rcases em with ⟨q, _ | _, _ | _⟩
  · rfl
  · rfl
  · exact absurd h.symm Bool.false_ne_true
  · exact absurd h.symm Bool.false_ne_true

theorem roundedMantissa_of_above (h : em.roundBit = true) (hsticky : em.stickyBit = true) :
    em.roundedMantissa = em.mantissa + 1 := by
  obtain ⟨q, round, sticky⟩ := em
  obtain rfl : round = true := h
  obtain rfl : sticky = true := hsticky
  rfl

/-- The rounded mantissa is off by one half at most. -/
theorem Keeps.near (h : Keeps em m k) :
    2 * (em.roundedMantissa * 2 ^ k) ≤ 2 * m + 2 ^ k ∧
      2 * m ≤ 2 * (em.roundedMantissa * 2 ^ k) + 2 ^ k := by
  have hm : m = m / 2 ^ k * 2 ^ k + m % 2 ^ k := (Nat.div_add_mod' m (2 ^ k)).symm
  have hlt : m % 2 ^ k < 2 ^ k := Nat.mod_lt m (Nat.two_pow_pos k)
  have hbelow := h.below
  have habove := h.above
  have htie := h.tie
  have hcases : em.roundedMantissa = m / 2 ^ k ∧ 2 * (m % 2 ^ k) ≤ 2 ^ k ∨
      em.roundedMantissa = m / 2 ^ k + 1 ∧ 2 ^ k ≤ 2 * (m % 2 ^ k) := by
    rw [← h.mantissa]
    cases hround : em.roundBit with
    | false => exact .inl ⟨roundedMantissa_of_below hround, (hbelow hround).le⟩
    | true =>
      have habove := habove hround
      cases hsticky : em.stickyBit with
      | true => exact .inr ⟨roundedMantissa_of_above hround hsticky, habove⟩
      | false =>
        -- both mantissas are equally near
        have hhalf : 2 * (m % 2 ^ k) = 2 ^ k := by
          rcases htie hsticky with hzero | hhalf
          · omega
          · exact hhalf
        rcases Nat.le_and_le_add_one_iff.1 ⟨le_roundedMantissa em, roundedMantissa_le em⟩ with h | h
        · exact .inl ⟨h, hhalf.le⟩
        · exact .inr ⟨h, habove⟩
  rcases hcases with ⟨hr, hle⟩ | ⟨hr, hle⟩
  · rw [hr]
    omega
  · rw [hr, Nat.add_one_mul (m / 2 ^ k)]
    omega

/-! ### Nearest numbers -/

/-- No number of the format is nearer to `x`, be its exponent as large as it may. -/
structure Nearest (u : UnpackedFloat) (x : ℝ) : Prop where
  canonical : Canonical u
  isFinite : u.isFinite = true
  le : ∀ v, Canonical v → v.isFinite = true → |value u - x| ≤ |value v - x|

/-- A number is a multiple of a power of two, or less than all that are rounded to multiples. -/
theorem exists_multiple_or_lt (hv : Canonical v) (hfinite : v.isFinite = true) (t : Int) :
    (∃ n : ℤ, value v = n * 2 ^ t) ∨ -149 < t ∧ |value v| < 2 ^ 23 * 2 ^ t := by
  rcases zero_or_finite hfinite with ⟨s, rfl⟩ | ⟨s, n, f, hn, rfl⟩
  · refine .inl ⟨0, ?_⟩
    rw [Int.cast_zero, zero_mul]
    rfl
  rcases Int.lt_or_le f t with hlt | hle
  · have hf := Fits.neg_149_le hv
    refine .inr ⟨by omega, ?_⟩
    rw [abs_value_finite]
    calc (n : ℝ) * 2 ^ f < 2 ^ 24 * 2 ^ f := by
          gcongr
          exact_mod_cast Fits.lt_two_pow hv
      _ = 2 ^ 23 * 2 ^ (f + 1) := by
          rw [zpow_add_one₀ two_ne_zero]
          ring
      _ ≤ 2 ^ 23 * 2 ^ t := by
          gcongr
          · exact one_le_two
          · omega
  · obtain ⟨d, rfl⟩ := Int.le.dest hle
    refine .inl ⟨s.apply (n * 2 ^ d : ℕ), ?_⟩
    rw [cast_apply, value, zpow_add₀ two_ne_zero, zpow_natCast]
    push_cast
    ring

/-- Among the multiples of a power of two. -/
theorem abs_sub_le_of_near {r : ℕ} (h : 2 * (r * 2 ^ k) ≤ 2 * m + 2 ^ k)
    (h' : 2 * m ≤ 2 * (r * 2 ^ k) + 2 ^ k) (n : ℤ) :
    |(r : ℝ) * 2 ^ (e + k) - m * 2 ^ e| ≤ |(n : ℝ) * 2 ^ (e + k) - m * 2 ^ e| := by
  have hint : |(r : ℤ) * 2 ^ k - m| ≤ |n * 2 ^ k - m| := by
    rcases eq_or_ne n r with rfl | hne
    · exact le_rfl
    · -- another multiple is at least half a unit away
      zify at h h'
      have hgap : (2 : ℤ) ^ k ≤ |n * 2 ^ k - r * 2 ^ k| := by
        rw [← sub_mul, abs_mul, abs_of_pos (pow_pos two_pos k : (0 : ℤ) < 2 ^ k)]
        exact le_mul_of_one_le_left (by positivity) (Int.one_le_abs (sub_ne_zero.2 hne))
      rcases le_abs.1 hgap with hgap | hgap
      · exact (abs_le.2 ⟨by linarith, by linarith⟩).trans (le_abs_self _)
      · exact (abs_le.2 ⟨by linarith, by linarith⟩).trans (neg_le_abs _)
  have hscale : ∀ a : ℤ, (a : ℝ) * 2 ^ (e + k) - m * 2 ^ e = ((a * 2 ^ k - m : ℤ) : ℝ) * 2 ^ e := by
    intro a
    rw [zpow_add₀ two_ne_zero, zpow_natCast]
    push_cast
    ring
  have hr := hscale r
  rw [Int.cast_natCast] at hr
  rw [hr, hscale n, abs_mul, abs_mul, ← Int.cast_abs, ← Int.cast_abs]
  exact mul_le_mul_of_nonneg_right (Int.cast_le.2 hint) (abs_nonneg _)

/-- Rounding a mantissa of which all bits are known. -/
theorem nearest_roundWithAccuracy (h : Enough m e) (s : Sign) :
    Nearest (roundWithAccuracy .binary32 s m e .exact) (factor s * (m * 2 ^ e)) := by
  obtain ⟨k, hk⟩ := Int.eq_ofNat_of_zero_le (Int.sub_nonneg.2 h.le_target)
  have hk : target m e = e + k := by omega
  have hsettles := settles_roundWithAccuracy hk s .exact
  obtain ⟨hle, hle'⟩ := (keeps_repeat m k).near
  refine ⟨hsettles.canonical, hsettles.isFinite, fun v hv hfinite ↦ ?_⟩
  rw [ExtendedMantissa.ofMantissaAndAccuracy] at hsettles
  set r := (k.repeat ExtendedMantissa.shiftRightOne ⟨m, false, false⟩).roundedMantissa
  have hmultiple : ∀ n : ℤ, |value (roundWithAccuracy .binary32 s m e .exact) -
      factor s * (m * 2 ^ e)| ≤ |(n : ℝ) * 2 ^ target m e - m * 2 ^ e| := by
    intro n
    rw [hsettles.value, ← mul_sub, abs_mul, abs_factor, one_mul, hk]
    exact abs_sub_le_of_near hle hle' n
  -- the sign is moved to the number that is compared
  have hsign : |value v - factor s * (m * 2 ^ e)| = |factor s * value v - m * 2 ^ e| := by
    have hsquare : factor s * factor s = 1 := by
      rw [← abs_mul_abs_self, abs_factor, mul_one]
    rw [← one_mul |value v - _|, ← abs_factor s, ← abs_mul, mul_sub, ← mul_assoc, hsquare, one_mul]
  rw [hsign]
  rcases exists_multiple_or_lt hv hfinite (target m e) with ⟨n, hn⟩ | ⟨ht, hlt⟩
  · have hcast : factor s * value v = ((s.apply n : ℤ) : ℝ) * 2 ^ target m e := by
      rw [hn, ← mul_assoc]
      cases s with
      | negative => simp [factor, Sign.apply]
      | positive => simp [factor, Sign.apply]
    rw [hcast]
    exact hmultiple _
  · -- the least multiple with all its bits lies between the number and what is rounded
    refine (hmultiple (2 ^ 23 : ℕ)).trans ?_
    have hlarge : ((2 ^ 23 : ℕ) : ℝ) * 2 ^ target m e ≤ m * 2 ^ e := by
      have hdiv := two_pow_le_div hk ht
      rw [hk, Int.add_comm, zpow_add₀ two_ne_zero, zpow_natCast, ← mul_assoc]
      gcongr
      exact_mod_cast (Nat.mul_le_mul_right _ hdiv).trans (Nat.div_mul_le_self m (2 ^ k))
    have hless : factor s * value v < (2 ^ 23 : ℕ) * 2 ^ target m e := by
      refine (le_abs_self _).trans_lt ?_
      rw [abs_mul, abs_factor, one_mul]
      exact_mod_cast hlt
    rw [Int.cast_natCast, abs_of_nonpos (by linarith), abs_of_nonpos (by linarith)]
    linarith

theorem Rounded.nearest (h : Rounded u x) : Nearest u x := by
  cases h with
  | exact hu h =>
    refine ⟨hu, h, fun v _ _ ↦ ?_⟩
    rw [sub_self, abs_zero]
    exact abs_nonneg _
  | round h s => exact nearest_roundWithAccuracy h s

/-- **Rounding is monotone.** -/
theorem Nearest.value_le_value (hu : Nearest u x) (hv : Nearest v y) (h : x < y) :
    value u ≤ value v := by
  by_contra! hlt
  have hx := sq_le_sq.2 (hu.le v hv.canonical hv.isFinite)
  have hy := sq_le_sq.2 (hv.le u hu.canonical hu.isFinite)
  -- the middle between the two numbers is not above `x` and not below `y`
  have hx : (value u - value v) * (value u + value v - 2 * x) ≤ 0 := by linarith
  have hy : 0 ≤ (value u - value v) * (value u + value v - 2 * y) := by linarith
  have hpos : 0 < value u - value v := sub_pos.2 hlt
  have hx := nonpos_of_mul_nonpos_right hx hpos
  have hy := nonneg_of_mul_nonneg_right hy hpos
  linarith

end Unpacked

end RwxScene
