import Mathlib
import RwxScene.Proofs.Scalar.Extremes
import RwxScene.Proofs.Scalar.Nearest

/-!
# Scalars between others

A computed sum or product lies between those of the ends of intervals in which its terms lie, and is
finite if these are (`Scalar.Between.add`, `Scalar.Between.mul_of_nonneg`). The exact results stand
in this order; where they differ, rounding is monotone, and where they do not, the terms are the
same numbers and so are the results.
-/

namespace RwxScene

open Float.Model (UnpackedFloat)
open Float.Model.UnpackedFloat

namespace Unpacked

variable {u v : UnpackedFloat} {x y : ℝ}

theorem Same.value_eq (h : Same u v) : value u = value v := by
  rcases h with rfl | ⟨s, t, rfl, rfl⟩
  · rfl
  · rfl

/-- Results stand in the order of what they are rounded from. -/
theorem Rounded.value_le_value (hu : Rounded u x) (hv : Rounded v y) (hle : x ≤ y)
    (heq : x = y → Same u v) : value u ≤ value v := by
  rcases hle.lt_or_eq with hlt | h
  · exact hu.nearest.value_le_value hv.nearest hlt
  · exact (heq h).value_eq.le

end Unpacked

namespace Scalar

open Unpacked

variable {a b c d : Scalar}

/-! ### Order and values -/

theorem Alike.value_eq (h : Alike a b) : a.value = b.value := (alike_iff.1 h).value_eq

theorem value_le_value (ha : a.isFinite = true) (hb : b.isFinite = true) (h : a ≤ b) :
    a.value ≤ b.value := by
  obtain ⟨hle, -⟩ := (le_iff_rank a b).1 h
  rcases hle.lt_or_eq with hlt | heq
  · have hne := mt rank_eq_top_iff.1 (not_isNaN_of_isFinite hb)
    exact (value_lt_value ha hb ((lt_iff_rank a b).2 ⟨hlt, hne⟩)).le
  · exact (alike_of_rank_eq heq).value_eq.le

/-- Finite scalars are compared as the numbers that they stand for. -/
theorem le_iff_value_le (ha : a.isFinite = true) (hb : b.isFinite = true) :
    a ≤ b ↔ a.value ≤ b.value := by
  refine ⟨value_le_value ha hb, fun h ↦ ?_⟩
  refine le_of_not_lt (not_isNaN_of_isFinite hb) (not_isNaN_of_isFinite ha) fun hlt ↦ ?_
  exact (value_lt_value hb ha hlt).not_ge h

theorem le_refl_of_isFinite (h : a.isFinite = true) : a ≤ a := (le_iff_value_le h h).2 le_rfl

theorem unpacked_largest : ∃ h, unpacked largest = .finite .positive (2 ^ 24 - 1) 104 h :=
  ⟨by decide, by rfl⟩

theorem neg_largest : -largest = smallest := by decide

/-- No finite scalar exceeds the largest one. -/
theorem le_largest (h : a.isFinite = true) : a ≤ largest := by
  have hlargest : largest.isFinite = true := by decide
  obtain ⟨hm, hunpacked⟩ := unpacked_largest
  rw [le_iff_value_le h hlargest, value_of_unpacked hunpacked]
  rcases zero_or_finite (show (unpacked a).isFinite = true from h) with ⟨s, hs⟩ | ⟨s, m, e, hm, hs⟩
  · rw [value, hs]
    show (0 : ℝ) ≤ _
    positivity
  · have hfits : Fits m e := by
      have hcanonical := canonical_unpacked a
      rwa [hs] at hcanonical
    have he : e ≤ 104 := by
      rw [← ofUnpacked_unpacked a, hs] at h
      exact le_of_isFinite_ofUnpacked h
    have hle : m ≤ 2 ^ 24 - 1 := Nat.le_sub_one_of_lt hfits.lt_two_pow
    calc a.value ≤ |a.value| := le_abs_self _
      _ = m * 2 ^ e := by rw [value, hs, abs_value_finite]
      _ ≤ ((2 ^ 24 - 1 : ℕ) : ℝ) * 2 ^ (104 : ℤ) := by
        gcongr
        exact one_le_two

/-- No two numbers have one value. -/
theorem same_of_value_eq (ha : a.isFinite = true) (hb : b.isFinite = true)
    (h : a.value = b.value) : Same (unpacked a) (unpacked b) := by
  have hab := ((le_iff_rank a b).1 ((le_iff_value_le ha hb).2 h.le)).1
  have hba := ((le_iff_rank b a).1 ((le_iff_value_le hb ha).2 h.ge)).1
  exact alike_iff.1 (alike_of_rank_eq (hab.antisymm hba))

/-- A multiple of a number by zero. -/
theorem exists_zero_mul (ha : a.isFinite = true) (hzero : a.value = 0) (hb : b.isFinite = true) :
    ∃ s, UnpackedFloat.mul .binary32 (unpacked a) (unpacked b) = .zero s := by
  have hsame := same_of_value_eq (b := 0) ha rfl (hzero.trans value_zero.symm)
  obtain ⟨s, hs⟩ := alike_zero_iff.1 (alike_iff.2 hsame)
  rw [hs]
  rcases zero_or_finite (show (unpacked b).isFinite = true from hb) with ⟨t, ht⟩ | ⟨t, n, f, hn, ht⟩
  · exact ⟨s * t, by rw [ht]; rfl⟩
  · exact ⟨s * t, by rw [ht]; rfl⟩

/-- No finite number is as low or as high as infinity. -/
theorem infinity_beyond (h : a.isFinite = true) :
    ¬((unpacked a).compare (.infinity .negative)).any (·.isLE) = true ∧
      ¬(UnpackedFloat.compare (.infinity .positive) (unpacked a)).any (·.isLE) = true := by
  replace h : (unpacked a).isFinite = true := h
  rcases zero_or_finite h with ⟨s, hs⟩ | ⟨s, m, e, hm, hs⟩
  · rw [hs]
    cases s <;> decide
  · rw [hs]
    cases s <;> simp [UnpackedFloat.compare]

/-- What lies between two finite scalars is finite. -/
theorem isFinite_of_le_of_le {l h : Scalar} (hl : l.isFinite = true) (hh : h.isFinite = true)
    (hla : l ≤ a) (hah : a ≤ h) : a.isFinite = true := by
  have hlow : ((unpacked l).compare (unpacked a)).any (·.isLE) = true := of_decide_eq_true hla
  have hhigh : ((unpacked a).compare (unpacked h)).any (·.isLE) = true := of_decide_eq_true hah
  show (unpacked a).isFinite = true
  cases ha : unpacked a with
  | zero s => rfl
  | finite s m e hm => rfl
  | notANumber =>
    rw [ha, compare_notANumber_left] at hhigh
    exact absurd hhigh (by decide)
  | infinity s =>
    rw [ha] at hlow hhigh
    cases s with
    | negative => exact absurd hlow (infinity_beyond hl).1
    | positive => exact absurd hhigh (infinity_beyond hh).2

/-! ### Intervals -/

/-- A finite scalar between two finite scalars. -/
structure Between (l a h : Scalar) : Prop where
  isFinite_low : l.isFinite = true
  isFinite : a.isFinite = true
  isFinite_high : h.isFinite = true
  low : l.value ≤ a.value
  high : a.value ≤ h.value

namespace Between

variable {l h l' h' : Scalar} {u v w : UnpackedFloat} {x y z : ℝ}

theorem of_le (hl : l.isFinite = true) (hh : h.isFinite = true) (hla : l ≤ a) (hah : a ≤ h) :
    Between l a h := by
  have ha := isFinite_of_le_of_le hl hh hla hah
  exact ⟨hl, ha, hh, value_le_value hl ha hla, value_le_value ha hh hah⟩

theorem refl (ha : a.isFinite = true) : Between a a a := ⟨ha, ha, ha, le_rfl, le_rfl⟩

theorem low_le (hb : Between l a h) : l ≤ a :=
  (le_iff_value_le hb.isFinite_low hb.isFinite).2 hb.low

theorem le_high (hb : Between l a h) : a ≤ h :=
  (le_iff_value_le hb.isFinite hb.isFinite_high).2 hb.high

theorem neg (hb : Between l a h) : Between (-h) (-a) (-l) := by
  refine ⟨?_, ?_, ?_, ?_, ?_⟩
  · exact (isFinite_neg h).trans hb.isFinite_high
  · exact (isFinite_neg a).trans hb.isFinite
  · exact (isFinite_neg l).trans hb.isFinite_low
  · rw [value_neg, value_neg]
    exact neg_le_neg hb.high
  · rw [value_neg, value_neg]
    exact neg_le_neg hb.low

/-- What is rounded to a number between two that stay finite stays finite. -/
theorem of_rounded (hu : Rounded u x) (hv : Rounded v y) (hw : Rounded w z)
    (hul : Unpacked.value u ≤ Unpacked.value v) (hvw : Unpacked.value v ≤ Unpacked.value w)
    (hl : (ofUnpacked u).isFinite = true) (hh : (ofUnpacked w).isFinite = true) :
    Between (ofUnpacked u) (ofUnpacked v) (ofUnpacked w) := by
  have hu := hu.nearest.canonical
  have hw := hw.nearest.canonical
  have hv' := hv.nearest.canonical
  have hlow := abs_lt.1 (abs_value_lt_of_isFinite hu hl)
  have hhigh := abs_lt.1 (abs_value_lt_of_isFinite hw hh)
  have hfinite := isFinite_ofUnpacked hv' hv.nearest.isFinite
    (abs_lt.2 ⟨hlow.1.trans_le hul, hvw.trans_lt hhigh.2⟩)
  refine ⟨hl, hfinite, hh, ?_, ?_⟩
  · rwa [value, value, unpacked_ofUnpacked_of_isFinite hu hl,
      unpacked_ofUnpacked_of_isFinite hv' hfinite]
  · rwa [value, value, unpacked_ofUnpacked_of_isFinite hv' hfinite,
      unpacked_ofUnpacked_of_isFinite hw hh]

/-- A sum of scalars in intervals. -/
theorem add (hb : Between l a h) (hb' : Between l' b h') (hl : (l + l').isFinite = true)
    (hh : (h + h').isFinite = true) : Between (l + l') (a + b) (h + h') := by
  have hrounded : ∀ {c d : Scalar}, c.isFinite = true → d.isFinite = true →
      Rounded (UnpackedFloat.add .binary32 (unpacked c) (unpacked d)) (c.value + d.value) :=
    fun {c d} hc hd ↦ rounded_add (canonical_unpacked c) (canonical_unpacked d) hc hd
  -- equal sums have equal terms
  have hmono : ∀ {a b c d : Scalar}, a.isFinite = true → b.isFinite = true → c.isFinite = true →
      d.isFinite = true → a.value ≤ c.value → b.value ≤ d.value →
      Unpacked.value (UnpackedFloat.add .binary32 (unpacked a) (unpacked b)) ≤
        Unpacked.value (UnpackedFloat.add .binary32 (unpacked c) (unpacked d)) := by
    intro a b c d ha hb hc hd hac hbd
    refine (hrounded ha hb).value_le_value (hrounded hc hd) (add_le_add hac hbd) fun heq ↦ ?_
    have hvalues : a.value = c.value ∧ b.value = d.value := by constructor <;> linarith
    exact (same_of_value_eq ha hc hvalues.1).add (same_of_value_eq hb hd hvalues.2)
  exact of_rounded (hrounded hb.isFinite_low hb'.isFinite_low) (hrounded hb.isFinite hb'.isFinite)
    (hrounded hb.isFinite_high hb'.isFinite_high)
    (hmono hb.isFinite_low hb'.isFinite_low hb.isFinite hb'.isFinite hb.low hb'.low)
    (hmono hb.isFinite hb'.isFinite hb.isFinite_high hb'.isFinite_high hb.high hb'.high) hl hh

/-- A multiple of a scalar in an interval. -/
theorem mul_of_nonneg (hb : Between l a h) (hc : 0 ≤ c.value) (hl : (c * l).isFinite = true)
    (hh : (c * h).isFinite = true) : Between (c * l) (c * a) (c * h) := by
  have hfinite := (isFinite_of_mul hl).1
  have hrounded : ∀ {d : Scalar}, d.isFinite = true →
      Rounded (UnpackedFloat.mul .binary32 (unpacked c) (unpacked d)) (c.value * d.value) :=
    fun {d} hd ↦ rounded_mul (canonical_unpacked c) (canonical_unpacked d) hfinite hd
  -- equal products have equal factors, unless they vanish
  have hmono : ∀ {a b : Scalar}, a.isFinite = true → b.isFinite = true → a.value ≤ b.value →
      Unpacked.value (UnpackedFloat.mul .binary32 (unpacked c) (unpacked a)) ≤
        Unpacked.value (UnpackedFloat.mul .binary32 (unpacked c) (unpacked b)) := by
    intro a b ha hb hab
    have hle := mul_le_mul_of_nonneg_left hab hc
    refine (hrounded ha).value_le_value (hrounded hb) hle fun heq ↦ ?_
    rcases mul_eq_mul_left_iff.1 heq with hvalue | hzero
    · exact (Same.refl _).mul (same_of_value_eq ha hb hvalue)
    · obtain ⟨s, hs⟩ := exists_zero_mul hfinite hzero ha
      obtain ⟨t, ht⟩ := exists_zero_mul hfinite hzero hb
      rw [hs, ht]
      exact same_zero s t
  exact of_rounded (hrounded hb.isFinite_low) (hrounded hb.isFinite) (hrounded hb.isFinite_high)
    (hmono hb.isFinite_low hb.isFinite hb.low) (hmono hb.isFinite hb.isFinite_high hb.high) hl hh

theorem mul_of_nonpos (hb : Between l a h) (hc : c.value ≤ 0) (hl : (c * l).isFinite = true)
    (hh : (c * h).isFinite = true) : Between (c * h) (c * a) (c * l) := by
  have hneg : ∀ d : Scalar, -(-c * d) = c * d := fun d ↦ by rw [neg_mul, Scalar.neg_neg]
  have hfinite : ∀ {d : Scalar}, (c * d).isFinite = true → (-c * d).isFinite = true :=
    fun {d} hd ↦ by rwa [neg_mul, isFinite_neg]
  have hc' : 0 ≤ (-c).value := by
    rw [value_neg]
    exact neg_nonneg.2 hc
  have hbetween := (hb.mul_of_nonneg hc' (hfinite hl) (hfinite hh)).neg
  rwa [hneg, hneg, hneg] at hbetween

/-- A multiple lies between those of the ends, in one of the two orders. -/
theorem exists_mul (hb : Between l a h) (hl : (c * l).isFinite = true)
    (hh : (c * h).isFinite = true) :
    ∃ l' ∈ [l, h], ∃ h' ∈ [l, h], Between (c * l') (c * a) (c * h') := by
  rcases le_total 0 c.value with hc | hc
  · exact ⟨l, by simp, h, by simp, hb.mul_of_nonneg hc hl hh⟩
  · exact ⟨h, by simp, l, by simp, hb.mul_of_nonpos hc hl hh⟩

end Between

end Scalar

end RwxScene
