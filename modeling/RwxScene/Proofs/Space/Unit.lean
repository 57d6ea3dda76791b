import Mathlib
import RwxScene.Proofs.Scalar.Rounding
import RwxScene.Proofs.Space.Mirror
import RwxScene.Scene.Validation
import RwxScene.Settings

/-!
# Unit vectors

A vector that was divided by its length is nearly of unit length (`Vec3.isNearUnit_of_normalize?`),
whatever it was before. The components of a vector may be so large that its square overflows, and so
small that it vanishes; in the one case the length is not finite and in the other it is zero, and
neither is divided by. A length that is finite and exceeds a hundred-millionth is the right one but
for the rounding errors, which are about a millionth: its square is that large that a term of it that
vanishes is of no importance.

The tolerance of a validation is a hundredth and leaves room for all that.
-/

namespace RwxScene

open Scalar

/-! ### Sums of squares -/

namespace Scalar

variable {a b : Scalar} {x y c d : ℝ}

theorem rounds_square (ha : a.isFinite = true) : Rounds (a * a) (a.value ^ 2) := by
  rw [pow_two]
  exact rounds_mul ha ha

theorem near_square (h : (a * a).isFinite = true) :
    |(a * a).value - a.value ^ 2| ≤ 2⁻¹ ^ 23 * a.value ^ 2 + 2⁻¹ ^ 149 := by
  have hnear := (rounds_square (isFinite_of_mul h).1).near h
  rwa [abs_of_nonneg (sq_nonneg a.value)] at hnear

theorem isFinite_square (ha : a.isFinite = true) (h : a.value ^ 2 ≤ 2) :
    (a * a).isFinite = true ∧ |(a * a).value| ≤ 3 := by
  have hnonneg := sq_nonneg a.value
  have hfinite : (a * a).isFinite = true := by
    refine (rounds_square ha).isFinite ?_
    rw [abs_of_nonneg hnonneg]
    exact h.trans (by norm_num)
  have hnear := abs_le.1 (near_square hfinite)
  refine ⟨hfinite, abs_le.2 ⟨?_, ?_⟩⟩ <;> linarith

/-- A sum of terms that are not huge. -/
theorem isFinite_add (ha : a.isFinite = true) (hb : b.isFinite = true) (hac : |a.value| ≤ c)
    (hbc : |b.value| ≤ c) (hc : c ≤ 2 ^ 126) :
    (a + b).isFinite = true ∧ |(a + b).value| ≤ 3 * c + 1 := by
  have hsum : |a.value + b.value| ≤ 2 * c := (abs_add_le _ _).trans (by linarith)
  have hfinite := (rounds_add ha hb).isFinite (hsum.trans (by linarith))
  have hnear := abs_le.1 ((rounds_add ha hb).near hfinite)
  have hsum' := abs_le.1 hsum
  refine ⟨hfinite, abs_le.2 ⟨?_, ?_⟩⟩ <;> linarith

/-- The errors of two terms that are not negative, and that of their sum. -/
theorem near_add (hx : 0 ≤ x) (hy : 0 ≤ y) (hc : c ≤ 1) (hd : 0 ≤ d)
    (ha : |a.value - x| ≤ c * x + d) (hb : |b.value - y| ≤ c * y + d)
    (h : (a + b).isFinite = true) :
    |(a + b).value - (x + y)| ≤ (c + 2 * 2⁻¹ ^ 23) * (x + y) + (4 * d + 2⁻¹ ^ 149) := by
  obtain ⟨hfa, hfb⟩ := isFinite_of_add h
  have hnear := abs_le.1 ((rounds_add hfa hfb).near h)
  have hcxy : c * (x + y) ≤ 1 * (x + y) := mul_le_mul_of_nonneg_right hc (add_nonneg hx hy)
  rw [abs_le] at ha hb
  have hsum : |a.value + b.value| ≤ 2 * (x + y) + 2 * d := by
    rw [abs_le]
    constructor <;> linarith
  rw [abs_le]
  constructor <;> linarith

/-- The square of a quotient, where the divisor is not much less. -/
theorem near_div_sq (ha : a.isFinite = true) (hb : b.isFinite = true) (hpos : 0 < b.value)
    (h : a.value ^ 2 ≤ 2 * b.value ^ 2) :
    (a / b).isFinite = true ∧ |(a / b).value ^ 2 - a.value ^ 2 / b.value ^ 2| ≤ 2⁻¹ ^ 18 := by
  have hrounds := rounds_div ha hb hpos.ne'
  have hy : |a.value / b.value| ≤ 2 := by
    refine abs_le_of_sq_le_sq ?_ two_pos.le
    rw [div_pow, div_le_iff₀ (by positivity)]
    linarith [sq_nonneg b.value]
  have hfinite := hrounds.isFinite (hy.trans (by norm_num))
  have hnear := hrounds.near hfinite
  refine ⟨hfinite, ?_⟩
  rw [← div_pow]
  generalize a.value / b.value = y at hy hnear ⊢
  generalize (a / b).value = r at hnear ⊢
  have hdiff : |r - y| ≤ 2⁻¹ ^ 21 := by linarith
  have hsum : |r + y| ≤ 5 := by
    rw [abs_le] at hdiff hy ⊢
    constructor <;> linarith
  calc |r ^ 2 - y ^ 2| = |r - y| * |r + y| := by rw [← abs_mul]; ring_nf
    _ ≤ 2⁻¹ ^ 21 * 5 := by gcongr
    _ ≤ 2⁻¹ ^ 18 := by norm_num

/-- The square of a root that is computed is what the root is of, if that is not tiny. -/
theorem near_sqrt (h : a.sqrt.isFinite = true) (hlarge : 2⁻¹ ^ 27 < value a.sqrt) :
    2⁻¹ ^ 56 ≤ a.value ∧ |value a.sqrt ^ 2 - a.value| ≤ 2⁻¹ ^ 20 * a.value := by
  have hnonneg := value_nonneg_of_isFinite_sqrt h
  have hroot := (rounds_sqrt (isFinite_of_sqrt h) hnonneg).near h
  have hw := Real.sqrt_nonneg a.value
  have hq := Real.sq_sqrt hnonneg
  rw [abs_of_nonneg hw] at hroot
  generalize √a.value = w at hroot hq hw
  generalize value a.sqrt = l at hroot hlarge ⊢
  rw [← hq]
  have hwlarge : 2⁻¹ ^ 28 ≤ w := by linarith [(abs_le.1 hroot).2]
  have hrel : |l - w| ≤ 2⁻¹ ^ 22 * w := by linarith
  have hsum : |l + w| ≤ 3 * w := by
    rw [abs_le] at hrel ⊢
    constructor <;> linarith
  refine ⟨?_, ?_⟩
  · calc (2⁻¹ : ℝ) ^ 56 = (2⁻¹ ^ 28) ^ 2 := by norm_num
      _ ≤ w ^ 2 := by gcongr
  · calc |l ^ 2 - w ^ 2| = |l - w| * |l + w| := by rw [← abs_mul]; ring_nf
      _ ≤ 2⁻¹ ^ 22 * w * (3 * w) := by gcongr
      _ = 3 * 2⁻¹ ^ 22 * w ^ 2 := by ring
      _ ≤ 2⁻¹ ^ 20 * w ^ 2 := by gcongr; norm_num

/-- A threshold that keeps out lengths of which rounding may have left nothing. -/
structure Guards (epsilon : Scalar) : Prop where
  isFinite : epsilon.isFinite = true
  le : 2⁻¹ ^ 27 ≤ epsilon.value

theorem guards_initial : Guards Settings.initial.degenerateNormalEpsilon := by
  have h : unpacked Settings.initial.degenerateNormalEpsilon =
      .finite .positive 11258999 (-50) (by decide) := by rfl
  refine ⟨by rfl, ?_⟩
  rw [value_of_unpacked h]
  norm_num

end Scalar

namespace Vec3

variable {a n : Vec3} {epsilon : Scalar}

/-- The exact square of the length. -/
noncomputable def normSq (a : Vec3) : ℝ := a.x.value ^ 2 + a.y.value ^ 2 + a.z.value ^ 2

theorem normSq_nonneg (a : Vec3) : 0 ≤ a.normSq := by
  rw [normSq]
  positivity

/-- The components of a vector with a finite square are finite. -/
theorem isFinite_of_lengthSquared (h : a.lengthSquared.isFinite = true) : a.isFinite = true := by
  obtain ⟨hxy, hz⟩ := isFinite_of_add h
  obtain ⟨hx, hy⟩ := isFinite_of_add hxy
  exact isFinite_iff.2 ⟨(isFinite_of_mul hx).1, (isFinite_of_mul hy).1, (isFinite_of_mul hz).1⟩

/-- The square that is computed is that of the length but for the errors of five operations. -/
theorem near_lengthSquared (h : a.lengthSquared.isFinite = true) :
    |a.lengthSquared.value - a.normSq| ≤ 2⁻¹ ^ 20 * a.normSq + 2⁻¹ ^ 144 := by
  obtain ⟨hxy, hzz⟩ := isFinite_of_add h
  obtain ⟨hxx, hyy⟩ := isFinite_of_add hxy
  have hX := sq_nonneg a.x.value
  have hY := sq_nonneg a.y.value
  have hZ := sq_nonneg a.z.value
  have hnearxy := near_add hX hY (by norm_num) (by norm_num) (near_square hxx) (near_square hyy) hxy
  have hnearz := near_square hzz
  have hnear : |a.lengthSquared.value - a.normSq| ≤ _ :=
    near_add (c := 2⁻¹ ^ 23 + 2 * 2⁻¹ ^ 23) (d := 4 * 2⁻¹ ^ 149 + 2⁻¹ ^ 149) (add_nonneg hX hY) hZ
      (by norm_num) (by norm_num) hnearxy (hnearz.trans (by gcongr <;> norm_num)) h
  refine hnear.trans ?_
  rw [normSq]
  gcongr <;> norm_num

/-- The components of a vector that is not too long have a finite square. -/
theorem isFinite_lengthSquared (ha : a.isFinite = true) (h : a.normSq ≤ 2) :
    a.lengthSquared.isFinite = true := by
  obtain ⟨hx, hy, hz⟩ := isFinite_iff.1 ha
  rw [normSq] at h
  have hX := sq_nonneg a.x.value
  have hY := sq_nonneg a.y.value
  have hZ := sq_nonneg a.z.value
  obtain ⟨hxx, hxle⟩ := isFinite_square hx (by linarith)
  obtain ⟨hyy, hyle⟩ := isFinite_square hy (by linarith)
  obtain ⟨hzz, hzle⟩ := isFinite_square hz (by linarith)
  obtain ⟨hxy, hxyle⟩ := isFinite_add hxx hyy hxle hyle (by norm_num)
  exact (isFinite_add hxy hzz hxyle (hzle.trans (by norm_num)) (by norm_num)).1

/-! ### Lengths -/

/-- The length that is computed is the right one, if it is not tiny. -/
theorem near_length (h : a.length.isFinite = true) (hlarge : 2⁻¹ ^ 27 < a.length.value) :
    |a.normSq - a.length.value ^ 2| ≤ 2⁻¹ ^ 16 * a.length.value ^ 2 := by
  have hfinite : a.lengthSquared.isFinite = true := isFinite_of_sqrt h
  have hsquare := abs_le.1 (near_lengthSquared hfinite)
  obtain ⟨hle, hroot⟩ := near_sqrt h hlarge
  have hroot : |a.length.value ^ 2 - _| ≤ _ := hroot
  have hS := a.normSq_nonneg
  rw [abs_le] at hroot ⊢
  constructor <;> linarith

/-! ### Unit vectors -/

/-- The vector is finite and its length is nearly one. -/
structure IsNearUnit (n : Vec3) : Prop where
  isFinite : n.isFinite = true
  near : |n.normSq - 1| ≤ 2⁻¹ ^ 15

theorem isNearUnit_up : IsNearUnit .up := by
  refine ⟨by decide, ?_⟩
  rw [normSq, up, value_zero, value_one]
  norm_num

theorem isFinite_of_length (h : a.length.isFinite = true) : a.isFinite = true :=
  isFinite_of_lengthSquared (isFinite_of_sqrt h)

theorem isNearUnit_div_length (h : a.length.isFinite = true)
    (hlarge : 2⁻¹ ^ 27 < a.length.value) : IsNearUnit (a / a.length) := by
  obtain ⟨hx, hy, hz⟩ := isFinite_iff.1 (isFinite_of_length h)
  have hlength := near_length h hlarge
  have hpos : 0 < a.length.value := lt_trans (by norm_num) hlarge
  have hle : a.normSq ≤ 2 * a.length.value ^ 2 := by
    have := (abs_le.1 hlength).2
    linarith [sq_nonneg a.length.value]
  have hX := sq_nonneg a.x.value
  have hY := sq_nonneg a.y.value
  have hZ := sq_nonneg a.z.value
  rw [normSq] at hle
  obtain ⟨hfx, hnearx⟩ := near_div_sq hx h hpos (by linarith)
  obtain ⟨hfy, hneary⟩ := near_div_sq hy h hpos (by linarith)
  obtain ⟨hfz, hnearz⟩ := near_div_sq hz h hpos (by linarith)
  refine ⟨isFinite_iff.2 ⟨hfx, hfy, hfz⟩, ?_⟩
  have hone : |a.normSq / a.length.value ^ 2 - 1| ≤ 2⁻¹ ^ 16 := by
    rw [div_sub_one (by positivity), abs_div, abs_of_pos (by positivity : 0 < a.length.value ^ 2),
      div_le_iff₀ (by positivity)]
    exact hlength
  rw [normSq, add_div, add_div] at hone
  have hnorm : (a / a.length).normSq = (a.x / a.length).value ^ 2 + (a.y / a.length).value ^ 2 +
      (a.z / a.length).value ^ 2 := rfl
  rw [hnorm]
  rw [abs_le] at *
  constructor <;> linarith

/-- What the guard lets through is long enough to be divided by its length. -/
theorem isNearUnit_of_normalize? (hepsilon : epsilon.Guards) (h : a.normalize? epsilon = some n) :
    IsNearUnit n := by
  rw [normalize?] at h
  split at h
  · rename_i hguard
    obtain ⟨hlength, hlt⟩ := Bool.and_eq_true_iff.1 hguard
    obtain rfl := Option.some.inj h
    exact isNearUnit_div_length hlength
      (hepsilon.le.trans_lt (value_lt_value hepsilon.isFinite hlength (of_decide_eq_true hlt)))
  · exact absurd h (by simp)

/-- The square of the length of a unit vector, as it is computed. -/
theorem IsNearUnit.near_lengthSquared (h : IsNearUnit n) :
    n.lengthSquared.isFinite = true ∧ |n.lengthSquared.value - 1| ≤ 2⁻¹ ^ 14 := by
  have hnear := abs_le.1 h.near
  have hfinite := isFinite_lengthSquared h.isFinite (by linarith)
  have hsquare := abs_le.1 (Vec3.near_lengthSquared hfinite)
  refine ⟨hfinite, abs_le.2 ⟨?_, ?_⟩⟩ <;> linarith

theorem lt_normalTolerance :
    2⁻¹ ^ 7 < value Validation.Options.initial.normalTolerance := by
  have h : unpacked Validation.Options.initial.normalTolerance =
      .finite .positive 10737418 (-30) (by decide) := by rfl
  rw [value_of_unpacked h]
  norm_num

/-- A validation has nothing to say against a unit vector. -/
theorem IsNearUnit.isOffUnit_eq_false (h : IsNearUnit n) :
    Validation.isOffUnit Validation.Options.initial.normalTolerance n = false := by
  refine Bool.eq_false_iff.2 fun hoff ↦ ?_
  obtain ⟨hsquare, hnear⟩ := h.near_lengthSquared
  have hone : Float32.isFinite 1 = true := by rfl
  have hrounds := rounds_sub hsquare hone
  rw [value_one] at hrounds
  have hfinite := hrounds.isFinite (hnear.trans (by norm_num))
  have hlt := value_lt_value (by rfl) ((isFinite_abs _).trans hfinite) (of_decide_eq_true hoff)
  have hle := value_abs_le (n.lengthSquared - 1)
  have hdiff := hrounds.near hfinite
  have htolerance := lt_normalTolerance
  have habs := abs_sub_abs_le_abs_sub (value (n.lengthSquared - 1)) (n.lengthSquared.value - 1)
  linarith

end Vec3

end RwxScene
