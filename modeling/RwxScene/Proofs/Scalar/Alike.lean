import RwxScene.Proofs.Scalar.Exact

/-!
# Scalars as numbers

Two scalars are `Alike` if they are equal as numbers or if neither is a number; what is left open is
the sign of a zero. All operations respect this but the division by a zero.

`Image odd a b` says that `a` is like `b`, or like its opposite if `odd` is true. This is how a
quantity of a scene is related to the same quantity of the mirrored scene: its parity is that of the
number of factors that change their sign. A sum has the parity of its terms and a product the sum of
those of its factors; what is even is compared and measured as it was.
-/

namespace RwxScene

open Float.Model (Format UnpackedFloat)
open Float.Model.UnpackedFloat

namespace Unpacked

variable {spec : Format} {u v : UnpackedFloat}

theorem isFinite_of_add (h : (UnpackedFloat.add spec u v).isFinite = true) :
    u.isFinite = true ∧ v.isFinite = true := by
  revert h
  cases u <;> cases v <;> simp [UnpackedFloat.add, UnpackedFloat.isFinite]
  case infinity.infinity s t =>
    cases h : s == t <;> simp

theorem isFinite_of_mul (h : (UnpackedFloat.mul spec u v).isFinite = true) :
    u.isFinite = true ∧ v.isFinite = true := by
  revert h
  cases u <;> cases v <;> simp [UnpackedFloat.mul, UnpackedFloat.isFinite]

theorem isFinite_of_div (h : (UnpackedFloat.div spec u v).isFinite = true) : u.isFinite = true := by
  revert h
  cases u <;> cases v <;> simp [UnpackedFloat.div, UnpackedFloat.isFinite]

theorem isFinite_of_sqrt (h : (UnpackedFloat.sqrt spec u).isFinite = true) : u.isFinite = true := by
  revert h
  rcases u with (_ | _) | - | s | ⟨s, m, e, hm⟩ <;> simp [UnpackedFloat.sqrt, UnpackedFloat.isFinite]

theorem isFinite_div_zero (u : UnpackedFloat) (s : Sign) :
    (UnpackedFloat.div spec u (.zero s)).isFinite = false := by
  cases u <;> rfl

end Unpacked

namespace Scalar

open Unpacked

variable {a b c d : Scalar}

/-! ### Scalars that are alike -/

/-- The scalars are the same number, or neither is a number. -/
def Alike (a b : Scalar) : Prop := (a == b) = true ∨ a.isNaN = true ∧ b.isNaN = true

theorem beq_iff : (a == b) = true ↔ (unpacked a).compare (unpacked b) = some .eq := by
  show ((unpacked a).compare (unpacked b) == some .eq) = true ↔ _
  exact beq_iff_eq

theorem lt_iff : a < b ↔ (unpacked a).compare (unpacked b) = some .lt := by
  show decide (((unpacked a).compare (unpacked b) == some .lt) = true) = true ↔ _
  rw [decide_eq_true_eq]
  exact beq_iff_eq

theorem isNaN_iff : a.isNaN = true ↔ unpacked a = .notANumber := by
  show (unpacked a).isNaN = true ↔ _
  cases unpacked a <;> simp [UnpackedFloat.isNaN]

theorem alike_iff : Alike a b ↔ Same (unpacked a) (unpacked b) := by
  rw [Alike, beq_iff, isNaN_iff, isNaN_iff, compare_eq_eq_iff]
  constructor
  · rintro (⟨h, -⟩ | ⟨ha, hb⟩)
    · exact h
    · exact .inl (ha.trans hb.symm)
  · intro h
    by_cases ha : unpacked a = .notANumber
    · exact .inr ⟨ha, h.eq_notANumber_iff.1 ha⟩
    · exact .inl ⟨h, ha⟩

theorem Alike.refl (a : Scalar) : Alike a a := alike_iff.2 (.refl _)

theorem Alike.of_eq (h : a = b) : Alike a b := h ▸ .refl a

theorem Alike.symm (h : Alike a b) : Alike b a := alike_iff.2 (alike_iff.1 h).symm

theorem Alike.trans (h : Alike a b) (hbc : Alike b c) : Alike a c :=
  alike_iff.2 ((alike_iff.1 h).trans (alike_iff.1 hbc))

/-- Numbers that are the same are packed alike. -/
theorem alike_ofUnpacked {u v : UnpackedFloat} (h : Same u v) :
    Alike (ofUnpacked u) (ofUnpacked v) := by
  rcases h with rfl | ⟨s, t, rfl, rfl⟩
  · exact .refl _
  · refine alike_iff.2 ?_
    have hzero : ∀ s, unpacked (ofUnpacked (.zero s)) = .zero s := by
      intro s
      cases s <;> rfl
    rw [hzero, hzero]
    exact same_zero s t

theorem Alike.neg (h : Alike a b) : Alike (-a) (-b) := alike_ofUnpacked (alike_iff.1 h).neg

theorem Alike.add (hab : Alike a b) (hcd : Alike c d) : Alike (a + c) (b + d) :=
  alike_ofUnpacked ((alike_iff.1 hab).add (alike_iff.1 hcd))

theorem Alike.sub (hab : Alike a b) (hcd : Alike c d) : Alike (a - c) (b - d) :=
  alike_ofUnpacked ((alike_iff.1 hab).sub (alike_iff.1 hcd))

theorem Alike.mul (hab : Alike a b) (hcd : Alike c d) : Alike (a * c) (b * d) :=
  alike_ofUnpacked ((alike_iff.1 hab).mul (alike_iff.1 hcd))

theorem Alike.div (h : Alike a b) (c : Scalar) : Alike (a / c) (b / c) :=
  alike_ofUnpacked ((alike_iff.1 h).div _)

theorem Alike.sqrt (h : Alike a b) : Alike a.sqrt b.sqrt := alike_ofUnpacked (alike_iff.1 h).sqrt

theorem Alike.abs_eq (h : Alike a b) : a.abs = b.abs :=
  congrArg ofUnpacked (alike_iff.1 h).abs_eq

theorem Alike.isFinite_eq (h : Alike a b) : a.isFinite = b.isFinite := by
  show (unpacked a).isFinite = (unpacked b).isFinite
  rcases alike_iff.1 h with h | ⟨s, t, ha, hb⟩
  · rw [h]
  · rw [ha, hb]
    rfl

theorem Alike.isNaN_eq (h : Alike a b) : a.isNaN = b.isNaN := by
  rw [Bool.eq_iff_iff, isNaN_iff, isNaN_iff, (alike_iff.1 h).eq_notANumber_iff]

theorem Alike.lt_iff (hab : Alike a b) (hcd : Alike c d) : a < c ↔ b < d := by
  rw [Scalar.lt_iff, Scalar.lt_iff, (alike_iff.1 hab).compare_eq (alike_iff.1 hcd)]

theorem Alike.beq_eq (hab : Alike a b) (hcd : Alike c d) : (a == c) = (b == d) := by
  rw [Bool.eq_iff_iff, beq_iff, beq_iff, (alike_iff.1 hab).compare_eq (alike_iff.1 hcd)]

/-- Scalars that are alike are equal but for zeros. -/
theorem Alike.eq_or_zero (h : Alike a b) : a = b ∨ Alike a 0 ∧ Alike b 0 := by
  rcases alike_iff.1 h with h | ⟨s, t, ha, hb⟩
  · exact .inl (unpacked_inj h)
  · refine .inr ⟨alike_iff.2 ?_, alike_iff.2 ?_⟩
    · rw [ha]
      exact same_zero _ _
    · rw [hb]
      exact same_zero _ _

theorem Alike.eq_of_pos (h : Alike a b) (hb : 0 < b) : a = b := by
  rcases h.eq_or_zero with h | ⟨-, hzero⟩
  · exact h
  · exact absurd (((Alike.refl 0).lt_iff hzero).1 hb) (by decide)

/-! ### Laws -/

theorem neg_neg (a : Scalar) : - -a = a := by
  refine unpacked_inj ?_
  rw [unpacked_neg, unpacked_neg, Unpacked.neg_neg]

theorem add_comm (a b : Scalar) : a + b = b + a := by
  rw [add_eq, Unpacked.add_comm, ← add_eq]

theorem mul_comm (a b : Scalar) : a * b = b * a := by
  rw [mul_eq, Unpacked.mul_comm, ← mul_eq]

theorem neg_mul (a b : Scalar) : -a * b = -(a * b) := by
  rw [mul_eq, unpacked_neg, Unpacked.neg_mul, ofUnpacked_neg, ← mul_eq]

theorem neg_div (a b : Scalar) : -a / b = -(a / b) := by
  rw [div_eq, unpacked_neg, Unpacked.neg_div, ofUnpacked_neg, ← div_eq]

theorem mul_neg (a b : Scalar) : a * -b = -(a * b) := by
  rw [mul_comm, neg_mul, mul_comm]

theorem add_neg_neg (a b : Scalar) : Alike (-a + -b) (-(a + b)) := by
  rw [add_eq, unpacked_neg, unpacked_neg, add_eq, ← ofUnpacked_neg]
  exact alike_ofUnpacked (Unpacked.add_neg_neg _ _)

theorem sub_neg_neg (a b : Scalar) : Alike (-a - -b) (-(a - b)) := by
  rw [sub_eq, unpacked_neg, unpacked_neg, sub_eq, ← ofUnpacked_neg]
  exact alike_ofUnpacked (Unpacked.sub_neg_neg _ _)

theorem sub_comm (a b : Scalar) : Alike (b - a) (-(a - b)) := by
  rw [sub_eq, sub_eq, ← ofUnpacked_neg]
  exact alike_ofUnpacked (Unpacked.sub_comm _ _)

theorem neg_lt_neg_iff : -a < -b ↔ b < a := by
  rw [lt_iff, lt_iff, unpacked_neg, unpacked_neg, compare_neg_neg]

theorem isFinite_neg (a : Scalar) : (-a).isFinite = a.isFinite := by
  show (unpacked (-a)).isFinite = (unpacked a).isFinite
  rw [unpacked_neg]
  cases unpacked a <;> rfl

theorem isNaN_neg (a : Scalar) : (-a).isNaN = a.isNaN := by
  rw [Bool.eq_iff_iff, isNaN_iff, isNaN_iff, unpacked_neg, neg_eq_notANumber_iff]

/-! ### Zeros -/

theorem alike_zero_iff : Alike a 0 ↔ ∃ s, unpacked a = .zero s := by
  rw [alike_iff, unpacked_zero]
  constructor
  · rintro (h | ⟨s, -, h, -⟩)
    · exact ⟨.positive, h⟩
    · exact ⟨s, h⟩
  · rintro ⟨s, h⟩
    rw [h]
    exact same_zero _ _

theorem add_zero (a : Scalar) : Alike (a + 0) a := by
  have hadd : Same (add .binary32 (unpacked a) (.zero .positive)) (unpacked a) := by
    cases unpacked a with
    | zero s => cases s <;> exact same_zero _ _
    | _ => exact .refl _
  rw [add_eq, unpacked_zero]
  exact (alike_ofUnpacked hadd).trans (by rw [ofUnpacked_unpacked]; exact .refl a)

theorem zero_mul (h : a.isFinite = true) : Alike (0 * a) 0 := by
  have hmul : ∃ s, mul .binary32 (.zero .positive) (unpacked a) = .zero s := by
    replace h : (unpacked a).isFinite = true := h
    cases ha : unpacked a with
    | zero s => exact ⟨_, rfl⟩
    | finite s m e hm => exact ⟨_, rfl⟩
    | _ =>
      rw [ha] at h
      exact absurd h (by simp [UnpackedFloat.isFinite])
  obtain ⟨s, hs⟩ := hmul
  rw [mul_eq, unpacked_zero, hs]
  exact alike_ofUnpacked (same_zero s .positive)

theorem neg_zero : Alike (-0) 0 := .inl (by decide)

theorem mul_self_zero (h : Alike a 0) : a * a = 0 := by
  obtain ⟨s, hs⟩ := alike_zero_iff.1 h
  rw [mul_eq, hs]
  cases s <;> rfl

/-- A term that vanishes. -/
theorem add_alike (h : Alike b 0) (a : Scalar) : Alike (a + b) a :=
  ((Alike.refl a).add h).trans (add_zero a)

/-! ### What is not finite -/

theorem not_isFinite_of_isNaN (h : a.isNaN = true) : a.isFinite = false := by
  show (unpacked a).isFinite = false
  rw [isNaN_iff.1 h]
  rfl

theorem not_isNaN_of_isFinite (h : a.isFinite = true) : ¬a.isNaN = true := fun hnan ↦
  Bool.false_ne_true ((not_isFinite_of_isNaN hnan).symm.trans h)

theorem isFinite_of_ofUnpacked {u : UnpackedFloat} (h : (ofUnpacked u).isFinite = true) :
    u.isFinite = true := by
  cases u with
  | notANumber => exact absurd h (by decide)
  | infinity s => cases s <;> exact absurd h (by decide)
  | _ => rfl

theorem isFinite_of_add (h : (a + b).isFinite = true) : a.isFinite = true ∧ b.isFinite = true :=
  Unpacked.isFinite_of_add (isFinite_of_ofUnpacked h)

theorem isFinite_of_mul (h : (a * b).isFinite = true) : a.isFinite = true ∧ b.isFinite = true :=
  Unpacked.isFinite_of_mul (isFinite_of_ofUnpacked h)

theorem isFinite_of_div (h : (a / b).isFinite = true) : a.isFinite = true :=
  Unpacked.isFinite_of_div (isFinite_of_ofUnpacked h)

theorem isFinite_of_sqrt (h : a.sqrt.isFinite = true) : a.isFinite = true :=
  Unpacked.isFinite_of_sqrt (isFinite_of_ofUnpacked h)

/-- A division by zero has no finite result. -/
theorem isFinite_div_zero (h : Alike b 0) (a : Scalar) : (a / b).isFinite = false := by
  obtain ⟨s, hs⟩ := alike_zero_iff.1 h
  refine Bool.eq_false_iff.2 fun hfinite ↦ ?_
  have hdiv : (div .binary32 (unpacked a) (unpacked b)).isFinite = true :=
    isFinite_of_ofUnpacked hfinite
  rw [hs, Unpacked.isFinite_div_zero] at hdiv
  exact Bool.false_ne_true hdiv

/-! ### Images -/

/-- The scalar is like the other one, or like its opposite if `odd` is true. -/
structure Image (odd : Bool) (a b : Scalar) : Prop where
  alike : Alike a (if odd then -b else b)

namespace Image

variable {p q : Bool}

theorem even (h : Image false a b) : Alike a b := h.alike

theorem odd (h : Image true a b) : Alike a (-b) := h.alike

theorem refl (a : Scalar) : Image false a a := ⟨.refl a⟩

theorem neg_self (a : Scalar) : Image true (-a) a := ⟨.refl (-a)⟩

/-- A zero is its own opposite. -/
theorem zero (p : Bool) : Image p 0 0 := by
  cases p with
  | false => exact .refl 0
  | true => exact ⟨neg_zero.symm⟩

theorem neg (h : Image p a b) : Image (!p) (-a) b := by
  cases p with
  | false => exact ⟨h.even.neg⟩
  | true =>
    have hneg := h.odd.neg
    rw [Scalar.neg_neg] at hneg
    exact ⟨hneg⟩

theorem add (hab : Image p a b) (hcd : Image p c d) : Image p (a + c) (b + d) := by
  cases p with
  | false => exact ⟨hab.even.add hcd.even⟩
  | true => exact ⟨(hab.odd.add hcd.odd).trans (add_neg_neg b d)⟩

theorem sub (hab : Image p a b) (hcd : Image p c d) : Image p (a - c) (b - d) := by
  cases p with
  | false => exact ⟨hab.even.sub hcd.even⟩
  | true => exact ⟨(hab.odd.sub hcd.odd).trans (sub_neg_neg b d)⟩

/-- A difference the other way round changes its parity. -/
theorem sub_swap (hab : Image p a b) (hcd : Image p c d) : Image (!p) (a - c) (d - b) := by
  have h := hab.sub hcd
  cases p with
  | false => exact ⟨h.even.trans (sub_comm d b)⟩
  | true => exact ⟨h.odd.trans (sub_comm b d).symm⟩

theorem mul (hab : Image p a b) (hcd : Image q c d) : Image (p ^^ q) (a * c) (b * d) := by
  have h := hab.alike.mul hcd.alike
  cases p with
  | false =>
    cases q with
    | false => exact ⟨h⟩
    | true =>
      rw [if_pos rfl, mul_neg] at h
      exact ⟨h⟩
  | true =>
    rw [if_pos rfl, neg_mul] at h
    cases q with
    | false => exact ⟨h⟩
    | true =>
      rw [if_pos rfl, mul_neg, Scalar.neg_neg] at h
      exact ⟨h⟩

theorem div (h : Image p a b) (c : Scalar) : Image p (a / c) (b / c) := by
  have hdiv := h.alike.div c
  cases p with
  | false => exact ⟨hdiv⟩
  | true =>
    rw [if_pos rfl, neg_div] at hdiv
    exact ⟨hdiv⟩

/-- Squares are the same bit for bit: the square of either zero is positive. -/
theorem square_eq (h : Image p a b) : a * a = b * b := by
  have hneg : ∀ c : Scalar, -c * -c = c * c := fun c ↦ by rw [neg_mul, mul_neg, Scalar.neg_neg]
  have hsquare : ∀ {c : Scalar}, Alike a c → a * a = c * c := by
    intro c hc
    rcases hc.eq_or_zero with rfl | ⟨ha, hc⟩
    · rfl
    · rw [mul_self_zero ha, mul_self_zero hc]
  cases p with
  | false => exact hsquare h.even
  | true => exact (hsquare h.odd).trans (hneg b)

theorem isFinite_eq (h : Image p a b) : a.isFinite = b.isFinite := by
  cases p with
  | false => exact h.even.isFinite_eq
  | true => exact h.odd.isFinite_eq.trans (isFinite_neg b)

end Image

end Scalar

end RwxScene
