import Mathlib
import RwxScene.Proofs.Scalar.Alike

/-!
# Extremes

The lesser of two scalars is the one of lesser rank (`rank_min`), where what is not a number ranks
above all numbers. So the order in which extremes are collected decides only on the sign of a zero.
Opposite scalars exchange the lesser and the greater, bit for bit.
-/

namespace RwxScene

namespace Scalar

open Unpacked

variable {a b c d : Scalar}

/-- The place of a scalar among all scalars. -/
def rank (a : Scalar) : WithTop (ℤ ×ₗ ℤ ×ₗ ℤ) := if a.isNaN then ⊤ else key (unpacked a)

theorem rank_of_isNaN (h : a.isNaN = true) : rank a = ⊤ := if_pos h

theorem rank_of_not_isNaN (h : ¬a.isNaN = true) : rank a = key (unpacked a) := if_neg h

theorem rank_eq_top_iff : rank a = ⊤ ↔ a.isNaN = true := by
  refine ⟨fun h ↦ ?_, rank_of_isNaN⟩
  by_contra hnumber
  rw [rank_of_not_isNaN hnumber] at h
  exact WithTop.coe_ne_top h

theorem alike_of_rank_eq (h : rank a = rank b) : Alike a b := by
  by_cases ha : a.isNaN = true
  · exact .inr ⟨ha, rank_eq_top_iff.1 (h ▸ rank_of_isNaN ha)⟩
  · have hb : ¬b.isNaN = true := fun hb ↦ ha (rank_eq_top_iff.1 (h ▸ rank_of_isNaN hb))
    rw [rank_of_not_isNaN ha, rank_of_not_isNaN hb] at h
    exact alike_iff.2 (same_of_key_eq (mt isNaN_iff.2 ha) (mt isNaN_iff.2 hb) (WithTop.coe_inj.1 h))

theorem lt_iff_rank (a b : Scalar) : a < b ↔ rank a < rank b ∧ rank b ≠ ⊤ := by
  rw [lt_iff, compare_eq_some_iff, compare_lt_iff_lt, Ne, Ne, ← isNaN_iff, ← isNaN_iff, Ne,
    rank_eq_top_iff]
  constructor
  · rintro ⟨ha, hb, hlt⟩
    rw [rank_of_not_isNaN ha, rank_of_not_isNaN hb]
    exact ⟨WithTop.coe_lt_coe.2 hlt, hb⟩
  · rintro ⟨hlt, hb⟩
    have ha : ¬a.isNaN = true := fun ha ↦ not_top_lt (rank_of_isNaN ha ▸ hlt)
    rw [rank_of_not_isNaN ha, rank_of_not_isNaN hb] at hlt
    exact ⟨ha, hb, WithTop.coe_lt_coe.1 hlt⟩

theorem le_iff_rank (a b : Scalar) : a ≤ b ↔ rank a ≤ rank b ∧ rank b ≠ ⊤ := by
  have hle : a ≤ b ↔ ∃ o, (unpacked a).compare (unpacked b) = some o ∧ o.isLE = true := by
    show decide (((unpacked a).compare (unpacked b)).any (·.isLE) = true) = true ↔ _
    rw [decide_eq_true_eq, Option.any_eq_true]
  simp only [hle, compare_eq_some_iff, Ne, ← isNaN_iff, rank_eq_top_iff]
  constructor
  · rintro ⟨o, ⟨ha, hb, ho⟩, hisLE⟩
    rw [rank_of_not_isNaN ha, rank_of_not_isNaN hb]
    rw [← ho] at hisLE
    have hle := compare_le_iff_le.1 (Ordering.isLE_iff_ne_gt.1 hisLE)
    exact ⟨WithTop.coe_le_coe.2 hle, hb⟩
  · rintro ⟨hle, hb⟩
    have ha : ¬a.isNaN = true := by
      intro ha
      rw [rank_of_isNaN ha, top_le_iff] at hle
      exact hb (rank_eq_top_iff.1 hle)
    rw [rank_of_not_isNaN ha, rank_of_not_isNaN hb] at hle
    exact ⟨_, ⟨ha, hb, rfl⟩,
      Ordering.isLE_iff_ne_gt.2 (compare_le_iff_le.2 (WithTop.coe_le_coe.1 hle))⟩

/-- Numbers can be compared. -/
theorem le_of_not_lt (ha : ¬a.isNaN = true) (hb : ¬b.isNaN = true) (h : ¬a < b) : b ≤ a := by
  rw [lt_iff_rank, Ne, rank_eq_top_iff, and_iff_left hb, not_lt] at h
  rw [le_iff_rank, Ne, rank_eq_top_iff]
  exact ⟨h, ha⟩

theorem le_trans (hab : a ≤ b) (hbc : b ≤ c) : a ≤ c := by
  rw [le_iff_rank] at *
  exact ⟨hab.1.trans hbc.1, hbc.2⟩

theorem lt_of_lt_of_le (hab : a < b) (hbc : b ≤ c) : a < c := by
  rw [lt_iff_rank] at hab ⊢
  rw [le_iff_rank] at hbc
  exact ⟨hab.1.trans_le hbc.1, hbc.2⟩

theorem not_lt_of_le (h : a ≤ b) : ¬b < a := by
  rw [le_iff_rank] at h
  rw [lt_iff_rank]
  exact fun hlt ↦ hlt.1.not_ge h.1

theorem not_lt_of_lt (h : a < b) : ¬b < a := by
  rw [lt_iff_rank] at h ⊢
  exact fun hba ↦ h.1.not_gt hba.1

theorem rank_min (a b : Scalar) : rank (min a b) = rank a ⊓ rank b := by
  rw [min]
  split_ifs with ha hlt
  · rw [rank_of_isNaN ha, top_inf_eq]
  · exact (inf_eq_right.2 ((lt_iff_rank b a).1 hlt).1.le).symm
  · refine (inf_eq_left.2 (not_lt.1 fun h ↦ hlt ((lt_iff_rank b a).2 ⟨h, ?_⟩))).symm
    rw [rank_of_not_isNaN ha]
    exact WithTop.coe_ne_top

theorem min_le_iff : min a b ≤ c ↔ a ≤ c ∨ b ≤ c := by
  rw [le_iff_rank, le_iff_rank, le_iff_rank, rank_min, inf_le_iff, or_and_right]

theorem min_comm (a b : Scalar) : Alike (min a b) (min b a) :=
  alike_of_rank_eq (by rw [rank_min, rank_min, inf_comm])

theorem min_assoc (a b c : Scalar) : Alike (min (min a b) c) (min a (min b c)) :=
  alike_of_rank_eq (by rw [rank_min, rank_min, rank_min, rank_min, inf_assoc])

theorem min_eq_or (a b : Scalar) : min a b = a ∨ min a b = b := by
  rw [min]
  split_ifs
  · exact .inr rfl
  · exact .inr rfl
  · exact .inl rfl

theorem min_self (a : Scalar) : min a a = a := by
  rw [min, ite_self, ite_self]

/-- The order in which the least scalar is sought does not matter. -/
theorem min_right_comm (a b c : Scalar) : Alike (min (min a b) c) (min (min a c) b) := by
  refine alike_of_rank_eq ?_
  rw [rank_min, rank_min, rank_min, rank_min, inf_right_comm]

theorem Alike.min (hab : Alike a b) (hcd : Alike c d) : Alike (min a c) (min b d) := by
  simp only [Scalar.min, hab.isNaN_eq, hcd.lt_iff hab]
  split_ifs <;> assumption

/-! ### The greater scalar -/

theorem max_neg_neg (a b : Scalar) : max (-a) (-b) = -min a b := by
  simp only [max, min, isNaN_neg, neg_lt_neg_iff]
  split_ifs <;> rfl

theorem min_neg_neg (a b : Scalar) : min (-a) (-b) = -max a b := by
  have h := max_neg_neg (-a) (-b)
  rw [neg_neg, neg_neg] at h
  rw [h, neg_neg]

theorem neg_le_neg_iff : -a ≤ -b ↔ b ≤ a := by
  show decide (((unpacked (-a)).compare (unpacked (-b))).any (·.isLE) = true) = true ↔
    decide (((unpacked b).compare (unpacked a)).any (·.isLE) = true) = true
  rw [unpacked_neg, unpacked_neg, compare_neg_neg]

theorem le_max_iff : c ≤ max a b ↔ c ≤ a ∨ c ≤ b := by
  rw [← neg_le_neg_iff, ← min_neg_neg, min_le_iff, neg_le_neg_iff, neg_le_neg_iff]

theorem Alike.max (hab : Alike a b) (hcd : Alike c d) : Alike (max a c) (max b d) := by
  have h := (hab.neg.min hcd.neg).neg
  rwa [min_neg_neg, min_neg_neg, neg_neg, neg_neg] at h

theorem max_comm (a b : Scalar) : Alike (max a b) (max b a) := by
  have h := (min_comm (-a) (-b)).neg
  rwa [min_neg_neg, min_neg_neg, neg_neg, neg_neg] at h

theorem max_assoc (a b c : Scalar) : Alike (max (max a b) c) (max a (max b c)) := by
  have h := (min_assoc (-a) (-b) (-c)).neg
  rwa [min_neg_neg, min_neg_neg, min_neg_neg, min_neg_neg, neg_neg, neg_neg] at h

theorem max_self (a : Scalar) : max a a = a := by
  rw [max, ite_self, ite_self]

theorem max_right_comm (a b c : Scalar) : Alike (max (max a b) c) (max (max a c) b) := by
  have h := (min_right_comm (-a) (-b) (-c)).neg
  simp only [min_neg_neg, neg_neg] at h
  exact h

end Scalar

end RwxScene
