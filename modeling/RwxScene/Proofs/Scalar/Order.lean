import Mathlib
import RwxScene.Proofs.Scalar.Signs

/-!
# The order of numbers

Comparing two numbers is comparing their keys in a linear order (`compare_eq`), unless one of them is
not a number. The key is read off the sign, the exponent and the mantissa in this order; that this
is the order of the numbers themselves is due to the form in which scalars are unpacked and is not
needed here. What the comparison needs to be a linear order up to `Same` follows from the key.
-/

namespace RwxScene

open Float.Model (Format UnpackedFloat)
open Float.Model.UnpackedFloat

namespace Unpacked

/-- What a number is compared by. -/
def key : UnpackedFloat → ℤ ×ₗ ℤ ×ₗ ℤ
  | .notANumber => toLex (0, toLex (0, 0))
  | .zero _ => toLex (0, toLex (0, 0))
  | .infinity .positive => toLex (2, toLex (0, 0))
  | .infinity .negative => toLex (-2, toLex (0, 0))
  | .finite .positive m e _ => toLex (1, toLex (e, (m : ℤ)))
  | .finite .negative m e _ => toLex (-1, toLex (-e, -(m : ℤ)))

theorem compare_toLex (a b c d e f : ℤ) :
    compare (toLex (a, toLex (b, c))) (toLex (d, toLex (e, f))) =
      (compare a d).then ((compare b e).then (compare c f)) := rfl

theorem compare_neg (a b : ℤ) : compare (-a) (-b) = (compare a b).swap := by
  rw [Int.compare_swap, Int.compare_eq_ite_lt, Int.compare_eq_ite_lt]
  simp only [Int.neg_lt_neg_iff]

theorem compare_natCast (m n : ℕ) : compare (m : ℤ) (n : ℤ) = compare m n := by
  rw [Int.compare_eq_ite_lt, Nat.compare_eq_ite_lt]
  simp only [Int.ofNat_lt]

/-- Numbers are compared by their keys. -/
theorem compare_eq {u v : UnpackedFloat} (hu : u ≠ .notANumber) (hv : v ≠ .notANumber) :
    u.compare v = some (compare (key u) (key v)) := by
  rcases u with (_ | _) | - | s | ⟨_ | _, m, e, hm⟩ <;>
    rcases v with (_ | _) | - | t | ⟨_ | _, n, f, hn⟩ <;> first | contradiction | rfl | skip
  -- what is left are two finite numbers of one sign
  · rw [key, key, compare_toLex, compare_neg e f, compare_neg m n, compare_natCast]
    exact congrArg some (Ordering.swap_then _ _)
  · rw [key, key, compare_toLex, compare_natCast]
    rfl

variable {u v w : UnpackedFloat}

theorem toLex_inj {a b c d e f : ℤ}
    (h : toLex (a, toLex (b, c)) = toLex (d, toLex (e, f))) : a = d ∧ b = e ∧ c = f := by
  obtain ⟨h₁, h₂⟩ := Prod.mk.inj h
  obtain ⟨h₂, h₃⟩ := Prod.mk.inj h₂
  exact ⟨h₁, h₂, h₃⟩

/-- What the keys do not tell apart is the same number. -/
theorem same_of_key_eq (hu : u ≠ .notANumber) (hv : v ≠ .notANumber) (h : key u = key v) :
    Same u v := by
  rcases u with (_ | _) | - | s | ⟨_ | _, m, e, hm⟩ <;>
    rcases v with (_ | _) | - | t | ⟨_ | _, n, f, hn⟩ <;>
      first
        | contradiction
        | exact absurd (toLex_inj h).1 (by decide)
        | exact .refl _
        | exact same_zero _ _
        | skip
  all_goals
    obtain ⟨-, he, hm⟩ := toLex_inj h
    obtain rfl : e = f := by omega
    obtain rfl : m = n := by omega
    exact .refl _

theorem Same.key_eq (h : Same u v) : key u = key v := by
  rcases h with rfl | ⟨s, t, rfl, rfl⟩
  · rfl
  · rfl

theorem Same.eq_notANumber_iff (h : Same u v) : u = .notANumber ↔ v = .notANumber := by
  rcases h with rfl | ⟨s, t, rfl, rfl⟩
  · rfl
  · simp

theorem compare_notANumber_left (v : UnpackedFloat) : UnpackedFloat.compare .notANumber v = none :=
  rfl

theorem compare_notANumber_right (u : UnpackedFloat) : u.compare .notANumber = none := by
  rcases u with (_ | _) | - | s | ⟨_ | _, m, e, hm⟩ <;> rfl

theorem compare_eq_some_iff {o : Ordering} :
    u.compare v = some o ↔ u ≠ .notANumber ∧ v ≠ .notANumber ∧ compare (key u) (key v) = o := by
  by_cases hu : u = .notANumber
  · simp [hu, compare_notANumber_left]
  · by_cases hv : v = .notANumber
    · simp [hv, compare_notANumber_right]
    · simp [compare_eq hu hv, hu, hv]

/-- A comparison takes no notice of the sign of zero. -/
theorem Same.compare_eq {u' v' : UnpackedFloat} (hu : Same u u') (hv : Same v v') :
    u.compare v = u'.compare v' := by
  refine Option.ext fun o ↦ ?_
  rw [compare_eq_some_iff, compare_eq_some_iff, hu.key_eq, hv.key_eq, Ne, Ne, Ne, Ne,
    hu.eq_notANumber_iff, hv.eq_notANumber_iff]

theorem compare_eq_eq_iff : u.compare v = some .eq ↔ Same u v ∧ u ≠ .notANumber := by
  rw [compare_eq_some_iff]
  constructor
  · rintro ⟨hu, hv, h⟩
    exact ⟨same_of_key_eq hu hv (compare_eq_iff_eq.1 h), hu⟩
  · rintro ⟨h, hu⟩
    exact ⟨hu, fun hv ↦ hu (h.eq_notANumber_iff.2 hv), compare_eq_iff_eq.2 h.key_eq⟩

theorem exists_key (u : UnpackedFloat) :
    ∃ a b c, key u = toLex (a, toLex (b, c)) ∧ key u.neg = toLex (-a, toLex (-b, -c)) := by
  rcases u with (_ | _) | - | s | ⟨_ | _, m, e, hm⟩
  · exact ⟨_, _, _, rfl, rfl⟩
  · exact ⟨_, _, _, rfl, rfl⟩
  · exact ⟨_, _, _, rfl, rfl⟩
  · exact ⟨_, _, _, rfl, rfl⟩
  · exact ⟨_, _, _, rfl, by simp [neg, key]⟩
  · exact ⟨_, _, _, rfl, rfl⟩

theorem neg_eq_notANumber_iff : u.neg = .notANumber ↔ u = .notANumber := by
  cases u <;> simp [neg]

/-- Opposite numbers stand in the opposite order. -/
theorem compare_neg_neg (u v : UnpackedFloat) : u.neg.compare v.neg = v.compare u := by
  refine Option.ext fun o ↦ ?_
  obtain ⟨a, b, c, hu, hun⟩ := exists_key u
  obtain ⟨d, e, f, hv, hvn⟩ := exists_key v
  rw [compare_eq_some_iff, compare_eq_some_iff, hu, hv, hun, hvn, compare_toLex, compare_toLex,
    compare_neg, compare_neg, compare_neg, Int.compare_swap, Int.compare_swap, Int.compare_swap,
    Ne, Ne, neg_eq_notANumber_iff, neg_eq_notANumber_iff, and_left_comm]

end Unpacked

end RwxScene
