import Mathlib
import RwxScene.Decimal.Fixed
import RwxScene.Proofs.Scalar.Value

/-!
# What a decimal of fixed length tells

A number is rounded to the nearest multiple of `10 ^ -places`, a half to the even one (`IsNearest`),
and there is only one such multiple. Its digits can be read back. So two scalars are written alike
just if neither is a number, if they are the same infinity, or if they are finite with one sign bit
and one nearest multiple (`fixed_eq_fixed_iff`).
-/

namespace RwxScene

open Float.Model (Format UnpackedFloat)
open Float.Model.UnpackedFloat

/-- A text is cut in one way only at the first place of a character. -/
theorem append_cons_inj_left {α : Type} {c : α} {as as' bs bs' : List α} (has : c ∉ as)
    (has' : c ∉ as') (h : as ++ c :: bs = as' ++ c :: bs') : as = as' ∧ bs = bs' := by
  classical
  have hfront : ∀ {as bs : List α}, c ∉ as → (as ++ c :: bs).takeWhile (· ≠ c) = as := by
    intro as bs has
    have hpos : ∀ d ∈ as, decide (d ≠ c) = true := fun d hd ↦
      decide_eq_true (ne_of_mem_of_not_mem hd has)
    rw [List.takeWhile_append_of_pos hpos, List.takeWhile_cons_of_neg (by simp), List.append_nil]
  obtain rfl : as = as' := by rw [← hfront has, h, hfront has']
  exact ⟨rfl, (List.cons.inj (List.append_cancel_left h)).2⟩

/-! ### The sign bit -/

namespace Unpacked

/-- The sign of what has one. -/
def sign? : UnpackedFloat → Option Sign
  | .notANumber => none
  | .infinity s => some s
  | .zero s => some s
  | .finite s _ _ _ => some s

theorem sign?_unpack (b : BitVec Format.binary32.numBits) {s : Sign}
    (h : sign? (unpack .binary32 b) = some s) : s = Sign.ofBitVec (unpackSign b) := by
  rw [unpack] at h
  split_ifs at h
  · exact (Option.some.inj h).symm
  · exact nomatch h
  · exact (Option.some.inj h).symm
  · exact (Option.some.inj h).symm
  · exact (Option.some.inj h).symm

end Unpacked

namespace Scalar

open Unpacked

/-- The first bit, which is set in what is negative. -/
def signBit (x : Scalar) : Bool := x.toBits.toBitVec.msb

/-- The sign that the first bit stands for. -/
def sign (x : Scalar) : Sign := if x.signBit then .negative else .positive

theorem sign_eq_sign_iff {x y : Scalar} : x.sign = y.sign ↔ x.signBit = y.signBit := by
  rw [sign, sign]
  cases x.signBit <;> cases y.signBit <;> simp

theorem sign_of_sign? {x : Scalar} {s : Sign} (h : sign? (unpacked x) = some s) : x.sign = s := by
  have hsign : ∀ b : BitVec Format.binary32.numBits,
      Sign.ofBitVec (unpackSign b) = if b.msb then .negative else .positive := by
    intro b
    have hmsb : unpackSign b = BitVec.ofBool b.msb := by
      refine BitVec.eq_of_getLsbD_eq fun i hi ↦ ?_
      obtain rfl : i = 0 := by omega
      simp [unpackSign, BitVec.msb_eq_getLsbD_last, Format.numBits]
    rw [hmsb]
    cases b.msb <;> rfl
  exact ((sign?_unpack _ h).trans (hsign _)).symm

end Scalar

namespace Decimal

/-! ### The nearest whole number -/

/-- A whole number is nearest to `v`, and it is even if another one is as near. -/
structure IsNearest (v : ℝ) (n : ℕ) : Prop where
  near : |v - n| ≤ 1 / 2
  even : |v - n| = 1 / 2 → Even n

theorem IsNearest.le {v : ℝ} {m n : ℕ} (hm : IsNearest v m) (hn : IsNearest v n) : m ≤ n := by
  by_contra! hlt
  have hle : (n : ℝ) + 1 ≤ m := by exact_mod_cast hlt
  have hlow := (abs_le.1 hm.near).1
  have hhigh := (abs_le.1 hn.near).2
  -- then both are equally near, and they are neighbours
  have hv : v = n + 1 / 2 := by linarith
  have hmn : (m : ℝ) = n + 1 := by linarith
  have hevenN : Even n := hn.even (by rw [hv, add_sub_cancel_left, abs_of_pos one_half_pos])
  have hevenM : Even m := hm.even <| by
    rw [hv, hmn, add_sub_add_left_eq_sub, abs_of_neg (by norm_num)]
    norm_num
  obtain rfl : m = n + 1 := by exact_mod_cast hmn
  exact Nat.even_add_one.1 hevenM hevenN

theorem IsNearest.unique {v : ℝ} {m n : ℕ} (hm : IsNearest v m) (hn : IsNearest v n) : m = n :=
  le_antisymm (hm.le hn) (hn.le hm)

theorem isNearest_zero : IsNearest 0 0 where
  near := by norm_num
  even _ := ⟨0, rfl⟩

theorem isNearest_roundQuotient (a : ℕ) {b : ℕ} (hb : 0 < b) :
    IsNearest (a / b) (roundQuotient a b) := by
  have hpos : (0 : ℝ) < b := Nat.cast_pos.2 hb
  have hdiff : (a / b : ℝ) - (a / b : ℕ) = (a % b : ℕ) / b := by
    rw [sub_eq_iff_eq_add, div_eq_iff hpos.ne', add_mul, div_mul_cancel₀ _ hpos.ne']
    exact_mod_cast (Nat.mod_add_div' a b).symm
  have hhalf : ∀ r : ℕ, (r : ℝ) / b ≤ 1 / 2 ↔ 2 * r ≤ b := fun r ↦ by
    rw [div_le_div_iff₀ hpos two_pos, one_mul, mul_comm]
    exact_mod_cast Iff.rfl
  have htie : ∀ r : ℕ, (r : ℝ) / b = 1 / 2 ↔ 2 * r = b := fun r ↦ by
    rw [div_eq_div_iff hpos.ne' two_ne_zero, one_mul, mul_comm]
    exact_mod_cast Iff.rfl
  have hnonneg : (0 : ℝ) ≤ (a % b : ℕ) / b := div_nonneg (Nat.cast_nonneg _) hpos.le
  rw [roundQuotient]
  split_ifs with h
  · -- the remainder is dropped
    constructor
    · rw [hdiff, abs_of_nonneg hnonneg, hhalf]
      omega
    · rw [hdiff, abs_of_nonneg hnonneg, htie, Nat.even_iff]
      omega
  · -- the remainder is filled up, and what is missing is at most a half
    have hlt : a % b < b := Nat.mod_lt a hb
    have hrest : (a / b : ℝ) - ((a / b : ℕ) + 1 : ℕ) = -((b - a % b : ℕ) / b) := by
      rw [Nat.cast_sub hlt.le, sub_div, div_self hpos.ne', Nat.cast_add, Nat.cast_one,
        ← sub_sub, hdiff, neg_sub]
    constructor
    · rw [hrest, abs_neg, abs_of_nonneg (div_nonneg (Nat.cast_nonneg _) hpos.le), hhalf]
      omega
    · rw [hrest, abs_neg, abs_of_nonneg (div_nonneg (Nat.cast_nonneg _) hpos.le), htie,
        Nat.even_add_one, Nat.even_iff]
      omega

theorem two_zpow_eq_div (e : ℤ) : (2 : ℝ) ^ e = 2 ^ e.toNat / 2 ^ (-e).toNat := by
  rcases le_total 0 e with he | he
  · rw [Int.toNat_of_nonpos (neg_nonpos.2 he), pow_zero, div_one, ← zpow_natCast,
      Int.toNat_of_nonneg he]
  · rw [Int.toNat_of_nonpos he, pow_zero, one_div, ← zpow_natCast, Int.toNat_of_nonneg (by omega),
      zpow_neg, inv_inv]

theorem isNearest_scaled (places m : ℕ) (e : ℤ) :
    IsNearest (m * 2 ^ e * 10 ^ places) (scaled places m e) := by
  have h := isNearest_roundQuotient (m * 10 ^ places * 2 ^ e.toNat) (b := 2 ^ (-e).toNat)
    (by positivity)
  have hv : ((m * 10 ^ places * 2 ^ e.toNat : ℕ) : ℝ) / (2 ^ (-e).toNat : ℕ) =
      m * 2 ^ e * 10 ^ places := by
    rw [two_zpow_eq_div]
    push_cast
    ring
  rwa [hv] at h

/-! ### Digits -/

variable {places : ℕ} {c : Char}

theorem notMem_toDigits (hc : c.isDigit = false) (n : ℕ) : c ∉ Nat.toDigits 10 n := by
  intro h
  rw [Nat.isDigit_of_mem_toDigits (by decide) (by decide) h] at hc
  exact nomatch hc

theorem insertPoint_ne {cs : List Char} (h : '.' ∉ cs) (n : ℕ) : insertPoint places n ≠ cs := by
  rintro rfl
  exact h (List.mem_append_right _ List.mem_cons_self)

theorem notMem_insertPoint (hc : c.isDigit = false) (hpoint : c ≠ '.') (n : ℕ) :
    c ∉ insertPoint places n := by
  rw [insertPoint, List.mem_append, List.mem_cons, List.mem_append]
  rintro (h | h | h | h)
  · exact notMem_toDigits hc _ h
  · exact hpoint h
  · rw [List.eq_of_mem_replicate h] at hc
    exact nomatch hc
  · exact notMem_toDigits hc _ h

/-- The digits on both sides of the point can be read. -/
theorem insertPoint_injective : Function.Injective (insertPoint places) := by
  intro m n h
  -- no digit is a point
  obtain ⟨hwhole, hrest⟩ :=
    append_cons_inj_left (notMem_toDigits rfl _) (notMem_toDigits rfl _) h
  have hread : ∀ k n : ℕ,
      Nat.ofDigitChars 10 (List.replicate k '0' ++ Nat.toDigits 10 n) 0 = n := fun k n ↦ by
    rw [Nat.ofDigitChars_append, Nat.ofDigitChars_replicate_zero, Nat.mul_zero,
      Nat.ofDigitChars_ten_toDigits]
  replace hwhole := congrArg (Nat.ofDigitChars 10 · 0) hwhole
  replace hrest := congrArg (Nat.ofDigitChars 10 · 0) hrest
  simp only [Nat.ofDigitChars_ten_toDigits, hread] at hwhole hrest
  rw [← Nat.div_add_mod m (10 ^ places), ← Nat.div_add_mod n (10 ^ places)]
  exact congrArg₂ (10 ^ places * · + ·) hwhole hrest

/-- A text without a minus sign shows whether one was put in front. -/
theorem signed_inj {s t : Sign} {cs ds : List Char} (hcs : '-' ∉ cs) (hds : '-' ∉ ds)
    (h : signed s cs = signed t ds) : s = t ∧ cs = ds := by
  rcases s with _ | _ <;> rcases t with _ | _
  · exact ⟨rfl, (List.cons.inj h).2⟩
  · have hmem : '-' ∈ signed .positive ds := h ▸ List.mem_cons_self
    exact absurd hmem hds
  · have hmem : '-' ∈ signed .positive cs := h ▸ List.mem_cons_self
    exact absurd hmem hcs
  · exact ⟨rfl, h⟩

theorem mem_signed {s : Sign} {cs : List Char} (h : c ∈ signed s cs) : c = '-' ∨ c ∈ cs := by
  rcases s with _ | _
  · exact List.mem_cons.1 h
  · exact .inr h

/-! ### Scalars that are written alike -/

/-- The three forms of a scalar in decimals. -/
inductive Written (places : ℕ) (x : Scalar) (cs : List Char) : Prop
  | notANumber (hx : x.isNaN = true) (hcs : cs = signed .positive ['N', 'a', 'N'])
  | infinite (hx : x.isInf = true) (hcs : cs = signed x.sign ['i', 'n', 'f'])
  | finite (hx : x.isFinite = true) (n : ℕ) (hn : IsNearest (|x.value| * 10 ^ places) n)
      (hcs : cs = signed x.sign (insertPoint places n))

theorem written_fixed (places : ℕ) (x : Scalar) : Written places x (fixed places x) := by
  rw [fixed]
  split
  next h => exact .notANumber (Scalar.isNaN_iff.2 h) rfl
  next s h =>
    rw [← Scalar.sign_of_sign? (congrArg Unpacked.sign? h)]
    exact .infinite (congrArg UnpackedFloat.isInf h) rfl
  next s h =>
    have hvalue : x.value = 0 := congrArg Unpacked.value h
    rw [← Scalar.sign_of_sign? (congrArg Unpacked.sign? h)]
    refine .finite (congrArg UnpackedFloat.isFinite h) 0 ?_ rfl
    rw [hvalue, abs_zero, zero_mul]
    exact isNearest_zero
  next s m e hm h =>
    have hvalue : |x.value| = m * 2 ^ e := by
      rw [Scalar.value, Scalar.unpacked, h, Unpacked.abs_value_finite]
    rw [← Scalar.sign_of_sign? (congrArg Unpacked.sign? h)]
    refine .finite (congrArg UnpackedFloat.isFinite h) (scaled places m e) ?_ rfl
    rw [hvalue]
    exact isNearest_scaled places m e

/-- The three ways to be written alike: as no number, as one infinity, or as one multiple of
`10 ^ -places` with one sign. -/
inductive SameTo (places : ℕ) (x y : Scalar) : Prop
  | notANumber (hx : x.isNaN = true) (hy : y.isNaN = true)
  | infinite (hx : x.isInf = true) (h : x = y)
  | finite (hx : x.isFinite = true) (hy : y.isFinite = true) (hsign : x.signBit = y.signBit)
      (n : ℕ) (hnx : IsNearest (|x.value| * 10 ^ places) n)
      (hny : IsNearest (|y.value| * 10 ^ places) n)

theorem eq_of_isInf {x y : Scalar} (hx : x.isInf = true) (hy : y.isInf = true)
    (h : x.sign = y.sign) : x = y := by
  have hform : ∀ {x : Scalar}, x.isInf = true → Scalar.unpacked x = .infinity x.sign := by
    intro x hx
    replace hx : (Scalar.unpacked x).isInf = true := hx
    match hu : Scalar.unpacked x with
    | .infinity s => rw [Scalar.sign_of_sign? (congrArg Unpacked.sign? hu)]
    | .notANumber | .zero _ | .finite .. =>
      rw [hu] at hx
      exact nomatch hx
  exact Scalar.unpacked_inj (by rw [hform hx, hform hy, h])

/-- The text of a finite scalar shows its sign and the nearest multiple. -/
theorem fixed_of_isNearest {x : Scalar} {n : ℕ} (hx : x.isFinite = true)
    (hn : IsNearest (|x.value| * 10 ^ places) n) :
    fixed places x = signed x.sign (insertPoint places n) := by
  rcases written_fixed places x with ⟨hnan, -⟩ | ⟨hinf, -⟩ | ⟨-, n', hn', hcs⟩
  · replace hx : (Scalar.unpacked x).isFinite = true := hx
    rw [Scalar.isNaN_iff.1 hnan] at hx
    exact nomatch hx
  · have hclass : ∀ u : UnpackedFloat, u.isInf = true → u.isFinite = false := by
      rintro (_ | _ | _ | _) h
      · rfl
      · exact nomatch h
      · exact nomatch h
      · exact nomatch h
    replace hx : (Scalar.unpacked x).isFinite = true := hx
    exact nomatch (hclass _ hinf).symm.trans hx
  · rw [hcs, hn'.unique hn]

theorem fixed_of_isNaN {x : Scalar} (hx : x.isNaN = true) :
    fixed places x = ['N', 'a', 'N'] := by
  rw [fixed, show x.toModel.unpack = _ from Scalar.isNaN_iff.1 hx]

theorem fixed_eq_fixed_iff {x y : Scalar} :
    fixed places x = fixed places y ↔ SameTo places x y := by
  constructor
  · intro h
    have hnan : '-' ∉ ['N', 'a', 'N'] := by decide
    have hinf : '-' ∉ ['i', 'n', 'f'] := by decide
    have hnumber : ∀ n, '-' ∉ insertPoint places n := notMem_insertPoint rfl (by decide)
    -- of the nine pairs of forms the three with two equal ones remain
    rcases written_fixed places x with ⟨hx, hcs⟩ | ⟨hx, hcs⟩ | ⟨hx, n, hn, hcs⟩ <;>
      rcases written_fixed places y with ⟨hy, hds⟩ | ⟨hy, hds⟩ | ⟨hy, m, hm, hds⟩ <;>
        rw [hcs, hds] at h
    · exact .notANumber hx hy
    · exact absurd (signed_inj hnan hinf h).2 (by decide)
    · exact absurd (signed_inj hnan (hnumber m) h).2.symm (insertPoint_ne (by decide) m)
    · exact absurd (signed_inj hinf hnan h).2 (by decide)
    · exact .infinite hx (eq_of_isInf hx hy (signed_inj hinf hinf h).1)
    · exact absurd (signed_inj hinf (hnumber m) h).2.symm (insertPoint_ne (by decide) m)
    · exact absurd (signed_inj (hnumber n) hnan h).2 (insertPoint_ne (by decide) n)
    · exact absurd (signed_inj (hnumber n) hinf h).2 (insertPoint_ne (by decide) n)
    · obtain ⟨hsign, hdigits⟩ := signed_inj (hnumber n) (hnumber m) h
      obtain rfl := insertPoint_injective hdigits
      exact .finite hx hy (Scalar.sign_eq_sign_iff.1 hsign) n hn hm
  · rintro (⟨hx, hy⟩ | ⟨-, rfl⟩ | ⟨hx, hy, hsign, n, hnx, hny⟩)
    · rw [fixed_of_isNaN hx, fixed_of_isNaN hy]
    · rfl
    · rw [fixed_of_isNearest hx hnx, fixed_of_isNearest hy hny, Scalar.sign_eq_sign_iff.2 hsign]

/-- Which characters a number is written with. -/
theorem notMem_fixed (hc : c.isDigit = false) (h : c ∉ ['-', '.', 'N', 'a', 'i', 'n', 'f'])
    (x : Scalar) : c ∉ fixed places x := by
  have hsub : ∀ cs ⊆ ['-', '.', 'N', 'a', 'i', 'n', 'f'], c ∉ cs := fun cs hcs hmem ↦ h (hcs hmem)
  rcases written_fixed places x with ⟨-, hcs⟩ | ⟨-, hcs⟩ | ⟨-, n, -, hcs⟩ <;>
    rw [hcs] <;>
    intro hmem
  · exact hsub _ (by decide) hmem
  · rcases mem_signed hmem with rfl | hmem
    · exact h (by decide)
    · exact hsub _ (by decide) hmem
  · rcases mem_signed hmem with rfl | hmem
    · exact h (by decide)
    · refine notMem_insertPoint hc ?_ n hmem
      rintro rfl
      exact h (by decide)

end Decimal

end RwxScene
