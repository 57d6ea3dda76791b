import Mathlib
import RwxScene.Json.Reader
import RwxScene.Proofs.Decimal.Grammar
import RwxScene.Proofs.Decimal.Fixed

/-!
# Texts and numbers in JSON

The reader undoes the printer on texts and integers (`text?_enclose`, `number?_integer`). A number
is read in the same way whatever stands behind it, as long as that does not go on with the number
(`number?_append`). So if a text alone is read as a number, it is read as that number inside an
array or an object too.
-/

namespace RwxScene.Json

open Decimal (digitValue spanDigits takeSign ofDigits AllDigits Undigited)

/-! ### Texts -/

/-- The digits of a control character can be read back. -/
theorem fourHex?_hex {n : ℕ} (h : n < 0x20) :
    ∃ a b c d, Text.Quoted.hex 4 n = [a, b, c, d] ∧ fourHex? a b c d = some n := by
  interval_cases n <;> exact ⟨_, _, _, _, rfl, by decide⟩

theorem pieces?_short {c d : Char} (h : shortEscape? c = some d) (hc : c ≠ 'u')
    (rest : List Char) : pieces? ('\\' :: c :: rest) =
      (pieces? rest).map fun x ↦ (.char d :: x.1, x.2) := by
  rw [pieces?.eq_def]
  split
  · next heq => exact absurd heq (by simp)
  · next heq => exact absurd (List.cons.inj heq).1 (by decide)
  · next heq => exact absurd (List.cons.inj (List.cons.inj heq).2).1 hc
  · next heq =>
    obtain ⟨rfl, rfl⟩ := List.cons.inj (List.cons.inj heq).2
    rw [h]
    cases pieces? rest <;> rfl
  · next hne heq =>
    obtain ⟨rfl, rfl⟩ := List.cons.inj heq
    exact absurd rfl (hne c rest rfl)

theorem pieces?_plain {c : Char} (hc : 0x20 ≤ c.toNat) (hquote : c ≠ '"') (hslash : c ≠ '\\')
    (rest : List Char) : pieces? (c :: rest) =
      (pieces? rest).map fun x ↦ (.char c :: x.1, x.2) := by
  rw [pieces?.eq_def]
  split
  · next heq => exact absurd heq (by simp)
  · next heq => exact absurd (List.cons.inj heq).1 hquote
  · next heq => exact absurd (List.cons.inj heq).1 hslash
  · next heq => exact absurd (List.cons.inj heq).1 hslash
  · next heq =>
    obtain ⟨rfl, rfl⟩ := List.cons.inj heq
    rw [if_neg (not_or.2 ⟨Nat.not_lt.2 hc, hslash⟩)]
    cases pieces? rest <;> rfl

theorem pieces?_unit {a b c d : Char} {n : ℕ} (h : fourHex? a b c d = some n) (rest : List Char) :
    pieces? ('\\' :: 'u' :: a :: b :: c :: d :: rest) =
      (pieces? rest).map fun x ↦ (.unit n :: x.1, x.2) := by
  rw [pieces?, h]
  cases pieces? rest <;> rfl

theorem join?_unit {c : Char} (hc : c.toNat < 0x20) (us : List Unit16) :
    join? (.unit c.toNat :: us) = (join? us).map (c :: ·) := by
  have hlow : ¬(0xd800 ≤ c.toNat ∧ c.toNat < 0xdc00) := by omega
  have hhigh : ¬(0xdc00 ≤ c.toNat ∧ c.toNat < 0xe000) := by omega
  have hpair : ¬(0xd800 ≤ c.toNat ∧ c.toNat < 0xe000) := by omega
  match us with
  | [] | .char d :: us => simp only [join?, hpair, if_false, Char.ofNat_toNat]
  | .unit m :: us => rw [join?, if_neg hlow, if_neg hhigh, Char.ofNat_toNat]

/-- An escaped character is one piece of a text, which stands for the character. -/
theorem exists_piece (c : Char) : ∃ u,
    (∀ us, join? (u :: us) = (join? us).map (c :: ·)) ∧
      ∀ rest, pieces? (Text.Quoted.escapeJson c ++ rest) =
        (pieces? rest).map fun x ↦ (u :: x.1, x.2) := by
  have hchar : ∀ us, join? (.char c :: us) = (join? us).map (c :: ·) := fun us ↦ rfl
  have hnumber : ∀ {n}, c.toNat = n → Char.ofNat n = c := by
    rintro n rfl
    exact c.ofNat_toNat
  rw [Text.Quoted.escapeJson]
  split_ifs with hquote hslash hplain hn hr ht hb hf
  · subst hquote
    exact ⟨.char '"', hchar, pieces?_short rfl (by decide)⟩
  · subst hslash
    exact ⟨.char '\\', hchar, pieces?_short rfl (by decide)⟩
  · exact ⟨.char c, hchar, pieces?_plain hplain hquote hslash⟩
  · subst hn
    exact ⟨.char '\n', hchar, pieces?_short rfl (by decide)⟩
  · subst hr
    exact ⟨.char '\r', hchar, pieces?_short rfl (by decide)⟩
  · subst ht
    exact ⟨.char '\t', hchar, pieces?_short rfl (by decide)⟩
  · exact ⟨.char c, hchar, pieces?_short (by rw [← hnumber hb]; rfl) (by decide)⟩
  · exact ⟨.char c, hchar, pieces?_short (by rw [← hnumber hf]; rfl) (by decide)⟩
  · have hlt : c.toNat < 0x20 := Nat.not_le.1 hplain
    obtain ⟨w, x, y, z, hhex, hfour⟩ := fourHex?_hex hlt
    refine ⟨.unit c.toNat, join?_unit hlt, fun rest ↦ ?_⟩
    rw [hhex]
    exact pieces?_unit hfour rest

/-- What the printer makes of a text is read as that text. -/
theorem text?_enclose (cs rest : List Char) :
    text? (cs.flatMap Text.Quoted.escapeJson ++ '"' :: rest) =
      some (some (String.ofList cs), rest) := by
  have hpieces : ∃ us, pieces? (cs.flatMap Text.Quoted.escapeJson ++ '"' :: rest) =
      some (us, rest) ∧ join? us = some cs := by
    induction cs with
    | nil => exact ⟨[], rfl, rfl⟩
    | cons c cs ih =>
      obtain ⟨us, hus, hjoin⟩ := ih
      obtain ⟨u, hu, hpiece⟩ := exists_piece c
      refine ⟨u :: us, ?_, ?_⟩
      · rw [List.flatMap_cons, List.append_assoc, hpiece, hus]
        rfl
      · rw [hu, hjoin]
        rfl
  obtain ⟨us, hus, hjoin⟩ := hpieces
  rw [text?, hus]
  simp [hjoin]

/-! ### Numbers and what follows them -/

/-- The text does not go on with a number. -/
def Ends (cs : List Char) : Prop :=
  ∀ c ∈ cs.head?, c.isDigit = false ∧ c ≠ '.' ∧ c ≠ 'e' ∧ c ≠ 'E'

section Append

variable {rest : List Char}

theorem Ends.undigited (h : Ends rest) : Undigited rest := fun c hc ↦ (h c hc).1

theorem spanDigits_append_right (cs : List Char) (h : Ends rest) :
    spanDigits (cs ++ rest) = ((spanDigits cs).1, (spanDigits cs).2 ++ rest) := by
  induction cs with
  | nil =>
    have hnone : ∀ c ∈ ([] : List Char), c.isDigit = true := fun _ hc ↦ absurd hc List.not_mem_nil
    exact Decimal.spanDigits_eq hnone h.undigited
  | cons c cs ih =>
    rw [spanDigits, Prod.mk.injEq] at ih
    by_cases hc : c.isDigit = true
    · simp only [spanDigits, List.cons_append, List.takeWhile_cons_of_pos hc,
        List.dropWhile_cons_of_pos hc, ih.1, ih.2]
    · simp only [spanDigits, List.cons_append, List.takeWhile_cons_of_neg hc,
        List.dropWhile_cons_of_neg hc]

theorem takeSign_append_right {cs : List Char} (hcs : cs ≠ []) :
    takeSign (cs ++ rest) = ((takeSign cs).1, (takeSign cs).2 ++ rest) := by
  obtain ⟨c, cs, rfl⟩ := List.exists_cons_of_ne_nil hcs
  rw [List.cons_append]
  by_cases hminus : c = '-'
  · subst hminus
    rfl
  · by_cases hplus : c = '+'
    · subst hplus
      rfl
    · have hnone : ∀ ds, takeSign (c :: ds) = (false, c :: ds) := by
        intro ds
        rw [takeSign]
        · exact fun _ heq ↦ hminus (List.cons.inj heq).1
        · exact fun _ heq ↦ hplus (List.cons.inj heq).1
      rw [hnone, hnone]
      rfl

theorem gather_append (significand count : ℕ) (cs : List Char) (h : Ends rest) :
    gather significand count (cs ++ rest) =
      ((gather significand count cs).1, (gather significand count cs).2.1,
        (gather significand count cs).2.2 ++ rest) := by
  induction cs generalizing significand count with
  | nil =>
    match rest with
    | [] => rfl
    | c :: rest =>
      have hc : ¬(c.isDigit = true ∧ 10 * significand + digitValue c < UInt64.size) := by
        rw [(h c rfl).1]
        exact fun hc ↦ Bool.false_ne_true hc.1
      rw [List.nil_append, gather]
      exact if_neg hc
  | cons c cs ih =>
    rw [List.cons_append, gather, gather]
    split
    · exact ih _ _
    · rfl

theorem exponentPart?_append {cs r : List Char} {e : Option ℤ} (he : exponentPart? cs = some (e, r))
    (h : Ends rest) : exponentPart? (cs ++ rest) = some (e, r ++ rest) := by
  match cs with
  | [] =>
    obtain ⟨rfl, rfl⟩ := Prod.mk.inj (Option.some.inj he)
    match rest with
    | [] => rfl
    | c :: rest =>
      have hc : ¬(c = 'e' ∨ c = 'E') := not_or.2 (h c rfl).2.2
      exact if_neg hc
  | c :: cs =>
    rw [exponentPart?] at he
    rw [List.cons_append, exponentPart?]
    split at he
    · next hc =>
      -- there are digits, so the sign is not looked for behind the text
      have hcs : cs ≠ [] := by
        rintro rfl
        exact absurd he (by simp [takeSign, spanDigits])
      rw [if_pos hc, takeSign_append_right hcs]
      dsimp only at he ⊢
      rw [spanDigits_append_right _ h]
      dsimp only
      split at he
      · exact absurd he (by simp)
      · next hne =>
        obtain ⟨rfl, rfl⟩ := Prod.mk.inj (Option.some.inj he)
        rw [if_neg hne]
    · next hc =>
      obtain ⟨rfl, rfl⟩ := Prod.mk.inj (Option.some.inj he)
      rw [if_neg hc]
      rfl

theorem numberAfter?_append {negative : Bool} {significand : ℕ} {cs r : List Char} {v : Value}
    (hv : numberAfter? negative significand cs = some (v, r)) (h : Ends rest) :
    numberAfter? negative significand (cs ++ rest) = some (v, r ++ rest) := by
  rw [numberAfter?] at hv ⊢
  rw [spanDigits_append_right _ h]
  match hspan : spanDigits cs with
  | (surplus, cs) =>
    rw [hspan] at hv
    dsimp only at hv ⊢
    split at hv
    · next digits =>
      split
      · next digits' heq =>
        obtain rfl : digits ++ rest = digits' := (List.cons.inj heq).2
        rw [gather_append _ _ _ h]
        dsimp only at hv ⊢
        rw [spanDigits_append_right _ h]
        dsimp only
        split at hv
        · exact absurd hv (by simp)
        · next hne =>
          rw [if_neg hne]
          split at hv
          · exact absurd hv (by simp)
          · next e r' he =>
            obtain ⟨rfl, rfl⟩ := Prod.mk.inj (Option.some.inj hv)
            rw [exponentPart?_append he h]
      · next hpoint => exact absurd rfl (hpoint (digits ++ rest))
    · next hpoint =>
      have hrest : ∀ digits, cs ++ rest ≠ '.' :: digits := by
        intro digits heq
        match cs with
        | [] => exact (h '.' (by rw [← List.nil_append rest, heq]; rfl)).2.1 rfl
        | c :: cs => exact hpoint cs (by rw [(List.cons.inj heq).1])
      split
      · next digits heq => exact absurd heq (hrest digits)
      · split at hv
        · exact absurd hv (by simp)
        · next e r' he =>
          obtain ⟨rfl, rfl⟩ := Prod.mk.inj (Option.some.inj hv)
          rw [exponentPart?_append he h]
        · next r' he =>
          rw [exponentPart?_append he h]
          dsimp only
          split at hv
          · next hsurplus =>
            obtain ⟨rfl, rfl⟩ := Prod.mk.inj (Option.some.inj hv)
            rw [if_pos hsurplus]
          · next hsurplus =>
            obtain ⟨rfl, rfl⟩ := Prod.mk.inj (Option.some.inj hv)
            rw [if_neg hsurplus]

theorem magnitude?_append {negative : Bool} {cs r : List Char} {v : Value}
    (hv : magnitude? negative cs = some (v, r)) (h : Ends rest) :
    magnitude? negative (cs ++ rest) = some (v, r ++ rest) := by
  match cs with
  | [] => exact absurd hv (by simp [magnitude?])
  | c :: cs =>
    rw [magnitude?.eq_def] at hv ⊢
    rw [List.cons_append]
    dsimp only at hv ⊢
    split at hv
    · next hc =>
      rw [if_pos hc]
      match cs with
      | [] =>
        have hafter := numberAfter?_append hv h
        rw [List.nil_append] at hafter ⊢
        match rest with
        | [] => exact hafter
        | d :: rest =>
          have hd : ¬d.isDigit = true := by rw [(h d rfl).1]; exact Bool.false_ne_true
          dsimp only
          rw [if_neg hd, hafter]
      | d :: cs =>
        dsimp only at hv
        split at hv
        · exact absurd hv (by simp)
        · next hd =>
          rw [List.cons_append]
          dsimp only
          rw [if_neg hd]
          exact numberAfter?_append hv h
    · next hc =>
      rw [if_neg hc]
      split at hv
      · next hd =>
        rw [if_pos hd, gather_append _ _ _ h]
        exact numberAfter?_append hv h
      · exact absurd hv (by simp)

theorem number?_minus (cs : List Char) : number? ('-' :: cs) = magnitude? true cs := by rw [number?]

theorem number?_of_ne_minus {c : Char} (hc : c ≠ '-') (cs : List Char) :
    number? (c :: cs) = magnitude? false (c :: cs) := by
  rw [number?]
  exact fun _ heq ↦ hc (List.cons.inj heq).1

/-- A number is read in the same way where something else follows it. -/
theorem number?_append {cs r : List Char} {v : Value} (hv : number? cs = some (v, r))
    (h : Ends rest) : number? (cs ++ rest) = some (v, r ++ rest) := by
  match cs with
  | [] => exact absurd hv (by simp [number?, magnitude?])
  | c :: cs =>
    by_cases hc : c = '-'
    · subst hc
      rw [number?_minus] at hv
      rw [List.cons_append, number?_minus]
      exact magnitude?_append hv h
    · rw [number?_of_ne_minus hc] at hv
      rw [List.cons_append, number?_of_ne_minus hc]
      exact magnitude?_append hv h

end Append

/-! ### Integers -/

theorem ofDigits_toDigits (n : ℕ) : ofDigits (Nat.toDigits 10 n) = n :=
  Nat.ofDigitChars_ten_toDigits

theorem allDigits_toDigits (n : ℕ) : AllDigits (Nat.toDigits 10 n) := fun _ hc ↦
  Nat.isDigit_of_mem_toDigits (by decide) (by decide) hc

/-- The digits of a number other than zero do not begin with a zero. -/
theorem head?_toDigits_ne {n : ℕ} (hn : n ≠ 0) : (Nat.toDigits 10 n).head? ≠ some '0' := by
  induction n using Nat.strong_induction_on with
  | _ n ih =>
    rcases Nat.lt_or_ge n 10 with hlt | hge
    · rw [Nat.toDigits_of_lt_base hlt, List.head?_cons]
      interval_cases n
      all_goals first | exact absurd rfl hn | decide
    · have hdiv : n / 10 ≠ 0 := by omega
      rw [Nat.toDigits_of_base_le (by decide) hge,
        List.head?_append_of_ne_nil _ Nat.toDigits_ne_nil]
      exact ih (n / 10) (by omega) hdiv

/-- Digits are gathered as long as they fit. -/
theorem gather_of_lt {ds : List Char} (hds : AllDigits ds) {significand count : ℕ}
    (h : ds.foldl (fun n c ↦ 10 * n + digitValue c) significand < UInt64.size) :
    gather significand count ds =
      (ds.foldl (fun n c ↦ 10 * n + digitValue c) significand, count + ds.length, []) := by
  have hle : ∀ (ds : List Char) (n : ℕ), n ≤ ds.foldl (fun n c ↦ 10 * n + digitValue c) n := by
    intro ds
    induction ds with
    | nil => exact fun n ↦ Nat.le_refl n
    | cons c ds ih =>
      intro n
      have := ih (10 * n + digitValue c)
      rw [List.foldl_cons]
      omega
  induction ds generalizing significand count with
  | nil => rfl
  | cons c ds ih =>
    obtain ⟨hc, hds⟩ := List.forall_mem_cons.1 hds
    rw [List.foldl_cons] at h
    rw [gather, if_pos ⟨hc, (hle ds _).trans_lt h⟩, ih hds h, List.foldl_cons, List.length_cons,
      Nat.add_assoc, Nat.add_comm 1]

/-- Behind the digits of an integer nothing is left. -/
theorem numberAfter?_nil (negative : Bool) (n : ℕ) :
    numberAfter? negative n [] = some (wholeNumber negative n, []) := rfl

theorem magnitude?_toDigits (negative : Bool) {n : ℕ} (h : n < UInt64.size) :
    magnitude? negative (Nat.toDigits 10 n) = some (wholeNumber negative n, []) := by
  by_cases hn : n = 0
  · subst hn
    rfl
  · match hdigits : Nat.toDigits 10 n with
    | [] => exact absurd hdigits Nat.toDigits_ne_nil
    | c :: ds =>
      have hzero : c ≠ '0' := by
        rintro rfl
        exact head?_toDigits_ne hn (by rw [hdigits]; rfl)
      obtain ⟨hc, hds⟩ := List.forall_mem_cons.1 (hdigits ▸ allDigits_toDigits n)
      have hvalue : ds.foldl (fun n c ↦ 10 * n + digitValue c) (digitValue c) = n := by
        have hn := ofDigits_toDigits n
        rw [hdigits, ofDigits, List.foldl_cons, Nat.mul_zero, Nat.zero_add] at hn
        exact hn
      rw [magnitude?.eq_def]
      dsimp only
      rw [if_neg hzero, if_pos hc, gather_of_lt hds (hvalue.trans_lt h), hvalue]
      exact numberAfter?_nil negative n

/-- An integer of sixty-four bits, with a sign or without, is read back. -/
theorem number?_integer {n : ℤ} (hleast : -2 ^ 63 ≤ n) (hgreatest : n < 2 ^ 64) :
    number? (toString n).toList = some (.integer n, []) := by
  cases n with
  | ofNat n =>
    have hn : n < UInt64.size := by
      have : UInt64.size = 2 ^ 64 := rfl
      rw [Int.ofNat_eq_natCast] at hgreatest
      omega
    have htext : (toString (Int.ofNat n)).toList = Nat.toDigits 10 n := Nat.toList_repr
    have hmagnitude := magnitude?_toDigits false hn
    rw [htext]
    match hdigits : Nat.toDigits 10 n with
    | [] => exact absurd hdigits Nat.toDigits_ne_nil
    | c :: ds =>
      have hc : c.isDigit = true := allDigits_toDigits n c (hdigits ▸ List.mem_cons_self)
      rw [number?_of_ne_minus (Decimal.ne_sign_of_isDigit hc).2, ← hdigits, hmagnitude]
      rfl
  | negSucc n =>
    have hn : n + 1 < UInt64.size := by
      have : UInt64.size = 2 ^ 64 := rfl
      omega
    have htext : (toString (Int.negSucc n)).toList = '-' :: Nat.toDigits 10 (n + 1) := by
      show ("-" ++ (n + 1).repr).toList = _
      rw [String.toList_append, Nat.toList_repr]
      rfl
    have hbound : 0 < n + 1 ∧ n + 1 ≤ Nat.pow 2 63 := by
      have : Nat.pow 2 63 = 2 ^ 63 := rfl
      omega
    rw [htext, number?_minus, magnitude?_toDigits true hn, wholeNumber]
    simp only [Bool.not_true, Bool.false_eq_true, if_false, if_pos hbound]
    rfl

end RwxScene.Json
