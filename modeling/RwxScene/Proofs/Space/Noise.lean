import Mathlib
import RwxScene.Proofs.Scalar.Extremes
import RwxScene.Proofs.Space.Reflection
import RwxScene.Space.Noise

/-!
# Matrices without noise

Sanitizing goes through the sixteen entries one by one and looks at no other (`clean`); only the last
one goes on through a second rule, which sets a zero to one (`cleanLast`). That rule may bring back
what the first one takes for noise, if the threshold is above one. So a second pass changes nothing in
the matrix for any threshold, but counts nothing only if the threshold is at most one
(`Mat4.sanitize_settles`).

A threshold that is no number is above nothing, and then only what is not finite is noise.
-/

namespace RwxScene

/-! ### One entry -/

/-- The entry, with noise set to zero. -/
def clean (threshold v : Scalar) : Scalar := if isNoise threshold v then 0 else v

/-- The last entry, with noise set to zero and zero to one. -/
def cleanLast (threshold v : Scalar) : Scalar :=
  if clean threshold v == 0 then 1 else clean threshold v

section Entry

variable {threshold v : Scalar}

theorem isNoise_iff :
    isNoise threshold v = true ↔ v.isFinite = false ∨ (v == 0) = false ∧ v.abs < threshold := by
  simp [isNoise, bne]

theorem not_isNoise_iff :
    isNoise threshold v = false ↔ v.isFinite = true ∧ ((v == 0) = true ∨ ¬v.abs < threshold) := by
  rw [← Bool.not_eq_true, isNoise_iff, not_or, not_and_or, Bool.not_eq_false, Bool.not_eq_false]

theorem isNoise_zero (threshold : Scalar) : isNoise threshold 0 = false := by
  refine Bool.eq_false_iff.2 fun h ↦ ?_
  rcases isNoise_iff.1 h with h | ⟨h, -⟩
  · exact absurd h (by decide)
  · exact absurd h (by decide)

/-- One is noise just if the threshold is above it. -/
theorem isNoise_one : isNoise threshold 1 = true ↔ 1 < threshold := by
  have habs : (1 : Scalar).abs = 1 := by decide
  have hfinite : (1 : Scalar).isFinite = true := by decide
  have hne : ((1 : Scalar) == 0) = false := by decide
  rw [isNoise_iff, habs, hfinite, hne]
  simp

theorem clean_of_isNoise (h : isNoise threshold v = true) : clean threshold v = 0 := if_pos h

theorem clean_of_not_isNoise (h : isNoise threshold v = false) : clean threshold v = v :=
  if_neg (Bool.eq_false_iff.1 h)

theorem isNoise_clean (threshold v : Scalar) : isNoise threshold (clean threshold v) = false := by
  cases h : isNoise threshold v with
  | true => rw [clean_of_isNoise h, isNoise_zero]
  | false => rw [clean_of_not_isNoise h, h]

theorem clean_clean (threshold v : Scalar) :
    clean threshold (clean threshold v) = clean threshold v :=
  clean_of_not_isNoise (isNoise_clean threshold v)

theorem isFinite_clean (threshold v : Scalar) : (clean threshold v).isFinite = true :=
  (not_isNoise_iff.1 (isNoise_clean threshold v)).1

/-- Noise is never zero already, so setting it to zero shows. -/
theorem clean_eq_self_iff : clean threshold v = v ↔ isNoise threshold v = false := by
  refine ⟨fun h ↦ ?_, clean_of_not_isNoise⟩
  rw [← h, isNoise_clean]

/-! ### The last entry -/

theorem cleanLast_of_zero (h : (clean threshold v == 0) = true) : cleanLast threshold v = 1 :=
  if_pos h

theorem cleanLast_of_ne_zero (h : (clean threshold v == 0) = false) :
    cleanLast threshold v = clean threshold v := if_neg (Bool.eq_false_iff.1 h)

theorem isFinite_cleanLast (threshold v : Scalar) : (cleanLast threshold v).isFinite = true := by
  cases h : clean threshold v == 0 with
  | true => rw [cleanLast_of_zero h]; decide
  | false => rw [cleanLast_of_ne_zero h, isFinite_clean]

theorem cleanLast_ne_zero (threshold v : Scalar) : (cleanLast threshold v == 0) = false := by
  cases h : clean threshold v == 0 with
  | true => rw [cleanLast_of_zero h]; decide
  | false => rw [cleanLast_of_ne_zero h, h]

/-- The entry is kept if it is neither noise nor zero. -/
theorem cleanLast_eq_ite (threshold v : Scalar) : cleanLast threshold v =
    if isNoise threshold v = false ∧ (v == 0) = false then v else 1 := by
  cases h : isNoise threshold v with
  | true =>
    have hzero : (clean threshold v == 0) = true := by rw [clean_of_isNoise h]; decide
    rw [cleanLast_of_zero hzero, if_neg fun h ↦ absurd h.1 (by decide)]
  | false =>
    rw [cleanLast, clean_of_not_isNoise h]
    cases v == 0 <;> rfl

/-- A one that stands for noise may be noise itself. It is set to zero and to one again. -/
theorem cleanLast_cleanLast (threshold v : Scalar) :
    cleanLast threshold (cleanLast threshold v) = cleanLast threshold v := by
  cases h : clean threshold v == 0 with
  | false => rw [cleanLast_of_ne_zero h, cleanLast_of_ne_zero (by rwa [clean_clean]), clean_clean]
  | true =>
    rw [cleanLast_of_zero h, cleanLast_eq_ite]
    exact ite_self _

/-- With a threshold of at most one the last entry is no noise afterwards. -/
theorem isNoise_cleanLast (h : threshold ≤ 1) (v : Scalar) :
    isNoise threshold (cleanLast threshold v) = false := by
  cases hzero : clean threshold v == 0 with
  | true =>
    rw [cleanLast_of_zero hzero]
    exact Bool.eq_false_iff.2 fun hone ↦ Scalar.not_lt_of_le h (isNoise_one.1 hone)
  | false => rw [cleanLast_of_ne_zero hzero, isNoise_clean]

/-- Setting the last entry to zero or one shows, with a threshold of at most one. -/
theorem cleanLast_eq_self_iff (h : threshold ≤ 1) :
    cleanLast threshold v = v ↔ isNoise threshold v = false ∧ (v == 0) = false := by
  constructor
  · intro hself
    rw [← hself]
    exact ⟨isNoise_cleanLast h v, cleanLast_ne_zero threshold v⟩
  · intro hkept
    rw [cleanLast_eq_ite, if_pos hkept]

end Entry

/-! ### All entries -/

namespace Mat4

@[simp] theorem entries_ofEntries (e : Vector Scalar 16) : (ofEntries e).entries = e := by
  ext i hi
  interval_cases i <;> rfl

/-- A matrix is finite just if all its entries are. -/
theorem isFinite_iff_entries {m : Mat4} :
    m.isFinite = true ↔ ∀ i : Fin 16, m.entries[i].isFinite = true := by
  simp only [isFinite_iff, Vec4.isFinite_iff, Fin.forall_fin_succ]
  simp [entries]
  tauto

/-- Sanitizing is a matter of single entries. -/
theorem sanitize_eq (threshold : Scalar) (e : Vector Scalar 16) :
    sanitize threshold e =
      (ofEntries (.ofFn fun i ↦ if i = 15 then cleanLast threshold e[i] else clean threshold e[i]),
        e.countP (isNoise threshold) + if clean threshold e.back == 0 then 1 else 0) := by
  have hlast : (ofEntries (e.map (clean threshold))).c₃.w = clean threshold e.back :=
    Vector.getElem_map _ _
  have hset : ofEntries
      (.ofFn fun i ↦ if i = 15 then cleanLast threshold e[i] else clean threshold e[i]) =
      { ofEntries (e.map (clean threshold)) with
        c₃ := { (ofEntries (e.map (clean threshold))).c₃ with
          w := cleanLast threshold e.back } } := by
    simp [ofEntries, Vector.back]
  rw [hset]
  show (if (ofEntries (e.map (clean threshold))).c₃.w == 0 then _ else _) = _
  rw [hlast]
  cases h : clean threshold e.back == 0 with
  | true =>
    rw [cleanLast_of_zero h]
    rfl
  | false =>
    rw [cleanLast_of_ne_zero h, ← hlast]
    rfl

/-- The entries after sanitizing. -/
theorem getElem_entries_sanitize (threshold : Scalar) (e : Vector Scalar 16) (i : Fin 16) :
    (sanitize threshold e).1.entries[i] =
      if i = 15 then cleanLast threshold e[i] else clean threshold e[i] := by
  rw [sanitize_eq, entries_ofEntries]
  exact Vector.getElem_ofFn i.isLt

theorem countP_isNoise_eq_zero_iff {threshold : Scalar} {e : Vector Scalar 16} :
    e.countP (isNoise threshold) = 0 ↔ ∀ i : Fin 16, isNoise threshold e[i] = false := by
  rw [Vector.countP_eq_zero]
  constructor
  · intro h i
    exact Bool.eq_false_iff.2 (h _ (Vector.getElem_mem i.isLt))
  · intro h v hv
    obtain ⟨i, hi, rfl⟩ := Vector.mem_iff_getElem.1 hv
    exact Bool.eq_false_iff.1 (h ⟨i, hi⟩)

/-- Nothing is counted just if no entry is noise and the last one is not zero. -/
theorem snd_sanitize_eq_zero_iff {threshold : Scalar} {e : Vector Scalar 16} :
    (sanitize threshold e).2 = 0 ↔
      (∀ i : Fin 16, isNoise threshold e[i] = false) ∧ (e.back == 0) = false := by
  rw [sanitize_eq, Nat.add_eq_zero_iff, countP_isNoise_eq_zero_iff]
  refine and_congr_right fun h ↦ ?_
  have hlast : isNoise threshold e.back = false := h 15
  rw [clean_of_not_isNoise hlast]
  cases e.back == 0 <;> simp

/-- What is counted shows in the matrix, with a threshold of at most one. -/
theorem entries_sanitize_eq_iff {threshold : Scalar} (h : threshold ≤ 1) {e : Vector Scalar 16} :
    (sanitize threshold e).1.entries = e ↔ (sanitize threshold e).2 = 0 := by
  have hentry : ∀ i : Fin 16, (sanitize threshold e).1.entries[i] = e[i] ↔
      isNoise threshold e[i] = false ∧ (i = 15 → (e[i] == 0) = false) := by
    intro i
    rw [getElem_entries_sanitize]
    by_cases hi : i = 15
    · rw [if_pos hi, cleanLast_eq_self_iff h, forall_prop_of_true hi]
    · rw [if_neg hi, clean_eq_self_iff, forall_prop_of_false hi, and_true]
  rw [snd_sanitize_eq_zero_iff]
  constructor
  · intro heq
    have hall : ∀ i : Fin 16, (sanitize threshold e).1.entries[i] = e[i] := fun i ↦ by rw [heq]
    exact ⟨fun i ↦ ((hentry i).1 (hall i)).1, ((hentry 15).1 (hall 15)).2 rfl⟩
  · rintro ⟨hnoise, hlast⟩
    refine Vector.ext fun i hi ↦ (hentry ⟨i, hi⟩).2 ⟨hnoise _, ?_⟩
    rintro hfifteen
    rw [hfifteen]
    exact hlast

/-- Sanitizing a second time gives the same matrix. -/
theorem fst_sanitize_sanitize (threshold : Scalar) (e : Vector Scalar 16) :
    (sanitize threshold (sanitize threshold e).1.entries).1 = (sanitize threshold e).1 := by
  have hentries : (sanitize threshold (sanitize threshold e).1.entries).1.entries =
      (sanitize threshold e).1.entries := by
    refine Vector.ext fun i hi ↦ ?_
    have hfirst := getElem_entries_sanitize threshold e ⟨i, hi⟩
    have hsecond := getElem_entries_sanitize threshold (sanitize threshold e).1.entries ⟨i, hi⟩
    rw [hfirst] at hsecond
    refine hsecond.trans (Eq.trans ?_ hfirst.symm)
    split
    · exact cleanLast_cleanLast _ _
    · exact clean_clean _ _
  rw [← ofEntries_entries (sanitize _ _).1, hentries, ofEntries_entries]

/-- **Sanitizing settles a matrix.** The result is finite and its last entry is not zero. Entries that
are finite, and zero or not below the threshold, are kept; the others are zero. The last entry is
kept if it is finite, not zero and not below the threshold, and is one otherwise. A second pass gives
the same matrix; with a threshold of at most one it counts nothing, and the first one counts nothing
just if it changes nothing. -/
theorem sanitize_settles (threshold : Scalar) (e : Vector Scalar 16) :
    let m := (sanitize threshold e).1
    let changed := (sanitize threshold e).2
    (m.isFinite = true ∧ (m.c₃.w == 0) = false) ∧
      (∀ i : Fin 16, i ≠ 15 → m.entries[i] =
        if e[i].isFinite = true ∧ ((e[i] == 0) = true ∨ ¬e[i].abs < threshold) then e[i] else 0) ∧
      (m.entries.back =
        if e.back.isFinite = true ∧ (e.back == 0) = false ∧ ¬e.back.abs < threshold then e.back
        else 1) ∧
      (sanitize threshold m.entries).1 = m ∧
      (threshold ≤ 1 → (sanitize threshold m.entries).2 = 0 ∧ (changed = 0 ↔ m.entries = e)) := by
  intro m changed
  have hentry : ∀ i : Fin 16, m.entries[i] = _ := getElem_entries_sanitize threshold e
  have hlast : m.entries.back = cleanLast threshold e.back := hentry 15
  refine ⟨⟨isFinite_iff_entries.2 fun i ↦ ?_, ?_⟩, fun i hi ↦ ?_, ?_,
    fst_sanitize_sanitize threshold e, fun h ↦ ⟨?_, (entries_sanitize_eq_iff h).symm⟩⟩
  · rw [hentry]
    split
    · exact isFinite_cleanLast _ _
    · exact isFinite_clean _ _
  · exact (congrArg (· == 0) hlast).trans (cleanLast_ne_zero _ _)
  · rw [hentry, if_neg hi]
    split
    · next hkept => exact clean_of_not_isNoise (not_isNoise_iff.2 hkept)
    · next hnoise =>
      exact clean_of_isNoise (Bool.not_eq_false _ ▸ mt not_isNoise_iff.1 hnoise)
  · rw [hlast, cleanLast_eq_ite]
    refine if_congr ?_ rfl rfl
    rw [not_isNoise_iff]
    constructor
    · rintro ⟨⟨hfinite, hzero | habs⟩, hne⟩
      · exact absurd hzero (Bool.eq_false_iff.1 hne)
      · exact ⟨hfinite, hne, habs⟩
    · rintro ⟨hfinite, hne, habs⟩
      exact ⟨⟨hfinite, .inr habs⟩, hne⟩
  · rw [← entries_sanitize_eq_iff h, fst_sanitize_sanitize]

/-- What is no number, what is infinite and what is small goes, a negative zero stays, and the last
entry, which is small too, becomes one. -/
theorem sanitize_settles_noisy :
    let threshold : Scalar := Float32.ofBits 0x358637bd
    let small : Scalar := Float32.ofBits 0x322bcc77
    let e : Vector Scalar 16 := #v[Float32.ofBits 0x7fc00000, Float32.ofBits 0xff800000, -0, small,
      -small, 1, 2, 3, 0, threshold, -threshold, 4, 5, 6, 7, small]
    let settled : Vector Scalar 16 :=
      #v[0, 0, -0, 0, 0, 1, 2, 3, 0, threshold, -threshold, 4, 5, 6, 7, 1]
    let m := (sanitize threshold e).1
    threshold ≤ 1 ∧ m.isFinite = true ∧ (m.c₃.w == 0) = false ∧ m.entries = settled ∧
      (sanitize threshold m.entries).1 = m ∧ (sanitize threshold m.entries).2 = 0 ∧
      (sanitize threshold e).2 ≠ 0 := by
  intro threshold small e settled m
  have hthreshold : threshold ≤ 1 := by decide
  obtain ⟨⟨hfinite, hlast⟩, hother, hentry, hagain, hcount⟩ := sanitize_settles threshold e
  obtain ⟨hnothing, hchanged⟩ := hcount hthreshold
  have hkept : ∀ i : Fin 16, i ≠ 15 →
      (if e[i].isFinite = true ∧ ((e[i] == 0) = true ∨ ¬e[i].abs < threshold) then e[i] else 0) =
        settled[i] := by decide +kernel
  have hone : m.entries.back = 1 := hentry.trans (by decide)
  have hentries : m.entries = settled := by
    refine Vector.ext fun i hi ↦ ?_
    obtain rfl | hne := eq_or_ne i 15
    · exact hone
    · exact (hother ⟨i, hi⟩ (Fin.ne_of_val_ne hne)).trans (hkept ⟨i, hi⟩ (Fin.ne_of_val_ne hne))
  refine ⟨hthreshold, hfinite, hlast, hentries, hagain, hnothing, fun hzero ↦ ?_⟩
  have hsame : e = settled := (hchanged.1 hzero).symm.trans hentries
  have hfirst : e[0] = settled[0] := congrArg (·[0]) hsame
  exact absurd hfirst (by decide)

end Mat4

end RwxScene
