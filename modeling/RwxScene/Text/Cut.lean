/-!
# Cutting texts

A text with separators in it is cut into pieces, one more than there are separators. `cut` loses
nothing: the pieces with the separator between each two are the text again, and no piece holds one.
These two facts determine the pieces.
-/

namespace RwxScene.Text

/-- What stands in front of, between and behind the separators. -/
def cut (separator : Char) : List Char → List (List Char)
  | [] => [[]]
  | c :: cs =>
    if c = separator then [] :: cut separator cs
    else
      match cut separator cs with
      | [] => [[c]]
      | p :: ps => (c :: p) :: ps

theorem cut_ne_nil (separator : Char) (cs : List Char) : cut separator cs ≠ [] := by
  cases cs with
  | nil => simp [cut]
  | cons c cs =>
    by_cases h : c = separator
    · simp [cut, h]
    · rw [cut, if_neg h]
      split <;> simp

/-- The pieces with the separator between each two are the text again. -/
theorem intercalate_cut (separator : Char) (cs : List Char) :
    [separator].intercalate (cut separator cs) = cs := by
  induction cs with
  | nil => rfl
  | cons c cs ih =>
    obtain ⟨p, ps, hp⟩ := List.exists_cons_of_ne_nil (cut_ne_nil separator cs)
    rw [hp] at ih
    by_cases h : c = separator
    · simpa [cut, h, hp, List.intercalate] using ih
    · rw [cut, if_neg h, hp]
      cases ps <;> simp_all [List.intercalate, List.intersperse]

/-- No piece holds the separator. -/
theorem notMem_of_mem_cut {separator : Char} {cs p : List Char} (h : p ∈ cut separator cs) :
    separator ∉ p := by
  induction cs generalizing p with
  | nil => simp_all [cut]
  | cons c cs ih =>
    obtain ⟨q, qs, hq⟩ := List.exists_cons_of_ne_nil (cut_ne_nil separator cs)
    by_cases hc : c = separator
    · simp only [cut, hc, if_true, List.mem_cons] at h
      rcases h with rfl | h
      · simp
      · exact ih h
    · rw [cut, if_neg hc, hq] at h
      rcases List.mem_cons.1 h with rfl | h
      · have := ih (p := q) (by simp [hq])
        simp only [List.mem_cons, not_or]
        exact ⟨fun e ↦ hc e.symm, this⟩
      · exact ih (by simp [hq, h])

theorem cut_of_notMem {separator : Char} {p : List Char} (h : separator ∉ p) :
    cut separator p = [p] := by
  induction p with
  | nil => rfl
  | cons c p ih =>
    simp only [List.mem_cons, not_or] at h
    rw [cut, if_neg (Ne.symm h.1), ih h.2]

theorem cut_append_cons {separator : Char} {p : List Char} (h : separator ∉ p) (cs : List Char) :
    cut separator (p ++ separator :: cs) = p :: cut separator cs := by
  induction p with
  | nil => rw [List.nil_append, cut, if_pos rfl]
  | cons c p ih =>
    simp only [List.mem_cons, not_or] at h
    rw [List.cons_append, cut, if_neg (Ne.symm h.1), ih h.2]

/-- There are no other pieces that are the text again and hold no separator. -/
theorem cut_intercalate {separator : Char} {pieces : List (List Char)} (hne : pieces ≠ [])
    (h : ∀ p ∈ pieces, separator ∉ p) :
    cut separator ([separator].intercalate pieces) = pieces := by
  induction pieces with
  | nil => exact absurd rfl hne
  | cons p ps ih =>
    obtain ⟨hp, hps⟩ := List.forall_mem_cons.1 h
    cases ps with
    | nil => simpa [List.intercalate] using cut_of_notMem hp
    | cons q qs =>
      have hstep : [separator].intercalate (p :: q :: qs) =
          p ++ separator :: [separator].intercalate (q :: qs) := by
        simp [List.intercalate]
      rw [hstep, cut_append_cons hp, ih (List.cons_ne_nil q qs) hps]

end RwxScene.Text
