import Mathlib
import RwxScene.Text.Cut
import RwxScene.Text.Lines

/-!
# Lines and where they begin

The pieces of a text are what line feeds cut it into, less an empty piece at the end
(`pieces_eq_cut`). A reader that takes one line after the other is behind the first `k` of them at
the byte `lineStart cs k`, which is the sum of their lengths with a line feed each, but no more than
the whole text: only the last line may lack its line feed.
-/

namespace RwxScene.Text

/-! ### Pieces -/

/-- The list without its last element, if that is empty. -/
def dropEmptyEnd (ps : List (List Char)) : List (List Char) :=
  if ps.getLast? = some [] then ps.dropLast else ps

theorem dropEmptyEnd_cons (p : List Char) {ps : List (List Char)} (h : ps ≠ []) :
    dropEmptyEnd (p :: ps) = p :: dropEmptyEnd ps := by
  obtain ⟨q, qs, rfl⟩ := List.exists_cons_of_ne_nil h
  rw [dropEmptyEnd, dropEmptyEnd, List.getLast?_cons_cons, List.dropLast_cons_cons]
  split
  · rfl
  · rfl

/-- The pieces are those that line feeds cut the text into, but an empty one at the end. -/
theorem pieces_eq_cut (cs : List Char) : pieces cs = dropEmptyEnd (cut '\n' cs) := by
  induction cs with
  | nil => rfl
  | cons c cs ih =>
    have hne := cut_ne_nil '\n' cs
    by_cases hc : c = '\n'
    · rw [pieces, cut, if_pos hc, if_pos hc, dropEmptyEnd_cons _ hne, ih]
    · obtain ⟨p, ps, hp⟩ := List.exists_cons_of_ne_nil hne
      rw [pieces, cut, if_neg hc, if_neg hc, ih, hp]
      cases ps with
      | nil =>
        -- the piece that goes on is the last one, and was dropped if it was empty
        cases p with
        | nil => rfl
        | cons d ds => rfl
      | cons q qs =>
        rw [dropEmptyEnd_cons p (by simp), dropEmptyEnd_cons (c :: p) (by simp)]

theorem pieces_eq_nil_iff {cs : List Char} : pieces cs = [] ↔ cs = [] := by
  constructor
  · intro h
    by_contra hne
    rw [pieces_eq_takeLine hne] at h
    exact absurd h (by simp)
  · rintro rfl
    rfl

/-- A line is at least one character long, its line feed included. -/
theorem length_pieces_le (cs : List Char) : (pieces cs).length ≤ cs.length := by
  induction cs with
  | nil => exact Nat.le_refl _
  | cons c cs ih =>
    by_cases hc : c = '\n'
    · rw [pieces, if_pos hc, List.length_cons, List.length_cons]
      omega
    · rw [pieces, if_neg hc]
      cases hp : pieces cs with
      | nil => simp
      | cons p ps =>
        rw [hp] at ih
        simp only [List.length_cons] at ih ⊢
        omega

/-- There is a line for each line feed, and one more for what stands behind the last one. -/
theorem length_pieces (cs : List Char) : (pieces cs).length =
    cs.count '\n' + if cs = [] ∨ cs.getLast? = some '\n' then 0 else 1 := by
  induction cs with
  | nil => rfl
  | cons c cs ih =>
    have hlast : cs ≠ [] → (c :: cs).getLast? = cs.getLast? := by
      intro hne
      obtain ⟨d, ds, rfl⟩ := List.exists_cons_of_ne_nil hne
      exact List.getLast?_cons_cons
    by_cases hc : c = '\n'
    · subst hc
      rw [pieces, if_pos rfl, List.length_cons, ih, List.count_cons_self]
      by_cases hcs : cs = []
      · subst hcs
        rfl
      · simp only [hlast hcs, hcs, List.cons_ne_nil, false_or]
        omega
    · rw [pieces, if_neg hc, List.count_cons_of_ne hc]
      cases hp : pieces cs with
      | nil =>
        obtain rfl := pieces_eq_nil_iff.1 hp
        simp [hc]
      | cons p ps =>
        have hcs : cs ≠ [] := by
          rintro rfl
          exact absurd hp (by simp [pieces])
        rw [hp, List.length_cons] at ih
        simp only [List.length_cons, ih, hlast hcs, hcs, List.cons_ne_nil, false_or]

@[simp] theorem length_lines (cs : List Char) : (lines cs).length = (pieces cs).length :=
  List.length_map _

/-! ### Bytes -/

@[simp] theorem byteLength_nil : byteLength [] = 0 := rfl

@[simp] theorem byteLength_cons (c : Char) (cs : List Char) :
    byteLength (c :: cs) = c.utf8Size + byteLength cs := rfl

@[simp] theorem byteLength_append (cs ds : List Char) :
    byteLength (cs ++ ds) = byteLength cs + byteLength ds := by
  induction cs with
  | nil => exact (Nat.zero_add _).symm
  | cons c cs ih => rw [List.cons_append, byteLength_cons, byteLength_cons, ih, Nat.add_assoc]

theorem byteLength_pos {cs : List Char} (h : cs ≠ []) : 0 < byteLength cs := by
  obtain ⟨c, ds, rfl⟩ := List.exists_cons_of_ne_nil h
  have := c.utf8Size_pos
  rw [byteLength_cons]
  omega

/-- The length in bytes is that of the encoded text. -/
theorem utf8ByteSize_ofList (cs : List Char) : (String.ofList cs).utf8ByteSize = byteLength cs := by
  induction cs with
  | nil => rfl
  | cons c cs ih =>
    rw [String.ofList_cons, String.utf8ByteSize_append, String.utf8ByteSize_singleton, ih]
    rfl

/-- A place between two parts of a text lies on no character. -/
theorem isValid_byteLength {text : String} {front rest : List Char}
    (h : text.toList = front ++ rest) :
    String.Pos.Raw.IsValid text ⟨byteLength front⟩ := by
  refine String.Pos.Raw.isValid_iff_exists_append.2 ⟨.ofList front, .ofList rest, ?_, ?_⟩
  · rw [← String.ofList_append, ← h, String.ofList_toList]
  · rw [← utf8ByteSize_ofList]
    rfl

/-! ### Where lines begin -/

/-- The byte at which the line behind the first `k` lines begins; the end of the text if there is no
such line. -/
def lineStart (cs : List Char) (k : Nat) : Nat :=
  min (((pieces cs).take k).map fun p ↦ byteLength p + 1).sum (byteLength cs)

/-- Without a line feed all of the text is one line. -/
theorem takeLine_of_notMem {cs : List Char} (h : '\n' ∉ cs) : takeLine cs = (cs, []) := by
  have hall : ∀ c ∈ cs, decide (c ≠ '\n') = true := by
    intro c hc
    refine decide_eq_true ?_
    rintro rfl
    exact h hc
  rw [takeLine, List.takeWhile_eq_self_iff.2 hall, List.dropWhile_eq_nil_iff.2 hall]
  rfl

/-- The first line is followed by a line feed, if there is one. -/
theorem takeLine_of_mem {cs : List Char} (h : '\n' ∈ cs) :
    cs = (takeLine cs).1 ++ '\n' :: (takeLine cs).2 := by
  induction cs with
  | nil => exact absurd h List.not_mem_nil
  | cons c cs ih =>
    by_cases hc : c = '\n'
    · subst hc
      rfl
    · have hmem : '\n' ∈ cs := (List.mem_cons.1 h).resolve_left (Ne.symm hc)
      have hcs := ih hmem
      simp only [takeLine, ne_eq, hc, not_false_eq_true, decide_true, List.takeWhile_cons_of_pos,
        List.dropWhile_cons_of_pos, List.cons_append, List.cons.injEq, true_and] at hcs ⊢
      exact hcs

theorem lineBytes_of_notMem {cs : List Char} (h : '\n' ∉ cs) : lineBytes cs = byteLength cs := by
  rw [lineBytes, if_neg (by simpa using h), takeLine_of_notMem h]
  rfl

theorem lineBytes_of_mem {cs : List Char} (h : '\n' ∈ cs) :
    lineBytes cs = byteLength (takeLine cs).1 + 1 := by
  rw [lineBytes, if_pos (by simpa using h)]

/-- What `takeLine` cuts off is as many bytes long as it says. -/
theorem exists_takeLine (cs : List Char) :
    ∃ line, cs = line ++ (takeLine cs).2 ∧ byteLength line = lineBytes cs := by
  by_cases h : '\n' ∈ cs
  · refine ⟨(takeLine cs).1 ++ ['\n'], ?_, ?_⟩
    · rw [List.append_assoc]
      exact takeLine_of_mem h
    · rw [lineBytes_of_mem h, byteLength_append]
      rfl
  · refine ⟨cs, ?_, (lineBytes_of_notMem h).symm⟩
    rw [takeLine_of_notMem h, List.append_nil]

/-- A reader that stands where the line behind `k` lines begins stands behind the next one where
that ends. -/
theorem lineStart_succ {cs front rest : List Char} {k : Nat} (hcs : cs = front ++ rest)
    (hpieces : pieces rest = (pieces cs).drop k) (hfront : byteLength front = lineStart cs k)
    (hrest : rest ≠ []) :
    byteLength front + lineBytes rest = lineStart cs (k + 1) := by
  have htotal : byteLength cs = byteLength front + byteLength rest := by
    rw [hcs, byteLength_append]
  have hpos := byteLength_pos hrest
  -- something is left, so the sum of the lines is not cut short
  have hsum : (((pieces cs).take k).map fun p ↦ byteLength p + 1).sum = byteLength front := by
    rw [lineStart] at hfront
    omega
  have hdrop : (pieces cs).drop k = (takeLine rest).1 :: pieces (takeLine rest).2 := by
    rw [← hpieces, pieces_eq_takeLine hrest]
  have hget : (pieces cs)[k]? = some (takeLine rest).1 := by
    rw [← List.head?_drop, hdrop]
    rfl
  rw [lineStart, List.take_add_one, hget, List.map_append, List.sum_append, hsum, htotal]
  simp only [Option.toList_some, List.map_cons, List.map_nil, List.sum_cons, List.sum_nil]
  by_cases hmem : '\n' ∈ rest
  · obtain ⟨line, hline, hbytes⟩ := exists_takeLine rest
    have hle : byteLength rest = lineBytes rest + byteLength (takeLine rest).2 := by
      rw [← hbytes, ← byteLength_append, ← hline]
    rw [lineBytes_of_mem hmem] at hle ⊢
    omega
  · simp only [lineBytes_of_notMem hmem, takeLine_of_notMem hmem]
    omega

end RwxScene.Text
