/-!
# Lines

A line ends before a line feed, and a carriage return directly before that is not part of it. A text
that ends in a line feed has no further line after it.

`takeLine` cuts one line off and is what a reader of slices uses; `lines` is all of them at once.
-/

namespace RwxScene.Text

/-- The text up to the first line feed, and the text after it. -/
def takeLine (cs : List Char) : List Char × List Char :=
  (cs.takeWhile (· ≠ '\n'), (cs.dropWhile (· ≠ '\n')).drop 1)

/-- Some of a text that is not empty is cut off. -/
theorem length_takeLine_lt {cs : List Char} (h : cs ≠ []) :
    (takeLine cs).2.length < cs.length := by
  cases cs with
  | nil => contradiction
  | cons c cs =>
    have hs := (List.dropWhile_suffix (l := cs) (· ≠ '\n')).length_le
    by_cases hc : c = '\n'
    · simp [takeLine, hc]
    · simp only [takeLine, ne_eq, hc, not_false_eq_true, decide_true, List.dropWhile_cons_of_pos,
        List.length_drop, List.length_cons] at hs ⊢
      omega

/-- A line without the carriage return at its end. -/
def chomp (cs : List Char) : List Char := if cs.getLast? = some '\r' then cs.dropLast else cs

/-- What stands before, between and after the line feeds; after the last one only if there is
something. -/
def pieces : List Char → List (List Char)
  | [] => []
  | c :: cs =>
    if c = '\n' then [] :: pieces cs
    else
      match pieces cs with
      | [] => [[c]]
      | p :: ps => (c :: p) :: ps

theorem pieces_eq_takeLine {cs : List Char} (h : cs ≠ []) :
    pieces cs = (takeLine cs).1 :: pieces (takeLine cs).2 := by
  induction cs with
  | nil => contradiction
  | cons c cs ih =>
    by_cases hc : c = '\n'
    · simp [pieces, takeLine, hc]
    · cases cs with
      | nil => simp [pieces, takeLine, hc]
      | cons d ds =>
        have := ih (by simp)
        simp only [takeLine] at this ⊢
        rw [pieces, if_neg hc, this]
        simp [hc]

/-- The lines of a text. -/
def lines (cs : List Char) : List (List Char) := (pieces cs).map chomp

/-- The lines are those that `takeLine` cuts off one by one. -/
theorem lines_eq_takeLine {cs : List Char} (h : cs ≠ []) :
    lines cs = chomp (takeLine cs).1 :: lines (takeLine cs).2 := by
  simp [lines, pieces_eq_takeLine h]

/-- The number of bytes of a text in UTF-8. -/
def byteLength (cs : List Char) : Nat := cs.foldr (fun c n ↦ c.utf8Size + n) 0

/-- The number of bytes that `takeLine` cuts off, the line feed included. -/
def lineBytes (cs : List Char) : Nat :=
  byteLength (takeLine cs).1 + if cs.contains '\n' then 1 else 0

end RwxScene.Text
