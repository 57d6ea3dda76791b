import RwxScene.Text.Lines

/-!
# Deleting lines

A line is deleted together with the line feed that ends it. The lines of what is left are then the
other lines, in order: a line feed goes with the line before it, so no two lines are joined, and only
the last line of a text may lack one.
-/

namespace RwxScene.Text

/-- The elements but those at some places, when the first one is at place `i`. -/
def dropAt {α : Type} (p : Nat → Bool) : Nat → List α → List α
  | _, [] => []
  | i, x :: xs => if p i then dropAt p (i + 1) xs else x :: dropAt p (i + 1) xs

/-- The text without some of its lines, when the first one has the number `i`. -/
def deleteLines (p : Nat → Bool) : Nat → List Char → List Char
  | _, [] => []
  | i, c :: cs =>
    let left := deleteLines p (if c = '\n' then i + 1 else i) cs
    if p i then left else c :: left

theorem dropAt_map {α β : Type} (f : α → β) (p : Nat → Bool) (i : Nat) (xs : List α) :
    dropAt p i (xs.map f) = (dropAt p i xs).map f := by
  induction xs generalizing i with
  | nil => rfl
  | cons x xs ih =>
    rw [List.map_cons, dropAt, dropAt, ih]
    split <;> rfl

theorem pieces_deleteLines (p : Nat → Bool) (i : Nat) (cs : List Char) :
    pieces (deleteLines p i cs) = dropAt p i (pieces cs) := by
  induction cs generalizing i with
  | nil => rfl
  | cons c cs ih =>
    by_cases hc : c = '\n'
    · rw [deleteLines, pieces, if_pos hc, if_pos hc, dropAt]
      by_cases hp : p i = true
      · rw [if_pos hp, if_pos hp, ih]
      · rw [if_neg hp, if_neg hp, pieces, if_pos hc, ih]
    · have hcs := ih i
      rw [deleteLines, pieces, if_neg hc, if_neg hc]
      -- the character belongs to the same line as the next one, if there is one
      cases hq : pieces cs with
      | nil =>
        rw [hq] at hcs
        by_cases hp : p i = true
        · rw [if_pos hp, hcs, dropAt, dropAt, if_pos hp]
          rfl
        · rw [if_neg hp, pieces, if_neg hc, hcs, dropAt, dropAt, if_neg hp]
          rfl
      | cons q qs =>
        rw [hq, dropAt] at hcs
        by_cases hp : p i = true
        · rw [if_pos hp] at hcs ⊢
          rw [hcs, dropAt, if_pos hp]
        · rw [if_neg hp] at hcs ⊢
          rw [pieces, if_neg hc, hcs, dropAt, if_neg hp]

/-- The lines that are left are the lines that were not deleted. -/
theorem lines_deleteLines (p : Nat → Bool) (i : Nat) (cs : List Char) :
    lines (deleteLines p i cs) = dropAt p i (lines cs) := by
  rw [lines, lines, pieces_deleteLines, dropAt_map]

/-- The last line may lack its line feed, the others may not. -/
example : deleteLines (· = 1) 0 "ab\ncd\nef".toList = "ab\nef".toList := by decide

end RwxScene.Text
