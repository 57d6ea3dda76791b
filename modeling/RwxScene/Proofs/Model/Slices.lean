import Mathlib
import RwxScene.Model.Load
import RwxScene.Proofs.Text.Lines

/-!
# Loading in slices

However a text is cut into slices, what has been followed at any time are its first lines, and the
cursor stands where the next one begins (`Load.Follows`). A slice moves on by its budget or by the
lines that are left (`Follows.advance`), so no cut is visible in the finished model
(`Load.slices_follow_lines`).
-/

namespace RwxScene

/-- The state after some lines were read. -/
def State.stepLines (s : State) (ls : List (List Char)) : State :=
  ls.foldl (fun s l ↦ s.step (.read l)) s

/-- The line is no command, though it has words. -/
def Line.isRejected (cs : List Char) : Bool := (Line.read cs).rejection?.isSome

namespace Load

variable {text : List Char} {path : String} {settings : Settings} {l : Load}

/-- The first lines of the text were followed, and the cursor stands where the next one begins. -/
structure Follows (text : List Char) (path : String) (settings : Settings) (l : Load) : Prop where
  path : l.path = path
  size : l.size = Text.byteLength text
  lines_le : l.lines ≤ (Text.lines text).length
  pieces : Text.pieces l.rest = (Text.pieces text).drop l.lines
  split : ∃ front, text = front ++ l.rest ∧ Text.byteLength front = l.cursor
  cursor : l.cursor = Text.lineStart text l.lines
  state : l.state = (State.start settings).stepLines ((Text.lines text).take l.lines)
  ignored : l.ignored = ((Text.lines text).take l.lines).countP Line.isRejected

theorem follows_start (text : List Char) (path : String) (settings : Settings) :
    Follows text path settings (start text path settings) where
  path := rfl
  size := rfl
  lines_le := Nat.zero_le _
  pieces := rfl
  split := ⟨[], rfl, rfl⟩
  cursor := (Nat.zero_min _).symm
  state := rfl
  ignored := rfl

/-! ### One line -/

theorem isDone_iff (l : Load) : l.isDone = true ↔ l.rest = [] := by rw [isDone, List.isEmpty_iff]

/-- All is followed when as many lines were followed as there are. -/
theorem Follows.isDone_iff_lines (h : Follows text path settings l) :
    l.isDone = true ↔ l.lines = (Text.lines text).length := by
  have hle := h.lines_le
  rw [isDone_iff, ← Text.pieces_eq_nil_iff, h.pieces, List.drop_eq_nil_iff]
  rw [Text.length_lines] at hle ⊢
  omega

theorem Follows.stepLine (h : Follows text path settings l) (hdone : ¬l.isDone = true) :
    Follows text path settings l.stepLine := by
  have hrest : l.rest ≠ [] := fun he ↦ hdone (l.isDone_iff.2 he)
  obtain ⟨front, htext, hfront⟩ := h.split
  obtain ⟨line, hline, hbytes⟩ := Text.exists_takeLine l.rest
  have hdrop : (Text.pieces text).drop l.lines =
      (Text.takeLine l.rest).1 :: Text.pieces (Text.takeLine l.rest).2 := by
    rw [← h.pieces, Text.pieces_eq_takeLine hrest]
  have hlt : l.lines < (Text.pieces text).length := by
    by_contra hge
    rw [List.drop_eq_nil_of_le (by omega)] at hdrop
    exact absurd hdrop (by simp)
  -- the line that is read is the next one of the text
  have htake : (Text.lines text).take (l.lines + 1) =
      (Text.lines text).take l.lines ++ [Text.chomp (Text.takeLine l.rest).1] := by
    have hget : (Text.pieces text)[l.lines]? = some (Text.takeLine l.rest).1 := by
      rw [← List.head?_drop, hdrop]
      rfl
    rw [List.take_add_one, Text.lines, List.getElem?_map, hget]
    rfl
  refine ⟨h.path, h.size, ?_, ?_, ⟨front ++ line, ?_, ?_⟩, ?_, ?_, ?_⟩
  · rw [Text.length_lines]
    exact hlt
  · show Text.pieces (Text.takeLine l.rest).2 = (Text.pieces text).drop (l.lines + 1)
    rw [← List.drop_drop, hdrop]
    rfl
  · rw [htext, List.append_assoc]
    exact congrArg (front ++ ·) hline
  · rw [Text.byteLength_append, hfront, hbytes]
    rfl
  · show l.cursor + Text.lineBytes l.rest = Text.lineStart text (l.lines + 1)
    rw [← hfront]
    exact Text.lineStart_succ htext h.pieces (hfront.trans h.cursor) hrest
  · show l.state.step _ = State.stepLines _ ((Text.lines text).take (l.lines + 1))
    rw [htake, State.stepLines, List.foldl_append, h.state]
    rfl
  · show l.ignored + (if _ then 1 else 0) = List.countP _ ((Text.lines text).take (l.lines + 1))
    rw [htake, List.countP_append, h.ignored, List.countP_singleton]
    rfl

/-! ### One slice -/

/-- A slice moves on by its budget, or by the lines that are left. -/
theorem Follows.advance (h : Follows text path settings l) (budget : Nat) :
    Follows text path settings (l.advance budget) ∧
      l.consumed budget = min budget ((Text.lines text).length - l.lines) ∧
        (l.advance budget).lines = l.lines + l.consumed budget := by
  induction budget generalizing l with
  | zero => exact ⟨h, (Nat.zero_min _).symm, rfl⟩
  | succ budget ih =>
    rw [Load.advance, consumed]
    by_cases hdone : l.isDone = true
    · have hlines := h.isDone_iff_lines.1 hdone
      rw [if_pos hdone, if_pos hdone]
      exact ⟨h, by omega, rfl⟩
    · have hlines : l.lines ≠ (Text.lines text).length := fun he ↦ hdone (h.isDone_iff_lines.2 he)
      have hle := h.lines_le
      obtain ⟨hfollows, hconsumed, hadvance⟩ := ih (h.stepLine hdone)
      have hstep : l.stepLine.lines = l.lines + 1 := rfl
      rw [hstep] at hconsumed hadvance
      rw [if_neg hdone, if_neg hdone]
      exact ⟨hfollows, by omega, by omega⟩

/-- Slices move on by their budgets, or by all lines that are left. -/
theorem Follows.advanceAll (h : Follows text path settings l) (budgets : List Nat) :
    Follows text path settings (budgets.foldl Load.advance l) ∧
      (budgets.foldl Load.advance l).lines =
        min (l.lines + budgets.sum) (Text.lines text).length := by
  induction budgets generalizing l with
  | nil =>
    have := h.lines_le
    refine ⟨h, ?_⟩
    rw [List.foldl_nil, List.sum_nil]
    omega
  | cons budget budgets ih =>
    obtain ⟨hfollows, hconsumed, hadvance⟩ := h.advance budget
    obtain ⟨hrest, hlines⟩ := ih hfollows
    have := h.lines_le
    refine ⟨hrest, ?_⟩
    rw [List.foldl_cons, List.sum_cons, hlines]
    omega

/-! ### The end -/

/-- The model of all lines, whatever was followed of them before. -/
theorem Follows.finish (h : Follows text path settings l) :
    l.finish =
      { path := path
        root := ((State.start settings).stepLines (Text.lines text)).finish.1
        diagnostics :=
          { ((State.start settings).stepLines (Text.lines text)).finish.2 with
            lines := (Text.lines text).length
            ignoredLines := (Text.lines text).countP Line.isRejected } } := by
  have hbudget : (Text.lines text).length - l.lines ≤ l.rest.length := by
    rw [Text.length_lines, ← List.length_drop, ← h.pieces]
    exact Text.length_pieces_le _
  have hle := h.lines_le
  obtain ⟨hfollows, hconsumed, hadvance⟩ := h.advance l.rest.length
  have hall : (l.advance l.rest.length).lines = (Text.lines text).length := by omega
  have hstate := hfollows.state
  have hignored := hfollows.ignored
  rw [hall, List.take_length] at hstate hignored
  rw [Load.finish, hstate, hignored, hall, hfollows.path]

/-- **Slices make no difference.** After any slices the first lines of the text were followed, as
many as the budgets allow; the cursor is the byte at which the next line begins, which is never
inside a character; and the finished model is that of all lines, which is what loading the text as
a whole gives. -/
theorem slices_follow_lines (text path : String) (settings : Settings) (budgets : List Nat) :
    let lines := (Text.dropEmptyEnd (Text.cut '\n' text.toList)).map Text.chomp
    let l := budgets.foldl advance (start text.toList path settings)
    l.lines = min budgets.sum lines.length ∧
      (∀ budget, l.consumed budget = min budget (lines.length - l.lines)) ∧
      l.state = (State.start settings).stepLines (lines.take l.lines) ∧
      l.cursor = Text.lineStart text.toList l.lines ∧
      String.Pos.Raw.IsValid text ⟨l.cursor⟩ ∧
      (l.isDone = true ↔ l.lines = lines.length) ∧
      l.finish =
        { path
          root := ((State.start settings).stepLines lines).finish.1
          diagnostics :=
            { ((State.start settings).stepLines lines).finish.2 with
              lines := lines.length
              ignoredLines := lines.countP Line.isRejected } } ∧
      (begin text path settings).map (fun l ↦ (budgets.foldl advance l).finish) =
        Model.ofText text path settings := by
  intro lines l
  have hlines : lines = Text.lines text.toList := by
    rw [Text.lines, Text.pieces_eq_cut]
  obtain ⟨hfollows, hcount⟩ := (follows_start text.toList path settings).advanceAll budgets
  rw [hlines]
  refine ⟨?_, fun budget ↦ (hfollows.advance budget).2.1, hfollows.state, hfollows.cursor, ?_,
    hfollows.isDone_iff_lines, hfollows.finish, ?_⟩
  · rw [hcount]
    exact congrArg (min · _) (Nat.zero_add _)
  · obtain ⟨front, htext, hfront⟩ := hfollows.split
    rw [← hfront]
    exact Text.isValid_byteLength htext
  · rw [Model.ofText, begin]
    split
    · rfl
    · -- both models are that of all lines behind a mark of byte order
      have hstart := follows_start (dropMark text.toList) path settings
      exact congrArg Except.ok
        ((hstart.advanceAll budgets).1.finish.trans hstart.finish.symm)

/-- Behind two slices of one line, with an empty one between them, the third line comes next. The
first one has two characters of two bytes and ends in two more bytes. -/
example :
    let l := [1, 0, 1].foldl advance (start "\u00e9\u00e9\r\n\nvertex".toList "scene" .initial)
    l.lines = 2 ∧ l.cursor = 7 ∧ l.isDone = false := by decide +kernel

end Load

end RwxScene
