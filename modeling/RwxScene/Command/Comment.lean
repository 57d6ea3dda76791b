/-!
# Comments

A number sign begins a comment that goes on to the end of the line. Written with an exclamation mark
behind it, the sign stands for itself. `escape` writes a text so that none of it is a comment.
-/

namespace RwxScene.Comment

/-- The line without its comment. -/
def strip : List Char → List Char
  | [] => []
  | '#' :: '!' :: cs => '#' :: strip cs
  | c :: cs => if c = '#' then [] else c :: strip cs

/-- The text with every number sign marked as no comment. -/
def escape : List Char → List Char
  | [] => []
  | c :: cs => if c = '#' then '#' :: '!' :: escape cs else c :: escape cs

/-- Nothing of an escaped text begins a comment, whatever stands behind it. -/
theorem strip_escape_append (cs ds : List Char) : strip (escape cs ++ ds) = cs ++ strip ds := by
  induction cs with
  | nil => rfl
  | cons c cs ih => by_cases h : c = '#' <;> simp [escape, strip, h, ih]

theorem strip_escape (cs : List Char) : strip (escape cs) = cs := by
  have h := strip_escape_append cs []
  rwa [strip, List.append_nil, List.append_nil] at h

end RwxScene.Comment
