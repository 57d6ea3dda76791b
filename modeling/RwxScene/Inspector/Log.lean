import RwxScene.Text.Control
import RwxScene.Text.Lines

/-!
# The log

Messages follow one another in the log, each with the end of its last line. It is no terminal, so
control characters and sequences have no place in it.
-/

namespace RwxScene.Inspector.Log

/-- A message as the log has it. Its lines but for the first are indented. A sequence that the
message leaves open takes the end of the line with it. -/
def written (message : String) : List Char :=
  let indented := message.toList.flatMap fun c ↦ if c = '\n' then "\n    ".toList else [c]
  Text.withoutControls (indented ++ ['\n'])

/-- The lines of the log with which messages begin. A message whose line has no end runs into the
next one. -/
def heads : List String → List (List Char)
  | [] => []
  | message :: messages =>
    let text := written message
    if text.contains '\n' then Text.chomp (Text.takeLine text).1 :: heads messages
    else
      match heads messages with
      | [] => [text]
      | head :: heads => (text ++ head) :: heads

end RwxScene.Inspector.Log
