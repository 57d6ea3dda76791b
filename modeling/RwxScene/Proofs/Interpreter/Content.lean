import Mathlib.Tactic.Set
import RwxScene.Proofs.Interpreter.Effect
import RwxScene.Proofs.Scene.Walk

/-!
# The content of a tree under way

The nodes of a finished tree stand in the order in which their clumps were opened, and so do the
clumps of a state already: first the root, then what was finished inside it, then the clump that is
open inside it, and so on inwards. `State.content` lists names and batches in this order, the open
batches as they would be finished now.

Ending a clump only moves its node into the one around it, which leaves the list as it is. So the
content of the finished tree is that of the last state (`content_finish`), whatever was left open.
-/

namespace RwxScene

namespace Node

/-- The name and the batches of a node. -/
def content (n : Node) : String × List Batch := (n.name, n.batches)

end Node

namespace Level

/-- The content of an open clump and of the clumps that were finished inside it. -/
def content (settings : Settings) (l : Level) : List (String × List Batch) :=
  (l.node.name, l.batches settings) :: (Node.visit l.node.children).map Node.content

/-- The content of levels, the innermost of which comes first and was opened last. -/
def contents (settings : Settings) : List Level → List (String × List Batch)
  | [] => []
  | l :: ls => contents settings ls ++ l.content settings

/-- Where the content of each level begins. -/
def positions (settings : Settings) : List Level → List Nat
  | [] => []
  | _ :: ls => (contents settings ls).length :: positions settings ls

theorem content_opened (settings : Settings) (name : String) (matrix : Mat4) (material : Material)
    (memo : Option Signature) :
    (opened name matrix material memo).content settings = [(name, [])] := by
  show (name, []) :: (Node.visit []).map Node.content = _
  rw [Node.visit_nil]
  rfl

/-- A child brings the content of its tree along. -/
theorem content_adopt (settings : Settings) (l : Level) (n : Node) :
    (l.adopt n).content settings = l.content settings ++ n.walk.map Node.content := by
  show _ :: (Node.visit (l.node.children ++ [n])).map Node.content = _
  rw [Node.visit_append, List.map_append]
  rfl

/-- Every level has content of its own, so an outer level begins before an inner one. -/
theorem lt_of_mem_positions {settings : Settings} {ls : List Level} {k : Nat}
    (h : k ∈ positions settings ls) : k < (contents settings ls).length := by
  induction ls with
  | nil => exact absurd h List.not_mem_nil
  | cons l ls ih =>
    rw [contents, List.length_append, content, List.length_cons]
    rcases List.mem_cons.1 h with rfl | h
    · omega
    · have := ih h
      omega

end Level

namespace State

/-- The content of the tree as far as it is known. -/
def content (s : State) : List (String × List Batch) := Level.contents s.settings s.levels

/-- Ending a clump moves content without changing it. -/
theorem contents_leave (settings : Settings) (l parent : Level) (outer : List Level)
    (placement : Placement) (joint : Option Mat4) :
    Level.contents settings
        (parent.adopt { (l.settled settings).node with placement, joint } :: outer) =
      Level.contents settings (l :: parent :: outer) := by
  -- the batches of the finished node are those of the level with the open one among them
  rw [Level.contents, Level.content_adopt, Node.walk_eq, ← List.append_assoc]
  rfl

theorem content_leave {s : State} {parent : Level} {outer : List Level}
    (h : s.outer = parent :: outer) : (s.leave parent outer).content = s.content := by
  obtain ⟨placement, joint, d, hleave⟩ := s.exists_leave parent outer
  rw [hleave, content, content, levels, levels, h]
  exact contents_leave s.settings s.level parent outer placement joint

theorem content_closeAll (s : State) {outer : List Level} (h : s.outer = outer) :
    (s.closeAll outer).content = s.content := by
  induction outer generalizing s with
  | nil => rfl
  | cons parent outer ih =>
    set t := s.count fun d ↦ { d with autoClosedClumps := d.autoClosedClumps + 1 }
    have hparent : (t.leave parent outer).outer = outer := by
      obtain ⟨placement, joint, d, hleave⟩ := t.exists_leave parent outer
      rw [hleave]
    calc (s.closeAll (parent :: outer)).content
        = ((t.leave parent outer).closeAll outer).content := rfl
      _ = (t.leave parent outer).content := ih _ hparent
      _ = t.content := content_leave h
      _ = s.content := rfl

/-- The finished tree has the content of the last state. -/
theorem content_finish (s : State) : s.finish.1.walk.map Node.content = s.content := by
  rw [← s.content_closeAll rfl]
  have houter := s.outer_closeAll rfl
  show (State.level _).node.walk.map Node.content = _
  generalize s.closeAll s.outer = t at houter
  obtain ⟨d, hflush⟩ := t.exists_flush
  rw [hflush, content, levels, houter, Node.walk_eq]
  rfl

end State

end RwxScene
