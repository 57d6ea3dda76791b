import RwxScene.Model.Load
import RwxScene.Proofs.Command.Faces
import RwxScene.Proofs.Interpreter.Levels

/-!
# Loading is a run

The state at the end of a load is that of the run over the lines of the text (`state_advance`), so
the scene of a loaded text is the finished tree of a run (`Model.root_of_ofText`), and the faces of
this run are complete.
-/

namespace RwxScene

/-- The lines of a text as actions. -/
def Action.ofLines (cs : List Char) : List Action :=
  (Text.lines cs).map fun l ↦ .line (Line.read l)

/-- The actions that loading a text takes. -/
def Action.ofText (text : String) : List Action := ofLines (Load.dropMark text.toList)

/-- A budget of a line for each character is enough for all lines. -/
theorem Load.state_advance (l : Load) {budget : Nat} (h : l.rest.length ≤ budget) :
    (l.advance budget).state = l.state.run (Action.ofLines l.rest) := by
  induction budget generalizing l with
  | zero =>
    have hrest : l.rest = [] := List.eq_nil_of_length_eq_zero (Nat.le_zero.1 h)
    rw [advance, hrest]
    rfl
  | succ budget ih =>
    by_cases hrest : l.rest = []
    · have hdone : l.isDone = true := by rw [isDone, hrest, List.isEmpty_nil]
      rw [advance, if_pos hdone, hrest]
      rfl
    · have hdone : ¬l.isDone = true := by rw [isDone, List.isEmpty_iff]; exact hrest
      have hlt := Text.length_takeLine_lt hrest
      have hle : l.stepLine.rest.length ≤ budget := by
        show (Text.takeLine l.rest).2.length ≤ budget
        omega
      rw [advance, if_neg hdone, ih _ hle, Action.ofLines, Action.ofLines,
        Text.lines_eq_takeLine hrest]
      rfl

/-- A text with something in it has a model. -/
theorem Model.exists_ofText {text path : String} {settings : Settings}
    (h : (Load.dropMark text.toList).all Text.isBlank = false) :
    ∃ m, ofText text path settings = .ok m := by
  rw [ofText, Load.begin]
  simp only [h]
  exact ⟨_, rfl⟩

/-- A scene is the finished tree of the run over its lines. -/
theorem Model.root_of_ofText {text path : String} {settings : Settings} {m : Model}
    (h : ofText text path settings = .ok m) :
    m.root = ((State.start settings).run (Action.ofText text)).finish.1 := by
  rw [ofText, Load.begin] at h
  split at h
  · exact absurd h (by simp [Except.map])
  · obtain rfl := Except.ok.inj h
    show (State.finish (Load.state _)).1 = _
    rw [Load.state_advance _ (Nat.le_refl _)]
    rfl

/-- The faces of a text are complete. -/
theorem Action.draws_of_mem_ofText {text : String} {a : Action} (h : a ∈ ofText text) :
    a.Draws Face.IsComplete := by
  obtain ⟨l, -, rfl⟩ := List.mem_map.1 h
  exact fun f hf ↦ Line.isComplete_of_read hf

end RwxScene
