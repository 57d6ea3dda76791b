import RwxScene.Model.Load
import RwxScene.Proofs.Interpreter.Mirror

/-!
# Models in the mirror

A left-handed scene is the mirror image of the right-handed scene of the same text
(`Model.mirrorOf_ofText`): the trees have the same shape, names, materials and counts, and what has a
place in space is mirrored. Values are compared as numbers, so that the two zeros are the same, as are
all that are not numbers.
-/

namespace RwxScene

/-- The scene of the model is the mirror image of that of the other one; all else is the same. -/
structure Model.MirrorOf (m n : Model) : Prop where
  path : m.path = n.path
  root : m.root.MirrorOf n.root
  diagnostics : m.diagnostics = n.diagnostics

namespace Load

/-- The load has come as far as the other one, with the mirrored state. -/
structure MirrorOf (k l : Load) : Prop where
  eq : k = { l with state := k.state }
  state : k.state.MirrorOf l.state
  wellFormed : ∀ v ∈ l.state.levels, v.WellFormed

namespace MirrorOf

variable {k l : Load}

theorem start (text : List Char) (path : String) (settings : Settings) :
    MirrorOf (.start text path { settings with handedness := .left })
      (.start text path { settings with handedness := .right }) :=
  ⟨rfl, .start settings, Level.wellFormed_run _ []⟩

theorem stepLine (h : MirrorOf k l) : MirrorOf k.stepLine l.stepLine := by
  obtain ⟨heq, hstate, hwf⟩ := h
  generalize k.state = s at heq hstate
  obtain rfl := heq
  refine ⟨rfl, hstate.step (hwf _ List.mem_cons_self) _, ?_⟩
  exact (Level.stable_wellFormed _).act (a := .line _) (fun _ _ ↦ trivial) hwf

theorem advance (h : MirrorOf k l) (budget : Nat) :
    MirrorOf (k.advance budget) (l.advance budget) := by
  induction budget generalizing k l with
  | zero => exact h
  | succ budget ih =>
    have hdone : k.isDone = l.isDone := by rw [h.eq]; rfl
    rw [Load.advance, Load.advance, hdone]
    split
    · exact h
    · exact ih h.stepLine

theorem finish (h : MirrorOf k l) : k.finish.MirrorOf l.finish := by
  have hlength : k.rest.length = l.rest.length := by rw [h.eq]
  have hadvance := h.advance l.rest.length
  obtain ⟨hroot, hdiagnostics⟩ := hadvance.state.finish hadvance.wellFormed
  have hpath : (k.advance l.rest.length).path = (l.advance l.rest.length).path := by
    rw [hadvance.eq]
  have hlines : (k.advance l.rest.length).lines = (l.advance l.rest.length).lines := by
    rw [hadvance.eq]
  have hignored : (k.advance l.rest.length).ignored = (l.advance l.rest.length).ignored := by
    rw [hadvance.eq]
  rw [Load.finish, Load.finish, hlength]
  refine ⟨hpath, hroot, ?_⟩
  simp only [hdiagnostics, hlines, hignored]

end MirrorOf

end Load

/-- **Left-handed scenes are mirror images.** -/
theorem Model.mirrorOf_ofText (text path : String) (settings : Settings) :
    (∃ e, ofText text path { settings with handedness := .left } = .error e ∧
      ofText text path { settings with handedness := .right } = .error e) ∨
    ∃ m n, ofText text path { settings with handedness := .left } = .ok m ∧
      ofText text path { settings with handedness := .right } = .ok n ∧ m.MirrorOf n := by
  rw [ofText, ofText, Load.begin, Load.begin]
  split
  · exact .inl ⟨_, rfl, rfl⟩
  · exact .inr ⟨_, _, rfl, rfl, (Load.MirrorOf.start _ path settings).finish⟩

end RwxScene
