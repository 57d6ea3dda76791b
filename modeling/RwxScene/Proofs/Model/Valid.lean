import Mathlib
import RwxScene.Proofs.Interpreter.Emitted
import RwxScene.Proofs.Mesh.Normals
import RwxScene.Proofs.Model.Load
import RwxScene.Proofs.Model.Regular

/-!
# What loads is valid

A validation finds nothing wrong with a scene that was loaded with the usual settings
(`Model.valid_of_ofText`). That the arrays of batches fit together does not depend on the settings.
A position is finite like everything that a text brings in; no matrix takes part in it. A normal was
made by dividing a vector by its length, if that length is worth dividing by, whatever the positions
may be.
-/

namespace RwxScene

/-! ### Positions -/

/-- A text is read line by line. -/
theorem State.run_ofText (s : State) (text : String) :
    s.run (Action.ofText text) = s.stepLines (Text.lines (Load.dropMark text.toList)) := by
  rw [run, Action.ofText, Action.ofLines, List.foldl_map]
  rfl

/-- The positions of the batches of a text are finite. -/
theorem isFinite_of_mem_positions {text : String} {settings : Settings} {b : Batch}
    (hb : b ∈ ((State.start settings).run (Action.ofText text)).finish.1.allBatches) {p : Vec3}
    (hp : p ∈ b.positions) : p.isFinite = true := by
  rw [State.run_ofText] at hb
  have hregular := (State.regular_start settings).stepLines (Text.lines (Load.dropMark text.toList))
  exact (hregular.finish b hb).positions p hp

/-! ### Validation -/

open Validation in
/-- Nothing is wrong with a batch that stands on its own, has finite positions and unit normals. -/
theorem Batch.SelfContained.faults_eq_nil {b : Batch} (h : b.SelfContained)
    (hpositions : ∀ p ∈ b.positions, p.isFinite = true) (hnormals : ∀ n ∈ b.normals, n.IsNearUnit) :
    faults .initial b = [] := by
  refine List.eq_nil_iff_forall_not_mem.2 fun f hf ↦ ?_
  obtain ⟨i, p, hp, n, hn, hfault⟩ := exists_vertexFault hf (h.isStructural_eq_false hf)
  have hunit := hnormals n hn
  rw [vertexFault, hpositions p hp, hunit.isFinite, hunit.isOffUnit_eq_false] at hfault
  exact absurd hfault (by simp)

/-- **What loads is valid.** A validation of a scene that was loaded with the usual settings, for
either handedness, reports nothing. All positions and normals are finite, and the square of the length
of every normal, as it is computed, is within a hundredth of one. -/
theorem Model.valid_of_ofText {text path : String} {h : Handedness} {m : Model}
    (hm : ofText text path { Settings.initial with handedness := h } = .ok m) :
    m.validate.problems = [] ∧
      ∀ b ∈ m.root.allBatches,
        (∀ p ∈ b.positions, p.isFinite = true) ∧
          ∀ n ∈ b.normals, n.isFinite = true ∧ n.lengthSquared.isFinite = true ∧
            |n.lengthSquared.value - 1| ≤ 1 / 100 := by
  set settings : Settings := { Settings.initial with handedness := h }
  have hguards : Scalar.Guards settings.degenerateNormalEpsilon := Scalar.guards_initial
  have hroot := root_of_ofText hm
  have hself : ∀ b ∈ m.root.allBatches, b.SelfContained := by
    rw [hroot]
    exact fun b hb ↦ (clumpwise_selfContained settings).of_mem_allBatches _ hb
  have hpositions : ∀ b ∈ m.root.allBatches, ∀ p ∈ b.positions, p.isFinite = true := by
    rw [hroot]
    exact fun b hb p hp ↦ isFinite_of_mem_positions hb hp
  have hnormals : ∀ b ∈ m.root.allBatches, ∀ n ∈ b.normals, n.IsNearUnit := by
    rw [hroot]
    exact fun b hb ↦ (clumpwise_of_finish (P := fun b ↦ ∀ n ∈ b.normals, n.IsNearUnit)
      (Builder.isNearUnit_finish hguards)).of_mem_allBatches _ hb
  refine ⟨List.eq_nil_iff_forall_not_mem.2 fun p hp ↦ ?_, fun b hb ↦ ⟨hpositions b hb, fun n hn ↦ ?_⟩⟩
  · obtain ⟨b, hb, hfault⟩ := Validation.exists_mem_faults hp
    rw [(hself b hb).faults_eq_nil (hpositions b hb) (hnormals b hb)] at hfault
    exact absurd hfault List.not_mem_nil
  · have hunit := hnormals b hb n hn
    obtain ⟨hfinite, hnear⟩ := hunit.near_lengthSquared
    exact ⟨hunit.isFinite, hfinite, hnear.trans (by norm_num)⟩

/-- Corners that are too far apart to have a difference, beside such as have one. -/
theorem Model.valid_of_ofText_far :
    let text :=
      "vertex 3e38 -3e38 0\nvertex -3e38 3e38 0\nvertex 0 0 1e-30\nvertex 1 0 0\nvertex 0 1 0\ntriangle 1 2 3\ntriangle 3 4 5"
    ∃ m, ofText text "scene" { Settings.initial with handedness := .left } = .ok m ∧
      m.validate.problems = [] ∧ m.root.vertexCount = 5 := by
  intro text
  obtain ⟨m, hm⟩ : ∃ m, ofText text "scene" { Settings.initial with handedness := .left } = .ok m :=
    exists_ofText (by decide +kernel)
  have hcount : m.root.vertexCount = 5 := by
    rw [root_of_ofText hm]
    decide +kernel
  exact ⟨m, hm, (valid_of_ofText hm).1, hcount⟩

end RwxScene
