import RwxScene.Proofs.Interpreter.Counts
import RwxScene.Proofs.Model.Rejected
import RwxScene.Proofs.Scene.Validation

/-!
# The counts of a model

The diagnostics of a model are counted while its text is interpreted. Here each of them is found a
second time: from the text, from the commands with the brackets they stand in, or from the scene
(`Model.counts_ofText`).
-/

namespace RwxScene

/-- The faces of a text are complete. -/
theorem Load.isComplete_of_mem_commands {text : String} {c : Command} (h : c ∈ commands text) :
    c.IsComplete := by
  obtain ⟨l, -, hl⟩ := List.mem_filterMap.1 h
  rintro f rfl
  exact Line.isComplete_of_read hl

/-- A mark of byte order is no line. -/
theorem Load.length_lines_dropMark {cs : List Char} (h : dropMark cs ≠ []) :
    (Text.lines (dropMark cs)).length =
      cs.count '\n' + if cs.getLast? = some '\n' then 0 else 1 := by
  rw [Text.length_lines, Text.length_pieces]
  match cs with
  | [] => exact absurd rfl h
  | c :: cs =>
    rw [dropMark] at h ⊢
    by_cases hc : c.toNat = 0xfeff
    · rw [if_pos hc] at h ⊢
      have hne : c ≠ '\n' := by
        rintro rfl
        exact absurd hc (by decide)
      obtain ⟨d, ds, rfl⟩ := List.exists_cons_of_ne_nil h
      rw [List.count_cons_of_ne hne, List.getLast?_cons_cons]
      simp
    · rw [if_neg hc]
      simp

/-- **The counts add up.** -/
theorem Model.counts_ofText {text path : String} {settings : Settings} {m : Model}
    (h : ofText text path settings = .ok m) :
    let commands := Load.commands text
    let trace := Brackets.start.trace commands
    let faces := trace.filterMap Brackets.accepted?
    let d := m.diagnostics
    d.lines = text.toList.count '\n' + (if text.toList.getLast? = some '\n' then 0 else 1) ∧
      m.root.nodeCount = commands.count (.scope .clumpBegin) + 1 ∧
      commands.count (.scope .clumpBegin) =
        trace.countP Brackets.endsClump + d.autoClosedClumps ∧
      d.unmatchedScopeEnds = trace.countP Brackets.missesEnd ∧
      d.outOfRangeFaces + faces.length = commands.countP Command.isFace ∧
      m.root.triangleCount = (faces.map fun f ↦ f.indices.length - 2).sum ∧
      d.duplicatedBatches = m.root.allBatches.countP (·.duplicated) ∧
      (∀ o, (Validation.validate o m.root).stats.duplicated = d.duplicatedBatches) ∧
      d.degenerateTriangles = (m.root.allBatches.map fun b ↦ b.triangles.countP fun t ↦
        (Normals.ofTriangle settings.degenerateNormalEpsilon b.positions t).isNone).sum := by
  intro commands trace faces d
  have hm := eq_of_ofText h
  have hroot : m.root = ((State.start settings).follow commands).finish.1 := by rw [hm]
  obtain ⟨hdropped, hmissed, hclosed⟩ := State.faults_finish settings commands
  obtain ⟨hdegenerate, hduplicated⟩ := State.meters_finish settings commands
  rw [← hroot] at hdegenerate hduplicated
  have hd : d = { ((State.start settings).follow commands).finish.2 with
      lines := (Text.lines (Load.dropMark text.toList)).length
      ignoredLines := (Text.lines (Load.dropMark text.toList)).countP Line.isRejected } := by
    rw [show d = m.diagnostics from rfl, hm]
  have hfaces := Brackets.countP_dropsFace_add_length trace
  rw [← hdropped, Brackets.countP_trace] at hfaces
  have hduplicated : d.duplicatedBatches = m.root.allBatches.countP (·.duplicated) := by
    rw [hd]
    exact hduplicated
  refine ⟨?_, ?_, ?_, ?_, ?_, ?_, hduplicated, fun o ↦ ?_, ?_⟩
  · have hsome : Load.dropMark text.toList ≠ [] := by
      intro hnil
      rw [ofText, Load.begin, hnil] at h
      exact absurd h (by simp [Except.map])
    rw [hd]
    exact Load.length_lines_dropMark hsome
  · rw [hroot, State.nodeCount_finish]
  · rw [hclosed, hd]
  · rw [← hmissed, hd]
  · rw [← hfaces, hd]
  · rw [hroot]
    exact State.triangleCount_finish settings fun c hc ↦ Load.isComplete_of_mem_commands hc
  · rw [Validation.stats_validate, hduplicated]
    rfl
  · rw [hd]
    exact hdegenerate

/-- A clump that is not closed, a face of three corners that are two vertices, one with a vertex too
many, and an end of a scope that is not open. -/
theorem Model.counts_ofText_faults :
    let text := "clumpbegin\nvertex 0 0 0\nvertex 1 0 0\ntriangle 1 2 2\ntriangle 1 2 3\ntransformend\n"
    ∃ m, ofText text "scene" .initial = .ok m ∧
      m.diagnostics.lines = 6 ∧ m.root.nodeCount = 2 ∧ m.diagnostics.autoClosedClumps = 1 ∧
        m.diagnostics.unmatchedScopeEnds = 1 ∧ m.diagnostics.outOfRangeFaces = 1 ∧
          m.root.triangleCount = 1 := by
  intro text
  obtain ⟨m, hm⟩ : ∃ m, ofText text "scene" .initial = .ok m := exists_ofText (by decide +kernel)
  obtain ⟨hlines, hnodes, hclosed, hmissed, hfaces, htriangles, -⟩ := counts_ofText hm
  have hcount : (Load.commands text).count (.scope .clumpBegin) = 1 := by decide +kernel
  have hends : (Brackets.start.trace (Load.commands text)).countP Brackets.endsClump = 0 := by
    decide +kernel
  have hmisses : (Brackets.start.trace (Load.commands text)).countP Brackets.missesEnd = 1 := by
    decide +kernel
  have haccepted : (Brackets.start.trace (Load.commands text)).filterMap Brackets.accepted? =
      [⟨.triangle, [1, 2, 2], none⟩] := by decide +kernel
  have hisFace : (Load.commands text).countP Command.isFace = 2 := by decide +kernel
  rw [haccepted] at hfaces htriangles
  refine ⟨m, hm, ?_, ?_, ?_, ?_, ?_, ?_⟩
  · rw [hlines]
    decide +kernel
  · rw [hnodes, hcount]
  · omega
  · rw [hmissed, hmisses]
  · rw [hisFace] at hfaces
    exact Nat.succ.inj hfaces
  · exact htriangles

end RwxScene
