import RwxScene.Proofs.Interpreter.Aspects
import RwxScene.Proofs.Model.Load
import RwxScene.Proofs.Model.Slices
import RwxScene.Proofs.Text.Deletion

/-!
# What is rejected leaves no trace

A model depends on the commands of its text alone: what else stands there is counted as a line, and
perhaps as an ignored one, and that is all (`Model.eq_of_ofText`). A line may also be a command and
come to nothing, because a face names a vertex that is not there, or because a clump ends that was not
open (`State.Misses`). Such a line is counted and otherwise leaves the state as it was, so it may as
well not be there.

To delete a line from a text is not quite to delete it from the lines. If the first line goes, what
was in front of the second one is in front of the text; and a mark of byte order there is taken off,
while elsewhere it spoils the line (`deletion_uncovers_mark`).
-/

namespace RwxScene

/-! ### Commands of a text -/

/-- The commands of a text, in order. -/
def Load.commands (text : String) : List Command :=
  (Text.lines (dropMark text.toList)).filterMap fun l ↦ (Line.read l).command?

/-- The counts but those of lines. -/
def Diagnostics.withoutLines (d : Diagnostics) : Diagnostics := { d with lines := 0, ignoredLines := 0 }

theorem State.step_of_command? (s : State) {l : Line} :
    s.step l = s.follow l.command?.toList := by
  cases l <;> rfl

/-- Lines are followed by following their commands. -/
theorem State.stepLines_eq_follow (s : State) (ls : List (List Char)) :
    s.stepLines ls = s.follow (ls.filterMap fun l ↦ (Line.read l).command?) := by
  induction ls generalizing s with
  | nil => rfl
  | cons l ls ih =>
    show (s.step (Line.read l)).stepLines ls = _
    rw [ih, step_of_command?, List.filterMap_cons]
    cases (Line.read l).command? <;> rfl

/-- The model of a text is that of its lines. -/
theorem Model.eq_of_ofText {text path : String} {settings : Settings} {m : Model}
    (h : ofText text path settings = .ok m) :
    m = { path
          root := ((State.start settings).follow (Load.commands text)).finish.1
          diagnostics :=
            { ((State.start settings).follow (Load.commands text)).finish.2 with
              lines := (Text.lines (Load.dropMark text.toList)).length
              ignoredLines := (Text.lines (Load.dropMark text.toList)).countP Line.isRejected } } := by
  rw [ofText, Load.begin] at h
  split at h
  · exact absurd h (by simp [Except.map])
  · obtain rfl := Except.ok.inj h
    rw [(Load.follows_start _ path settings).finish, State.stepLines_eq_follow]
    rfl

/-! ### Lines that come to nothing -/

/-- No command is about what came to nothing. -/
theorem Aspect.concerns_misses (x : Action) : concerns .misses x = false := by
  rw [concerns]
  cases x.command? with
  | none => rfl
  | some c => cases c <;> rfl

mutual

theorem Node.without_misses : ∀ n : Node, Node.without .misses n = n
  | ⟨_, _, _, children, _⟩ => by
    rw [without, withoutAll_misses children]
    rfl

theorem Node.withoutAll_misses : ∀ ns : List Node, Node.withoutAll .misses ns = ns
  | [] => rfl
  | n :: ns => by rw [withoutAll, without_misses n, withoutAll_misses ns]

end

namespace State

/-- The line is a face with a corner that is no vertex, or the end of a clump while none is open. -/
def Misses (s : State) (cs : List Char) : Prop :=
  (∃ f, Line.read cs = .command (.face f) ∧ ∃ i ∈ f.indices, ¬(1 ≤ i ∧ i ≤ s.vertexCount)) ∨
    Line.read cs = .command (.scope .clumpEnd) ∧ s.depth = 0

/-- Such a line is counted, and that is all. -/
theorem Misses.without_step {s : State} {cs : List Char} (h : s.Misses cs) :
    (s.step (.read cs)).without .misses = s.without .misses := by
  rcases h with ⟨f, hread, i, hi, hout⟩ | ⟨hread, hdepth⟩
  · have hresolve : s.level.pool.resolve f.indices = none := by
      cases h : s.level.pool.resolve f.indices with
      | none => rfl
      | some offsets => exact absurd ((Pool.resolve_eq_some_iff.1 h).1 i hi) hout
    rw [hread]
    show (s.addFace f).without .misses = _
    rw [addFace, hresolve]
    rfl
  · have houter : s.outer = [] := List.length_eq_zero_iff.1 hdepth
    rw [hread]
    show (s.mark .clumpEnd).without .misses = _
    rw [mark, houter]
    rfl

/-- A run over lines is the same without lines that come to nothing where they stand. -/
theorem stepLines_dropAt {s t : State} (h : s.without .misses = t.without .misses)
    (p : Nat → Bool) (i : Nat) (ls : List (List Char))
    (hls : ∀ k l, ls[k]? = some l → p (i + k) = true → (s.stepLines (ls.take k)).Misses l) :
    (s.stepLines ls).without .misses = (t.stepLines (Text.dropAt p i ls)).without .misses := by
  induction ls generalizing s t i with
  | nil => exact h
  | cons l ls ih =>
    have hrest : ∀ k l', ls[k]? = some l' → p (i + 1 + k) = true →
        ((s.step (.read l)).stepLines (ls.take k)).Misses l' := by
      intro k l' hl' hp
      exact hls (k + 1) l' hl' (by rwa [Nat.add_right_comm, Nat.add_assoc] at hp)
    rw [Text.dropAt]
    split
    · next hp => exact ih ((hls 0 l rfl hp).without_step.trans h) (i + 1) hrest
    · exact ih (act_congr h (Aspect.concerns_misses (.line (.read l)))) (i + 1) hrest

end State

/-! ### A mark in front -/

/-- To delete lines and to take off a mark of byte order can change places, if no mark comes to
stand in front. -/
theorem Load.dropMark_deleteLines {p : Nat → Bool} {cs : List Char}
    (h : p 0 = true → dropMark (Text.deleteLines p 0 cs) = Text.deleteLines p 0 cs) :
    dropMark (Text.deleteLines p 0 cs) = Text.deleteLines p 0 (dropMark cs) := by
  cases cs with
  | nil => rfl
  | cons c cs =>
    by_cases hc : c.toNat = 0xfeff
    · have hline : c ≠ '\n' := by
        rintro rfl
        exact absurd hc (by decide)
      rw [dropMark, if_pos hc]
      rw [Text.deleteLines, if_neg hline] at h ⊢
      by_cases hp : p 0 = true
      · rw [if_pos hp] at h ⊢
        exact h hp
      · rw [if_neg hp, dropMark, if_pos hc]
    · rw [dropMark, if_neg hc]
      by_cases hp : p 0 = true
      · exact h hp
      · rw [Text.deleteLines, if_neg hp, dropMark, if_neg hc]

/-- The lines that are left of a text, as they are loaded. -/
theorem Load.lines_left {text left : String} {p : Nat → Bool}
    (hleft : left.toList = Text.deleteLines p 0 text.toList)
    (hmark : p 0 = true → dropMark left.toList = left.toList) :
    Text.lines (dropMark left.toList) = Text.dropAt p 0 (Text.lines (dropMark text.toList)) := by
  rw [hleft] at hmark ⊢
  rw [dropMark_deleteLines hmark, Text.lines_deleteLines]

/-! ### Models -/

/-- The lines that are to go come to nothing where they stand. -/
def Load.Misses (settings : Settings) (text : String) (p : Nat → Bool) : Prop :=
  let lines := Text.lines (dropMark text.toList)
  ∀ k l, lines[k]? = some l → p k = true →
    ((State.start settings).stepLines (lines.take k)).Misses l

/-- **What is rejected leaves no trace.** Texts with the same commands have the same scene and the
same counts, but for those of lines. If lines that come to nothing where they stand are deleted, the
scene is the same too, and so are the counts, but for those of lines and of what came to nothing;
unless the first line goes and a mark of byte order comes to stand in front. -/
theorem Model.rejected_leaves_no_trace {text path : String} {settings : Settings} {m : Model}
    (h : ofText text path settings = .ok m) :
    (∀ (other path' : String) (n : Model), ofText other path' settings = .ok n →
      Load.commands other = Load.commands text →
        n.root = m.root ∧ n.diagnostics.withoutLines = m.diagnostics.withoutLines) ∧
    ∀ (p : Nat → Bool) (left path' : String) (n : Model), ofText left path' settings = .ok n →
      left.toList = Text.deleteLines p 0 text.toList →
      (p 0 = true → Load.dropMark left.toList = left.toList) → Load.Misses settings text p →
        n.root = m.root ∧
          (n.diagnostics.without .misses).withoutLines =
            (m.diagnostics.without .misses).withoutLines := by
  have hm := eq_of_ofText h
  refine ⟨fun other path' n hn hcommands ↦ ?_, fun p left path' n hn hleft hmark hmisses ↦ ?_⟩
  · rw [eq_of_ofText hn, hm, hcommands]
    exact ⟨rfl, rfl⟩
  · have hrun := State.stepLines_dropAt (s := .start settings) rfl p 0
      (Text.lines (Load.dropMark text.toList)) fun k l hl hp ↦
        hmisses k l hl (by rwa [Nat.zero_add] at hp)
    rw [← Load.lines_left hleft hmark, State.stepLines_eq_follow, State.stepLines_eq_follow] at hrun
    obtain ⟨hroot, hcounts⟩ := State.finish_congr hrun
    rw [Node.without_misses, Node.without_misses] at hroot
    rw [eq_of_ofText hn, hm]
    exact ⟨hroot.symm, (congrArg Diagnostics.withoutLines hcounts).symm⟩

/-- An end of a clump and a face, both too early, between lines that are more than that; and a text
with the same commands. -/
theorem Model.rejected_leaves_no_trace_early :
    let text := "clumpend\nclumpbegin\ntriangle 1 2 3\nvertex 1 2 3"
    let other := "\ufeff# a scene\r\nCLUMPEND\r\nclump begin\r\n clumpbegin\ntriangle +1 2 3\nVertex 1 2 3.0"
    let left := "clumpbegin\nvertex 1 2 3"
    ∃ m n k, ofText text "scene" .initial = .ok m ∧ ofText other "scene" .initial = .ok n ∧
      ofText left "scene" .initial = .ok k ∧ n.root = m.root ∧ k.root = m.root := by
  intro text other left
  obtain ⟨m, hm⟩ : ∃ m, ofText text "scene" .initial = .ok m := exists_ofText (by decide +kernel)
  obtain ⟨n, hn⟩ : ∃ n, ofText other "scene" .initial = .ok n := exists_ofText (by decide +kernel)
  obtain ⟨k, hk⟩ : ∃ k, ofText left "scene" .initial = .ok k := exists_ofText (by decide +kernel)
  obtain ⟨hsame, hless⟩ := rejected_leaves_no_trace hm
  have hcommands : Load.commands other = Load.commands text := by decide +kernel
  have hlines : Text.lines (Load.dropMark text.toList) = ["clumpend".toList, "clumpbegin".toList,
      "triangle 1 2 3".toList, "vertex 1 2 3".toList] := by decide +kernel
  have hmisses : Load.Misses .initial text (fun k ↦ k = 0 ∨ k = 2) := by
    intro k l hl hp
    rw [hlines] at hl ⊢
    rcases of_decide_eq_true hp with rfl | rfl
    · obtain rfl := Option.some.inj hl
      exact .inr (by decide +kernel)
    · obtain rfl := Option.some.inj hl
      exact .inl ⟨⟨.triangle, [1, 2, 3], none⟩, by decide +kernel⟩
  have hleft := hless _ left "scene" k hk (by decide +kernel) (fun _ ↦ by decide +kernel) hmisses
  exact ⟨m, n, k, hm, hn, hk, (hsame other "scene" n hn hcommands).1, hleft.1⟩

/-- A second line that begins with a mark of byte order is no command. If the first line goes, which
ended no clump, the mark is in front of the text and is taken off, and a clump begins. -/
theorem Model.deletion_uncovers_mark :
    let text := "clumpend\n\ufeffclumpbegin"
    let left := "\ufeffclumpbegin"
    left.toList = Text.deleteLines (· = 0) 0 text.toList ∧ Load.Misses .initial text (· = 0) ∧
      ∃ m n, ofText text "scene" .initial = .ok m ∧ ofText left "scene" .initial = .ok n ∧
        n.root ≠ m.root := by
  intro text left
  obtain ⟨m, hm⟩ : ∃ m, ofText text "scene" .initial = .ok m := exists_ofText (by decide +kernel)
  obtain ⟨n, hn⟩ : ∃ n, ofText left "scene" .initial = .ok n := exists_ofText (by decide +kernel)
  have hlines : Text.lines (Load.dropMark text.toList) =
      ["clumpend".toList, "\ufeffclumpbegin".toList] := by decide +kernel
  have hmisses : Load.Misses .initial text (· = 0) := by
    intro k l hl hp
    rw [hlines] at hl ⊢
    obtain rfl := of_decide_eq_true hp
    obtain rfl := Option.some.inj hl
    exact .inr (by decide +kernel)
  refine ⟨by decide +kernel, hmisses, m, n, hm, hn, fun hroot ↦ ?_⟩
  -- one root has a child and the other has none
  have hchildren : n.root.children.length = m.root.children.length := by rw [hroot]
  rw [eq_of_ofText hm, eq_of_ofText hn] at hchildren
  exact absurd hchildren (by decide +kernel)

end RwxScene
