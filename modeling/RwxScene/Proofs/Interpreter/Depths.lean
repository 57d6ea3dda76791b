import RwxScene.Proofs.Interpreter.Layout
import RwxScene.Proofs.Interpreter.Scopes

/-!
# The depths of the stacks

What holds of the stacks after every run (`Stacks.WellFormed`). The depths need no induction along
the run: stacks that a run reaches are those of some levels, and there a depth that a frame remembers
is the length of what lies below.

That no step meets a gap is part of the statement, for every run and for the end of it.

With that, what scopes give back on levels they give back on stacks as well (`clump_restores`,
`transform_restores`).
-/

namespace RwxScene

namespace Stacks

/-- The stacks belong together. Frames are counted from the outermost one. -/
structure WellFormed (f : Stacks) : Prop where
  length_nodes : f.nodes.length = f.frames.length + 1
  length_materials : f.materials.length = f.transforms.length + f.frames.length
  materialDepth_eq : ∀ (i : Nat) (frame : Frame), f.frames.reverse[i]? = some frame →
    frame.materialDepth = frame.transformDepth + i
  sorted_transformDepth : (f.frames.reverse.map Frame.transformDepth).Pairwise (· ≤ ·)
  transformDepth_le : ∀ frame, f.frames.head? = some frame →
    frame.transformDepth ≤ f.transforms.length
  memo : ∀ s, f.memo = some s → s = f.material.signature
  batch : ∀ b, f.batch = some b → b.WellFormed f.pool
  /-- A batch that waits agrees with the pool that waits beside it. -/
  frames : ∀ frame ∈ f.frames, ∀ b, frame.batch = some b → b.WellFormed frame.pool

/-! ### Depths of a layout -/

@[simp] theorem length_framesOf (outer : List Level) : (framesOf outer).length = outer.length := by
  induction outer with
  | nil => rfl
  | cons l ls ih => rw [framesOf, List.length_cons, List.length_cons, ih]

/-- Every clump has left one material more than it has open scopes. -/
theorem length_materialsAround (outer : List Level) :
    (materialsAround outer).length = (transformsOf outer).length + outer.length := by
  induction outer with
  | nil => rfl
  | cons l ls ih =>
    rw [materialsAround_cons, transformsOf_cons, List.length_cons, List.length_append,
      List.length_append, List.length_map, List.length_map, List.length_cons, ih]
    omega

theorem transformDepth_le_of_mem {outer : List Level} {frame : Frame} (h : frame ∈ framesOf outer) :
    frame.transformDepth ≤ (transformsOf outer).length := by
  induction outer with
  | nil => exact absurd h List.not_mem_nil
  | cons l ls ih =>
    rcases List.mem_cons.1 h with rfl | h
    · exact Nat.le_refl _
    · have := ih h
      rw [transformsOf_cons, List.length_append]
      omega

theorem sorted_framesOf (outer : List Level) :
    ((framesOf outer).reverse.map Frame.transformDepth).Pairwise (· ≤ ·) := by
  rw [List.map_reverse, List.pairwise_reverse]
  induction outer with
  | nil => exact .nil
  | cons l ls ih =>
    refine List.Pairwise.cons (fun depth hdepth ↦ ?_) ih
    obtain ⟨frame, hframe, rfl⟩ := List.mem_map.1 hdepth
    have := transformDepth_le_of_mem hframe
    show frame.transformDepth ≤ (transformsOf (l :: ls)).length
    rw [transformsOf_cons, List.length_append]
    omega

/-- The frame at a position has one material more below it for each clump around it. -/
theorem materialDepth_framesOf {outer : List Level} {i : Nat} {frame : Frame}
    (h : (framesOf outer).reverse[i]? = some frame) :
    frame.materialDepth = frame.transformDepth + i := by
  induction outer with
  | nil => exact absurd h (by simp [framesOf])
  | cons l ls ih =>
    rw [framesOf, List.reverse_cons] at h
    by_cases hi : i < (framesOf ls).reverse.length
    · rw [List.getElem?_append_left hi] at h
      exact ih h
    · -- the innermost frame stands last, behind one frame for each clump around it
      rw [List.getElem?_append_right (Nat.le_of_not_lt hi), List.length_reverse,
        length_framesOf] at h
      have hlt := (List.getElem?_eq_some_iff.1 h).1
      have hlength : i = ls.length := by
        rw [List.length_reverse, length_framesOf] at hi
        rw [List.length_singleton] at hlt
        omega
      obtain rfl := List.mem_singleton.1 (List.mem_of_getElem? h)
      show l.scopes.length + (materialsAround ls).length = (transformsOf (l :: ls)).length + i
      rw [length_materialsAround, transformsOf_cons, List.length_append, List.length_map, hlength]
      omega

theorem wellFormed_batch_framesOf {outer : List Level} (h : ∀ l ∈ outer, l.WellFormed) :
    ∀ frame ∈ framesOf outer, ∀ b, frame.batch = some b → b.WellFormed frame.pool := by
  induction outer with
  | nil => exact fun _ hframe ↦ absurd hframe List.not_mem_nil
  | cons l ls ih =>
    obtain ⟨hl, hls⟩ := List.forall_mem_cons.1 h
    exact List.forall_mem_cons.2 ⟨hl.batch, ih hls⟩

/-- The stacks of well-formed levels belong together. -/
theorem wellFormed_ofState {s : State} {memo : Option Signature}
    (hmemo : Current memo s.level.material) (hs : ∀ l ∈ s.levels, l.WellFormed) :
    (ofState s memo).WellFormed where
  length_nodes := by
    show ((s.level :: s.outer).map Level.node).length = (framesOf s.outer).length + 1
    rw [List.length_map, List.length_cons, length_framesOf]
  length_materials := by
    show (s.level.scopes.map Saved.material ++ materialsAround s.outer).length =
      (transformsOf (s.level :: s.outer)).length + (framesOf s.outer).length
    rw [List.length_append, length_materialsAround, transformsOf_cons, List.length_append,
      List.length_map, List.length_map, length_framesOf]
    omega
  materialDepth_eq _ _ h := materialDepth_framesOf h
  sorted_transformDepth := sorted_framesOf s.outer
  transformDepth_le frame h := by
    have hle : frame.transformDepth ≤ (transformsOf s.outer).length :=
      transformDepth_le_of_mem (List.mem_of_mem_head? h)
    show frame.transformDepth ≤ (transformsOf (s.level :: s.outer)).length
    rw [transformsOf_cons, List.length_append]
    omega
  memo := hmemo
  batch := (List.forall_mem_cons.1 hs).1.batch
  frames := wellFormed_batch_framesOf (List.forall_mem_cons.1 hs).2

/-! ### Depths along a run -/

/-- A run on stacks ends on the stacks of the run on levels. -/
theorem run_start (settings : Settings) (as : List Action) :
    ∃ memo, Current memo ((State.start settings).run as).level.material ∧
      (start settings).run as = .ok (ofState ((State.start settings).run as) memo) := by
  rw [ofState_start]
  exact run_ofState (current_none _) (Level.wellFormed_run settings []) as

/-- **Stacks stay in step.** No run and no end of a run meets a gap, the stacks after a run belong
together, and they are those of the run on levels. -/
theorem wellFormed_of_run (settings : Settings) (as : List Action) :
    ∃ f, (start settings).run as = .ok f ∧ f.WellFormed ∧
      (∃ memo, f = ofState ((State.start settings).run as) memo) ∧
        f.finish = .ok ((State.start settings).run as).finish := by
  obtain ⟨memo, hmemo, hrun⟩ := run_start settings as
  have hlevels := Level.wellFormed_run settings as
  exact ⟨_, hrun, wellFormed_ofState hmemo hlevels, ⟨memo, rfl⟩, finish_ofState _ memo⟩

/-! ### Scopes on stacks -/

variable {settings : Settings} {as : List Action} {f : Stacks} {cs : List Command}

/-- Stacks that a run reaches are those of well-formed levels. -/
theorem exists_ofState (hf : (start settings).run as = .ok f) :
    ∃ s memo, f = ofState s memo ∧ Current memo s.level.material ∧ ∀ l ∈ s.levels, l.WellFormed := by
  obtain ⟨memo, hmemo, hrun⟩ := run_start settings as
  rw [hf] at hrun
  exact ⟨_, memo, Except.ok.inj hrun, hmemo, Level.wellFormed_run settings as⟩

/-- Commands on stacks are those commands on levels. -/
theorem run_command_ofState {s : State} {memo : Option Signature}
    (hmemo : Current memo s.level.material) (hs : ∀ l ∈ s.levels, l.WellFormed)
    (cs : List Command) :
    ∃ memo', (ofState s memo).run (cs.map .command) = .ok (ofState (s.follow cs) memo') := by
  obtain ⟨memo', -, hrun⟩ := run_ofState hmemo hs (cs.map .command)
  rw [State.run_map_command] at hrun
  exact ⟨memo', hrun⟩

/-- A clump gives back all stacks but for one more child of the innermost node. -/
theorem clump_restores (hf : (start settings).run as = .ok f) (h : ClumpsPaired cs) :
    ∃ g child, f.run ((.scope .clumpBegin :: (cs ++ [.scope .clumpEnd])).map .command) = .ok g ∧
      g.matrix = f.matrix ∧ g.transforms = f.transforms ∧ g.frames = f.frames ∧
        g.material = f.material ∧ g.materials = f.materials ∧ g.pool = f.pool ∧ g.batch = f.batch ∧
          g.nodes = f.nodes.modifyHead fun n ↦ { n with children := n.children ++ [child] } := by
  obtain ⟨s, memo, rfl, hmemo, hs⟩ := exists_ofState hf
  obtain ⟨child, hlevels⟩ := s.clump_restores h
  obtain ⟨memo', hrun⟩ := run_command_ofState hmemo hs
    (.scope .clumpBegin :: (cs ++ [.scope .clumpEnd]))
  refine ⟨_, child, hrun, ?_⟩
  obtain ⟨hlevel, houter⟩ := List.cons.inj hlevels
  generalize s.follow (.scope .clumpBegin :: (cs ++ [.scope .clumpEnd])) = t at hlevels hlevel houter
  refine ⟨(congrArg Level.matrix hlevel).trans rfl, ?_, congrArg framesOf houter,
    (congrArg Level.material hlevel).trans rfl, ?_, (congrArg Level.pool hlevel).trans rfl,
    (congrArg Level.batch hlevel).trans rfl, ?_⟩
  · show transformsOf t.levels = transformsOf (s.level :: s.outer)
    rw [hlevels, transformsOf_cons, transformsOf_cons]
    rfl
  · show t.level.scopes.map Saved.material ++ materialsAround t.outer = _
    rw [hlevel, houter]
    rfl
  · show t.levels.map Level.node = _
    rw [hlevels]
    rfl

/-- A transform scope gives back matrix, material and all stacks but that of the nodes, and leaves
nodes, vertices and the open batch as its block has left them. -/
theorem transform_restores (hf : (start settings).run as = .ok f) (h : ClumpsPaired cs)
    (hown : OwnScopesPaired cs) :
    ∃ u g, f.run ((.scope .transformBegin :: cs).map .command) = .ok u ∧
      f.run ((.scope .transformBegin :: (cs ++ [.scope .transformEnd])).map .command) = .ok g ∧
        g.matrix = f.matrix ∧ g.transforms = f.transforms ∧ g.frames = f.frames ∧
          g.material = f.material ∧ g.materials = f.materials ∧
            g.pool = u.pool ∧ g.batch = u.batch ∧ g.nodes = u.nodes := by
  obtain ⟨s, memo, rfl, hmemo, hs⟩ := exists_ofState hf
  obtain ⟨houter, hafter⟩ := s.transform_restores h hown
  obtain ⟨memo', hblock⟩ := run_command_ofState hmemo hs (.scope .transformBegin :: cs)
  obtain ⟨memo'', hrun⟩ := run_command_ofState hmemo hs
    (.scope .transformBegin :: (cs ++ [.scope .transformEnd]))
  refine ⟨_, _, hblock, hrun, ?_⟩
  rw [hafter]
  generalize s.follow (.scope .transformBegin :: cs) = t at houter
  refine ⟨rfl, ?_, congrArg framesOf houter, rfl, ?_, rfl, rfl, rfl⟩
  · show transformsOf (_ :: t.outer) = transformsOf (s.level :: s.outer)
    rw [houter, transformsOf_cons, transformsOf_cons]
  · show s.level.scopes.map Saved.material ++ materialsAround t.outer = _
    rw [houter]
    rfl

end Stacks

end RwxScene
