import RwxScene.Proofs.Interpreter.Stacks

/-!
# Levels laid out on stacks

`Stacks.ofState` puts what the levels of a state keep on parallel stacks, the innermost level on top.
Every step on stacks is the step on levels (`apply_ofState`), so a run on stacks never meets a gap
and ends on the stacks of the state that the same run on levels ends in.

Two relations make the steps agree. A clump that ends finds exactly its own entries above the depths
that its frame remembers, because these depths are the lengths of what lies below; and a face that
was resolved has all its corners in the pool.

What is remembered of the signature is one value here and one for each level there, so the layout
takes it as an argument; it is true of the material in force in both.
-/

namespace RwxScene

namespace Stacks

/-! ### The layout -/

/-- The materials that the clumps around the innermost one have left on the stack: each has its open
scopes, and on top the material that was in force when the next one began. -/
def materialsAround (outer : List Level) : List Material :=
  outer.flatMap fun l ↦ l.material :: l.scopes.map Saved.material

/-- The matrices of all open transform scopes. -/
def transformsOf (levels : List Level) : List Mat4 :=
  (levels.flatMap Level.scopes).map Saved.matrix

/-- The frames of the clumps inside some levels. -/
def framesOf : List Level → List Frame
  | [] => []
  | l :: ls =>
    ⟨l.matrix, l.pool, l.batch, (transformsOf (l :: ls)).length,
      l.scopes.length + (materialsAround ls).length⟩ :: framesOf ls

/-- The levels of a state on stacks. -/
def ofState (s : State) (memo : Option Signature) : Stacks where
  settings := s.settings
  matrix := s.level.matrix
  transforms := transformsOf s.levels
  frames := framesOf s.outer
  joint := s.joint
  joints := s.joints
  material := s.level.material
  materials := s.level.scopes.map Saved.material ++ materialsAround s.outer
  memo := memo
  pool := s.level.pool
  batch := s.level.batch
  nodes := s.levels.map Level.node
  clumps := s.clumps
  baked := s.baked
  prototypeOpen := s.prototypeOpen
  instanceTransform := s.instanceTransform
  diagnostics := s.diagnostics

/-- What is remembered is the signature of the material in force. -/
def Current (memo : Option Signature) (m : Material) : Prop := ∀ s, memo = some s → s = m.signature

/-- Two outcomes on stacks and on levels are the same. -/
def Agrees (r : Except Gap Stacks) (t : State) : Prop :=
  ∃ memo, Current memo t.level.material ∧ r = .ok (ofState t memo)

theorem ofState_start (settings : Settings) :
    start settings = ofState (State.start settings) none := rfl

/-! ### Cutting back -/

theorem cutBack_append {α : Type} (above below : List α) {n : Nat} (h : below.length = n) :
    cutBack n (above ++ below) = below := by
  rw [cutBack, List.length_append, h]
  exact List.drop_left' (by omega)

theorem transformsOf_cons (l : Level) (ls : List Level) :
    transformsOf (l :: ls) = l.scopes.map Saved.matrix ++ transformsOf ls := by
  rw [transformsOf, List.flatMap_cons, List.map_append]
  rfl

theorem materialsAround_cons (l : Level) (ls : List Level) :
    materialsAround (l :: ls) = l.material :: (l.scopes.map Saved.material ++ materialsAround ls) := by
  rw [materialsAround, List.flatMap_cons]
  rfl

/-- The floor of the innermost clump is the number of matrices of the clumps around it. -/
theorem floor_ofState (s : State) (memo : Option Signature) :
    (ofState s memo).floor = (transformsOf s.outer).length := by
  rw [floor, ofState]
  cases s.outer with
  | nil => rfl
  | cons l ls => rfl

/-! ### Batches and clumps -/

theorem flush_ofState (s : State) (memo : Option Signature) :
    (ofState s memo).flush = ofState s.flush memo := by
  have hbatch : (ofState s memo).batch = s.level.batch := rfl
  rw [flush, State.flush, hbatch]
  cases hb : s.level.batch with
  | none => rfl
  | some b =>
    by_cases he : b.isEmpty = true
    · simp only [he, if_true]
      rfl
    · simp only [he]
      rfl

theorem flushUnless_ofState (s : State) (memo : Option Signature) (signature : Signature) :
    (ofState s memo).flushUnless signature = ofState (s.flushUnless signature) memo := by
  have hbatch : (ofState s memo).batch = s.level.batch := rfl
  rw [flushUnless, State.flushUnless, hbatch]
  cases s.level.batch with
  | none => rfl
  | some b =>
    by_cases h : b.signature = signature
    · simp only [h, if_true]
    · simp only [h, if_false]
      exact flush_ofState s memo

theorem place_ofState (s : State) (memo : Option Signature) :
    (ofState s memo).place = ofState s.place memo := by
  rw [place, State.place]
  cases hb : s.baked with
  | true =>
    simp only [ofState, hb]
    rfl
  | false =>
    simp only [ofState, hb]
    rfl

/-- A clump that ends finds on both stacks exactly what lay there when it began. -/
theorem leave_ofState (s : State) (memo : Option Signature) {parent : Level} {outer : List Level}
    (h : s.outer = parent :: outer) :
    ∃ frame, framesOf s.outer = frame :: framesOf outer ∧
      (ofState s memo).leave frame (framesOf outer) = .ok (ofState (s.leave parent outer) none) := by
  rw [h]
  refine ⟨_, rfl, ?_⟩
  obtain ⟨d, hflush⟩ := s.exists_flush
  obtain ⟨placement, joint, d', hplace⟩ := s.flush.exists_place
  have houter : s.flush.place.outer = parent :: outer := by rw [hplace, hflush, ← h]
  rw [leave, State.leave, flush_ofState, place_ofState]
  generalize s.flush.place = t at houter
  -- what lies on the stacks is what the ending clump left open, above what was there before
  have htransforms : cutBack (transformsOf (parent :: outer)).length (ofState t memo).transforms =
      transformsOf (parent :: outer) := by
    show cutBack _ (transformsOf (t.level :: t.outer)) = _
    rw [houter, transformsOf_cons t.level]
    exact cutBack_append _ _ rfl
  have hmaterials : cutBack (parent.scopes.length + (materialsAround outer).length + 1)
      (ofState t memo).materials = materialsAround (parent :: outer) := by
    show cutBack _ (_ ++ materialsAround t.outer) = _
    rw [houter]
    refine cutBack_append _ _ ?_
    rw [materialsAround_cons, List.length_cons, List.length_append, List.length_map]
  have hnodes : (ofState t memo).nodes = t.level.node :: parent.node :: outer.map Level.node := by
    show (t.level :: t.outer).map Level.node = _
    rw [houter]
    rfl
  simp only [htransforms, hmaterials, hnodes, materialsAround_cons]
  rfl

/-! ### Faces -/

theorem flushUnless_keeps (s : State) (signature : Signature) :
    (s.flushUnless signature).level.pool = s.level.pool ∧
      (s.flushUnless signature).level.material = s.level.material := by
  obtain ⟨d, hflush⟩ := s.exists_flush
  rw [State.flushUnless]
  split
  · exact ⟨rfl, rfl⟩
  · split
    · exact ⟨rfl, rfl⟩
    · rw [hflush]
      exact ⟨rfl, rfl⟩

/-- What a face is drawn with is the same in both layouts, whatever each of them remembers. -/
theorem look_ofState (s : State) {memo : Option Signature} (hmemo : Current memo s.level.material)
    (tag : Option Int) :
    ∃ memo', Current memo' s.level.material ∧ (ofState s memo).look tag =
      (s.level.faceMaterial tag, (s.level.faceMaterial tag).signature, ofState s memo') := by
  have hsignature : (ofState s memo).memo.getD (ofState s memo).material.signature =
      s.level.material.signature := by
    show memo.getD s.level.material.signature = _
    cases hm : memo with
    | none => rfl
    | some signature => exact hmemo signature hm
  have hknown : Current (some s.level.material.signature) s.level.material :=
    fun _ h ↦ (Option.some.inj h).symm
  simp only [look, hsignature]
  cases tag with
  | none => exact ⟨_, hknown, rfl⟩
  | some t =>
    by_cases ht : t = s.level.material.tag
    · refine ⟨_, hknown, (if_pos ht).trans ?_⟩
      rw [Level.faceMaterial, Option.getD_some, ht]
      rfl
    · exact ⟨memo, hmemo, if_neg ht⟩

theorem addResolved_eq {s : State} (hs : s.level.WellFormed) (f : Face) (offsets : List Nat) :
    ∃ memo, s.addResolved f offsets =
      (({ s with level := { s.level with memo } }).flushUnless
        (s.level.faceMaterial f.tag).signature).extend (s.level.faceMaterial f.tag)
          (s.level.faceMaterial f.tag).signature (f.shape.triangulate offsets) := by
  rw [State.addResolved]
  cases hr : s.level.retagged f.tag with
  | true => exact ⟨s.level.memo, rfl⟩
  | false =>
    refine ⟨some s.level.signature, ?_⟩
    have hsignature : s.level.remember.signature = (s.level.faceMaterial f.tag).signature := by
      rw [Level.faceMaterial_of_not_retagged hr, ← hs.signature_eq]
      rfl
    rw [← hsignature]
    rfl

theorem addFace_ofState {s : State} {memo : Option Signature}
    (hmemo : Current memo s.level.material) (hs : s.level.WellFormed) (f : Face) :
    Agrees ((ofState s memo).addFace f) (s.addFace f) := by
  have hpool : (ofState s memo).pool = s.level.pool := rfl
  rw [addFace, State.addFace, hpool]
  cases hf : s.level.pool.resolve f.indices with
  | none => exact ⟨memo, hmemo, rfl⟩
  | some offsets =>
    obtain ⟨memo', hmemo', hlook⟩ := look_ofState s hmemo f.tag
    obtain ⟨old, hresolved⟩ := addResolved_eq hs f offsets
    simp only [hlook, hresolved]
    set m := s.level.faceMaterial f.tag
    set ts := f.shape.triangulate offsets with hts
    have hflush : (ofState s memo').flushUnless m.signature = ofState
        (({ s with level := { s.level with memo := old } }).flushUnless m.signature) memo' :=
      flushUnless_ofState { s with level := { s.level with memo := old } } memo' m.signature
    rw [hflush]
    obtain ⟨hpool, hmaterial⟩ :=
      flushUnless_keeps { s with level := { s.level with memo := old } } m.signature
    refine ⟨memo', ?_, if_pos ?_⟩
    · rw [← show _ = s.level.material from hmaterial] at hmemo'
      exact hmemo'
    · -- the corners were resolved, so no vertex is missing
      show ∀ t ∈ ts, ∀ o ∈ t.toList, o < Array.size (State.level _).pool
      rw [hpool]
      exact Level.lt_of_mem_triangulate hf

/-! ### Scopes -/

theorem current_none (m : Material) : Current none m := fun _ h ↦ absurd h (by simp)

/-- A transform scope ends in one layout exactly if it ends in the other: above the floor of the
innermost clump lie the matrices of its own open scopes. -/
theorem transformEnd_ofState (s : State) {memo : Option Signature}
    (hmemo : Current memo s.level.material) :
    Agrees ((ofState s memo).mark .transformEnd) (s.mark .transformEnd) := by
  have htransforms : (ofState s memo).transforms =
      s.level.scopes.map Saved.matrix ++ transformsOf s.outer := transformsOf_cons s.level s.outer
  have hmaterials : (ofState s memo).materials =
      s.level.scopes.map Saved.material ++ materialsAround s.outer := rfl
  rw [mark, State.mark, floor_ofState]
  cases hscopes : s.level.scopes with
  | nil =>
    rw [hscopes, List.map_nil, List.nil_append] at htransforms
    rw [if_neg (by rw [htransforms]; exact Nat.lt_irrefl _)]
    exact ⟨memo, hmemo, rfl⟩
  | cons saved scopes =>
    -- the tops of the two stacks were pushed together
    rw [hscopes, List.map_cons, List.cons_append] at htransforms hmaterials
    rw [if_pos (by rw [htransforms, List.length_cons, List.length_append]; omega)]
    refine ⟨none, current_none _, ?_⟩
    simp only [ofState, State.levels, transformsOf_cons, hscopes, List.map_cons, List.cons_append]
    rfl

theorem mark_ofState (s : State) {memo : Option Signature}
    (hmemo : Current memo s.level.material) (m : ScopeMark) :
    Agrees ((ofState s memo).mark m) (s.mark m) := by
  cases m with
  | clumpBegin =>
    refine ⟨memo, hmemo, congrArg Except.ok ?_⟩
    simp only [enter, State.mark, State.enter, ofState, State.levels, framesOf, transformsOf_cons,
      materialsAround_cons, Level.opened, List.map_nil, List.nil_append, List.map_cons,
      List.length_append, List.length_map]
  | clumpEnd =>
    rw [mark, State.mark]
    cases h : s.outer with
    | nil =>
      refine ⟨memo, hmemo, ?_⟩
      rw [show (ofState s memo).frames = [] from congrArg framesOf h]
      rfl
    | cons parent outer =>
      obtain ⟨frame, hframes, hleave⟩ := leave_ofState s memo h
      refine ⟨none, current_none _, ?_⟩
      rw [show (ofState s memo).frames = frame :: framesOf outer from hframes]
      exact hleave
  | transformBegin => exact ⟨memo, hmemo, rfl⟩
  | transformEnd => exact transformEnd_ofState s hmemo
  | jointBegin => exact ⟨memo, hmemo, rfl⟩
  | jointEnd =>
    rw [mark, State.mark]
    cases h : s.joints with
    | nil =>
      refine ⟨memo, hmemo, ?_⟩
      simp only [ofState, h]
      rfl
    | cons joint joints =>
      refine ⟨memo, hmemo, ?_⟩
      simp only [ofState, h]
      rfl
  | identityJoint => exact ⟨memo, hmemo, rfl⟩

/-! ### Runs -/

/-- One step on stacks is one step on levels. -/
theorem apply_ofState {s : State} {memo : Option Signature}
    (hmemo : Current memo s.level.material) (hs : s.level.WellFormed) (c : Command) :
    Agrees ((ofState s memo).apply c) (s.apply c) := by
  cases c with
  | vertex position uv => exact ⟨memo, hmemo, rfl⟩
  | face f => exact addFace_ofState hmemo hs f
  | material d => exact ⟨none, current_none _, rfl⟩
  | transform t => cases t <;> exact ⟨memo, hmemo, rfl⟩
  | scope m => exact mark_ofState s hmemo m
  | rotateJoint axis degrees => exact ⟨memo, hmemo, rfl⟩

theorem act_ofState {s : State} {memo : Option Signature}
    (hmemo : Current memo s.level.material) (hs : s.level.WellFormed) (a : Action) :
    Agrees ((ofState s memo).act a) (s.act a) := by
  cases a with
  | line l =>
    cases l with
    | command c => exact apply_ofState hmemo hs c
    | blank => exact ⟨memo, hmemo, rfl⟩
    | rejected r => exact ⟨memo, hmemo, rfl⟩
  | command c => exact apply_ofState hmemo hs c
  | markBaked => exact ⟨memo, hmemo, rfl⟩
  | setPrototypeOpen isOpen => exact ⟨memo, hmemo, rfl⟩
  | setInstanceTransform m => exact ⟨memo, hmemo, rfl⟩

/-- A run on stacks meets no gap and ends on the stacks of the run on levels. -/
theorem run_ofState {s : State} {memo : Option Signature}
    (hmemo : Current memo s.level.material) (hs : ∀ l ∈ s.levels, l.WellFormed)
    (as : List Action) : Agrees ((ofState s memo).run as) (s.run as) := by
  induction as generalizing s memo with
  | nil => exact ⟨memo, hmemo, rfl⟩
  | cons a as ih =>
    obtain ⟨memo', hmemo', hact⟩ := act_ofState hmemo (hs s.level List.mem_cons_self) a
    have hlevels := (Level.stable_wellFormed s.settings).act (a := a) (fun _ _ ↦ trivial) hs
    obtain ⟨memo'', hmemo'', hrun⟩ := ih hmemo' hlevels
    refine ⟨memo'', hmemo'', ?_⟩
    rw [run, hact, State.run_cons]
    exact hrun

theorem closeAll_ofState (s : State) (memo : Option Signature) :
    ∃ memo', (ofState s memo).closeAll (framesOf s.outer) =
      .ok (ofState (s.closeAll s.outer) memo') := by
  -- the list of frames gets shorter with the list of levels
  generalize h : s.outer = outer
  induction outer generalizing s memo with
  | nil => exact ⟨memo, rfl⟩
  | cons parent outer ih =>
    set t := s.count fun d ↦ { d with autoClosedClumps := d.autoClosedClumps + 1 } with ht
    have houter : t.outer = parent :: outer := h
    obtain ⟨frame, hframes, hleave⟩ := leave_ofState t memo houter
    obtain ⟨placement, joint, d, hparent⟩ := t.exists_leave parent outer
    obtain ⟨memo', hclose⟩ := ih (t.leave parent outer) none (by rw [hparent])
    have hleave' : ((ofState s memo).count fun d ↦
        { d with autoClosedClumps := d.autoClosedClumps + 1 }).leave frame (framesOf outer) =
          .ok (ofState (t.leave parent outer) none) := hleave
    refine ⟨memo', ?_⟩
    rw [show framesOf (parent :: outer) = frame :: framesOf outer from houter ▸ hframes, closeAll,
      hleave']
    exact hclose

theorem finish_ofState (s : State) (memo : Option Signature) :
    (ofState s memo).finish = .ok s.finish := by
  obtain ⟨memo', hclose⟩ := closeAll_ofState s memo
  have houter : (s.closeAll s.outer).flush.outer = [] := by
    obtain ⟨d, hflush⟩ := (s.closeAll s.outer).exists_flush
    rw [hflush]
    exact s.outer_closeAll rfl
  have hnodes : (ofState (s.closeAll s.outer).flush memo').nodes =
      [(s.closeAll s.outer).flush.level.node] := by
    show (_ :: (s.closeAll s.outer).flush.outer).map Level.node = _
    rw [houter]
    rfl
  rw [finish, show (ofState s memo).frames = framesOf s.outer from rfl, hclose]
  simp only [flush_ofState, hnodes]
  rfl

end Stacks

end RwxScene
