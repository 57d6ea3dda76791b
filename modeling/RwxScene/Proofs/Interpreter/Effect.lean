import RwxScene.Proofs.Interpreter.Run

/-!
# What a command can do

`State.Effect s c t` lists once all that following `c` can do to `s`, and `effect_apply` says that
nothing else happens. What later statements do not look at (counts, and where exactly a node was
placed) is left open there; what a command does not touch is visibly the same.

Two operations on levels carry the list. `Level.settled` hands the open batch to the node, and
`Level.draw` adds a face to the open batch or to a new one.
-/

namespace RwxScene

namespace Level

/-- The open batch as it would be finished now; a batch without triangles is dropped. -/
def openBatch (settings : Settings) (l : Level) : List Batch :=
  match l.batch with
  | none => []
  | some b => if b.isEmpty then [] else [(b.finish settings).1]

/-- The batches of the node if the clump drew no more. -/
def batches (settings : Settings) (l : Level) : List Batch :=
  l.node.batches ++ l.openBatch settings

/-- The level with its open batch handed to its node. -/
def settled (settings : Settings) (l : Level) : Level :=
  { l with batch := none, node := { l.node with batches := l.batches settings } }

/-- The level with triangles added to the open batch, or to a new one if that has another
signature. -/
def join (settings : Settings) (l : Level) (material : Material) (signature : Signature)
    (ts : List (Triangle Nat)) : Level :=
  let fresh := (Builder.new material signature).pushAll l.pool ts
  match l.batch with
  | none => { l with batch := some fresh }
  | some b =>
    if b.signature = signature then { l with batch := some (b.pushAll l.pool ts) }
    else { l.settled settings with batch := some fresh }

/-- The level with a face whose corners are known. -/
def draw (settings : Settings) (l : Level) (f : Face) (offsets : List Nat) : Level :=
  let material := l.faceMaterial f.tag
  let ts := f.shape.triangulate offsets
  if l.retagged f.tag then l.join settings material material.signature ts
  else l.remember.join settings material l.signature ts

section Join

variable (settings : Settings) {l : Level} {b : Builder} (material : Material)
  {signature : Signature} (ts : List (Triangle Nat))

theorem join_of_none (h : l.batch = none) : l.join settings material signature ts =
    { l with batch := some ((Builder.new material signature).pushAll l.pool ts) } := by
  rw [join, h]

theorem join_of_eq (h : l.batch = some b) (hb : b.signature = signature) :
    l.join settings material signature ts = { l with batch := some (b.pushAll l.pool ts) } := by
  rw [join, h]
  exact if_pos hb

theorem join_of_ne (h : l.batch = some b) (hb : b.signature ≠ signature) :
    l.join settings material signature ts =
      { l.settled settings with
        batch := some ((Builder.new material signature).pushAll l.pool ts) } := by
  rw [join, h]
  exact if_neg hb

end Join

/-- What drawing leaves alone. -/
structure Keeps (l m : Level) : Prop where
  name : m.node.name = l.node.name
  children : m.node.children = l.node.children
  pool : m.pool = l.pool
  scopes : m.scopes = l.scopes

theorem keeps_join (settings : Settings) (l : Level) (material : Material) (signature : Signature)
    (ts : List (Triangle Nat)) : l.Keeps (l.join settings material signature ts) := by
  cases h : l.batch with
  | none =>
    rw [join_of_none settings material ts h]
    exact ⟨rfl, rfl, rfl, rfl⟩
  | some b =>
    by_cases hb : b.signature = signature
    · rw [join_of_eq settings material ts h hb]
      exact ⟨rfl, rfl, rfl, rfl⟩
    · rw [join_of_ne settings material ts h hb]
      exact ⟨rfl, rfl, rfl, rfl⟩

theorem keeps_draw (settings : Settings) (l : Level) (f : Face) (offsets : List Nat) :
    l.Keeps (l.draw settings f offsets) := by
  rw [draw]
  split
  · exact l.keeps_join settings _ _ _
  · obtain ⟨hname, hchildren, hpool, hscopes⟩ := l.remember.keeps_join settings
      (l.faceMaterial f.tag) l.signature (f.shape.triangulate offsets)
    exact ⟨hname, hchildren, hpool, hscopes⟩

/-- The open transform scopes after a command that opens and ends no clump. -/
def scopesAfter (l : Level) : Command → List Saved
  | .scope .transformBegin => ⟨l.matrix, l.material⟩ :: l.scopes
  | .scope .transformEnd => l.scopes.tail
  | _ => l.scopes

/-- The level with one more child of its node. -/
def adopt (l : Level) (n : Node) : Level :=
  { l with node := { l.node with children := l.node.children ++ [n] } }

end Level

/-- The command neither declares a vertex nor draws a face, and no clump begins or ends with it. -/
def Command.IsQuiet : Command → Prop
  | .vertex .. => False
  | .face _ => False
  | .scope .clumpBegin => False
  | .scope .clumpEnd => False
  | _ => True

namespace State

/-- The levels of all open clumps, the innermost first. -/
def levels (s : State) : List Level := s.level :: s.outer

/-- A position as it is declared now. -/
def placed (s : State) (position : Vec3) : Vec3 :=
  (s.instanceTransform.map (·.transformPoint position)).getD position

/-- All that a command can do. -/
inductive Effect (s : State) : Command → State → Prop
  | vertex (position : Vec3) (uv : Option UV) :
    Effect s (.vertex position uv)
      { s with level := { s.level with
          pool := s.level.pool.push ⟨s.placed position, uv.getD .zero⟩ } }
  | dropped (f : Face) (diagnostics : Diagnostics) (h : s.level.pool.resolve f.indices = none) :
    Effect s (.face f) { s with diagnostics }
  | drawn (f : Face) (offsets : List Nat) (diagnostics : Diagnostics)
    (h : s.level.pool.resolve f.indices = some offsets) :
    Effect s (.face f) { s with level := s.level.draw s.settings f offsets, diagnostics }
  | entered : Effect s (.scope .clumpBegin) s.enter
  | unmatched (diagnostics : Diagnostics) (h : s.outer = []) :
    Effect s (.scope .clumpEnd) { s with diagnostics }
  | left (parent : Level) (outer : List Level) (placement : Placement) (joint : Option Mat4)
    (diagnostics : Diagnostics) (h : s.outer = parent :: outer) :
    Effect s (.scope .clumpEnd)
      { s with
        level := parent.adopt { (s.level.settled s.settings).node with placement, joint }
        outer
        baked := false
        diagnostics }
  | quiet (c : Command) (matrix : Mat4) (material : Material) (memo : Option Signature)
    (joint : Mat4) (joints : List Mat4) (diagnostics : Diagnostics)
    (hc : c.IsQuiet) (hmemo : memo = none ∨ memo = s.level.memo ∧ material = s.level.material) :
    Effect s c
      { s with
        level := { s.level with matrix, material, memo, scopes := s.level.scopesAfter c }
        joint
        joints
        diagnostics }

/-! ### Ending a batch and a clump -/

theorem exists_flush (s : State) :
    ∃ diagnostics, s.flush = { s with level := s.level.settled s.settings, diagnostics } := by
  -- with no batch to hand over the node is rebuilt from its parts, so it is taken apart
  refine ⟨s.flush.diagnostics, ?_⟩
  obtain ⟨settings, level, outer, joint, joints, clumps, baked, prototypeOpen, inst, d⟩ := s
  obtain ⟨⟨name, placement, pose, children, batches⟩, matrix, material, memo, scopes, pool, batch⟩ :=
    level
  cases batch with
  | none => simp only [flush, Level.settled, Level.batches, Level.openBatch, List.append_nil]
  | some b =>
    by_cases hb : b.isEmpty = true
    · simp only [flush, Level.settled, Level.batches, Level.openBatch, hb, if_true,
        List.append_nil]
    · simp only [flush, Level.settled, Level.batches, Level.openBatch, hb]
      rfl

theorem exists_place (s : State) :
    ∃ placement joint diagnostics,
      s.place = { s with
        level := { s.level with node := { s.level.node with placement, joint } }
        diagnostics } := by
  rw [place]
  split
  · exact ⟨s.level.node.placement, s.pose, s.diagnostics, rfl⟩
  · exact ⟨_, s.pose, _, rfl⟩

theorem exists_leave (s : State) (parent : Level) (outer : List Level) :
    ∃ placement joint diagnostics,
      s.leave parent outer = { s with
        level := parent.adopt { (s.level.settled s.settings).node with placement, joint }
        outer
        baked := false
        diagnostics } := by
  obtain ⟨d, hflush⟩ := s.exists_flush
  obtain ⟨placement, joint, d', hplace⟩ := s.flush.exists_place
  refine ⟨placement, joint, d', ?_⟩
  rw [leave, hplace, hflush]
  rfl

/-- At the end no clump is open. -/
theorem outer_closeAll (s : State) {outer : List Level} (h : s.outer = outer) :
    (s.closeAll outer).outer = [] := by
  induction outer generalizing s with
  | nil => exact h
  | cons parent outer ih =>
    obtain ⟨placement, joint, d, hleave⟩ :=
      (s.count fun d ↦ { d with autoClosedClumps := d.autoClosedClumps + 1 }).exists_leave parent
        outer
    exact ih _ (by rw [hleave])

/-! ### Drawing -/

theorem exists_join (s : State) (material : Material) (signature : Signature)
    (ts : List (Triangle Nat)) :
    ∃ diagnostics, (s.flushUnless signature).extend material signature ts =
      { s with level := s.level.join s.settings material signature ts, diagnostics } := by
  rw [flushUnless, Level.join]
  cases hb : s.level.batch with
  | none => exact ⟨s.diagnostics, by simp only [extend, hb, Option.getD_none]⟩
  | some b =>
    by_cases hsig : b.signature = signature
    · refine ⟨s.diagnostics, ?_⟩
      simp only [hsig, if_true, extend, hb, Option.getD_some]
    · obtain ⟨d, hflush⟩ := s.exists_flush
      refine ⟨d, ?_⟩
      simp only [hsig, if_false, hflush]
      rfl

theorem exists_addResolved (s : State) (f : Face) (offsets : List Nat) :
    ∃ diagnostics, s.addResolved f offsets =
      { s with level := s.level.draw s.settings f offsets, diagnostics } := by
  rw [addResolved, Level.draw]
  cases hr : s.level.retagged f.tag with
  | true => exact s.exists_join _ _ _
  | false => exact exists_join { s with level := s.level.remember } _ _ _

/-! ### The list is complete -/

/-- Scope marks but those of clumps are quiet. -/
theorem effect_mark (s : State) (m : ScopeMark) : s.Effect (.scope m) (s.mark m) := by
  cases m with
  | clumpBegin => exact .entered
  | clumpEnd =>
    rw [mark]
    split
    · next h => exact .unmatched _ h
    · next parent outer h =>
      obtain ⟨placement, joint, d, hleave⟩ := s.exists_leave parent outer
      rw [hleave]
      exact .left parent outer placement joint d h
  | transformBegin => exact .quiet _ _ _ _ _ _ _ trivial (.inr ⟨rfl, rfl⟩)
  | transformEnd =>
    -- `scopesAfter` has to be rewritten in the goal, where it is not visible as such
    have hscopes : ∀ scopes, s.level.scopes.tail = scopes →
        s.level.scopesAfter (.scope .transformEnd) = scopes := fun _ h ↦ h
    rw [mark]
    split
    · next h =>
      have hquiet := Effect.quiet (s := s) (.scope .transformEnd) .identity s.level.material
        s.level.memo s.joint s.joints s.countUnmatched.diagnostics trivial (.inr ⟨rfl, rfl⟩)
      rw [hscopes [] (by rw [h]; rfl), ← h] at hquiet
      exact hquiet
    · next saved scopes h =>
      have hquiet := Effect.quiet (s := s) (.scope .transformEnd) saved.matrix saved.material none
        s.joint s.joints s.diagnostics trivial (.inl rfl)
      rw [hscopes scopes (by rw [h]; rfl)] at hquiet
      exact hquiet
  | jointBegin => exact .quiet _ _ _ _ _ _ _ trivial (.inr ⟨rfl, rfl⟩)
  | jointEnd =>
    rw [mark]
    split
    · exact .quiet _ _ _ _ _ _ _ trivial (.inr ⟨rfl, rfl⟩)
    · exact .quiet _ _ _ _ _ _ _ trivial (.inr ⟨rfl, rfl⟩)
  | identityJoint => exact .quiet _ _ _ _ _ _ _ trivial (.inr ⟨rfl, rfl⟩)

theorem effect_apply (s : State) (c : Command) : s.Effect c (s.apply c) := by
  cases c with
  | vertex position uv => exact .vertex position uv
  | face f =>
    rw [apply, addFace]
    split
    · next h => exact .dropped f _ h
    · next offsets h =>
      obtain ⟨d, hdraw⟩ := s.exists_addResolved f offsets
      rw [hdraw]
      exact .drawn f offsets d h
  | material d => exact .quiet _ _ _ _ _ _ _ trivial (.inl rfl)
  | transform t => cases t <;> exact .quiet _ _ _ _ _ _ _ trivial (.inr ⟨rfl, rfl⟩)
  | scope m => exact s.effect_mark m
  | rotateJoint axis degrees => exact .quiet _ _ _ _ _ _ _ trivial (.inr ⟨rfl, rfl⟩)

end State

end RwxScene
