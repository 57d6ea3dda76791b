import RwxScene.Proofs.Interpreter.Nesting

/-!
# Aspects of a scene

Joints, places and geometry are aspects of a scene, and some commands are about one of them alone
(`Aspect.carries`). What is counted of faces and ends that came to nothing is an aspect too, one that
no command is for.

`without` blanks out an aspect of a tree, of a state and of the counts. A command that is about the
aspect does nothing that could still be seen (`without_apply`), and any other command takes states
that are the same without it to states that are the same without it (`apply_congr`). So do runs, even
if one of them leaves out the commands of the aspect (`run_congr`), and the end of all clumps.
-/

namespace RwxScene

/-- What a state is about. -/
inductive Aspect where
  /-- The joints of the nodes. -/
  | joints
  /-- Where the nodes are. -/
  | places
  /-- What the nodes draw. -/
  | geometry
  /-- Faces without corners, and ends of what was not open. -/
  | misses
deriving DecidableEq

/-- The command is about this aspect alone. -/
def Aspect.carries : Aspect → Command → Bool
  | .joints, .scope .jointBegin => true
  | .joints, .scope .jointEnd => true
  | .joints, .scope .identityJoint => true
  | .joints, .rotateJoint .. => true
  | .places, .transform _ => true
  | .geometry, .vertex .. => true
  | .geometry, .face _ => true
  | .geometry, .material _ => true
  | _, _ => false

/-- The action follows a command that is about this aspect alone. -/
def Aspect.concerns (a : Aspect) (x : Action) : Bool := x.command?.any a.carries

/-! ### Blanking out -/

namespace Node

/-- The node without what an aspect says of it alone. -/
def bare (n : Node) (a : Aspect) : Node :=
  { n with
    placement := if a = .places then .identity else n.placement
    joint := if a = .joints then none else n.joint
    batches := if a = .geometry then [] else n.batches }

mutual

/-- The tree without an aspect. -/
def without (a : Aspect) : Node → Node
  | ⟨name, placement, joint, children, batches⟩ =>
    bare ⟨name, placement, joint, withoutAll a children, batches⟩ a

/-- Trees without an aspect. -/
def withoutAll (a : Aspect) : List Node → List Node
  | [] => []
  | n :: ns => without a n :: withoutAll a ns

end

theorem without_eq (a : Aspect) (n : Node) :
    without a n = bare { n with children := withoutAll a n.children } a := by
  cases n
  rfl

theorem withoutAll_append (a : Aspect) (ns ms : List Node) :
    withoutAll a (ns ++ ms) = withoutAll a ns ++ withoutAll a ms := by
  induction ns with
  | nil => rfl
  | cons n ns ih => rw [List.cons_append, withoutAll, withoutAll, ih, List.cons_append]

end Node

/-- The counts without those of an aspect. -/
def Diagnostics.without (d : Diagnostics) : Aspect → Diagnostics
  | .joints => { d with unmatchedScopeEnds := 0 }
  | .places => { d with sanitizedMatrixComponents := 0, repairedMatrices := 0 }
  | .geometry => { d with outOfRangeFaces := 0, degenerateTriangles := 0, duplicatedBatches := 0 }
  | .misses => { d with outOfRangeFaces := 0, unmatchedScopeEnds := 0 }

/-- What a scope gives back, without an aspect. -/
def Saved.without (x : Saved) (a : Aspect) : Saved where
  matrix := if a = .places then .identity else x.matrix
  material := if a = .geometry then .initial else x.material

/-- The level without an aspect. -/
def Level.without (l : Level) (a : Aspect) : Level where
  node := { l.node with children := Node.withoutAll a l.node.children }.bare a
  matrix := if a = .places then .identity else l.matrix
  material := if a = .geometry then .initial else l.material
  memo := if a = .geometry then none else l.memo
  scopes := l.scopes.map (·.without a)
  pool := if a = .geometry then #[] else l.pool
  batch := if a = .geometry then none else l.batch

/-- The state without an aspect. -/
def State.without (s : State) (a : Aspect) : State :=
  { s with
    level := s.level.without a
    outer := s.outer.map (·.without a)
    joint := if a = .joints then .identity else s.joint
    joints := if a = .joints then [] else s.joints
    diagnostics := s.diagnostics.without a }

namespace Level

theorem without_adopt (a : Aspect) (l : Level) (n : Node) :
    (l.adopt n).without a = (l.without a).adopt (n.without a) := by
  rw [without, adopt, Node.withoutAll_append]
  rfl

end Level

namespace State

variable {a : Aspect} {s t : State}

/-! ### What is seen -/

/-- What is seen afterwards depends only on what was seen before. -/
theorem without_congr (f : State → State) (g : State → State)
    (hf : ∀ s : State, g (s.without a) = (f s).without a) (h : s.without a = t.without a) :
    (f s).without a = (f t).without a := by
  rw [← hf, ← hf, h]

theorem countUnmatched_congr (h : s.without a = t.without a) :
    s.countUnmatched.without a = t.countUnmatched.without a := by
  cases a with
  | joints => exact without_congr countUnmatched id (fun _ ↦ rfl) h
  | misses => exact without_congr countUnmatched id (fun _ ↦ rfl) h
  | _ => exact without_congr countUnmatched countUnmatched (fun _ ↦ rfl) h

/-! ### Faces -/

theorem flush_without (ha : a ≠ .geometry) (s : State) :
    (s.without a).flush = s.flush.without a := by
  have hbatch : (s.without a).level.batch = s.level.batch := if_neg ha
  rw [flush, flush, hbatch]
  cases s.level.batch with
  | none => rfl
  | some b =>
    show ite _ _ _ = (ite _ _ _ : State).without a
    cases a with
    | geometry => exact absurd rfl ha
    | _ => split <;> rfl

/-- To whoever does not see batches, nothing happens when one ends. -/
theorem flush_without_geometry (s : State) : s.flush.without .geometry = s.without .geometry := by
  rw [flush]
  split
  · rfl
  · show (ite _ _ _ : State).without _ = _
    split <;> rfl

theorem flush_congr (h : s.without a = t.without a) : s.flush.without a = t.flush.without a := by
  by_cases ha : a = .geometry
  · subst ha
    rw [flush_without_geometry, flush_without_geometry, h]
  · exact without_congr flush flush (flush_without ha) h

theorem flushUnless_without (ha : a ≠ .geometry) (s : State) (signature : Signature) :
    (s.without a).flushUnless signature = (s.flushUnless signature).without a := by
  have hbatch : (s.without a).level.batch = s.level.batch := if_neg ha
  rw [flushUnless, flushUnless, hbatch]
  cases s.level.batch with
  | none => rfl
  | some b =>
    show ite _ _ _ = (ite _ _ _ : State).without a
    split
    · rfl
    · exact flush_without ha s

theorem extend_without (ha : a ≠ .geometry) (s : State) (material : Material)
    (signature : Signature) (ts : List (Triangle Nat)) :
    (s.without a).extend material signature ts = (s.extend material signature ts).without a := by
  cases a with
  | geometry => exact absurd rfl ha
  | _ => rfl

theorem extend_without_geometry (s : State) (material : Material) (signature : Signature)
    (ts : List (Triangle Nat)) :
    (s.extend material signature ts).without .geometry = s.without .geometry := rfl

theorem addResolved_without (ha : a ≠ .geometry) (s : State) (f : Face) (offsets : List Nat) :
    (s.without a).addResolved f offsets = (s.addResolved f offsets).without a := by
  have hextend : ∀ (s : State) (material : Material) (signature : Signature)
      (ts : List (Triangle Nat)),
      ((s.without a).flushUnless signature).extend material signature ts =
        ((s.flushUnless signature).extend material signature ts).without a := by
    intro s material signature ts
    rw [flushUnless_without ha, extend_without ha]
  rw [addResolved, addResolved]
  -- tag, material and memo are seen, so both sides take the same way
  cases a with
  | geometry => exact absurd rfl ha
  | _ =>
    show ite (s.level.retagged f.tag = true) _ _ =
      (ite (s.level.retagged f.tag = true) _ _ : State).without _
    split
    · exact hextend s _ _ _
    · exact hextend { s with level := s.level.remember } _ _ _

theorem addResolved_without_geometry (s : State) (f : Face) (offsets : List Nat) :
    (s.addResolved f offsets).without .geometry = s.without .geometry := by
  have hflush : ∀ (s : State) (signature : Signature),
      (s.flushUnless signature).without .geometry = s.without .geometry := by
    intro s signature
    rw [flushUnless]
    split
    · rfl
    · split
      · rfl
      · exact flush_without_geometry s
  rw [addResolved]
  split
  · rw [extend_without_geometry, hflush]
  · rw [extend_without_geometry, hflush]
    rfl

theorem addFace_without_geometry (s : State) (f : Face) :
    (s.addFace f).without .geometry = s.without .geometry := by
  rw [addFace]
  split
  · rfl
  · exact addResolved_without_geometry s f _

theorem addFace_congr (ha : a ≠ .geometry) (h : s.without a = t.without a) (f : Face) :
    (s.addFace f).without a = (t.addFace f).without a := by
  have hpool : s.level.pool = t.level.pool := by
    have hpools := congrArg (·.level.pool) h
    replace hpools : (if a = .geometry then #[] else s.level.pool) =
      if a = .geometry then #[] else t.level.pool := hpools
    rwa [if_neg ha, if_neg ha] at hpools
  rw [addFace, addFace, hpool]
  split
  · cases a with
    | geometry => exact absurd rfl ha
    | misses =>
      exact without_congr (count · fun d ↦ { d with outOfRangeFaces := d.outOfRangeFaces + 1 }) id
        (fun _ ↦ rfl) h
    | _ =>
      exact without_congr (count · fun d ↦ { d with outOfRangeFaces := d.outOfRangeFaces + 1 })
        (count · fun d ↦ { d with outOfRangeFaces := d.outOfRangeFaces + 1 }) (fun _ ↦ rfl) h
  · next offsets _ =>
    exact without_congr (addResolved · f offsets) (addResolved · f offsets)
      (fun s ↦ addResolved_without ha s f offsets) h

/-! ### Clumps -/

theorem place_congr (h : s.without a = t.without a) : s.place.without a = t.place.without a := by
  have hbaked : ∀ (a : Aspect) (s : State), (s.without a).baked = s.baked := fun _ _ ↦ rfl
  cases a with
  | places =>
    refine without_congr place (fun s ↦ { s with level := { s.level with
      node := { s.level.node with joint := s.pose } } }) (fun s ↦ ?_) h
    rw [place]
    split <;> rfl
  | joints =>
    refine without_congr place (fun s ↦ { s.place with level := { s.place.level with
      node := { s.place.level.node with joint := none } } }) (fun s ↦ ?_) h
    rw [place, place, hbaked]
    split <;> rfl
  | _ =>
    refine without_congr place place (fun s ↦ ?_) h
    rw [place, place, hbaked]
    split <;> rfl

theorem leave_without (s : State) (parent : Level) (outer : List Level) :
    (s.leave parent outer).without a =
      { s.flush.place.without a with
        level := (parent.without a).adopt (s.flush.place.without a).level.node
        outer := outer.map (·.without a)
        baked := false } := by
  show { s.flush.place with
    level := parent.adopt s.flush.place.level.node, outer, baked := false }.without a = _
  rw [without, Level.without_adopt, Node.without_eq]
  rfl

theorem leave_congr (h : s.without a = t.without a) {k l : Level} {ks ls : List Level}
    (hkl : k.without a = l.without a) (hks : ks.map (·.without a) = ls.map (·.without a)) :
    (s.leave k ks).without a = (t.leave l ls).without a := by
  rw [leave_without, leave_without, place_congr (flush_congr h), hkl, hks]

theorem clumpEnd_congr (h : s.without a = t.without a) :
    (s.mark .clumpEnd).without a = (t.mark .clumpEnd).without a := by
  have houter : s.outer.map (·.without a) = t.outer.map (·.without a) := congrArg outer h
  rw [mark, mark]
  cases hs : s.outer with
  | nil =>
    rw [hs] at houter
    rw [List.map_eq_nil_iff.1 houter.symm]
    exact countUnmatched_congr h
  | cons k ks =>
    rw [hs] at houter
    obtain ⟨l, ls, ht, hkl, hks⟩ := List.map_eq_cons_iff.1 houter.symm
    rw [ht]
    exact leave_congr h hkl.symm hks.symm

/-! ### Scopes and joints -/

/-- What a scope gives back is seen of it. -/
theorem resume_without (s : State) (x : Saved) (xs : List Saved) :
    { s with level :=
      { s.level.withMaterial x.material with matrix := x.matrix, scopes := xs } }.without a =
    { s.without a with level :=
      { (s.without a).level.withMaterial (x.without a).material with
        matrix := (x.without a).matrix, scopes := xs.map (·.without a) } } := by
  cases a <;> rfl

theorem transformEnd_congr (h : s.without a = t.without a) :
    (s.mark .transformEnd).without a = (t.mark .transformEnd).without a := by
  have hscopes : s.level.scopes.map (·.without a) = t.level.scopes.map (·.without a) :=
    congrArg (·.level.scopes) h
  rw [mark, mark]
  cases hs : s.level.scopes with
  | nil =>
    rw [hs] at hscopes
    rw [List.map_eq_nil_iff.1 hscopes.symm]
    refine countUnmatched_congr (without_congr (withMatrix · .identity) (withMatrix · .identity) ?_ h)
    exact fun _ ↦ by cases a <;> rfl
  | cons x xs =>
    rw [hs] at hscopes
    obtain ⟨y, ys, ht, hxy, hxys⟩ := List.map_eq_cons_iff.1 hscopes.symm
    replace hxy : y.without a = x.without a := hxy
    rw [ht]
    refine (resume_without s x xs).trans ?_
    rw [h, ← hxy, ← hxys]
    exact (resume_without t y ys).symm

/-- Whoever sees joints sees what an end of a joint gives back. -/
theorem jointEnd_congr (ha : a ≠ .joints) (h : s.without a = t.without a) :
    (s.mark .jointEnd).without a = (t.mark .jointEnd).without a := by
  have hjoints : s.joints = t.joints := by
    have hjoints := congrArg joints h
    replace hjoints : (if a = .joints then [] else s.joints) =
      if a = .joints then [] else t.joints := hjoints
    rwa [if_neg ha, if_neg ha] at hjoints
  have hset : ∀ joint joints, { s with joint, joints }.without a = { t with joint, joints }.without a := by
    intro joint joints
    refine without_congr (fun s ↦ { s with joint, joints }) (fun s ↦ { s with joint, joints })
      (fun s ↦ ?_) h
    cases a with
    | joints => exact absurd rfl ha
    | _ => rfl
  rw [mark, mark, hjoints]
  cases t.joints with
  | nil => exact countUnmatched_congr (hset .identity [])
  | cons joint joints => exact hset joint joints

/-! ### Commands -/

theorem mark_congr (h : s.without a = t.without a) {m : ScopeMark}
    (hm : a.carries (.scope m) = false) : (s.mark m).without a = (t.mark m).without a := by
  have hexact : (∀ s : State, (s.without a).mark m = (s.mark m).without a) →
      (s.mark m).without a = (t.mark m).without a :=
    fun hf ↦ without_congr (mark · m) (mark · m) hf h
  cases m with
  | clumpBegin => exact hexact fun _ ↦ by cases a <;> rfl
  | clumpEnd => exact clumpEnd_congr h
  | transformBegin => exact hexact fun _ ↦ by cases a <;> rfl
  | transformEnd => exact transformEnd_congr h
  | jointEnd =>
    refine jointEnd_congr ?_ h
    rintro rfl
    exact absurd hm (by decide)
  | _ =>
    cases a with
    | joints => exact absurd hm (by decide)
    | _ => exact hexact fun _ ↦ rfl

/-- A command that is not about an aspect sees nothing of it. -/
theorem apply_congr (h : s.without a = t.without a) {c : Command} (hc : a.carries c = false) :
    (s.apply c).without a = (t.apply c).without a := by
  have hexact : (∀ s : State, (s.without a).apply c = (s.apply c).without a) →
      (s.apply c).without a = (t.apply c).without a :=
    fun hf ↦ without_congr (apply · c) (apply · c) hf h
  cases c with
  | face f =>
    refine addFace_congr ?_ h f
    rintro rfl
    exact absurd hc (by simp [Aspect.carries])
  | scope m => exact mark_congr h hc
  | transform k =>
    cases a with
    | places => exact absurd hc (by simp [Aspect.carries])
    | _ => exact hexact fun _ ↦ by cases k <;> rfl
  | rotateJoint axis degrees =>
    cases a with
    | joints => exact absurd hc (by simp [Aspect.carries])
    | _ => exact hexact fun _ ↦ rfl
  | _ =>
    cases a with
    | geometry => exact absurd hc (by simp [Aspect.carries])
    | _ => exact hexact fun _ ↦ rfl

/-- A command that is about an aspect does nothing else. -/
theorem without_apply (s : State) {c : Command} (hc : a.carries c = true) :
    (s.apply c).without a = s.without a := by
  revert hc
  fun_cases Aspect.carries a c with
  | case2 =>
    -- there is a joint to go back to, or there is none, which is counted
    intro _
    rw [apply, mark]
    split <;> rfl
  | case5 k =>
    intro _
    cases k <;> rfl
  | case7 f => exact fun _ ↦ addFace_without_geometry s f
  | case9 => exact fun hc ↦ absurd hc Bool.false_ne_true
  | _ => exact fun _ ↦ rfl

/-! ### Runs -/

theorem act_congr (h : s.without a = t.without a) {x : Action} (hx : a.concerns x = false) :
    (s.act x).without a = (t.act x).without a := by
  cases x with
  | line l =>
    cases l with
    | command c => exact apply_congr h hx
    | _ => exact h
  | command c => exact apply_congr h hx
  | markBaked => exact without_congr markBaked markBaked (fun _ ↦ rfl) h
  | setPrototypeOpen isOpen =>
    exact without_congr (setPrototypeOpen · isOpen) (setPrototypeOpen · isOpen) (fun _ ↦ rfl) h
  | setInstanceTransform m =>
    exact without_congr (setInstanceTransform · m) (setInstanceTransform · m) (fun _ ↦ rfl) h

theorem without_act (s : State) {x : Action} (hx : a.concerns x = true) :
    (s.act x).without a = s.without a := by
  obtain ⟨c, hc, hcarries⟩ := (Option.any_eq_true _ _).1 hx
  rw [act_of_command hc]
  exact without_apply s hcarries

/-- What a run leaves of the other aspects is what it leaves without the commands of this one. -/
theorem run_congr (h : s.without a = t.without a) (as : List Action) :
    (s.run as).without a = (t.run (as.filter (!a.concerns ·))).without a := by
  induction as generalizing s t with
  | nil => exact h
  | cons x as ih =>
    rw [run_cons]
    cases hx : a.concerns x with
    | true =>
      rw [List.filter_cons_of_neg (by rw [hx]; decide)]
      exact ih ((without_act s hx).trans h)
    | false =>
      rw [List.filter_cons_of_pos (by rw [hx]; rfl), run_cons]
      exact ih (act_congr h hx)

theorem closeAll_congr (h : s.without a = t.without a) {ks ls : List Level}
    (hks : ks.map (·.without a) = ls.map (·.without a)) :
    (s.closeAll ks).without a = (t.closeAll ls).without a := by
  induction ks generalizing s t ls with
  | nil =>
    rw [List.map_eq_nil_iff.1 hks.symm]
    exact h
  | cons k ks ih =>
    obtain ⟨l, ls, rfl, hkl, hkls⟩ := List.map_eq_cons_iff.1 hks.symm
    refine ih (leave_congr ?_ hkl.symm hkls.symm) hkls.symm
    have hcount := without_congr (a := a) (s := s) (t := t)
      (count · fun d ↦ { d with autoClosedClumps := d.autoClosedClumps + 1 })
      (count · fun d ↦ { d with autoClosedClumps := d.autoClosedClumps + 1 })
    exact hcount (fun _ ↦ by cases a <;> rfl) h

/-- Trees and counts are the same without the aspect. -/
theorem finish_congr (h : s.without a = t.without a) :
    s.finish.1.without a = t.finish.1.without a ∧ s.finish.2.without a = t.finish.2.without a := by
  have houter : s.outer.map (·.without a) = t.outer.map (·.without a) := congrArg outer h
  have hclosed := flush_congr (closeAll_congr h houter)
  rw [Node.without_eq, Node.without_eq]
  exact ⟨congrArg (·.level.node) hclosed, congrArg diagnostics hclosed⟩

end State

end RwxScene
