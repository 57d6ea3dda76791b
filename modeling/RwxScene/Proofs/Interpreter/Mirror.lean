import RwxScene.Proofs.Interpreter.Levels
import RwxScene.Proofs.Mesh.Mirror
import RwxScene.Proofs.Space.Decompose

/-!
# Interpretations in the mirror

Two interpretations of the same lines for scenes of different handedness stay in step
(`State.MirrorOf.apply`): they never differ but in the nodes that have been built so far, which are
mirror images of each other, and in the settings. The handedness is looked at in two places only,
where a batch is finished and where a clump ends; both are settled by what finishing and decomposing
do in the mirror. What is counted is the same.
-/

namespace RwxScene

open List (Forall₂)

/-- A tree is the mirror image of the other one, node by node. -/
inductive Node.MirrorOf : Node → Node → Prop
  | intro {m n : Node} (name : m.name = n.name) (placement : m.placement.MirrorOf n.placement)
    (joint : m.joint = n.joint.map Mat4.reflectX)
    (children : Forall₂ Node.MirrorOf m.children n.children)
    (batches : Forall₂ Batch.MirrorOf m.batches n.batches) : Node.MirrorOf m n

namespace Node.MirrorOf

variable {m n : Node}

theorem new (name : String) : (Node.new name).MirrorOf (Node.new name) :=
  ⟨rfl, .identity, rfl, .nil, .nil⟩

theorem addBatch (h : m.MirrorOf n) {b c : Batch} (hbc : b.MirrorOf c) :
    MirrorOf { m with batches := m.batches ++ [b] } { n with batches := n.batches ++ [c] } := by
  obtain ⟨name, placement, joint, children, batches⟩ := h
  exact ⟨name, placement, joint, children, List.rel_append batches (.cons hbc .nil)⟩

theorem addChild (h : m.MirrorOf n) {k l : Node} (hkl : k.MirrorOf l) :
    MirrorOf { m with children := m.children ++ [k] } { n with children := n.children ++ [l] } := by
  obtain ⟨name, placement, joint, children, batches⟩ := h
  exact ⟨name, placement, joint, List.rel_append children (.cons hkl .nil), batches⟩

end Node.MirrorOf

/-! ### States -/

/-- The level has the same of everything but its node, which is the mirror image. -/
inductive Level.MirrorOf : Level → Level → Prop
  | intro (l : Level) {m : Node} (h : m.MirrorOf l.node) : Level.MirrorOf { l with node := m } l

namespace State

/-- The state with other nodes, built for a left-handed scene. -/
def mirrored (s : State) (m : Node) (ls : List Level) : State :=
  { s with
    settings := { s.settings with handedness := .left }
    level := { s.level with node := m }
    outer := ls }

/-- The first state is the second one seen in the mirror. -/
structure MirrorOf (s t : State) : Prop where
  right : t.settings.handedness = .right
  eq : ∃ m ls, s = t.mirrored m ls ∧ m.MirrorOf t.level.node ∧ Forall₂ Level.MirrorOf ls t.outer

theorem MirrorOf.start (settings : Settings) :
    MirrorOf (.start { settings with handedness := .left })
      (.start { settings with handedness := .right }) :=
  ⟨rfl, _, _, rfl, .new "root", .nil⟩

namespace MirrorOf

variable {s t : State}

/-! ### Ending a batch and a clump -/

/-- Ending a batch needs its indices to be right, so that there are corners to speak of. -/
theorem flush (h : MirrorOf s t) (ht : t.level.WellFormed) : MirrorOf s.flush t.flush := by
  obtain ⟨hright, m, ls, rfl, hnode, houter⟩ := h
  have hleft : (t.mirrored m ls).settings = { t.settings with handedness := .left } := rfl
  have hbatch : (t.mirrored m ls).level.batch = t.level.batch := rfl
  rw [State.flush, State.flush, hbatch]
  cases hb : t.level.batch with
  | none => exact ⟨hright, m, ls, rfl, hnode, houter⟩
  | some b =>
    simp only
    split
    · exact ⟨hright, m, ls, rfl, hnode, houter⟩
    · obtain ⟨hfinish, hcount⟩ := (ht.batch b hb).mirrorOf_finish t.settings
      have hsettings : { t.settings with handedness := .right } = t.settings := by rw [← hright]
      rw [hsettings] at hfinish hcount
      rw [hleft, hcount, hfinish.duplicated]
      exact ⟨hright, _, ls, rfl, hnode.addBatch hfinish, houter⟩

theorem pose_mirrored {t : State} (hright : t.settings.handedness = .right) (m : Node)
    (ls : List Level) : (t.mirrored m ls).pose = t.pose.map Mat4.reflectX := by
  have hpose : (t.mirrored m ls).pose =
      if t.joint.agrees .identity then none else some t.joint.reflectX := rfl
  rw [hpose, pose, hright]
  split
  · rfl
  · rfl

theorem place (h : MirrorOf s t) : MirrorOf s.place t.place := by
  obtain ⟨hright, m, ls, rfl, ⟨hname, hplacement, hjoint, hchildren, hbatches⟩, houter⟩ := h
  have hbaked : (t.mirrored m ls).baked = t.baked := rfl
  have hleft : (t.mirrored m ls).settings.handedness.matrix (t.mirrored m ls).level.matrix =
      t.level.matrix.reflectX := rfl
  have hmatrix : t.settings.handedness.matrix t.level.matrix = t.level.matrix := by
    rw [hright]
    rfl
  have hpose := pose_mirrored hright m ls
  obtain ⟨hplacement', hfindings⟩ := Placement.decompose_reflectX t.level.matrix
  rw [State.place, State.place, hbaked]
  split
  · exact ⟨hright, _, ls, rfl, ⟨hname, hplacement, hpose, hchildren, hbatches⟩, houter⟩
  · simp only [hleft, hmatrix, hfindings]
    exact ⟨hright, _, ls, rfl, ⟨hname, hplacement', hpose, hchildren, hbatches⟩, houter⟩

/-- The clump around a clump that ends gets the mirrored child. -/
theorem leave (h : MirrorOf s t) (ht : t.level.WellFormed) {k l : Level} {ks ls : List Level}
    (hkl : k.MirrorOf l) (hks : Forall₂ Level.MirrorOf ks ls) :
    MirrorOf (s.leave k ks) (t.leave l ls) := by
  have hplace := (h.flush ht).place
  rw [State.leave, State.leave]
  obtain ⟨hright, m, ms, heq, hnode, houter⟩ := hplace
  rw [heq]
  cases hkl with
  | intro _ hk => exact ⟨hright, _, ks, rfl, hk.addChild hnode, hks⟩

/-- What looks neither at the nodes nor at the handedness goes with the mirror. -/
theorem map (h : MirrorOf s t) {f : State → State}
    (hmirrored : ∀ m ls, f (t.mirrored m ls) = (f t).mirrored m ls)
    (hsettings : (f t).settings = t.settings) (hnode : (f t).level.node = t.level.node)
    (houter : (f t).outer = t.outer) : MirrorOf (f s) (f t) := by
  obtain ⟨hright, m, ls, rfl, hm, hls⟩ := h
  exact ⟨hsettings ▸ hright, m, ls, hmirrored m ls, hnode ▸ hm, houter ▸ hls⟩

theorem count (h : MirrorOf s t) (f : Diagnostics → Diagnostics) :
    MirrorOf (s.count f) (t.count f) :=
  h.map (f := (State.count · f)) (fun _ _ ↦ rfl) rfl rfl rfl

/-! ### Drawing -/

theorem exists_level_eq (h : MirrorOf s t) : ∃ m, s.level = { t.level with node := m } := by
  obtain ⟨-, m, ls, rfl, -⟩ := h
  exact ⟨m, rfl⟩

theorem flushUnless (h : MirrorOf s t) (ht : t.level.WellFormed) (signature : Signature) :
    MirrorOf (s.flushUnless signature) (t.flushUnless signature) := by
  obtain ⟨m, hlevel⟩ := h.exists_level_eq
  rw [State.flushUnless, State.flushUnless, hlevel]
  simp only
  cases t.level.batch with
  | none => exact h
  | some b =>
    simp only
    split
    · exact h
    · exact h.flush ht

theorem extend (h : MirrorOf s t) (material : Material) (signature : Signature)
    (ts : List (Triangle Nat)) :
    MirrorOf (s.extend material signature ts) (t.extend material signature ts) :=
  h.map (f := fun s ↦ s.extend material signature ts) (fun _ _ ↦ rfl) rfl rfl rfl

theorem addResolved (h : MirrorOf s t) (ht : t.level.WellFormed) (f : Face) (offsets : List Nat) :
    MirrorOf (s.addResolved f offsets) (t.addResolved f offsets) := by
  obtain ⟨m, hlevel⟩ := h.exists_level_eq
  have hmaterial : s.level.faceMaterial f.tag = t.level.faceMaterial f.tag := by rw [hlevel]; rfl
  have hretagged : s.level.retagged f.tag = t.level.retagged f.tag := by
    rw [hlevel]
    cases f.tag <;> rfl
  have hremember : MirrorOf { s with level := s.level.remember }
      { t with level := t.level.remember } :=
    h.map (f := fun s ↦ { s with level := s.level.remember }) (fun _ _ ↦ rfl) rfl rfl rfl
  have hsignature : s.level.remember.signature = t.level.remember.signature := by rw [hlevel]; rfl
  have hwf : t.level.remember.WellFormed :=
    ⟨fun _ hs ↦ (Option.some.inj hs).symm.trans ht.signature_eq, ht.batch⟩
  simp only [State.addResolved, hmaterial, hretagged, hsignature]
  split
  · exact (h.flushUnless ht _).extend _ _ _
  · exact (hremember.flushUnless hwf _).extend _ _ _

theorem addFace (h : MirrorOf s t) (ht : t.level.WellFormed) (f : Face) :
    MirrorOf (s.addFace f) (t.addFace f) := by
  obtain ⟨m, hlevel⟩ := h.exists_level_eq
  rw [State.addFace, State.addFace, hlevel]
  simp only
  cases t.level.pool.resolve f.indices with
  | none => exact h.count _
  | some offsets => exact h.addResolved ht f offsets

/-! ### Following a line -/

/-- The end of a clump. -/
theorem clumpEnd (h : MirrorOf s t) (ht : t.level.WellFormed) :
    MirrorOf (s.mark .clumpEnd) (t.mark .clumpEnd) := by
  have houter : Forall₂ Level.MirrorOf s.outer t.outer := by
    obtain ⟨-, m, ls, rfl, -, houter⟩ := h
    exact houter
  cases hos : t.outer with
  | nil =>
    rw [hos] at houter
    have hls := List.forall₂_nil_right_iff.1 houter
    simp only [State.mark, hls, hos]
    exact h.count _
  | cons l os =>
    rw [hos] at houter
    obtain ⟨k, ks, hkl, hks, hls⟩ := List.forall₂_cons_right_iff.1 houter
    simp only [State.mark, hls, hos]
    exact h.leave ht hkl hks

theorem mark (h : MirrorOf s t) (ht : t.level.WellFormed) (k : ScopeMark) :
    MirrorOf (s.mark k) (t.mark k) := by
  cases k with
  | clumpBegin =>
    obtain ⟨hright, m, ls, rfl, hnode, houter⟩ := h
    exact ⟨hright, _, _, rfl, .new _, .cons ⟨_, hnode⟩ houter⟩
  | clumpEnd => exact h.clumpEnd ht
  | transformBegin => exact h.map (f := (State.mark · .transformBegin)) (fun _ _ ↦ rfl) rfl rfl rfl
  | transformEnd =>
    obtain ⟨m, hlevel⟩ := h.exists_level_eq
    have hscopes : s.level.scopes = t.level.scopes := by rw [hlevel]
    rw [State.mark, State.mark, hscopes]
    cases t.level.scopes with
    | nil =>
      exact h.map (f := fun s ↦ (s.withMatrix .identity).countUnmatched) (fun _ _ ↦ rfl) rfl rfl rfl
    | cons saved scopes =>
      exact h.map (f := fun s ↦ { s with level := { s.level.withMaterial saved.material with
        matrix := saved.matrix, scopes } }) (fun _ _ ↦ rfl) rfl rfl rfl
  | jointBegin => exact h.map (f := (State.mark · .jointBegin)) (fun _ _ ↦ rfl) rfl rfl rfl
  | jointEnd =>
    have hjoints : s.joints = t.joints := by
      obtain ⟨-, m, ls, rfl, -⟩ := h
      rfl
    rw [State.mark, State.mark, hjoints]
    cases t.joints with
    | nil =>
      exact h.map (f := fun s ↦ { s with joint := .identity, joints := [] }.countUnmatched)
        (fun _ _ ↦ rfl) rfl rfl rfl
    | cons joint joints =>
      exact h.map (f := fun s ↦ { s with joint, joints }) (fun _ _ ↦ rfl) rfl rfl rfl
  | identityJoint => exact h.map (f := (State.mark · .identityJoint)) (fun _ _ ↦ rfl) rfl rfl rfl

theorem apply (h : MirrorOf s t) (ht : t.level.WellFormed) (c : Command) :
    MirrorOf (s.apply c) (t.apply c) := by
  cases c with
  | face f => exact h.addFace ht f
  | scope k => exact h.mark ht k
  | transform k =>
    refine h.map (f := (State.transform · k)) (fun m ls ↦ ?_) ?_ ?_ ?_ <;> cases k <;> rfl
  | _ => exact h.map (f := (State.apply · _)) (fun _ _ ↦ rfl) rfl rfl rfl

theorem step (h : MirrorOf s t) (ht : t.level.WellFormed) (l : Line) :
    MirrorOf (s.step l) (t.step l) := by
  cases l with
  | command c => exact h.apply ht c
  | _ => exact h

/-! ### The end -/

theorem closeAll (h : MirrorOf s t) (ht : t.level.WellFormed) {ks ls : List Level}
    (hks : Forall₂ Level.MirrorOf ks ls) (hls : ∀ l ∈ ls, l.WellFormed) :
    MirrorOf (s.closeAll ks) (t.closeAll ls) ∧ (t.closeAll ls).level.WellFormed := by
  induction hks generalizing s t with
  | nil => exact ⟨h, ht⟩
  | @cons k l ks ls hkl hks ih =>
    obtain ⟨hl, hls⟩ := List.forall_mem_cons.1 hls
    refine ih ((h.count _).leave ht hkl hks) ?_ hls
    obtain ⟨placement, joint, d, hleave⟩ := (t.count _).exists_leave l ls
    rw [hleave]
    exact ⟨hl.memo, hl.batch⟩

/-- The finished trees are mirror images, and the counts are the same. -/
theorem finish (h : MirrorOf s t) (ht : ∀ l ∈ t.levels, l.WellFormed) :
    s.finish.1.MirrorOf t.finish.1 ∧ s.finish.2 = t.finish.2 := by
  obtain ⟨hlevel, hlevels⟩ := List.forall_mem_cons.1 ht
  have houter : Forall₂ Level.MirrorOf s.outer t.outer := by
    obtain ⟨-, m, ls, rfl, -, houter⟩ := h
    exact houter
  obtain ⟨hclosed, hwf⟩ := h.closeAll hlevel houter hlevels
  obtain ⟨-, m, ls, heq, hnode, -⟩ := hclosed.flush hwf
  rw [State.finish, State.finish]
  simp only [heq]
  exact ⟨hnode, rfl⟩

end MirrorOf

end State

end RwxScene
