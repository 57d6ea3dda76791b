import Mathlib
import RwxScene.Proofs.Interpreter.Brackets
import RwxScene.Proofs.Interpreter.Geometry
import RwxScene.Proofs.Interpreter.Stretches
import RwxScene.Proofs.Mesh.Mirror
import RwxScene.Proofs.Scene.Totals

/-!
# What there is in a scene, counted twice

Nodes and triangles of a finished tree can be counted without it, along the trace of its commands
(`State.nodeCount_finish`, `State.triangleCount_finish`).

Degenerate triangles and split batches are counted when a batch is finished, which happens in two
places. At every time the counts are those of the batches that were handed out so far, in whatever
clump they wait (`State.Settled`); so at the end they are those of the whole tree, and both can be
found again from the batches alone (`Builder.snd_finish`).
-/

namespace RwxScene

/-! ### Batches -/

namespace Batch

/-- The number of triangles over the positions of the batch that have no normal. -/
def flatCount (epsilon : Scalar) (b : Batch) : ℕ :=
  b.triangles.countP fun t ↦ (Normals.ofTriangle epsilon b.positions t).isNone

theorem length_flatMap_corners (bs : List Batch) :
    (bs.flatMap corners).length = (bs.map triangleCount).sum := by
  rw [List.length_flatMap]
  exact congrArg List.sum (List.map_congr_left fun b _ ↦ b.length_corners)

end Batch

namespace Builder

/-- Triangles that share their vertices have the normals that were found for them. -/
theorem map_ofTriangle_sharedBatch (s : Settings) (b : Builder) :
    (b.sharedBatch s).triangles.map
        (Normals.ofTriangle s.degenerateNormalEpsilon (b.sharedBatch s).positions) =
      (b.exportedFaces s).map Prod.snd := by
  rw [triangles_sharedBatch, exportedFaces, List.map_map]
  rfl

/-- So have triangles with vertices of their own. -/
theorem map_ofTriangle_ownBatch (s : Settings) (b : Builder) :
    (b.ownBatch s).triangles.map
        (Normals.ofTriangle s.degenerateNormalEpsilon (b.ownBatch s).positions) =
      (b.exportedFaces s).map Prod.snd := by
  rw [triangles_ownBatch, List.map_map]
  refine List.ext_getElem? fun k ↦ ?_
  rw [List.getElem?_map, List.getElem?_map]
  by_cases hk : k < b.triangles.size
  · have hface := b.getElem?_exportedFaces s hk
    obtain ⟨h₁, h₂, h₃⟩ := getElem?_ownCorners hface
    rw [List.getElem?_range hk, hface]
    simp [Normals.ofTriangle, Triangle.map, Normals.position, ownBatch, h₁, h₂, h₃]
  · rw [List.getElem?_eq_none (by simpa using hk),
      List.getElem?_eq_none (by rw [length_exportedFaces]; exact Nat.le_of_not_lt hk)]
    rfl

/-- What is counted when a batch is finished can be counted again in the batch. -/
theorem snd_finish (s : Settings) (b : Builder) :
    (b.finish s).2 = (b.finish s).1.flatCount s.degenerateNormalEpsilon := by
  have hnormals : (b.finish s).1.triangles.map
      (Normals.ofTriangle s.degenerateNormalEpsilon (b.finish s).1.positions) =
        (b.exportedFaces s).map Prod.snd := by
    rw [finish_eq]
    cases b.folds s with
    | false => exact map_ofTriangle_sharedBatch s b
    | true => exact map_ofTriangle_ownBatch s b
  have hcount := congrArg (List.countP Option.isNone) hnormals
  rw [List.countP_map, List.countP_map] at hcount
  rw [Batch.flatCount, finish_eq]
  rw [finish_eq] at hcount
  exact hcount.symm

end Builder

namespace State

variable {s : State}

/-! ### Nodes -/

theorem clumps_apply (s : State) (c : Command) :
    (s.apply c).clumps = s.clumps + if c = .scope .clumpBegin then 1 else 0 := by
  have heffect := s.effect_apply c
  generalize s.apply c = t at heffect ⊢
  match heffect with
  | .vertex .. | .dropped .. | .drawn .. | .entered | .unmatched .. | .left .. => rfl
  | .quiet c _ _ _ _ _ _ hc _ =>
    have hne : c ≠ .scope .clumpBegin := by
      rintro rfl
      exact hc
    rw [if_neg hne]
    rfl

/-- Every clump that begins has a node, and so has the root. -/
theorem nodeCount_finish (settings : Settings) (cs : List Command) :
    ((start settings).follow cs).finish.1.nodeCount = cs.count (.scope .clumpBegin) + 1 := by
  have hclumpwise := clumpwise_corners settings
  have htracks : Tracks _ ((start settings).run (cs.map .command)) _ :=
    (Tracks.start hclumpwise).run hclumpwise hclumpwise.stable.forall_start fun _ _ _ _ ↦ trivial
  rw [run_map_command] at htracks
  have hclumps : ((start settings).follow cs).clumps = cs.count (.scope .clumpBegin) := by
    have hfollow := follow_eq_add_countP (f := clumps) (p := fun x ↦ x.2 == .scope .clumpBegin)
      (fun s c ↦ by simpa using s.clumps_apply c) (start settings) cs
    rw [Brackets.countP_trace _ _ (· == .scope .clumpBegin)] at hfollow
    exact hfollow.trans (Nat.zero_add _)
  rw [Node.nodeCount, ← List.length_map Node.content, content_finish, htracks.length,
    ← htracks.clumps, hclumps]

/-! ### Triangles -/

end State

/-- The number of triangles in the content of a tree. -/
def contentTriangles (content : List (String × List Batch)) : ℕ :=
  ((content.flatMap Prod.snd).map Batch.triangleCount).sum

theorem contentTriangles_append (xs ys : List (String × List Batch)) :
    contentTriangles (xs ++ ys) = contentTriangles xs + contentTriangles ys := by
  rw [contentTriangles, List.flatMap_append, List.map_append, List.sum_append]
  rfl

theorem Node.allBatches_eq (n : Node) :
    n.allBatches = (n.walk.map Node.content).flatMap Prod.snd := by
  rw [allBatches, List.flatMap_map]
  rfl

/-- A face that is drawn adds its triangles to the batches of its clump. -/
theorem Level.WellFormed.triangles_draw {l : Level} (h : l.WellFormed) (settings : Settings)
    {f : Face} (hf : f.IsComplete) {offsets : List ℕ}
    (hres : l.pool.resolve f.indices = some offsets) :
    (((l.draw settings f offsets).batches settings).map Batch.triangleCount).sum =
      ((l.batches settings).map Batch.triangleCount).sum + (f.indices.length - 2) := by
  obtain ⟨memo, hmemo, hdraw⟩ := h.draw_eq settings f offsets
  have hcorners := congrArg List.length (Level.corners_join settings (l := { l with memo })
    ⟨hmemo, h.batch⟩ (l.faceMaterial f.tag) (Level.lt_of_mem_triangulate hres))
  rw [List.length_append, List.length_map, List.length_map,
    Level.length_triangulate_of_resolve hf hres, Batch.length_flatMap_corners,
    Batch.length_flatMap_corners] at hcorners
  rw [hdraw]
  exact hcorners

namespace State

variable {s : State}

/-- What a command adds to the triangles is told by the brackets. -/
theorem contentTriangles_apply (hs : ∀ l ∈ s.levels, l.WellFormed) {c : Command}
    (hc : c.IsComplete) :
    contentTriangles (s.apply c).content = contentTriangles s.content +
      ((Brackets.accepted? (s.brackets, c)).map fun f ↦ f.indices.length - 2).getD 0 := by
  have heffect := s.effect_apply c
  generalize s.apply c = t at heffect ⊢
  match heffect with
  | .vertex .. | .unmatched .. => rfl
  | .dropped f d h =>
    rw [accepted?_brackets, h]
    rfl
  | .drawn f offsets d h =>
    have hkeeps := s.level.keeps_draw s.settings f offsets
    have hdraw := (hs s.level List.mem_cons_self).triangles_draw s.settings (hc f rfl) h
    rw [accepted?_brackets, h]
    simp only [content, levels, Level.contents, Level.content, hkeeps.name, hkeeps.children,
      contentTriangles_append]
    simp only [contentTriangles, List.flatMap_cons, List.map_append, List.sum_append, hdraw,
      Option.map_some, Option.getD_some]
    omega
  | .entered =>
    show contentTriangles (s.content ++ Level.content s.settings (.opened ..)) = _
    rw [Level.content_opened, contentTriangles_append]
    rfl
  | .left parent outer placement joint d h =>
    have hcontents := contents_leave s.settings s.level parent outer placement joint
    rw [← h] at hcontents
    exact congrArg contentTriangles hcontents
  | .quiet c matrix material memo joint joints d hquiet hmemo =>
    have hface : c.isFace = false := by
      cases c with
      | face _ => exact hquiet.elim
      | _ => rfl
    rw [Brackets.accepted?_of_not_face hface]
    rfl

/-- The scene has the triangles of the faces that were accepted. -/
theorem triangleCount_finish (settings : Settings) {cs : List Command}
    (hcs : ∀ c ∈ cs, c.IsComplete) :
    ((start settings).follow cs).finish.1.triangleCount =
      (((Brackets.start.trace cs).filterMap Brackets.accepted?).map
        fun f ↦ f.indices.length - 2).sum := by
  have hsum : ∀ xs : List (Brackets × Command),
      (xs.map fun x ↦ ((Brackets.accepted? x).map fun f ↦ f.indices.length - 2).getD 0).sum =
        ((xs.filterMap Brackets.accepted?).map fun f ↦ f.indices.length - 2).sum := by
    intro xs
    induction xs with
    | nil => rfl
    | cons x xs ih =>
      rw [List.map_cons, List.sum_cons, ih, List.filterMap_cons]
      match Brackets.accepted? x with
      | none => exact Nat.zero_add _
      | some f => rfl
  have hfollow := follow_eq_add_sum (f := fun s ↦ contentTriangles s.content)
    (g := fun x ↦ ((Brackets.accepted? x).map fun f ↦ f.indices.length - 2).getD 0)
    (I := fun s ↦ ∀ l ∈ s.levels, l.WellFormed)
    (fun s c hs _ ↦ (Level.stable_wellFormed s.settings).effect (fun _ _ ↦ trivial) hs
      (s.effect_apply c))
    (fun s c hs hc ↦ contentTriangles_apply hs hc)
    (Level.stable_wellFormed settings).forall_start hcs
  have hstart : contentTriangles (start settings).content = 0 :=
    congrArg contentTriangles (Level.content_opened settings _ _ _ _)
  rw [hsum, hstart, Nat.zero_add, brackets_start] at hfollow
  rw [Node.triangleCount_eq, Node.allBatches_eq, content_finish]
  exact hfollow

/-! ### What was handed out -/

end State

theorem Node.allBatches_cons (n : Node) :
    n.allBatches = n.batches ++ (visit n.children).flatMap Node.batches := by
  rw [allBatches, walk_eq, List.flatMap_cons]

theorem Node.allBatches_hand (n : Node) (b : Batch) :
    { n with batches := n.batches ++ [b] }.allBatches.Perm (b :: n.allBatches) := by
  rw [allBatches_cons, allBatches_cons, List.append_assoc]
  exact List.perm_middle

theorem Node.allBatches_adopt (n m : Node) :
    { n with children := n.children ++ [m] }.allBatches.Perm (m.allBatches ++ n.allBatches) := by
  rw [allBatches_cons, allBatches_cons n, visit_append, List.flatMap_append, ← List.append_assoc]
  exact List.perm_append_comm

namespace State

variable {s : State}

/-- The batches that open clumps and the clumps inside them have got so far. -/
def handed (s : State) : List Batch := s.levels.flatMap fun l ↦ l.node.allBatches

/-- The counts that are made when a batch is finished are those of the batches handed out so far. -/
structure Settled (s : State) : Prop where
  degenerate : s.diagnostics.degenerateTriangles =
    (s.handed.map (Batch.flatCount s.settings.degenerateNormalEpsilon)).sum
  duplicated : s.diagnostics.duplicatedBatches = s.handed.countP (·.duplicated)

/-- It does not matter where the batches wait. -/
theorem Settled.of_perm {t : State} (h : s.Settled) (hsettings : t.settings = s.settings)
    (hdegenerate : t.diagnostics.degenerateTriangles = s.diagnostics.degenerateTriangles)
    (hduplicated : t.diagnostics.duplicatedBatches = s.diagnostics.duplicatedBatches)
    (hperm : t.handed.Perm s.handed) : t.Settled where
  degenerate := by
    rw [hdegenerate, h.degenerate, hsettings]
    exact (hperm.map _).sum_nat.symm
  duplicated := by
    rw [hduplicated, h.duplicated]
    exact (hperm.countP_eq _).symm

/-- A batch that is handed out is counted. -/
theorem Settled.of_perm_cons {t : State} (h : s.Settled) {b : Batch}
    (hsettings : t.settings = s.settings)
    (hdegenerate : t.diagnostics.degenerateTriangles =
      s.diagnostics.degenerateTriangles + b.flatCount s.settings.degenerateNormalEpsilon)
    (hduplicated : t.diagnostics.duplicatedBatches =
      s.diagnostics.duplicatedBatches + if b.duplicated then 1 else 0)
    (hperm : t.handed.Perm (b :: s.handed)) : t.Settled where
  degenerate := by
    rw [hdegenerate, h.degenerate, hsettings, (hperm.map _).sum_nat, List.map_cons, List.sum_cons,
      Nat.add_comm]
  duplicated := by
    rw [hduplicated, h.duplicated, hperm.countP_eq, List.countP_cons]

theorem Settled.flush (h : s.Settled) : s.flush.Settled := by
  rw [State.flush]
  split
  · exact h
  · next b hb =>
    dsimp only
    split
    · exact h.of_perm rfl rfl rfl (.refl _)
    · -- the batch that the node gets is the one that is counted
      have hdegenerate := congrArg (s.diagnostics.degenerateTriangles + ·) (b.snd_finish s.settings)
      exact h.of_perm_cons rfl hdegenerate rfl
        ((s.level.node.allBatches_hand _).append_right (s.outer.flatMap _))

theorem Settled.place (h : s.Settled) : s.place.Settled := by
  have hnode : ∀ (placement : Placement) (joint : Option Mat4),
      { s.level.node with placement, joint }.allBatches = s.level.node.allBatches := by
    intro placement joint
    rw [Node.allBatches_cons, Node.allBatches_cons]
  rw [State.place]
  split
  · refine h.of_perm rfl rfl rfl (.of_eq ?_)
    exact congrArg (· ++ s.outer.flatMap _) (hnode _ _)
  · refine h.of_perm rfl rfl rfl (.of_eq ?_)
    exact congrArg (· ++ s.outer.flatMap _) (hnode _ _)

theorem Settled.leave (h : s.Settled) {parent : Level} {outer : List Level}
    (houter : s.outer = parent :: outer) : (s.leave parent outer).Settled := by
  have hplaced := h.flush.place
  set t := s.flush.place with ht
  have htouter : t.outer = parent :: outer := by
    obtain ⟨d, hflush⟩ := s.exists_flush
    obtain ⟨placement, joint, d', hplace⟩ := s.flush.exists_place
    rw [ht, hplace, hflush, houter]
  refine hplaced.of_perm rfl rfl rfl ?_
  rw [handed, handed, levels, levels, htouter, List.flatMap_cons, List.flatMap_cons,
    List.flatMap_cons, ← List.append_assoc]
  exact (parent.node.allBatches_adopt t.level.node).append_right _

theorem Settled.extend (h : s.Settled) (signature : Signature) (m : Material)
    (ts : List (Triangle ℕ)) : ((s.flushUnless signature).extend m signature ts).Settled := by
  have hflush : (s.flushUnless signature).Settled := by
    rw [flushUnless]
    split
    · exact h
    · split
      · exact h
      · exact h.flush
  exact hflush.of_perm rfl rfl rfl (.refl _)

theorem Settled.addFace (h : s.Settled) (f : Face) : (s.addFace f).Settled := by
  rw [State.addFace]
  split
  · exact h.of_perm rfl rfl rfl (.refl _)
  · rw [addResolved]
    dsimp only
    split
    · exact h.extend _ _ _
    · have hremember : { s with level := s.level.remember }.Settled :=
        h.of_perm rfl rfl rfl (.refl _)
      exact hremember.extend _ _ _

theorem Settled.mark (h : s.Settled) (m : ScopeMark) : (s.mark m).Settled := by
  match m with
  | .clumpBegin =>
    refine h.of_perm rfl rfl rfl (.of_eq ?_)
    have hnew : ∀ name, (Node.new name).allBatches = [] := by
      intro name
      rw [Node.allBatches_cons, Node.new, Node.visit_nil]
      rfl
    exact congrArg (· ++ s.handed) (hnew _)
  | .transformBegin | .jointBegin | .identityJoint => exact h.of_perm rfl rfl rfl (.refl _)
  | .clumpEnd =>
    match houter : s.outer with
    | [] =>
      rw [mark_clumpEnd_of_nil houter]
      exact h.of_perm rfl rfl rfl (.refl _)
    | parent :: outer =>
      rw [mark_clumpEnd_of_cons houter]
      exact h.leave houter
  | .transformEnd =>
    rw [State.mark]
    split
    · exact h.of_perm rfl rfl rfl (.refl _)
    · exact h.of_perm rfl rfl rfl (.refl _)
  | .jointEnd =>
    rw [State.mark]
    split
    · exact h.of_perm rfl rfl rfl (.refl _)
    · exact h.of_perm rfl rfl rfl (.refl _)

theorem Settled.apply (h : s.Settled) (c : Command) : (s.apply c).Settled := by
  match c with
  | .face f => exact h.addFace f
  | .scope m => exact h.mark m
  | .vertex .. | .material _ | .rotateJoint .. => exact h.of_perm rfl rfl rfl (.refl _)
  | .transform t => cases t <;> exact h.of_perm rfl rfl rfl (.refl _)

theorem Settled.follow (h : s.Settled) (cs : List Command) : (s.follow cs).Settled := by
  induction cs generalizing s with
  | nil => exact h
  | cons c cs ih => exact ih (h.apply c)

theorem Settled.closeAll (h : s.Settled) {outer : List Level} (houter : s.outer = outer) :
    (s.closeAll outer).Settled := by
  induction outer generalizing s with
  | nil => exact h
  | cons parent outer ih =>
    set t := s.count fun d ↦ { d with autoClosedClumps := d.autoClosedClumps + 1 } with ht
    obtain ⟨placement, joint, d, hleave⟩ := t.exists_leave parent outer
    have hsettled : t.Settled := h.of_perm rfl rfl rfl (.refl _)
    exact ih (hsettled.leave houter) (by rw [hleave])

theorem settings_closeAll (s : State) {outer : List Level} :
    (s.closeAll outer).settings = s.settings := by
  induction outer generalizing s with
  | nil => rfl
  | cons parent outer ih =>
    set t := s.count fun d ↦ { d with autoClosedClumps := d.autoClosedClumps + 1 } with ht
    obtain ⟨placement, joint, d, hleave⟩ := t.exists_leave parent outer
    have hsettings : (t.leave parent outer).settings = s.settings := by
      rw [hleave]
      rfl
    exact (ih _).trans hsettings

/-- What was counted when batches were finished can be counted again in the finished tree. -/
theorem meters_finish (settings : Settings) (cs : List Command) :
    let scene := ((start settings).follow cs).finish
    scene.2.degenerateTriangles =
        (scene.1.allBatches.map (Batch.flatCount settings.degenerateNormalEpsilon)).sum ∧
      scene.2.duplicatedBatches = scene.1.allBatches.countP (·.duplicated) := by
  have hstart : (start settings).Settled := by
    have hhanded : (start settings).handed = [] := by
      rw [handed, levels, List.flatMap_cons, Node.allBatches_cons]
      simp [start, Level.opened, Node.new, Node.visit_nil]
    exact ⟨by rw [hhanded]; rfl, by rw [hhanded]; rfl⟩
  set s := (start settings).follow cs with hs
  have hclosed : (s.closeAll s.outer).Settled := (hstart.follow cs).closeAll rfl
  have hsettings : s.settings = settings := by
    rw [hs, ← run_map_command, settings_run]
    rfl
  set t := s.closeAll s.outer with ht
  obtain ⟨d, hflush⟩ := t.exists_flush
  have hhanded : t.flush.handed = t.flush.level.node.allBatches := by
    have houter : t.flush.outer = [] := by rw [hflush, ht, s.outer_closeAll rfl]
    rw [handed, levels, houter, List.flatMap_cons, List.flatMap_nil, List.append_nil]
  have heps : t.flush.settings = settings := by
    rw [hflush, ht, settings_closeAll, hsettings]
  obtain ⟨hdegenerate, hduplicated⟩ := hclosed.flush
  rw [hhanded] at hdegenerate hduplicated
  rw [heps] at hdegenerate
  exact ⟨hdegenerate, hduplicated⟩

end State

end RwxScene
