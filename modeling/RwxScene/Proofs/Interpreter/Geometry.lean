import RwxScene.Proofs.Interpreter.Clumpwise
import RwxScene.Proofs.Mesh.Batch

/-!
# Geometry is kept

The triangles of a node are those that the entries of its clump draw, in their order and over the
vertices of that clump (`tree_corners`). None is lost, drawn twice or drawn over vertices of another
clump, whatever materials and clumps came in between and wherever batches were begun and ended.
-/

namespace RwxScene

namespace Level

variable (settings : Settings) {l : Level}

/-- The corners of the batches, those that the open batch is going to have included. -/
theorem corners_batches {b : Builder} (hl : l.batch = some b) (hb : b.WellFormed l.pool) :
    (l.batches settings).flatMap Batch.corners =
      l.node.batches.flatMap Batch.corners ++ b.corners.map settings.handedness.triangle := by
  have hopen : (l.openBatch settings).flatMap Batch.corners =
      b.corners.map settings.handedness.triangle := by
    rw [openBatch, hl]
    show (if b.isEmpty = true then [] else [(b.finish settings).1]).flatMap Batch.corners = _
    by_cases he : b.isEmpty = true
    · have hempty : b.triangles = #[] := Array.isEmpty_iff.1 he
      rw [if_pos he, Builder.corners, hempty]
      rfl
    · rw [if_neg he, List.flatMap_singleton, Builder.corners_finish hb]
  rw [batches, List.flatMap_append, hopen]

/-- Triangles are appended to those of the clump, whether or not a new batch begins with them. -/
theorem corners_join (h : l.WellFormed) (m : Material) {ts : List (Triangle Nat)}
    (hts : ∀ t ∈ ts, ∀ o ∈ t.toList, o < l.pool.size) :
    ((l.join settings m m.signature ts).batches settings).flatMap Batch.corners =
      (l.batches settings).flatMap Batch.corners ++
        (ts.map (Triangle.map (l.pool[·]?))).map settings.handedness.triangle := by
  have hnew := Builder.wellFormed_new l.pool m
  have hfresh : ((Builder.new m m.signature).pushAll l.pool ts).corners =
      ts.map (Triangle.map (l.pool[·]?)) := (Builder.adds_pushAll hnew hts).corners
  cases hb : l.batch with
  | none =>
    have hnone : l.batches settings = l.node.batches := by
      rw [batches, openBatch, hb]
      exact List.append_nil _
    rw [join_of_none settings m ts hb, hnone, ← hfresh]
    exact corners_batches settings rfl (hnew.pushAll hts)
  | some b =>
    have hwf : b.WellFormed l.pool := h.batch b hb
    by_cases hsig : b.signature = m.signature
    · -- the open batch ends with the new triangles
      rw [join_of_eq settings m ts hb hsig, corners_batches settings hb hwf, List.append_assoc,
        ← List.map_append, ← (Builder.adds_pushAll hwf hts).corners]
      exact corners_batches settings rfl (hwf.pushAll hts)
    · -- the open batch goes to the node, and the new one has nothing but the new triangles
      rw [join_of_ne settings m ts hb hsig, ← hfresh]
      exact corners_batches settings rfl (hnew.pushAll hts)

end Level

/-- A clump has the triangles that its entries draw. -/
theorem clumpwise_corners (settings : Settings) :
    Clumpwise settings (fun _ ↦ True) Level.WellFormed fun bs es ↦
      bs.flatMap Batch.corners = (triangles es).map settings.handedness.triangle where
  stable := Level.stable_wellFormed settings
  nil := rfl
  skip bs es e he hbs := by
    rw [hbs, triangles_concat, he]
    simp
  draw l es e f offsets _ hl hpool hf he hbs := by
    obtain ⟨memo, hmemo, hdraw⟩ := hl.draw_eq settings f offsets
    have hjoin := Level.corners_join settings (l := { l with memo })
      ⟨hmemo, hl.batch⟩ (l.faceMaterial f.tag) (Level.lt_of_mem_triangulate hf)
    have htriangles : Drawn.triangles (vertices es) ⟨f, l.material⟩ =
        (f.shape.triangulate offsets).map (Triangle.map (l.pool[·]?)) := by
      rw [Drawn.triangles, (Pool.resolve_eq_some_iff.1 hf).2, ← hpool]
      simp only [Array.getElem?_toList]
    rw [triangles_concat, he, List.map_append, ← hbs, hdraw, hjoin]
    simp only [Option.toList_some, List.flatMap_singleton, htriangles]
    rfl

/-- **Geometry is kept.** The nodes of a finished tree are the root and the clumps in the order in
which they were opened; each has exactly the triangles that its own commands draw, over its own
vertices, brought to the handedness of the scene. -/
theorem tree_corners (settings : Settings) (as : List Action) :
    ((State.start settings).run as).finish.1.walk.length = (journal settings as).opened + 1 ∧
      ∀ (k : Nat) (n : Node), ((State.start settings).run as).finish.1.walk[k]? = some n →
        n.name = nodeName k ∧
          n.batches.flatMap Batch.corners =
            (triangles (own (journal settings as).entries k)).map settings.handedness.triangle ∧
          ∀ t ∈ triangles (own (journal settings as).entries k), ∀ v ∈ t.toList, v.isSome := by
  obtain ⟨hlength, hnodes⟩ := (clumpwise_corners settings).tree as fun _ _ _ _ ↦ trivial
  refine ⟨hlength, fun k n hn ↦ ?_⟩
  obtain ⟨hname, hcorners⟩ := hnodes k n hn
  exact ⟨hname, hcorners, fun _ ht ↦ isSome_of_mem_triangles ht⟩

end RwxScene
