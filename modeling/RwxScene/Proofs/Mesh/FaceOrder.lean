import Mathlib
import RwxScene.Proofs.Mesh.Shading
import RwxScene.Proofs.Mesh.Slots
import RwxScene.Proofs.Space.Hull

/-!
# The order of faces

In another order the same triangles number their vertices in another way, and every vertex meets their
normals in another order. But a fold stays a fold: it is there just if the triangles, told over the
pool, fold at some offset (`Builder.folds_pushAll_iff`), and whether two of the normals at a place are
opposed does not depend on their order. So the same faces fold, as many triangles are degenerate, the
box is the same, and the triangles of a batch that folds are the same ones (`Builder.finish_of_perm`).
What may differ is the average of normals that do not fold, for a sum is rounded on its way.
-/

namespace RwxScene

namespace Triangle

variable {α β : Type}

theorem mem_toList_map_iff {f : α → β} {t : Triangle α} {x : β} :
    x ∈ (t.map f).toList ↔ ∃ a ∈ t.toList, f a = x := by
  rw [toList_map, List.mem_map]

theorem corner_map (f : α → β) (t : Triangle α) (k : Fin 3) : (t.map f).corner k = f (t.corner k) := by
  match k with
  | 0 | 1 | 2 => rfl

end Triangle

/-! ### Folds -/

namespace Normals

variable {faces : List (Triangle ℕ × Option Vec3)} {threshold : Scalar} {σ : ℕ → ℕ}

theorem hasCorner_map_iff {i : ℕ} {c : ℕ × Fin 3} {n : Vec3} :
    HasCorner (faces.map fun x ↦ (x.1.map σ, x.2)) i c n ↔
      ∃ o, σ o = i ∧ HasCorner faces o c n := by
  simp only [HasCorner, List.getElem?_map, Option.map_eq_some_iff]
  constructor
  · rintro ⟨u, ⟨⟨t, m⟩, hface, heq⟩, rfl⟩
    obtain ⟨rfl, rfl⟩ := Prod.mk.inj heq
    exact ⟨t.corner c.2, (t.corner_map σ c.2).symm, t, hface, rfl⟩
  · rintro ⟨o, rfl, t, hface, rfl⟩
    exact ⟨t.map σ, ⟨(t, some n), hface, rfl⟩, t.corner_map σ c.2⟩

/-- Other names for the corners make no fold and undo none. -/
theorem exists_foldsAt_map_iff
    (hσ : ∀ x ∈ faces, ∀ o ∈ x.1.toList, ∀ y ∈ faces, ∀ o' ∈ y.1.toList, σ o = σ o' → o = o') :
    (∃ i, FoldsAt threshold (faces.map fun x ↦ (x.1.map σ, x.2)) i) ↔
      ∃ o, FoldsAt threshold faces o := by
  constructor
  · rintro ⟨i, c, d, hne, n, m, hn, hm, hdot⟩
    obtain ⟨o, ho, t, ht, rfl⟩ := hasCorner_map_iff.1 hn
    obtain ⟨o', ho', u, hu, rfl⟩ := hasCorner_map_iff.1 hm
    have hsame : t.corner c.2 = u.corner d.2 :=
      hσ _ (List.mem_of_getElem? ht) _ (t.corner_mem_toList _) _ (List.mem_of_getElem? hu) _
        (u.corner_mem_toList _) (ho.trans ho'.symm)
    exact ⟨t.corner c.2, c, d, hne, n, m, ⟨t, ht, rfl⟩, ⟨u, hu, hsame.symm⟩, hdot⟩
  · rintro ⟨o, c, d, hne, n, m, hn, hm, hdot⟩
    exact ⟨σ o, c, d, hne, n, m, hasCorner_map_iff.2 ⟨o, rfl, hn⟩, hasCorner_map_iff.2 ⟨o, rfl, hm⟩,
      hdot⟩

/-- The order of the faces makes no fold and undoes none. -/
theorem foldsAt_of_perm {others : List (Triangle ℕ × Option Vec3)} (h : faces.Perm others) {o : ℕ}
    (hfold : FoldsAt threshold faces o) : FoldsAt threshold others o := by
  have hnormals : (normalsAt faces o).Perm (normalsAt others o) := (h.flatMap_right _).filterMap _
  rw [← opposed_normalsAt_iff, opposed_eq_true_iff] at hfold ⊢
  rwa [hnormals.pairwise_iff fun hnm ↦ dot_comm _ _ ▸ hnm] at hfold

end Normals

/-! ### Faces over a pool -/

namespace Builder

variable {pool : Pool} {b : Builder} {s : Settings} {ts us : List (Triangle ℕ)}

theorem exportedTriangles_eq (h : Handedness) (b : Builder) :
    b.exportedTriangles h = b.triangles.toList.map (exportedTriangle h) := by
  cases h with
  | right => exact (List.map_id _).symm
  | left => rfl

theorem exportedTriangle_map (h : Handedness) (f : ℕ → ℕ) (t : Triangle ℕ) :
    exportedTriangle h (t.map f) = (exportedTriangle h t).map f := by
  cases h <;> rfl

theorem mem_exportedTriangle {h : Handedness} {t : Triangle ℕ} {o : ℕ} :
    o ∈ (exportedTriangle h t).toList ↔ o ∈ t.toList := by
  cases h with
  | right => exact Iff.rfl
  | left =>
    simp only [exportedTriangle, Triangle.flip, Triangle.toList, List.mem_cons, List.not_mem_nil,
      or_false]
    tauto

/-- Where the vertex at an offset of the pool is in the finished scene. -/
def poolPoint (s : Settings) (pool : Pool) (offset : ℕ) : Vec3 :=
  s.handedness.point (pool.vertex offset).position

/-- A triangle of offsets as it is exported, with its normal. -/
def poolFace (s : Settings) (pool : Pool) (t : Triangle ℕ) : Triangle ℕ × Option Vec3 :=
  (exportedTriangle s.handedness t,
    Normals.ofCorners s.degenerateNormalEpsilon
      ((exportedTriangle s.handedness t).map (poolPoint s pool)))

/-- A face with its corners named by their slots. -/
def slotFace (b : Builder) (x : Triangle ℕ × Option Vec3) : Triangle ℕ × Option Vec3 :=
  (x.1.map b.slot, x.2)

theorem Keyed.position_eq (hb : b.Keyed pool) {o i : ℕ} (h : b.slots[o]? = some i) (s : Settings) :
    Normals.position (b.exportedPositions s.handedness) i = poolPoint s pool o := by
  rw [Normals.position, exportedPositions, Array.getElem?_map, hb.vertex o i h]
  rfl

/-- What the triangles of a builder are and which normals they have is told over the pool. -/
theorem exportedFaces_pushAll (s : Settings) (m : Material) (signature : Signature) (pool : Pool)
    (ts : List (Triangle ℕ)) :
    let b := (new m signature).pushAll pool ts
    b.exportedFaces s = (ts.map (poolFace s pool)).map b.slotFace := by
  intro b
  obtain ⟨hkeyed, -, hplaced, htriangles⟩ := (keyed_new pool m signature).relabels_pushAll ts
  rw [show (new m signature).triangles.toList = [] from rfl, List.nil_append] at htriangles
  rw [exportedFaces, exportedTriangles_eq, htriangles, List.map_map, List.map_map, List.map_map]
  refine List.map_congr_left fun t ht ↦ ?_
  have hposition : ∀ o ∈ (exportedTriangle s.handedness t).toList,
      Normals.position (b.exportedPositions s.handedness) (b.slot o) = poolPoint s pool o :=
    fun o ho ↦ hkeyed.position_eq (hplaced t ht o (mem_exportedTriangle.1 ho)) s
  simp only [Function.comp_apply, exportedTriangle_map, slotFace, poolFace, Normals.ofTriangle,
    Triangle.map_map]
  exact congrArg (fun u ↦ (_, Normals.ofCorners _ u)) (Triangle.map_congr hposition)

theorem pushAll_eq_fill (b : Builder) (pool : Pool) (ts : List (Triangle ℕ)) :
    b.pushAll pool ts = b.fill (ts.map (pool, ·)) := by
  rw [pushAll, fill, List.foldl_map]

/-- A builder folds just if its triangles do over the pool. -/
theorem folds_pushAll_iff (s : Settings) (m : Material) (signature : Signature) (pool : Pool)
    (ts : List (Triangle ℕ)) :
    ((new m signature).pushAll pool ts).folds s = true ↔
      m.mode = .double ∧
        ∃ o, Normals.FoldsAt s.opposingNormalDot (ts.map (poolFace s pool)) o := by
  have hrelabels := (keyed_new pool m signature).relabels_pushAll ts
  have hclosed : ((new m signature).pushAll pool ts).Closed :=
    pushAll_eq_fill _ pool ts ▸ closed_fill (closed_new m signature) _
  have hmaterial : ((new m signature).pushAll pool ts).material = m := by
    rw [pushAll_eq_fill, material_fill, new]
  rw [folds_iff hclosed, hmaterial, exportedFaces_pushAll]
  refine and_congr_right fun _ ↦ Normals.exists_foldsAt_map_iff fun x hx o ho y hy o' ho' heq ↦ ?_
  obtain ⟨t, ht, rfl⟩ := List.mem_map.1 hx
  obtain ⟨u, hu, rfl⟩ := List.mem_map.1 hy
  have hslot := hrelabels.placed t ht o (mem_exportedTriangle.1 ho)
  have hslot' := hrelabels.placed u hu o' (mem_exportedTriangle.1 ho')
  exact hrelabels.keyed.injective o o' _ hslot (heq ▸ hslot')

/-! ### Positions and triangles -/

/-- The positions of a batch are those of its corners, whether these share their vertices or not. -/
theorem mem_positions_finish_iff (s : Settings) (m : Material) (signature : Signature) (pool : Pool)
    (ts : List (Triangle ℕ)) {p : Vec3} :
    p ∈ (((new m signature).pushAll pool ts).finish s).1.positions ↔
      ∃ t ∈ ts, ∃ o ∈ t.toList, poolPoint s pool o = p := by
  obtain ⟨hkeyed, -, hplaced, htriangles⟩ := (keyed_new pool m signature).relabels_pushAll ts
  have hfaces := exportedFaces_pushAll s m signature pool ts
  have htight := (tight_new m signature).pushAll pool ts
  generalize (new m signature).pushAll pool ts = b at *
  have hposition : ∀ t ∈ ts, ∀ o ∈ t.toList,
      Normals.position (b.exportedPositions s.handedness) (b.slot o) = poolPoint s pool o :=
    fun t ht o ho ↦ hkeyed.position_eq (hplaced t ht o ho) s
  rw [finish_eq]
  show p ∈ (if b.folds s then b.ownBatch s else b.sharedBatch s).positions ↔ _
  split
  · constructor
    · intro hp
      obtain ⟨x, hx, rfl⟩ := Array.mem_map.1 hp
      obtain ⟨y, hy, hx⟩ := List.mem_flatMap.1 (List.mem_toArray.1 hx)
      rw [hfaces, List.map_map] at hy
      obtain ⟨t, ht, rfl⟩ := List.mem_map.1 hy
      obtain ⟨i, hi, rfl⟩ := List.mem_map.1 hx
      obtain ⟨o, ho, rfl⟩ := Triangle.mem_toList_map_iff.1 hi
      have ho := mem_exportedTriangle.1 ho
      exact ⟨t, ht, o, ho, (hposition t ht o ho).symm⟩
    · rintro ⟨t, ht, o, ho, rfl⟩
      rw [← hposition t ht o ho]
      have hface : b.slotFace (poolFace s pool t) ∈ b.exportedFaces s :=
        hfaces ▸ List.mem_map_of_mem (List.mem_map_of_mem ht)
      have hcorner : b.slot o ∈ (b.slotFace (poolFace s pool t)).1.toList :=
        Triangle.mem_toList_map_iff.2 ⟨o, mem_exportedTriangle.2 ho, rfl⟩
      exact Array.mem_map.2 ⟨_, List.mem_toArray.2
        (List.mem_flatMap.2 ⟨_, hface, List.mem_map_of_mem hcorner⟩), rfl⟩
  · have hget : ∀ i, (h : i < (b.exportedPositions s.handedness).size) →
        Normals.position (b.exportedPositions s.handedness) i =
          (b.exportedPositions s.handedness)[i] := fun i h ↦ by
      rw [Normals.position, Array.getElem?_eq_getElem h, Option.getD_some]
    constructor
    · intro hp
      obtain ⟨i, hi, rfl⟩ := Array.getElem_of_mem hp
      obtain ⟨u, hu, hiu⟩ := htight i (hi.trans_eq (size_exportedPositions _ b))
      rw [← Array.mem_toList_iff, htriangles] at hu
      obtain ⟨t, ht, rfl⟩ := List.mem_map.1 hu
      obtain ⟨o, ho, rfl⟩ := Triangle.mem_toList_map_iff.1 hiu
      exact ⟨t, ht, o, ho, (hposition t ht o ho).symm.trans (hget _ hi)⟩
    · rintro ⟨t, ht, o, ho, rfl⟩
      have hlt : b.slot o < (b.exportedPositions s.handedness).size :=
        (hkeyed.lt (hplaced t ht o ho)).trans_eq (size_exportedPositions _ b).symm
      rw [← hposition t ht o ho, hget _ hlt]
      exact Array.getElem_mem hlt

/-- Triangle by triangle a batch that folds is told over the pool. -/
theorem map_corner?_ownBatch (s : Settings) (m : Material) (signature : Signature) (pool : Pool)
    (ts : List (Triangle ℕ)) :
    let out := ((new m signature).pushAll pool ts).ownBatch s
    out.triangles.map (Triangle.map out.corner?) = (ts.map (poolFace s pool)).map fun x ↦
      x.1.map fun o ↦ some (s.handedness.vertex (pool.vertex o), x.2.getD .up) := by
  intro out
  obtain ⟨hkeyed, -, hplaced, htriangles⟩ := (keyed_new pool m signature).relabels_pushAll ts
  have hfaces := exportedFaces_pushAll s m signature pool ts
  have hout : out = ((new m signature).pushAll pool ts).ownBatch s := rfl
  generalize (new m signature).pushAll pool ts = b at *
  have hsize : b.triangles.size = ts.length := by
    rw [← Array.length_toList, htriangles]
    exact List.length_map _
  have hcorner : ∀ t ∈ ts, ∀ o ∈ t.toList, ∀ (i : ℕ) (n : Vec3),
      (ownCorners (b.exportedFaces s))[i]? = some (b.slot o, n) →
        out.corner? i = some (s.handedness.vertex (pool.vertex o), n) := by
    intro t ht o ho i n h
    have hslot := hplaced t ht o ho
    have hlt := hkeyed.lt hslot
    have hvertex := hkeyed.vertex o _ hslot
    rw [Array.getElem?_eq_getElem hlt, Option.some.injEq] at hvertex
    have hnormal : out.normals[i]? = some n := by simp [hout, ownBatch, h]
    rw [Batch.corner?, hnormal, hout, vertex?_ownBatch h hlt, hvertex]
    rfl
  rw [hout, triangles_ownBatch, ← hout, hsize]
  refine List.ext_getElem (by simp) fun k hk hk' ↦ ?_
  have hk : k < ts.length := by simpa using hk
  have ht : ts[k] ∈ ts := List.getElem_mem hk
  have hface : (b.exportedFaces s)[k]? = some (b.slotFace (poolFace s pool ts[k])) := by
    rw [hfaces, List.map_map, List.getElem?_map, List.getElem?_eq_getElem hk]
    rfl
  obtain ⟨h₁, h₂, h₃⟩ := getElem?_ownCorners hface
  have hmem : ∀ o ∈ (poolFace s pool ts[k]).1.toList, o ∈ ts[k].toList :=
    fun o ↦ mem_exportedTriangle.1
  simp only [List.getElem_map, List.getElem_range, Triangle.map]
  rw [hcorner _ ht _ (hmem _ (by simp [Triangle.toList])) _ _ h₁,
    hcorner _ ht _ (hmem _ (by simp [Triangle.toList])) _ _ h₂,
    hcorner _ ht _ (hmem _ (by simp [Triangle.toList])) _ _ h₃]

/-- There is a vertex with a normal at every corner of a batch that folds. -/
theorem isSome_corner?_ownBatch (s : Settings) (m : Material) (signature : Signature) (pool : Pool)
    (ts : List (Triangle ℕ)) :
    let out := ((new m signature).pushAll pool ts).ownBatch s
    ∀ t ∈ out.triangles, ∀ i ∈ t.toList, (out.corner? i).isSome := by
  intro out t ht i hi
  have htriangle : t.map out.corner? ∈ out.triangles.map (Triangle.map out.corner?) :=
    List.mem_map_of_mem ht
  rw [map_corner?_ownBatch] at htriangle
  obtain ⟨x, -, hx⟩ := List.mem_map.1 htriangle
  have hcorner : out.corner? i ∈ (t.map out.corner?).toList :=
    Triangle.mem_toList_map_iff.2 ⟨i, hi, rfl⟩
  rw [← hx] at hcorner
  obtain ⟨o, -, ho⟩ := Triangle.mem_toList_map_iff.1 hcorner
  rw [← ho, Option.isSome_some]

/-! ### Finishing -/

theorem duplicated_finish (s : Settings) (b : Builder) : (b.finish s).1.duplicated = b.folds s := by
  rw [finish_eq]
  show (if b.folds s then b.ownBatch s else b.sharedBatch s).duplicated = _
  cases b.folds s <;> rfl

theorem bounds_finish (s : Settings) (b : Builder) :
    (b.finish s).1.bounds = .ofPoints (b.finish s).1.positions.toList := by
  rw [finish_eq]
  show (if b.folds s then b.ownBatch s else b.sharedBatch s).bounds =
    .ofPoints (if b.folds s then b.ownBatch s else b.sharedBatch s).positions.toList
  cases b.folds s <;> rfl

theorem finish_of_folds (hfolds : b.folds s = true) : (b.finish s).1 = b.ownBatch s := by
  rw [finish_eq, if_pos hfolds]

/-- **Where a surface folds does not depend on the order of its faces.** The same triangles in another
order fold or do not fold as before, as many of them are degenerate, and the box around them is the
same but for the signs of zeros. If they fold, the triangles that are handed out are the same, each
with its positions, texture coordinates and normals. -/
theorem finish_of_perm (s : Settings) (m : Material) (signature : Signature) (pool : Pool)
    {ts us : List (Triangle ℕ)} (h : ts.Perm us) :
    let b := ((new m signature).pushAll pool ts).finish s
    let c := ((new m signature).pushAll pool us).finish s
    b.1.duplicated = c.1.duplicated ∧ b.2 = c.2 ∧ b.1.bounds.Alike c.1.bounds ∧
      (b.1.duplicated = true →
        (∀ t ∈ b.1.triangles, ∀ i ∈ t.toList, (b.1.corner? i).isSome) ∧
          (b.1.triangles.map (Triangle.map b.1.corner?)).Perm
            (c.1.triangles.map (Triangle.map c.1.corner?))) := by
  intro b c
  have hfaces : (ts.map (poolFace s pool)).Perm (us.map (poolFace s pool)) := h.map _
  have hfolds : ((new m signature).pushAll pool ts).folds s =
      ((new m signature).pushAll pool us).folds s := by
    rw [Bool.eq_iff_iff, folds_pushAll_iff, folds_pushAll_iff]
    exact and_congr_right fun _ ↦
      exists_congr fun o ↦ ⟨Normals.foldsAt_of_perm hfaces, Normals.foldsAt_of_perm hfaces.symm⟩
  have hduplicated : b.1.duplicated = c.1.duplicated := by
    rw [duplicated_finish, duplicated_finish, hfolds]
  refine ⟨hduplicated, ?_, ?_, fun hb ↦ ?_⟩
  · simp only [b, c, finish_eq, exportedFaces_pushAll, List.countP_map]
    exact h.countP_eq _
  · rw [bounds_finish, bounds_finish]
    refine Bounds.alike_ofPoints fun p ↦ ?_
    rw [Array.mem_toList_iff, Array.mem_toList_iff, mem_positions_finish_iff,
      mem_positions_finish_iff]
    simp only [h.mem_iff]
  · have hc : c.1.duplicated = true := hduplicated ▸ hb
    rw [duplicated_finish] at hb hc
    simp only [b, c, finish_of_folds hb, finish_of_folds hc, map_corner?_ownBatch]
    exact ⟨isSome_corner?_ownBatch s m signature pool ts, hfaces.map _⟩

/-- Two triangles with a common edge that lie on one another. The first triangle numbers the ends of the
edge, whichever it is. -/
theorem finish_of_perm_edge :
    let m : Material := { Material.initial with mode := .double }
    let pool : Pool :=
      #[⟨⟨0, 0, 0⟩, .zero⟩, ⟨⟨1, 0, 0⟩, .zero⟩, ⟨⟨0, 1, 0⟩, .zero⟩, ⟨⟨0, 2, 0⟩, .zero⟩]
    let b := ((new m m.signature).pushAll pool [⟨0, 1, 2⟩, ⟨1, 0, 3⟩]).finish .initial
    let c := ((new m m.signature).pushAll pool [⟨1, 0, 3⟩, ⟨0, 1, 2⟩]).finish .initial
    [(⟨0, 1, 2⟩ : Triangle ℕ), ⟨1, 0, 3⟩].Perm [⟨1, 0, 3⟩, ⟨0, 1, 2⟩] ∧ b.1.duplicated = true ∧
      (b.1.triangles.map (Triangle.map b.1.corner?)).Perm
        (c.1.triangles.map (Triangle.map c.1.corner?)) := by
  intro m pool b c
  have hperm : [(⟨0, 1, 2⟩ : Triangle ℕ), ⟨1, 0, 3⟩].Perm [⟨1, 0, 3⟩, ⟨0, 1, 2⟩] := .swap _ _ []
  have hduplicated : b.1.duplicated = true := by decide +kernel
  exact ⟨hperm, hduplicated,
    ((finish_of_perm .initial m m.signature pool hperm).2.2.2 hduplicated).2⟩

end Builder

end RwxScene
