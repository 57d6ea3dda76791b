import Mathlib.Data.List.Forall2
import RwxScene.Proofs.Mesh.SelfContained
import RwxScene.Proofs.Space.Mirror

/-!
# Batches in the mirror

A builder that is finished for a left-handed scene gives the mirror image of what it gives for a
right-handed one (`Builder.mirrorOf_finish`). Positions are mirrored bit for bit, and so triangle by
triangle the normals are those of the mirrored triangles, up to the signs of zeros. What is decided by
them is decided by lengths and inner products: which triangles are degenerate, where normals are
opposed, and to which side one is turned before it is added.

The corners of a flipped triangle come in another order. This is of no consequence where a vertex
gathers its normals, since the three corners of a triangle have the same one; where every triangle has
vertices of its own, the vertices come in that order too, and the box around them is grown by them in
that order.
-/

namespace RwxScene

open List (Forall₂)

/-! ### Lists -/

section Modify

variable {α β : Type} {R : α → β → Prop}

theorem forall₂_modify {f : α → α} {g : β → β} (hfg : ∀ a b, R a b → R (f a) (g b)) {l : List α}
    {m : List β} (h : Forall₂ R l m) (i : Nat) : Forall₂ R (l.modify i f) (m.modify i g) := by
  induction h generalizing i with
  | nil =>
    rw [List.modify_nil, List.modify_nil]
    exact .nil
  | cons hab hrest ih =>
    cases i with
    | zero => exact .cons (hfg _ _ hab) hrest
    | succ i => exact .cons hab (ih i)

theorem modify_comm (f : α → α) (l : List α) (i j : Nat) :
    (l.modify i f).modify j f = (l.modify j f).modify i f := by
  refine List.ext_getElem? fun k ↦ ?_
  simp only [List.getElem?_modify]
  cases l[k]? with
  | none => rfl
  | some a => by_cases hi : i = k <;> by_cases hj : j = k <;> simp [hi, hj]

end Modify

/-! ### Normals -/

namespace Normals

/-- A triangle with its normal, seen in the mirror. -/
structure FaceImage (x y : Triangle Nat × Option Vec3) : Prop where
  triangle : x.1 = y.1.flip
  normal : Option.Rel (Vec3.Image true) x.2 y.2

/-- Normals of a vertex, seen in the mirror. -/
abbrev Images : List Vec3 → List Vec3 → Prop := Forall₂ (Vec3.Image true)

/-- The flipped triangle over mirrored positions has the mirrored normal. -/
theorem image_ofTriangle {ps qs : Array Vec3}
    (h : ∀ i, Vec3.Image true (position ps i) (position qs i)) (epsilon : Scalar)
    (t : Triangle Nat) :
    Option.Rel (Vec3.Image true) (ofTriangle epsilon ps t.flip) (ofTriangle epsilon qs t) :=
  (((h t.third).sub (h t.first)).cross_swap ((h t.second).sub (h t.first))).normalize? epsilon

/-- A triangle that has a normal puts it in front at each of its corners. -/
theorem gather_incidences_cons (size : Nat) (t : Triangle Nat) (n : Vec3)
    (faces : List (Triangle Nat × Option Vec3)) :
    (gather size (incidences ((t, some n) :: faces))).toList =
      (((gather size (incidences faces)).toList.modify t.third (n :: ·)).modify t.second
        (n :: ·)).modify t.first (n :: ·) := by
  simp only [gather, incidences, List.flatMap_cons, Triangle.toList, List.map_cons, List.map_nil,
    List.cons_append, List.nil_append, List.foldr_cons, Array.toList_modify]

/-- The normals that meet at the vertices are mirrored. -/
theorem images_gather (size : Nat) {xs ys : List (Triangle Nat × Option Vec3)}
    (h : Forall₂ FaceImage xs ys) :
    Forall₂ Images (gather size (incidences xs)).toList (gather size (incidences ys)).toList := by
  induction h with
  | nil =>
    refine List.forall₂_same.2 fun l hl ↦ ?_
    obtain rfl : l = [] := (Array.mem_replicate.1 (Array.mem_toList_iff.1 hl)).2
    exact .nil
  | @cons x y xs ys hxy _ ih =>
    obtain ⟨t, n⟩ := x
    obtain ⟨u, m⟩ := y
    obtain ⟨rfl, hnormal⟩ := hxy
    cases hnormal with
    | none => exact ih
    | some hnm =>
      have hcons := fun l k (h : Images l k) ↦ Forall₂.cons hnm h
      -- the second and the third corner are met in the other order
      rw [gather_incidences_cons, gather_incidences_cons, modify_comm _ _ u.third]
      exact forall₂_modify hcons (forall₂_modify hcons (forall₂_modify hcons ih _) _) _

theorem any_dot_lt_eq {n m : Vec3} (hnm : Vec3.Image true n m) {ns ms : List Vec3}
    (h : Images ns ms) (threshold : Scalar) :
    (ns.any fun k ↦ n.dot k < threshold) = ms.any fun k ↦ m.dot k < threshold := by
  induction h with
  | nil => rw [List.any_nil, List.any_nil]
  | @cons k l _ _ hkl _ ih =>
    have hlt : decide (n.dot k < threshold) = decide (m.dot l < threshold) :=
      decide_eq_decide.2 ((hnm.dot hkl).lt_iff (.refl threshold))
    rw [List.any_cons, List.any_cons, hlt, ih]

theorem opposed_eq {ns ms : List Vec3} (h : Images ns ms) (threshold : Scalar) :
    opposed threshold ns = opposed threshold ms := by
  induction h with
  | nil => rfl
  | cons hnm hrest ih => rw [opposed, opposed, any_dot_lt_eq hnm hrest, ih]

theorem image_alignedSum {ns ms : List Vec3} (h : Images ns ms) :
    Vec3.Image true (alignedSum ns) (alignedSum ms) := by
  have hfoldl : ∀ {a b : Vec3}, Vec3.Image true a b →
      Vec3.Image true (ns.foldl (fun sum n ↦ if sum.dot n < 0 then sum - n else sum + n) a)
        (ms.foldl (fun sum n ↦ if sum.dot n < 0 then sum - n else sum + n) b) := by
    induction h with
    | nil => exact id
    | cons hnm _ ih =>
      intro a b hab
      rw [List.foldl_cons, List.foldl_cons]
      refine ih ?_
      simp only [(hab.dot hnm).lt_iff (.refl 0)]
      split
      · exact hab.sub hnm
      · exact hab.add hnm
  exact hfoldl .zero

/-- A normal, or the direction upward in its place. -/
theorem image_getD {n m : Option Vec3} (h : Option.Rel (Vec3.Image true) n m) :
    Vec3.Image true (n.getD .up) (m.getD .up) := by
  cases h with
  | none => exact .up
  | some h => exact h

theorem image_average {ns ms : List Vec3} (h : Images ns ms) (epsilon : Scalar) :
    Vec3.Image true (average epsilon ns) (average epsilon ms) :=
  image_getD ((image_alignedSum h).normalize? epsilon)

/-- Where normals are opposed is seen in the mirror as well. -/
theorem any_opposed_eq {xs ys : Array (List Vec3)} (h : Forall₂ Images xs.toList ys.toList)
    (threshold : Scalar) : xs.any (opposed threshold) = ys.any (opposed threshold) := by
  have hany : ∀ {l k : List (List Vec3)}, Forall₂ Images l k →
      l.any (opposed threshold) = k.any (opposed threshold) := by
    intro l k hlk
    induction hlk with
    | nil => rfl
    | cons hns _ ih => rw [List.any_cons, List.any_cons, ih, opposed_eq hns]
  rw [← Array.any_toList, ← Array.any_toList, hany h]

/-- The average normals of two vertices at one place. -/
theorem exists_average {xs ys : Array (List Vec3)}
    (h : Forall₂ Images xs.toList ys.toList) {i : Nat} (hi : i < xs.size) (epsilon : Scalar) :
    ∃ n m, (xs.map (average epsilon))[i]? = some n ∧ (ys.map (average epsilon))[i]? = some m ∧
      Vec3.Image true n m := by
  obtain ⟨hlength, hget⟩ := List.forall₂_iff_get.1 h
  have hi' : i < ys.size := Nat.lt_of_lt_of_eq hi hlength
  exact ⟨_, _, by simp [hi], by simp [hi'], image_average (hget i hi hi') epsilon⟩

end Normals

/-! ### Batches -/

namespace Batch

/-- The vertex at a place with its normal, if there is one. -/
def corner? (b : Batch) (i : Nat) : Option (Vertex × Vec3) := do
  return (← b.vertex? i, ← b.normals[i]?)

/-- There is a corner at both places, and the first one is the mirror image of the second. -/
def CornerMirrorOf (x y : Option (Vertex × Vec3)) : Prop :=
  ∃ c d, x = some c ∧ y = some d ∧ c.1 = d.1.mirror ∧ c.2.Alike d.2.mirror

/-- The batch is the mirror image of the other one. The mirror image of a triangle is wound the other
way round: its second and third corner change places. -/
structure MirrorOf (b c : Batch) : Prop where
  material : b.material = c.material
  signature : b.signature = c.signature
  tag : b.tag = c.tag
  duplicated : b.duplicated = c.duplicated
  vertexCount : b.vertexCount = c.vertexCount
  triangleCount : b.triangleCount = c.triangleCount
  triangles : Forall₂ (fun t u ↦ CornerMirrorOf (b.corner? t.first) (c.corner? u.first) ∧
    CornerMirrorOf (b.corner? t.second) (c.corner? u.third) ∧
    CornerMirrorOf (b.corner? t.third) (c.corner? u.second)) b.triangles c.triangles
  bounds : b.bounds.Alike c.bounds.mirror

theorem CornerMirrorOf.intro {b c : Batch} {i j : Nat} {v : Vertex} {n m : Vec3}
    (hb : b.vertex? i = some v.mirror) (hc : c.vertex? j = some v) (hn : b.normals[i]? = some n)
    (hm : c.normals[j]? = some m) (hnm : Vec3.Image true n m) :
    CornerMirrorOf (b.corner? i) (c.corner? j) := by
  refine ⟨(v.mirror, n), (v, m), ?_, ?_, rfl, hnm.alike⟩
  · rw [corner?, hb, hn]
    rfl
  · rw [corner?, hc, hm]
    rfl

end Batch

namespace Builder

variable {pool : Pool} {b : Builder}

theorem exportedPositions_left (b : Builder) :
    b.exportedPositions .left = (b.exportedPositions .right).map Vec3.mirror := by
  simp only [exportedPositions, Array.map_map]
  rfl

theorem image_position (b : Builder) (i : Nat) :
    Vec3.Image true (Normals.position (b.exportedPositions .left) i)
      (Normals.position (b.exportedPositions .right) i) := by
  rw [exportedPositions_left, Normals.position, Normals.position, Array.getElem?_map]
  cases (b.exportedPositions .right)[i]? with
  | none => exact .zero
  | some p => exact p.image_mirror

theorem faceImages (s : Settings) (b : Builder) :
    Forall₂ Normals.FaceImage (b.exportedFaces { s with handedness := .left })
      (b.exportedFaces { s with handedness := .right }) := by
  simp only [exportedFaces, exportedTriangles, List.map_map, List.forall₂_map_left_iff,
    List.forall₂_map_right_iff]
  exact List.forall₂_same.2 fun t _ ↦ ⟨rfl, Normals.image_ofTriangle b.image_position _ t⟩

theorem countP_isNone_eq {xs ys : List (Triangle Nat × Option Vec3)}
    (h : Forall₂ Normals.FaceImage xs ys) :
    xs.countP (·.2.isNone) = ys.countP (·.2.isNone) := by
  induction h with
  | nil => rfl
  | cons hxy _ ih =>
    have hnone : ∀ {n m : Option Vec3}, Option.Rel (Vec3.Image true) n m → n.isNone = m.isNone :=
      fun h ↦ by cases h <;> rfl
    rw [List.countP_cons, List.countP_cons, ih, hnone hxy.normal]

theorem size_exportedPositions (h : Handedness) (b : Builder) :
    (b.exportedPositions h).size = b.vertices.size := Array.size_map

/-! ### Shared vertices -/

/-- The batch in which triangles share their vertices. -/
def sharedBatch (s : Settings) (b : Builder) : Batch where
  positions := b.exportedPositions s.handedness
  uvs := b.vertices.map Vertex.uv
  normals := (Normals.gather b.vertices.size (Normals.incidences (b.exportedFaces s))).map
    (Normals.average s.degenerateNormalEpsilon)
  indices := ((b.exportedFaces s).flatMap (·.1.toList)).toArray
  material := b.material
  signature := b.signature
  tag := b.material.tag
  bounds := .ofPoints (b.exportedPositions s.handedness).toList
  duplicated := false

theorem triangles_sharedBatch (s : Settings) (b : Builder) :
    (b.sharedBatch s).triangles = b.exportedTriangles s.handedness := by
  rw [Batch.triangles, sharedBatch, List.toList_toArray, flatMap_exportedFaces,
    Triangle.ofList_flatMap_toList]

theorem vertex?_sharedBatch {i : Nat} (hi : i < b.vertices.size) (s : Settings) :
    (b.sharedBatch s).vertex? i = some (s.handedness.vertex b.vertices[i]) := by
  rw [Batch.vertex?]
  exact (vertex?_map s.handedness b.vertices i).trans (by simp [hi])

/-- A vertex that triangles share is mirrored in place. -/
theorem cornerMirrorOf_sharedBatch {i : Nat} (hi : i < b.vertices.size) (s : Settings) :
    Batch.CornerMirrorOf ((b.sharedBatch { s with handedness := .left }).corner? i)
      ((b.sharedBatch { s with handedness := .right }).corner? i) := by
  have hgather := Normals.images_gather b.vertices.size (b.faceImages s)
  obtain ⟨n, m, hn, hm, hnm⟩ := Normals.exists_average hgather (Nat.lt_of_lt_of_eq hi
    (size_gather _ _).symm) s.degenerateNormalEpsilon
  exact .intro (vertex?_sharedBatch hi _) (vertex?_sharedBatch hi _) hn hm hnm

/-- The corners of a triangle have vertices. -/
theorem WellFormed.lt_of_mem (hb : b.WellFormed pool) {t : Triangle Nat} (ht : t ∈ b.triangles) :
    t.first < b.vertices.size ∧ t.second < b.vertices.size ∧ t.third < b.vertices.size := by
  have hlt := (wellFormed_iff.1 hb).2.1 t ht
  exact ⟨hlt _ (by simp [Triangle.toList]), hlt _ (by simp [Triangle.toList]),
    hlt _ (by simp [Triangle.toList])⟩

theorem WellFormed.mirrorOf_sharedBatch (hb : b.WellFormed pool) (s : Settings) :
    (b.sharedBatch { s with handedness := .left }).MirrorOf
      (b.sharedBatch { s with handedness := .right }) := by
  refine ⟨rfl, rfl, rfl, rfl, ?_, ?_, ?_, ?_⟩
  · exact (size_exportedPositions _ b).trans (size_exportedPositions _ b).symm
  · simp only [Batch.triangleCount, sharedBatch, List.size_toArray, length_flatMap_toList,
      length_exportedFaces]
  · rw [triangles_sharedBatch, triangles_sharedBatch]
    refine List.forall₂_map_left_iff.2 (List.forall₂_same.2 fun t ht ↦ ?_)
    obtain ⟨h₁, h₂, h₃⟩ := hb.lt_of_mem (Array.mem_toList_iff.1 ht)
    exact ⟨cornerMirrorOf_sharedBatch h₁ s, cornerMirrorOf_sharedBatch h₃ s,
      cornerMirrorOf_sharedBatch h₂ s⟩
  · simp only [sharedBatch, exportedPositions_left, Array.toList_map, Bounds.ofPoints_map_mirror]
    exact .refl _

/-! ### Vertices of their own -/

/-- The corners of triangles in a row, each with the normal of its triangle. -/
def ownCorners (faces : List (Triangle Nat × Option Vec3)) : List (Nat × Vec3) :=
  faces.flatMap fun x ↦ x.1.toList.map (·, x.2.getD .up)

theorem ownCorners_cons (t : Triangle Nat) (n : Option Vec3)
    (faces : List (Triangle Nat × Option Vec3)) : ownCorners ((t, n) :: faces) =
      (t.first, n.getD .up) :: (t.second, n.getD .up) :: (t.third, n.getD .up) ::
        ownCorners faces := rfl

/-- The batch in which every triangle has vertices of its own. -/
def ownBatch (s : Settings) (b : Builder) : Batch :=
  let corners := (ownCorners (b.exportedFaces s)).toArray
  let positions := corners.map fun x ↦ Normals.position (b.exportedPositions s.handedness) x.1
  { positions
    uvs := corners.map fun x ↦ (b.vertices.map Vertex.uv)[x.1]?.getD .zero
    normals := corners.map (·.2)
    indices := Array.range corners.size
    material := b.material
    signature := b.signature
    tag := b.material.tag
    bounds := .ofPoints positions.toList
    duplicated := true }

/-- Counting through the vertices of `n` triangles. -/
theorem ofList_range (n : Nat) : Triangle.ofList (List.range (3 * n)) =
    (List.range n).map fun k ↦ ⟨3 * k, 3 * k + 1, 3 * k + 2⟩ := by
  have hrange : List.range (3 * n) =
      ((List.range n).map fun k ↦ (⟨3 * k, 3 * k + 1, 3 * k + 2⟩ : Triangle Nat)).flatMap
        Triangle.toList := by
    induction n with
    | zero => rfl
    | succ n ih =>
      rw [List.range_succ, List.map_append, List.flatMap_append, ← ih, Nat.mul_succ,
        List.range_succ, List.range_succ, List.range_succ]
      simp [Triangle.toList]
  rw [hrange, Triangle.ofList_flatMap_toList]

theorem size_ownCorners (s : Settings) (b : Builder) :
    (ownCorners (b.exportedFaces s)).toArray.size = 3 * b.triangles.size := by
  rw [List.size_toArray, ownCorners, length_flatMap_corners, length_exportedFaces]

theorem triangles_ownBatch (s : Settings) (b : Builder) : (b.ownBatch s).triangles =
    (List.range b.triangles.size).map fun k ↦ ⟨3 * k, 3 * k + 1, 3 * k + 2⟩ := by
  rw [Batch.triangles, ownBatch, size_ownCorners, Array.toList_range, ofList_range]

theorem vertex?_ownBatch {s : Settings} {i k : Nat} {n : Vec3}
    (h : (ownCorners (b.exportedFaces s))[i]? = some (k, n)) (hk : k < b.vertices.size) :
    (b.ownBatch s).vertex? i = some (s.handedness.vertex b.vertices[k]) := by
  simp [Batch.vertex?, ownBatch, h, Normals.position, exportedPositions, hk,
    Handedness.vertex_eq]

/-- A vertex that one triangle has for itself, at whatever place. -/
theorem cornerMirrorOf_ownBatch {s : Settings} {i j k : Nat} {n m : Vec3}
    (hi : (ownCorners (b.exportedFaces { s with handedness := .left }))[i]? = some (k, n))
    (hj : (ownCorners (b.exportedFaces { s with handedness := .right }))[j]? = some (k, m))
    (hk : k < b.vertices.size) (hnm : Vec3.Image true n m) :
    Batch.CornerMirrorOf ((b.ownBatch { s with handedness := .left }).corner? i)
      ((b.ownBatch { s with handedness := .right }).corner? j) :=
  .intro (vertex?_ownBatch hi hk) (vertex?_ownBatch hj hk) (by simp [ownBatch, hi])
    (by simp [ownBatch, hj]) hnm

/-- The three corners of a triangle in the row. -/
theorem getElem?_ownCorners {faces : List (Triangle Nat × Option Vec3)} {k : Nat} {t : Triangle Nat}
    {n : Option Vec3} (h : faces[k]? = some (t, n)) :
    (ownCorners faces)[3 * k]? = some (t.first, n.getD .up) ∧
      (ownCorners faces)[3 * k + 1]? = some (t.second, n.getD .up) ∧
        (ownCorners faces)[3 * k + 2]? = some (t.third, n.getD .up) := by
  have hthree := getElem?_flatMap_three
    (fun x : Triangle Nat × Option Vec3 ↦ (x.1.first, x.2.getD .up))
    (fun x ↦ (x.1.second, x.2.getD .up)) (fun x ↦ (x.1.third, x.2.getD .up)) faces k
  rw [h] at hthree
  exact hthree

/-- A triangle as it is exported. -/
def exportedTriangle (h : Handedness) (t : Triangle Nat) : Triangle Nat :=
  match h with
  | .right => t
  | .left => t.flip

theorem getElem?_exportedFaces (s : Settings) {k : Nat} (hk : k < b.triangles.size) :
    (b.exportedFaces s)[k]? = some (exportedTriangle s.handedness b.triangles[k],
      Normals.ofTriangle s.degenerateNormalEpsilon (b.exportedPositions s.handedness)
        (exportedTriangle s.handedness b.triangles[k])) := by
  rw [exportedFaces]
  cases s.handedness with
  | right => simp [exportedTriangles, exportedTriangle, hk]
  | left => simp [exportedTriangles, exportedTriangle, hk]

/-- The box around the vertices of flipped triangles is the mirrored one. -/
theorem alike_ofPoints_ownCorners {xs ys : List (Triangle Nat × Option Vec3)} {ps qs : Array Vec3}
    (hpos : ∀ i, Vec3.Image true (Normals.position ps i) (Normals.position qs i))
    (hfaces : Forall₂ Normals.FaceImage xs ys) :
    (Bounds.ofPoints ((ownCorners xs).map fun x ↦ Normals.position ps x.1)).Alike
      (Bounds.ofPoints ((ownCorners ys).map fun x ↦ Normals.position qs x.1)).mirror := by
  have hfoldl : ∀ {b c : Bounds}, b.Alike c.mirror →
      (((ownCorners xs).map fun x ↦ Normals.position ps x.1).foldl Bounds.grow b).Alike
        (((ownCorners ys).map fun x ↦ Normals.position qs x.1).foldl Bounds.grow c).mirror := by
    induction hfaces with
    | nil => exact id
    | @cons x y xs ys hxy _ ih =>
      intro b c hbc
      obtain ⟨t, n⟩ := x
      obtain ⟨u, m⟩ := y
      obtain rfl : t = u.flip := hxy.triangle
      simp only [ownCorners_cons, List.map_cons, List.foldl_cons, Triangle.flip]
      refine ih ?_
      have hgrown := ((hbc.grow (hpos u.first).alike).grow (hpos u.third).alike).grow
        (hpos u.second).alike
      refine hgrown.trans ((Bounds.grow_right_comm _ _ _).trans ?_)
      rw [Bounds.mirror_grow, Bounds.mirror_grow, Bounds.mirror_grow]
      exact .refl _
  exact hfoldl (Bounds.mirror_empty ▸ .refl _)

theorem WellFormed.mirrorOf_ownBatch (hb : b.WellFormed pool) (s : Settings) :
    (b.ownBatch { s with handedness := .left }).MirrorOf
      (b.ownBatch { s with handedness := .right }) := by
  refine ⟨rfl, rfl, rfl, rfl, ?_, ?_, ?_, ?_⟩
  · simp only [Batch.vertexCount, ownBatch, Array.size_map, size_ownCorners]
  · simp only [Batch.triangleCount, ownBatch, Array.size_range, size_ownCorners]
  · rw [triangles_ownBatch, triangles_ownBatch]
    refine List.forall₂_map_left_iff.2 (List.forall₂_map_right_iff.2 (List.forall₂_same.2 ?_))
    intro k hk
    have hk : k < b.triangles.size := List.mem_range.1 hk
    obtain ⟨h₁, h₂, h₃⟩ := hb.lt_of_mem (Array.getElem_mem hk)
    have hnm := Normals.image_getD
      (Normals.image_ofTriangle b.image_position s.degenerateNormalEpsilon b.triangles[k])
    obtain ⟨hl₁, hl₂, hl₃⟩ := getElem?_ownCorners
      (getElem?_exportedFaces { s with handedness := .left } hk)
    obtain ⟨hr₁, hr₂, hr₃⟩ := getElem?_ownCorners
      (getElem?_exportedFaces { s with handedness := .right } hk)
    exact ⟨cornerMirrorOf_ownBatch hl₁ hr₁ h₁ hnm, cornerMirrorOf_ownBatch hl₂ hr₃ h₃ hnm,
      cornerMirrorOf_ownBatch hl₃ hr₂ h₂ hnm⟩
  · simp only [ownBatch, Array.toList_map]
    exact alike_ofPoints_ownCorners b.image_position (b.faceImages s)

/-! ### Finishing -/

/-- Somewhere the surface is seen from both sides and folds over. -/
def folds (s : Settings) (b : Builder) : Bool :=
  b.material.isDoubleSided &&
    (Normals.gather b.vertices.size (Normals.incidences (b.exportedFaces s))).any
      (Normals.opposed s.opposingNormalDot)

theorem finish_eq (s : Settings) (b : Builder) :
    b.finish s = (if b.folds s then b.ownBatch s else b.sharedBatch s,
      (b.exportedFaces s).countP (·.2.isNone)) := by
  have hfolds : (b.material.isDoubleSided && (Normals.gather b.vertices.size
      (Normals.incidences (b.exportedFaces s))).any (Normals.opposed s.opposingNormalDot)) =
        b.folds s := rfl
  simp only [finish, size_exportedPositions, hfolds]
  cases b.folds s with
  | false => rfl
  | true => rfl

/-- **Finishing goes with the mirror.** -/
theorem WellFormed.mirrorOf_finish (hb : b.WellFormed pool) (s : Settings) :
    (b.finish { s with handedness := .left }).1.MirrorOf
        (b.finish { s with handedness := .right }).1 ∧
      (b.finish { s with handedness := .left }).2 = (b.finish { s with handedness := .right }).2 := by
  have hfolds : b.folds { s with handedness := .left } = b.folds { s with handedness := .right } :=
    congrArg (b.material.isDoubleSided && ·) (Normals.any_opposed_eq
      (Normals.images_gather b.vertices.size (b.faceImages s)) s.opposingNormalDot)
  rw [finish_eq, finish_eq, hfolds]
  refine ⟨?_, countP_isNone_eq (b.faceImages s)⟩
  cases b.folds { s with handedness := .right } with
  | false => exact hb.mirrorOf_sharedBatch s
  | true => exact hb.mirrorOf_ownBatch s

end Builder

end RwxScene
