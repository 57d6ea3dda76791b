import Mathlib
import RwxScene.Proofs.Mesh.Mirror
import RwxScene.Proofs.Space.Degenerate

/-!
# Normals and folds

How a builder is finished, told corner by corner (`Builder.shading_finish`). The corners of all
triangles stand in a row, three for each triangle, so a corner is found there by the numbers of its
triangle and of itself. What a vertex gathers is the normals of the corners at it; two of them are
opposed just if two corners are. A triangle may be at a vertex with more than one corner, but then
it has no normal that is a number, and the average is the same as if it were met once.

With a threshold below zero the empty sum is divided by its length. So a vertex whose triangles have
no normal is not always lit from above (`Builder.not_up_of_negative_threshold`).
-/

namespace RwxScene

/-! ### Corners in a row -/

/-- The corner of a triangle by its number. -/
def Triangle.corner {α : Type} (t : Triangle α) : Fin 3 → α
  | 0 => t.first
  | 1 => t.second
  | 2 => t.third

theorem Triangle.corner_mem_toList {α : Type} (t : Triangle α) (k : Fin 3) :
    t.corner k ∈ t.toList := by
  match k with
  | 0 => simp [corner, toList]
  | 1 => simp [corner, toList]
  | 2 => simp [corner, toList]

/-- The third corner of the fifth triangle has number 14 in the row. -/
theorem getElem?_flatMap_corner {α β : Type} (f : α → Fin 3 → β) (l : List α) (i : ℕ) (k : Fin 3) :
    (l.flatMap fun a ↦ [f a 0, f a 1, f a 2])[3 * i + k]? = l[i]?.map (f · k) := by
  obtain ⟨h₀, h₁, h₂⟩ := getElem?_flatMap_three (f · 0) (f · 1) (f · 2) l i
  match k with
  | 0 => exact h₀
  | 1 => exact h₁
  | 2 => exact h₂

namespace Normals

variable {faces : List (Triangle ℕ × Option Vec3)} {v : ℕ} {threshold : Scalar}

/-- The corners of triangles in a row, each with the normal of its triangle. -/
def cornerRow (faces : List (Triangle ℕ × Option Vec3)) : List (ℕ × Option Vec3) :=
  faces.flatMap fun x ↦ x.1.toList.map (·, x.2)

theorem getElem?_cornerRow (faces : List (Triangle ℕ × Option Vec3)) (i : ℕ) (k : Fin 3) :
    (cornerRow faces)[3 * i + k]? = faces[i]?.map fun x ↦ (x.1.corner k, x.2) :=
  getElem?_flatMap_corner (fun (x : Triangle ℕ × Option Vec3) k ↦ (x.1.corner k, x.2)) faces i k

/-- The normals of the corners at a vertex. -/
def normalsAt (faces : List (Triangle ℕ × Option Vec3)) (v : ℕ) : List Vec3 :=
  (cornerRow faces).filterMap fun x ↦ if x.1 = v then x.2 else none

/-- A vertex gathers the normals of the corners at it. -/
theorem getElem?_gather_incidences {size : ℕ} (hv : v < size)
    (faces : List (Triangle ℕ × Option Vec3)) :
    (gather size (incidences faces))[v]? = some (normalsAt faces v) := by
  have hgather : ∀ l : List (ℕ × Vec3), (gather size l)[v]? =
      some (l.filterMap fun x ↦ if x.1 = v then some x.2 else none) := by
    intro l
    rw [gather]
    induction l with
    | nil => simp [hv]
    | cons x l ih =>
      rw [List.foldr_cons, Array.getElem?_modify, ih, List.filterMap_cons]
      split_ifs <;> rfl
  rw [hgather, normalsAt, cornerRow, incidences, List.filterMap_flatMap, List.filterMap_flatMap]
  refine congrArg some (congrArg (List.flatMap · faces) (funext fun x ↦ ?_))
  obtain ⟨t, - | n⟩ := x
  · simp
  · simp [List.filterMap_map]

/-! ### Opposed normals -/

theorem opposed_eq_true_iff (threshold : Scalar) (normals : List Vec3) :
    opposed threshold normals = true ↔
      ¬normals.Pairwise fun n m ↦ ¬n.dot m < threshold := by
  induction normals with
  | nil => simp [opposed]
  | cons n normals ih =>
    rw [opposed, Bool.or_eq_true, ih, List.any_eq_true, List.pairwise_cons, not_and_or]
    push Not
    simp only [decide_eq_true_eq]

/-- The corner is at the vertex, and its triangle has the normal. -/
def HasCorner (faces : List (Triangle ℕ × Option Vec3)) (v : ℕ) (c : ℕ × Fin 3) (n : Vec3) : Prop :=
  ∃ t, faces[c.1]? = some (t, some n) ∧ t.corner c.2 = v

/-- Two corners at the vertex belong to triangles with opposed normals. -/
def FoldsAt (threshold : Scalar) (faces : List (Triangle ℕ × Option Vec3)) (v : ℕ) : Prop :=
  ∃ c d, c ≠ d ∧ ∃ n m, HasCorner faces v c n ∧ HasCorner faces v d m ∧ n.dot m < threshold

theorem hasCorner_iff {c : ℕ × Fin 3} {n : Vec3} :
    HasCorner faces v c n ↔ (cornerRow faces)[3 * c.1 + c.2]? = some (v, some n) := by
  rw [getElem?_cornerRow, Option.map_eq_some_iff]
  constructor
  · rintro ⟨t, hface, rfl⟩
    exact ⟨_, hface, rfl⟩
  · rintro ⟨⟨t, m⟩, hface, heq⟩
    obtain ⟨hv, rfl⟩ := Prod.mk.inj heq
    exact ⟨t, hface, hv⟩

theorem dot_comm (a b : Vec3) : a.dot b = b.dot a := by
  rw [Vec3.dot, Vec3.dot, Scalar.mul_comm a.x, Scalar.mul_comm a.y, Scalar.mul_comm a.z]

/-- Two places in the row hold opposed normals of the vertex. -/
theorem opposed_normalsAt_iff_row :
    opposed threshold (normalsAt faces v) = true ↔ ∃ i j : ℕ, i < j ∧ ∃ n m,
      (cornerRow faces)[i]? = some (v, some n) ∧ (cornerRow faces)[j]? = some (v, some m) ∧
        n.dot m < threshold := by
  have hsome : ∀ {x : ℕ × Option Vec3} {n : Vec3},
      (if x.1 = v then x.2 else none) = some n ↔ x = (v, some n) := by
    rintro ⟨i, n'⟩ n
    rw [Option.ite_none_right_eq_some, Prod.mk.injEq]
  rw [opposed_eq_true_iff, normalsAt, List.pairwise_filterMap, List.pairwise_iff_getElem]
  push Not
  simp only [hsome]
  constructor
  · rintro ⟨i, j, hi, hj, hij, n, hn, m, hm, hdot⟩
    exact ⟨i, j, hij, n, m, List.getElem?_eq_some_iff.2 ⟨hi, hn⟩,
      List.getElem?_eq_some_iff.2 ⟨hj, hm⟩, hdot⟩
  · rintro ⟨i, j, hij, n, m, hn, hm, hdot⟩
    obtain ⟨hi, hn⟩ := List.getElem?_eq_some_iff.1 hn
    obtain ⟨hj, hm⟩ := List.getElem?_eq_some_iff.1 hm
    exact ⟨i, j, hi, hj, hij, n, hn, m, hm, hdot⟩

/-- Two normals of a vertex are opposed just if two corners at it are. -/
theorem opposed_normalsAt_iff :
    opposed threshold (normalsAt faces v) = true ↔ FoldsAt threshold faces v := by
  rw [opposed_normalsAt_iff_row]
  constructor
  · rintro ⟨i, j, hij, n, m, hn, hm, hdot⟩
    -- a place in the row is that of the corner with its quotient and its remainder
    have hplace : ∀ i : ℕ, 3 * (i / 3) + i % 3 = i := fun i ↦ Nat.div_add_mod i 3
    refine ⟨(i / 3, ⟨i % 3, Nat.mod_lt _ (by decide)⟩), (j / 3, ⟨j % 3, Nat.mod_lt _ (by decide)⟩),
      fun heq ↦ ?_, n, m, hasCorner_iff.2 ?_, hasCorner_iff.2 ?_, hdot⟩
    · obtain ⟨hdiv, hmod⟩ := Prod.mk.inj heq
      have hmod : i % 3 = j % 3 := congrArg Fin.val hmod
      rw [← hplace i, ← hplace j, hdiv, hmod] at hij
      exact Nat.lt_irrefl _ hij
    · show (cornerRow faces)[3 * (i / 3) + i % 3]? = _
      rw [hplace, hn]
    · show (cornerRow faces)[3 * (j / 3) + j % 3]? = _
      rw [hplace, hm]
  · rintro ⟨⟨i, k⟩, ⟨j, l⟩, hne, n, m, hn, hm, hdot⟩
    rw [hasCorner_iff] at hn hm
    have hplaces : 3 * i + (k : ℕ) ≠ 3 * j + (l : ℕ) := by
      intro heq
      obtain rfl : i = j := by omega
      obtain rfl : k = l := Fin.ext (by omega)
      exact hne rfl
    rcases Nat.lt_or_gt_of_ne hplaces with hlt | hlt
    · exact ⟨_, _, hlt, n, m, hn, hm, hdot⟩
    · exact ⟨_, _, hlt, m, n, hm, hn, dot_comm n m ▸ hdot⟩

/-! ### The normals of a vertex -/

/-- The normals of the triangles at a vertex, in the order of the triangles. -/
def incident (faces : List (Triangle ℕ × Option Vec3)) (v : ℕ) : List Vec3 :=
  faces.filterMap fun x ↦ if v ∈ x.1.toList then x.2 else none

theorem filterMap_eq_replicate (l : List ℕ) (v : ℕ) (n : Vec3) :
    (l.filterMap fun i ↦ if i = v then some n else none) = List.replicate (l.count v) n := by
  induction l with
  | nil => rfl
  | cons i l ih =>
    rw [List.filterMap_cons, List.count_cons, ih]
    by_cases hi : i = v
    · simp [hi, List.replicate_succ]
    · simp [hi]

/-- Averaging does not see how often a triangle is at a vertex. -/
theorem average_normalsAt {epsilon : Scalar} {positions : Array Vec3} {ts : List (Triangle ℕ)}
    (v : ℕ) :
    let faces := ts.map fun t ↦ (t, ofTriangle epsilon positions t)
    average epsilon (normalsAt faces v) = average epsilon (incident faces v) := by
  intro faces
  by_cases hrepeat : ∃ t ∈ ts, v ∈ t.toList ∧ ¬t.toList.Nodup ∧
      (ofTriangle epsilon positions t).isSome
  · -- a triangle that is met twice takes part on both sides, and it spoils both
    obtain ⟨t, ht, hv, hdup, hsome⟩ := hrepeat
    obtain ⟨n, hn⟩ := Option.isSome_iff_exists.1 hsome
    have hcorners : ¬(t.map (position positions)).toList.Nodup := by
      rw [Triangle.toList_map]
      exact fun h ↦ hdup (h.of_map _)
    have hnan := isNaN_ofCorners hcorners hn
    have hface : (t, some n) ∈ faces := hn ▸ List.mem_map_of_mem ht
    have hincident : n ∈ incident faces v :=
      List.mem_filterMap.2 ⟨_, hface, if_pos hv⟩
    have hrow : n ∈ normalsAt faces v := by
      refine List.mem_filterMap.2 ⟨(v, some n), List.mem_flatMap.2 ⟨_, hface, ?_⟩, if_pos rfl⟩
      exact List.mem_map_of_mem hv
    rw [average_of_mem_isNaN hnan hrow, average_of_mem_isNaN hnan hincident]
  · refine congrArg (average epsilon) ?_
    push Not at hrepeat
    rw [normalsAt, cornerRow, incident, List.filterMap_flatMap, List.filterMap_eq_flatMap_toList,
      List.flatMap_map, List.flatMap_map]
    refine List.flatMap_congr fun t ht ↦ ?_
    rw [List.filterMap_map, Function.comp_def]
    match hn : ofTriangle epsilon positions t with
    | none => simp
    | some n =>
      rw [filterMap_eq_replicate]
      by_cases hv : v ∈ t.toList
      · have hnodup : t.toList.Nodup := by
          by_contra hdup
          exact hrepeat t ht hv hdup (by rw [hn, Option.isSome_some])
        rw [List.count_eq_one_of_mem hnodup hv, if_pos hv]
        rfl
      · rw [List.count_eq_zero_of_not_mem hv, if_neg hv]
        rfl

end Normals

/-! ### Builders that were filled -/

namespace Builder

/-- The builder after some triangles, each over a pool of its own. -/
def fill (b : Builder) (pushes : List (Pool × Triangle ℕ)) : Builder :=
  pushes.foldl (fun b x ↦ b.push x.1 x.2) b

/-- Every slot and every corner has a vertex. -/
structure Closed (b : Builder) : Prop where
  slots : ∀ offset i : ℕ, b.slots[offset]? = some i → i < b.vertices.size
  corners : ∀ t ∈ b.triangles, ∀ i ∈ t.toList, i < b.vertices.size

theorem closed_new (m : Material) (s : Signature) : (new m s).Closed where
  slots offset i h := by simp [new] at h
  corners t ht := by simp [new] at ht

theorem Closed.place {b : Builder} (hb : b.Closed) (pool : Pool) (offset : ℕ) :
    (b.place pool offset).2.Closed ∧
      (b.place pool offset).1 < (b.place pool offset).2.vertices.size := by
  have hgrows := grows_place b pool offset
  have hsize : ∀ v : Vertex, b.vertices.size < (b.vertices.push v).size := fun v ↦ by
    rw [Array.size_push]
    exact Nat.lt_succ_self _
  refine ⟨⟨fun o i h ↦ ?_, fun t ht i hi ↦ ?_⟩, ?_⟩
  · rcases slot_of_place h with hold | ⟨hnone, -, rfl⟩
    · exact (hb.slots o i hold).trans_le hgrows.size_le
    · rw [place_of_none hnone]
      exact hsize _
  · rw [hgrows.triangles] at ht
    exact (hb.corners t ht i hi).trans_le hgrows.size_le
  · cases hslot : b.slots[offset]? with
    | some i =>
      rw [Builder.place, hslot]
      exact hb.slots offset i hslot
    | none =>
      rw [place_of_none hslot]
      exact hsize _

theorem Closed.push {b : Builder} (hb : b.Closed) (pool : Pool) (t : Triangle ℕ) :
    (b.push pool t).Closed := by
  obtain ⟨h₁, hi⟩ := hb.place pool t.first
  obtain ⟨h₂, hj⟩ := h₁.place pool t.second
  obtain ⟨h₃, hk⟩ := h₂.place pool t.third
  have hle₂ := (grows_place (b.place pool t.first).2 pool t.second).size_le
  have hle₃ := (grows_place ((b.place pool t.first).2.place pool t.second).2 pool t.third).size_le
  refine ⟨h₃.slots, fun u hu i hmem ↦ ?_⟩
  rcases Array.mem_push.1 hu with hu | rfl
  · exact h₃.corners u hu i hmem
  · simp only [Triangle.toList, List.mem_cons, List.not_mem_nil, or_false] at hmem
    rcases hmem with rfl | rfl | rfl
    · exact (hi.trans_le hle₂).trans_le hle₃
    · exact hj.trans_le hle₃
    · exact hk

theorem closed_fill {b : Builder} (hb : b.Closed) (pushes : List (Pool × Triangle ℕ)) :
    (b.fill pushes).Closed := by
  induction pushes generalizing b with
  | nil => exact hb
  | cons x pushes ih => exact ih (hb.push x.1 x.2)

end Builder

/-! ### Batches by corners and vertices -/

namespace Batch

/-- Every triangle has three vertices for itself, with its normal, or the direction upward if it has
none. -/
structure IsSplit (positions : Array Vec3) (uvs : Array UV)
    (faces : List (Triangle ℕ × Option Vec3)) (out : Batch) : Prop where
  indices : out.indices = Array.range (3 * faces.length)
  size_positions : out.positions.size = 3 * faces.length
  size_uvs : out.uvs.size = 3 * faces.length
  size_normals : out.normals.size = 3 * faces.length
  corner : ∀ (i : ℕ) (t : Triangle ℕ) (n : Option Vec3), faces[i]? = some (t, n) → ∀ k : Fin 3,
    ∃ p uv, positions[t.corner k]? = some p ∧ uvs[t.corner k]? = some uv ∧
      out.positions[3 * i + k]? = some p ∧ out.uvs[3 * i + k]? = some uv ∧
        out.normals[3 * i + k]? = some (n.getD .up)

/-- Vertices and triangles are left as they are. A vertex has the unit vector along the sum of the
normals of its triangles, and the direction upward if there is no such vector. -/
structure IsShared (epsilon : Scalar) (positions : Array Vec3) (uvs : Array UV)
    (faces : List (Triangle ℕ × Option Vec3)) (out : Batch) : Prop where
  positions_eq : out.positions = positions
  uvs_eq : out.uvs = uvs
  indices_eq : out.indices.toList = faces.flatMap (·.1.toList)
  size_normals : out.normals.size = positions.size
  normal : ∀ v < positions.size, out.normals[v]? =
    some (((Normals.alignedSum (Normals.incident faces v)).normalize? epsilon).getD .up)
  /-- Unless the threshold is negative, there is no such vector where no triangle has a normal. -/
  up : ¬epsilon < 0 → ∀ v < positions.size, Normals.incident faces v = [] →
    out.normals[v]? = some .up

end Batch

namespace Builder

variable {b : Builder}

theorem Closed.lt_of_mem_exportedTriangles (hb : b.Closed) {h : Handedness} {t : Triangle ℕ}
    (ht : t ∈ b.exportedTriangles h) : ∀ i ∈ t.toList, i < b.vertices.size := by
  obtain ⟨u, hu, hsub⟩ := mem_exportedTriangles ht
  exact fun i hi ↦ hb.corners u hu i (hsub i hi)

theorem folds_iff (hb : b.Closed) (s : Settings) : b.folds s = true ↔
    b.material.mode = .double ∧ ∃ v, Normals.FoldsAt s.opposingNormalDot (b.exportedFaces s) v := by
  rw [folds, Bool.and_eq_true, Material.isDoubleSided, beq_iff_eq, Array.any_eq_true]
  refine and_congr_right fun _ ↦ ⟨?_, ?_⟩
  · rintro ⟨v, hv, hopposed⟩
    have hlt : v < b.vertices.size := hv.trans_eq (size_gather _ _)
    have hget := Normals.getElem?_gather_incidences hlt (b.exportedFaces s)
    rw [Array.getElem?_eq_getElem hv, Option.some.injEq] at hget
    exact ⟨v, Normals.opposed_normalsAt_iff.1 (hget ▸ hopposed)⟩
  · rintro ⟨v, hfold⟩
    -- a vertex with a corner at it is one of the builder
    have hlt : v < b.vertices.size := by
      obtain ⟨c, -, -, n, -, ⟨t, hface, rfl⟩, -, -⟩ := hfold
      have ht : t ∈ b.exportedTriangles s.handedness := by
        rw [← map_fst_exportedFaces]
        exact List.mem_map_of_mem (List.mem_of_getElem? hface)
      exact hb.lt_of_mem_exportedTriangles ht _ (t.corner_mem_toList _)
    have hget := Normals.getElem?_gather_incidences hlt (b.exportedFaces s)
    obtain ⟨hv, hget⟩ := Array.getElem?_eq_some_iff.1 hget
    exact ⟨v, hv, hget ▸ Normals.opposed_normalsAt_iff.2 hfold⟩

theorem isSplit_ownBatch (hb : b.Closed) (s : Settings) :
    (b.ownBatch s).IsSplit (b.exportedPositions s.handedness) b.uvs (b.exportedFaces s) := by
  have hsize : (ownCorners (b.exportedFaces s)).toArray.size = 3 * (b.exportedFaces s).length := by
    rw [size_ownCorners, length_exportedFaces]
  refine ⟨?_, ?_, ?_, ?_, fun i t n hface k ↦ ?_⟩
  · rw [ownBatch, hsize]
  · rw [ownBatch, Array.size_map, hsize]
  · rw [ownBatch, Array.size_map, hsize]
  · rw [ownBatch, Array.size_map, hsize]
  · have ht : t ∈ b.exportedTriangles s.handedness := by
      rw [← map_fst_exportedFaces]
      exact List.mem_map_of_mem (List.mem_of_getElem? hface)
    have hlt := hb.lt_of_mem_exportedTriangles ht _ (t.corner_mem_toList k)
    have hcorner :
        (ownCorners (b.exportedFaces s))[3 * i + k]? = some (t.corner k, n.getD .up) := by
      have hrow := getElem?_flatMap_corner
        (fun (x : Triangle ℕ × Option Vec3) k ↦ (x.1.corner k, x.2.getD .up))
        (b.exportedFaces s) i k
      rw [hface] at hrow
      exact hrow
    refine ⟨s.handedness.point b.vertices[t.corner k].position, b.vertices[t.corner k].uv, ?_, ?_,
      ?_, ?_, ?_⟩
    · simp [exportedPositions, hlt]
    · simp [uvs, hlt]
    · simp [ownBatch, hcorner, Normals.position, exportedPositions, hlt]
    · simp [ownBatch, hcorner, hlt]
    · simp [ownBatch, hcorner]

theorem isShared_sharedBatch (s : Settings) (b : Builder) :
    (b.sharedBatch s).IsShared s.degenerateNormalEpsilon (b.exportedPositions s.handedness) b.uvs
      (b.exportedFaces s) := by
  have hnormal : ∀ v < (b.exportedPositions s.handedness).size, (b.sharedBatch s).normals[v]? =
      some (Normals.average s.degenerateNormalEpsilon
        (Normals.incident (b.exportedFaces s) v)) := by
    intro v hv
    rw [size_exportedPositions] at hv
    rw [sharedBatch, Array.getElem?_map, Normals.getElem?_gather_incidences hv, Option.map_some]
    exact congrArg some (Normals.average_normalsAt v)
  refine ⟨rfl, rfl, List.toList_toArray, ?_, hnormal, fun hepsilon v hv hnone ↦ ?_⟩
  · rw [sharedBatch, Array.size_map, size_gather, size_exportedPositions]
  · have hlength : Vec3.zero.length = 0 := by decide
    rw [hnormal v hv, hnone, Normals.average, Normals.alignedSum, List.foldl_nil, Vec3.normalize?,
      hlength, decide_eq_false hepsilon, Bool.and_false]
    rfl

theorem material_fill (b : Builder) (pushes : List (Pool × Triangle ℕ)) :
    (b.fill pushes).material = b.material := by
  induction pushes generalizing b with
  | nil => rfl
  | cons x pushes ih =>
    have hplaces := ((grows_place b x.1 x.2.first).trans (grows_place _ x.1 x.2.second)).trans
      (grows_place _ x.1 x.2.third)
    exact (ih (b.push x.1 x.2)).trans hplaces.material

/-- **Normals and folds.** A batch is split just if it is seen from both sides and two corners at
one vertex have opposed normals; then its triangles have vertices and normals for themselves. In any
other batch vertices and triangles are kept, and a vertex has the average of the normals of its
triangles. -/
theorem shading_finish (s : Settings) (m : Material) (signature : Signature)
    (pushes : List (Pool × Triangle ℕ)) :
    let b := (new m signature).fill pushes
    let positions := b.exportedPositions s.handedness
    let faces := (b.exportedTriangles s.handedness).map fun t ↦
      (t, Normals.ofTriangle s.degenerateNormalEpsilon positions t)
    let out := (b.finish s).1
    (out.duplicated = true ↔
        m.mode = .double ∧ ∃ v, Normals.FoldsAt s.opposingNormalDot faces v) ∧
      (out.duplicated = true → out.IsSplit positions b.uvs faces) ∧
      (out.duplicated = false → out.IsShared s.degenerateNormalEpsilon positions b.uvs faces) ∧
      (b.finish s).2 = faces.countP (·.2.isNone) := by
  intro b positions faces out
  have hb : b.Closed := closed_fill (closed_new m signature) pushes
  have hout : out = if b.folds s then b.ownBatch s else b.sharedBatch s := by
    rw [show out = (b.finish s).1 from rfl, finish_eq]
  have hduplicated : out.duplicated = b.folds s := by
    rw [hout]
    cases b.folds s <;> rfl
  refine ⟨?_, fun h ↦ ?_, fun h ↦ ?_, ?_⟩
  · rw [hduplicated, folds_iff hb, material_fill]
    rfl
  · rw [hout, if_pos (hduplicated ▸ h)]
    exact isSplit_ownBatch hb s
  · rw [hout, if_neg (Bool.eq_false_iff.1 (hduplicated ▸ h))]
    exact isShared_sharedBatch s b
  · rw [finish_eq]
    rfl

/-- A triangle that is seen from both sides, once as it is and once turned over. -/
theorem shading_finish_turned_over :
    let m : Material := { Material.initial with mode := .double }
    let pool : Pool := #[⟨⟨0, 0, 0⟩, .zero⟩, ⟨⟨1, 0, 0⟩, .zero⟩, ⟨⟨1, 1, 0⟩, .zero⟩]
    let b := (new m m.signature).fill [(pool, ⟨0, 1, 2⟩), (pool, ⟨0, 2, 1⟩)]
    let out := (b.finish Settings.initial).1
    out.duplicated = true ∧
      out.IsSplit (b.exportedPositions .right) b.uvs (b.exportedFaces Settings.initial) := by
  intro m pool b out
  have hduplicated : out.duplicated = true := by decide +kernel
  exact ⟨hduplicated,
    (shading_finish Settings.initial m m.signature [(pool, ⟨0, 1, 2⟩), (pool, ⟨0, 2, 1⟩)]).2.1
      hduplicated⟩

/-- The cross product of long edges is not finite. With a threshold below zero the empty sum of
normals is divided by its length, and the vertices are not lit from above. -/
theorem not_up_of_negative_threshold :
    let s : Settings := { Settings.initial with degenerateNormalEpsilon := -1 }
    let pool : Pool := #[⟨⟨0, 0, 0⟩, .zero⟩, ⟨⟨1e38, 0, 0⟩, .zero⟩, ⟨⟨0, 1e38, 0⟩, .zero⟩]
    let b := (new .initial Material.initial.signature).fill [(pool, ⟨0, 1, 2⟩)]
    (b.finish s).1.duplicated = false ∧ Normals.incident (b.exportedFaces s) 0 = [] ∧
      (b.finish s).1.normals[0]? ≠ some .up := by
  decide +kernel

end Builder

end RwxScene
