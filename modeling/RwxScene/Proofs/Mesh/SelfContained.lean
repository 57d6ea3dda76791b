import Mathlib.Tactic.Set
import RwxScene.Proofs.Mesh.Batch

/-!
# Batches that stand on their own

A finished batch can be drawn without looking at anything else (`Batch.SelfContained`): its arrays
fit together, no index leads nowhere and no vertex is without a triangle. The last point is not a
matter of finishing; it holds because a builder copies a vertex only for a triangle that it is about
to push (`Builder.Tight`).
-/

namespace RwxScene

/-! ### Threes in a row -/

section Threes

variable {α β : Type} (f g h : α → β)

theorem length_flatMap_three (l : List α) :
    (l.flatMap fun a ↦ [f a, g a, h a]).length = 3 * l.length := by
  induction l with
  | nil => rfl
  | cons a l ih =>
    rw [List.flatMap_cons, List.length_append, ih, List.length_cons]
    simp only [List.length_cons, List.length_nil]
    omega

/-- The `k`-th three is that of the `k`-th element. -/
theorem getElem?_flatMap_three (l : List α) (k : Nat) :
    (l.flatMap fun a ↦ [f a, g a, h a])[3 * k]? = l[k]?.map f ∧
      (l.flatMap fun a ↦ [f a, g a, h a])[3 * k + 1]? = l[k]?.map g ∧
        (l.flatMap fun a ↦ [f a, g a, h a])[3 * k + 2]? = l[k]?.map h := by
  induction l generalizing k with
  | nil => exact ⟨rfl, rfl, rfl⟩
  | cons a l ih =>
    cases k with
    | zero => exact ⟨rfl, rfl, rfl⟩
    | succ k => exact ih k

end Threes

/-! ### Batches -/

namespace Batch

/-- Every triangle has three vertices of its own, which have one normal. -/
structure HasOwnVertices (b : Batch) : Prop where
  mode : b.material.mode = .double
  indices : b.indices = Array.range b.vertexCount
  vertexCount : b.vertexCount = 3 * b.triangleCount
  normals : ∀ k < b.triangleCount, ∃ n, b.normals[3 * k]? = some n ∧
    b.normals[3 * k + 1]? = some n ∧ b.normals[3 * k + 2]? = some n

/-- The batch can be drawn as it is. -/
structure SelfContained (b : Batch) : Prop where
  indices_ne : b.indices ≠ #[]
  dvd_size_indices : 3 ∣ b.indices.size
  size_uvs : b.uvs.size = b.positions.size
  size_normals : b.normals.size = b.positions.size
  lt_of_mem : ∀ i ∈ b.indices, i < b.positions.size
  mem_of_lt : ∀ i < b.positions.size, i ∈ b.indices
  signature : b.signature = b.material.signature
  tag : b.tag = b.material.tag
  bounds : b.bounds = .ofPoints b.positions.toList
  own : b.duplicated = true → b.HasOwnVertices

end Batch

/-! ### Builders without idle vertices -/

namespace Builder

variable {pool : Pool} {b : Builder}

/-- Every vertex is at a corner of a triangle. -/
def Tight (b : Builder) : Prop := ∀ i < b.vertices.size, ∃ t ∈ b.triangles, i ∈ t.toList

theorem tight_new (m : Material) (s : Signature) : (new m s).Tight :=
  fun _ hi ↦ absurd hi (Nat.not_lt_zero _)

/-- The only vertex that placing a corner can add is the one at its place. -/
theorem lt_or_eq_place {offset i : Nat} (h : i < (b.place pool offset).2.vertices.size) :
    i < b.vertices.size ∨ i = (b.place pool offset).1 := by
  rw [place] at h ⊢
  cases hslot : b.slots[offset]? with
  | some k =>
    rw [hslot] at h
    exact .inl h
  | none =>
    rw [hslot] at h
    rcases Nat.lt_succ_iff_lt_or_eq.1 (Array.size_push _ ▸ h) with h | h
    · exact .inl h
    · exact .inr h

theorem Tight.push (hb : b.Tight) (pool : Pool) (t : Triangle Nat) : (b.push pool t).Tight := by
  set r₁ := b.place pool t.first with hr₁
  set r₂ := r₁.2.place pool t.second with hr₂
  set r₃ := r₂.2.place pool t.third with hr₃
  have hpush : b.push pool t =
      { r₃.2 with triangles := r₃.2.triangles.push ⟨r₁.1, r₂.1, r₃.1⟩ } := rfl
  have htriangles : r₃.2.triangles = b.triangles := by
    rw [hr₃, (grows_place _ _ _).triangles, hr₂, (grows_place _ _ _).triangles, hr₁,
      (grows_place _ _ _).triangles]
  rw [hpush]
  intro i hi
  -- a vertex was there before, or is one of the three corners
  have hold : i < b.vertices.size ∨ i ∈ (⟨r₁.1, r₂.1, r₃.1⟩ : Triangle Nat).toList := by
    rcases lt_or_eq_place (b := r₂.2) hi with h₃ | rfl
    · rcases lt_or_eq_place (b := r₁.2) h₃ with h₂ | rfl
      · rcases lt_or_eq_place (b := b) h₂ with h₁ | rfl
        · exact .inl h₁
        · exact .inr List.mem_cons_self
      · exact .inr (List.mem_cons_of_mem _ List.mem_cons_self)
    · exact .inr (List.mem_cons_of_mem _ (List.mem_cons_of_mem _ List.mem_cons_self))
  rcases hold with hi | hi
  · obtain ⟨u, hu, hmem⟩ := hb i hi
    exact ⟨u, Array.mem_push_of_mem _ (htriangles ▸ hu), hmem⟩
  · exact ⟨_, Array.mem_push_self, hi⟩

theorem Tight.pushAll (hb : b.Tight) (pool : Pool) (ts : List (Triangle Nat)) :
    (b.pushAll pool ts).Tight := by
  induction ts generalizing b with
  | nil => exact hb
  | cons t ts ih => exact ih (hb.push pool t)

/-! ### Finishing -/

theorem length_exportedFaces (s : Settings) (b : Builder) :
    (b.exportedFaces s).length = b.triangles.size := by
  rw [exportedFaces, List.length_map]
  cases s.handedness with
  | right => exact Array.length_toList
  | left => exact (List.length_map _).trans Array.length_toList

/-- A finished triangle has the corners of one that was pushed, and all of them. -/
theorem exists_mem_exportedTriangles (h : Handedness) {t : Triangle Nat} (ht : t ∈ b.triangles) :
    ∃ u ∈ b.exportedTriangles h, ∀ i ∈ t.toList, i ∈ u.toList := by
  cases h with
  | right => exact ⟨t, Array.mem_toList_iff.2 ht, fun _ hi ↦ hi⟩
  | left =>
    refine ⟨t.flip, List.mem_map_of_mem (Array.mem_toList_iff.2 ht), fun i hi ↦ ?_⟩
    simp only [Triangle.toList, Triangle.flip, List.mem_cons, List.not_mem_nil, or_false] at hi ⊢
    tauto

theorem size_gather (size : Nat) (incidences : List (Nat × Vec3)) :
    (Normals.gather size incidences).size = size := by
  rw [Normals.gather]
  induction incidences with
  | nil => exact Array.size_replicate
  | cons x xs ih =>
    rw [List.foldr_cons, Array.size_modify]
    exact ih

theorem length_flatMap_toList (l : List (Triangle Nat × Option Vec3)) :
    (l.flatMap (·.1.toList)).length = 3 * l.length :=
  length_flatMap_three (fun x : Triangle Nat × Option Vec3 ↦ x.1.first) (·.1.second) (·.1.third) l

/-- The corners of finished triangles, each with the normal of its triangle. -/
theorem length_flatMap_corners (l : List (Triangle Nat × Option Vec3)) :
    (l.flatMap fun x ↦ x.1.toList.map (·, x.2.getD .up)).length = 3 * l.length :=
  length_flatMap_three (fun x : Triangle Nat × Option Vec3 ↦ (x.1.first, x.2.getD .up))
    (fun x ↦ (x.1.second, x.2.getD .up)) (fun x ↦ (x.1.third, x.2.getD .up)) l

/-- The three corners of a triangle have one normal. -/
theorem exists_normal (l : List (Triangle Nat × Option Vec3)) {k : Nat} (hk : k < l.length) :
    let normals := (l.flatMap fun x ↦ x.1.toList.map (·, x.2.getD .up)).toArray.map (·.2)
    ∃ n, normals[3 * k]? = some n ∧ normals[3 * k + 1]? = some n ∧
      normals[3 * k + 2]? = some n := by
  intro normals
  obtain ⟨h₁, h₂, h₃⟩ := getElem?_flatMap_three
    (fun x : Triangle Nat × Option Vec3 ↦ (x.1.first, x.2.getD .up))
    (fun x ↦ (x.1.second, x.2.getD .up)) (fun x ↦ (x.1.third, x.2.getD .up)) l k
  rw [List.getElem?_eq_getElem hk] at h₁ h₂ h₃
  have hget : ∀ {i j : Nat} {n : Vec3},
      (l.flatMap fun x ↦ x.1.toList.map (·, x.2.getD .up))[i]? = some (j, n) →
        normals[i]? = some n := by
    intro i j n h
    rw [Array.getElem?_map, List.getElem?_toArray, h]
    rfl
  exact ⟨l[k].2.getD .up, hget h₁, hget h₂, hget h₃⟩

/-- A finished batch stands on its own, if its builder has triangles and no idle vertices. -/
theorem WellFormed.selfContained (hb : b.WellFormed pool) (htight : b.Tight)
    (hne : b.triangles ≠ #[]) (s : Settings) : (b.finish s).1.SelfContained := by
  have hsize : 0 < b.triangles.size := Array.size_pos_iff.2 hne
  have hfaces := b.length_exportedFaces s
  simp only [finish]
  split
  · next hdup =>
    set faces := b.exportedFaces s
    set corners := (faces.flatMap fun x ↦ x.1.toList.map (·, x.2.getD .up)).toArray with hcorners
    have hcount : corners.size = 3 * b.triangles.size := by
      rw [hcorners, List.size_toArray, length_flatMap_corners, hfaces]
    refine ⟨fun he ↦ ?_, ?_, ?_, ?_, fun i hi ↦ ?_, fun i hi ↦ ?_, hb.signature_eq, rfl, rfl, ?_⟩
    · have h := congrArg Array.size he
      simp only [Array.size_range, Array.size_empty] at h
      omega
    · exact ⟨b.triangles.size, by rw [Array.size_range, hcount]⟩
    · rw [Array.size_map, Array.size_map]
    · rw [Array.size_map, Array.size_map]
    · rw [Array.size_map]
      exact Array.mem_range.1 hi
    · rw [Array.size_map] at hi
      exact Array.mem_range.2 hi
    · intro _
      refine ⟨?_, ?_, ?_, fun k hk ↦ ?_⟩
      · have h := ((Bool.and_eq_true _ _).mp hdup).1
        rw [Material.isDoubleSided] at h
        exact eq_of_beq h
      · rw [Batch.vertexCount, Array.size_map]
      · simp only [Batch.vertexCount, Batch.triangleCount, Array.size_map, Array.size_range, hcount]
        omega
      · simp only [Batch.triangleCount, Array.size_range, hcount] at hk
        have hlt : k < faces.length := by omega
        exact exists_normal faces hlt
  · set faces := b.exportedFaces s with hfacesDef
    have hpositions : (b.exportedPositions s.handedness).size = b.vertices.size := Array.size_map
    have hcount : (faces.flatMap (·.1.toList)).toArray.size = 3 * b.triangles.size := by
      rw [List.size_toArray, length_flatMap_toList, hfaces]
    have hmem : ∀ i, i ∈ (faces.flatMap (·.1.toList)).toArray ↔
        ∃ t ∈ b.exportedTriangles s.handedness, i ∈ t.toList := by
      intro i
      rw [List.mem_toArray, hfacesDef, flatMap_exportedFaces, List.mem_flatMap]
    refine ⟨fun he ↦ ?_, ⟨b.triangles.size, hcount⟩, ?_, ?_, fun i hi ↦ ?_, fun i hi ↦ ?_,
      hb.signature_eq, rfl, rfl, fun hdup ↦ absurd hdup ‹_›⟩
    · rw [congrArg Array.size he, Array.size_empty] at hcount
      omega
    · rw [Array.size_map, hpositions]
    · rw [Array.size_map, size_gather]
    · obtain ⟨t, ht, hi⟩ := (hmem i).1 hi
      rw [hpositions]
      exact hb.lt_of_mem_exportedTriangles ht i hi
    · rw [hpositions] at hi
      obtain ⟨t, ht, hi⟩ := htight i hi
      obtain ⟨u, hu, hsub⟩ := exists_mem_exportedTriangles s.handedness ht
      exact (hmem i).2 ⟨u, hu, hsub i hi⟩

end Builder

end RwxScene
