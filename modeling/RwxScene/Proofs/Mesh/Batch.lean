import Mathlib.Tactic.Tauto
import RwxScene.Mesh.Batch
import RwxScene.Proofs.Mesh.Builder

/-!
# Corners of finished batches

`Batch.corners` follows the indices of a batch to its positions and texture coordinates. Finishing a
builder changes the corners only as its handedness asks for (`corners_finish`), on both ways: with
shared vertices, and with three vertices for every triangle. The corners that an index does not lead
to are `none`, so the statement also says that no index leads nowhere.
-/

namespace RwxScene

/-- The vertex in the mirror image of the scene. -/
def Vertex.mirror (v : Vertex) : Vertex := { v with position := v.position.mirror }

namespace Handedness

/-- A vertex of the written scene in the finished one. -/
def vertex (h : Handedness) (v : Vertex) : Vertex :=
  match h with
  | right => v
  | left => v.mirror

/-- A triangle of the written scene in the finished one. A mirrored triangle is also wound the other
way round: its second and third corner change places. -/
def triangle (h : Handedness) (t : Triangle (Option Vertex)) : Triangle (Option Vertex) :=
  match h with
  | right => t
  | left => (t.map (Option.map Vertex.mirror)).flip

theorem vertex_eq (h : Handedness) (v : Vertex) : h.vertex v = ⟨h.point v.position, v.uv⟩ := by
  cases h <;> rfl

end Handedness

namespace Batch

/-- The vertex at a place, if there is one. -/
def vertex? (b : Batch) (i : Nat) : Option Vertex := do
  return ⟨← b.positions[i]?, ← b.uvs[i]?⟩

/-- The vertices at the corners of the triangles. -/
def corners (b : Batch) : List (Triangle (Option Vertex)) := b.triangles.map (Triangle.map b.vertex?)

end Batch

namespace Builder

variable {pool : Pool} {b : Builder}

/-- The finished triangles over the finished vertices. -/
theorem map_exportedTriangles (h : Handedness) (b : Builder) :
    (b.exportedTriangles h).map (Triangle.map fun i ↦ b.vertices[i]?.map h.vertex) =
      b.corners.map h.triangle := by
  cases h with
  | right =>
    rw [exportedTriangles, corners, List.map_map]
    refine List.map_congr_left fun t _ ↦ ?_
    exact Triangle.map_congr fun i _ ↦ Option.map_id'
  | left =>
    rw [exportedTriangles, corners, List.map_map, List.map_map]
    rfl

theorem mem_exportedTriangles {h : Handedness} {t : Triangle Nat} (ht : t ∈ b.exportedTriangles h) :
    ∃ u ∈ b.triangles, ∀ i ∈ t.toList, i ∈ u.toList := by
  cases h with
  | right => exact ⟨t, Array.mem_toList_iff.1 ht, fun _ hi ↦ hi⟩
  | left =>
    obtain ⟨u, hu, rfl⟩ := List.mem_map.1 ht
    refine ⟨u, Array.mem_toList_iff.1 hu, fun i hi ↦ ?_⟩
    simp only [Triangle.toList, Triangle.flip, List.mem_cons, List.not_mem_nil, or_false] at hi ⊢
    tauto

/-- The corners of finished triangles have vertices. -/
theorem WellFormed.lt_of_mem_exportedTriangles (hb : b.WellFormed pool) {h : Handedness}
    {t : Triangle Nat} (ht : t ∈ b.exportedTriangles h) : ∀ i ∈ t.toList, i < b.vertices.size := by
  obtain ⟨u, hu, hsub⟩ := mem_exportedTriangles ht
  exact fun i hi ↦ (wellFormed_iff.1 hb).2.1 u hu i (hsub i hi)

theorem map_fst_exportedFaces (s : Settings) (b : Builder) :
    (b.exportedFaces s).map Prod.fst = b.exportedTriangles s.handedness := by
  rw [exportedFaces, List.map_map]
  exact List.map_id _

/-- With shared vertices a place holds the vertex that the builder has there. -/
theorem vertex?_map (h : Handedness) (vs : Array Vertex) (i : Nat) :
    (do return ⟨← (vs.map fun v ↦ h.point v.position)[i]?, ← (vs.map Vertex.uv)[i]?⟩ :
      Option Vertex) = vs[i]?.map h.vertex := by
  simp only [Array.getElem?_map]
  cases vs[i]? with
  | none => rfl
  | some v => exact congrArg some (h.vertex_eq v).symm

/-- Counting through a list finds all of it. -/
theorem map_getElem?_range {α : Type} (l : List α) :
    (List.range l.length).map (l[·]?) = l.map some := by
  refine List.ext_getElem (by simp) fun i hi _ ↦ ?_
  have : i < l.length := by simpa using hi
  simp [this]

/-- A batch with shared vertices has at a corner what the builder has there. -/
theorem corners_of_shared (h : Handedness) {vs : Array Vertex} {ts : List (Triangle Nat)}
    {c : Batch} (hpositions : c.positions = vs.map fun v ↦ h.point v.position)
    (huvs : c.uvs = vs.map Vertex.uv) (hindices : c.indices.toList = ts.flatMap Triangle.toList) :
    c.corners = ts.map (Triangle.map fun i ↦ vs[i]?.map h.vertex) := by
  rw [Batch.corners, Batch.triangles, hindices, Triangle.ofList_flatMap_toList]
  refine List.map_congr_left fun t _ ↦ Triangle.map_congr fun i _ ↦ ?_
  rw [Batch.vertex?, hpositions, huvs]
  exact vertex?_map h vs i

/-- A batch in which every triangle has vertices of its own has its corners one after the other. -/
theorem corners_of_own {ts : List (Triangle Nat)} {f : Nat → Vertex} {c : Batch}
    (hpositions : c.positions.toList = (ts.flatMap Triangle.toList).map fun i ↦ (f i).position)
    (huvs : c.uvs.toList = (ts.flatMap Triangle.toList).map fun i ↦ (f i).uv)
    (hindices : c.indices.toList = List.range (ts.flatMap Triangle.toList).length) :
    c.corners = ts.map (Triangle.map fun i ↦ some (f i)) := by
  set is := ts.flatMap Triangle.toList with his
  have hvertex : ∀ k : Nat, c.vertex? k = (is.map f)[k]? := by
    intro k
    rw [Batch.vertex?, ← Array.getElem?_toList, ← Array.getElem?_toList, hpositions, huvs]
    simp only [List.getElem?_map]
    cases is[k]? with
    | none => rfl
    | some i => rfl
  have hrange : (List.range is.length).map ((is.map f)[·]?) = (is.map f).map some := by
    rw [← List.length_map f, map_getElem?_range]
  calc c.corners
      = (Triangle.ofList (List.range is.length)).map (Triangle.map ((is.map f)[·]?)) := by
        rw [Batch.corners, Batch.triangles, hindices, funext hvertex]
    _ = Triangle.ofList ((is.map f).map some) := by rw [← Triangle.ofList_map, hrange]
    _ = ts.map (Triangle.map fun i ↦ some (f i)) := by
        rw [List.map_map, Triangle.ofList_map, his, Triangle.ofList_flatMap_toList]
        rfl

/-- The corners of the finished triangles in a row. -/
theorem flatMap_exportedFaces (s : Settings) (b : Builder) :
    (b.exportedFaces s).flatMap (·.1.toList) =
      (b.exportedTriangles s.handedness).flatMap Triangle.toList := by
  rw [← map_fst_exportedFaces, List.flatMap_map]

/-- The same corners where each comes with the normal of its triangle. -/
theorem map_flatMap_exportedFaces {α : Type} (s : Settings) (b : Builder) (g : Nat → α) :
    ((b.exportedFaces s).flatMap fun x ↦ x.1.toList.map (·, x.2.getD .up)).map (fun x ↦ g x.1) =
      ((b.exportedTriangles s.handedness).flatMap Triangle.toList).map g := by
  rw [← flatMap_exportedFaces, List.map_flatMap, List.map_flatMap]
  refine congrArg (List.flatMap · _) (funext fun x ↦ ?_)
  rw [List.map_map]
  rfl

/-- A finished batch has the corners of its builder, brought to the handedness of the scene. -/
theorem corners_finish (hb : b.WellFormed pool) (s : Settings) :
    (b.finish s).1.corners = b.corners.map s.handedness.triangle := by
  rw [← map_exportedTriangles]
  simp only [finish]
  split
  · -- every triangle has vertices of its own, and its corners are read back as they were written
    set f : Nat → Vertex := fun i ↦
      ⟨Normals.position (b.exportedPositions s.handedness) i,
        (b.vertices.map Vertex.uv)[i]?.getD .zero⟩ with hf
    have hvertices : (b.exportedTriangles s.handedness).map (Triangle.map fun i ↦ some (f i)) =
        (b.exportedTriangles s.handedness).map
          (Triangle.map fun i ↦ b.vertices[i]?.map s.handedness.vertex) := by
      refine List.map_congr_left fun t ht ↦ Triangle.map_congr fun i hi ↦ ?_
      have hlt := hb.lt_of_mem_exportedTriangles ht i hi
      simp [hf, Normals.position, exportedPositions, hlt, Handedness.vertex_eq]
    rw [← hvertices]
    refine corners_of_own ?_ ?_ ?_
    · rw [Array.toList_map]
      exact map_flatMap_exportedFaces s b fun i ↦ (f i).position
    · rw [Array.toList_map]
      exact map_flatMap_exportedFaces s b fun i ↦ (f i).uv
    · have hlength := congrArg List.length (map_flatMap_exportedFaces s b id)
      rw [List.length_map, List.length_map] at hlength
      rw [Array.toList_range, List.size_toArray, hlength]
  · -- the vertices are shared
    exact corners_of_shared s.handedness rfl rfl (flatMap_exportedFaces s b)

end Builder

end RwxScene
