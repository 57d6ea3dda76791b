import Mathlib
import RwxScene.Proofs.Material.Regular
import RwxScene.Proofs.Mesh.Mirror

/-!
# Regular batches

A builder copies vertices and nothing else, so it has finite ones if its pool has. The batch it is
finished to has these or their mirror images, shared or not, and its material
(`Builder.Regular.finish`).
-/

namespace RwxScene

/-- Position and texture coordinates are finite. -/
def Vertex.IsFinite (v : Vertex) : Prop := v.position.isFinite = true ∧ v.uv.isFinite = true

theorem Vec3.isFinite_zero : Vec3.zero.isFinite = true := by decide

theorem UV.isFinite_zero : UV.zero.isFinite = true := by decide

/-- All vertices are finite. -/
def Pool.IsFinite (pool : Pool) : Prop := ∀ v ∈ pool, v.IsFinite

theorem Pool.IsFinite.push {pool : Pool} (h : pool.IsFinite) {v : Vertex} (hv : v.IsFinite) :
    Pool.IsFinite (pool.push v) := by
  intro w hw
  rcases Array.mem_push.1 hw with hw | rfl
  · exact h w hw
  · exact hv

/-- Also where there is no vertex. -/
theorem Pool.IsFinite.vertex {pool : Pool} (h : pool.IsFinite) (offset : Nat) :
    (pool.vertex offset).IsFinite := by
  rw [Pool.vertex]
  cases hv : pool[offset]? with
  | none => exact ⟨Vec3.isFinite_zero, UV.isFinite_zero⟩
  | some v => exact h v (Array.mem_of_getElem? hv)

namespace Batch

/-- Positions and texture coordinates are finite, and the material is regular. -/
structure Regular (b : Batch) : Prop where
  positions : ∀ p ∈ b.positions, p.isFinite = true
  uvs : ∀ t ∈ b.uvs, t.isFinite = true
  material : b.material.Regular

end Batch

namespace Builder

/-- The copied vertices are finite, and the material is regular. -/
structure Regular (b : Builder) : Prop where
  vertices : Pool.IsFinite b.vertices
  material : b.material.Regular

variable {b : Builder} {pool : Pool}

theorem regular_new {m : Material} (h : m.Regular) (signature : Signature) :
    (new m signature).Regular :=
  ⟨fun _ hv ↦ absurd hv (by simp [new]), h⟩

theorem Regular.place (h : b.Regular) (hpool : pool.IsFinite) (offset : Nat) :
    (b.place pool offset).2.Regular := by
  rw [Builder.place]
  cases b.slots[offset]? with
  | some i => exact h
  | none => exact ⟨h.vertices.push (hpool.vertex offset), h.material⟩

theorem Regular.push (h : b.Regular) (hpool : pool.IsFinite) (t : Triangle Nat) :
    (b.push pool t).Regular := by
  have hplaced := ((h.place hpool t.first).place hpool t.second).place hpool t.third
  exact ⟨hplaced.vertices, hplaced.material⟩

theorem Regular.pushAll (h : b.Regular) (hpool : pool.IsFinite) (ts : List (Triangle Nat)) :
    (b.pushAll pool ts).Regular := by
  induction ts generalizing b with
  | nil => exact h
  | cons t ts ih => exact ih (h.push hpool t)

/-! ### Finishing -/

theorem Regular.exportedPositions (h : b.Regular) (handedness : Handedness) :
    ∀ p ∈ b.exportedPositions handedness, p.isFinite = true := by
  intro p hp
  obtain ⟨v, hv, rfl⟩ := Array.mem_map.1 hp
  have hfinite := (h.vertices v hv).1
  cases handedness with
  | right => exact hfinite
  | left =>
    show v.position.mirror.isFinite = true
    rw [v.position.image_mirror.isFinite_eq, hfinite]

/-- A position that is not there is at the origin. -/
theorem isFinite_position {positions : Array Vec3} (h : ∀ p ∈ positions, p.isFinite = true)
    (i : Nat) : (Normals.position positions i).isFinite = true := by
  rw [Normals.position]
  cases hp : positions[i]? with
  | none => exact Vec3.isFinite_zero
  | some p => exact h p (Array.mem_of_getElem? hp)

/-- What a regular builder is finished to is regular. -/
theorem Regular.finish (h : b.Regular) (s : Settings) : (b.finish s).1.Regular := by
  have hpositions := h.exportedPositions s.handedness
  have huvs : ∀ t ∈ b.vertices.map Vertex.uv, t.isFinite = true := by
    intro t ht
    obtain ⟨v, hv, rfl⟩ := Array.mem_map.1 ht
    exact (h.vertices v hv).2
  rw [finish_eq]
  show (if b.folds s then b.ownBatch s else b.sharedBatch s).Regular
  split
  · refine ⟨fun p hp ↦ ?_, fun t ht ↦ ?_, h.material⟩
    · obtain ⟨x, -, rfl⟩ := Array.mem_map.1 hp
      exact isFinite_position hpositions x.1
    · obtain ⟨x, -, rfl⟩ := Array.mem_map.1 ht
      cases huv : (b.vertices.map Vertex.uv)[x.1]? with
      | none => exact UV.isFinite_zero
      | some t => exact huvs t (Array.mem_of_getElem? huv)
  · exact ⟨hpositions, huvs, h.material⟩

end Builder

end RwxScene
