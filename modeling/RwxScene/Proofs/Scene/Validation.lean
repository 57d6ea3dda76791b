import Mathlib
import RwxScene.Proofs.Mesh.SelfContained
import RwxScene.Scene.Validation

/-!
# What a validation reports

The problems of a validation are the faults of the batches, node by node and batch by batch
(`problems_validate`), and no fault is reported without a cause (`cause_of_mem`). A batch that stands
on its own has no structural faults, whatever is checked
(`Batch.SelfContained.isStructural_eq_false`); what may be left are the values of its vertices.
-/

namespace RwxScene.Validation

theorem sum_map_flatMap {α β : Type} (f : α → List β) (g : β → Nat) (l : List α) :
    ((l.flatMap f).map g).sum = (l.map fun a ↦ ((f a).map g).sum).sum := by
  rw [List.map_flatMap, List.flatMap_def, List.sum_flatten, List.map_map]
  rfl

/-- The arrays of the batch do not fit together. -/
def Fault.isStructural : Fault → Bool
  | .emptyBatch => true
  | .invalidIndexCount _ => true
  | .attributeLengthMismatch .. => true
  | .indexOutOfBounds .. => true
  | .nonFiniteVertex _ => false
  | .invalidNormal .. => false

/-! ### Problems of a scene -/

/-- The problems of a node. -/
def problemsOf (o : Options) (n : Node) : List Problem :=
  n.batches.zipIdx.flatMap fun (b, i) ↦ (faults o b).map fun f ↦ ⟨n.name, i, f⟩

/-- The warnings of a node. -/
def warningsOf (o : Options) (n : Node) : List Warning :=
  n.batches.zipIdx.flatMap fun (b, i) ↦
    if degenerateCount o b = 0 then [] else [⟨n.name, i, degenerateCount o b⟩]

namespace Report

/-- What every step appends to a list of the report. -/
theorem foldl_appends {α β : Type} {step : Report → α → Report} {added : α → List β}
    (list : Report → List β) (h : ∀ r x, list (step r x) = list r ++ added x) (r : Report)
    (xs : List α) : list (xs.foldl step r) = list r ++ xs.flatMap added := by
  induction xs generalizing r with
  | nil => exact (List.append_nil _).symm
  | cons x xs ih => rw [List.foldl_cons, ih, h, List.flatMap_cons, List.append_assoc]

theorem problems_addNode (o : Options) (r : Report) (n : Node) :
    (r.addNode o n).problems = r.problems ++ problemsOf o n :=
  foldl_appends problems (fun _ _ ↦ rfl) _ n.batches.zipIdx

theorem warnings_addNode (o : Options) (r : Report) (n : Node) :
    (r.addNode o n).warnings = r.warnings ++ warningsOf o n :=
  foldl_appends warnings (fun _ _ ↦ rfl) _ n.batches.zipIdx

end Report

/-- The problems of a scene are those of its nodes in order. -/
theorem problems_validate (o : Options) (root : Node) :
    (validate o root).problems = root.walk.flatMap (problemsOf o) :=
  Report.foldl_appends Report.problems (Report.problems_addNode o) .start root.walk

/-- So are the warnings. -/
theorem warnings_validate (o : Options) (root : Node) :
    (validate o root).warnings = root.walk.flatMap (warningsOf o) :=
  Report.foldl_appends Report.warnings (Report.warnings_addNode o) .start root.walk

/-- A problem is a fault of a batch of the scene. -/
theorem exists_mem_faults {o : Options} {root : Node} {p : Problem}
    (h : p ∈ (validate o root).problems) : ∃ b ∈ root.allBatches, p.fault ∈ faults o b := by
  rw [problems_validate] at h
  obtain ⟨n, hn, hp⟩ := List.mem_flatMap.1 h
  obtain ⟨⟨b, i⟩, hb, hp⟩ := List.mem_flatMap.1 hp
  obtain ⟨f, hf, rfl⟩ := List.mem_map.1 hp
  exact ⟨b, List.mem_flatMap.2 ⟨n, hn, List.fst_mem_of_mem_zipIdx hb⟩, hf⟩

/-! ### Counts of a scene -/

/-- What is counted of some nodes with these batches. -/
def statsOf (o : Options) (nodes : Nat) (bs : List Batch) : Stats where
  nodes := nodes
  batches := bs.length
  vertices := (bs.map Batch.vertexCount).sum
  triangles := (bs.map Batch.triangleCount).sum
  degenerate := (bs.map (degenerateCount o)).sum
  duplicated := bs.countP (·.duplicated)

namespace Report

theorem stats_addBatches {o : Options} {r : Report} {nodes : Nat} {bs : List Batch}
    (h : r.stats = statsOf o nodes bs) (name : String) (cs : List (Batch × Nat)) :
    (cs.foldl (addBatch o name) r).stats = statsOf o nodes (bs ++ cs.map Prod.fst) := by
  induction cs generalizing r bs with
  | nil => rw [List.foldl_nil, h, List.map_nil, List.append_nil]
  | cons c cs ih =>
    have hone : (r.addBatch o name c).stats = statsOf o nodes (bs ++ [c.1]) := by
      rw [addBatch, h]
      simp [statsOf, List.countP_cons]
    rw [List.foldl_cons, ih hone, List.map_cons, List.append_assoc, List.singleton_append]

theorem stats_addNode {o : Options} {r : Report} {nodes : Nat} {bs : List Batch}
    (h : r.stats = statsOf o nodes bs) (n : Node) :
    (r.addNode o n).stats = statsOf o (nodes + 1) (bs ++ n.batches) := by
  have hnode : ({ r with stats := { r.stats with nodes := r.stats.nodes + 1 } } : Report).stats =
      statsOf o (nodes + 1) bs := by
    rw [h]
    rfl
  have hbatches := stats_addBatches hnode n.name n.batches.zipIdx
  rw [List.zipIdx_map_fst] at hbatches
  exact hbatches

theorem stats_addNodes {o : Options} {r : Report} {nodes : Nat} {bs : List Batch}
    (h : r.stats = statsOf o nodes bs) (ns : List Node) :
    (ns.foldl (addNode o) r).stats =
      statsOf o (nodes + ns.length) (bs ++ ns.flatMap Node.batches) := by
  induction ns generalizing r nodes bs with
  | nil => rw [List.foldl_nil, h, List.flatMap_nil, List.append_nil, List.length_nil, Nat.add_zero]
  | cons n ns ih =>
    rw [List.foldl_cons, ih (stats_addNode h n), List.length_cons, List.flatMap_cons,
      List.append_assoc, Nat.add_assoc, Nat.add_comm 1]

end Report

/-- Nodes and batches are counted once each, whatever is checked. -/
theorem stats_validate (o : Options) (root : Node) :
    (validate o root).stats = statsOf o root.nodeCount root.allBatches := by
  have hstart : Report.start.stats = statsOf o 0 [] := rfl
  rw [validate, Report.stats_addNodes hstart, Nat.zero_add, List.nil_append]
  rfl

/-! ### Causes of faults -/

/-- The vertex that a fault is about. -/
def Fault.vertex? : Fault → Option Nat
  | .nonFiniteVertex i => some i
  | .invalidNormal i _ => some i
  | _ => none

theorem vertex?_vertexFault {o : Options} {i : Nat} {position normal : Vec3} {f : Fault}
    (h : vertexFault o i position normal = some f) : f.vertex? = some i := by
  rw [vertexFault] at h
  split at h
  · obtain rfl := Option.some.inj h
    rfl
  · split at h
    · obtain rfl := Option.some.inj h
      rfl
    · exact absurd h (by simp)

theorem isStructural_vertexFault {o : Options} {i : Nat} {position normal : Vec3} {f : Fault}
    (h : vertexFault o i position normal = some f) : f.isStructural = false := by
  have hvertex := vertex?_vertexFault h
  cases f with
  | nonFiniteVertex j => rfl
  | invalidNormal j m => rfl
  | _ => exact absurd hvertex (by simp [Fault.vertex?])

theorem hasMismatch_eq_false_iff {b : Batch} : hasMismatch b = false ↔
    b.uvs.size = b.positions.size ∧ b.normals.size = b.positions.size := by
  simp [hasMismatch]

/-- The vertices of a batch, as far as there are positions and normals for them. -/
theorem getElem?_zip_iff {b : Batch} {k : Nat} {p n : Vec3} :
    (b.positions.toList.zip b.normals.toList)[k]? = some (p, n) ↔
      b.positions[k]? = some p ∧ b.normals[k]? = some n := by
  rw [List.getElem?_zip_eq_some, Array.getElem?_toList, Array.getElem?_toList]

/-- What stands behind a fault. -/
inductive Cause (o : Options) (b : Batch) : Fault → Prop
  | empty (h : b.indices = #[]) : Cause o b .emptyBatch
  | count (h : ¬3 ∣ b.indices.size) : Cause o b (.invalidIndexCount b.indices.size)
  | lengths (h : hasMismatch b = true) :
    Cause o b (.attributeLengthMismatch b.positions.size b.uvs.size b.normals.size)
  | index {i : Nat} (hi : i ∈ b.indices) (h : b.positions.size ≤ i) :
    Cause o b (.indexOutOfBounds i b.positions.size)
  | vertex {k : Nat} {p n : Vec3} {f : Fault} (hp : b.positions[k]? = some p)
    (hn : b.normals[k]? = some n) (h : vertexFault o k p n = some f) : Cause o b f

theorem cause_of_mem_contentFaults {o : Options} {b : Batch} {f : Fault}
    (h : f ∈ contentFaults o b) : Cause o b f := by
  rcases List.mem_append.1 h with h | h
  · obtain ⟨i, hi, rfl⟩ := List.mem_map.1 h
    obtain ⟨hmem, hle⟩ := List.mem_filter.1 hi
    exact .index (Array.mem_toList_iff.1 hmem) (of_decide_eq_true hle)
  · obtain ⟨⟨⟨p, n⟩, k⟩, hmem, hfault⟩ := List.mem_filterMap.1 h
    obtain ⟨hp, hn⟩ := getElem?_zip_iff.1 (List.mem_zipIdx_iff_getElem?.1 hmem)
    exact .vertex hp hn hfault

/-- No fault is without a cause. -/
theorem cause_of_mem {o : Options} {b : Batch} {f : Fault} (h : f ∈ faults o b) :
    Cause o b f := by
  rw [faults] at h
  split at h
  · next hempty =>
    obtain rfl := List.mem_singleton.1 h
    exact .empty (Array.isEmpty_iff.1 hempty)
  · rcases List.mem_append.1 h with h | h
    · split at h
      · next hcount =>
        obtain rfl := List.mem_singleton.1 h
        exact .count fun hdvd ↦ hcount (Nat.mod_eq_zero_of_dvd hdvd)
      · exact absurd h List.not_mem_nil
    · split at h
      · next hlengths =>
        obtain rfl := List.mem_singleton.1 h
        exact .lengths hlengths
      · exact cause_of_mem_contentFaults h

/-- A fault that is not structural is one of a vertex. -/
theorem exists_vertexFault {o : Options} {b : Batch} {f : Fault} (hf : f ∈ faults o b)
    (h : f.isStructural = false) :
    ∃ i, ∃ p ∈ b.positions, ∃ n ∈ b.normals, vertexFault o i p n = some f := by
  cases cause_of_mem hf with
  | vertex hp hn hfault =>
    exact ⟨_, _, Array.mem_of_getElem? hp, _, Array.mem_of_getElem? hn, hfault⟩
  | _ => exact absurd h (by simp [Fault.isStructural])

end Validation

open Validation in
/-- Nothing is structurally wrong with a batch that stands on its own. -/
theorem Batch.SelfContained.isStructural_eq_false {b : Batch} (h : b.SelfContained)
    {o : Options} {f : Fault} (hf : f ∈ faults o b) : f.isStructural = false := by
  cases cause_of_mem hf with
  | empty hempty => exact absurd hempty h.indices_ne
  | count hcount => exact absurd h.dvd_size_indices hcount
  | lengths hlengths =>
    rw [hasMismatch_eq_false_iff.2 ⟨h.size_uvs, h.size_normals⟩] at hlengths
    exact absurd hlengths Bool.false_ne_true
  | index hi hle => exact absurd (h.lt_of_mem _ hi) (Nat.not_lt.2 hle)
  | vertex _ _ hfault => exact isStructural_vertexFault hfault

end RwxScene
