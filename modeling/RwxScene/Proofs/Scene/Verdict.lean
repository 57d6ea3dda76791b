import Mathlib
import RwxScene.Proofs.Scene.Validation
import RwxScene.Proofs.Scene.Walk

/-!
# What a validation lets through

A scene is valid just if all its batches can be drawn (`Validation.Drawable`), be they the result of
loading or not. A batch that is looked at in full has one fault for every index that leads nowhere,
as often as it occurs, and one for every vertex that is not as it should be (`Validation.Detailed`).

Triangles without area are no fault. They are looked for among those triangles only that have three
vertices, so no lookup misses, and whether and how they are looked for has no part in the problems.
-/

namespace RwxScene.Validation

variable {o : Options} {b : Batch} {i k : Nat} {p n : Vec3}

/-! ### Faults of vertices -/

theorem vertexFault_eq_none_iff : vertexFault o i p n = none ↔
    (p.isFinite = true ∧ n.isFinite = true) ∧
      ¬(o.checkNormals = true ∧ isOffUnit o.normalTolerance n = true) := by
  rw [vertexFault, ← Bool.and_eq_true, ← Bool.and_eq_true]
  cases p.isFinite && n.isFinite <;> cases o.checkNormals && isOffUnit o.normalTolerance n <;> simp

theorem toList_vertexFault (o : Options) (k : Nat) (p n : Vec3) : (vertexFault o k p n).toList =
    if ¬(p.isFinite = true ∧ n.isFinite = true) then [.nonFiniteVertex k]
    else if o.checkNormals = true ∧ o.normalTolerance < (n.lengthSquared - 1).abs then
      [.invalidNormal k n]
    else [] := by
  simp only [vertexFault, isOffUnit, Bool.not_eq_true', Bool.and_eq_true, decide_eq_true_eq,
    ← Bool.not_eq_true]
  split_ifs <;> rfl

/-! ### Batches that can be drawn -/

/-- Nothing is wrong with the batch. -/
structure Drawable (o : Options) (b : Batch) : Prop where
  indices_ne : b.indices ≠ #[]
  dvd_size_indices : 3 ∣ b.indices.size
  size_uvs : b.uvs.size = b.positions.size
  size_normals : b.normals.size = b.positions.size
  lt_of_mem : ∀ i ∈ b.indices, i < b.positions.size
  positions : ∀ p ∈ b.positions, p.isFinite = true
  normals : ∀ n ∈ b.normals, n.isFinite = true
  unit : o.checkNormals = true → ∀ n ∈ b.normals, ¬o.normalTolerance < (n.lengthSquared - 1).abs

/-- A batch that is looked at in full. -/
theorem faults_eq (h : b.indices ≠ #[]) (hsizes : hasMismatch b = false) :
    faults o b = (if b.indices.size % 3 ≠ 0 then [.invalidIndexCount b.indices.size] else []) ++
      contentFaults o b := by
  rw [faults, if_neg (mt Array.isEmpty_iff.1 h), if_neg (Bool.eq_false_iff.1 hsizes)]

theorem contentFaults_eq_nil_iff : contentFaults o b = [] ↔
    (∀ i ∈ b.indices, i < b.positions.size) ∧
      ∀ k p n, b.positions[k]? = some p → b.normals[k]? = some n → vertexFault o k p n = none := by
  rw [contentFaults, List.append_eq_nil_iff, List.map_eq_nil_iff, List.filter_eq_nil_iff,
    List.filterMap_eq_nil_iff]
  refine and_congr ?_ ⟨fun h k p n hp hn ↦ ?_, fun h ((p, n), k) hmem ↦ ?_⟩
  · simp only [Array.mem_toList_iff, decide_eq_true_eq, Nat.not_le]
  · exact h ((p, n), k) (List.mem_zipIdx_iff_getElem?.2 (getElem?_zip_iff.2 ⟨hp, hn⟩))
  · obtain ⟨hp, hn⟩ := getElem?_zip_iff.1 (List.mem_zipIdx_iff_getElem?.1 hmem)
    exact h k p n hp hn

/-- No vertex has a fault just if all positions and all normals are as they should be. -/
theorem forall_vertexFault_iff (hsize : b.normals.size = b.positions.size) :
    (∀ k p n, b.positions[k]? = some p → b.normals[k]? = some n → vertexFault o k p n = none) ↔
      (∀ p ∈ b.positions, p.isFinite = true) ∧ (∀ n ∈ b.normals, n.isFinite = true) ∧
        (o.checkNormals = true →
          ∀ n ∈ b.normals, ¬o.normalTolerance < (n.lengthSquared - 1).abs) := by
  simp only [vertexFault_eq_none_iff, isOffUnit, decide_eq_true_eq]
  constructor
  · intro h
    have hposition : ∀ p ∈ b.positions, p.isFinite = true := by
      intro p hp
      obtain ⟨k, hk, rfl⟩ := Array.mem_iff_getElem.1 hp
      have hk' : k < b.normals.size := hsize ▸ hk
      exact (h k _ _ (Array.getElem?_eq_getElem hk) (Array.getElem?_eq_getElem hk')).1.1
    have hnormal : ∀ n ∈ b.normals, n.isFinite = true ∧
        ¬(o.checkNormals = true ∧ o.normalTolerance < (n.lengthSquared - 1).abs) := by
      intro n hn
      obtain ⟨k, hk, rfl⟩ := Array.mem_iff_getElem.1 hn
      have hk' : k < b.positions.size := hsize ▸ hk
      obtain ⟨hfinite, hunit⟩ :=
        h k _ _ (Array.getElem?_eq_getElem hk') (Array.getElem?_eq_getElem hk)
      exact ⟨hfinite.2, hunit⟩
    exact ⟨hposition, fun n hn ↦ (hnormal n hn).1,
      fun hcheck n hn hoff ↦ (hnormal n hn).2 ⟨hcheck, hoff⟩⟩
  · rintro ⟨hposition, hnormal, hunit⟩ k p n hp hn
    have hn := Array.mem_of_getElem? hn
    exact ⟨⟨hposition p (Array.mem_of_getElem? hp), hnormal n hn⟩,
      fun ⟨hcheck, hoff⟩ ↦ hunit hcheck n hn hoff⟩

/-- A batch without faults is one that can be drawn. -/
theorem faults_eq_nil_iff : faults o b = [] ↔ Drawable o b := by
  constructor
  · intro h
    have hindices : b.indices ≠ #[] := by
      intro hempty
      rw [faults, if_pos (Array.isEmpty_iff.2 hempty)] at h
      exact absurd h (List.cons_ne_nil _ _)
    have hsizes : hasMismatch b = false := by
      rw [Bool.eq_false_iff]
      intro hmismatch
      rw [faults, if_neg (mt Array.isEmpty_iff.1 hindices), if_pos hmismatch,
        List.append_eq_nil_iff] at h
      exact absurd h.2 (List.cons_ne_nil _ _)
    rw [faults_eq hindices hsizes, List.append_eq_nil_iff, contentFaults_eq_nil_iff] at h
    obtain ⟨hthrees, hlt, hvertices⟩ := h
    obtain ⟨huvs, hnormals⟩ := hasMismatch_eq_false_iff.1 hsizes
    obtain ⟨hposition, hnormal, hunit⟩ := (forall_vertexFault_iff hnormals).1 hvertices
    refine ⟨hindices, Nat.dvd_of_mod_eq_zero ?_, huvs, hnormals, hlt, hposition, hnormal, hunit⟩
    by_contra hrest
    rw [if_pos hrest] at hthrees
    exact absurd hthrees (List.cons_ne_nil _ _)
  · intro h
    rw [faults_eq h.indices_ne (hasMismatch_eq_false_iff.2 ⟨h.size_uvs, h.size_normals⟩),
      if_neg (not_not.2 (Nat.mod_eq_zero_of_dvd h.dvd_size_indices)), List.nil_append,
      contentFaults_eq_nil_iff]
    exact ⟨h.lt_of_mem,
      (forall_vertexFault_iff h.size_normals).2 ⟨h.positions, h.normals, h.unit⟩⟩

theorem problemsOf_eq_nil_iff {m : Node} :
    problemsOf o m = [] ↔ ∀ b ∈ m.batches, Drawable o b := by
  rw [problemsOf, List.flatMap_eq_nil_iff]
  constructor
  · intro h b hb
    obtain ⟨i, hi⟩ := List.mem_iff_getElem?.1 hb
    exact faults_eq_nil_iff.1 (List.map_eq_nil_iff.1 (h (b, i) (List.mem_zipIdx_iff_getElem?.2 hi)))
  · intro h (b, i) hb
    exact List.map_eq_nil_iff.2 (faults_eq_nil_iff.2 (h b (List.fst_mem_of_mem_zipIdx hb)))

theorem isValid_iff {root : Node} :
    (validate o root).isValid = true ↔ ∀ m ∈ root.walk, ∀ b ∈ m.batches, Drawable o b := by
  rw [Report.isValid, List.isEmpty_iff, problems_validate, List.flatMap_eq_nil_iff]
  simp only [problemsOf_eq_nil_iff]

/-- The problems of a node stand before those of its children, and these in order. -/
theorem problems_validate_eq (o : Options) (root : Node) : (validate o root).problems =
    problemsOf o root ++ root.children.flatMap fun c ↦ (validate o c).problems := by
  simp only [problems_validate]
  rw [Node.walk_eq_flatMap, List.flatMap_cons, List.flatMap_assoc]

/-! ### One fault for each defect -/

/-- The element at a place, out of a list with places. -/
theorem filter_zipIdx_eq {α : Type} (l : List α) (j k : Nat) :
    (l.zipIdx j).filter (·.2 == j + k) = (l[k]?.map (·, j + k)).toList := by
  induction l generalizing j k with
  | nil => rfl
  | cons a l ih =>
    rw [List.zipIdx_cons, List.filter_cons]
    cases k with
    | zero =>
      have hrest : (l.zipIdx (j + 1)).filter (·.2 == j + 0) = [] := by
        refine List.filter_eq_nil_iff.2 fun x hx heq ↦ ?_
        have hle := List.le_snd_of_mem_zipIdx hx
        have heq := eq_of_beq heq
        omega
      rw [hrest]
      simp
    | succ k =>
      have hshift : j + (k + 1) = j + 1 + k := by omega
      have hne : ¬(j == j + 1 + k) = true := by simp; omega
      rw [hshift, if_neg hne, ih]
      rfl

/-- The faults of one vertex, out of the faults of all vertices. -/
theorem filter_vertexFaults (o : Options) (vertices : List (Vec3 × Vec3)) (k : Nat) :
    (vertices.zipIdx.filterMap fun ((p, n), i) ↦ vertexFault o i p n).filter
        (·.vertex? == some k) =
      (vertices[k]?.bind fun (p, n) ↦ vertexFault o k p n).toList := by
  have hplace : ∀ x : (Vec3 × Vec3) × Nat,
      (vertexFault o x.2 x.1.1 x.1.2).filter (·.vertex? == some k) =
        if x.2 == k then vertexFault o x.2 x.1.1 x.1.2 else none := by
    intro ((p, n), i)
    show (vertexFault o i p n).filter _ = if i == k then vertexFault o i p n else none
    cases hfault : vertexFault o i p n with
    | none => simp
    | some f => simp [Option.filter, vertex?_vertexFault hfault]
  have hone := filter_zipIdx_eq vertices 0 k
  rw [Nat.zero_add] at hone
  rw [List.filter_filterMap]
  simp only [hplace]
  rw [← List.filterMap_filter, hone]
  cases vertices[k]? with
  | none => rfl
  | some x =>
    show [(x, k)].filterMap _ = (vertexFault o k x.1 x.2).toList
    cases hfault : vertexFault o k x.1 x.2 with
    | none => exact List.filterMap_cons_none hfault
    | some f => exact List.filterMap_cons_some hfault

/-- What is wrong with a batch that is looked at in full, defect by defect. -/
structure Detailed (o : Options) (b : Batch) : Prop where
  /-- As many faults as there are occurrences of an index that leads nowhere. -/
  outside : ∀ i, b.positions.size ≤ i →
    (faults o b).count (.indexOutOfBounds i b.positions.size) = b.indices.toList.count i
  inside : ∀ i size, .indexOutOfBounds i size ∈ faults o b →
    size = b.positions.size ∧ b.positions.size ≤ i
  vertex : ∀ k p n, b.positions[k]? = some p → b.normals[k]? = some n →
    (faults o b).filter (·.vertex? == some k) =
      if ¬(p.isFinite = true ∧ n.isFinite = true) then [.nonFiniteVertex k]
      else if o.checkNormals = true ∧ o.normalTolerance < (n.lengthSquared - 1).abs then
        [.invalidNormal k n]
      else []
  beyond : ∀ k, b.positions.size ≤ k → (faults o b).filter (·.vertex? == some k) = []

theorem filter_vertex?_faults (hindices : b.indices ≠ #[]) (hsizes : hasMismatch b = false)
    (o : Options) (k : Nat) : (faults o b).filter (·.vertex? == some k) =
      ((b.positions.toList.zip b.normals.toList)[k]?.bind fun (p, n) ↦
        vertexFault o k p n).toList := by
  have hthrees : (if b.indices.size % 3 ≠ 0 then [Fault.invalidIndexCount b.indices.size]
      else []).filter (·.vertex? == some k) = [] := by
    split <;> rfl
  have houtside : ∀ is : List Nat,
      (is.map (Fault.indexOutOfBounds · b.positions.size)).filter (·.vertex? == some k) = [] := by
    intro is
    refine List.filter_eq_nil_iff.2 fun f hf ↦ ?_
    obtain ⟨i, -, rfl⟩ := List.mem_map.1 hf
    exact Bool.false_ne_true
  rw [faults_eq hindices hsizes, contentFaults, List.filter_append, List.filter_append, hthrees,
    houtside, List.nil_append, List.nil_append, filter_vertexFaults]

theorem count_outOfBounds_faults (hindices : b.indices ≠ #[]) (hsizes : hasMismatch b = false)
    (o : Options) (hi : b.positions.size ≤ i) :
    (faults o b).count (.indexOutOfBounds i b.positions.size) = b.indices.toList.count i := by
  have hthrees : (if b.indices.size % 3 ≠ 0 then [Fault.invalidIndexCount b.indices.size]
      else []).count (.indexOutOfBounds i b.positions.size) = 0 := by
    split <;> rfl
  have hvertices : ((b.positions.toList.zip b.normals.toList).zipIdx.filterMap
      fun ((p, n), i) ↦ vertexFault o i p n).count (.indexOutOfBounds i b.positions.size) = 0 := by
    refine List.count_eq_zero.2 fun hmem ↦ ?_
    obtain ⟨x, -, hfault⟩ := List.mem_filterMap.1 hmem
    exact absurd (vertex?_vertexFault hfault) (by simp [Fault.vertex?])
  have hinjective : Function.Injective (Fault.indexOutOfBounds · b.positions.size) :=
    fun i j h ↦ (Fault.indexOutOfBounds.inj h).1
  rw [faults_eq hindices hsizes, contentFaults, List.count_append, List.count_append, hthrees,
    hvertices, List.count_map_of_injective _ _ hinjective, Nat.zero_add, Nat.add_zero,
    List.count_filter]
  exact decide_eq_true hi

/-- An index is out of bounds if the fault says so. -/
theorem of_mem_faults {size : Nat} (h : .indexOutOfBounds i size ∈ faults o b) :
    size = b.positions.size ∧ b.positions.size ≤ i := by
  cases cause_of_mem h with
  | index _ hle => exact ⟨rfl, hle⟩
  | vertex _ _ hfault => exact absurd (vertex?_vertexFault hfault) (by simp [Fault.vertex?])

theorem detailed (o : Options) (hindices : b.indices ≠ #[]) (hsizes : hasMismatch b = false) :
    Detailed o b := by
  refine ⟨fun i hi ↦ count_outOfBounds_faults hindices hsizes o hi,
    fun i size ↦ of_mem_faults, fun k p n hp hn ↦ ?_, fun k hk ↦ ?_⟩
  · rw [filter_vertex?_faults hindices hsizes, getElem?_zip_iff.2 ⟨hp, hn⟩]
    exact toList_vertexFault o k p n
  · have hzip : (b.positions.toList.zip b.normals.toList)[k]? = none := by
      refine List.getElem?_eq_none ?_
      rw [List.length_zip, Array.length_toList]
      exact (Nat.min_le_left _ _).trans hk
    rw [filter_vertex?_faults hindices hsizes, hzip]
    rfl

/-! ### Triangles without area -/

/-- The corners of a triangle are there if its indices lead somewhere. -/
theorem isSome_cornersOf? (b : Batch) (t : Triangle Nat) :
    (cornersOf? b t).isSome = t.toList.all (· < b.positions.size) := by
  have hsome : ∀ i, decide (i < b.positions.size) = b.positions[i]?.isSome :=
    fun i ↦ by rw [Bool.eq_iff_iff, decide_eq_true_eq, isSome_getElem?]
  have hcorners : cornersOf? b t = b.positions[t.first]?.bind fun p ↦ b.positions[t.second]?.bind
      fun q ↦ b.positions[t.third]?.bind fun r ↦ some ⟨p, q, r⟩ := rfl
  rw [hcorners]
  simp only [Triangle.toList, List.all_cons, List.all_nil, hsome]
  cases b.positions[t.first]? <;> cases b.positions[t.second]? <;>
    cases b.positions[t.third]? <;> rfl

theorem mapM_filter_isSome {α β : Type} (f : α → Option β) (l : List α) :
    (l.filter fun a ↦ (f a).isSome).mapM f = some (l.filterMap f) := by
  induction l with
  | nil => rfl
  | cons a l ih =>
    cases hfa : f a with
    | none => rw [List.filter_cons_of_neg (by simp [hfa]), List.filterMap_cons_none hfa, ih]
    | some c =>
      rw [List.filter_cons_of_pos (by simp [hfa]), List.filterMap_cons_some hfa, List.mapM_cons, ih,
        hfa]
      rfl

/-- The triangles whose indices all lead to a vertex. -/
def reachable (b : Batch) : List (Triangle Nat) :=
  b.triangles.filter fun t ↦ t.toList.all (· < b.positions.size)

/-- No lookup of a corner misses, and no triangle is passed over but for its indices. -/
theorem mapM_cornersOf? (b : Batch) :
    (reachable b).mapM (cornersOf? b) = some (b.triangles.filterMap (cornersOf? b)) := by
  simp only [reachable, ← isSome_cornersOf?]
  exact mapM_filter_isSome _ _

theorem exists_corners_reachable (o : Options) (b : Batch) :
    ∃ corners, (reachable b).mapM (cornersOf? b) = some corners ∧
      (o.checkDegenerateTriangles = true → b.indices ≠ #[] → hasMismatch b = false →
        degenerateCount o b = corners.countP (isDegenerate o.minTriangleArea)) := by
  refine ⟨_, mapM_cornersOf? b, fun hcheck hindices hsizes ↦ if_neg ?_⟩
  rw [hcheck, hsizes, Array.isEmpty_eq_false_iff.2 hindices]
  exact Bool.false_ne_true

theorem sum_warningsOf (o : Options) (m : Node) :
    ((warningsOf o m).map Warning.triangles).sum = (m.batches.map (degenerateCount o)).sum := by
  have hone : ∀ x : Batch × Nat, ((if degenerateCount o x.1 = 0 then []
      else [Warning.mk m.name x.2 (degenerateCount o x.1)]).map Warning.triangles).sum =
        degenerateCount o x.1 := by
    intro x
    split
    · next hzero => exact hzero.symm
    · exact Nat.add_zero _
  rw [warningsOf, sum_map_flatMap]
  simp only [hone]
  conv_rhs => rw [← List.zipIdx_map_fst 0 m.batches, List.map_map]
  rfl

/-- Every triangle without area is in one warning. -/
theorem sum_warnings (o : Options) (root : Node) :
    ((validate o root).warnings.map Warning.triangles).sum =
      (validate o root).stats.degenerate := by
  rw [warnings_validate, stats_validate, sum_map_flatMap]
  simp only [sum_warningsOf]
  exact (sum_map_flatMap Node.batches (degenerateCount o) root.walk).symm

/-- No triangle is looked at if none is to be looked at. -/
theorem warnings_eq_nil (h : o.checkDegenerateTriangles = false) (root : Node) :
    (validate o root).warnings = [] := by
  have hcount : ∀ b, degenerateCount o b = 0 := by
    intro b
    rw [degenerateCount, h]
    rfl
  rw [warnings_validate, List.flatMap_eq_nil_iff]
  intro m hm
  rw [warningsOf, List.flatMap_eq_nil_iff]
  exact fun x hx ↦ if_pos (hcount x.1)

/-! ### Verdicts -/

/-- **A validation finds all that is wrong and nothing else.** Problems are listed node by node and
batch by batch. Looking for triangles without area adds warnings and one number of the counts. -/
theorem sound_and_complete (o : Options) (root : Node) :
    ((validate o root).isValid = true ↔ ∀ m ∈ root.walk, ∀ b ∈ m.batches, Drawable o b) ∧
    (validate o root).problems =
      (root.batches.zipIdx.flatMap fun (b, i) ↦ (faults o b).map (⟨root.name, i, ·⟩)) ++
        root.children.flatMap (fun c ↦ (validate o c).problems) ∧
    (∀ b : Batch, b.indices ≠ #[] → b.uvs.size = b.positions.size →
      b.normals.size = b.positions.size → Detailed o b) ∧
    (∀ b : Batch, ∃ corners, (reachable b).mapM (cornersOf? b) = some corners ∧
      (o.checkDegenerateTriangles = true → b.indices ≠ #[] → hasMismatch b = false →
        degenerateCount o b = corners.countP (isDegenerate o.minTriangleArea))) ∧
    ((validate o root).warnings.map Warning.triangles).sum =
      (validate o root).stats.degenerate ∧
    ∀ check area, let o' : Options :=
        { o with checkDegenerateTriangles := check, minTriangleArea := area }
      (validate o' root).problems = (validate o root).problems ∧
      (validate o' root).stats =
        { (validate o root).stats with degenerate := (validate o' root).stats.degenerate } ∧
      (check = false → (validate o' root).warnings = []) := by
  refine ⟨isValid_iff, problems_validate_eq o root, fun b hindices huvs hnormals ↦
    detailed o hindices (hasMismatch_eq_false_iff.2 ⟨huvs, hnormals⟩), exists_corners_reachable o,
    sum_warnings o root, fun check area ↦ ⟨?_, ?_, fun h ↦ warnings_eq_nil h root⟩⟩
  · rw [problems_validate, problems_validate]
    rfl
  · rw [stats_validate, stats_validate]
    rfl

end RwxScene.Validation
