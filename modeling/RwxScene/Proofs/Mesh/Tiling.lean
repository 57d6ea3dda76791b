import Mathlib
import RwxScene.Proofs.Mesh.Batch

/-!
# Polygons and their triangles

The triangles of a face tile it with its winding (`FaceShape.tiles_triangulate`). Whether triangles
do so is told by their directed edges: a side of the polygon is an edge of one triangle, passed in
the direction of the polygon, and every other edge is passed by two triangles, in opposite
directions.

The edges of a fan are known for any list of corners (`edges_fanFrom`): from the first corner to all
others but the last one, along these others, and back from all of them but the first one. What
closes the outline is taken from both ends, and the rest are the diagonals, there and back
(`edges_fan`).

Corners of a face may repeat, so edges are to run between places in the face and not between what
stands there. The triangles of `List.range n` are those of a face with `n` corners by their places,
and triangulating goes with every change of what stands at a place (`FaceShape.triangulate_map`).
-/

namespace RwxScene

variable {α β : Type}

/-! ### Edges -/

/-- The edges of a triangle, in the direction of its winding. -/
def Triangle.edges (t : Triangle α) : List (α × α) :=
  [(t.first, t.second), (t.second, t.third), (t.third, t.first)]

/-- The directed edges of some triangles, each as often as it is passed. -/
def edges (ts : List (Triangle α)) : Multiset (α × α) := ↑(ts.flatMap Triangle.edges)

/-- The sides of a polygon, from each corner to the next one and from the last to the first. -/
def sides (l : List α) : List (α × α) := l.zip (l.rotate 1)

/-- The lines from the first corner of a polygon to the corners that no side joins with it. -/
def diagonals : List α → List (α × α)
  | a :: _ :: l => l.dropLast.map (a, ·)
  | _ => []

theorem edges_cons (t : Triangle α) (ts : List (Triangle α)) :
    edges (t :: ts) = ↑t.edges + edges ts := rfl

theorem edges_fanFrom (a : α) (l : List α) :
    edges (fanFrom a l) = ↑(l.dropLast.map (a, ·)) + ↑(l.zip l.tail) + ↑(l.tail.map (·, a)) := by
  induction l with
  | nil => rfl
  | cons b l ih =>
    cases l with
    | nil => rfl
    | cons c l =>
      rw [fanFrom, edges_cons, ih, Triangle.edges]
      simp only [List.dropLast_cons_cons, List.tail_cons, List.zip_cons_cons, List.map_cons,
        ← Multiset.cons_coe, ← Multiset.singleton_add, Multiset.coe_nil]
      abel

/-- Going on from a list to one more element adds one step. -/
theorem zip_concat (a b : α) (l : List α) :
    (b :: l).zip (l ++ [a]) = (b :: l).zip l ++ [((b :: l).getLast (List.cons_ne_nil b l), a)] := by
  induction l generalizing b with
  | nil => rfl
  | cons c l ih =>
    rw [List.cons_append, List.zip_cons_cons, ih c, List.zip_cons_cons]
    rfl

/-- The edges of a fan are the sides, and the diagonals in both directions. -/
theorem edges_fan (a b c : α) (l : List α) :
    edges (fan (a :: b :: c :: l)) = ↑(sides (a :: b :: c :: l)) +
      (↑(diagonals (a :: b :: c :: l)) + ↑((diagonals (a :: b :: c :: l)).map Prod.swap)) := by
  set last := (c :: l).getLast (List.cons_ne_nil c l) with hlast
  have hsides : sides (a :: b :: c :: l) =
      (a, b) :: ((b :: c :: l).zip (c :: l) ++ [(last, a)]) := by
    rw [sides, List.rotate_cons_succ, List.rotate_zero, List.cons_append, List.zip_cons_cons,
      zip_concat]
    rfl
  have hback : (c :: l).map (·, a) = (c :: l).dropLast.map (·, a) ++ [(last, a)] := by
    conv_lhs => rw [← List.dropLast_append_getLast (List.cons_ne_nil c l), List.map_append]
    rfl
  have hswap : (diagonals (a :: b :: c :: l)).map Prod.swap = (c :: l).dropLast.map (·, a) :=
    List.map_map
  rw [fan, edges_fanFrom, hsides, hswap, diagonals, List.tail_cons, hback]
  simp only [List.dropLast_cons_cons, List.map_cons, ← Multiset.cons_coe, ← Multiset.coe_add,
    ← Multiset.singleton_add]
  abel

/-! ### Places -/

/-- A side of the polygon with the corners `0`, …, `n - 1`. -/
def IsSide (n : Nat) (e : Nat × Nat) : Prop :=
  e.1 + 1 < n ∧ e.2 = e.1 + 1 ∨ e.1 + 1 = n ∧ e.2 = 0

/-- A line from the first corner of that polygon to one that no side joins with it. -/
def IsDiagonal (n : Nat) (e : Nat × Nat) : Prop := e.1 = 0 ∧ 2 ≤ e.2 ∧ e.2 + 1 < n

theorem mem_sides_range {n : Nat} {e : Nat × Nat} : e ∈ sides (List.range n) ↔ IsSide n e := by
  obtain ⟨i, j⟩ := e
  have hplace : (i, j) ∈ sides (List.range n) ↔ i < n ∧ (i + 1) % n = j := by
    rw [sides, List.mem_iff_getElem]
    simp [List.getElem_rotate]
  rw [hplace, IsSide]
  rcases lt_trichotomy (i + 1) n with h | h | h
  · rw [Nat.mod_eq_of_lt h]
    omega
  · rw [h, Nat.mod_self]
    omega
  · omega

theorem nodup_sides_range (n : Nat) : (sides (List.range n)).Nodup := by
  refine List.Nodup.of_map Prod.fst ?_
  rw [sides, List.map_fst_zip (by rw [List.length_rotate])]
  exact List.nodup_range

variable {m : Nat} {e : Nat × Nat}

theorem diagonals_range (m : Nat) :
    diagonals (List.range (m + 3)) = (List.range' 2 m).map (0, ·) := by
  rw [List.range_eq_range']
  show (List.range' 2 (m + 1)).dropLast.map _ = _
  rw [List.range'_1_concat, List.dropLast_concat]

theorem mem_diagonals_range : e ∈ diagonals (List.range (m + 3)) ↔ IsDiagonal (m + 3) e := by
  obtain ⟨i, j⟩ := e
  rw [diagonals_range, List.mem_map]
  simp only [List.mem_range'_1, Prod.mk.injEq, IsDiagonal]
  constructor
  · rintro ⟨k, hk, rfl, rfl⟩
    omega
  · rintro ⟨rfl, hj⟩
    exact ⟨j, by omega, rfl, rfl⟩

theorem nodup_diagonals_range (m : Nat) : (diagonals (List.range (m + 3))).Nodup := by
  rw [diagonals_range]
  exact List.Nodup.map (Prod.mk_right_injective 0) List.nodup_range'

theorem mem_map_swap_diagonals_range :
    e ∈ (diagonals (List.range (m + 3))).map Prod.swap ↔ IsDiagonal (m + 3) e.swap := by
  rw [← mem_diagonals_range, List.mem_map]
  constructor
  · rintro ⟨d, hd, rfl⟩
    exact hd
  · exact fun h ↦ ⟨e.swap, h, rfl⟩

theorem edges_fan_range (m : Nat) : edges (fan (List.range (m + 3))) =
    ↑(sides (List.range (m + 3))) + (↑(diagonals (List.range (m + 3))) +
      ↑((diagonals (List.range (m + 3))).map Prod.swap)) := by
  rw [List.range_eq_range']
  exact edges_fan 0 1 2 (List.range' 3 m)

theorem mem_edges_fan_range : e ∈ edges (fan (List.range (m + 3))) ↔
    IsSide (m + 3) e ∨ IsDiagonal (m + 3) e ∨ IsDiagonal (m + 3) e.swap := by
  rw [edges_fan_range, Multiset.mem_add, Multiset.mem_add, Multiset.mem_coe, Multiset.mem_coe,
    Multiset.mem_coe, mem_sides_range, mem_diagonals_range, mem_map_swap_diagonals_range]

/-- A diagonal is no side and no reverse of a side or of a diagonal. -/
theorem IsDiagonal.disjoint {n : Nat} (h : IsDiagonal n e) :
    ¬IsDiagonal n e.swap ∧ ¬IsSide n e ∧ ¬IsSide n e.swap := by
  obtain ⟨i, j⟩ := e
  simp only [IsDiagonal, IsSide, Prod.swap] at *
  omega

/-- No edge is passed twice in the same direction. -/
theorem nodup_edges_fan_range (m : Nat) : (edges (fan (List.range (m + 3)))).Nodup := by
  have hswap := (nodup_diagonals_range m).map Prod.swap_injective
  rw [edges_fan_range, Multiset.nodup_add, Multiset.nodup_add]
  refine ⟨nodup_sides_range _, ⟨nodup_diagonals_range m, hswap, ?_⟩, ?_⟩
  · rw [Multiset.disjoint_left]
    intro e hd hs
    rw [Multiset.mem_coe, mem_diagonals_range] at hd
    rw [Multiset.mem_coe, mem_map_swap_diagonals_range] at hs
    exact hd.disjoint.1 hs
  · rw [Multiset.disjoint_left]
    intro e hside hrest
    rw [Multiset.mem_coe, mem_sides_range] at hside
    rw [Multiset.mem_add, Multiset.mem_coe, Multiset.mem_coe, mem_diagonals_range,
      mem_map_swap_diagonals_range] at hrest
    rcases hrest with hd | hs
    · exact hd.disjoint.2.1 hside
    · exact hs.disjoint.2.2 hside

/-! ### Tilings -/

/-- The triangles, whose corners are places in a polygon with `n` corners, tile it with its
winding. -/
structure Tiles (n : Nat) (ts : List (Triangle Nat)) : Prop where
  /-- A side is passed once, and never backwards. -/
  side : ∀ e, IsSide n e → (edges ts).count e = 1 ∧ (edges ts).count e.swap = 0
  /-- Every other edge is passed once in each direction. -/
  inner : ∀ e ∈ edges ts, ¬IsSide n e → (edges ts).count e = 1 ∧ (edges ts).count e.swap = 1

/-- A fan tiles its polygon. -/
theorem tiles_fan_range {n : Nat} (h : 3 ≤ n) : Tiles n (fan (List.range n)) := by
  obtain ⟨m, rfl⟩ := Nat.exists_eq_add_of_le' h
  have honce : ∀ {e}, e ∈ edges (fan (List.range (m + 3))) →
      (edges (fan (List.range (m + 3)))).count e = 1 :=
    fun he ↦ Multiset.count_eq_one_of_mem (nodup_edges_fan_range m) he
  refine ⟨fun e he ↦ ⟨honce (mem_edges_fan_range.2 (.inl he)), ?_⟩, fun e he hside ↦ ?_⟩
  · rw [Multiset.count_eq_zero, mem_edges_fan_range]
    obtain ⟨i, j⟩ := e
    simp only [IsDiagonal, IsSide, Prod.swap] at *
    omega
  · refine ⟨honce he, honce ?_⟩
    rw [mem_edges_fan_range] at he ⊢
    rw [Prod.swap_swap]
    tauto

/-! ### Faces -/

theorem fanFrom_map (f : α → β) (a : α) (l : List α) :
    fanFrom (f a) (l.map f) = (fanFrom a l).map (Triangle.map f) := by
  induction l with
  | nil => rfl
  | cons b l ih =>
    cases l with
    | nil => rfl
    | cons c l => exact congrArg (⟨f a, f b, f c⟩ :: ·) ih

theorem fan_map (f : α → β) (l : List α) : fan (l.map f) = (fan l).map (Triangle.map f) := by
  cases l with
  | nil => rfl
  | cons a l => exact fanFrom_map f a l

theorem first_of_mem_fanFrom {a : α} {l : List α} {t : Triangle α} (h : t ∈ fanFrom a l) :
    t.first = a := by
  fun_induction fanFrom a l with
  | case1 b c l ih =>
    rcases List.mem_cons.1 h with rfl | h
    · rfl
    · exact ih h
  | case2 => exact absurd h List.not_mem_nil

theorem first_of_mem_fan {l : List α} {t : Triangle α} (h : t ∈ fan l) :
    l.head? = some t.first := by
  cases l with
  | nil => exact absurd h List.not_mem_nil
  | cons a l => exact congrArg some (first_of_mem_fanFrom h).symm

namespace FaceShape

/-- What stands at the corners does not matter to how a face is cut. -/
theorem triangulate_map (shape : FaceShape) (f : α → β) (l : List α) :
    shape.triangulate (l.map f) = (shape.triangulate l).map (Triangle.map f) := by
  rw [triangulate, triangulate, ← fan_map]
  cases shape with
  | triangle => rw [corners, corners, List.map_take]
  | quad => rw [corners, corners, List.map_take]
  | polygon => rfl

/-- The corners of a triangle are found at the places that the triangles of the places name. -/
theorem triangulate_eq_places (shape : FaceShape) (l : List α) :
    (shape.triangulate l).map (Triangle.map some) =
      (shape.triangulate (List.range l.length)).map (Triangle.map (l[·]?)) := by
  rw [← triangulate_map, ← triangulate_map, Builder.map_getElem?_range]

theorem length_corners_le (shape : FaceShape) (l : List α) :
    (shape.corners l).length ≤ l.length := by
  cases shape with
  | triangle => exact List.length_take_le' 3 l
  | quad => exact List.length_take_le' 4 l
  | polygon => exact le_rfl

/-- A face of the right number of corners is cut with all of them. -/
theorem triangulate_eq_fan {shape : FaceShape} {l : List α}
    (h : shape = .polygon ∧ 3 ≤ l.length ∨ shape = .quad ∧ l.length = 4 ∨
      shape = .triangle ∧ l.length = 3) : shape.triangulate l = fan l := by
  rcases h with ⟨rfl, -⟩ | ⟨rfl, h⟩ | ⟨rfl, h⟩
  · rfl
  · rw [triangulate, corners, List.take_of_length_le h.le]
  · rw [triangulate, corners, List.take_of_length_le h.le]

/-- **The triangles of a face tile it with its winding.** There are two fewer than corners, and all
of them begin with the first corner. Their corners are those at the places in the face that the
triangles of `List.range l.length` have, which tile the polygon of the places. Fewer than three
corners make no triangle. -/
theorem tiles_triangulate (shape : FaceShape) (l : List α) :
    (l.length < 3 → shape.triangulate l = []) ∧
    (shape = .polygon ∧ 3 ≤ l.length ∨ shape = .quad ∧ l.length = 4 ∨
        shape = .triangle ∧ l.length = 3 →
      (shape.triangulate l).length = l.length - 2 ∧
      (∀ t ∈ shape.triangulate l, l.head? = some t.first) ∧
      (shape.triangulate l).map (Triangle.map some) =
        (shape.triangulate (List.range l.length)).map (Triangle.map (l[·]?)) ∧
      Tiles l.length (shape.triangulate (List.range l.length))) := by
  refine ⟨fun h ↦ List.eq_nil_of_length_eq_zero ?_, fun h ↦ ?_⟩
  · have hle := shape.length_corners_le l
    rw [triangulate, length_fan]
    omega
  · have hplaces : shape.triangulate (List.range l.length) = fan (List.range l.length) :=
      triangulate_eq_fan (by rwa [List.length_range])
    have hthree : 3 ≤ l.length := by omega
    refine ⟨?_, fun t ht ↦ ?_, shape.triangulate_eq_places l, ?_⟩
    · rw [triangulate_eq_fan h, length_fan]
    · rw [triangulate_eq_fan h] at ht
      exact first_of_mem_fan ht
    · rw [hplaces]
      exact tiles_fan_range hthree

/-- A polygon of six corners, two of which occur twice. -/
theorem tiles_triangulate_repeated :
    (FaceShape.polygon = .polygon ∧ 3 ≤ [4, 0, 4, 2, 0, 7].length) ∧
    (FaceShape.polygon.triangulate [4, 0, 4, 2, 0, 7]).length = 4 ∧
    (∀ t ∈ FaceShape.polygon.triangulate [4, 0, 4, 2, 0, 7], some 4 = some t.first) ∧
    Tiles 6 (FaceShape.polygon.triangulate (List.range 6)) := by
  have h : FaceShape.polygon = .polygon ∧ 3 ≤ [4, 0, 4, 2, 0, 7].length := ⟨rfl, by decide⟩
  obtain ⟨hlength, hfirst, -, htiles⟩ :=
    (tiles_triangulate .polygon [4, 0, 4, 2, 0, 7]).2 (.inl h)
  exact ⟨h, hlength, hfirst, htiles⟩

end FaceShape

end RwxScene
