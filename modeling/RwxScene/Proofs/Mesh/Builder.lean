import Mathlib.Tactic.Set
import RwxScene.Mesh.Builder

/-!
# Builders over a pool

A builder copies vertices out of a pool, and its slots remember which. `Builder.WellFormed` says that
they remember rightly: a slot points at a faithful copy of the vertex at its offset, every index has
a vertex, and the signature is that of the material. The pool may grow meanwhile
(`WellFormed.mono`); a builder never looks at another one.

What a builder has collected is read off with `Builder.corners`: the vertices at the corners of its
triangles. Pushing triangles appends exactly the vertices that the pool has at their offsets
(`adds_pushAll`), whether they were copied before or not.
-/

namespace RwxScene

/-! ### Triangles and faces -/

namespace Triangle

variable {α β γ : Type}

@[simp] theorem map_map (g : β → γ) (f : α → β) (t : Triangle α) :
    (t.map f).map g = t.map (g ∘ f) := rfl

theorem map_congr {f g : α → β} {t : Triangle α} (h : ∀ a ∈ t.toList, f a = g a) :
    t.map f = t.map g := by
  simp only [map, mk.injEq]
  exact ⟨h _ (by simp [toList]), h _ (by simp [toList]), h _ (by simp [toList])⟩

theorem ofList_map (f : α → β) (l : List α) : ofList (l.map f) = (ofList l).map (map f) := by
  fun_induction ofList l with
  | case1 a b c l ih => simp [ofList, ih, map]
  | case2 l h =>
    rcases l with - | ⟨a, - | ⟨b, - | ⟨c, l⟩⟩⟩
    · rfl
    · rfl
    · rfl
    · exact absurd rfl (h a b c l)

end Triangle

theorem mem_of_mem_fanFrom {α : Type} {a : α} {l : List α} {t : Triangle α}
    (h : t ∈ fanFrom a l) : ∀ x ∈ t.toList, x ∈ a :: l := by
  fun_induction fanFrom a l with
  | case1 b c l ih =>
    rcases List.mem_cons.1 h with rfl | h
    · simp [Triangle.toList]
    · intro x hx
      rcases List.mem_cons.1 (ih h x hx) with rfl | hx
      · exact List.mem_cons_self
      · exact List.mem_cons_of_mem _ (List.mem_cons_of_mem _ hx)
  | case2 => exact absurd h List.not_mem_nil

/-- The corners of the triangles of a face are corners of the face. -/
theorem FaceShape.mem_of_mem_triangulate {α : Type} {shape : FaceShape} {l : List α}
    {t : Triangle α} (h : t ∈ shape.triangulate l) : ∀ x ∈ t.toList, x ∈ l := by
  have hsub : ∀ x ∈ shape.corners l, x ∈ l := by
    intro x hx
    cases shape with
    | triangle => exact List.mem_of_mem_take hx
    | quad => exact List.mem_of_mem_take hx
    | polygon => exact hx
  rw [triangulate] at h
  cases hc : shape.corners l with
  | nil =>
    rw [hc] at h
    exact absurd h List.not_mem_nil
  | cons a m =>
    rw [hc] at h hsub
    exact fun x hx ↦ hsub x (mem_of_mem_fanFrom h x hx)

/-! ### Resolving -/

/-- Indices are resolved exactly if all of them count vertices of the pool. -/
theorem Pool.resolve_eq_some_iff {pool : Pool} {indices offsets : List Nat} :
    pool.resolve indices = some offsets ↔
      (∀ i ∈ indices, 1 ≤ i ∧ i ≤ pool.size) ∧ offsets = indices.map (· - 1) := by
  induction indices generalizing offsets with
  | nil => simp [resolve, eq_comm]
  | cons i is ih =>
    have hcons : pool.resolve (i :: is) =
        (if 0 < i ∧ i ≤ pool.size then some (i - 1) else none).bind fun o ↦
          (pool.resolve is).map (o :: ·) := by
      rw [resolve, resolve, List.mapM_cons]
      simp only [Option.bind_eq_bind, Option.pure_def, Option.map_eq_bind, Function.comp_def]
    rw [hcons]
    by_cases hi : 0 < i ∧ i ≤ pool.size
    · rw [if_pos hi, Option.bind_some, Option.map_eq_some_iff]
      constructor
      · rintro ⟨os, hos, rfl⟩
        obtain ⟨hall, rfl⟩ := ih.1 hos
        exact ⟨List.forall_mem_cons.2 ⟨hi, hall⟩, rfl⟩
      · rintro ⟨hall, rfl⟩
        exact ⟨_, ih.2 ⟨(List.forall_mem_cons.1 hall).2, rfl⟩, rfl⟩
    · rw [if_neg hi]
      constructor
      · exact fun h ↦ absurd h (by simp)
      · exact fun h ↦ absurd (List.forall_mem_cons.1 h.1).1 hi

/-- What was resolved is in range. -/
theorem Pool.lt_of_resolve {pool : Pool} {indices offsets : List Nat}
    (h : pool.resolve indices = some offsets) : ∀ o ∈ offsets, o < pool.size := by
  obtain ⟨hall, rfl⟩ := resolve_eq_some_iff.1 h
  intro o ho
  obtain ⟨i, hi, rfl⟩ := List.mem_map.1 ho
  have := hall i hi
  omega

/-! ### Well-formed builders -/

namespace Builder

/-- The positions of the copied vertices. -/
def positions (b : Builder) : Array Vec3 := b.vertices.map Vertex.position

/-- The texture coordinates of the copied vertices. -/
def uvs (b : Builder) : Array UV := b.vertices.map Vertex.uv

/-- The corners of the triangles in a row. -/
def indices (b : Builder) : List Nat := b.triangles.toList.flatMap Triangle.toList

/-- A builder that agrees with the pool it copies from. -/
structure WellFormed (pool : Pool) (b : Builder) : Prop where
  signature_eq : b.signature = b.material.signature
  dvd_length_indices : 3 ∣ b.indices.length
  lt_of_mem_indices : ∀ i ∈ b.indices, i < b.positions.size
  size_uvs : b.uvs.size = b.positions.size
  /-- A slot points at a copy of the vertex at its offset. -/
  slots : ∀ offset k : Nat, b.slots[offset]? = some k →
    ∃ v : Vertex, pool[offset]? = some v ∧ b.positions[k]? = some v.position ∧ b.uvs[k]? = some v.uv

/-- Positions and texture coordinates at a place are those of one vertex. -/
theorem getElem?_vertices_iff {b : Builder} {k : Nat} {v : Vertex} :
    b.positions[k]? = some v.position ∧ b.uvs[k]? = some v.uv ↔ b.vertices[k]? = some v := by
  simp only [positions, uvs, Array.getElem?_map]
  cases b.vertices[k]? with
  | none => simp
  | some w =>
    obtain ⟨p, t⟩ := w
    obtain ⟨q, u⟩ := v
    simp

theorem length_indices (b : Builder) : b.indices.length = 3 * b.triangles.size := by
  have h : ∀ ts : List (Triangle Nat), (ts.flatMap Triangle.toList).length = 3 * ts.length := by
    intro ts
    induction ts with
    | nil => rfl
    | cons t ts ih =>
      rw [List.flatMap_cons, List.length_append, ih, Triangle.length_toList, List.length_cons]
      omega
  exact h _

/-- Sizes and multiples of three hold of every builder, so three facts are enough. -/
theorem wellFormed_iff {pool : Pool} {b : Builder} :
    b.WellFormed pool ↔
      b.signature = b.material.signature ∧
        (∀ t ∈ b.triangles, ∀ i ∈ t.toList, i < b.vertices.size) ∧
          ∀ offset k : Nat, b.slots[offset]? = some k →
            ∃ v : Vertex, pool[offset]? = some v ∧ b.vertices[k]? = some v := by
  have hmem : (∀ i ∈ b.indices, i < b.positions.size) ↔
      ∀ t ∈ b.triangles, ∀ i ∈ t.toList, i < b.vertices.size := by
    simp only [indices, positions, Array.size_map, List.mem_flatMap, Array.mem_toList_iff]
    exact ⟨fun h t ht i hi ↦ h i ⟨t, ht, hi⟩, fun h i ⟨t, ht, hi⟩ ↦ h t ht i hi⟩
  constructor
  · intro h
    refine ⟨h.signature_eq, hmem.1 h.lt_of_mem_indices, fun offset k hk ↦ ?_⟩
    obtain ⟨v, hv, hcopy⟩ := h.slots offset k hk
    exact ⟨v, hv, getElem?_vertices_iff.1 hcopy⟩
  · rintro ⟨hsig, htri, hslots⟩
    refine ⟨hsig, ⟨_, b.length_indices⟩, hmem.2 htri, by simp [uvs, positions], ?_⟩
    intro offset k hk
    obtain ⟨v, hv, hcopy⟩ := hslots offset k hk
    exact ⟨v, hv, getElem?_vertices_iff.2 hcopy⟩

theorem wellFormed_new (pool : Pool) (m : Material) : (new m m.signature).WellFormed pool := by
  refine wellFormed_iff.2 ⟨rfl, fun t ht ↦ absurd ht (by simp [new]), fun offset k hk ↦ ?_⟩
  simp [new] at hk

/-- The pool may grow. -/
theorem WellFormed.mono {pool : Pool} {b : Builder} (h : b.WellFormed pool) (v : Vertex) :
    b.WellFormed (pool.push v) := by
  obtain ⟨hsig, htri, hslots⟩ := wellFormed_iff.1 h
  refine wellFormed_iff.2 ⟨hsig, htri, fun offset k hk ↦ ?_⟩
  obtain ⟨w, hw, hcopy⟩ := hslots offset k hk
  have hlt : offset < pool.size := (Array.getElem?_eq_some_iff.1 hw).1
  exact ⟨w, by rw [Array.getElem?_push_lt hlt, ← hw, Array.getElem?_eq_getElem hlt], hcopy⟩

/-! ### Placing a corner -/

/-- A builder that has the same triangles over at least the same vertices. -/
structure Grows (b c : Builder) : Prop where
  material : c.material = b.material
  signature : c.signature = b.signature
  triangles : c.triangles = b.triangles
  vertices : ∀ (i : Nat) (v : Vertex), b.vertices[i]? = some v → c.vertices[i]? = some v

theorem Grows.trans {b c d : Builder} (h : b.Grows c) (h' : c.Grows d) : b.Grows d where
  material := h'.material.trans h.material
  signature := h'.signature.trans h.signature
  triangles := h'.triangles.trans h.triangles
  vertices i v hv := h'.vertices i v (h.vertices i v hv)

theorem Grows.size_le {b c : Builder} (h : b.Grows c) : b.vertices.size ≤ c.vertices.size := by
  refine Nat.le_of_not_lt fun hi ↦ ?_
  have hv := h.vertices _ _ (Array.getElem?_eq_getElem hi)
  exact absurd (Array.getElem?_eq_some_iff.1 hv).1 (by omega)

theorem grows_place (b : Builder) (pool : Pool) (offset : Nat) :
    b.Grows (b.place pool offset).2 := by
  rw [place]
  cases b.slots[offset]? with
  | some i => exact ⟨rfl, rfl, rfl, fun _ _ h ↦ h⟩
  | none =>
    refine ⟨rfl, rfl, rfl, fun i v hv ↦ ?_⟩
    have hlt : i < b.vertices.size := (Array.getElem?_eq_some_iff.1 hv).1
    show (b.vertices.push _)[i]? = some v
    rw [Array.getElem?_push_lt hlt, ← hv, Array.getElem?_eq_getElem hlt]

variable {pool : Pool} {b : Builder}

/-- A slot is an old one, or the one that was made for this very offset. -/
theorem slot_of_place {offset o k : Nat} (h : (b.place pool offset).2.slots[o]? = some k) :
    b.slots[o]? = some k ∨
      b.slots[offset]? = none ∧ o = offset ∧ k = b.vertices.size := by
  rw [place] at h
  cases hslot : b.slots[offset]? with
  | some i =>
    rw [hslot] at h
    exact .inl h
  | none =>
    rw [hslot] at h
    replace h : (b.slots.insert offset b.vertices.size)[o]? = some k := h
    rw [Std.TreeMap.getElem?_insert] at h
    split at h
    · next heq =>
      exact .inr ⟨rfl, (Std.LawfulEqCmp.compare_eq_iff_eq.1 heq).symm, (Option.some.inj h).symm⟩
    · exact .inl h

/-- An offset without a slot gets the next vertex. -/
theorem place_of_none {offset : Nat} (h : b.slots[offset]? = none) :
    b.place pool offset = (b.vertices.size,
      { b with
        slots := b.slots.insert offset b.vertices.size
        vertices := b.vertices.push (pool.vertex offset) }) := by
  rw [place, h]

/-- The place of a corner holds the vertex that the pool has at its offset. -/
theorem getElem?_place (hb : b.WellFormed pool) {offset : Nat} (ho : offset < pool.size) :
    (b.place pool offset).2.vertices[(b.place pool offset).1]? = pool[offset]? := by
  obtain ⟨-, -, hslots⟩ := wellFormed_iff.1 hb
  rw [place]
  cases h : b.slots[offset]? with
  | some i =>
    obtain ⟨v, hv, hcopy⟩ := hslots offset i h
    rw [hv]
    exact hcopy
  | none =>
    show (b.vertices.push _)[b.vertices.size]? = _
    rw [Array.getElem?_push_size, Pool.vertex, Array.getElem?_eq_getElem ho, Option.getD_some]

theorem WellFormed.place (hb : b.WellFormed pool) {offset : Nat} (ho : offset < pool.size) :
    (b.place pool offset).2.WellFormed pool := by
  obtain ⟨hsig, htri, hslots⟩ := wellFormed_iff.1 hb
  have hgrows := grows_place b pool offset
  refine wellFormed_iff.2 ⟨?_, ?_, ?_⟩
  · rw [hgrows.signature, hgrows.material, hsig]
  · rw [hgrows.triangles]
    exact fun t ht i hi ↦ Nat.lt_of_lt_of_le (htri t ht i hi) hgrows.size_le
  · intro o k hk
    rcases slot_of_place hk with hold | ⟨hnone, rfl, rfl⟩
    · obtain ⟨v, hv, hcopy⟩ := hslots o k hold
      exact ⟨v, hv, hgrows.vertices k v hcopy⟩
    · have hcopy := getElem?_place hb ho
      rw [Array.getElem?_eq_getElem ho] at hcopy
      refine ⟨_, Array.getElem?_eq_getElem ho, ?_⟩
      rwa [place_of_none hnone] at hcopy ⊢

/-! ### Pushing triangles -/

/-- The vertices at the corners of the triangles. -/
def corners (b : Builder) : List (Triangle (Option Vertex)) :=
  b.triangles.toList.map (Triangle.map (b.vertices[·]?))

@[simp] theorem corners_new (m : Material) (s : Signature) : (new m s).corners = [] := rfl

/-- The three places are found one after the other; the triangle comes last. -/
theorem exists_push (hb : b.WellFormed pool) {t : Triangle Nat}
    (ht : ∀ o ∈ t.toList, o < pool.size) :
    ∃ (c : Builder) (u : Triangle Nat), b.push pool t = { c with triangles := c.triangles.push u } ∧
      b.Grows c ∧ c.WellFormed pool ∧ (∀ i ∈ u.toList, i < c.vertices.size) ∧
        u.map (c.vertices[·]?) = t.map (pool[·]?) := by
  have h₁ : t.first < pool.size := ht _ (by simp [Triangle.toList])
  have h₂ : t.second < pool.size := ht _ (by simp [Triangle.toList])
  have h₃ : t.third < pool.size := ht _ (by simp [Triangle.toList])
  set r₁ := b.place pool t.first with hr₁
  set r₂ := r₁.2.place pool t.second with hr₂
  set r₃ := r₂.2.place pool t.third with hr₃
  have hb₁ : r₁.2.WellFormed pool := hb.place h₁
  have hb₂ : r₂.2.WellFormed pool := hb₁.place h₂
  have hb₃ : r₃.2.WellFormed pool := hb₂.place h₃
  have hg₂ : r₁.2.Grows r₂.2 := grows_place _ _ _
  have hg₃ : r₂.2.Grows r₃.2 := grows_place _ _ _
  -- what was found stays where it is while the other corners are placed
  have hi : r₃.2.vertices[r₁.1]? = pool[t.first]? := by
    have h := getElem?_place hb h₁
    rw [Array.getElem?_eq_getElem h₁] at h ⊢
    exact (hg₂.trans hg₃).vertices _ _ h
  have hj : r₃.2.vertices[r₂.1]? = pool[t.second]? := by
    have h := getElem?_place hb₁ h₂
    rw [Array.getElem?_eq_getElem h₂] at h ⊢
    exact hg₃.vertices _ _ h
  have hk : r₃.2.vertices[r₃.1]? = pool[t.third]? := getElem?_place hb₂ h₃
  refine ⟨r₃.2, ⟨r₁.1, r₂.1, r₃.1⟩, rfl, ((grows_place b pool t.first).trans hg₂).trans hg₃, hb₃,
    ?_, by rw [Triangle.map, Triangle.map, hi, hj, hk]⟩
  have hlt : ∀ {i o : Nat}, o < pool.size → r₃.2.vertices[i]? = pool[o]? →
      i < r₃.2.vertices.size := by
    intro i o ho h
    rw [Array.getElem?_eq_getElem ho] at h
    exact (Array.getElem?_eq_some_iff.1 h).1
  intro i hmem
  simp only [Triangle.toList, List.mem_cons, List.not_mem_nil, or_false] at hmem
  rcases hmem with rfl | rfl | rfl
  · exact hlt h₁ hi
  · exact hlt h₂ hj
  · exact hlt h₃ hk

/-- What a triangle adds to a builder. -/
structure Adds (b c : Builder) (ts : List (Triangle (Option Vertex))) : Prop where
  material : c.material = b.material
  signature : c.signature = b.signature
  corners : c.corners = b.corners ++ ts

theorem WellFormed.push (hb : b.WellFormed pool) {t : Triangle Nat}
    (ht : ∀ o ∈ t.toList, o < pool.size) : (b.push pool t).WellFormed pool := by
  obtain ⟨c, u, hpush, -, hc, hu, -⟩ := exists_push hb ht
  obtain ⟨hsig, htri, hslots⟩ := wellFormed_iff.1 hc
  rw [hpush]
  refine wellFormed_iff.2 ⟨hsig, fun v hv ↦ ?_, hslots⟩
  rcases Array.mem_push.1 hv with hv | rfl
  · exact htri v hv
  · exact hu

/-- A triangle has the vertices of the pool at its corners. -/
theorem adds_push (hb : b.WellFormed pool) {t : Triangle Nat}
    (ht : ∀ o ∈ t.toList, o < pool.size) :
    b.Adds (b.push pool t) [t.map (pool[·]?)] := by
  obtain ⟨c, u, hpush, hgrows, -, -, hcorners⟩ := exists_push hb ht
  obtain ⟨-, htri, -⟩ := wellFormed_iff.1 hb
  rw [hpush]
  refine ⟨hgrows.material, hgrows.signature, ?_⟩
  have hold : ∀ v ∈ b.triangles.toList, v.map (c.vertices[·]?) = v.map (b.vertices[·]?) := by
    intro v hv
    refine Triangle.map_congr fun i hi ↦ ?_
    have hlt := htri v (Array.mem_toList_iff.1 hv) i hi
    rw [Array.getElem?_eq_getElem hlt]
    exact hgrows.vertices _ _ (Array.getElem?_eq_getElem hlt)
  rw [Builder.corners, Builder.corners, Array.toList_push, hgrows.triangles, List.map_append,
    List.map_congr_left hold]
  exact congrArg _ (congrArg (fun v ↦ [v]) hcorners)

theorem pushAll_cons (b : Builder) (pool : Pool) (t : Triangle Nat) (ts : List (Triangle Nat)) :
    b.pushAll pool (t :: ts) = (b.push pool t).pushAll pool ts := rfl

theorem WellFormed.pushAll {ts : List (Triangle Nat)} (hb : b.WellFormed pool)
    (hts : ∀ t ∈ ts, ∀ o ∈ t.toList, o < pool.size) : (b.pushAll pool ts).WellFormed pool := by
  induction ts generalizing b with
  | nil => exact hb
  | cons t ts ih =>
    obtain ⟨ht, hts⟩ := List.forall_mem_cons.1 hts
    rw [pushAll_cons]
    exact ih (hb.push ht) hts

/-- Triangles are added in order, with the vertices of the pool at their corners. -/
theorem adds_pushAll {ts : List (Triangle Nat)} (hb : b.WellFormed pool)
    (hts : ∀ t ∈ ts, ∀ o ∈ t.toList, o < pool.size) :
    b.Adds (b.pushAll pool ts) (ts.map (Triangle.map (pool[·]?))) := by
  induction ts generalizing b with
  | nil => exact ⟨rfl, rfl, (List.append_nil _).symm⟩
  | cons t ts ih =>
    obtain ⟨ht, hts⟩ := List.forall_mem_cons.1 hts
    have hfirst := adds_push hb ht
    have hrest := ih (hb.push ht) hts
    rw [pushAll_cons]
    refine ⟨hrest.material.trans hfirst.material, hrest.signature.trans hfirst.signature, ?_⟩
    rw [hrest.corners, hfirst.corners, List.append_assoc]
    rfl

end Builder

end RwxScene
