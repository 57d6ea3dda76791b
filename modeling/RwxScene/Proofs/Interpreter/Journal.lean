import Mathlib.Data.List.Basic
import Mathlib.Data.List.Induction
import RwxScene.Proofs.Interpreter.Run
import RwxScene.Proofs.Mesh.Builder

/-!
# The journal of a run

A journal takes down every command of a run beside the clump that was innermost, the map that every
vertex went through and the material in force, and it draws nothing. What a clump should have drawn
can then be read off its own entries: its vertices (`vertices`), the faces whose corners were among
the vertices declared so far (`drawn`), and the triangles of these faces (`triangles`).

Clumps are numbered as they are opened; the root is number zero and is always open. A journal counts
the brackets by itself and takes nothing from the state but the material.
-/

namespace RwxScene

/-- A command and what it was followed under. -/
structure Entry where
  /-- The innermost open clump. -/
  clump : Nat
  instanceTransform : Option Mat4
  /-- The material in force before the command. -/
  material : Material
  command : Command

/-- A face with the material in force. -/
structure Drawn where
  face : Face
  material : Material

/-! ### Entries of one clump -/

namespace Entry

/-- The vertex that is declared. -/
def vertex? (e : Entry) : Option Vertex :=
  match e.command with
  | .vertex position uv =>
    some ⟨(e.instanceTransform.map (·.transformPoint position)).getD position, uv.getD .zero⟩
  | _ => none

/-- The face that is drawn, if its corners are among the first `n` vertices. -/
def drawn? (n : Nat) (e : Entry) : Option Drawn :=
  match e.command with
  | .face f => if ∀ i ∈ f.indices, 1 ≤ i ∧ i ≤ n then some ⟨f, e.material⟩ else none
  | _ => none

end Entry

/-- The vertices in order. -/
def vertices (es : List Entry) : List Vertex := es.filterMap Entry.vertex?

/-- The faces that are drawn when there were `n` vertices before. -/
def drawnFrom : Nat → List Entry → List Drawn
  | _, [] => []
  | n, e :: es => (e.drawn? n).toList ++ drawnFrom (n + (vertices [e]).length) es

/-- The faces that are drawn: all their corners were declared before. -/
def drawn (es : List Entry) : List Drawn := drawnFrom 0 es

/-- The triangles of a face over some vertices. -/
def Drawn.triangles (vs : List Vertex) (d : Drawn) : List (Triangle (Option Vertex)) :=
  (d.face.shape.triangulate (d.face.indices.map (· - 1))).map (Triangle.map (vs[·]?))

/-- The triangles that are drawn, over all vertices. -/
def triangles (es : List Entry) : List (Triangle (Option Vertex)) :=
  (drawn es).flatMap (Drawn.triangles (vertices es))

/-- The entries of a clump. -/
def own (es : List Entry) (k : Nat) : List Entry := es.filter (·.clump = k)

/-! ### Journals -/

/-- What is on record of a run. -/
structure Journal where
  /-- The number of clumps so far. -/
  opened : Nat
  /-- The open clumps, the innermost first and the root last. -/
  inside : List Nat
  instanceTransform : Option Mat4
  entries : List Entry

namespace Journal

/-- The journal before the first action. -/
def empty : Journal := ⟨0, [0], none, []⟩

def innermost (j : Journal) : Nat := j.inside.headD 0

/-- Opens and ends clumps; the root stays open. -/
def nest (j : Journal) : Command → Journal
  | .scope .clumpBegin => { j with opened := j.opened + 1, inside := (j.opened + 1) :: j.inside }
  | .scope .clumpEnd =>
    match j.inside with
    | _ :: k :: ks => { j with inside := k :: ks }
    | _ => j
  | _ => j

/-- The entry of a command that is followed now. -/
def entry (j : Journal) (material : Material) (c : Command) : Entry :=
  ⟨j.innermost, j.instanceTransform, material, c⟩

/-- Notes what the host has set. -/
def note (j : Journal) : Action → Journal
  | .setInstanceTransform m => { j with instanceTransform := m }
  | _ => j

/-- Takes an action down. -/
def record (j : Journal) (material : Material) (a : Action) : Journal :=
  match a.command? with
  | some c => { j.nest c with entries := j.entries ++ [j.entry material c] }
  | none => j.note a

end Journal

/-- The journal of a run that goes on from here. -/
def State.journal (s : State) (j : Journal) : List Action → Journal
  | [] => j
  | a :: as => (s.act a).journal (j.record s.level.material a) as

/-- The journal of a run. -/
def journal (settings : Settings) (as : List Action) : Journal :=
  (State.start settings).journal .empty as

/-! ### One more entry -/

variable {es : List Entry} {e : Entry}

theorem vertices_concat (es : List Entry) (e : Entry) :
    vertices (es ++ [e]) = vertices es ++ e.vertex?.toList := by
  rw [vertices, List.filterMap_append]
  cases h : e.vertex? with
  | none => simp [h, vertices]
  | some v => simp [h, vertices]

theorem drawnFrom_concat (n : Nat) (es : List Entry) (e : Entry) :
    drawnFrom n (es ++ [e]) =
      drawnFrom n es ++ (e.drawn? (n + (vertices es).length)).toList := by
  induction es generalizing n with
  | nil => simp [drawnFrom, vertices]
  | cons d es ih =>
    have hlength : (vertices (d :: es)).length = (vertices [d]).length + (vertices es).length := by
      rw [← List.length_append, vertices, vertices, vertices, ← List.filterMap_append]
      rfl
    rw [List.cons_append, drawnFrom, ih, drawnFrom, hlength, List.append_assoc, Nat.add_assoc]

theorem drawn_concat (es : List Entry) (e : Entry) :
    drawn (es ++ [e]) = drawn es ++ (e.drawn? (vertices es).length).toList := by
  rw [drawn, drawnFrom_concat, Nat.zero_add]
  rfl

/-- What is drawn has the corners and the material of its entry. -/
theorem Entry.drawn?_eq_some_iff {n : Nat} {d : Drawn} :
    e.drawn? n = some d ↔
      e.command = .face d.face ∧ e.material = d.material ∧
        ∀ i ∈ d.face.indices, 1 ≤ i ∧ i ≤ n := by
  obtain ⟨f, m⟩ := d
  rw [drawn?]
  cases e.command with
  | face g =>
    show (if ∀ i ∈ g.indices, 1 ≤ i ∧ i ≤ n then some _ else none) = _ ↔ _
    rw [Command.face.injEq]
    by_cases h : ∀ i ∈ g.indices, 1 ≤ i ∧ i ≤ n
    · rw [if_pos h, Option.some.injEq, Drawn.mk.injEq]
      constructor
      · rintro ⟨rfl, rfl⟩
        exact ⟨rfl, rfl, h⟩
      · rintro ⟨rfl, rfl, -⟩
        exact ⟨rfl, rfl⟩
    · rw [if_neg h]
      constructor
      · exact fun h' ↦ absurd h' (by simp)
      · rintro ⟨rfl, -, h'⟩
        exact absurd h' h
  | _ => simp

theorem Drawn.triangles_append {d : Drawn} {vs : List Vertex} (ws : List Vertex)
    (h : ∀ i ∈ d.face.indices, 1 ≤ i ∧ i ≤ vs.length) :
    d.triangles (vs ++ ws) = d.triangles vs := by
  refine List.map_congr_left fun t ht ↦ Triangle.map_congr fun o ho ↦ ?_
  obtain ⟨i, hi, rfl⟩ := List.mem_map.1 (FaceShape.mem_of_mem_triangulate ht o ho)
  have := h i hi
  exact List.getElem?_append_left (by omega)

/-- The corners of what was drawn are among the vertices. -/
theorem le_of_mem_drawn {d : Drawn} (h : d ∈ drawn es) :
    ∀ i ∈ d.face.indices, 1 ≤ i ∧ i ≤ (vertices es).length := by
  induction es using List.reverseRecOn with
  | nil => exact absurd h List.not_mem_nil
  | append_singleton es e ih =>
    rw [drawn_concat] at h
    rw [vertices_concat, List.length_append]
    intro i hi
    rcases List.mem_append.1 h with h | h
    · have := ih h i hi
      omega
    · have := (Entry.drawn?_eq_some_iff.1 (Option.mem_toList.1 h)).2.2 i hi
      omega

/-- A further vertex does not change what was drawn before. -/
theorem triangles_concat (es : List Entry) (e : Entry) :
    triangles (es ++ [e]) = triangles es ++
      (e.drawn? (vertices es).length).toList.flatMap (Drawn.triangles (vertices es)) := by
  -- no corner lies beyond the vertices that were there before the entry
  have hlarger : ∀ d ∈ drawn (es ++ [e]),
      d.triangles (vertices (es ++ [e])) = d.triangles (vertices es) := by
    intro d hd
    rw [vertices_concat]
    refine d.triangles_append _ fun i hi ↦ ?_
    rw [drawn_concat] at hd
    rcases List.mem_append.1 hd with hd | hd
    · exact le_of_mem_drawn hd i hi
    · exact (Entry.drawn?_eq_some_iff.1 (Option.mem_toList.1 hd)).2.2 i hi
  rw [triangles, List.flatMap_congr hlarger, drawn_concat, List.flatMap_append]
  rfl

/-- Every corner of a triangle that is drawn is a vertex. -/
theorem isSome_of_mem_triangles {t : Triangle (Option Vertex)} (h : t ∈ triangles es) :
    ∀ v ∈ t.toList, v.isSome := by
  obtain ⟨d, hd, ht⟩ := List.mem_flatMap.1 h
  obtain ⟨u, hu, rfl⟩ := List.mem_map.1 ht
  rw [Triangle.toList_map]
  intro v hv
  obtain ⟨o, ho, rfl⟩ := List.mem_map.1 hv
  obtain ⟨i, hi, rfl⟩ := List.mem_map.1 (FaceShape.mem_of_mem_triangulate hu o ho)
  have := le_of_mem_drawn hd i hi
  rw [List.getElem?_eq_getElem (by omega)]
  rfl

theorem own_concat (es : List Entry) (e : Entry) : own (es ++ [e]) e.clump = own es e.clump ++ [e] := by
  rw [own, List.filter_append]
  simp [own]

theorem own_concat_of_ne (es : List Entry) {k : Nat} (h : k ≠ e.clump) :
    own (es ++ [e]) k = own es k := by
  rw [own, List.filter_append]
  simp [own, h.symm]

end RwxScene
