import RwxScene.Proofs.Json.Codec
import RwxScene.Proofs.Json.Reader

/-!
# Models in JSON

A model that was written as JSON is read again and is the same, as long as its tree is not too deep;
a model with a deeper tree is written and refused when it is read. This needs of a library no more
than what is documented of it (`Json.Library.decode?_encode`), and so it holds where models are
printed in one line (`Model.ofJson?_json`).
-/

namespace RwxScene

/-! ### Any library -/

namespace Json.Library

/-- The text of a model. -/
def encode (library : Library) (m : Model) : String := library.print (ofModel m)

/-- The model in a text. -/
def decode? (library : Library) (text : String) : Option Model :=
  (library.read? text).bind (Json.model library.limit)

variable {library : Library} {found : Scalar → Value} {m : Model}

theorem decode?_encode_eq_some_iff (hlibrary : library.Documented found)
    (hlasts : ∀ s ∈ m.scalars, Decoder.Lasts found s) (hrange : m.InRange) (b : Model) :
    library.decode? (library.encode m) = some b ↔ m.root.Shallow ∧ b = m := by
  have hreads : Json.model.Reads found (ofModel m) m := reads_model hlasts hrange
  have hprintable := (hreads library.limit).printable _ (List.mem_singleton.2 rfl)
  rw [decode?, encode, hlibrary.read?_print _ hprintable, Option.bind_some,
    (hreads library.limit).eq_some_iff, List.forall_mem_singleton, hlibrary.limit_eq,
    nesting_ofModel_le]

/-- **Decoding undoes encoding**, whatever the library: a model whose scalars last is found again if
its tree is not too deep, and nothing is found if it is. -/
theorem decode?_encode (hlibrary : library.Documented found)
    (hlasts : ∀ s ∈ m.scalars, Decoder.Lasts found s) (hrange : m.InRange) :
    library.decode? (library.encode m) = if m.root.Shallow then some m else none := by
  have hiff := decode?_encode_eq_some_iff hlibrary hlasts hrange
  split_ifs with hshallow
  · exact (hiff m).2 ⟨hshallow, rfl⟩
  · exact Option.eq_none_iff_forall_ne_some.2 fun b hb ↦ hshallow ((hiff b).1 hb).1

end Json.Library

/-! ### Models in one line -/

/-- A model as a text of JSON. -/
def Model.json (m : Model) : String := (Json.ofModel m).compact

/-- The model in a text of JSON. -/
def Model.ofJson? (text : String) : Option Model :=
  (Json.read? text.toList).bind (Json.model Json.deepest)

namespace Model

open Json

variable {m : Model}

theorem ofJson?_json_eq_decode? (m : Model) :
    ofJson? m.json = Library.compact.decode? (Library.compact.encode m) := by
  rw [ofJson?, json, Library.decode?, Library.encode, Library.compact]

/-- A model whose scalars are finite and found again in their texts is found again in its text if
its tree is not too deep, and nothing is found if it is. -/
theorem ofJson?_json (hfinite : ∀ s ∈ m.scalars, s.isFinite = true)
    (hsurvives : ∀ s ∈ m.scalars, Survives s) (hrange : m.InRange) :
    ofJson? m.json = if m.root.Shallow then some m else none := by
  rw [ofJson?_json_eq_decode?]
  exact Library.decode?_encode documented_compact (fun s hs ↦ ⟨hfinite s hs, hsurvives s hs⟩) hrange

/-! ### A small model and a high one -/

theorem survives_zero : Survives 0 := by
  have hwrite : scalarStyle.write 0 = ['0', '.', '0'] := by decide +kernel
  have hread : number? ['0', '.', '0'] = some (.number (.double (divide 0 1)), []) := rfl
  rw [Survives, readScalar, hwrite, hread, divide, if_pos (by decide)]
  decide +kernel

theorem survives_one : Survives 1 := by
  have hwrite : scalarStyle.write 1 = ['1', '.', '0'] := by decide +kernel
  have hread : number? ['1', '.', '0'] = some (.number (.double (divide 10 1)), []) := rfl
  rw [Survives, readScalar, hwrite, hread, divide, if_pos (by decide)]
  decide +kernel

theorem lasts_of_zero_or_one {s : Scalar} (h : s = 0 ∨ s = 1) : Decoder.Lasts readScalar s := by
  obtain rfl | rfl := h
  · exact ⟨by decide +kernel, survives_zero⟩
  · exact ⟨by decide +kernel, survives_one⟩

/-- A triangle below the root, with a joint. -/
def triangle : Model where
  path := "triangle.rwx"
  root :=
    { Node.new "root" with
      children := [
        { Node.new "leaf" with
          joint := some .identity
          batches := [
            { positions := #[⟨0, 0, 0⟩, ⟨1, 0, 0⟩, ⟨0, 1, 0⟩]
              uvs := #[.zero, .zero, .zero]
              normals := #[⟨0, 0, 1⟩, ⟨0, 0, 1⟩, ⟨0, 0, 1⟩]
              indices := #[0, 1, 2]
              material := .initial
              signature := Material.initial.signature
              tag := -1
              bounds := ⟨⟨0, 0, 0⟩, ⟨1, 1, 0⟩⟩
              duplicated := false }] }] }
  diagnostics := { Diagnostics.none with lines := 5 }

theorem ofJson?_json_triangle :
    (∀ s ∈ triangle.scalars, s.isFinite = true) ∧ (∀ s ∈ triangle.scalars, Survives s) ∧
      triangle.InRange ∧ ofJson? triangle.json = some triangle := by
  have hwalk : triangle.root.walk = triangle.root :: triangle.root.children := by
    simp [Node.walk, Node.visit_cons, triangle, Node.new]
  have hunits : ∀ s ∈ triangle.scalars, s = 0 ∨ s = 1 := by
    rw [scalars, hwalk]
    decide +kernel
  have hfinite := fun s hs ↦ (lasts_of_zero_or_one (hunits s hs)).finite
  have hsurvives := fun s hs ↦ (lasts_of_zero_or_one (hunits s hs)).survives
  have hrange : triangle.InRange := by
    refine ⟨?_, by decide⟩
    rw [Node.allBatches, hwalk]
    intro b hb
    obtain rfl := List.mem_singleton.1 hb
    exact ⟨by decide, by decide, by decide⟩
  exact ⟨hfinite, hsurvives, hrange, by
    rw [ofJson?_json hfinite hsurvives hrange, if_pos (by decide +kernel)]⟩

/-- A node with so many below it, each the only child of the one above it. -/
def chain : ℕ → Node
  | 0 => .new ""
  | k + 1 => { Node.new "" with children := [chain k] }

/-- Sixty-three nodes one below the other. -/
def tower : Model := ⟨"", chain 62, .none⟩

theorem scalars_of_mem_chain {k : ℕ} {n : Node} (h : n ∈ (chain k).walk) :
    n.scalars = Placement.identity.scalars ∧ n.batches = [] := by
  induction k with
  | zero =>
    obtain rfl : n = .new "" := by simpa [Node.walk, Node.visit_cons, chain, Node.new] using h
    exact ⟨rfl, rfl⟩
  | succ k ih =>
    rw [Node.walk_eq, List.mem_cons] at h
    obtain rfl | h := h
    · exact ⟨rfl, rfl⟩
    · exact ih h

theorem ofJson?_json_tower :
    (∀ s ∈ tower.scalars, s.isFinite = true) ∧ (∀ s ∈ tower.scalars, Survives s) ∧
      tower.InRange ∧ ofJson? tower.json = none := by
  have hunits : ∀ s ∈ tower.scalars, s = 0 ∨ s = 1 := by
    intro s hs
    obtain ⟨n, hn, hs⟩ := List.mem_flatMap.1 hs
    have hidentity : ∀ s ∈ Placement.identity.scalars, s = 0 ∨ s = 1 := by decide +kernel
    exact hidentity s ((scalars_of_mem_chain hn).1 ▸ hs)
  have hlasts := fun s hs ↦ lasts_of_zero_or_one (hunits s hs)
  have hrange : tower.InRange := by
    refine ⟨fun b hb ↦ ?_, by decide⟩
    obtain ⟨n, hn, hb⟩ := List.mem_flatMap.1 hb
    exact absurd ((scalars_of_mem_chain hn).2 ▸ hb) List.not_mem_nil
  have hdeep : ¬ tower.root.Shallow := by decide +kernel
  refine ⟨fun s hs ↦ (hlasts s hs).finite, fun s hs ↦ (hlasts s hs).survives, hrange, ?_⟩
  rw [ofJson?_json_eq_decode?, Library.decode?_encode documented_compact hlasts hrange,
    if_neg hdeep]

end Model

end RwxScene
