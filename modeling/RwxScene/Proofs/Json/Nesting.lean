import Mathlib
import RwxScene.Json.Codec

/-!
# How deep values are nested

A reader of JSON enters 127 arrays and objects inside one another and no more. What
a model is made of is nested to a depth of its own, but for its tree: every step down takes a reader
into two more, the node and the array of its children, and a batch takes it into more than the rest
of a node does. So the depth of its tree decides whether a model can be read (`nesting_ofModel_le`).
-/

namespace RwxScene

namespace Json

namespace Value

mutual

/-- How many arrays and objects lie inside one another at most. -/
def nesting : Value → ℕ
  | null | bool _ | number _ | string _ | unusable => 0
  | array vs => nestingElements vs + 1
  | object fs => nestingFields fs + 1

/-- The greatest nesting of the elements. -/
def nestingElements : List Value → ℕ
  | [] => 0
  | v :: vs => max v.nesting (nestingElements vs)

/-- The greatest nesting of the fields. -/
def nestingFields : List (String × Value) → ℕ
  | [] => 0
  | (_, v) :: fs => max v.nesting (nestingFields fs)

end

@[simp] theorem nesting_null : null.nesting = 0 := rfl

@[simp] theorem nesting_bool (b : Bool) : (bool b).nesting = 0 := rfl

@[simp] theorem nesting_number (n : Number) : (number n).nesting = 0 := rfl

@[simp] theorem nesting_string (s : String) : (string s).nesting = 0 := rfl

@[simp] theorem nesting_array (vs : List Value) :
    (array vs).nesting = nestingElements vs + 1 := rfl

@[simp] theorem nesting_object (fs : List (String × Value)) :
    (object fs).nesting = nestingFields fs + 1 := rfl

@[simp] theorem nestingElements_nil : nestingElements [] = 0 := rfl

@[simp] theorem nestingElements_cons (v : Value) (vs : List Value) :
    nestingElements (v :: vs) = max v.nesting (nestingElements vs) := rfl

@[simp] theorem nestingFields_nil : nestingFields [] = 0 := rfl

@[simp] theorem nestingFields_cons (f : String × Value) (fs : List (String × Value)) :
    nestingFields (f :: fs) = max f.2.nesting (nestingFields fs) := rfl

/-- An array needs one level more than each of its elements. -/
theorem nesting_array_le {vs : List Value} {n : ℕ} :
    (array vs).nesting ≤ n ↔ ∃ k, n = k + 1 ∧ ∀ v ∈ vs, v.nesting ≤ k := by
  have helements : ∀ (vs : List Value) (k : ℕ),
      nestingElements vs ≤ k ↔ ∀ v ∈ vs, v.nesting ≤ k := by
    intro vs k
    induction vs with
    | nil => simp
    | cons v vs ih => rw [nestingElements_cons, max_le_iff, ih, List.forall_mem_cons]
  rw [nesting_array]
  cases n with
  | zero => simp
  | succ n => simp [helements]

/-- An object needs one level more than each of its fields. -/
theorem nesting_object_le {fs : List (String × Value)} {n : ℕ} :
    (object fs).nesting ≤ n ↔ ∃ k, n = k + 1 ∧ ∀ f ∈ fs, f.2.nesting ≤ k := by
  have hfields : ∀ (fs : List (String × Value)) (k : ℕ),
      nestingFields fs ≤ k ↔ ∀ f ∈ fs, f.2.nesting ≤ k := by
    intro fs k
    induction fs with
    | nil => simp
    | cons f fs ih => rw [nestingFields_cons, max_le_iff, ih, List.forall_mem_cons]
  rw [nesting_object]
  cases n with
  | zero => simp
  | succ n => simp [hfields]

/-! ### How deep the parts of a model are nested -/

@[simp] theorem nesting_scalar (s : Scalar) : (scalar s).nesting = 0 := by
  rw [scalar]
  split <;> rfl

@[simp] theorem nesting_option_string (s : Option String) : (option string s).nesting = 0 := by
  match s with
  | none | some s => rfl

/-- An array of elements that are nested `k` deep. -/
theorem nesting_list_le {α : Type} {f : α → Value} {k : ℕ} (h : ∀ a, (f a).nesting = k)
    (as : List α) : (list f as).nesting ≤ k + 1 := by
  refine nesting_array_le.2 ⟨k, rfl, fun v hv ↦ ?_⟩
  obtain ⟨a, -, rfl⟩ := List.mem_map.1 hv
  exact (h a).le

/-- An array with an element is nested deeper than that. -/
theorem nesting_list {α : Type} {f : α → Value} {k : ℕ} (h : ∀ a, (f a).nesting = k) (as : List α) :
    (list f as).nesting = if as = [] then 1 else k + 1 := by
  match as with
  | [] => rfl
  | a :: as =>
    rw [if_neg (List.cons_ne_nil a as)]
    refine (nesting_list_le h (a :: as)).antisymm ?_
    rw [list, List.map_cons, nesting_array, nestingElements_cons, h]
    omega

end Value

open Value

@[simp] theorem nesting_ofVec3 (v : Vec3) : (ofVec3 v).nesting = 1 := by
  simp [ofVec3]

@[simp] theorem nesting_ofVec4 (v : Vec4) : (ofVec4 v).nesting = 1 := by
  simp [ofVec4]

@[simp] theorem nesting_ofQuat (q : Quat) : (ofQuat q).nesting = 1 := by
  simp [ofQuat]

@[simp] theorem nesting_ofPoint (v : Vec3) : (ofPoint v).nesting = 1 := by
  simp [ofPoint]

@[simp] theorem nesting_ofUV (t : UV) : (ofUV t).nesting = 1 := by
  simp [ofUV]

@[simp] theorem nesting_ofColor (c : Color) : (ofColor c).nesting = 1 := by
  simp [ofColor]

@[simp] theorem nesting_ofSurface (s : Surface) : (ofSurface s).nesting = 1 := by
  simp [ofSurface]

@[simp] theorem nesting_ofMat4 (m : Mat4) : (ofMat4 m).nesting = 3 := by
  simp [ofMat4]

@[simp] theorem nesting_ofPlacement (p : Placement) : (ofPlacement p).nesting = 2 := by
  simp [ofPlacement]

@[simp] theorem nesting_ofBounds (b : Bounds) : (ofBounds b).nesting = 2 := by
  simp [ofBounds]

@[simp] theorem nesting_ofMaterial (m : Material) : (ofMaterial m).nesting = 2 := by
  simp [ofMaterial, ofChoice, ofTextureModes, Value.integer]

@[simp] theorem nesting_ofBatch (b : Batch) : (ofBatch b).nesting = 3 := by
  have hpositions := nesting_list_le nesting_ofPoint b.positions.toList
  have huvs := nesting_list_le nesting_ofUV b.uvs.toList
  have hnormals := nesting_list_le nesting_ofPoint b.normals.toList
  have hindices := nesting_list_le (f := Value.natural) (k := 0) (fun _ ↦ rfl) b.indices.toList
  simp [ofBatch, Value.integer]
  omega

@[simp] theorem nesting_ofDiagnostics (d : Diagnostics) : (ofDiagnostics d).nesting = 1 := by
  simp [ofDiagnostics, Value.natural]

end Json

/-! ### How deep a tree may be -/

namespace Node

/-- The arrays and objects inside one another in a node alone: the most of them in its batches,
fewer in its joint, and the fewest in its placement. -/
def levels (n : Node) : ℕ := if n.batches = [] then if n.joint = none then 3 else 4 else 5

theorem three_le_levels (n : Node) : 3 ≤ n.levels := by
  rw [levels]
  split_ifs <;> omega

/-- No node lies more than sixty-one nodes below the root, and no batch below a node that lies more
than sixty below it. -/
def Shallow (n : Node) : Prop := ∀ p ∈ n.outline 0, p.1 ≤ 61 ∧ (p.2.batches ≠ [] → p.1 ≤ 60)

instance (n : Node) : Decidable n.Shallow :=
  inferInstanceAs (Decidable (∀ p ∈ n.outline 0, p.1 ≤ 61 ∧ (p.2.batches ≠ [] → p.1 ≤ 60)))

end Node

namespace Json

open Value

/-- The children of a node begin two levels inside it. -/
theorem nesting_ofNode (n : Node) :
    (ofNode n).nesting = max n.levels (nestingElements (ofNodes n.children) + 2) := by
  obtain ⟨name, p, joint, children, batches⟩ := n
  have hbatches := nesting_list nesting_ofBatch batches
  rcases joint with _ | m <;>
    simp only [ofNode, jointField, List.cons_append, List.nil_append, nesting_object,
      nesting_string, nesting_array, nestingFields_cons, nestingFields_nil, nesting_ofPlacement,
      nesting_ofMat4, hbatches, Node.levels, if_true, reduceCtorEq, if_false] <;>
    split_ifs <;>
    omega

mutual

theorem nesting_ofNode_le (depth k : ℕ) : ∀ n : Node, (ofNode n).nesting ≤ k ↔
    ∀ p ∈ n.outline depth, 2 * p.1 + p.2.levels ≤ k + 2 * depth
  | ⟨name, placement, joint, children, batches⟩ => by
    set n : Node := ⟨name, placement, joint, children, batches⟩ with hn
    have hlevels := n.three_le_levels
    have hself : n.levels ≤ k ↔ 2 * depth + n.levels ≤ k + 2 * depth := by omega
    rw [nesting_ofNode, max_le_iff, hself, hn, Node.outline, List.forall_mem_cons, ← hn]
    refine and_congr_right fun hk ↦ ?_
    -- below a node that is no deeper than this there is room for its children
    obtain ⟨k, rfl⟩ : ∃ j, k = j + 2 := ⟨k - 2, by omega⟩
    have hdepth : k + 2 + 2 * depth = k + 2 * (depth + 1) := by omega
    rw [add_le_add_iff_right, nestingElements_ofNodes_le (depth + 1) k children, hdepth]

theorem nestingElements_ofNodes_le (depth k : ℕ) : ∀ ns : List Node,
    nestingElements (ofNodes ns) ≤ k ↔
      ∀ p ∈ Node.outlineAll depth ns, 2 * p.1 + p.2.levels ≤ k + 2 * depth
  | [] => by simp [ofNodes, Node.outlineAll]
  | n :: ns => by
    rw [ofNodes, nestingElements_cons, max_le_iff, Node.outlineAll, List.forall_mem_append,
      nesting_ofNode_le depth k n, nestingElements_ofNodes_le depth k ns]

end

/-- The depth of its tree decides whether a model is entered as a whole. -/
theorem nesting_ofModel_le (m : Model) : (ofModel m).nesting ≤ 127 ↔ m.root.Shallow := by
  have hmodel : (ofModel m).nesting ≤ 127 ↔ (ofNode m.root).nesting ≤ 126 := by
    simp [ofModel]
    omega
  rw [hmodel, nesting_ofNode_le 0 126 m.root, Node.Shallow]
  refine forall₂_congr fun p _ ↦ ?_
  rw [Node.levels]
  split_ifs with hbatches
  all_goals
    simp only [hbatches, ne_eq, not_true, not_false_iff, false_imp_iff, true_imp_iff, and_true]
    omega

end Json

end RwxScene
