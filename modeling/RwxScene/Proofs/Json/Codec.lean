import RwxScene.Proofs.Interpreter.Content
import RwxScene.Proofs.Json.Decoder
import RwxScene.Proofs.Material.Key

/-!
# The parts of a model are found again

One lemma for each type: where it was printed, its decoder finds it again (`reads_vec3`, …,
`reads_model`). Scalars have to last, and integers have to have the size of their fields; both are
asked of a part through the list of its scalars and through `InRange`. A node is done by induction
on the tree, its list of children along with it.
-/

namespace RwxScene

/-! ### The scalars of a model -/

def Vec3.scalars (v : Vec3) : List Scalar := [v.x, v.y, v.z]

def Vec4.scalars (v : Vec4) : List Scalar := [v.x, v.y, v.z, v.w]

def Quat.scalars (q : Quat) : List Scalar := [q.x, q.y, q.z, q.w]

def UV.scalars (t : UV) : List Scalar := [t.u, t.v]

def Mat4.scalars (m : Mat4) : List Scalar :=
  m.c₀.scalars ++ m.c₁.scalars ++ m.c₂.scalars ++ m.c₃.scalars

def Placement.scalars (p : Placement) : List Scalar :=
  p.position.scalars ++ p.rotation.scalars ++ p.scale.scalars

def Bounds.scalars (b : Bounds) : List Scalar := b.min.scalars ++ b.max.scalars

def Batch.scalars (b : Batch) : List Scalar :=
  b.positions.toList.flatMap Vec3.scalars ++ b.uvs.toList.flatMap UV.scalars ++
    b.normals.toList.flatMap Vec3.scalars ++ b.material.scalars ++ b.bounds.scalars

/-- The scalars of a node, without those of its children. -/
def Node.scalars (n : Node) : List Scalar :=
  n.placement.scalars ++ n.joint.toList.flatMap Mat4.scalars ++ n.batches.flatMap Batch.scalars

/-- All scalars of a model. -/
def Model.scalars (m : Model) : List Scalar := m.root.walk.flatMap Node.scalars

/-! ### The integers of a model -/

/-- The number has thirty-two bits with a sign. -/
def IsInt32 (n : ℤ) : Prop := Int32.minValue.toInt ≤ n ∧ n ≤ Int32.maxValue.toInt

instance (n : ℤ) : Decidable (IsInt32 n) := inferInstanceAs (Decidable (_ ∧ _))

/-- The integers of a batch have the sizes of their fields. -/
structure Batch.InRange (b : Batch) : Prop where
  indices : ∀ i ∈ b.indices.toList, i < UInt32.size
  materialTag : IsInt32 b.material.tag
  tag : IsInt32 b.tag

def Diagnostics.counts (d : Diagnostics) : List ℕ :=
  [d.lines, d.ignoredLines, d.outOfRangeFaces, d.degenerateTriangles, d.sanitizedMatrixComponents,
    d.repairedMatrices, d.unmatchedScopeEnds, d.autoClosedClumps, d.duplicatedBatches]

/-- The integers of a model have the sizes of their fields. -/
structure Model.InRange (m : Model) : Prop where
  batches : ∀ b ∈ m.root.allBatches, b.InRange
  counts : ∀ n ∈ m.diagnostics.counts, n < UInt64.size

namespace Json

open Decoder

variable {found : Scalar → Value}

/-! ### Space -/

theorem reads_vec3 {v : Vec3} (h : ∀ s ∈ v.scalars, Lasts found s) :
    vec3.Reads found (ofVec3 v) v := by
  obtain ⟨hx, hy, hz⟩ : Lasts found v.x ∧ Lasts found v.y ∧ Lasts found v.z := by
    simpa [Vec3.scalars] using h
  refine reads_record ["x", "y", "z"] rfl (by decide) fun depth ↦ ?_
  exact (hx.reads.required rfl).bind <| (hy.reads.required rfl).bind <|
    (hz.reads.required rfl).bind <| yields_pure depth v

theorem reads_vec4 {v : Vec4} (h : ∀ s ∈ v.scalars, Lasts found s) :
    vec4.Reads found (ofVec4 v) v := by
  obtain ⟨hx, hy, hz, hw⟩ :
      Lasts found v.x ∧ Lasts found v.y ∧ Lasts found v.z ∧ Lasts found v.w := by
    simpa [Vec4.scalars] using h
  refine reads_record ["x", "y", "z", "w"] rfl (by decide) fun depth ↦ ?_
  exact (hx.reads.required rfl).bind <| (hy.reads.required rfl).bind <|
    (hz.reads.required rfl).bind <| (hw.reads.required rfl).bind <| yields_pure depth v

theorem reads_quat {q : Quat} (h : ∀ s ∈ q.scalars, Lasts found s) :
    quat.Reads found (ofQuat q) q := by
  obtain ⟨hx, hy, hz, hw⟩ :
      Lasts found q.x ∧ Lasts found q.y ∧ Lasts found q.z ∧ Lasts found q.w := by
    simpa [Quat.scalars] using h
  refine reads_record ["x", "y", "z", "w"] rfl (by decide) fun depth ↦ ?_
  exact (hx.reads.required rfl).bind <| (hy.reads.required rfl).bind <|
    (hz.reads.required rfl).bind <| (hw.reads.required rfl).bind <| yields_pure depth q

theorem reads_mat4 {m : Mat4} (h : ∀ s ∈ m.scalars, Lasts found s) :
    mat4.Reads found (ofMat4 m) m := by
  obtain ⟨⟨⟨h₀, h₁⟩, h₂⟩, h₃⟩ := by simpa only [Mat4.scalars, List.forall_mem_append] using h
  have hcolumns : (list vec4).Reads found
      (.array [ofVec4 m.c₀, ofVec4 m.c₁, ofVec4 m.c₂, ofVec4 m.c₃])
      [m.c₀, m.c₁, m.c₂, m.c₃] :=
    reads_array <| .cons (reads_vec4 h₀) <| .cons (reads_vec4 h₁) <| .cons (reads_vec4 h₂) <|
      .cons (reads_vec4 h₃) .nil
  refine reads_record ["cols"] rfl (by decide) fun depth ↦ ?_
  exact (hcolumns.required rfl).bind <| yields_pure depth m

theorem reads_placement {p : Placement} (h : ∀ s ∈ p.scalars, Lasts found s) :
    placement.Reads found (ofPlacement p) p := by
  obtain ⟨⟨hposition, hrotation⟩, hscale⟩ := by
    simpa only [Placement.scalars, List.forall_mem_append] using h
  refine reads_record ["position", "rotation", "scale"] rfl (by decide) fun depth ↦ ?_
  exact ((reads_vec3 hposition).required rfl).bind <|
    ((reads_quat hrotation).required rfl).bind <|
    ((reads_vec3 hscale).required rfl).bind <| yields_pure depth p

theorem reads_bounds {b : Bounds} (h : ∀ s ∈ b.scalars, Lasts found s) :
    bounds.Reads found (ofBounds b) b := by
  obtain ⟨hmin, hmax⟩ := by simpa only [Bounds.scalars, List.forall_mem_append] using h
  refine reads_record ["min", "max"] rfl (by decide) fun depth ↦ ?_
  exact ((reads_vec3 hmin).required rfl).bind <|
    ((reads_vec3 hmax).required rfl).bind <| yields_pure depth b

/-! ### Arrays of scalars -/

/-- Something that is made of the elements of an array. -/
theorem Decoder.Reads.ofList {α β : Type} {d : Decoder α} {e : Decoder β} {v : Value}
    {as : List α} {b : β} (h : (list d).Reads found v as)
    (hnone : ∀ depth v, list d depth v = none → e depth v = none)
    (hsome : ∀ depth v, list d depth v = some as → e depth v = some b) : e.Reads found v b := by
  refine fun depth ↦ ⟨(h depth).printable, fun c ↦ ?_⟩
  rcases hlist : list d depth (v.reread found) with _ | xs
  · have hnot := (h depth).eq_some_iff as
    rw [hlist, and_iff_left rfl] at hnot
    rw [hnone _ _ hlist]
    exact iff_of_false (fun hc ↦ nomatch hc) fun hc ↦ nomatch hnot.2 hc.1
  · obtain ⟨hle, rfl⟩ := ((h depth).eq_some_iff xs).1 hlist
    rw [hsome _ _ hlist, Option.some.injEq, and_iff_right hle, eq_comm]

theorem reads_scalars {ss : List Scalar} (h : ∀ s ∈ ss, Lasts found s) :
    (list scalar).Reads found (.array (ss.map .scalar)) ss :=
  reads_list fun s hs ↦ (h s hs).reads

theorem reads_point {v : Vec3} (h : ∀ s ∈ v.scalars, Lasts found s) :
    point.Reads found (ofPoint v) v := by
  refine (reads_scalars h).ofList (fun _ _ hlist ↦ ?_) fun _ _ hlist ↦ ?_
  · rw [point, hlist]
  · rw [point, hlist, Vec3.scalars]

theorem reads_uv {t : UV} (h : ∀ s ∈ t.scalars, Lasts found s) : uv.Reads found (ofUV t) t := by
  refine (reads_scalars h).ofList (fun _ _ hlist ↦ ?_) fun _ _ hlist ↦ ?_
  · rw [uv, hlist]
  · rw [uv, hlist, UV.scalars]

theorem reads_color {c : Color} (hred : Lasts found c.red) (hgreen : Lasts found c.green)
    (hblue : Lasts found c.blue) : color.Reads found (ofColor c) c := by
  have h : ∀ s ∈ [c.red, c.green, c.blue], Lasts found s := by simp [hred, hgreen, hblue]
  refine (reads_scalars h).ofList (fun _ _ hlist ↦ ?_) fun _ _ hlist ↦ ?_
  · rw [color, hlist]
  · rw [color, hlist]

/-! ### Materials -/

theorem reads_surface {s : Surface} (hambient : Lasts found s.ambient)
    (hdiffuse : Lasts found s.diffuse) (hspecular : Lasts found s.specular) : surface.Reads found (ofSurface s) s := by
  refine reads_record ["ambient", "diffuse", "specular"] rfl (by decide) fun depth ↦ ?_
  exact (hambient.reads.required rfl).bind <| (hdiffuse.reads.required rfl).bind <|
    (hspecular.reads.required rfl).bind <| yields_pure depth s

theorem reads_textureModes (t : TextureModes) : textureModes.Reads found (ofTextureModes t) t := by
  refine reads_record ["lit", "foreshorten", "filter"] rfl (by decide) fun depth ↦ ?_
  exact ((reads_bool t.lit).required rfl).bind <| ((reads_bool t.foreshorten).required rfl).bind <|
    ((reads_bool t.filter).required rfl).bind <| yields_pure depth t

theorem reads_tag {n : ℤ} (h : IsInt32 n) : tag.Reads found (.integer n) n :=
  reads_integer (by decide) (by decide) h

theorem reads_material {m : Material} (h : ∀ s ∈ m.scalars, Lasts found s) (htag : IsInt32 m.tag) :
    material.Reads found (ofMaterial m) m := by
  obtain ⟨hred, hgreen, hblue, hopacity, hambient, hdiffuse, hspecular, hratio⟩ :
      Lasts found m.color.red ∧ Lasts found m.color.green ∧ Lasts found m.color.blue ∧
        Lasts found m.opacity ∧ Lasts found m.surface.ambient ∧ Lasts found m.surface.diffuse ∧
        Lasts found m.surface.specular ∧ Lasts found m.ratio := by
    simpa [Material.scalars] using h
  refine reads_record ["color_explicit", "color", "opacity", "surface", "light_sampling",
    "geometry_sampling", "texture_modes", "material_mode", "texture", "mask", "normal_map",
    "specular_map", "tint", "texture_address_mode", "collision", "tag", "ratio"] rfl (by decide)
    fun depth ↦ ?_
  exact ((reads_bool m.colorExplicit).required rfl).bind <|
    ((reads_color hred hgreen hblue).required rfl).bind <|
    (hopacity.reads.required rfl).bind <|
    ((reads_surface hambient hdiffuse hspecular).required rfl).bind <|
    ((reads_choice m.lightSampling).required rfl).bind <|
    ((reads_choice m.geometrySampling).required rfl).bind <|
    ((reads_textureModes m.textureModes).required rfl).bind <|
    ((reads_choice m.mode).required rfl).bind <|
    ((reads_option_string m.texture).optional rfl).bind <|
    ((reads_option_string m.mask).optional rfl).bind <|
    ((reads_option_string m.normalMap).optional rfl).bind <|
    ((reads_option_string m.specularMap).optional rfl).bind <|
    ((reads_bool m.tint).required rfl).bind <|
    ((reads_choice m.addressMode).required rfl).bind <|
    ((reads_bool m.collision).required rfl).bind <|
    ((reads_tag htag).required rfl).bind <|
    (hratio.reads.required rfl).bind <| yields_pure depth m

/-! ### Scenes -/

theorem reads_batch {b : Batch} (h : ∀ s ∈ b.scalars, Lasts found s) (hrange : b.InRange) :
    batch.Reads found (ofBatch b) b := by
  obtain ⟨⟨⟨⟨hpositions, huvs⟩, hnormals⟩, hmaterial⟩, hbounds⟩ := by
    simpa only [Batch.scalars, List.forall_mem_append, List.forall_mem_flatMap] using h
  have hindices : (list index).Reads found (.list .natural b.indices.toList) b.indices.toList :=
    reads_list fun i hi ↦ reads_natural (by decide) (hrange.indices i hi)
  refine reads_record ["positions", "uvs", "normals", "indices", "material", "signature",
    "tag", "bounds", "duplicated"] rfl (by decide) fun depth ↦ ?_
  exact ((reads_list fun p hp ↦ reads_point (hpositions p hp)).required rfl).bind <|
    ((reads_list fun t ht ↦ reads_uv (huvs t ht)).required rfl).bind <|
    ((reads_list fun n hn ↦ reads_point (hnormals n hn)).required rfl).bind <|
    (hindices.required rfl).bind <|
    ((reads_material hmaterial hrange.materialTag).required rfl).bind <|
    ((reads_string b.signature.text).required rfl).bind <|
    ((reads_tag hrange.tag).required rfl).bind <|
    ((reads_bounds hbounds).required rfl).bind <|
    ((reads_bool b.duplicated).required rfl).bind <| yields_pure depth b

/-- The names of the fields of a node. -/
def nodeNames : List String := ["name", "transform", "joint", "children", "batches"]

/-- A node out of its fields, its children decoded by `children`. -/
def nodeOf (children : Decoder Node) (r : Fields) : Option Node := do
  return {
    name := ← r.required "name" .string
    placement := ← r.required "transform" placement
    joint := ← r.withDefault "joint" none (.option mat4)
    children := ← r.required "children" (.list children)
    batches := ← r.required "batches" (.list batch) }

/-- With two levels left, a node is a record whose children are nodes. -/
theorem node_add_two (depth : ℕ) :
    node (depth + 2) = record nodeNames (nodeOf node) (depth + 2) := by
  have hchildren : list (fun _ ↦ node depth) (depth + 1) = list node (depth + 1) := by
    funext v
    cases v <;> rfl
  have hbuild (byPlace : Bool) (found : List (String × Value)) :
      nodeOf (fun _ ↦ node depth) ⟨byPlace, found, depth + 1⟩ =
        nodeOf node ⟨byPlace, found, depth + 1⟩ := by
    simp only [nodeOf, Fields.required, hchildren]
  funext v
  show record nodeNames (nodeOf fun _ ↦ node depth) (depth + 2) v = _
  cases v <;> simp only [record, hbuild]

/-- The parts of a node are found again. -/
structure PartsLast (found : Scalar → Value) (n : Node) : Prop where
  scalars : ∀ s ∈ n.scalars, Lasts found s
  batches : ∀ b ∈ n.batches, b.InRange

theorem reads_nodeRecord {n : Node} (h : PartsLast found n)
    (hchildren : (list node).Reads found (.array (ofNodes n.children)) n.children) :
    (record nodeNames (nodeOf node)).Reads found (ofNode n) n := by
  obtain ⟨name, p, joint, children, batches⟩ := n
  obtain ⟨⟨hplacement, hjoint⟩, hbatches⟩ := by
    simpa only [Node.scalars, List.forall_mem_append, List.forall_mem_flatMap] using h.scalars
  have hname : string.Reads found (.string name) name := reads_string name
  have hbatches : (list batch).Reads found (.list ofBatch batches) batches :=
    reads_list fun b hb ↦ reads_batch (hbatches b hb) (h.batches b hb)
  rcases joint with _ | m
  · refine reads_record ["name", "transform", "children", "batches"] rfl (by decide)
      fun depth ↦ ?_
    exact (hname.required rfl).bind <| ((reads_placement hplacement).required rfl).bind <|
      (yields_withDefault rfl none).bind <| (hchildren.required rfl).bind <|
      (hbatches.required rfl).bind <| yields_pure depth _
  · have hmatrix : (option mat4).Reads found (ofMat4 m) (some m) := by
      refine (reads_mat4 (hjoint m (Option.mem_toList.2 rfl))).option ?_
      rw [ofMat4, Value.reread_object]
      simp
    refine reads_record nodeNames rfl (by decide) fun depth ↦ ?_
    exact (hname.required rfl).bind <| ((reads_placement hplacement).required rfl).bind <|
      (hmatrix.withDefault rfl none).bind <| (hchildren.required rfl).bind <|
      (hbatches.required rfl).bind <| yields_pure depth _

theorem reads_node_of_record {n : Node}
    (h : (record nodeNames (nodeOf node)).Reads found (ofNode n) n) :
    node.Reads found (ofNode n) n := by
  intro depth
  match depth with
  | depth + 2 => exact node_add_two depth ▸ h (depth + 2)
  | 0 | 1 =>
    refine ⟨(h 0).printable, fun b ↦ iff_of_false nofun ?_⟩
    rintro ⟨hnesting, -⟩
    -- a node holds its placement, and that holds its position
    have hnode : n.levels ≤ (ofNode n).nesting := nesting_ofNode n ▸ le_max_left _ _
    have := n.three_le_levels
    have := hnesting _ (List.mem_singleton.2 rfl)
    omega

mutual

theorem reads_node : ∀ n : Node, (∀ c ∈ Node.visit [n], PartsLast found c) →
    node.Reads found (ofNode n) n
  | ⟨name, p, joint, children, batches⟩, h => by
    rw [Node.visit_cons, List.append_nil, List.forall_mem_cons] at h
    exact reads_node_of_record (reads_nodeRecord h.1 (reads_array (reads_nodes children h.2)))

theorem reads_nodes : ∀ ns : List Node, (∀ c ∈ Node.visit ns, PartsLast found c) →
    List.Forall₂ (node.Reads found) (ofNodes ns) ns
  | [], _ => .nil
  | n :: ns, h => by
    rw [← List.singleton_append, Node.visit_append, List.forall_mem_append] at h
    exact .cons (reads_node n h.1) (reads_nodes ns h.2)

end

theorem reads_diagnostics {d : Diagnostics} (h : ∀ n ∈ d.counts, n < UInt64.size) :
    diagnostics.Reads found (ofDiagnostics d) d := by
  have hcount {n : ℕ} (hn : n < UInt64.size) : count.Reads found (.natural n) n :=
    reads_natural (by decide) hn
  obtain ⟨h₀, h₁, h₂, h₃, h₄, h₅, h₆, h₇, h₈⟩ := by
    simpa only [Diagnostics.counts, List.forall_mem_cons, List.not_mem_nil, false_imp_iff,
      implies_true, and_true] using h
  refine reads_record ["lines", "ignored_lines", "out_of_range_faces",
    "degenerate_triangles", "sanitized_matrix_components", "repaired_matrices",
    "unmatched_scope_ends", "auto_closed_clumps", "duplicated_batches"] rfl (by decide)
    fun depth ↦ ?_
  exact ((hcount h₀).required rfl).bind <| ((hcount h₁).required rfl).bind <|
    ((hcount h₂).required rfl).bind <| ((hcount h₃).required rfl).bind <|
    ((hcount h₄).required rfl).bind <| ((hcount h₅).required rfl).bind <|
    ((hcount h₆).required rfl).bind <| ((hcount h₇).required rfl).bind <|
    ((hcount h₈).required rfl).bind <| yields_pure depth d

theorem reads_model {m : Model} (h : ∀ s ∈ m.scalars, Lasts found s) (hrange : m.InRange) :
    model.Reads found (ofModel m) m := by
  have hroot : node.Reads found (ofNode m.root) m.root := by
    refine reads_node m.root fun n hn ↦ ⟨fun s hs ↦ ?_, fun b hb ↦ ?_⟩
    · exact h s (List.mem_flatMap.2 ⟨n, hn, hs⟩)
    · exact hrange.batches b (List.mem_flatMap.2 ⟨n, hn, hb⟩)
  refine reads_record ["path", "root", "diagnostics"] rfl (by decide) fun depth ↦ ?_
  exact ((reads_string m.path).required rfl).bind <| (hroot.required rfl).bind <|
    ((reads_diagnostics hrange.counts).required rfl).bind <| yields_pure depth m

end Json

end RwxScene
