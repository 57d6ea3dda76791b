import Mathlib
import RwxScene.Proofs.Command.Faces
import RwxScene.Proofs.Interpreter.Clumpwise
import RwxScene.Proofs.Material.Key
import RwxScene.Proofs.Mesh.Batch

/-!
# Batches are stretches of one signature

The faces of a clump, in order and with what child clumps drew left out, fall into stretches of one
signature, each as long as it can be. The batches of the node are exactly these (`clumpwise_stretched`).

A face takes part with its effective material, which is the material in force but for a tag of its
own. The open batch is always the last stretch so far, and while there is none the clump has drawn
nothing (`Level.Busy`); this is why a batch can wait while a child clump is open and go on behind it.
-/

namespace RwxScene

/-! ### Faces and stretches -/

namespace Drawn

/-- The material in force with the tag of the face, if that has one. -/
def effective (d : Drawn) : Material :=
  { d.material with tag := d.face.tag.getD d.material.tag }

def signature (d : Drawn) : Signature := d.effective.signature

/-- The faces are drawn alike. -/
def alike (d e : Drawn) : Bool := d.signature = e.signature

end Drawn

/-- The longest stretches of faces that are drawn alike. -/
def stretches (ds : List Drawn) : List (List Drawn) := ds.splitBy Drawn.alike

/-- The batch is that of the faces `ds`. -/
structure Batch.Covers (b : Batch) (ds : List Drawn) : Prop where
  material : ∃ d, ds.head? = some d ∧ b.material = d.effective
  signature : b.signature = b.material.signature
  tag : b.tag = b.material.tag
  triangleCount : b.triangleCount = (ds.map fun d ↦ d.face.indices.length - 2).sum
  alike : ∀ d ∈ ds, d.signature = b.signature
  tags : ∀ d ∈ ds, d.effective.tag = b.tag

/-- The batches are those of stretches of `ds`, and neighbouring batches have different
signatures. -/
def Stretched (bs : List Batch) (ds : List Drawn) : Prop :=
  bs.IsChain (·.signature ≠ ·.signature) ∧
    ∃ dss : List (List Drawn), dss.flatten = ds ∧ List.Forall₂ Batch.Covers bs dss

/-! ### Stretches are as long as they can be -/

theorem Batch.Covers.ne_nil {b : Batch} {ds : List Drawn} (h : b.Covers ds) : ds ≠ [] := by
  rintro rfl
  obtain ⟨d, hd, -⟩ := h.material
  exact absurd hd (by simp)

/-- Where two batches meet, the faces are not alike. -/
theorem isChain_of_covers {bs : List Batch} {dss : List (List Drawn)}
    (h : List.Forall₂ Batch.Covers bs dss) (hbs : bs.IsChain (·.signature ≠ ·.signature)) :
    dss.IsChain fun ds es ↦ ∃ hds hes, (ds.getLast hds).alike (es.head hes) = false := by
  induction h with
  | nil => exact .nil
  | @cons b ds bs dss hb hrest ih =>
    obtain ⟨hhead, htail⟩ := List.isChain_cons.1 hbs
    refine List.isChain_cons.2 ⟨fun es hes ↦ ?_, ih htail⟩
    cases hrest with
    | nil => exact absurd hes (by simp)
    | @cons c fs cs _ hc _ =>
      obtain rfl : fs = es := Option.some.inj hes
      refine ⟨hb.ne_nil, hc.ne_nil, decide_eq_false fun hsame ↦ hhead c rfl ?_⟩
      rw [hb.alike _ (List.getLast_mem hb.ne_nil), hc.alike _ (List.head_mem hc.ne_nil)] at hsame
      exact hsame

theorem exists_covers_of_mem {bs : List Batch} {dss : List (List Drawn)}
    (h : List.Forall₂ Batch.Covers bs dss) : ∀ ds ∈ dss, ∃ b : Batch, b.Covers ds := by
  induction h with
  | nil => exact fun _ hds ↦ absurd hds List.not_mem_nil
  | cons hb _ ih => exact List.forall_mem_cons.2 ⟨⟨_, hb⟩, ih⟩

/-- Stretches that meet at faces that are not alike are the longest ones. -/
theorem Stretched.covers {bs : List Batch} {ds : List Drawn} (h : Stretched bs ds) :
    List.Forall₂ Batch.Covers bs (stretches ds) := by
  obtain ⟨hchain, dss, rfl, hcovers⟩ := h
  have hsplit : stretches dss.flatten = dss := by
    refine List.splitBy_eq_iff.2 ⟨rfl, ?_, ?_, isChain_of_covers hcovers hchain⟩
    · intro hnil
      obtain ⟨b, hb⟩ := exists_covers_of_mem hcovers [] hnil
      exact hb.ne_nil rfl
    · intro es hes
      obtain ⟨b, hb⟩ := exists_covers_of_mem hcovers es hes
      refine (List.pairwise_of_forall_mem_list fun d hd e he ↦ ?_).isChain
      exact decide_eq_true ((hb.alike d hd).trans (hb.alike e he).symm)
  rw [hsplit]
  exact hcovers

/-- The last batch has the last stretch. -/
theorem forall₂_concat_left {α β : Type} {R : α → β → Prop} {as : List α} {a : α} {bs : List β}
    (h : List.Forall₂ R (as ++ [a]) bs) :
    ∃ cs b, bs = cs ++ [b] ∧ List.Forall₂ R as cs ∧ R a b := by
  induction as generalizing bs with
  | nil =>
    cases h with
    | @cons _ b _ _ hb hrest =>
      cases hrest
      exact ⟨[], b, rfl, .nil, hb⟩
  | cons c as ih =>
    cases h with
    | @cons _ d _ ds hd hrest =>
      obtain ⟨cs, b, rfl, hcs, hb⟩ := ih hrest
      exact ⟨d :: cs, b, rfl, .cons hd hcs, hb⟩

/-- A batch of one face with another signature than the last one begins a stretch. -/
theorem Stretched.concat {bs : List Batch} {ds : List Drawn} {b : Batch} {d : Drawn}
    (h : Stretched bs ds) (hb : b.Covers [d]) (hne : ∀ c ∈ bs.getLast?, c.signature ≠ b.signature) :
    Stretched (bs ++ [b]) (ds ++ [d]) := by
  obtain ⟨hchain, dss, rfl, hcovers⟩ := h
  refine ⟨hchain.append (.singleton b) fun c hc y hy ↦ ?_, dss ++ [[d]], ?_,
    List.rel_append hcovers (.cons hb .nil)⟩
  · obtain rfl := Option.some.inj hy
    exact hne c hc
  · rw [List.flatten_append, List.flatten_singleton]

/-- The last stretch gets longer, and its batch keeps its signature. -/
theorem Stretched.extend {bs : List Batch} {ds : List Drawn} {b c : Batch} {d : Drawn}
    (h : Stretched (bs ++ [b]) ds) (hsignature : c.signature = b.signature)
    (hc : ∀ es, b.Covers es → c.Covers (es ++ [d])) : Stretched (bs ++ [c]) (ds ++ [d]) := by
  obtain ⟨hchain, dss, rfl, hcovers⟩ := h
  obtain ⟨before, last, rfl, hbefore, hlast⟩ := forall₂_concat_left hcovers
  obtain ⟨hinit, -, hboundary⟩ := List.isChain_append.1 hchain
  refine ⟨hinit.append (.singleton c) fun x hx y hy ↦ ?_, before ++ [last ++ [d]], ?_,
    List.rel_append hbefore (.cons (hc last hlast) .nil)⟩
  · obtain rfl := Option.some.inj hy
    rw [hsignature]
    exact hboundary x hx b rfl
  · rw [List.flatten_append, List.flatten_append, List.flatten_singleton, List.flatten_singleton,
      List.append_assoc]

/-! ### Batches of builders -/

theorem Triangle.length_ofList {α : Type} (l : List α) : (ofList l).length = l.length / 3 := by
  fun_induction ofList l with
  | case1 a b c l ih =>
    rw [List.length_cons, ih, List.length_cons, List.length_cons, List.length_cons]
    omega
  | case2 l h =>
    rcases l with - | ⟨a, - | ⟨b, - | ⟨c, l⟩⟩⟩
    · simp
    · simp
    · simp
    · exact absurd rfl (h a b c l)

theorem Batch.length_corners (b : Batch) : b.corners.length = b.triangleCount := by
  rw [corners, List.length_map, triangles, Triangle.length_ofList, Array.length_toList]
  rfl

namespace Builder

variable {pool : Pool} {b : Builder}

theorem finish_keeps (settings : Settings) (b : Builder) :
    (b.finish settings).1.material = b.material ∧ (b.finish settings).1.signature = b.signature ∧
      (b.finish settings).1.tag = b.material.tag := by
  simp only [finish]
  split
  · exact ⟨rfl, rfl, rfl⟩
  · exact ⟨rfl, rfl, rfl⟩

/-- No triangle is lost when a batch is finished. -/
theorem triangleCount_finish (hb : b.WellFormed pool) (settings : Settings) :
    (b.finish settings).1.triangleCount = b.corners.length := by
  rw [← Batch.length_corners, corners_finish hb, List.length_map]

/-- A finished builder covers the faces that went into it; that they have its tag follows from their
signature. -/
theorem WellFormed.covers (hb : b.WellFormed pool) (settings : Settings) {ds : List Drawn}
    (hhead : ∃ d, ds.head? = some d ∧ b.material = d.effective)
    (hlength : b.corners.length = (ds.map fun d ↦ d.face.indices.length - 2).sum)
    (halike : ∀ d ∈ ds, d.signature = b.signature) : (b.finish settings).1.Covers ds := by
  obtain ⟨hmaterial, hsignature, htag⟩ := finish_keeps settings b
  refine ⟨?_, ?_, ?_, ?_, ?_, fun d hd ↦ ?_⟩
  · rw [hmaterial]
    exact hhead
  · rw [hmaterial, hsignature, hb.signature_eq]
  · rw [hmaterial, htag]
  · rw [triangleCount_finish hb, hlength]
  · rw [hsignature]
    exact halike
  · rw [htag]
    exact Material.tag_eq_of_signature_eq ((halike d hd).trans hb.signature_eq)

end Builder

/-! ### The open batch is the last stretch -/

namespace Level

/-- The open batch has triangles, and where there is none the clump has drawn nothing yet. -/
structure Busy (l : Level) : Prop where
  wellFormed : l.WellFormed
  corners_ne_nil : ∀ b, l.batch = some b → b.corners ≠ []
  batches_eq_nil : l.batch = none → l.node.batches = []

theorem batches_of_some {settings : Settings} {l : Level} {b : Builder} (hl : l.batch = some b)
    (hb : b.corners ≠ []) :
    l.batches settings = l.node.batches ++ [(b.finish settings).1] := by
  have hnonempty : ¬b.isEmpty = true := by
    intro he
    have hempty : b.triangles = #[] := Array.isEmpty_iff.1 he
    exact hb (by rw [Builder.corners, hempty]; rfl)
  rw [batches, openBatch, hl]
  exact congrArg (l.node.batches ++ ·) (if_neg hnonempty)

theorem Busy.batches_of_none {settings : Settings} {l : Level} (h : l.Busy) (hl : l.batch = none) :
    l.batches settings = [] := by
  rw [batches, openBatch, hl, h.batches_eq_nil hl]
  rfl

/-- A complete face has two triangles fewer than corners. -/
theorem length_triangulate_of_resolve {pool : Pool} {f : Face} {offsets : List Nat}
    (hf : f.IsComplete) (h : pool.resolve f.indices = some offsets) :
    (f.shape.triangulate offsets).length = f.indices.length - 2 := by
  refine hf.length_triangulate ?_
  rw [(Pool.resolve_eq_some_iff.1 h).2, List.length_map]

theorem triangulate_ne_nil {pool : Pool} {f : Face} {offsets : List Nat} (hf : f.IsComplete)
    (h : pool.resolve f.indices = some offsets) : f.shape.triangulate offsets ≠ [] := by
  have hlength := length_triangulate_of_resolve hf h
  have hthree := hf.three_le
  refine List.ne_nil_of_length_pos ?_
  omega

section Join

variable {settings : Settings} {l : Level} {d : Drawn} {ts : List (Triangle Nat)} {ds : List Drawn}

/-- A new builder covers the one face that it begins with. -/
theorem covers_fresh (settings : Settings) (hts : ∀ t ∈ ts, ∀ o ∈ t.toList, o < l.pool.size)
    (hlength : ts.length = d.face.indices.length - 2) :
    (((Builder.new d.effective d.signature).pushAll l.pool ts).finish settings).1.Covers [d] := by
  have hnew := Builder.wellFormed_new l.pool d.effective
  obtain ⟨hmaterial, hsignature, hcorners⟩ := Builder.adds_pushAll hnew hts
  refine (hnew.pushAll hts).covers settings ⟨d, rfl, hmaterial⟩ ?_ ?_
  · rw [hcorners, Builder.corners_new, List.nil_append, List.length_map, hlength]
    exact (Nat.add_zero _).symm
  · intro e he
    obtain rfl := List.mem_singleton.1 he
    exact hsignature.symm

/-- A builder that goes on with a face of its signature covers that too. -/
theorem covers_pushAll {b : Builder} (hb : b.WellFormed l.pool)
    (hts : ∀ t ∈ ts, ∀ o ∈ t.toList, o < l.pool.size)
    (hlength : ts.length = d.face.indices.length - 2) (hd : b.signature = d.signature)
    (h : (b.finish settings).1.Covers ds) :
    ((b.pushAll l.pool ts).finish settings).1.Covers (ds ++ [d]) := by
  obtain ⟨hmaterial, hsignature, -⟩ := Builder.finish_keeps settings b
  obtain ⟨hmaterial', hsignature', hcorners⟩ := Builder.adds_pushAll hb hts
  refine (hb.pushAll hts).covers settings ?_ ?_ ?_
  · obtain ⟨e, he, hbe⟩ := h.material
    exact ⟨e, by rw [List.head?_append, he]; rfl, by rw [hmaterial', ← hmaterial, hbe]⟩
  · rw [hcorners, List.length_append, ← Builder.triangleCount_finish hb settings, h.triangleCount,
      List.map_append, List.sum_append, List.length_map, hlength]
    simp
  · intro e he
    rw [hsignature']
    rcases List.mem_append.1 he with he | he
    · rw [h.alike e he, hsignature]
    · obtain rfl := List.mem_singleton.1 he
      exact hd.symm

theorem busy_of_batch {b : Builder} (h : l.WellFormed) (hl : l.batch = some b)
    (hb : b.corners ≠ []) : l.Busy where
  wellFormed := h
  corners_ne_nil c hc := by
    obtain rfl : b = c := Option.some.inj (hl.symm.trans hc)
    exact hb
  batches_eq_nil hnone := absurd (hl.symm.trans hnone) (by simp)

theorem corners_pushAll_ne_nil {b : Builder} (hb : b.WellFormed l.pool)
    (hts : ∀ t ∈ ts, ∀ o ∈ t.toList, o < l.pool.size) (hne : ts ≠ []) :
    (b.pushAll l.pool ts).corners ≠ [] := by
  rw [(Builder.adds_pushAll hb hts).corners]
  exact List.append_ne_nil_of_right_ne_nil _ (by simpa using hne)

/-- Behind a face a clump is busy. -/
theorem Busy.join (h : l.Busy) (hts : ∀ t ∈ ts, ∀ o ∈ t.toList, o < l.pool.size) (hne : ts ≠ [])
    (m : Material) : (l.join settings m m.signature ts).Busy := by
  have hwf : (l.join settings m m.signature ts).WellFormed := h.wellFormed.join settings m hts
  have hnew := corners_pushAll_ne_nil (Builder.wellFormed_new l.pool m) hts hne
  cases hb : l.batch with
  | none =>
    rw [join_of_none settings m ts hb] at hwf ⊢
    exact busy_of_batch hwf rfl hnew
  | some b =>
    by_cases hsig : b.signature = m.signature
    · rw [join_of_eq settings m ts hb hsig] at hwf ⊢
      exact busy_of_batch hwf rfl (corners_pushAll_ne_nil (h.wellFormed.batch b hb) hts hne)
    · rw [join_of_ne settings m ts hb hsig] at hwf ⊢
      exact busy_of_batch hwf rfl hnew

/-- A face goes on with the last stretch or begins one, as its signature wants it. -/
theorem Busy.stretched_join (h : l.Busy) (hts : ∀ t ∈ ts, ∀ o ∈ t.toList, o < l.pool.size)
    (hlength : ts.length = d.face.indices.length - 2) (hne : ts ≠ [])
    (hl : Stretched (l.batches settings) ds) :
    Stretched ((l.join settings d.effective d.signature ts).batches settings) (ds ++ [d]) := by
  have hfresh := covers_fresh settings hts hlength
  have hnew := corners_pushAll_ne_nil (Builder.wellFormed_new l.pool d.effective) hts hne
  cases hb : l.batch with
  | none =>
    -- the clump draws for the first time
    rw [h.batches_of_none hb] at hl
    rw [join_of_none settings d.effective ts hb, batches_of_some rfl hnew]
    show Stretched (l.node.batches ++ [_]) _
    rw [h.batches_eq_nil hb]
    exact hl.concat hfresh fun _ hc ↦ absurd hc (by simp)
  | some b =>
    have hwf : b.WellFormed l.pool := h.wellFormed.batch b hb
    have hbatches : l.batches settings = l.node.batches ++ [(b.finish settings).1] :=
      batches_of_some hb (h.corners_ne_nil b hb)
    obtain ⟨-, hsignature, -⟩ := Builder.finish_keeps settings b
    by_cases hsig : b.signature = d.signature
    · -- the open batch is that of the last stretch, which the face belongs to
      obtain ⟨-, hsignature', -⟩ := Builder.finish_keeps settings (b.pushAll l.pool ts)
      rw [hbatches] at hl
      rw [join_of_eq settings d.effective ts hb hsig,
        batches_of_some rfl (corners_pushAll_ne_nil hwf hts hne)]
      refine hl.extend ?_ fun es hes ↦ covers_pushAll hwf hts hlength hsig hes
      rw [hsignature', hsignature, (Builder.adds_pushAll hwf hts).signature]
    · -- the open batch is finished where a stretch ends
      rw [join_of_ne settings d.effective ts hb hsig, batches_of_some rfl hnew]
      refine hl.concat hfresh fun c hc ↦ ?_
      rw [hbatches, List.getLast?_concat] at hc
      obtain rfl := Option.some.inj hc
      have halike := hfresh.alike d List.mem_cons_self
      exact fun heq ↦ hsig ((hsignature.symm.trans heq).trans halike.symm)

end Join

theorem stable_busy (settings : Settings) : Stable settings Face.IsComplete Busy where
  start := ⟨(stable_wellFormed settings).start, fun b hb ↦ absurd hb (by simp [opened]),
    fun _ ↦ rfl⟩
  vertex l v h := ⟨(stable_wellFormed settings).vertex l v h.wellFormed, h.corners_ne_nil,
    h.batches_eq_nil⟩
  draw l f offsets hf hres h := by
    obtain ⟨memo, hmemo, hdraw⟩ := h.wellFormed.draw_eq settings f offsets
    have hbusy : Busy { l with memo } :=
      ⟨⟨hmemo, h.wellFormed.batch⟩, h.corners_ne_nil, h.batches_eq_nil⟩
    rw [hdraw]
    exact hbusy.join (lt_of_mem_triangulate hres) (triangulate_ne_nil hf hres) _
  enter l name h := ⟨(stable_wellFormed settings).enter l name h.wellFormed,
    fun b hb ↦ absurd hb (by simp [opened]), fun _ ↦ rfl⟩
  adopt l n h := ⟨(stable_wellFormed settings).adopt l n h.wellFormed, h.corners_ne_nil,
    h.batches_eq_nil⟩
  quiet l matrix material memo scopes hmemo h :=
    ⟨(stable_wellFormed settings).quiet l matrix material memo scopes hmemo h.wellFormed,
      h.corners_ne_nil, h.batches_eq_nil⟩

end Level

/-- The batches of a clump are the stretches of its faces. -/
theorem clumpwise_stretched (settings : Settings) :
    Clumpwise settings Face.IsComplete Level.Busy fun bs es ↦ Stretched bs (drawn es) where
  stable := Level.stable_busy settings
  nil := ⟨.nil, [], rfl, .nil⟩
  skip bs es e he hbs := by
    rw [drawn_concat, he]
    exact (List.append_nil (drawn es)).symm ▸ hbs
  draw l es e f offsets hf hl _ hres he hbs := by
    obtain ⟨memo, hmemo, hdraw⟩ := hl.wellFormed.draw_eq settings f offsets
    have hbusy : Level.Busy { l with memo } :=
      ⟨⟨hmemo, hl.wellFormed.batch⟩, hl.corners_ne_nil, hl.batches_eq_nil⟩
    rw [drawn_concat, he, hdraw]
    exact hbusy.stretched_join (d := ⟨f, l.material⟩) (Level.lt_of_mem_triangulate hres)
      (Level.length_triangulate_of_resolve hf hres) (Level.triangulate_ne_nil hf hres) hbs

end RwxScene
