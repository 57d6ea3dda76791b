import Mathlib.Data.List.Forall2
import RwxScene.Proofs.Interpreter.Content
import RwxScene.Proofs.Interpreter.Journal
import RwxScene.Proofs.Interpreter.Levels

/-!
# Clump by clump

A relation between the batches of a clump and its entries in the journal holds of every node of every
finished tree as soon as it is `Clumpwise`: it holds of nothing, entries that draw nothing do not
matter to it, and drawing a face keeps it. That a command reaches the batches and vertices of the
innermost clump only, and that a clump goes on behind a child as it was left, is settled here once
for all such relations (`Clumpwise.tree`).

The induction carries `Tracks`: where the content of each open clump begins is its number, and its
pool has the vertices of its entries.
-/

namespace RwxScene

/-- The name of the root, and of the clump that was opened as the `k`-th. -/
def nodeName : Nat → String
  | 0 => "root"
  | k + 1 => State.clumpName (k + 1)

/-- The content at a place is that of the clump with this number, and its batches are related to the
entries of the clump. -/
def Describes (R : List Batch → List Entry → Prop) (content : List (String × List Batch))
    (es : List Entry) : Prop :=
  ∀ (k : Nat) (x : String × List Batch), content[k]? = some x → x.1 = nodeName k ∧ R x.2 (own es k)

/-- The pools have the vertices of the clumps with these numbers. -/
def Pooled (es : List Entry) : List Level → List Nat → Prop :=
  List.Forall₂ fun l k ↦ l.pool.toList = vertices (own es k)

/-- A relation that can be followed through one clump at a time, as long as only faces with `P` are
drawn; `Q` is what is known of the levels meanwhile. -/
structure Clumpwise (settings : Settings) (P : Face → Prop) (Q : Level → Prop)
    (R : List Batch → List Entry → Prop) : Prop where
  stable : Level.Stable settings P Q
  nil : R [] []
  skip : ∀ bs es e, e.drawn? (vertices es).length = none → R bs es → R bs (es ++ [e])
  draw : ∀ l es e f offsets, P f → Q l → l.pool.toList = vertices es →
    l.pool.resolve f.indices = some offsets →
      e.drawn? (vertices es).length = some ⟨f, l.material⟩ → R (l.batches settings) es →
        R ((l.draw settings f offsets).batches settings) (es ++ [e])

/-- The journal is that of the state, and the content so far is as the relation wants it. -/
structure Tracks (R : List Batch → List Entry → Prop) (s : State) (j : Journal) : Prop where
  clumps : s.clumps = j.opened
  instanceTransform : s.instanceTransform = j.instanceTransform
  positions : Level.positions s.settings s.levels = j.inside
  length : s.content.length = j.opened + 1
  clump_le : ∀ e ∈ j.entries, e.clump ≤ j.opened
  pooled : Pooled j.entries s.levels j.inside
  content : Describes R s.content j.entries

/-! ### One more entry -/

variable {settings : Settings} {P : Face → Prop} {Q : Level → Prop}
  {R : List Batch → List Entry → Prop} {es : List Entry} {e : Entry}

theorem own_eq_nil {n k : Nat} (h : ∀ e ∈ es, e.clump ≤ n) (hk : n < k) : own es k = [] := by
  refine List.filter_eq_nil_iff.2 fun e he ↦ ?_
  have := h e he
  simp only [decide_eq_true_eq]
  omega

theorem Describes.skip (h : Clumpwise settings P Q R) {content : List (String × List Batch)}
    (he : e.drawn? (vertices (own es e.clump)).length = none) (hc : Describes R content es) :
    Describes R content (es ++ [e]) := by
  intro k x hx
  obtain ⟨hname, hR⟩ := hc k x hx
  by_cases hk : k = e.clump
  · subst hk
    rw [own_concat]
    exact ⟨hname, h.skip _ _ _ he hR⟩
  · rw [own_concat_of_ne es hk]
    exact ⟨hname, hR⟩

/-- Other batches in place of those of one clump. -/
theorem Describes.replace {before after : List (String × List Batch)} {name : String}
    {bs cs : List Batch} (hc : Describes R (before ++ (name, bs) :: after) es)
    (hclump : e.clump = before.length)
    (hR : R bs (own es before.length) → R cs (own es before.length ++ [e])) :
    Describes R (before ++ (name, cs) :: after) (es ++ [e]) := by
  intro k x hx
  -- on both sides of the place neither content nor entries have changed
  rcases Nat.lt_trichotomy k before.length with hk | rfl | hk
  · rw [List.getElem?_append_left hk] at hx
    rw [own_concat_of_ne es (by omega)]
    exact hc k x (by rw [List.getElem?_append_left hk, hx])
  · rw [List.getElem?_append_right (Nat.le_refl _), Nat.sub_self, List.getElem?_cons_zero] at hx
    obtain rfl := Option.some.inj hx
    obtain ⟨hname, hbs⟩ := hc before.length (name, bs) (by simp)
    rw [← hclump, own_concat, hclump]
    exact ⟨hname, hR hbs⟩
  · obtain ⟨d, hd⟩ : ∃ d, k - before.length = d + 1 := ⟨k - before.length - 1, by omega⟩
    rw [List.getElem?_append_right (by omega), hd, List.getElem?_cons_succ] at hx
    rw [own_concat_of_ne es (by omega)]
    exact hc k x (by rw [List.getElem?_append_right (by omega), hd, List.getElem?_cons_succ, hx])

/-- A clump that was just opened has neither batches nor entries. -/
theorem Describes.enter (h : Clumpwise settings P Q R) {content : List (String × List Batch)}
    (hown : own es content.length = []) (hc : Describes R content es) :
    Describes R (content ++ [(nodeName content.length, [])]) es := by
  intro k x hx
  by_cases hk : k < content.length
  · rw [List.getElem?_append_left hk] at hx
    exact hc k x hx
  · rw [List.getElem?_append_right (by omega)] at hx
    have hlt := (List.getElem?_eq_some_iff.1 hx).1
    obtain rfl : k = content.length := by
      rw [List.length_singleton] at hlt
      omega
    obtain rfl := List.mem_singleton.1 (List.mem_of_getElem? hx)
    rw [hown]
    exact ⟨rfl, h.nil⟩

theorem Pooled.concat {l m : Level} {ls : List Level} {ks : List Nat}
    (h : Pooled es (l :: ls) (e.clump :: ks)) (hne : ∀ k ∈ ks, k ≠ e.clump)
    (hpool : m.pool.toList = l.pool.toList ++ e.vertex?.toList) :
    Pooled (es ++ [e]) (m :: ls) (e.clump :: ks) := by
  obtain ⟨hl, hls⟩ := List.forall₂_cons.1 h
  refine List.forall₂_cons.2 ⟨?_, ?_⟩
  · rw [own_concat, vertices_concat, ← hl, hpool]
  · refine List.forall₂_iff_get.2 ⟨(List.forall₂_iff_get.1 hls).1, fun i hi hi' ↦ ?_⟩
    rw [own_concat_of_ne es (hne _ (List.get_mem _ _))]
    exact (List.forall₂_iff_get.1 hls).2 i hi hi'

/-! ### One more command -/

theorem drawn?_of_not_face {c : Command} (hc : ∀ f, c ≠ .face f) (j : Journal) (m : Material)
    (n : Nat) : (j.entry m c).drawn? n = none := by
  cases c with
  | face f => exact absurd rfl (hc f)
  | _ => rfl

theorem vertex?_of_not_vertex {c : Command} (hc : ∀ position uv, c ≠ .vertex position uv)
    (j : Journal) (m : Material) : (j.entry m c).vertex? = none := by
  cases c with
  | vertex position uv => exact absurd rfl (hc position uv)
  | _ => rfl

namespace Tracks

variable {s : State} {j : Journal}

theorem start (h : Clumpwise settings P Q R) : Tracks R (.start settings) .empty := by
  have hcontent : (State.start settings).content = [(nodeName 0, [])] :=
    Level.content_opened settings _ _ _ _
  have hempty : Describes R [] [] := fun _ _ hx ↦ absurd hx (by simp)
  refine ⟨rfl, rfl, rfl, ?_, fun _ he ↦ absurd he List.not_mem_nil, .cons rfl .nil, ?_⟩
  · rw [hcontent]
    rfl
  · rw [hcontent]
    exact hempty.enter h rfl

/-- The innermost clump has the number of the place where its content begins. -/
theorem innermost_eq (h : Tracks R s j) :
    j.innermost = (Level.contents s.settings s.outer).length := by
  rw [Journal.innermost, ← h.positions]
  rfl

theorem inside_eq (h : Tracks R s j) :
    j.inside = j.innermost :: Level.positions s.settings s.outer := by
  rw [h.innermost_eq, ← h.positions]
  rfl

theorem ne_innermost (h : Tracks R s j) :
    ∀ k ∈ Level.positions s.settings s.outer, k ≠ j.innermost := by
  intro k hk
  have := Level.lt_of_mem_positions hk
  rw [h.innermost_eq]
  omega

theorem innermost_le (h : Tracks R s j) : j.innermost ≤ j.opened := by
  have hlength := h.length
  rw [State.content, State.levels, Level.contents, List.length_append, Level.content,
    List.length_cons] at hlength
  rw [h.innermost_eq]
  omega

/-- The vertices of the innermost clump. -/
theorem pool_eq (h : Tracks R s j) :
    s.level.pool.toList = vertices (own j.entries j.innermost) := by
  have hpooled := h.pooled
  rw [h.inside_eq] at hpooled
  exact (List.forall₂_cons.1 hpooled).1

theorem clump_le_concat (h : Tracks R s j) (m : Material) (c : Command) :
    ∀ e ∈ j.entries ++ [j.entry m c], e.clump ≤ j.opened := by
  intro e he
  rcases List.mem_append.1 he with he | he
  · exact h.clump_le e he
  · obtain rfl := List.mem_singleton.1 he
    exact h.innermost_le

/-- The vertices behind a command that does at most declare some on the innermost level. -/
theorem pooled_concat (h : Tracks R s j) {l : Level} {m : Material} {c : Command}
    (hpool : l.pool.toList = s.level.pool.toList ++ (j.entry m c).vertex?.toList) :
    Pooled (j.entries ++ [j.entry m c]) (l :: s.outer) j.inside := by
  have hpooled := h.pooled
  rw [h.inside_eq] at hpooled ⊢
  exact Pooled.concat hpooled h.ne_innermost hpool

theorem pooled_of_not_vertex (h : Tracks R s j) {m : Material} {c : Command}
    (hc : ∀ position uv, c ≠ .vertex position uv) {l : Level} (hl : l.pool = s.level.pool) :
    Pooled (j.entries ++ [j.entry m c]) (l :: s.outer) j.inside := by
  refine h.pooled_concat ?_
  rw [vertex?_of_not_vertex hc, hl]
  exact (List.append_nil _).symm

/-- The content as it is after a command that draws nothing. -/
theorem content_of_not_face (h : Tracks R s j) (hR : Clumpwise settings P Q R) {m : Material}
    {c : Command} (hc : ∀ f, c ≠ .face f) :
    Describes R s.content (j.entries ++ [j.entry m c]) :=
  h.content.skip hR (drawn?_of_not_face hc j m _)

/-- A face is drawn exactly if its corners are among the vertices of its clump so far. -/
theorem drawn?_of_resolve (h : Tracks R s j) (f : Face) (m : Material) :
    (j.entry m (.face f)).drawn? (vertices (own j.entries j.innermost)).length =
      (s.level.pool.resolve f.indices).map fun _ ↦ ⟨f, m⟩ := by
  rw [← h.pool_eq, Array.length_toList]
  show (if ∀ i ∈ f.indices, 1 ≤ i ∧ i ≤ s.level.pool.size then _ else none) = _
  cases hf : s.level.pool.resolve f.indices with
  | none =>
    refine if_neg fun hall ↦ ?_
    rw [Pool.resolve_eq_some_iff.2 ⟨hall, rfl⟩] at hf
    exact absurd hf (by simp)
  | some offsets => exact if_pos (Pool.resolve_eq_some_iff.1 hf).1

/-- A face that is drawn changes the batches of the innermost clump and no others. -/
theorem drawn (h : Tracks R s j) (hR : Clumpwise s.settings P Q R) (hQ : Q s.level) {f : Face}
    (hf : P f) {offsets : List Nat} (hoffsets : s.level.pool.resolve f.indices = some offsets)
    (diagnostics : Diagnostics) :
    Tracks R { s with level := s.level.draw s.settings f offsets, diagnostics }
      { j with entries := j.entries ++ [j.entry s.level.material (.face f)] } := by
  have hkeeps := s.level.keeps_draw s.settings f offsets
  have hdrawn := h.drawn?_of_resolve f s.level.material
  rw [hoffsets] at hdrawn
  have hcontent : (s.level.draw s.settings f offsets).content s.settings =
      (s.level.node.name, (s.level.draw s.settings f offsets).batches s.settings) ::
        (Node.visit s.level.node.children).map Node.content := by
    rw [Level.content, hkeeps.name, hkeeps.children]
  refine ⟨h.clumps, h.instanceTransform, h.positions, ?_, h.clump_le_concat _ _,
    h.pooled_of_not_vertex (by simp) hkeeps.pool, ?_⟩
  · have hlength := h.length
    rw [State.content, State.levels, Level.contents, List.length_append] at hlength ⊢
    rw [hcontent]
    exact hlength
  · -- only what stands at the number of the innermost clump is another
    rw [State.content, State.levels, Level.contents, hcontent]
    refine Describes.replace h.content h.innermost_eq fun hbs ↦ ?_
    rw [← h.innermost_eq] at hbs ⊢
    exact hR.draw _ _ _ f offsets hf hQ h.pool_eq hoffsets hdrawn hbs

/-- A clump that begins has the next number, which no entry has yet. -/
theorem entered (h : Tracks R s j) (hR : Clumpwise settings P Q R) :
    Tracks R s.enter { j.nest (.scope .clumpBegin) with
      entries := j.entries ++ [j.entry s.level.material (.scope .clumpBegin)] } := by
  have hle := h.clump_le_concat s.level.material (.scope .clumpBegin)
  have hcontent : s.enter.content = s.content ++ [(nodeName s.content.length, [])] := by
    rw [h.length, ← h.clumps]
    exact congrArg (s.content ++ ·) (Level.content_opened s.settings _ _ _ _)
  have hown : own (j.entries ++ [j.entry s.level.material (.scope .clumpBegin)])
      (j.opened + 1) = [] := own_eq_nil hle (Nat.lt_succ_self _)
  refine ⟨congrArg (· + 1) h.clumps, h.instanceTransform, ?_, ?_, ?_, ?_, ?_⟩
  · show s.content.length :: Level.positions s.settings s.levels = (j.opened + 1) :: j.inside
    rw [h.length, h.positions]
  · rw [hcontent, List.length_append, h.length]
    rfl
  · exact fun e he ↦ Nat.le_succ_of_le (hle e he)
  · refine .cons ?_ (h.pooled_of_not_vertex (by simp) rfl)
    rw [hown]
    rfl
  · rw [hcontent]
    refine Describes.enter hR ?_ (h.content_of_not_face hR (by simp))
    rw [h.length]
    exact hown

/-- A clump that ends leaves the content as it is, and the clump around it is innermost again. -/
theorem left (h : Tracks R s j) (hR : Clumpwise settings P Q R) {parent : Level}
    {outer : List Level} (ho : s.outer = parent :: outer) (placement : Placement)
    (joint : Option Mat4) (diagnostics : Diagnostics) :
    Tracks R
      { s with
        level := parent.adopt { (s.level.settled s.settings).node with placement, joint }
        outer
        baked := false
        diagnostics }
      { j.nest (.scope .clumpEnd) with
        entries := j.entries ++ [j.entry s.level.material (.scope .clumpEnd)] } := by
  have hinside := h.inside_eq
  rw [ho] at hinside
  -- the numbers that are left are the places where the levels that are left begin
  have hnest : j.nest (.scope .clumpEnd) =
      { j with inside := Level.positions s.settings (parent :: outer) } := by
    rw [Journal.nest, hinside]
    rfl
  have hcontent := State.contents_leave s.settings s.level parent outer placement joint
  have hcontents : Level.contents s.settings (s.level :: parent :: outer) = s.content := by
    rw [State.content, State.levels, ho]
  rw [hcontents] at hcontent
  rw [hnest]
  refine ⟨h.clumps, h.instanceTransform, rfl, ?_, h.clump_le_concat _ _, ?_, ?_⟩
  · exact (congrArg List.length hcontent).trans h.length
  · have hpooled := h.pooled_of_not_vertex (m := s.level.material) (c := .scope .clumpEnd)
      (by simp) rfl
    rw [hinside, ho] at hpooled
    obtain ⟨hparent, houter⟩ := List.forall₂_cons.1 (List.forall₂_cons.1 hpooled).2
    exact .cons hparent houter
  · have hdescribes := h.content_of_not_face hR (m := s.level.material)
      (c := .scope .clumpEnd) (by simp)
    rw [← hcontent] at hdescribes
    exact hdescribes

theorem nest_of_quiet {c : Command} (hc : c.IsQuiet) (j : Journal) : j.nest c = j := by
  cases c with
  | scope m =>
    cases m with
    | clumpBegin => exact absurd hc id
    | clumpEnd => exact absurd hc id
    | _ => rfl
  | _ => rfl

/-- The journal keeps up with a command. -/
theorem effect (h : Tracks R s j) (hR : Clumpwise s.settings P Q R) (hs : ∀ l ∈ s.levels, Q l)
    {c : Command} {t : State} (hc : ∀ f, c = .face f → P f) (ht : s.Effect c t) :
    Tracks R t { j.nest c with entries := j.entries ++ [j.entry s.level.material c] } := by
  have hle := h.clump_le_concat s.level.material c
  cases ht with
  | vertex position uv =>
    refine ⟨h.clumps, h.instanceTransform, h.positions, h.length, hle, ?_,
      h.content_of_not_face hR (by simp)⟩
    refine h.pooled_concat ?_
    rw [State.placed, h.instanceTransform]
    exact Array.toList_push
  | dropped f d hf =>
    have hskip := h.drawn?_of_resolve f s.level.material
    rw [hf] at hskip
    exact ⟨h.clumps, h.instanceTransform, h.positions, h.length, hle,
      h.pooled_of_not_vertex (by simp) rfl, h.content.skip hR hskip⟩
  | drawn f offsets d hf => exact h.drawn hR (hs _ List.mem_cons_self) (hc f rfl) hf d
  | entered => exact h.entered hR
  | unmatched d ho =>
    have hinside : j.inside = [j.innermost] := by
      rw [h.inside_eq, ho]
      rfl
    have hnest : j.nest (.scope .clumpEnd) = j := by
      rw [Journal.nest, hinside]
    rw [hnest]
    exact ⟨h.clumps, h.instanceTransform, h.positions, h.length, hle,
      h.pooled_of_not_vertex (by simp) rfl, h.content_of_not_face hR (by simp)⟩
  | left parent outer placement joint d ho => exact h.left hR ho placement joint d
  | quiet _ matrix material memo joint joints d hquiet hmemo =>
    have hface : ∀ f, c ≠ .face f := by
      rintro f rfl
      exact hquiet
    have hvertex : ∀ position uv, c ≠ .vertex position uv := by
      rintro position uv rfl
      exact hquiet
    rw [nest_of_quiet hquiet]
    exact ⟨h.clumps, h.instanceTransform, h.positions, h.length, hle,
      h.pooled_of_not_vertex hvertex rfl, h.content_of_not_face hR hface⟩

/-! ### Runs -/

theorem act (h : Tracks R s j) (hR : Clumpwise s.settings P Q R) (hs : ∀ l ∈ s.levels, Q l)
    {a : Action} (ha : a.Draws P) : Tracks R (s.act a) (j.record s.level.material a) := by
  rw [Journal.record]
  cases hc : a.command? with
  | some c =>
    rw [State.act_of_command hc]
    exact h.effect hR hs (fun f hf ↦ ha f (hf ▸ hc)) (s.effect_apply c)
  | none =>
    cases a with
    | line l =>
      cases l with
      | command c => exact absurd hc (by simp [Action.command?, Line.command?])
      | blank => exact h
      | rejected r => exact h
    | command c => exact absurd hc (by simp [Action.command?])
    | setInstanceTransform m =>
      exact ⟨h.clumps, rfl, h.positions, h.length, h.clump_le, h.pooled, h.content⟩
    | _ =>
      exact ⟨h.clumps, h.instanceTransform, h.positions, h.length, h.clump_le, h.pooled, h.content⟩

/-- The journal keeps up with a run. -/
theorem run (h : Tracks R s j) (hR : Clumpwise s.settings P Q R) (hs : ∀ l ∈ s.levels, Q l)
    {as : List Action} (has : ∀ a ∈ as, a.Draws P) : Tracks R (s.run as) (s.journal j as) := by
  induction as generalizing s j with
  | nil => exact h
  | cons a as ih =>
    obtain ⟨ha, has⟩ := List.forall_mem_cons.1 has
    have hsettings := s.settings_act a
    exact ih (h.act hR hs ha) (hsettings ▸ hR) (hR.stable.act ha hs) has

end Tracks

/-- The nodes of the finished tree are the root and the clumps in the order in which they were
opened, and the relation holds between the batches of each and its entries. -/
theorem Clumpwise.tree (h : Clumpwise settings P Q R) (as : List Action)
    (has : ∀ a ∈ as, a.Draws P) :
    ((State.start settings).run as).finish.1.walk.length = (journal settings as).opened + 1 ∧
      ∀ (k : Nat) (n : Node), ((State.start settings).run as).finish.1.walk[k]? = some n →
        n.name = nodeName k ∧ R n.batches (own (journal settings as).entries k) := by
  have htracks : Tracks R ((State.start settings).run as) (journal settings as) :=
    (Tracks.start h).run h h.stable.forall_start has
  have hcontent := State.content_finish ((State.start settings).run as)
  refine ⟨?_, fun k n hn ↦ ?_⟩
  · rw [← htracks.length, ← hcontent, List.length_map]
  · refine htracks.content k n.content ?_
    rw [← hcontent, List.getElem?_map, hn]
    rfl

end RwxScene
