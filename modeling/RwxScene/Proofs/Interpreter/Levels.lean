import RwxScene.Proofs.Interpreter.Effect
import RwxScene.Proofs.Mesh.Builder

/-!
# What holds of every open clump

A property of levels that survives what can happen to one level holds of all levels of every state
that a run reaches (`Level.Stable.run`). The waiting levels need no argument of their own: the only
thing that ever happens to one is that it gets a child and becomes the innermost.

The property that the later statements rest on is `Level.WellFormed`: what is remembered of the
signature is true of the material in force, and the open batch agrees with the vertices of its clump.
-/

namespace RwxScene

/-- The face that is drawn, if one is, has the property. -/
def Action.Draws (P : Face → Prop) (a : Action) : Prop := ∀ f, a.command? = some (.face f) → P f

namespace Level

/-! ### Stable properties -/

/-- A property of levels that survives what can happen to a level, as long as only faces with `P` are
drawn. -/
structure Stable (settings : Settings) (P : Face → Prop) (Q : Level → Prop) : Prop where
  start : Q (.opened "root" .identity .initial none)
  vertex : ∀ l v, Q l → Q { l with pool := l.pool.push v }
  draw : ∀ l f offsets, P f → l.pool.resolve f.indices = some offsets → Q l →
    Q (l.draw settings f offsets)
  enter : ∀ l name, Q l → Q (.opened name l.matrix l.material l.memo)
  adopt : ∀ l n, Q l → Q (l.adopt n)
  quiet : ∀ l matrix material memo scopes,
    memo = none ∨ memo = l.memo ∧ material = l.material → Q l →
      Q { l with matrix, material, memo, scopes }

variable {settings : Settings} {P : Face → Prop} {Q : Level → Prop}

/-- A step keeps a stable property. -/
theorem Stable.effect {s t : State} {c : Command} (h : Stable s.settings P Q)
    (hc : ∀ f, c = .face f → P f) (hs : ∀ l ∈ s.levels, Q l) (ht : s.Effect c t) :
    ∀ l ∈ t.levels, Q l := by
  obtain ⟨hlevel, houter⟩ := List.forall_mem_cons.1 hs
  cases ht with
  | vertex position uv => exact List.forall_mem_cons.2 ⟨h.vertex _ _ hlevel, houter⟩
  | dropped f d hf => exact hs
  | drawn f offsets d hf =>
    exact List.forall_mem_cons.2 ⟨h.draw _ _ _ (hc f rfl) hf hlevel, houter⟩
  | entered => exact List.forall_mem_cons.2 ⟨h.enter _ _ hlevel, hs⟩
  | unmatched d ho => exact hs
  | left parent outer placement joint d ho =>
    rw [ho] at houter
    obtain ⟨hparent, houter⟩ := List.forall_mem_cons.1 houter
    exact List.forall_mem_cons.2 ⟨h.adopt _ _ hparent, houter⟩
  | quiet _ matrix material memo joint joints d hq hmemo =>
    exact List.forall_mem_cons.2 ⟨h.quiet _ _ _ _ _ hmemo hlevel, houter⟩

end Level

namespace State

/-! ### Runs -/

theorem settings_effect {s t : State} {c : Command} (h : s.Effect c t) :
    t.settings = s.settings := by
  cases h <;> rfl

theorem settings_act (s : State) (a : Action) : (s.act a).settings = s.settings := by
  cases h : a.command? with
  | none =>
    obtain ⟨_, _, _, hact⟩ := act_of_no_command h s
    rw [hact]
  | some c =>
    rw [act_of_command h]
    exact settings_effect (s.effect_apply c)

/-- No action changes the settings. -/
theorem settings_run (s : State) (as : List Action) : (s.run as).settings = s.settings := by
  induction as generalizing s with
  | nil => rfl
  | cons a as ih => rw [run_cons, ih, settings_act]

end State

namespace Level

variable {P : Face → Prop} {Q : Level → Prop}

theorem Stable.act {s : State} {a : Action} (h : Stable s.settings P Q) (ha : a.Draws P)
    (hs : ∀ l ∈ s.levels, Q l) : ∀ l ∈ (s.act a).levels, Q l := by
  cases hc : a.command? with
  | none =>
    obtain ⟨_, _, _, hact⟩ := State.act_of_no_command hc s
    rw [hact]
    exact hs
  | some c =>
    rw [State.act_of_command hc]
    exact h.effect (fun f hf ↦ ha f (hf ▸ hc)) hs (s.effect_apply c)

/-- A stable property holds of every level that a run reaches. -/
theorem Stable.run {s : State} {as : List Action} (h : Stable s.settings P Q)
    (has : ∀ a ∈ as, a.Draws P) (hs : ∀ l ∈ s.levels, Q l) : ∀ l ∈ (s.run as).levels, Q l := by
  induction as generalizing s with
  | nil => exact hs
  | cons a as ih =>
    obtain ⟨ha, has⟩ := List.forall_mem_cons.1 has
    rw [State.run_cons]
    exact ih (s.settings_act a ▸ h) has (h.act ha hs)

/-- The root is the only level at the start. -/
theorem Stable.forall_start {settings : Settings} (h : Stable settings P Q) :
    ∀ l ∈ (State.start settings).levels, Q l := by
  intro l hl
  obtain rfl := List.mem_singleton.1 hl
  exact h.start

/-- A stable property holds of every level of every state that can be reached. -/
theorem Stable.forall_run {settings : Settings} (h : Stable settings P Q) (as : List Action)
    (has : ∀ a ∈ as, a.Draws P) : ∀ l ∈ ((State.start settings).run as).levels, Q l :=
  h.run has h.forall_start

/-! ### Well-formed levels -/

/-- The memo is true of the material in force, and the open batch agrees with the vertices. -/
structure WellFormed (l : Level) : Prop where
  memo : ∀ s, l.memo = some s → s = l.material.signature
  batch : ∀ b, l.batch = some b → b.WellFormed l.pool

theorem WellFormed.signature_eq {l : Level} (h : l.WellFormed) :
    l.signature = l.material.signature := by
  rw [signature]
  cases hm : l.memo with
  | none => rfl
  | some s => exact h.memo s hm

theorem wellFormed_opened {l : Level} (h : l.WellFormed) (name : String) (m : Mat4) :
    (opened name m l.material l.memo).WellFormed :=
  ⟨h.memo, fun _ hb ↦ absurd hb (by simp [opened])⟩

/-- A face that has no tag of its own has the material in force. -/
theorem faceMaterial_of_not_retagged {l : Level} {tag : Option Int} (h : l.retagged tag = false) :
    l.faceMaterial tag = l.material := by
  cases tag with
  | none => rfl
  | some t =>
    have ht : t = l.material.tag := by simpa [retagged] using h
    rw [faceMaterial, Option.getD_some, ht]

/-- The signature that a face is drawn with is that of its material: what is remembered is used only
for the material that it belongs to. -/
theorem WellFormed.draw_eq {l : Level} (h : l.WellFormed) (settings : Settings) (f : Face)
    (offsets : List Nat) :
    ∃ memo, (∀ s, memo = some s → s = l.material.signature) ∧
      l.draw settings f offsets =
        { l with memo }.join settings (l.faceMaterial f.tag) (l.faceMaterial f.tag).signature
          (f.shape.triangulate offsets) := by
  cases hr : l.retagged f.tag with
  | true => exact ⟨l.memo, h.memo, by rw [draw, hr]; rfl⟩
  | false =>
    refine ⟨some l.signature, fun s hs ↦ (Option.some.inj hs).symm.trans h.signature_eq, ?_⟩
    rw [draw, hr, faceMaterial_of_not_retagged hr, ← h.signature_eq]
    rfl

theorem WellFormed.join {l : Level} (h : l.WellFormed) (settings : Settings) (m : Material)
    {ts : List (Triangle Nat)} (hts : ∀ t ∈ ts, ∀ o ∈ t.toList, o < l.pool.size) :
    (l.join settings m m.signature ts).WellFormed := by
  have hfresh := (Builder.wellFormed_new l.pool m).pushAll hts
  cases hb : l.batch with
  | none =>
    rw [join_of_none settings m ts hb]
    exact ⟨h.memo, fun c hc ↦ Option.some.inj hc ▸ hfresh⟩
  | some b =>
    by_cases hsig : b.signature = m.signature
    · rw [join_of_eq settings m ts hb hsig]
      exact ⟨h.memo, fun c hc ↦ Option.some.inj hc ▸ (h.batch b hb).pushAll hts⟩
    · rw [join_of_ne settings m ts hb hsig]
      exact ⟨h.memo, fun c hc ↦ Option.some.inj hc ▸ hfresh⟩

/-- The triangles of a resolved face have vertices. -/
theorem lt_of_mem_triangulate {pool : Pool} {f : Face} {offsets : List Nat}
    (h : pool.resolve f.indices = some offsets) :
    ∀ t ∈ f.shape.triangulate offsets, ∀ o ∈ t.toList, o < pool.size :=
  fun _ ht o ho ↦ Pool.lt_of_resolve h o (FaceShape.mem_of_mem_triangulate ht o ho)

theorem stable_wellFormed (settings : Settings) :
    Stable settings (fun _ ↦ True) WellFormed where
  start := ⟨fun _ hs ↦ absurd hs (by simp [opened]), fun _ hb ↦ absurd hb (by simp [opened])⟩
  vertex l v h := ⟨h.memo, fun b hb ↦ (h.batch b hb).mono v⟩
  draw l f offsets _ hf h := by
    obtain ⟨memo, hmemo, hdraw⟩ := h.draw_eq settings f offsets
    rw [hdraw]
    exact WellFormed.join (l := { l with memo }) ⟨hmemo, h.batch⟩ settings _
      (lt_of_mem_triangulate hf)
  enter l name h := wellFormed_opened h name l.matrix
  adopt l n h := ⟨h.memo, h.batch⟩
  quiet l matrix material memo scopes hmemo h := by
    refine ⟨fun s hs ↦ ?_, h.batch⟩
    rcases hmemo with rfl | ⟨rfl, rfl⟩
    · exact absurd hs (by simp)
    · exact h.memo s hs

/-- Every level that a run reaches is well-formed. -/
theorem wellFormed_run (settings : Settings) (as : List Action) :
    ∀ l ∈ ((State.start settings).run as).levels, l.WellFormed :=
  (stable_wellFormed settings).forall_run as fun _ _ _ _ ↦ trivial

end Level

end RwxScene
