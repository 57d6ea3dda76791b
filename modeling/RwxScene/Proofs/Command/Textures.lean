import Mathlib.Data.List.Induction
import RwxScene.Proofs.Command.Forms

/-!
# Reading textures and their modes

Modes add up, in any order and as often as they are named. Attributes of a texture are set one after
the other, so that the last one of each kind holds (`foldl_put`).
-/

namespace RwxScene.Arguments

/-! ### Texture modes -/

/-- The mode that a word in small letters adds, if it is one of the words for modes. -/
theorem texturesMode?_eq_some_iff {w : String} {m : TextureModes} :
    texturesMode? w = some m ↔
      w ∈ ["null", "lit", "foreshorten", "filter"] ∧
        m = ⟨"lit" == w, "foreshorten" == w, "filter" == w⟩ := by
  rw [texturesMode?]
  split_ifs with hnull hlit hforeshorten hfilter
  · subst hnull
    simp [TextureModes.none, eq_comm]
  · subst hlit
    simp [TextureModes.none, eq_comm]
  · subst hforeshorten
    simp [TextureModes.none, eq_comm]
  · subst hfilter
    simp [TextureModes.none, eq_comm]
  · simp [hnull, hlit, hforeshorten, hfilter]

/-- The modes that are mentioned. -/
def mentioned (ws : List String) : TextureModes :=
  ⟨(ws.map Text.lower).contains "lit", (ws.map Text.lower).contains "foreshorten",
    (ws.map Text.lower).contains "filter"⟩

theorem exists_spells_iff {ws : List String} {s : String} :
    (∃ w ∈ ws, Text.Spells w s) ↔ (ws.map Text.lower).contains s = true := by
  simp only [Text.spells_iff, List.contains_iff_mem, List.mem_map]

theorem modeWords_iff {ws : List String} {m : TextureModes} :
    ModeWords ws m ↔
      (∀ w ∈ ws, Text.lower w ∈ ["null", "lit", "foreshorten", "filter"]) ∧ m = mentioned ws := by
  have hwords : ∀ w, (∃ s ∈ ["null", "lit", "foreshorten", "filter"], Text.Spells w s) ↔
      Text.lower w ∈ ["null", "lit", "foreshorten", "filter"] := fun w ↦ by
    simp only [Text.spells_iff, exists_eq_right']
  constructor
  · rintro ⟨hknown, hlit, hforeshorten, hfilter⟩
    obtain ⟨lit, foreshorten, filter⟩ := m
    simp only [exists_spells_iff, Bool.coe_iff_coe] at hlit hforeshorten hfilter
    exact ⟨fun w hw ↦ (hwords w).1 (hknown w hw), by rw [mentioned, hlit, hforeshorten, hfilter]⟩
  · rintro ⟨hknown, rfl⟩
    exact ⟨fun w hw ↦ (hwords w).2 (hknown w hw), exists_spells_iff.symm, exists_spells_iff.symm,
      exists_spells_iff.symm⟩

theorem mentioned_cons (w : String) (ws : List String) :
    mentioned (w :: ws) =
      (⟨"lit" == Text.lower w, "foreshorten" == Text.lower w, "filter" == Text.lower w⟩ :
        TextureModes).union (mentioned ws) := by
  simp only [mentioned, List.map_cons, List.contains_cons, TextureModes.union]

theorem modes_eq_ok_iff {k : String} {ws : List String} {m : TextureModes} :
    modes k ws = .ok m ↔ ModeWords ws m := by
  rw [modeWords_iff]
  induction ws generalizing m with
  | nil =>
    rw [modes, Except.ok.injEq, eq_comm]
    exact (and_iff_right fun _ hw ↦ absurd hw List.not_mem_nil).symm
  | cons w ws ih =>
    rw [modes, List.forall_mem_cons, mentioned_cons]
    cases hw : texturesMode? (Text.lower w) with
    | none =>
      have hunknown : ¬Text.lower w ∈ ["null", "lit", "foreshorten", "filter"] := fun hmem ↦
        absurd (hw.symm.trans (texturesMode?_eq_some_iff.2 ⟨hmem, rfl⟩)) (by simp)
      exact ⟨fun h ↦ absurd h (by simp), fun h ↦ absurd h.1.1 hunknown⟩
    | some n =>
      obtain ⟨hmem, rfl⟩ := texturesMode?_eq_some_iff.1 hw
      cases hws : modes k ws with
      | error e =>
        refine ⟨fun h ↦ absurd h (by simp [Except.map]), fun h ↦ ?_⟩
        exact absurd (hws.symm.trans (ih.2 ⟨h.1.2, rfl⟩)) (by simp)
      | ok o =>
        obtain ⟨hknown, rfl⟩ := ih.1 hws
        show Except.ok _ = Except.ok m ↔ _
        rw [Except.ok.injEq, eq_comm]
        exact (and_iff_right ⟨hmem, hknown⟩).symm

theorem accepts_textureModes : textureModes.Accepts ModeWords :=
  accepts_rest fun _ _ _ ↦ modes_eq_ok_iff

theorem accepts_modes (f : TextureModes → Command) :
    (textureModes >>= fun m ↦ pure (f m)).Accepts (Form.modes 0 f).Phrase := by
  refine (accepts_textureModes.map f).of_iff fun ws c ↦ ?_
  constructor
  · rintro ⟨m, hm, rfl⟩
    exact .modes (Nat.zero_le _) hm
  · intro h
    cases h with
    | modes _ hws => exact ⟨_, hws, rfl⟩

theorem accepts_someModes (f : TextureModes → Command) :
    (someTextureModes >>= fun m ↦ pure (f m)).Accepts (Form.modes 1 f).Phrase := by
  have hreject : Accepts (fun k _ ↦ .error (.missingArgument k) : Arguments TextureModes)
      fun _ _ ↦ False := fun _ _ _ ↦ by simp
  refine ((accepts_isEnd hreject accepts_textureModes).map f).of_iff fun ws c ↦ ?_
  constructor
  · rintro ⟨m, ⟨-, h⟩ | ⟨hne, hm⟩, rfl⟩
    · exact h.elim
    · exact .modes (List.length_pos_iff.2 hne) hm
  · intro h
    cases h with
    | modes hleast hws => exact ⟨_, .inr ⟨List.length_pos_iff.1 hleast, hws⟩, rfl⟩

/-! ### Textures -/

/-- The texture with an attribute given. -/
def put (t : TextureSpec) (a : TextureAttribute × String) : TextureSpec :=
  match a.1 with
  | .mask => { t with mask := nameOf a.2 }
  | .normal => { t with normal := nameOf a.2 }
  | .specular => { t with specular := nameOf a.2 }
  | .ratio => { t with ratio := readFinite? a.2.toList }

theorem set_eq_ok_iff {t u : TextureSpec} {a : TextureAttribute} {w : String} :
    a.set t w = .ok u ↔ (a = .ratio → ∃ s, IsNumber w s) ∧ u = put t (a, w) := by
  cases a with
  | ratio =>
    simp only [← readFinite?_eq_some_iff, TextureAttribute.set, put]
    cases readFinite? w.toList with
    | none => simp
    | some s => simp [eq_comm]
  | _ => simp [TextureAttribute.set, put, eq_comm]

theorem spelling_eq_word (a : TextureAttribute) : a.spelling = Vocabulary.word a := by
  cases a <;> rfl

theorem spells_attribute_iff {v : String} {a : TextureAttribute} :
    Text.Spells v a.spelling ↔ Vocabulary.ofWord? (Text.lower v) = some a := by
  rw [Text.spells_iff, spelling_eq_word, Vocabulary.ofWord?_eq_some_iff]

theorem attributes_cons_iff {v w : String} {ws : List String}
    {as : List (TextureAttribute × String)} :
    Attributes (v :: w :: ws) as ↔ ∃ a bs, Vocabulary.ofWord? (Text.lower v) = some a ∧
      (a = .ratio → ∃ s, IsNumber w s) ∧ Attributes ws bs ∧ as = (a, w) :: bs := by
  constructor
  · intro h
    cases h with
    | cons hv hw hws => exact ⟨_, _, spells_attribute_iff.1 hv, hw, hws, rfl⟩
  · rintro ⟨a, bs, hv, hw, hws, rfl⟩
    exact .cons (spells_attribute_iff.2 hv) hw hws

/-- The attributes are set one after the other. -/
theorem textureAttributes_eq_ok_iff {k : String} {ws : List String} {t u : TextureSpec} :
    textureAttributes k t ws = .ok u ↔ ∃ as, Attributes ws as ∧ u = as.foldl put t := by
  fun_induction textureAttributes k t ws with
  | case1 t =>
    constructor
    · intro h
      obtain rfl := Except.ok.inj h
      exact ⟨[], .nil, rfl⟩
    · rintro ⟨as, ⟨⟩, rfl⟩
      rfl
  | case2 t w hw =>
    refine ⟨fun h ↦ absurd h (by simp), ?_⟩
    rintro ⟨as, ⟨⟩, -⟩
  | case3 t w a hw =>
    refine ⟨fun h ↦ absurd h (by simp), ?_⟩
    rintro ⟨as, ⟨⟩, -⟩
  | case4 t v w ws hv => simp [attributes_cons_iff, hv]
  | case5 t v w ws a hv e he =>
    refine ⟨fun h ↦ absurd h (by simp), ?_⟩
    rintro ⟨as, has, -⟩
    obtain ⟨b, bs, hb, hw, -, -⟩ := attributes_cons_iff.1 has
    obtain rfl := Option.some.inj (hv.symm.trans hb)
    exact absurd (he.symm.trans (set_eq_ok_iff.2 ⟨hw, rfl⟩)) (by simp)
  | case6 t v w ws a hv t' ht ih =>
    obtain ⟨hw, rfl⟩ := set_eq_ok_iff.1 ht
    rw [ih]
    constructor
    · rintro ⟨as, has, rfl⟩
      exact ⟨(a, w) :: as, attributes_cons_iff.2 ⟨a, as, hv, hw, has, rfl⟩, rfl⟩
    · rintro ⟨as, has, rfl⟩
      obtain ⟨b, bs, hb, -, hbs, rfl⟩ := attributes_cons_iff.1 has
      obtain rfl := Option.some.inj (hv.symm.trans hb)
      exact ⟨bs, hbs, rfl⟩

theorem lastOf_concat (a : TextureAttribute) (as : List (TextureAttribute × String))
    (b : TextureAttribute) (w : String) :
    lastOf a (as ++ [(b, w)]) = if b = a then some w else lastOf a as := by
  rw [lastOf, List.filter_append]
  by_cases h : b = a
  · simp [h]
  · simp [h, lastOf]

theorem foldl_put (name : Option String) (as : List (TextureAttribute × String)) :
    as.foldl put (.ofName name) =
      { name
        mask := (lastOf .mask as).bind nameOf
        normal := (lastOf .normal as).bind nameOf
        specular := (lastOf .specular as).bind nameOf
        ratio := (lastOf .ratio as).bind fun w ↦ readFinite? w.toList } := by
  induction as using List.reverseRecOn with
  | nil => rfl
  | append_singleton as a ih =>
    obtain ⟨a, w⟩ := a
    rw [List.foldl_concat, ih]
    simp only [lastOf_concat]
    cases a <;> rfl

theorem lastName_iff {a : TextureAttribute} {as : List (TextureAttribute × String)}
    {n : Option String} : LastName a as n ↔ n = (lastOf a as).bind nameOf := by
  constructor
  · intro h
    cases h with
    | absent h => rw [h, Option.bind_none]
    | given h hw => rw [h, Option.bind_some, isName_iff.1 hw]
  · rintro rfl
    cases h : lastOf a as with
    | none => exact .absent h
    | some w => exact .given h (isName_iff.2 rfl)

theorem mem_of_lastOf {a : TextureAttribute} {w : String} {as : List (TextureAttribute × String)}
    (h : lastOf a as = some w) : (a, w) ∈ as := by
  obtain ⟨⟨b, w⟩, hlast, rfl⟩ := Option.map_eq_some_iff.1 h
  obtain ⟨hmem, hb⟩ := List.mem_filter.1 (List.mem_of_getLast? hlast)
  obtain rfl : b = a := of_decide_eq_true hb
  exact hmem

/-- A ratio that is given is a number. -/
theorem isNumber_of_attributes {ws : List String} {as : List (TextureAttribute × String)}
    (h : Attributes ws as) : ∀ w, (.ratio, w) ∈ as → ∃ s, IsNumber w s := by
  induction h with
  | nil => exact fun w hw ↦ absurd hw List.not_mem_nil
  | @cons v w ws a as hv hw hws ih =>
    intro x hx
    rcases List.mem_cons.1 hx with hx | hx
    · obtain ⟨rfl, rfl⟩ := Prod.mk.inj hx
      exact hw rfl
    · exact ih x hx

theorem rel_ratio_iff {ws : List String} {as : List (TextureAttribute × String)}
    (h : Attributes ws as) {ratio : Option Scalar} :
    Option.Rel IsNumber (lastOf .ratio as) ratio ↔
      ratio = (lastOf .ratio as).bind fun w ↦ readFinite? w.toList := by
  cases hlast : lastOf .ratio as with
  | none =>
    constructor
    · rintro ⟨⟩
      rfl
    · rintro rfl
      exact .none
  | some w =>
    obtain ⟨s, hs⟩ := isNumber_of_attributes h w (mem_of_lastOf hlast)
    have hread := readFinite?_eq_some_iff.2 hs
    constructor
    · rintro (hr | -)
      exact (readFinite?_eq_some_iff.2 hr).symm
    · rintro rfl
      rw [Option.bind_some, hread]
      exact .some hs

theorem accepts_texture :
    (texture >>= fun t ↦ pure (.material (.texture t))).Accepts Form.texture.Phrase := by
  have hrest : ∀ n, Accepts (fun k ws ↦ (textureAttributes k (.ofName n) ws).map (·, []))
      fun ws t ↦ ∃ as, Attributes ws as ∧ t = as.foldl put (.ofName n) :=
    fun n ↦ accepts_rest fun _ _ _ ↦ textureAttributes_eq_ok_iff
  refine ((reads_name.accepts_bind hrest).map fun t ↦ Command.material (.texture t)).of_iff
    fun ws c ↦ ?_
  simp only [sequence_single_iff, foldl_put]
  constructor
  · rintro ⟨t, ⟨w, ws, n, rfl, hw, as, has, rfl⟩, rfl⟩
    exact .texture (.intro hw has (lastName_iff.2 rfl) (lastName_iff.2 rfl) (lastName_iff.2 rfl)
      ((rel_ratio_iff has).2 rfl))
  · intro h
    cases h with
    | texture hws =>
      cases hws with
      | intro hw has hmask hnormal hspecular hratio =>
        obtain rfl := lastName_iff.1 hmask
        obtain rfl := lastName_iff.1 hnormal
        obtain rfl := lastName_iff.1 hspecular
        obtain rfl := (rel_ratio_iff has).1 hratio
        exact ⟨_, ⟨_, _, _, rfl, hw, _, has, rfl⟩, rfl⟩

end RwxScene.Arguments
