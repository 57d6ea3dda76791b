import RwxScene.Proofs.Command.Comment
import RwxScene.Proofs.Command.Textures

/-!
# The grammar of lines

A line is a command exactly if its first word is a spelling of a keyword and the others are a phrase
of the form of that keyword, with no word left over (`Line.read_iff`). The readers of the keywords
are gone through form by form: keywords of one form have one lemma. That the table of the reader has
the spellings of every keyword, and no others, is found by going through it.
-/

namespace RwxScene

namespace Arguments

variable {α : Type}

/-! ### Plain commands and numbers -/

theorem accepts_plain (c : Command) :
    (pure c : Arguments Command).Accepts (Form.plain c).Phrase := by
  refine (reads_pure c).accepts.of_iff fun ws a ↦ ?_
  constructor
  · rintro ⟨rfl, rfl⟩
    exact .plain
  · rintro ⟨⟩
    exact ⟨rfl, rfl⟩

theorem accepts_number (f : Scalar → Command) :
    (number >>= fun s ↦ pure (f s)).Accepts (Form.number f).Phrase := by
  refine (reads_number.map f).accepts.of_iff fun ws c ↦ ?_
  constructor
  · rintro ⟨s, ⟨w, rfl, hw⟩, rfl⟩
    exact .number (.cons hw .nil)
  · intro h
    cases h with
    | number hws =>
      obtain - | ⟨hw, - | -⟩ := hws
      exact ⟨_, ⟨_, rfl, hw⟩, rfl⟩

theorem accepts_vector (f : Vec3 → Command) :
    (vec3 >>= fun v ↦ pure (f v)).Accepts (Form.vector f).Phrase := by
  refine (reads_vec3.map f).accepts.of_iff fun ws c ↦ ?_
  constructor
  · rintro ⟨v, hv, rfl⟩
    exact .vector hv
  · rintro ⟨⟩
    exact ⟨_, ‹_›, rfl⟩

theorem accepts_turn (f : Vec3 → Scalar → Command) :
    (vec3 >>= fun v ↦ number >>= fun s ↦ pure (f v s)).Accepts (Form.turn f).Phrase := by
  refine (reads_vec3.bind fun v ↦ reads_number.map (f v)).accepts.of_iff fun ws c ↦ ?_
  constructor
  · rintro ⟨us, -, v, rfl, hv, s, ⟨w, rfl, hw⟩, rfl⟩
    exact .turn (forall₂_concat_iff.2 ⟨us, w, rfl, hv, hw⟩)
  · intro h
    cases h with
    | @turn _ _ x y z s hws =>
      have hws : Numbers ws ([x, y, z] ++ [s]) := hws
      obtain ⟨us, w, rfl, hus, hw⟩ := forall₂_concat_iff.1 hws
      exact ⟨us, [w], ⟨x, y, z⟩, rfl, hus, s, ⟨w, rfl, hw⟩, rfl⟩

theorem accepts_matrix (f : Vector Scalar 16 → Command) :
    (times number 16 >>= fun v ↦ pure (f v)).Accepts (Form.matrix f).Phrase := by
  refine ((reads_times reads_number 16).map f).accepts.of_iff fun ws c ↦ ?_
  constructor
  · rintro ⟨v, hv, rfl⟩
    exact .matrix hv
  · rintro ⟨⟩
    exact ⟨_, ‹_›, rfl⟩

theorem accepts_tag (f : Int → Command) :
    (tag >>= fun t ↦ pure (f t)).Accepts (Form.tag f).Phrase := by
  refine (reads_tag.map f).accepts.of_iff fun ws c ↦ ?_
  constructor
  · rintro ⟨t, ⟨w, rfl, hw⟩, rfl⟩
    exact .tag hw
  · intro h
    cases h with
    | tag hw => exact ⟨_, ⟨_, rfl, hw⟩, rfl⟩

/-! ### Choices -/

/-- A word with a meaning, if the choices are just those words. -/
theorem accepts_meaning {ofWord? : String → Option α} {f : α → Command}
    {choices : List (String × Command)}
    (h : ∀ w c, (w, c) ∈ choices ↔ ∃ a, ofWord? w = some a ∧ c = f a) :
    (meaning ofWord? >>= fun a ↦ pure (f a)).Accepts (Form.word none choices).Phrase := by
  refine (reads_meaning.map f).accepts.of_iff fun ws c ↦ ?_
  constructor
  · rintro ⟨a, ⟨w, rfl, hw⟩, rfl⟩
    exact .word (Text.spells_iff.2 rfl) ((h _ _).2 ⟨a, hw, rfl⟩)
  · intro hphrase
    cases hphrase with
    | word hw hs =>
      obtain rfl := Text.spells_iff.1 hw
      obtain ⟨a, ha, rfl⟩ := (h _ _).1 hs
      exact ⟨a, ⟨_, rfl, ha⟩, rfl⟩

/-- The words of a vocabulary, each with what is made of its meaning. -/
theorem mem_map_members_iff [Vocabulary α] (f : α → Command) (w : String) (c : Command) :
    (w, c) ∈ (Vocabulary.members.map fun a : α ↦ (Vocabulary.word a, f a)) ↔
      ∃ a, (Vocabulary.ofWord? w : Option α) = some a ∧ c = f a := by
  simp only [List.mem_map, Vocabulary.ofWord?_eq_some_iff, Prod.mk.injEq]
  constructor
  · rintro ⟨a, -, rfl, rfl⟩
    exact ⟨a, rfl, rfl⟩
  · rintro ⟨a, rfl, rfl⟩
    exact ⟨a, List.mem_of_find?_eq_some (Vocabulary.find?_word a), rfl, rfl⟩

theorem accepts_choice [Vocabulary α] (f : α → Command) :
    (choice >>= fun a ↦ pure (f a)).Accepts (Form.word none
      (Vocabulary.members.map fun a : α ↦ (Vocabulary.word a, f a))).Phrase :=
  accepts_meaning (mem_map_members_iff f)

theorem accepts_switch (f : Bool → Directive) :
    (switch >>= fun b ↦ pure (.material (f b))).Accepts (Form.word none (onOff f)).Phrase := by
  refine accepts_meaning fun w c ↦ ?_
  simp only [onOff, switch?, List.mem_cons, Prod.mk.injEq, List.not_mem_nil, or_false]
  by_cases hon : w = "on"
  · simp [hon]
  · by_cases hoff : w = "off"
    · simp [hoff]
    · simp [hon, hoff]

theorem accepts_materialMode :
    (isEnd >>= fun b ↦ if b then pure (.material (.mode .none))
      else choice >>= fun m ↦ pure (.material (.mode m))).Accepts
        (Form.word (some (.material (.mode .none))) (materialModes .mode)).Phrase := by
  refine (accepts_isEnd (accepts_plain _) (accepts_choice fun m ↦ .material (.mode m))).of_iff
    fun ws c ↦ ?_
  constructor
  · rintro (⟨rfl, ⟨⟩⟩ | ⟨-, ⟨⟩⟩)
    · exact .absent
    · exact .word ‹_› ‹_›
  · intro h
    cases h with
    | absent => exact .inl ⟨rfl, .plain⟩
    | word hw hs => exact .inr ⟨List.cons_ne_nil _ _, .word hw hs⟩

/-! ### Vertices and faces -/

theorem accepts_vertex :
    (vec3 >>= fun p ↦ flag "uv" >>= fun b ↦
      if b then number >>= fun u ↦ number >>= fun v ↦ pure (.vertex p (some ⟨u, v⟩))
      else pure (.vertex p none)).Accepts Form.vertex.Phrase := by
  have huv : ∀ p : Vec3, Accepts
      (number >>= fun u ↦ number >>= fun v ↦ pure (Command.vertex p (some ⟨u, v⟩))) _ :=
    fun p ↦ (reads_number.bind fun u ↦ reads_number.map
      fun v ↦ Command.vertex p (some ⟨u, v⟩)).accepts
  refine (reads_vec3.accepts_bind fun p ↦
    accepts_flag (huv p) (reads_pure (Command.vertex p none)).accepts).of_iff fun ws c ↦ ?_
  simp only [sequence_single_iff]
  constructor
  · rintro ⟨us, -, p, rfl, hp, ⟨w, -, rfl, hw, w₁, -, u, rfl, hu, v, ⟨w₂, rfl, hv⟩, rfl⟩ |
      ⟨-, rfl, rfl⟩⟩
    · exact .vertexUv hp hw (.cons hu (.cons hv .nil))
    · rw [List.append_nil]
      exact .vertex hp
  · intro h
    cases h with
    | vertex hws =>
      exact ⟨ws, [], _, (List.append_nil _).symm, hws,
        .inr ⟨fun _ hw ↦ absurd hw (by simp), rfl, rfl⟩⟩
    | vertexUv hus hw hvs =>
      obtain - | ⟨hu, - | ⟨hv, - | -⟩⟩ := hvs
      exact ⟨_, _, _, rfl, hus, .inl ⟨_, _, rfl, hw, _, _, _, rfl, hu, _, ⟨_, rfl, hv⟩, rfl⟩⟩

theorem accepts_face (shape : FaceShape) (n : Nat) :
    (times index n >>= fun is ↦ faceTag >>= fun tag ↦
      pure (.face ⟨shape, is.toList, tag⟩)).Accepts (Form.face shape n).Phrase := by
  refine ((reads_times reads_index n).accepts_bind fun is ↦
    accepts_faceTag.map fun tag ↦ Command.face ⟨shape, is.toList, tag⟩).of_iff fun ws c ↦ ?_
  constructor
  · rintro ⟨us, vs, is, rfl, hus, tag, hvs, rfl⟩
    exact .face hus is.length_toList hvs
  · intro h
    cases h with
    | @face _ _ us vs is tag hus hlength hvs =>
      subst hlength
      exact ⟨us, vs, ⟨is.toArray, List.size_toArray⟩, rfl, hus, tag, hvs, rfl⟩

theorem accepts_polygon : Keyword.polygon.arguments.Accepts Form.polygon.Phrase := by
  intro k ws c
  rw [Keyword.arguments, bind_eq_ok_iff]
  constructor
  · rintro ⟨n, vs, hn, hvs⟩
    obtain ⟨-, rfl, w, rfl, hw⟩ := (reads_index _ _ _ _).1 hn
    obtain ⟨is, rest, his, hrest⟩ := bind_eq_ok_iff.1 hvs
    obtain ⟨us, rfl, hus, -⟩ := corners_eq_ok_iff.1 his
    split at hrest
    · exact absurd hrest (by simp [fail])
    · next hcount =>
      obtain ⟨tag, htag, rfl⟩ := ((accepts_faceTag.map fun tag ↦
        Command.face ⟨.polygon, is, tag⟩) _ _ _).1 hrest
      show Form.Phrase .polygon (w :: (us ++ rest)) _
      exact .polygon hw (by omega) hus (by omega) htag
  · intro h
    cases h with
    | @polygon w n us vs is tag hw hthree hus hlength hvs =>
      refine ⟨n, us ++ vs, (reads_index _ _ _ _).2 ⟨[w], rfl, w, rfl, hw⟩,
        bind_eq_ok_iff.2 ⟨is, vs, corners_eq_ok_iff.2 ⟨us, rfl, hus, ?_⟩, ?_⟩⟩
      · -- what follows the corners is the tag or nothing
        cases hvs with
        | absent => exact fun _ hv ↦ absurd hv (by simp)
        | present hv =>
          intro v hmem
          obtain rfl := Option.some.inj hmem
          exact hv
      · rw [if_neg (by omega)]
        exact ((accepts_faceTag.map fun tag ↦ Command.face ⟨.polygon, is, tag⟩) _ _ _).2
          ⟨tag, hvs, rfl⟩

end Arguments

open Arguments in
/-- Behind a keyword its reader accepts exactly the phrases of its form. -/
theorem Keyword.accepts_arguments (keyword : Keyword) :
    keyword.arguments.Accepts keyword.form.Phrase := by
  cases keyword with
  | vertex => exact accepts_vertex
  | triangle => exact accepts_face .triangle 3
  | quad => exact accepts_face .quad 4
  | polygon => exact accepts_polygon
  | texture => exact accepts_texture
  | color => exact accepts_vector fun v ↦ .material (.color ⟨v.x, v.y, v.z⟩)
  | opacity => exact accepts_number fun s ↦ .material (.opacity s)
  | surface => exact accepts_vector fun v ↦ .material (.surface ⟨v.x, v.y, v.z⟩)
  | ambient => exact accepts_number fun s ↦ .material (.ambient s)
  | diffuse => exact accepts_number fun s ↦ .material (.diffuse s)
  | specular => exact accepts_number fun s ↦ .material (.specular s)
  | lightSampling => exact accepts_choice fun l ↦ .material (.lightSampling l)
  | geometrySampling => exact accepts_choice fun g ↦ .material (.geometrySampling g)
  | textureModes => exact accepts_modes fun m ↦ .material (.textureModes m)
  | addTextureModes => exact accepts_someModes fun m ↦ .material (.addTextureModes m)
  | removeTextureModes => exact accepts_someModes fun m ↦ .material (.removeTextureModes m)
  | materialMode => exact accepts_materialMode
  | addMaterialMode => exact accepts_choice fun m ↦ .material (.addMode m)
  | removeMaterialMode => exact accepts_choice fun m ↦ .material (.removeMode m)
  | textureAddressMode => exact accepts_choice fun a ↦ .material (.addressMode a)
  | collision => exact accepts_switch .collision
  | tint => exact accepts_switch .tint
  | tag => exact accepts_tag fun t ↦ .material (.tag t)
  | clumpBegin => exact accepts_plain _
  | clumpEnd => exact accepts_plain _
  | transformBegin => exact accepts_plain _
  | transformEnd => exact accepts_plain _
  | jointTransformBegin => exact accepts_plain _
  | jointTransformEnd => exact accepts_plain _
  | identityJoint => exact accepts_plain _
  | translate => exact accepts_vector fun v ↦ .transform (.translate v)
  | rotate => exact accepts_turn fun axis degrees ↦ .transform (.rotate axis degrees)
  | scale => exact accepts_vector fun v ↦ .transform (.scale v)
  | identity => exact accepts_plain _
  | transform => exact accepts_matrix fun entries ↦ .transform (.set entries)
  | rotateJoint => exact accepts_turn .rotateJoint

/-! ### Keywords -/

/-- The table has every keyword with its spellings. -/
theorem Keyword.mem_table_iff {keyword : Keyword} {words : List String} :
    (keyword, words) ∈ table ↔ words = keyword.spellings := by
  constructor
  · have hspellings : ∀ entry ∈ table, entry.2 = entry.1.spellings := by decide +kernel
    exact hspellings (keyword, words)
  · rintro rfl
    cases keyword <;> decide +kernel

/-- No two keywords share a spelling. -/
theorem Keyword.ofWord?_of_mem_table :
    ∀ entry ∈ table, ∀ w ∈ entry.2, ofWord? w = some entry.1 := by
  decide +kernel

theorem Keyword.ofWord?_eq_some_iff {w : String} {keyword : Keyword} :
    ofWord? w = some keyword ↔ w ∈ keyword.spellings := by
  constructor
  · intro h
    obtain ⟨⟨keyword, words⟩, hfind, rfl⟩ := Option.map_eq_some_iff.1 h
    have hw : words.contains w = true := by simpa using List.find?_some hfind
    obtain rfl := mem_table_iff.1 (List.mem_of_find?_eq_some hfind)
    exact List.contains_iff_mem.1 hw
  · exact ofWord?_of_mem_table _ (mem_table_iff.2 rfl) w

/-! ### Lines -/

namespace Line

/-- The words of a line are those of the text in front of its comment, where a number sign with its
mark stands for itself. -/
def HasWords (cs : List Char) (ws : List String) : Prop :=
  ∃ front, Comment.IsText cs front ∧ Text.HasWords (Comment.unmark front) ws

theorem hasWords_iff {cs : List Char} {ws : List String} :
    HasWords cs ws ↔ Text.words (Comment.strip cs) = ws := by
  rw [Comment.strip_eq_unmark, ← Text.hasWords_iff]
  constructor
  · rintro ⟨front, hfront, hws⟩
    exact hfront.eq_text ▸ hws
  · exact fun hws ↦ ⟨_, Comment.isText_text cs, hws⟩

theorem ofWords_ne_blank {w : String} {ws : List String} : ofWords (w :: ws) ≠ .blank := by
  rw [ofWords]
  split
  · simp
  · split <;> simp

/-- A line is a command if all words behind the keyword are read. -/
theorem ofWords_eq_command_iff {w : String} {ws : List String} {c : Command} :
    ofWords (w :: ws) = .command c ↔
      ∃ keyword : Keyword, Text.lower w ∈ keyword.spellings ∧ keyword.form.Phrase ws c := by
  simp only [← Keyword.ofWord?_eq_some_iff]
  rw [ofWords]
  cases hkeyword : Keyword.ofWord? (Text.lower w) with
  | none => simp
  | some keyword =>
    simp only [Option.some.injEq, exists_eq_left', ← keyword.accepts_arguments (Text.lower w)]
    cases hread : keyword.arguments (Text.lower w) ws with
    | error e => simp
    | ok x =>
      obtain ⟨d, rest⟩ := x
      cases rest with
      | nil => simp
      | cons v rest => simp

/-- **The reader of lines accepts exactly the grammar.** A line is blank if it has no words outside
of its comment, and it is a command if and only if these are a spelling of a keyword, in any case,
and a phrase of the form of that keyword. -/
theorem read_iff (cs : List Char) :
    (read cs = .blank ↔ HasWords cs []) ∧
      ∀ c, read cs = .command c ↔
        ∃ (w s : String) (ws : List String) (keyword : Keyword),
          HasWords cs (w :: ws) ∧ Text.Spells w s ∧ s ∈ keyword.spellings ∧
            keyword.form.Phrase ws c := by
  simp only [hasWords_iff, Text.spells_iff]
  rw [read]
  cases Text.words (Comment.strip cs) with
  | nil =>
    refine ⟨⟨fun _ ↦ rfl, fun _ ↦ rfl⟩, fun c ↦ ⟨fun h ↦ absurd h (by simp [ofWords]), ?_⟩⟩
    rintro ⟨w, s, ws, -, h, -⟩
    exact absurd h (by simp)
  | cons w ws =>
    refine ⟨⟨fun h ↦ absurd h ofWords_ne_blank, fun h ↦ absurd h (by simp)⟩, fun c ↦ ?_⟩
    rw [ofWords_eq_command_iff]
    constructor
    · rintro ⟨keyword, hw, hphrase⟩
      exact ⟨w, _, ws, keyword, rfl, rfl, hw, hphrase⟩
    · rintro ⟨_, _, _, keyword, heq, rfl, hw, hphrase⟩
      obtain ⟨rfl, rfl⟩ := List.cons.inj heq
      exact ⟨keyword, hw, hphrase⟩

end Line

end RwxScene
