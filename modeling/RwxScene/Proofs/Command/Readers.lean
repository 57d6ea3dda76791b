import Mathlib
import RwxScene.Command.Line
import RwxScene.Proofs.Decimal.Grammar
import RwxScene.Proofs.Text.Words

/-!
# What readers read

A reader is described by a relation between words and values. `Arguments.Reads r L` says that `r`
takes words off the front exactly as `L` wants them, whatever comes behind; this is how readers of a
fixed number of words behave, and it goes from parts to the whole (`Reads.bind`). A reader that asks
what comes next cannot be described so. What is behind it is the end of the line, and there
`Arguments.Accepts r L` says that `r` reads all words exactly if they are as `L` wants them.
-/

namespace RwxScene

/-! ### Words -/

/-- The word is a decimal numeral, and the scalar nearest to it is finite. -/
def IsNumber (w : String) (s : Scalar) : Prop :=
  ∃ (n : Decimal.Numeral) (magnitude : Scalar), Decimal.Numeral.Writes w.toList n ∧
    magnitude = Float32.ofScientific n.digits (n.exponent < 0) n.exponent.natAbs ∧
    s = (if n.negative then -magnitude else magnitude) ∧ s.isFinite = true

/-- The word is a natural number of thirty-two bits. -/
def IsIndex (w : String) (i : Nat) : Prop := Decimal.WritesNatural w.toList i ∧ i < 2 ^ 32

/-- The word is an integer of thirty-two bits with a sign. -/
def IsTag (w : String) (t : Int) : Prop :=
  Decimal.WritesInteger w.toList t ∧ -2 ^ 31 ≤ t ∧ t ≤ 2 ^ 31 - 1

/-- The word is a name, or says that there is none. -/
inductive IsName (w : String) : Option String → Prop
  | null (hw : Text.Spells w "null") : IsName w none
  | name (hw : ¬Text.Spells w "null") : IsName w (some w)

/-- Words for numbers, one for each. -/
abbrev Numbers : List String → List Scalar → Prop := List.Forall₂ IsNumber

/-- Words for natural numbers, one for each. -/
abbrev Indices : List String → List Nat → Prop := List.Forall₂ IsIndex

/-- The tag that may end a face. -/
inductive TagSuffix : List String → Option Int → Prop
  | absent : TagSuffix [] none
  | present {v w : String} {t : Int} (hv : Text.Spells v "tag") (hw : IsTag w t) :
    TagSuffix [v, w] (some t)

namespace Arguments

variable {α β : Type}

/-- The reader takes words off the front exactly as the relation wants them. -/
def Reads (r : Arguments α) (L : List String → α → Prop) : Prop :=
  ∀ k ws a rest, r k ws = .ok (a, rest) ↔ ∃ us, ws = us ++ rest ∧ L us a

/-- The reader takes all words exactly if they are as the relation wants them. -/
def Accepts (r : Arguments α) (L : List String → α → Prop) : Prop :=
  ∀ k ws a, r k ws = .ok (a, []) ↔ L ws a

/-- The relation of a single word. -/
def Single (W : String → α → Prop) (ws : List String) (a : α) : Prop := ∃ w, ws = [w] ∧ W w a

/-- The relation of two parts, the second of which is read as the value of the first wants it. -/
def Sequence (L : List String → α → Prop) (M : α → List String → β → Prop) (ws : List String)
    (b : β) : Prop :=
  ∃ us vs a, ws = us ++ vs ∧ L us a ∧ M a vs b

/-! ### From the parts to the whole -/

theorem bind_eq_ok_iff {r : Arguments α} {f : α → Arguments β} {k : String} {ws rest : List String}
    {b : β} : (r >>= f) k ws = .ok (b, rest) ↔
      ∃ a vs, r k ws = .ok (a, vs) ∧ f a k vs = .ok (b, rest) := by
  rw [bind_apply]
  cases h : r k ws with
  | error e => simp
  | ok x =>
    constructor
    · exact fun hb ↦ ⟨x.1, x.2, rfl, hb⟩
    · rintro ⟨a, vs, hx, hb⟩
      obtain rfl := Except.ok.inj hx
      exact hb

theorem reads_pure (a : α) : (pure a : Arguments α).Reads fun ws b ↦ ws = [] ∧ b = a := by
  intro k ws b rest
  rw [pure_apply]
  constructor
  · intro h
    obtain ⟨rfl, rfl⟩ := Prod.mk.inj (Except.ok.inj h)
    exact ⟨[], rfl, rfl, rfl⟩
  · rintro ⟨us, rfl, rfl, rfl⟩
    rfl

theorem Reads.bind {r : Arguments α} {f : α → Arguments β} {L : List String → α → Prop}
    {M : α → List String → β → Prop} (hr : r.Reads L) (hf : ∀ a, (f a).Reads (M a)) :
    (r >>= f).Reads (Sequence L M) := by
  intro k ws b rest
  rw [bind_eq_ok_iff]
  constructor
  · rintro ⟨a, vs, ha, hb⟩
    obtain ⟨us, rfl, hus⟩ := (hr _ _ _ _).1 ha
    obtain ⟨vs, rfl, hvs⟩ := (hf a _ _ _ _).1 hb
    exact ⟨us ++ vs, (List.append_assoc _ _ _).symm, us, vs, a, rfl, hus, hvs⟩
  · rintro ⟨-, rfl, us, vs, a, rfl, hus, hvs⟩
    exact ⟨a, vs ++ rest, (hr _ _ _ _).2 ⟨us, List.append_assoc _ _ _, hus⟩,
      (hf a _ _ _ _).2 ⟨vs, rfl, hvs⟩⟩

theorem Reads.accepts {r : Arguments α} {L : List String → α → Prop} (h : r.Reads L) :
    r.Accepts L := by
  intro k ws a
  rw [h]
  simp

theorem Reads.accepts_bind {r : Arguments α} {f : α → Arguments β} {L : List String → α → Prop}
    {M : α → List String → β → Prop} (hr : r.Reads L) (hf : ∀ a, (f a).Accepts (M a)) :
    (r >>= f).Accepts (Sequence L M) := by
  intro k ws b
  rw [bind_eq_ok_iff]
  constructor
  · rintro ⟨a, vs, ha, hb⟩
    obtain ⟨us, rfl, hus⟩ := (hr _ _ _ _).1 ha
    exact ⟨us, vs, a, rfl, hus, (hf a _ _ _).1 hb⟩
  · rintro ⟨us, vs, a, rfl, hus, hvs⟩
    exact ⟨a, vs, (hr _ _ _ _).2 ⟨us, rfl, hus⟩, (hf a _ _ _).2 hvs⟩

/-- A value that is only handed on. -/
theorem Reads.map {r : Arguments α} {L : List String → α → Prop} (hr : r.Reads L) (f : α → β) :
    (r >>= fun a ↦ pure (f a)).Reads fun ws b ↦ ∃ a, L ws a ∧ b = f a := by
  intro k ws b rest
  rw [hr.bind fun a ↦ reads_pure (f a)]
  refine exists_congr fun us ↦ and_congr_right fun _ ↦ ?_
  constructor
  · rintro ⟨us, -, a, rfl, hus, rfl, rfl⟩
    exact ⟨a, by rwa [List.append_nil], rfl⟩
  · rintro ⟨a, ha, rfl⟩
    exact ⟨us, [], a, (List.append_nil _).symm, ha, rfl, rfl⟩

theorem Accepts.map {r : Arguments α} {L : List String → α → Prop} (hr : r.Accepts L) (f : α → β) :
    (r >>= fun a ↦ pure (f a)).Accepts fun ws b ↦ ∃ a, L ws a ∧ b = f a := by
  intro k ws b
  rw [bind_eq_ok_iff]
  constructor
  · rintro ⟨a, vs, ha, hb⟩
    obtain ⟨rfl, rfl⟩ := Prod.mk.inj (Except.ok.inj hb)
    exact ⟨a, (hr _ _ _).1 ha, rfl⟩
  · rintro ⟨a, ha, rfl⟩
    exact ⟨a, [], (hr _ _ _).2 ha, rfl⟩

theorem Accepts.of_iff {r : Arguments α} {L M : List String → α → Prop} (hr : r.Accepts L)
    (h : ∀ ws a, L ws a ↔ M ws a) : r.Accepts M :=
  fun k ws a ↦ (hr k ws a).trans (h ws a)

theorem Reads.of_iff {r : Arguments α} {L M : List String → α → Prop} (hr : r.Reads L)
    (h : ∀ ws a, L ws a ↔ M ws a) : r.Reads M := by
  intro k ws a rest
  rw [hr]
  simp only [h]

/-- What takes all the words that are left. -/
theorem accepts_rest {r : String → List String → Except Rejection α} {L : List String → α → Prop}
    (h : ∀ k ws a, r k ws = .ok a ↔ L ws a) :
    Accepts (fun k ws ↦ (r k ws).map (·, []) : Arguments α) L := by
  intro k ws a
  show (r k ws).map (·, []) = .ok (a, []) ↔ _
  rw [← h k]
  cases hr : r k ws with
  | error e => simp [Except.map]
  | ok b => simp [Except.map]

/-- A word that may come next decides how to go on; at the end of the line it does not. -/
theorem accepts_flag {word : String} {r s : Arguments α} {L M : List String → α → Prop}
    (hr : r.Accepts L) (hs : s.Accepts M) :
    (flag word >>= fun b ↦ if b then r else s).Accepts fun ws a ↦
      (∃ w us, ws = w :: us ∧ Text.Spells w word ∧ L us a) ∨
        (∀ w ∈ ws.head?, ¬Text.Spells w word) ∧ M ws a := by
  intro k ws a
  simp only [Text.spells_iff]
  rw [bind_apply]
  cases ws with
  | nil => simpa [flag] using hs k [] a
  | cons w ws =>
    by_cases hw : Text.lower w = word
    · simpa [flag, hw] using hr k ws a
    · simpa [flag, hw] using hs k (w :: ws) a

/-- Whether the line is over decides how to go on. -/
theorem accepts_isEnd {r s : Arguments α} {L M : List String → α → Prop} (hr : r.Accepts L)
    (hs : s.Accepts M) :
    (isEnd >>= fun b ↦ if b then r else s).Accepts fun ws a ↦
      ws = [] ∧ L [] a ∨ ws ≠ [] ∧ M ws a := by
  intro k ws a
  rw [bind_apply]
  cases ws with
  | nil => simpa [isEnd] using hr k [] a
  | cons w ws => simpa [isEnd] using hs k (w :: ws) a

/-! ### Single words -/

theorem next_eq_ok_iff {k w : String} {ws rest : List String} :
    next k ws = .ok (w, rest) ↔ ws = w :: rest := by
  cases ws with
  | nil => simp [next]
  | cons v ws => simp [next]

/-- A reader that takes one word and no more. -/
theorem reads_next_bind {f : String → Arguments α} {W : String → α → Prop}
    (hf : ∀ w, (f w).Reads fun us a ↦ us = [] ∧ W w a) : (next >>= f).Reads (Single W) := by
  intro k ws a rest
  rw [bind_eq_ok_iff]
  constructor
  · rintro ⟨w, vs, hw, ha⟩
    obtain rfl := next_eq_ok_iff.1 hw
    obtain ⟨-, rfl, rfl, hwa⟩ := (hf w _ _ _ _).1 ha
    exact ⟨[w], rfl, w, rfl, hwa⟩
  · rintro ⟨-, rfl, w, rfl, hwa⟩
    exact ⟨w, rest, rfl, (hf w _ _ _ _).2 ⟨[], rfl, rfl, hwa⟩⟩

/-- What may turn out to be no value is rejected if it does. -/
theorem reads_option {o : Option α} {reject : Arguments α}
    (h : ∀ k ws x, reject k ws ≠ .ok x) :
    (match o with
      | some a => pure a
      | none => reject : Arguments α).Reads fun us a ↦ us = [] ∧ o = some a := by
  cases o with
  | none =>
    intro k ws a rest
    simpa using h k ws _
  | some b =>
    have hb := reads_pure b
    simpa only [Option.some.injEq, eq_comm] using hb

theorem reads_numeric {read? : List Char → Option α} :
    (numeric read?).Reads (Single fun w a ↦ read? w.toList = some a) :=
  reads_next_bind fun _ ↦ reads_option fun _ _ _ ↦ by simp [fail]

theorem reads_meaning {ofWord? : String → Option α} :
    (meaning ofWord?).Reads (Single fun w a ↦ ofWord? (Text.lower w) = some a) :=
  reads_next_bind fun _ ↦ reads_option fun _ _ _ ↦ by simp

theorem isName_iff {w : String} {n : Option String} : IsName w n ↔ n = nameOf w := by
  rw [nameOf]
  constructor
  · intro h
    cases h with
    | null hw => rw [if_pos (Text.spells_iff.1 hw)]
    | name hw => rw [if_neg (mt Text.spells_iff.2 hw)]
  · rintro rfl
    split
    · next hw => exact .null (Text.spells_iff.2 hw)
    · next hw => exact .name (mt Text.spells_iff.1 hw)

theorem reads_name : name.Reads (Single IsName) :=
  reads_next_bind fun w ↦ (reads_pure (nameOf w)).of_iff fun _ _ ↦
    and_congr_right fun _ ↦ isName_iff.symm

theorem Single.congr {V W : String → α → Prop} (h : ∀ w a, V w a ↔ W w a) : Single V = Single W := by
  funext ws a
  simp only [Single, h]

theorem readFinite?_eq_some_iff {w : String} {s : Scalar} :
    readFinite? w.toList = some s ↔ IsNumber w s := by
  rw [readFinite?, IsNumber, Option.filter_eq_some_iff, Option.map_eq_some_iff]
  simp only [Decimal.Numeral.read?_eq_some_iff]
  constructor
  · rintro ⟨⟨n, hn, rfl⟩, hs⟩
    exact ⟨n, _, hn, rfl, rfl, hs⟩
  · rintro ⟨n, -, hn, rfl, rfl, hs⟩
    exact ⟨⟨n, hn, rfl⟩, hs⟩

theorem reads_number : number.Reads (Single IsNumber) :=
  Single.congr (fun _ _ ↦ readFinite?_eq_some_iff) ▸ reads_numeric

theorem reads_index : index.Reads (Single IsIndex) :=
  Single.congr (fun _ _ ↦ Decimal.readNatural?_eq_some_iff) ▸ reads_numeric

theorem reads_tag : tag.Reads (Single IsTag) :=
  Single.congr (fun _ _ ↦ Decimal.readInteger?_eq_some_iff) ▸ reads_numeric

/-! ### Several words -/

/-- A word and what comes behind it. -/
theorem sequence_single_iff {W : String → α → Prop} {M : α → List String → β → Prop}
    {ws : List String} {b : β} :
    Sequence (Single W) M ws b ↔ ∃ w us a, ws = w :: us ∧ W w a ∧ M a us b := by
  constructor
  · rintro ⟨-, us, a, rfl, ⟨w, rfl, hw⟩, hus⟩
    exact ⟨w, us, a, rfl, hw, hus⟩
  · rintro ⟨w, us, a, rfl, hw, hus⟩
    exact ⟨[w], us, a, rfl, ⟨w, rfl, hw⟩, hus⟩

theorem reads_vec3 : vec3.Reads fun ws v ↦ Numbers ws [v.x, v.y, v.z] := by
  refine (reads_number.bind fun x ↦ reads_number.bind fun y ↦ reads_number.map
    fun z ↦ (⟨x, y, z⟩ : Vec3)).of_iff fun ws v ↦ ?_
  simp only [sequence_single_iff]
  constructor
  · rintro ⟨u, -, x, rfl, hu, v, -, y, rfl, hv, z, ⟨w, rfl, hw⟩, rfl⟩
    exact .cons hu (.cons hv (.cons hw .nil))
  · rintro (_ | ⟨hu, _ | ⟨hv, _ | ⟨hw, _ | _⟩⟩⟩)
    exact ⟨_, _, _, rfl, hu, _, _, _, rfl, hv, _, ⟨_, rfl, hw⟩, rfl⟩

theorem forall₂_concat_iff {R : String → α → Prop} {ws : List String} {as : List α} {a : α} :
    List.Forall₂ R ws (as ++ [a]) ↔ ∃ us w, ws = us ++ [w] ∧ List.Forall₂ R us as ∧ R w a := by
  rw [← List.forall₂_reverse_iff, List.reverse_concat, List.forall₂_cons_right_iff]
  constructor
  · rintro ⟨w, us, hw, hus, hws⟩
    refine ⟨us.reverse, w, ?_, ?_, hw⟩
    · rw [← List.reverse_cons, ← hws, List.reverse_reverse]
    · exact List.forall₂_reverse_iff.1 (by rwa [List.reverse_reverse])
  · rintro ⟨us, w, rfl, hus, hw⟩
    exact ⟨w, us.reverse, hw, List.forall₂_reverse_iff.2 hus, List.reverse_concat⟩

/-- Several words of a kind, one for each value. -/
theorem reads_times {r : Arguments α} {W : String → α → Prop} (hr : r.Reads (Single W)) (n : Nat) :
    (times r n).Reads fun ws v ↦ List.Forall₂ W ws v.toList := by
  induction n with
  | zero =>
    intro k ws v rest
    obtain rfl := v.eq_empty
    rw [times, reads_pure]
    refine exists_congr fun us ↦ and_congr_right fun _ ↦ ?_
    simp
  | succ n ih =>
    intro k ws v rest
    rw [times, ih.bind fun v ↦ hr.map v.push]
    refine exists_congr fun us ↦ and_congr_right fun _ ↦ ?_
    constructor
    · rintro ⟨us, -, init, rfl, hus, a, ⟨w, rfl, hw⟩, rfl⟩
      rw [Vector.toList_push]
      exact forall₂_concat_iff.2 ⟨us, w, rfl, hus, hw⟩
    · intro h
      obtain ⟨init, a, rfl⟩ : ∃ init a, v = Vector.push init a := Vector.exists_push
      rw [Vector.toList_push] at h
      obtain ⟨us, w, rfl, hus, hw⟩ := forall₂_concat_iff.1 h
      exact ⟨us, [w], init, rfl, hus, a, ⟨w, rfl, hw⟩, rfl⟩

/-! ### Faces -/

theorem accepts_faceTag : faceTag.Accepts TagSuffix := by
  refine (accepts_flag (reads_tag.map some).accepts (reads_pure none).accepts).of_iff fun ws t ↦ ?_
  constructor
  · rintro (⟨v, -, rfl, hv, t, ⟨w, rfl, hw⟩, rfl⟩ | ⟨-, rfl, rfl⟩)
    · exact .present hv hw
    · exact .absent
  · intro h
    cases h with
    | absent => exact .inr ⟨fun _ hw ↦ absurd hw (by simp), rfl, rfl⟩
    | present hv hw => exact .inl ⟨_, _, rfl, hv, _, ⟨_, rfl, hw⟩, rfl⟩

theorem toLower_of_isDigit {c : Char} (h : c.isDigit = true) : c.toLower = c := by
  rw [Char.toLower, dif_neg]
  rintro ⟨hle, -⟩
  simp only [Char.isDigit, Bool.and_eq_true, decide_eq_true_eq] at h
  have hle : 'A'.val.toNat ≤ c.val.toNat := UInt32.le_iff_toNat_le.1 hle
  have hge : c.val.toNat ≤ '9'.val.toNat := UInt32.le_iff_toNat_le.1 h.2
  exact absurd (hle.trans hge) (by decide)

/-- No number is the word `tag`, so that the corners of a polygon end where the tag begins. -/
theorem not_spells_tag {w : String} {i : Nat} (h : IsIndex w i) : ¬Text.Spells w "tag" := by
  intro htag
  have hlower : w.toList.map Char.toLower = ['t', 'a', 'g'] :=
    String.ofList_eq.1 (Text.spells_iff.1 htag)
  obtain ⟨hwrites, -⟩ := h
  generalize w.toList = cs at hlower hwrites
  -- a number ends with a digit, which is no letter
  cases hwrites with
  | @intro sign ds hsign hne hds =>
    have hlast : (ds.getLast hne).toLower = 'g' := by
      have h := congrArg List.getLast? hlower
      rw [List.getLast?_map, List.getLast?_append, List.getLast?_eq_getLast_of_ne_nil hne] at h
      exact Option.some.inj h
    have hdigit := hds _ (List.getLast_mem hne)
    rw [toLower_of_isDigit hdigit] at hlast
    exact absurd (hlast ▸ hdigit) (by decide)

theorem index_singleton_iff {k w : String} {i : Nat} {rest : List String} :
    index k [w] = .ok (i, rest) ↔ IsIndex w i ∧ rest = [] := by
  rw [reads_index]
  constructor
  · rintro ⟨-, hw, v, rfl, hi⟩
    obtain ⟨rfl, hrest⟩ := List.cons.inj hw
    exact ⟨hi, hrest.symm⟩
  · rintro ⟨hi, rfl⟩
    exact ⟨[w], rfl, w, rfl, hi⟩

theorem corners_eq_ok_iff {k : String} {ws rest : List String} {is : List Nat} :
    corners k ws = .ok (is, rest) ↔
      ∃ us, ws = us ++ rest ∧ Indices us is ∧ ∀ w ∈ rest.head?, Text.Spells w "tag" := by
  induction ws generalizing is with
  | nil =>
    rw [corners]
    constructor
    · intro h
      obtain ⟨rfl, rfl⟩ := Prod.mk.inj (Except.ok.inj h)
      exact ⟨[], rfl, .nil, fun _ hw ↦ absurd hw (by simp)⟩
    · rintro ⟨us, hus, his, -⟩
      obtain ⟨rfl, rfl⟩ := List.append_eq_nil_iff.1 hus.symm
      cases his
      rfl
  | cons w ws ih =>
    rw [corners]
    split
    · next htag =>
      constructor
      · intro h
        obtain ⟨rfl, rfl⟩ := Prod.mk.inj (Except.ok.inj h)
        refine ⟨[], rfl, .nil, fun v hv ↦ ?_⟩
        obtain rfl := Option.some.inj hv
        exact Text.spells_iff.2 htag
      · rintro ⟨us, hus, his, -⟩
        cases his with
        | nil => rw [hus, List.nil_append]
        | cons hi his =>
          obtain ⟨rfl, -⟩ := List.cons.inj hus
          exact absurd (Text.spells_iff.2 htag) (not_spells_tag hi)
    · next htag =>
      constructor
      · intro h
        split at h
        · exact absurd h (by simp)
        · next i _ hi =>
          split at h
          · exact absurd h (by simp)
          · next js rest' hjs =>
            obtain ⟨rfl, rfl⟩ := Prod.mk.inj (Except.ok.inj h)
            obtain ⟨us, rfl, hus, hrest⟩ := ih.1 hjs
            exact ⟨w :: us, rfl, .cons (index_singleton_iff.1 hi).1 hus, hrest⟩
      · rintro ⟨us, hus, his, hrest⟩
        cases his with
        | nil =>
          rw [List.nil_append] at hus
          exact absurd (Text.spells_iff.1 (hrest w (by rw [← hus]; rfl))) htag
        | @cons _ i us js hi hjs =>
          obtain ⟨rfl, rfl⟩ := List.cons.inj hus
          rw [index_singleton_iff.2 ⟨hi, rfl⟩]
          simp only
          rw [ih.2 ⟨us, rfl, hjs, hrest⟩]

end Arguments

end RwxScene
