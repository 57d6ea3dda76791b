import Mathlib
import RwxScene.Inspector.Options

/-!
# Where options come from

Options are settled just if nothing is wrong with any source, and then each of them comes from the
first source that says something about it (`Options.resolve_by_priority`).

An argument that is the path of a `--config` says nothing else, whatever it looks like. Which arguments
are such paths is a matter of their places alone (`isValue`): a `--config` asks for the argument behind
it, unless it is itself asked for. The two readers of the arguments, the one that looks for the
first `--config` and the one that goes through all flags, are described over these places.
-/

namespace RwxScene

/-! ### Sources -/

/-- What a source says decides, if it is there; else the value stays what it was. -/
def Overrides {α β : Type} (source : Option β) (Says : β → α → Prop) (before after : α) : Prop :=
  match source with
  | none => after = before
  | some b => Says b after

theorem bind_eq_ok_iff {ε α β : Type} {x : Except ε α} {f : α → Except ε β} {b : β} :
    (x >>= f) = .ok b ↔ ∃ a, x = .ok a ∧ f a = .ok b := by
  cases x with
  | error e => simp [bind, Except.bind]
  | ok a => simp [bind, Except.bind]

namespace Toml

/-- The settings of a document are those that it names, and the initial ones. -/
structure Settles (e : Entries) (s : Settings) : Prop where
  handedness : Overrides (e.lookup "handedness") (choice? · = some ·)
    Settings.initial.handedness s.handedness
  opposingNormalDot : Overrides (e.lookup "opposing_normal_dot") (scalar? · = some ·)
    Settings.initial.opposingNormalDot s.opposingNormalDot
  degenerateNormalEpsilon : Overrides (e.lookup "degenerate_normal_epsilon") (scalar? · = some ·)
    Settings.initial.degenerateNormalEpsilon s.degenerateNormalEpsilon
  matrixNoiseThreshold : Overrides (e.lookup "matrix_noise_threshold") (scalar? · = some ·)
    Settings.initial.matrixNoiseThreshold s.matrixNoiseThreshold
  invertedMasks : Overrides (e.lookup "inverted_mask_substrings") (strings? · = some ·)
    Settings.initial.invertedMasks s.invertedMasks

theorem field?_eq_some_iff {α : Type} {e : Entries} {key : String} {initial a : α}
    {read? : Item → Option α} :
    field? e key initial read? = some a ↔ Overrides (e.lookup key) (read? · = some ·) initial a := by
  rw [field?]
  cases e.lookup key with
  | none => exact Option.some_inj.trans eq_comm
  | some item => exact Iff.rfl

theorem settingsOf?_eq_some_iff {e : Entries} {s : Settings} :
    settingsOf? e = some s ↔ Settles e s := by
  obtain ⟨handedness, dot, epsilon, threshold, masks⟩ := s
  simp only [settingsOf?, Option.bind_eq_bind, Option.bind_eq_some_iff, field?_eq_some_iff,
    Option.pure_def, Option.some_inj, Settings.mk.injEq]
  constructor
  · rintro ⟨_, h₁, _, h₂, _, h₃, _, h₄, _, h₅, rfl, rfl, rfl, rfl, rfl⟩
    exact ⟨h₁, h₂, h₃, h₄, h₅⟩
  · rintro ⟨h₁, h₂, h₃, h₄, h₅⟩
    exact ⟨_, h₁, _, h₂, _, h₃, _, h₄, _, h₅, rfl, rfl, rfl, rfl, rfl⟩

end Toml

namespace Inspector

/-! ### Arguments and their places -/

/-- The argument at this place is the path that the `--config` in front of it asks for. -/
def isValue (arguments : List String) : Nat → Bool
  | 0 => false
  | i + 1 => arguments[i]? == some "--config" && !isValue arguments i

/-- The arguments that are not the path of a `--config`. -/
def spoken (arguments : List String) : List String :=
  (arguments.zipIdx.filter fun x ↦ !isValue arguments x.2).map Prod.fst

/-- The flags that there are. -/
def flags : List String := ["--json", "--validate", "--left", "--config"]

theorem isValue_cons {a : String} (ha : a ≠ "--config") (rest : List String) (i : Nat) :
    isValue (a :: rest) (i + 1) = isValue rest i := by
  induction i with
  | zero => simp [isValue, ha]
  | succ i ih => rw [isValue, ih, isValue, List.getElem?_cons_succ]

theorem isValue_config (v : String) (rest : List String) (i : Nat) :
    isValue ("--config" :: v :: rest) (i + 2) = isValue rest i := by
  induction i with
  | zero => simp [isValue]
  | succ i ih => rw [isValue, ih, isValue, List.getElem?_cons_succ, List.getElem?_cons_succ]

@[simp] theorem spoken_nil : spoken [] = [] := rfl

theorem spoken_config_end : spoken ["--config"] = ["--config"] := rfl

/-- Behind some arguments the others are spoken as if they stood alone, if the last one asks for
nothing. -/
theorem map_filter_zipIdx {arguments rest : List String} {n : Nat}
    (h : ∀ i, isValue arguments (i + n) = isValue rest i) :
    ((rest.zipIdx n).filter fun x ↦ !isValue arguments x.2).map Prod.fst = spoken rest := by
  have hshift := List.map_snd_add_zipIdx_eq_zipIdx (l := rest) (n := n) (k := 0)
  rw [Nat.add_zero] at hshift
  rw [← hshift, List.filter_map, List.map_map, spoken]
  exact congrArg (List.map Prod.fst) (List.filter_congr fun x _ ↦ congrArg (!·) (h x.2))

theorem spoken_cons {a : String} (ha : a ≠ "--config") (rest : List String) :
    spoken (a :: rest) = a :: spoken rest := by
  rw [spoken, List.zipIdx_cons, List.filter_cons_of_pos rfl, List.map_cons,
    map_filter_zipIdx (isValue_cons ha rest)]

theorem spoken_config (v : String) (rest : List String) :
    spoken ("--config" :: v :: rest) = "--config" :: spoken rest := by
  rw [spoken, List.zipIdx_cons, List.zipIdx_cons, List.filter_cons_of_pos rfl,
    List.filter_cons_of_neg (by simp [isValue]), List.map_cons,
    map_filter_zipIdx (isValue_config v rest)]

/-! ### Going through the arguments -/

/-- The arguments that name an input. -/
def inputs (arguments : List String) : List String := (spoken arguments).filter (!isFlag ·)

/-- The options with what the arguments say. -/
def Options.after (o : Options) (arguments : List String) (input : Option String) : Options where
  settings :=
    { o.settings with
      handedness := if "--left" ∈ spoken arguments then .left else o.settings.handedness }
  format := if "--json" ∈ spoken arguments then .json else o.format
  validate := o.validate || decide ("--validate" ∈ spoken arguments)
  input
  configPath := o.configPath

/-- Every flag is known, there is no second input, and the options are those after the arguments. -/
def Options.Settled (o : Options) (arguments : List String) (o' : Options) : Prop :=
  (∀ a ∈ spoken arguments, isFlag a = true → a ∈ flags) ∧
    ∃ input, o.input.toList ++ inputs arguments = input.toList ∧ o' = o.after arguments input

theorem settled_nil {o o' : Options} : o.Settled [] o' ↔ o' = o := by
  constructor
  · rintro ⟨-, input, hinput, rfl⟩
    obtain rfl : o.input = input := by
      have h := congrArg List.head? hinput
      simpa [inputs] using h
    simp [Options.after]
  · rintro rfl
    exact ⟨by simp, o'.input, by simp [inputs], by simp [Options.after]⟩

/-- A known flag is done with once its effect is in the options. -/
theorem settled_flag {o p o' : Options} {a : String} {arguments rest : List String}
    (hspoken : spoken arguments = a :: spoken rest) (hflag : isFlag a = true) (hknown : a ∈ flags)
    (hinput : p.input = o.input) (hafter : ∀ input, o.after arguments input = p.after rest input) :
    p.Settled rest o' ↔ o.Settled arguments o' := by
  have hinputs : inputs arguments = inputs rest := by
    rw [inputs, hspoken, List.filter_cons_of_neg (by simp [hflag]), inputs]
  simp only [Options.Settled, hspoken, List.forall_mem_cons, hflag, hknown, hinput, hinputs, hafter,
    forall_const, true_and]

theorem inputs_cons {a : String} (ha : a ≠ "--config") (hflag : ¬isFlag a = true)
    (rest : List String) : inputs (a :: rest) = a :: inputs rest := by
  rw [inputs, spoken_cons ha, List.filter_cons_of_pos (by simp [hflag]), inputs]

/-- An argument that asks for nothing. -/
theorem ne_config {a : String} {rest : List String} (hend : a = "--config" → rest = [] → False)
    (hvalue : ∀ v vs, a = "--config" → rest = v :: vs → False) : a ≠ "--config" := by
  intro ha
  cases rest with
  | nil => exact hend ha rfl
  | cons v vs => exact hvalue v vs ha rfl

/-- The arguments are gone through just if every flag is known and there is no second input. -/
theorem fromArguments_eq_ok_iff {o o' : Options} {arguments : List String} :
    fromArguments o arguments = .ok o' ↔ o.Settled arguments o' := by
  fun_induction fromArguments o arguments with
  | case1 o => rw [settled_nil, Except.ok.injEq, eq_comm]
  | case2 o =>
    have h : o.Settled [] o' ↔ o.Settled ["--config"] o' :=
      settled_flag spoken_config_end (by decide) (by decide) rfl fun _ ↦ by
        simp [Options.after, spoken_config_end]
    rw [← h, settled_nil, Except.ok.injEq, eq_comm]
  | case3 o v rest ih =>
    exact ih.trans (settled_flag (spoken_config v rest) (by decide) (by decide) rfl fun _ ↦ by
      simp [Options.after, spoken_config])
  | case4 o rest hend hvalue ih =>
    exact ih.trans (settled_flag (spoken_cons (by decide) rest) (by decide) (by decide) rfl fun _ ↦ by
      simp [Options.after, spoken_cons])
  | case5 o rest hend hvalue hjson ih =>
    exact ih.trans (settled_flag (spoken_cons (by decide) rest) (by decide) (by decide) rfl fun _ ↦ by
      simp [Options.after, spoken_cons])
  | case6 o rest hend hvalue hjson hvalidate ih =>
    exact ih.trans (settled_flag (spoken_cons (by decide) rest) (by decide) (by decide) rfl fun _ ↦ by
      simp [Options.after, spoken_cons])
  | case7 o a rest hend hvalue hjson hvalidate hleft hflag =>
    have hspoken := spoken_cons (ne_config hend hvalue) rest
    refine iff_of_false (by simp) fun h ↦ ?_
    have hknown := h.1 a (by rw [hspoken]; exact List.mem_cons_self) hflag
    simp [flags, hjson, hvalidate, hleft, ne_config hend hvalue] at hknown
  | case8 o a rest hend hvalue hjson hvalidate hleft hflag hinput =>
    -- there would be two inputs
    obtain ⟨first, hfirst⟩ := Option.isSome_iff_exists.1 hinput
    refine iff_of_false (by simp) ?_
    rintro ⟨-, input, h, -⟩
    rw [hfirst, inputs_cons (ne_config hend hvalue) hflag] at h
    cases input <;> simp at h
  | case9 o a rest hend hvalue hjson hvalidate hleft hflag hinput ih =>
    have hspoken := spoken_cons (ne_config hend hvalue) rest
    obtain hnone : o.input = none := Option.not_isSome_iff_eq_none.1 hinput
    have hinputs : { o with input := some a }.input.toList ++ inputs rest =
        o.input.toList ++ inputs (a :: rest) := by
      rw [inputs_cons (ne_config hend hvalue) hflag, hnone]
      rfl
    have hafter : ∀ input, { o with input := some a }.after rest input =
        o.after (a :: rest) input := fun input ↦ by
      simp [Options.after, hspoken, Ne.symm hjson, Ne.symm hvalidate, Ne.symm hleft]
    rw [ih, Options.Settled, Options.Settled, hinputs, hspoken, List.forall_mem_cons,
      and_iff_right fun h ↦ absurd h hflag]
    simp only [hafter]

/-! ### The file of settings -/

/-- The file that settings are taken from: the argument behind the first `--config`, else what the
variable names if it names something, else the file of the fixed name if there is one. -/
def chosenConfig (w : World) (arguments : List String) : Option String :=
  arguments[arguments.idxOf "--config" + 1]? <|>
    (w.environment "RWX_CONFIG").filter (· != "") <|>
      if (w.files "rwx.toml").isThere then some "rwx.toml" else none

/-- What the file of settings says, or what is so without one. Which document its text is, is up to
the world. -/
def ConfigSays (w : World) : Option String → Settings → Prop
  | none, base => base = .initial
  | some path, base => ∃ bytes text e, w.files path = .ok bytes ∧
      Text.Utf8.decode bytes = .ok text ∧ w.document? text.toList = some e ∧ Toml.Settles e base

theorem firstConfig?_eq (arguments : List String) : firstConfig? arguments =
    if "--config" ∈ arguments then some arguments[arguments.idxOf "--config" + 1]? else none := by
  induction arguments with
  | nil => rfl
  | cons a rest ih =>
    by_cases ha : a = "--config"
    · simp [firstConfig?, ha, List.head?_eq_getElem?]
    · rw [firstConfig?, if_neg ha, ih]
      simp [List.idxOf_cons_ne rest ha, Ne.symm ha]

/-- Only a first `--config` without a path is wrong with the choice of a file. -/
theorem configPath_eq (w : World) (arguments : List String) : configPath w arguments =
    if "--config" ∈ arguments ∧ arguments[arguments.idxOf "--config" + 1]? = none then
      .error .configWithoutPath
    else .ok (chosenConfig w arguments) := by
  rw [configPath, firstConfig?_eq, chosenConfig]
  by_cases hmem : "--config" ∈ arguments
  · rw [if_pos hmem]
    cases arguments[arguments.idxOf "--config" + 1]? with
    | none => simp [hmem]
    | some path => simp
  · have hnone : arguments[arguments.idxOf "--config" + 1]? = none :=
      List.getElem?_eq_none (by rw [List.idxOf_of_notMem hmem]; omega)
    rw [if_neg hmem, if_neg fun h ↦ hmem h.1, hnone]
    cases w.environment "RWX_CONFIG" with
    | none => rfl
    | some path =>
      by_cases hpath : path = ""
      · subst hpath
        rfl
      · simp [hpath, Option.filter]

theorem readConfig_eq_ok_iff {w : World} {path : String} {base : Settings} :
    readConfig w path = .ok base ↔ ConfigSays w (some path) base := by
  rw [readConfig]
  constructor
  · intro h
    split at h
    · exact nomatch h
    · next bytes hbytes =>
      split at h
      · exact nomatch h
      · next text htext =>
        split at h
        · exact nomatch h
        · next s hs =>
          obtain ⟨e, he, hsettles⟩ := Option.bind_eq_some_iff.1 hs
          obtain rfl := Except.ok.inj h
          exact ⟨bytes, text, e, hbytes, htext, he, Toml.settingsOf?_eq_some_iff.1 hsettles⟩
  · rintro ⟨bytes, text, e, hbytes, htext, he, hsettles⟩
    have hs : Toml.settings? text w.document? = some base :=
      Option.bind_eq_some_iff.2 ⟨e, he, Toml.settingsOf?_eq_some_iff.2 hsettles⟩
    simp only [hbytes, htext, hs]

/-- The first `--config` has a path, and the settings are those of the chosen file. -/
theorem fromConfig_eq_ok_iff {w : World} {arguments : List String} {o : Options} :
    fromConfig w arguments = .ok o ↔
      ("--config" ∈ arguments → arguments[arguments.idxOf "--config" + 1]? ≠ none) ∧
        ∃ base, ConfigSays w (chosenConfig w arguments) base ∧
          o = { Options.initial with settings := base, configPath := chosenConfig w arguments } := by
  rw [fromConfig, configPath_eq]
  split
  · next h => exact iff_of_false (fun h ↦ nomatch h) fun hpath ↦ hpath.1 h.1 h.2
  · next h =>
    rw [and_iff_right fun hmem hnone ↦ h ⟨hmem, hnone⟩, bind_eq_ok_iff]
    simp only [Except.ok.injEq, exists_eq_left']
    cases chosenConfig w arguments with
    | none =>
      constructor
      · intro h
        exact ⟨.initial, rfl, (Except.ok.inj h).symm⟩
      · rintro ⟨base, rfl, rfl⟩
        rfl
    | some path =>
      simp only [bind_eq_ok_iff, readConfig_eq_ok_iff]
      refine exists_congr fun base ↦ and_congr_right fun _ ↦ ?_
      exact ⟨fun h ↦ (Except.ok.inj h).symm, fun h ↦ congrArg Except.ok h.symm⟩

/-! ### Variables -/

/-- The trimmed pieces of a value between its commas, but the empty ones. -/
def IsCommaList (value : String) (names : List String) : Prop :=
  ∃ pieces, [','].intercalate pieces = value.toList ∧ pieces ≠ [] ∧ (∀ p ∈ pieces, ',' ∉ p) ∧
    names = (pieces.map fun p ↦ String.ofList (Text.trim p)).filter (· != "")

theorem isCommaList_iff {value : String} {names : List String} :
    IsCommaList value names ↔ names = commaList value := by
  constructor
  · rintro ⟨pieces, hvalue, hne, hpieces, rfl⟩
    rw [commaList, ← hvalue, Text.cut_intercalate hne hpieces]
  · rintro rfl
    exact ⟨_, Text.intercalate_cut ',' value.toList, Text.cut_ne_nil _ _,
      fun p hp ↦ Text.notMem_of_mem_cut hp, rfl⟩

theorem readVariable_eq_ok_iff {w : World} {α : Type} {name : String} {read? : String → Option α}
    {fault : String → OptionsError} {before after : α} :
    w.readVariable name read? fault before = .ok after ↔
      Overrides (w.environment name) (read? · = some ·) before after := by
  rw [World.readVariable]
  cases w.environment name with
  | none => simp [Overrides, eq_comm]
  | some value => cases h : read? value <;> simp [Overrides, h]

/-- The handedness and the threshold can be read, and each variable goes before the options. -/
theorem fromVariables_eq_ok_iff {w : World} {o o' : Options} :
    fromVariables w o = .ok o' ↔ ∃ handedness dot masks,
      Overrides (w.environment "RWX_HANDEDNESS") (Handedness.ofName? · = some ·)
        o.settings.handedness handedness ∧
      Overrides (w.environment "RWX_OPPOSING_DOT") (readScalar? ·.toList = some ·)
        o.settings.opposingNormalDot dot ∧
      Overrides (w.environment "RWX_INVERTED_MASKS") IsCommaList o.settings.invertedMasks masks ∧
      o' = { o with
        settings := { o.settings with
          handedness, opposingNormalDot := dot, invertedMasks := masks }
        format :=
          if w.environment "RWX_JSON" ∈ [some "1", some "true"] then .json else o.format } := by
  have hmasks : ∀ masks, Overrides (w.environment "RWX_INVERTED_MASKS") IsCommaList
      o.settings.invertedMasks masks ↔
      masks = (w.environment "RWX_INVERTED_MASKS").elim o.settings.invertedMasks commaList := by
    intro masks
    cases w.environment "RWX_INVERTED_MASKS" with
    | none => exact Iff.rfl
    | some value => exact isCommaList_iff
  rw [fromVariables]
  simp only [bind_eq_ok_iff, readVariable_eq_ok_iff, hmasks]
  refine exists_congr fun handedness ↦ ?_
  rw [← exists_and_left]
  refine exists_congr fun dot ↦ ?_
  cases w.environment "RWX_INVERTED_MASKS" <;> cases w.environment "RWX_JSON" <;>
    simp [pure, Except.pure, eq_comm]

/-! ### All sources -/

/-- Each option comes from the first source that says something about it, where the file of settings,
if there is one, comes to `base`. -/
structure Options.ByPriority (w : World) (arguments : List String) (base : Settings) (o : Options) :
    Prop where
  /-- There is something behind the first `--config`. -/
  configGiven : "--config" ∈ arguments → arguments[arguments.idxOf "--config" + 1]? ≠ none
  configPath : o.configPath = chosenConfig w arguments
  config : ConfigSays w o.configPath base
  handedness : ∃ handedness, Overrides (w.environment "RWX_HANDEDNESS")
      (Handedness.ofName? · = some ·) base.handedness handedness ∧
    o.settings.handedness = if "--left" ∈ spoken arguments then .left else handedness
  opposingNormalDot : Overrides (w.environment "RWX_OPPOSING_DOT")
    (readScalar? ·.toList = some ·) base.opposingNormalDot o.settings.opposingNormalDot
  degenerateNormalEpsilon : o.settings.degenerateNormalEpsilon = base.degenerateNormalEpsilon
  matrixNoiseThreshold : o.settings.matrixNoiseThreshold = base.matrixNoiseThreshold
  invertedMasks : Overrides (w.environment "RWX_INVERTED_MASKS") IsCommaList base.invertedMasks
    o.settings.invertedMasks
  format : o.format = .json ↔
    "--json" ∈ spoken arguments ∨ w.environment "RWX_JSON" ∈ [some "1", some "true"]
  validate : o.validate = true ↔ "--validate" ∈ spoken arguments
  /-- No flag is unknown. -/
  flags : ∀ a ∈ spoken arguments, isFlag a = true → a ∈ flags
  /-- There is at most one input. -/
  input : inputs arguments = o.input.toList

theorem format_eq_iff {format : Format} {p q : Prop} [Decidable p] [Decidable q] :
    format = (if p then .json else if q then .json else .text) ↔ (format = .json ↔ p ∨ q) := by
  by_cases hp : p <;> by_cases hq : q <;> cases format <;> simp [hp, hq]

theorem resolve_eq_ok_iff {w : World} {arguments : List String} {o : Options} :
    Options.resolve w arguments = .ok o ↔ ∃ base, Options.ByPriority w arguments base o := by
  rw [Options.resolve]
  simp only [bind_eq_ok_iff, fromConfig_eq_ok_iff, fromVariables_eq_ok_iff, fromArguments_eq_ok_iff]
  constructor
  · rintro ⟨_, ⟨hgiven, base, hconfig, rfl⟩, _, ⟨handedness, dot, masks, hhandedness, hdot, hmasks, rfl⟩,
      hflags, input, hinput, rfl⟩
    exact ⟨base,
      { configGiven := hgiven
        configPath := rfl
        config := hconfig
        handedness := ⟨handedness, hhandedness, rfl⟩
        opposingNormalDot := hdot
        degenerateNormalEpsilon := rfl
        matrixNoiseThreshold := rfl
        invertedMasks := hmasks
        format := format_eq_iff.1 rfl
        validate := by simp [Options.after, Options.initial]
        flags := hflags
        input := hinput }⟩
  · obtain ⟨⟨handedness, dot, epsilon, threshold, masks⟩, format, validate, input, path⟩ := o
    rintro ⟨base, h⟩
    obtain ⟨named, hnamed, hhandedness⟩ := h.handedness
    obtain rfl : handedness = _ := hhandedness
    obtain rfl : epsilon = base.degenerateNormalEpsilon := h.degenerateNormalEpsilon
    obtain rfl : threshold = base.matrixNoiseThreshold := h.matrixNoiseThreshold
    obtain rfl : format = _ := format_eq_iff.2 h.format
    obtain rfl : validate = decide ("--validate" ∈ spoken arguments) :=
      Bool.eq_iff_iff.2 (h.validate.trans (decide_eq_true_iff).symm)
    obtain rfl : path = _ := h.configPath
    refine ⟨_, ⟨h.configGiven, base, h.config, rfl⟩, _,
      ⟨named, dot, masks, hnamed, h.opposingNormalDot, h.invertedMasks, rfl⟩, h.flags, input, h.input, ?_⟩
    simp [Options.after, Options.initial]

/-- There are options just if nothing is wrong with any source, and then each of them comes from the
first source that says something about it. So there are none where a flag is unknown. -/
theorem Options.resolve_by_priority (w : World) (arguments : List String) :
    (∀ o, Options.resolve w arguments = .ok o ↔ ∃ base, Options.ByPriority w arguments base o) ∧
      ∀ a ∈ spoken arguments, isFlag a = true → a ∉ flags →
        ∃ e, Options.resolve w arguments = .error e := by
  refine ⟨fun o ↦ resolve_eq_ok_iff, fun a ha hflag hunknown ↦ ?_⟩
  cases hresolve : Options.resolve w arguments with
  | error e => exact ⟨e, rfl⟩
  | ok o =>
    obtain ⟨base, h⟩ := resolve_eq_ok_iff.1 hresolve
    exact absurd (h.flags a ha hflag) hunknown

/-- A world with nothing but an empty file of settings, whose name could be a flag. -/
def flagFile : World where
  environment name := if name = "RWX_HANDEDNESS" then some "right" else none
  files path := if path = "--left" then .ok .empty else .error .missing

/-- The name of the file is no flag, and what stands behind it is one. -/
theorem resolve_by_priority_flagFile :
    (∃ base, Options.ByPriority flagFile ["--config", "--left", "a.rwx", "--json"] base
      ⟨.initial, .json, false, some "a.rwx", some "--left"⟩) ∧
    "--up" ∈ spoken ["--config", "--left", "--up"] ∧ isFlag "--up" = true ∧ "--up" ∉ flags ∧
      ∃ e, Options.resolve flagFile ["--config", "--left", "--up"] = .error e := by
  have hspoken : "--up" ∈ spoken ["--config", "--left", "--up"] := by decide
  have hflag : isFlag "--up" = true := by decide
  have hunknown : "--up" ∉ flags := by decide
  have hresolve : Options.resolve flagFile ["--config", "--left", "a.rwx", "--json"] =
      .ok ⟨.initial, .json, false, some "a.rwx", some "--left"⟩ := by rfl
  exact ⟨((Options.resolve_by_priority _ _).1 _).1 hresolve, hspoken, hflag, hunknown,
    (Options.resolve_by_priority _ _).2 _ hspoken hflag hunknown⟩

end Inspector

end RwxScene
