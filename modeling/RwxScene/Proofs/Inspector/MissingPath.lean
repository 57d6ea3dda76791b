import RwxScene.Proofs.Inspector.Options

/-!
# A file of settings that is asked for and not named

A `--config` asks for the argument behind it. Only the last argument can be one that asks in vain
(`LacksPath`), and what then happens hangs on whether it is the first `--config`. The reader that
chooses the file looks for the path of the first one and finds none. The reader that goes through all
arguments does not look at paths at all, so a later `--config` without a path says nothing: the
options are those of the arguments without it (`Options.resolve_of_lacksPath`).
-/

namespace RwxScene.Inspector

/-- A `--config` that is no path itself has no path behind it. -/
def LacksPath (arguments : List String) : Prop :=
  ∃ i, arguments[i]? = some "--config" ∧ isValue arguments i = false ∧ arguments[i + 1]? = none

section Reading

variable {a v : String} {rest : List String}

theorem lacksPath_end : LacksPath ["--config"] := ⟨0, rfl, rfl, rfl⟩

theorem lacksPath_cons (ha : a ≠ "--config") : LacksPath (a :: rest) ↔ LacksPath rest := by
  constructor
  · rintro ⟨i, hi, hvalue, hend⟩
    cases i with
    | zero => exact absurd (Option.some.inj hi) ha
    | succ i => exact ⟨i, hi, (isValue_cons ha rest i).symm.trans hvalue, hend⟩
  · rintro ⟨i, hi, hvalue, hend⟩
    exact ⟨i + 1, hi, (isValue_cons ha rest i).trans hvalue, hend⟩

theorem lacksPath_config : LacksPath ("--config" :: v :: rest) ↔ LacksPath rest := by
  constructor
  · rintro ⟨i, hi, hvalue, hend⟩
    match i with
    | 0 => exact absurd hend (by simp)
    | 1 => exact absurd hvalue (by simp [isValue])
    | i + 2 => exact ⟨i, hi, (isValue_config v rest i).symm.trans hvalue, hend⟩
  · rintro ⟨i, hi, hvalue, hend⟩
    exact ⟨i + 2, hi, (isValue_config v rest i).trans hvalue, hend⟩

/-- It is the last argument that has no path behind it. -/
theorem LacksPath.eq_dropLast_append {arguments : List String} (h : LacksPath arguments) :
    arguments = arguments.dropLast ++ ["--config"] := by
  obtain ⟨i, hi, -, hend⟩ := h
  have hlast : arguments.getLast? = some "--config" := by
    have hlt := (List.getElem?_eq_some_iff.1 hi).1
    have hle := List.getElem?_eq_none_iff.1 hend
    rw [List.getLast?_eq_getElem?, show arguments.length - 1 = i by omega, hi]
  exact (List.dropLast_append_getLast? "--config" hlast).symm

/-- Two at the end are one with a path. -/
theorem not_lacksPath_pair : ¬LacksPath ["--config", "--config"] := by
  rw [lacksPath_config]
  rintro ⟨i, hi, -⟩
  exact absurd hi (by simp)

/-- A last argument that asks in vain is the first one to ask, or the first one has a path without
it. -/
theorem firstConfig?_append (h : LacksPath (rest ++ ["--config"])) :
    firstConfig? (rest ++ ["--config"]) =
      if "--config" ∈ rest then firstConfig? rest else some none := by
  induction rest with
  | nil => rfl
  | cons a rest ih =>
    by_cases ha : a = "--config"
    · subst ha
      cases rest with
      | nil => exact absurd h not_lacksPath_pair
      | cons v rest => simp [firstConfig?]
    · have hrest := ih ((lacksPath_cons ha).1 h)
      rw [List.cons_append, firstConfig?, if_neg ha, hrest, firstConfig?, if_neg ha]
      simp [Ne.symm ha]

/-- The file is missed only if no other one was asked for. -/
theorem configPath_append (w : World) (h : LacksPath (rest ++ ["--config"])) :
    configPath w (rest ++ ["--config"]) =
      if "--config" ∈ rest then configPath w rest else .error .configWithoutPath := by
  rw [configPath, configPath, firstConfig?_append h]
  by_cases hfirst : "--config" ∈ rest
  · rw [if_pos hfirst, if_pos hfirst]
  · rw [if_neg hfirst, if_neg hfirst]

/-- An argument that asks for nothing does the same in front of arguments that do the same. -/
theorem fromArguments_cons_congr (ha : a ≠ "--config") {others : List String}
    (h : ∀ o, fromArguments o rest = fromArguments o others) (o : Options) :
    fromArguments o (a :: rest) = fromArguments o (a :: others) := by
  have hcons : ∀ arguments : List String, fromArguments o (a :: arguments) =
      if a = "--json" then fromArguments { o with format := .json } arguments
      else if a = "--validate" then fromArguments { o with validate := true } arguments
      else if a = "--left" then
        fromArguments { o with settings := { o.settings with handedness := .left } } arguments
      else if isFlag a then .error (.unknownFlag a)
      else if o.input.isSome then .error (.unexpectedArgument a)
      else fromArguments { o with input := some a } arguments := fun arguments ↦
    fromArguments.eq_4 o a arguments (fun h _ ↦ ha h) fun _ _ h _ ↦ ha h
  rw [hcons, hcons, h, h, h, h]

/-- Who goes through the arguments does not miss a path at the end. -/
theorem fromArguments_append (h : LacksPath (rest ++ ["--config"])) (o : Options) :
    fromArguments o (rest ++ ["--config"]) = fromArguments o rest := by
  induction rest using List.twoStepInduction generalizing o with
  | nil => rfl
  | singleton a =>
    by_cases ha : a = "--config"
    · subst ha
      exact absurd h not_lacksPath_pair
    · have hend : ∀ o, fromArguments o ["--config"] = fromArguments o [] := fun _ ↦ rfl
      exact fromArguments_cons_congr ha hend o
  | cons_cons a v rest ih ihv =>
    by_cases ha : a = "--config"
    · subst ha
      exact ih (lacksPath_config.1 h) o
    · exact fromArguments_cons_congr ha (ihv v ((lacksPath_cons ha).1 h)) o

end Reading

/-- **What a missing path does.** If the last argument is a `--config` that asks in vain, then there
are no options, and the message says so, where it is the only `--config`. Where another one stands in
front of it, the options are those without the last argument. -/
theorem Options.resolve_of_lacksPath (w : World) {arguments : List String}
    (h : LacksPath arguments) :
    Options.resolve w arguments =
      if "--config" ∈ arguments.dropLast then Options.resolve w arguments.dropLast
      else .error .configWithoutPath := by
  have hsplit := h.eq_dropLast_append
  generalize arguments.dropLast = rest at hsplit
  subst hsplit
  rw [Options.resolve, Options.resolve, fromConfig, fromConfig, configPath_append w h]
  split
  · simp only [fromArguments_append h]
  · rfl

/-- Asked in vain once, there are no options; asked again in vain, nobody minds. -/
theorem Options.resolve_of_lacksPath_flagFile :
    LacksPath ["--json", "--config"] ∧ LacksPath ["--config", "--left", "--config"] ∧
      Options.resolve flagFile ["--json", "--config"] = .error .configWithoutPath ∧
      OptionsError.configWithoutPath.message = "--config requires a path" ∧
      Options.resolve flagFile ["--config", "--left", "--config"] =
        Options.resolve flagFile ["--config", "--left"] := by
  have hfirst : LacksPath ["--json", "--config"] := (lacksPath_cons (by decide)).2 lacksPath_end
  have hsecond : LacksPath ["--config", "--left", "--config"] := lacksPath_config.2 lacksPath_end
  refine ⟨hfirst, hsecond, ?_, rfl, ?_⟩
  · rw [Options.resolve_of_lacksPath flagFile hfirst]
    exact if_neg (by decide)
  · rw [Options.resolve_of_lacksPath flagFile hsecond]
    exact if_pos (by decide)

/-- A `--config` that asks in vain is not always an error. -/
theorem exists_resolve_of_lacksPath :
    LacksPath ["--config", "--left", "--config"] ∧
      Options.resolve flagFile ["--config", "--left", "--config"] =
        .ok ⟨.initial, .text, false, none, some "--left"⟩ :=
  ⟨lacksPath_config.2 lacksPath_end, by rfl⟩

end RwxScene.Inspector
