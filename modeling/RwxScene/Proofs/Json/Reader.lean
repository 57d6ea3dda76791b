import RwxScene.Proofs.Json.Library
import RwxScene.Proofs.Json.Tokens

/-!
# Printed values are read back

Printing in one line and reading are a library as it is documented (`documented_compact`): a value
that was printed is read as the same value, but for its scalars. What is found where a scalar was
written is a matter of the digits that are written; a scalar that is found again survives
(`Survives`).
-/

namespace RwxScene.Json

/-! ### What is read -/

/-- What is read where a scalar was written. -/
def readScalar (s : Scalar) : Value :=
  match number? (scalarStyle.write s) with
  | some (v, []) => v
  | _ => .unusable

/-- The scalar is found again in its text. -/
def Survives (s : Scalar) : Prop := Decoder.scalar 0 (readScalar s) = some s

instance (s : Scalar) : Decidable (Survives s) :=
  inferInstanceAs (Decidable (Decoder.scalar 0 (readScalar s) = some s))

/-- A scalar that lasts is written as a number with nothing behind it. -/
theorem Decoder.Lasts.number? {s : Scalar} (h : Lasts readScalar s) :
    number? (scalarStyle.write s) = some (readScalar s, []) := by
  have hsurvives := h.survives
  rw [readScalar] at hsurvives ⊢
  split at hsurvives
  · next v hv => exact hv
  · exact absurd hsurvives (by simp [Decoder.scalar])

namespace Value

/-- The characters of a value in one line. -/
def text (v : Value) : List Char := v.compact.toList

/-- The characters of a field. -/
def fieldText (f : String × Value) : List Char := (Text.Quoted.json f.1).toList ++ ':' :: f.2.text

theorem text_array (vs : List Value) :
    (array vs).text = '[' :: ([','].intercalate (vs.map text) ++ [']']) := by
  have helements : ∀ vs : List Value, (compactElements vs).map String.toList = vs.map text := by
    intro vs
    induction vs with
    | nil => rfl
    | cons v vs ih => rw [compactElements, List.map_cons, ih, List.map_cons, text]
  rw [text, compact, String.toList_append, String.toList_append, String.toList_intercalate,
    helements]
  rfl

theorem text_object (fs : List (String × Value)) :
    (object fs).text = '{' :: ([','].intercalate (fs.map fieldText) ++ ['}']) := by
  have hfields : ∀ fs : List (String × Value),
      (compactFields fs).map String.toList = fs.map fieldText := by
    intro fs
    induction fs with
    | nil => rfl
    | cons f fs ih =>
      obtain ⟨k, v⟩ := f
      rw [compactFields, List.map_cons, ih, List.map_cons, fieldText, String.toList_append,
        String.toList_append, text, List.append_assoc]
      rfl
  rw [text, compact, String.toList_append, String.toList_append, String.toList_intercalate,
    hfields]
  rfl

theorem text_string (s : String) :
    (string s).text = '"' :: (s.toList.flatMap Text.Quoted.escapeJson ++ ['"']) := by
  rw [text, compact, Text.Quoted.json, String.toList_ofList, Text.Quoted.enclose]

/-! ### Where a text begins -/

/-- Neither a blank nor the end of an array or an object. -/
def isOpening (c : Char) : Bool := c ∉ [' ', '\n', '\t', '\r', ']', '}']

theorem isOpening_of_number {c : Char} (hc : c = '-' ∨ c.isDigit = true) : isOpening c = true := by
  rcases hc with rfl | hc
  · decide
  · rw [isOpening]
    refine decide_eq_true fun hmem ↦ ?_
    simp only [List.mem_cons, List.not_mem_nil, or_false] at hmem
    rcases hmem with rfl | rfl | rfl | rfl | rfl | rfl <;> exact absurd hc (by decide)

end Value

open Value (isOpening isOpening_of_number)

theorem skip_cons {c : Char} (hc : isOpening c = true) (cs : List Char) :
    skip (c :: cs) = c :: cs := by
  rw [skip, List.dropWhile_cons_of_neg]
  intro hblank
  have hblank := of_decide_eq_true hblank
  rcases hblank with rfl | rfl | rfl | rfl <;> exact absurd hc (by decide)

/-- A number begins with a digit or a minus sign. -/
theorem exists_cons_of_number? {cs : List Char} {x : Value × List Char}
    (h : number? cs = some x) : ∃ c ds, cs = c :: ds ∧ (c = '-' ∨ c.isDigit = true) := by
  match cs with
  | [] => exact absurd h (by simp [number?, magnitude?])
  | c :: cs =>
    refine ⟨c, cs, rfl, or_iff_not_imp_left.2 fun hc ↦ ?_⟩
    rw [number?_of_ne_minus hc, magnitude?.eq_def] at h
    dsimp only at h
    split at h
    · next hzero =>
      rw [hzero]
      rfl
    · split at h
      · next hdigit => exact hdigit
      · exact absurd h (by simp)

/-- What begins with a digit or a minus sign is read as a number. -/
theorem value?_number {cs rest : List Char} {v : Value} (h : number? cs = some (v, []))
    (hrest : Ends rest) (fuel : ℕ) : value? (fuel + 1) (cs ++ rest) = some (v, rest) := by
  obtain ⟨c, ds, rfl, hc⟩ := exists_cons_of_number? h
  have happend := number?_append h hrest
  have hne : ∀ d, ¬(d = '-' ∨ d.isDigit = true) → c ≠ d := by
    rintro d hd rfl
    exact hd hc
  rw [value?.eq_def]
  dsimp only
  rw [List.cons_append, skip_cons (isOpening_of_number hc)]
  split
  · next heq => exact absurd (List.cons.inj heq).1 (hne 'n' (by decide))
  · next heq => exact absurd (List.cons.inj heq).1 (hne 't' (by decide))
  · next heq => exact absurd (List.cons.inj heq).1 (hne 'f' (by decide))
  · next heq => exact absurd (List.cons.inj heq).1 (hne '"' (by decide))
  · next heq => exact absurd (List.cons.inj heq).1 (hne '[' (by decide))
  · next heq => exact absurd (List.cons.inj heq).1 (hne '{' (by decide))
  · exact happend

theorem value?_string (s : String) (rest : List Char) (fuel : ℕ) :
    value? (fuel + 1) ((Value.string s).text ++ rest) = some (.string s, rest) := by
  have hquote : ∀ cs, value? (fuel + 1) ('"' :: cs) =
      (text? cs).map fun x ↦ (x.1.elim .unusable .string, x.2) := fun _ ↦ rfl
  rw [Value.text_string, List.cons_append, List.append_assoc, List.singleton_append, hquote,
    text?_enclose, String.ofList_toList]
  rfl

/-! ### Arrays -/

/-- The value is read back from its text, given two steps for each character. -/
def ReadsBack (v : Value) : Prop :=
  ∀ (fuel : ℕ) (rest : List Char), Ends rest → 2 * v.text.length ≤ fuel →
    value? fuel (v.text ++ rest) = some (v.reread readScalar, rest)

theorem ends_close (rest : List Char) : Ends (']' :: rest) := by
  rintro c ⟨⟩
  decide

theorem ends_comma (rest : List Char) : Ends (',' :: rest) := by
  rintro c ⟨⟩
  decide

theorem ends_closeObject (rest : List Char) : Ends ('}' :: rest) := by
  rintro c ⟨⟩
  decide

/-- Texts with commas between them begin with the first one. -/
theorem exists_intercalate_eq_cons (c : Char) (cs : List Char) (ls : List (List Char)) :
    ∃ ds, [','].intercalate ((c :: cs) :: ls) = c :: ds := by
  match ls with
  | [] => exact ⟨cs, List.intercalate_singleton⟩
  | l :: ls => exact ⟨cs ++ [','] ++ [','].intercalate (l :: ls), List.intercalate_cons_cons⟩

/-- An array that is not closed at once has elements. -/
theorem value?_openArray {c : Char} (hc : isOpening c = true) (fuel : ℕ) (cs : List Char) :
    value? (fuel + 1) ('[' :: c :: cs) = elements? fuel [] (c :: cs) := by
  have hbracket : isOpening '[' = true := by decide
  simp only [value?, skip_cons hbracket, skip_cons hc]
  split
  · next heq =>
    rw [(List.cons.inj heq).1] at hc
    exact absurd hc (by decide)
  · rfl

/-- The elements of an array are read back one after the other. -/
theorem elements?_text {v : Value} {vs : List Value} (h : ∀ w ∈ v :: vs, ReadsBack w) (fuel : ℕ)
    (done : List Value) (rest : List Char)
    (hfuel : 2 * ([','].intercalate ((v :: vs).map Value.text)).length < fuel) :
    elements? fuel done ([','].intercalate ((v :: vs).map Value.text) ++ ']' :: rest) =
      some (.array (done.reverse ++ (v :: vs).map (Value.reread readScalar)), rest) := by
  induction vs generalizing v fuel done with
  | nil =>
    obtain ⟨fuel, rfl⟩ : ∃ k, fuel = k + 1 := ⟨fuel - 1, by omega⟩
    rw [List.map_singleton, List.intercalate_singleton] at hfuel ⊢
    have hv := h v List.mem_cons_self fuel (']' :: rest) (ends_close rest) (by omega)
    rw [elements?, hv]
    show some (Value.array (v.reread readScalar :: done).reverse, rest) = _
    rw [List.reverse_cons]
    rfl
  | cons w vs ih =>
    obtain ⟨fuel, rfl⟩ : ∃ k, fuel = k + 1 := ⟨fuel - 1, by omega⟩
    obtain ⟨hv, hvs⟩ := List.forall_mem_cons.1 h
    rw [List.map_cons, List.map_cons, List.intercalate_cons_cons] at hfuel ⊢
    simp only [List.length_append, List.length_singleton] at hfuel
    have hv := hv fuel (',' :: ([','].intercalate ((w :: vs).map Value.text) ++ ']' :: rest))
      (ends_comma _) (by omega)
    have hrest := ih hvs fuel (v.reread readScalar :: done) (by rw [List.map_cons]; omega)
    rw [List.append_assoc, List.append_assoc, List.singleton_append, elements?, ← List.map_cons,
      hv]
    show elements? fuel (v.reread readScalar :: done) _ = _
    rw [hrest, List.reverse_cons, List.append_assoc]
    rfl

/-! ### Objects -/

theorem objectOf_map_some (fs : List (String × Value)) :
    objectOf (fs.map fun f ↦ (some f.1, f.2)) = .object fs := by
  have hfields : (fs.map fun f ↦ (some f.1, f.2)).mapM (m := Option)
      (fun x : Option String × Value ↦ x.1.map (·, x.2)) = some fs := by
    induction fs with
    | nil => rfl
    | cons f fs ih =>
      rw [List.map_cons, List.mapM_cons, ih]
      rfl
  unfold objectOf
  rw [hfields]

/-- The name of a field is read back, and the value after it. -/
theorem fields?_field {f : String × Value} (h : ReadsBack f.2) {fuel : ℕ} {c : Char}
    {rest : List Char} (hc : Ends (c :: rest)) (hfuel : 2 * f.2.text.length ≤ fuel)
    (done : List (Option String × Value)) :
    fields? (fuel + 1) done (Value.fieldText f ++ c :: rest) =
      match skip (c :: rest) with
      | '}' :: rest => some (objectOf ((some f.1, f.2.reread readScalar) :: done).reverse, rest)
      | ',' :: rest => fields? fuel ((some f.1, f.2.reread readScalar) :: done) rest
      | _ => none := by
  have hname := text?_enclose f.1.toList (':' :: (f.2.text ++ c :: rest))
  rw [String.ofList_toList] at hname
  have htext : Value.fieldText f ++ c :: rest =
      '"' :: (f.1.toList.flatMap Text.Quoted.escapeJson ++
        '"' :: ':' :: (f.2.text ++ c :: rest)) := by
    simp [Value.fieldText, Text.Quoted.json, Text.Quoted.enclose]
  rw [htext, fields?, skip_cons (by decide)]
  split
  · next cs heq =>
    obtain rfl := (List.cons.inj heq).2
    rw [hname]
    dsimp only
    rw [skip_cons (by decide)]
    split
    · next cs heq =>
      obtain rfl := (List.cons.inj heq).2
      exact h fuel _ hc hfuel ▸ rfl
    · next hne => exact absurd rfl (hne _)
  · next hne => exact absurd rfl (hne _)

/-- The fields of an object are read back one after the other. -/
theorem fields?_text {f : String × Value} {fs : List (String × Value)}
    (h : ∀ g ∈ f :: fs, ReadsBack g.2) (fuel : ℕ) (done : List (String × Value)) (rest : List Char)
    (hfuel : 2 * ([','].intercalate ((f :: fs).map Value.fieldText)).length < fuel) :
    fields? fuel (done.map fun g ↦ (some g.1, g.2))
        ([','].intercalate ((f :: fs).map Value.fieldText) ++ '}' :: rest) =
      some (.object (done.reverse ++ (f :: fs).map fun g ↦ (g.1, g.2.reread readScalar)),
        rest) := by
  have hle : ∀ g : String × Value, g.2.text.length ≤ (Value.fieldText g).length := by
    intro g
    simp [Value.fieldText]
    omega
  induction fs generalizing f fuel done with
  | nil =>
    obtain ⟨fuel, rfl⟩ : ∃ k, fuel = k + 1 := ⟨fuel - 1, by omega⟩
    rw [List.map_singleton, List.intercalate_singleton] at hfuel ⊢
    have hlength := hle f
    have hdone : ((some f.1, f.2.reread readScalar) :: done.map fun g ↦ (some g.1, g.2)).reverse =
        (done.reverse ++ [(f.1, f.2.reread readScalar)]).map fun g ↦ (some g.1, g.2) := by
      rw [List.reverse_cons, ← List.map_reverse, List.map_append]
      rfl
    rw [fields?_field (h f List.mem_cons_self) (ends_closeObject rest) (by omega)]
    show some (objectOf ((some f.1, f.2.reread readScalar) :: done.map _).reverse, rest) = _
    rw [hdone, objectOf_map_some]
    rfl
  | cons g fs ih =>
    obtain ⟨fuel, rfl⟩ : ∃ k, fuel = k + 1 := ⟨fuel - 1, by omega⟩
    obtain ⟨hf, hfs⟩ := List.forall_mem_cons.1 h
    have hlength := hle f
    rw [List.map_cons, List.map_cons, List.intercalate_cons_cons] at hfuel ⊢
    simp only [List.length_append, List.length_singleton] at hfuel
    have hrest := ih hfs fuel ((f.1, f.2.reread readScalar) :: done) (by rw [List.map_cons]; omega)
    rw [List.append_assoc, List.append_assoc, List.singleton_append,
      fields?_field hf (ends_comma _) (by omega)]
    rw [← List.map_cons]
    show fields? fuel (((f.1, f.2.reread readScalar) :: done).map fun g ↦ (some g.1, g.2)) _ = _
    rw [hrest, List.reverse_cons, List.append_assoc]
    rfl

/-! ### Values -/

/-- The text of a value does not begin with a blank or a closing bracket. -/
theorem exists_text_eq_cons {v : Value} (hv : v.Printable readScalar) :
    ∃ c cs, v.text = c :: cs ∧ isOpening c = true := by
  cases hv with
  | null => exact ⟨'n', "ull".toList, rfl, by decide⟩
  | bool b => cases b <;> exact ⟨_, _, rfl, by decide⟩
  | integer hleast hgreatest =>
    obtain ⟨c, cs, hcs, hc⟩ := exists_cons_of_number? (number?_integer hleast hgreatest)
    exact ⟨c, cs, hcs, isOpening_of_number hc⟩
  | scalar h =>
    obtain ⟨c, cs, hcs, hc⟩ := exists_cons_of_number? h.number?
    refine ⟨c, cs, ?_, isOpening_of_number hc⟩
    rw [← hcs]
    exact String.toList_ofList
  | string s => exact ⟨_, _, Value.text_string s, by decide⟩
  | array h => exact ⟨_, _, Value.text_array _, by decide⟩
  | object h => exact ⟨_, _, Value.text_object _, by decide⟩

/-- A text is not empty, so there is a step to begin with. -/
theorem exists_fuel {v : Value} (hv : v.Printable readScalar) {fuel : ℕ}
    (h : 2 * v.text.length ≤ fuel) :
    ∃ k, fuel = k + 1 := by
  obtain ⟨c, cs, hcs, -⟩ := exists_text_eq_cons hv
  rw [hcs, List.length_cons] at h
  exact ⟨fuel - 1, by omega⟩

theorem readsBack_array {vs : List Value} (h : ∀ v ∈ vs, v.Printable readScalar)
    (ih : ∀ v ∈ vs, ReadsBack v) : ReadsBack (.array vs) := by
  intro fuel rest _ hfuel
  obtain ⟨fuel, rfl⟩ := exists_fuel (.array h) hfuel
  rw [Value.text_array] at hfuel ⊢
  rw [Value.reread_array]
  match vs with
  | [] => rfl
  | v :: vs =>
    obtain ⟨c, cs, hcs, hc⟩ := exists_text_eq_cons (h v List.mem_cons_self)
    obtain ⟨ds, hds⟩ := exists_intercalate_eq_cons c cs (vs.map Value.text)
    have helements := elements?_text ih fuel [] rest (by
      simp only [List.length_cons, List.length_append] at hfuel
      omega)
    rw [List.map_cons, hcs, hds, List.cons_append] at helements
    rw [List.map_cons, hcs, hds, List.cons_append, List.append_assoc, List.singleton_append,
      List.cons_append, value?_openArray hc, helements]
    rfl

theorem readsBack_object {fs : List (String × Value)} (h : ∀ f ∈ fs, f.2.Printable readScalar)
    (ih : ∀ f ∈ fs, ReadsBack f.2) : ReadsBack (.object fs) := by
  intro fuel rest _ hfuel
  obtain ⟨fuel, rfl⟩ := exists_fuel (.object h) hfuel
  rw [Value.text_object] at hfuel ⊢
  rw [Value.reread_object]
  match fs with
  | [] => rfl
  | f :: fs =>
    have hf : Value.fieldText f = '"' :: (f.1.toList.flatMap Text.Quoted.escapeJson ++
        '"' :: ':' :: f.2.text) := by
      simp [Value.fieldText, Text.Quoted.json, Text.Quoted.enclose]
    obtain ⟨ds, hds⟩ := exists_intercalate_eq_cons '"' _ (fs.map Value.fieldText)
    have hfields := fields?_text ih fuel [] rest (by
      simp only [List.length_cons, List.length_append] at hfuel
      omega)
    rw [List.map_cons, hf, hds, List.cons_append] at hfields
    rw [List.map_cons, hf, hds, List.cons_append, List.append_assoc, List.singleton_append,
      List.cons_append]
    exact hfields

/-- A printed value is read back, whatever follows it. -/
theorem readsBack {v : Value} (hv : v.Printable readScalar) : ReadsBack v := by
  induction hv with
  | null =>
    intro fuel rest _ hfuel
    obtain ⟨fuel, rfl⟩ := exists_fuel .null hfuel
    rfl
  | bool b =>
    intro fuel rest _ hfuel
    obtain ⟨fuel, rfl⟩ := exists_fuel (.bool b) hfuel
    cases b <;> rfl
  | integer hleast hgreatest =>
    intro fuel rest hrest hfuel
    obtain ⟨fuel, rfl⟩ := exists_fuel (.integer hleast hgreatest) hfuel
    exact value?_number (number?_integer hleast hgreatest) hrest fuel
  | @scalar s h =>
    intro fuel rest hrest hfuel
    obtain ⟨fuel, rfl⟩ := exists_fuel (.scalar h) hfuel
    have htext : (Value.number (.scalar s)).text = scalarStyle.write s := String.toList_ofList
    rw [htext]
    exact value?_number h.number? hrest fuel
  | string s =>
    intro fuel rest _ hfuel
    obtain ⟨fuel, rfl⟩ := exists_fuel (.string s) hfuel
    exact value?_string s rest fuel
  | array h ih => exact readsBack_array h ih
  | object h ih => exact readsBack_object h ih

theorem read?_compact {v : Value} (hv : v.Printable readScalar) :
    read? v.compact.toList = some (v.reread readScalar) := by
  have hread := readsBack hv (2 * v.text.length + 2) [] (fun c hc ↦ absurd hc (by simp)) (by omega)
  rw [List.append_nil] at hread
  rw [read?, ← Value.text, hread]
  rfl

/-- Printing in one line, and reading. -/
def Library.compact : Library where
  print := Value.compact
  read? text := Json.read? text.toList
  limit := deepest

/-- **A printed value is read back.** -/
theorem documented_compact : Library.compact.Documented readScalar where
  read?_print _ hv := read?_compact hv
  limit_eq := rfl

end RwxScene.Json
