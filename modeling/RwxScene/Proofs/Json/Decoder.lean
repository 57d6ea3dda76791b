import RwxScene.Proofs.Json.Library
import RwxScene.Proofs.Json.Nesting

/-!
# Decoders undo encoders

A value is decoded just if enough levels are left for all arrays and objects in it, and then what
was encoded is found again (`Decoder.Reads`). This is said of the value as it is read where it was
printed, whatever is found where scalars were. Lists and records hand it on from their parts: a
decoder enters every part, so it needs one level more than the deepest of them.
-/

namespace RwxScene.Json

/-! ### Steps of a decoder -/

section Yields

variable {α β : Type} {found : Scalar → Value}

/-- The step looks at values that can be printed. It comes to `a` if so many levels are enough for
all of them, and to nothing if they are not. -/
structure Yields (found : Scalar → Value) (x : Option α) (depth : ℕ) (vs : List Value) (a : α) :
    Prop where
  printable : ∀ v ∈ vs, v.Printable found
  eq_some_iff : ∀ b, x = some b ↔ (∀ v ∈ vs, v.nesting ≤ depth) ∧ b = a

variable {x : Option α} {depth : ℕ} {vs ws : List Value} {a : α}

theorem yields_pure (depth : ℕ) (a : α) : Yields found (pure a) depth [] a :=
  ⟨by simp, fun b ↦ by simp [eq_comm]⟩

/-- A further step looks at further values. -/
theorem Yields.bind {f : α → Option β} {b : β} (hx : Yields found x depth vs a)
    (hf : Yields found (f a) depth ws b) : Yields found (x >>= f) depth (vs ++ ws) b where
  printable := List.forall_mem_append.2 ⟨hx.printable, hf.printable⟩
  eq_some_iff c := by
    rw [Option.bind_eq_bind, Option.bind_eq_some_iff, List.forall_mem_append]
    constructor
    · rintro ⟨a', ha', hc⟩
      obtain ⟨hvs, rfl⟩ := (hx.eq_some_iff a').1 ha'
      obtain ⟨hws, rfl⟩ := (hf.eq_some_iff c).1 hc
      exact ⟨⟨hvs, hws⟩, rfl⟩
    · rintro ⟨⟨hvs, hws⟩, rfl⟩
      exact ⟨a, (hx.eq_some_iff a).2 ⟨hvs, rfl⟩, (hf.eq_some_iff c).2 ⟨hws, rfl⟩⟩

/-- What is looked at inside an array or an object needs a level more. -/
theorem Yields.enter {f : ℕ → Option α} {v : Value} (hzero : f 0 = none)
    (hsucc : ∀ k, Yields found (f (k + 1)) k vs a)
    (hv : (∀ w ∈ vs, w.Printable found) → v.Printable found)
    (hnesting : ∀ n, v.nesting ≤ n ↔ ∃ k, n = k + 1 ∧ ∀ w ∈ vs, w.nesting ≤ k) (depth : ℕ) :
    Yields found (f depth) depth [v] a where
  printable := List.forall_mem_singleton.2 (hv (hsucc 0).printable)
  eq_some_iff b := by
    rw [List.forall_mem_singleton, hnesting]
    match depth with
    | 0 => simp [hzero]
    | k + 1 =>
      refine ((hsucc k).eq_some_iff b).trans (and_congr_left' ?_)
      simp

end Yields

namespace Decoder

variable {α : Type} {found : Scalar → Value}

/-- Where the value was printed, `a` is found again, provided that enough levels are left. -/
def Reads (d : Decoder α) (found : Scalar → Value) (v : Value) (a : α) : Prop :=
  ∀ depth : ℕ, Yields found (d depth (v.reread found)) depth [v] a

/-! ### Single values -/

/-- A value with nothing inside needs no level. -/
theorem reads_of_nesting_eq_zero {d : Decoder α} {v : Value} {a : α} (hv : v.Printable found)
    (hzero : v.nesting = 0) (h : ∀ depth, d depth (v.reread found) = some a) :
    d.Reads found v a := by
  refine fun depth ↦ ⟨List.forall_mem_singleton.2 hv, fun b ↦ ?_⟩
  rw [h, Option.some.injEq, List.forall_mem_singleton, hzero, eq_comm]
  exact (and_iff_right (Nat.zero_le depth)).symm

theorem reads_bool (b : Bool) : bool.Reads found (.bool b) b :=
  reads_of_nesting_eq_zero (.bool b) rfl fun _ ↦ rfl

theorem reads_string (s : String) : string.Reads found (.string s) s :=
  reads_of_nesting_eq_zero (.string s) rfl fun _ ↦ rfl

theorem Lasts.reads {s : Scalar} (h : Lasts found s) : scalar.Reads found (.scalar s) s := by
  rw [Value.scalar, if_pos h.finite]
  exact reads_of_nesting_eq_zero (.scalar h) rfl fun _ ↦ h.survives

theorem reads_integer {least greatest n : ℤ} (hleast : -2 ^ 63 ≤ least)
    (hgreatest : greatest < 2 ^ 64) (h : least ≤ n ∧ n ≤ greatest) :
    (integer least greatest).Reads found (.integer n) n :=
  reads_of_nesting_eq_zero (.integer (hleast.trans h.1) (h.2.trans_lt hgreatest)) rfl
    fun _ ↦ if_pos h

theorem reads_natural {bound n : ℕ} (hbound : bound ≤ 2 ^ 64) (h : n < bound) :
    (natural bound).Reads found (.natural n) n := by
  have hn : 0 ≤ (n : ℤ) ∧ (n : ℤ) < bound := by omega
  exact reads_of_nesting_eq_zero (.integer (by omega) (by omega)) rfl fun _ ↦ if_pos hn

theorem reads_choice [Vocabulary α] (a : α) : choice.Reads found (.string (Vocabulary.word a)) a :=
  reads_of_nesting_eq_zero (.string _) rfl fun _ ↦ Vocabulary.ofWord?_word a

/-! ### Options -/

theorem reads_option_none (d : Decoder α) : (option d).Reads found .null none :=
  reads_of_nesting_eq_zero .null rfl fun _ ↦ rfl

theorem Reads.option {d : Decoder α} {v : Value} {a : α} (h : d.Reads found v a)
    (hv : v.reread found ≠ .null) : (Decoder.option d).Reads found v (some a) := by
  refine fun depth ↦ ⟨(h depth).printable, fun b ↦ ?_⟩
  have hsome : Decoder.option d depth (v.reread found) = (d depth (v.reread found)).map some := by
    rw [Decoder.option]
    exact hv
  rw [hsome, Option.map_eq_some_iff]
  constructor
  · rintro ⟨c, hc, rfl⟩
    obtain ⟨hle, rfl⟩ := ((h depth).eq_some_iff c).1 hc
    exact ⟨hle, rfl⟩
  · rintro ⟨hle, rfl⟩
    exact ⟨a, ((h depth).eq_some_iff a).2 ⟨hle, rfl⟩, rfl⟩

/-- A text that may be missing. -/
theorem reads_option_string (s : Option String) :
    (option string).Reads found (.option .string s) s := by
  match s with
  | none => exact reads_option_none string
  | some s => exact (reads_string s).option (by simp [Value.reread])

/-! ### Lists -/

theorem yields_mapM {d : Decoder α} {vs : List Value} {as : List α}
    (h : List.Forall₂ (d.Reads found) vs as) (depth : ℕ) :
    Yields found ((vs.map (Value.reread found)).mapM (d depth)) depth vs as := by
  induction h with
  | nil => exact yields_pure depth []
  | @cons v a vs as hv _ ih =>
    have hvs : v :: vs = [v] ++ (vs ++ []) := by rw [List.append_nil, List.singleton_append]
    rw [List.map_cons, List.mapM_cons, hvs]
    exact (hv depth).bind (ih.bind (yields_pure depth (a :: as)))

theorem reads_array {d : Decoder α} {vs : List Value} {as : List α}
    (h : List.Forall₂ (d.Reads found) vs as) : (list d).Reads found (.array vs) as := by
  rw [Reads, Value.reread_array]
  exact Yields.enter (f := fun depth ↦ list d depth (.array (vs.map (Value.reread found)))) rfl
    (yields_mapM h) .array fun _ ↦ Value.nesting_array_le

/-- Elements that are found again make a list that is found again. -/
theorem reads_list {d : Decoder α} {f : α → Value} {as : List α}
    (h : ∀ a ∈ as, d.Reads found (f a) a) : (list d).Reads found (.list f as) as :=
  reads_array (List.forall₂_map_left_iff.2 (List.forall₂_same.2 h))

/-! ### Records -/

/-- The fields of a record as they are found where the record was printed. -/
def Fields.ofPrinted (found : Scalar → Value) (fields : List (String × Value)) (depth : ℕ) :
    Fields :=
  ⟨false, fields.map fun f ↦ (f.1, f.2.reread found), depth⟩

section Fields

variable {fields : List (String × Value)} {name : String} {depth : ℕ} {d : Decoder α} {v : Value}
  {a : α}

theorem lookup_map_reread (fields : List (String × Value)) (name : String) :
    (fields.map fun f ↦ (f.1, f.2.reread found)).lookup name =
      (fields.lookup name).map (Value.reread found) := by
  induction fields with
  | nil => rfl
  | cons f fields ih =>
    rw [List.map_cons, List.lookup_cons, List.lookup_cons, ih]
    split <;> rfl

theorem Reads.required (h : d.Reads found v a) (hname : fields.lookup name = some v) :
    Yields found ((Fields.ofPrinted found fields depth).required name d) depth [v] a := by
  rw [Fields.required, Fields.ofPrinted, lookup_map_reread, hname]
  exact h depth

theorem Reads.optional {a : Option α} (h : (Decoder.option d).Reads found v a)
    (hname : fields.lookup name = some v) :
    Yields found ((Fields.ofPrinted found fields depth).optional name d) depth [v] a := by
  rw [Fields.optional, Fields.ofPrinted, lookup_map_reread, hname]
  exact h depth

theorem Reads.withDefault (h : d.Reads found v a) (hname : fields.lookup name = some v)
    (fallback : α) :
    Yields found ((Fields.ofPrinted found fields depth).withDefault name fallback d) depth [v]
      a := by
  rw [Fields.withDefault, Fields.ofPrinted, lookup_map_reread, hname]
  exact h depth

theorem yields_withDefault (hname : fields.lookup name = none) (fallback : α) :
    Yields found ((Fields.ofPrinted found fields depth).withDefault name fallback d) depth []
      fallback := by
  rw [Fields.withDefault, Fields.ofPrinted, lookup_map_reread, hname]
  exact yields_pure depth fallback

end Fields

theorem distinct_of_nodup (names : List String) {fields : List (String × Value)}
    (h : (fields.map Prod.fst).Nodup) : distinct names fields = true := by
  rw [distinct, List.all_eq_true]
  intro name _
  refine decide_eq_true ?_
  have hcount : (fields.filter (·.1 == name)).length = (fields.map Prod.fst).count name := by
    rw [List.count, List.countP_map, List.countP_eq_length_filter]
    rfl
  rw [hcount]
  exact List.nodup_iff_count_le_one.1 h name

/-- A record is found again if its fields are. -/
theorem reads_record {names : List String} (keys : List String) {build : Fields → Option α}
    {fields : List (String × Value)} {a : α} (hkeys : fields.map Prod.fst = keys)
    (hnodup : keys.Nodup)
    (h : ∀ depth,
      Yields found (build (.ofPrinted found fields depth)) depth (fields.map Prod.snd) a) :
    (record names build).Reads found (.object fields) a := by
  have hdistinct : distinct names (fields.map fun f ↦ (f.1, f.2.reread found)) = true := by
    refine distinct_of_nodup names ?_
    rw [List.map_map]
    exact hkeys.symm ▸ hnodup
  rw [Reads, Value.reread_object]
  refine Yields.enter
    (f := fun depth ↦
      record names build depth (.object (fields.map fun f ↦ (f.1, f.2.reread found)))) rfl
    (fun depth ↦ ?_) (fun hv ↦ .object (List.forall_mem_map.1 hv)) fun n ↦ ?_
  · show Yields found (if distinct names _ then _ else none) _ _ _
    rw [if_pos hdistinct]
    exact h depth
  · rw [Value.nesting_object_le]
    simp only [List.forall_mem_map]

end Decoder

end RwxScene.Json
