import RwxScene.Command.Comment

/-!
# What stands in front of a comment

`IsText` describes without a scanner what remains of a line: the longest beginning in which every
number sign has its exclamation mark. Stripping gives this beginning without the marks
(`strip_eq_unmark`). The beginning ends in front of the first sign that is not marked, even if later
ones are, since a mark counts only where all signs before it have one.
-/

namespace RwxScene.Comment

/-- A number sign without its mark begins a comment. -/
theorem strip_sign {cs : List Char} (h : cs.head? ≠ some '!') : strip ('#' :: cs) = [] := by
  have hne : ∀ ds, cs ≠ '!' :: ds := fun ds hds ↦ h (by rw [hds, List.head?_cons])
  rw [strip, if_pos rfl]
  simpa using hne

/-! ### Marked beginnings -/

/-- Every number sign has an exclamation mark directly behind it. -/
def Marked (cs : List Char) : Prop := ∀ i : Nat, cs[i]? = some '#' → cs[i + 1]? = some '!'

/-- The characters but those exclamation marks that stand directly behind a number sign, if
`before` stands in front of them. -/
def unmarkAfter (before : Option Char) (cs : List Char) : List Char :=
  ((before :: cs.map some).zip cs).filterMap fun (b, c) ↦
    if b = some '#' ∧ c = '!' then none else some c

/-- The characters but those exclamation marks that stand directly behind a number sign. -/
def unmark (cs : List Char) : List Char := unmarkAfter none cs

/-- The longest beginning of a line in which every number sign is marked. -/
structure IsText (line front : List Char) : Prop where
  beginning : front <+: line
  marked : Marked front
  longest : ∀ p, p <+: line → Marked p → p.length ≤ front.length

theorem marked_nil : Marked [] := fun _ h ↦ absurd h (by simp)

theorem marked_cons {c : Char} {cs : List Char} :
    Marked (c :: cs) ↔ (c = '#' → cs.head? = some '!') ∧ Marked cs := by
  constructor
  · intro h
    refine ⟨fun hc ↦ ?_, fun i hi ↦ h (i + 1) hi⟩
    rw [List.head?_eq_getElem?]
    exact h 0 (congrArg some hc)
  · rintro ⟨hfirst, hrest⟩ i hi
    cases i with
    | zero =>
      rw [List.getElem?_cons_succ, ← List.head?_eq_getElem?]
      exact hfirst (Option.some.inj hi)
    | succ i => exact hrest i hi

theorem unmarkAfter_cons (before : Option Char) (c : Char) (cs : List Char) :
    unmarkAfter before (c :: cs) =
      if before = some '#' ∧ c = '!' then unmarkAfter (some c) cs
      else c :: unmarkAfter (some c) cs := by
  rw [unmarkAfter, List.map_cons, List.zip_cons_cons, List.filterMap_cons]
  by_cases h : before = some '#' ∧ c = '!' <;> simp [h, unmarkAfter]

/-- Only a number sign makes a difference to what stands behind it. -/
theorem unmarkAfter_of_ne {before : Option Char} (h : before ≠ some '#') (cs : List Char) :
    unmarkAfter before cs = unmark cs := by
  cases cs with
  | nil => rfl
  | cons c cs => simp [unmark, unmarkAfter_cons, h]

/-! ### The text of a line -/

/-- What stands in front of the comment of a line. -/
def text : List Char → List Char
  | [] => []
  | '#' :: '!' :: cs => '#' :: '!' :: text cs
  | c :: cs => if c = '#' then [] else c :: text cs

theorem isText_text (line : List Char) : IsText line (text line) := by
  fun_induction text line with
  | case1 => exact ⟨List.prefix_rfl, marked_nil, fun p hp _ ↦ hp.length_le⟩
  | case2 cs ih =>
    have hmark : Marked ('!' :: text cs) := marked_cons.2 ⟨fun h ↦ absurd h (by decide), ih.marked⟩
    refine ⟨List.cons_prefix_cons.2 ⟨rfl, List.cons_prefix_cons.2 ⟨rfl, ih.beginning⟩⟩,
      marked_cons.2 ⟨fun _ ↦ rfl, hmark⟩, fun p hp hmarked ↦ ?_⟩
    -- a beginning with both characters goes on with a marked beginning of the rest
    rcases p with - | ⟨a, - | ⟨b, p⟩⟩
    · exact Nat.zero_le _
    · exact Nat.succ_le_succ (Nat.zero_le _)
    · have hrest : p <+: cs := (List.cons_prefix_cons.1 (List.cons_prefix_cons.1 hp).2).2
      have hmarked : Marked p := (marked_cons.1 (marked_cons.1 hmarked).2).2
      exact Nat.succ_le_succ (Nat.succ_le_succ (ih.longest p hrest hmarked))
  | case3 cs hne =>
    refine ⟨List.nil_prefix, marked_nil, fun p hp hmarked ↦ ?_⟩
    cases p with
    | nil => exact Nat.le_refl _
    | cons a p =>
      -- the mark of the first sign would be in the line, too
      obtain ⟨rfl, ds, rfl⟩ := List.cons_prefix_cons.1 hp
      obtain ⟨es, rfl⟩ := List.head?_eq_some_iff.1 ((marked_cons.1 hmarked).1 rfl)
      exact absurd rfl (hne _ rfl)
  | case4 c cs hne hc ih =>
    refine ⟨List.cons_prefix_cons.2 ⟨rfl, ih.beginning⟩,
      marked_cons.2 ⟨fun h ↦ absurd h hc, ih.marked⟩, fun p hp hmarked ↦ ?_⟩
    cases p with
    | nil => exact Nat.zero_le _
    | cons a p =>
      exact Nat.succ_le_succ
        (ih.longest p (List.cons_prefix_cons.1 hp).2 (marked_cons.1 hmarked).2)

/-- There is one longest beginning. -/
theorem IsText.eq_text {line front : List Char} (h : IsText line front) : front = text line :=
  have hle := (isText_text line).longest front h.beginning h.marked
  (List.prefix_of_prefix_length_le h.beginning (isText_text line).beginning hle).eq_of_length_le
    (h.longest _ (isText_text line).beginning (isText_text line).marked)

theorem strip_eq_unmark (line : List Char) : strip line = unmark (text line) := by
  fun_induction text line with
  | case1 => rfl
  | case2 cs ih =>
    have hmark : unmarkAfter (some '#') ('!' :: text cs) = unmark (text cs) := by
      rw [unmarkAfter_cons, if_pos ⟨rfl, rfl⟩, unmarkAfter_of_ne (by decide)]
    rw [strip, ih, ← hmark]
    exact (unmarkAfter_cons none '#' _).symm
  | case3 cs hne =>
    exact strip_sign fun h ↦ (List.head?_eq_some_iff.1 h).elim fun ds hds ↦ hne ds rfl hds
  | case4 c cs hne hc ih =>
    have hrest : unmarkAfter (some c) (text cs) = unmark (text cs) :=
      unmarkAfter_of_ne (fun h ↦ hc (Option.some.inj h)) _
    rw [strip, if_neg hc, ih, ← hrest]
    · exact (unmarkAfter_cons none c _).symm
    · exact hne

/-- **Escaping and stripping.** Stripping undoes escaping, also with a comment behind. What it leaves
of any line is the longest beginning with no unmarked number sign, read without the marks. -/
theorem strip_undoes_escape :
    (∀ cs, strip (escape cs) = cs) ∧
      (∀ cs ds, ds.head? ≠ some '!' → strip (escape cs ++ '#' :: ds) = cs) ∧
        ∀ line, (∃ front, IsText line front) ∧
          ∀ front, IsText line front → strip line = unmark front := by
  refine ⟨strip_escape, fun cs ds hds ↦ ?_, fun line ↦ ⟨⟨_, isText_text line⟩, fun front h ↦ ?_⟩⟩
  · rw [strip_escape_append, strip_sign hds, List.append_nil]
  · rw [h.eq_text]
    exact strip_eq_unmark line

/-- A comment that begins with a number sign, behind a text that ends in one; and a line with a marked
sign behind the comment's. -/
theorem strip_undoes_escape_signs :
    "#!b".toList.head? ≠ some '!' ∧
      strip (escape "a#!#".toList ++ '#' :: "#!b".toList) = "a#!#".toList ∧
      IsText "#!!a#b#!".toList "#!!a".toList ∧
        strip "#!!a#b#!".toList = unmark "#!!a".toList := by
  have hds : "#!b".toList.head? ≠ some '!' := by decide
  have htext : IsText "#!!a#b#!".toList "#!!a".toList := isText_text "#!!a#b#!".toList
  exact ⟨hds, strip_undoes_escape.2.1 _ _ hds, htext, (strip_undoes_escape.2.2 _).2 _ htext⟩

example : unmark "#!!a".toList = "#!a".toList := by decide

end RwxScene.Comment
