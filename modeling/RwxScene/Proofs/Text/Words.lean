import Mathlib
import RwxScene.Text.Blank

/-!
# The words of a text

`HasWords` says which words a text is made of, and `Spells` which words are alike but for capitals.
Both are described by the characters alone. Cutting a text at its blanks gives exactly its words
(`hasWords_iff`), and making a word small gives exactly what it spells (`spells_iff`).
-/

namespace RwxScene.Text

/-! ### Words -/

/-- The characters with the property `White_Space`, by their numbers. -/
def whiteSpace : List ℕ :=
  [0x9, 0xa, 0xb, 0xc, 0xd, 0x20, 0x85, 0xa0, 0x1680, 0x2000, 0x2001, 0x2002, 0x2003, 0x2004,
    0x2005, 0x2006, 0x2007, 0x2008, 0x2009, 0x200a, 0x2028, 0x2029, 0x202f, 0x205f, 0x3000]

/-- A text is made of these words if they are its longest runs of characters other than white space,
in order. -/
inductive HasWords : List Char → List String → Prop
  | nil : HasWords [] []
  | space {c : Char} {cs : List Char} {ws : List String} (hc : c.toNat ∈ whiteSpace)
    (hcs : HasWords cs ws) : HasWords (c :: cs) ws
  | word {run cs : List Char} {ws : List String} (hne : run ≠ [])
    (hrun : ∀ c ∈ run, c.toNat ∉ whiteSpace) (hend : ∀ c ∈ cs.head?, c.toNat ∈ whiteSpace)
    (hcs : HasWords cs ws) : HasWords (run ++ cs) (String.ofList run :: ws)

theorem isBlank_iff {c : Char} : isBlank c = true ↔ c.toNat ∈ whiteSpace := by
  simp only [isBlank, whiteSpace, Bool.or_eq_true, Bool.and_eq_true, decide_eq_true_eq, beq_iff_eq,
    List.mem_cons, List.not_mem_nil, or_false]
  omega

theorem words_space {c : Char} (hc : c.toNat ∈ whiteSpace) (cs : List Char) :
    words (c :: cs) = words cs :=
  congrArg (List.map String.ofList) (if_pos (isBlank_iff.2 hc))

/-- In front of white space, and at the end of the text, a character is a run of its own. -/
theorem runs_cons_of_end {c : Char} {cs : List Char} (hc : c.toNat ∉ whiteSpace)
    (hend : ∀ d ∈ cs.head?, d.toNat ∈ whiteSpace) : runs (c :: cs) = [c] :: runs cs := by
  refine (if_neg (mt isBlank_iff.1 hc)).trans ?_
  cases cs with
  | nil => rfl
  | cons d cs =>
    cases runs (d :: cs) with
    | nil => rfl
    | cons run rest => exact if_pos (isBlank_iff.2 (hend d rfl))

/-- A character in front of a run belongs to it. -/
theorem runs_cons_of_run {c d : Char} {cs run : List Char} {rest : List (List Char)}
    (hc : c.toNat ∉ whiteSpace) (hd : d.toNat ∉ whiteSpace) (h : runs (d :: cs) = run :: rest) :
    runs (c :: d :: cs) = (c :: run) :: rest := by
  refine (if_neg (mt isBlank_iff.1 hc)).trans ?_
  rw [h]
  exact if_neg (mt isBlank_iff.1 hd)

theorem runs_append {run cs : List Char} (hne : run ≠ []) (hrun : ∀ c ∈ run, c.toNat ∉ whiteSpace)
    (hend : ∀ c ∈ cs.head?, c.toNat ∈ whiteSpace) : runs (run ++ cs) = run :: runs cs := by
  induction run with
  | nil => exact absurd rfl hne
  | cons c run ih =>
    obtain ⟨hc, hrun⟩ := List.forall_mem_cons.1 hrun
    cases run with
    | nil => exact runs_cons_of_end hc hend
    | cons d run =>
      exact runs_cons_of_run hc (List.forall_mem_cons.1 hrun).1 (ih (List.cons_ne_nil d run) hrun)

theorem words_append {run cs : List Char} (hne : run ≠ []) (hrun : ∀ c ∈ run, c.toNat ∉ whiteSpace)
    (hend : ∀ c ∈ cs.head?, c.toNat ∈ whiteSpace) :
    words (run ++ cs) = String.ofList run :: words cs := by
  rw [words, runs_append hne hrun hend, List.map_cons, words]

theorem HasWords.words_eq {cs : List Char} {ws : List String} (h : HasWords cs ws) :
    words cs = ws := by
  induction h with
  | nil => rfl
  | space hc _ ih => rw [words_space hc, ih]
  | word hne hrun hend _ ih => rw [words_append hne hrun hend, ih]

/-- A text that does not begin with white space begins with a longest run. -/
theorem exists_run {c : Char} (hc : c.toNat ∉ whiteSpace) (cs : List Char) :
    ∃ run rest, c :: cs = run ++ rest ∧ run ≠ [] ∧ (∀ d ∈ run, d.toNat ∉ whiteSpace) ∧
      ∀ d ∈ rest.head?, d.toNat ∈ whiteSpace := by
  have hsingle : ∀ d ∈ [c], d.toNat ∉ whiteSpace := List.forall_mem_singleton.2 hc
  induction cs generalizing c with
  | nil => exact ⟨[c], [], rfl, List.cons_ne_nil c [], hsingle, fun d hd ↦ nomatch hd⟩
  | cons d cs ih =>
    by_cases hd : d.toNat ∈ whiteSpace
    · refine ⟨[c], d :: cs, rfl, List.cons_ne_nil c [], hsingle, fun e he ↦ ?_⟩
      obtain rfl := Option.some.inj he
      exact hd
    · obtain ⟨run, rest, hsplit, -, hrun, hend⟩ := ih hd (List.forall_mem_singleton.2 hd)
      exact ⟨c :: run, rest, congrArg (c :: ·) hsplit, List.cons_ne_nil c run,
        List.forall_mem_cons.2 ⟨hc, hrun⟩, hend⟩

theorem hasWords_words (cs : List Char) : HasWords cs (words cs) := by
  induction hn : cs.length using Nat.strong_induction_on generalizing cs with
  | _ n ih =>
    cases cs with
    | nil => exact .nil
    | cons c cs =>
      by_cases hc : c.toNat ∈ whiteSpace
      · rw [words_space hc]
        exact .space hc (ih _ (by simp [← hn]) cs rfl)
      · obtain ⟨run, rest, hsplit, hne, hrun, hend⟩ := exists_run hc cs
        have hlt : rest.length < n := by
          have := List.length_pos_iff.2 hne
          rw [← hn, hsplit, List.length_append]
          omega
        rw [hsplit, words_append hne hrun hend]
        exact .word hne hrun hend (ih _ hlt rest rfl)

/-- Cutting a text at its blanks gives its words. -/
theorem hasWords_iff {cs : List Char} {ws : List String} : HasWords cs ws ↔ words cs = ws :=
  ⟨HasWords.words_eq, fun h ↦ h ▸ hasWords_words cs⟩

/-! ### Capitals -/

/-- The second character is the first one made small, where it is a capital of ASCII, or the first
one itself. -/
def MadeSmall (c d : Char) : Prop :=
  if 65 ≤ c.toNat ∧ c.toNat ≤ 90 then d.toNat = c.toNat + 32 else d = c

/-- The word is this one in small letters, but may have capitals. -/
def Spells (w s : String) : Prop := List.Forall₂ MadeSmall w.toList s.toList

theorem madeSmall_iff {c d : Char} : MadeSmall c d ↔ c.toLower = d := by
  have hcapital : 65 ≤ c.toNat ∧ c.toNat ≤ 90 ↔ c.val ≥ 'A'.val ∧ c.val ≤ 'Z'.val := by
    rw [ge_iff_le, UInt32.le_iff_toNat_le, UInt32.le_iff_toNat_le]
    rfl
  rw [MadeSmall, Char.toLower]
  by_cases h : c.val ≥ 'A'.val ∧ c.val ≤ 'Z'.val
  · rw [if_pos (hcapital.2 h), dif_pos h, Char.ext_iff, ← UInt32.toNat_inj, UInt32.toNat_add]
    have := (hcapital.2 h).2
    show d.toNat = c.toNat + 32 ↔ (c.toNat + 32) % 2 ^ 32 = d.toNat
    omega
  · rw [if_neg (mt hcapital.1 h), dif_neg h, eq_comm]

/-- Making a word small gives what it spells. -/
theorem spells_iff {w s : String} : Spells w s ↔ lower w = s := by
  have hsmall : MadeSmall = fun c d ↦ c.toLower = d := by
    funext c d
    exact propext madeSmall_iff
  rw [Spells, lower, String.ofList_eq, hsmall, ← List.forall₂_map_left_iff (R := Eq),
    List.forall₂_eq_eq_eq]

end RwxScene.Text
