import Mathlib.Data.List.TakeWhile
import RwxScene.Decimal.Numeral

/-!
# The grammar of numbers

`Numeral.Writes cs n` says how a numeral is made up of its parts, and that it stands for `n`. The
reader accepts exactly these (`Numeral.read?_eq_some_iff`). Integers have the same relation to
`WritesInteger` and `WritesNatural`.

A reader can take a part greedily because the next part does not begin with what the part is made
of: digits do not begin with a sign, and neither a point nor the letter of an exponent is a digit.
-/

namespace RwxScene.Decimal

/-! ### Parts of numbers -/

/-- A sign, which may be left out; `true` stands for minus. -/
inductive WritesSign : List Char → Bool → Prop
  | absent : WritesSign [] false
  | plus : WritesSign ['+'] false
  | minus : WritesSign ['-'] true

/-- Nothing but digits. -/
def AllDigits (cs : List Char) : Prop := ∀ c ∈ cs, c.isDigit = true

/-- The number with a sign put before it. -/
def withSign (negative : Bool) (n : Nat) : Int := if negative then -n else n

/-- An exponent, which may be left out. -/
inductive WritesExponent : List Char → Int → Prop
  | absent : WritesExponent [] 0
  | letter {letter : Char} {sign ds : List Char} {negative : Bool}
    (hletter : letter = 'e' ∨ letter = 'E') (hsign : WritesSign sign negative) (hne : ds ≠ [])
    (hds : AllDigits ds) : WritesExponent (letter :: (sign ++ ds))
      (withSign negative (Nat.ofDigitChars 10 ds 0))

/-- The digits behind the point with the point, which may be left out if there are none. -/
inductive WritesFraction : List Char → List Char → Prop
  | absent : WritesFraction [] []
  | point {ds : List Char} (hds : AllDigits ds) : WritesFraction ('.' :: ds) ds

/-- A numeral: a sign, digits with a point among them, an exponent. -/
inductive Numeral.Writes : List Char → Numeral → Prop
  | intro {sign whole fraction ds exponent : List Char} {negative : Bool} {e : Int}
    (hsign : WritesSign sign negative) (hwhole : AllDigits whole)
    (hfraction : WritesFraction fraction ds) (hne : whole ++ ds ≠ [])
    (hexponent : WritesExponent exponent e) :
    Writes (sign ++ (whole ++ (fraction ++ exponent)))
      ⟨negative, Nat.ofDigitChars 10 (whole ++ ds) 0, e - ds.length⟩

/-- An integer: a sign and digits. -/
inductive WritesInteger : List Char → Int → Prop
  | intro {sign ds : List Char} {negative : Bool} (hsign : WritesSign sign negative) (hne : ds ≠ [])
    (hds : AllDigits ds) : WritesInteger (sign ++ ds) (withSign negative (Nat.ofDigitChars 10 ds 0))

/-- A natural number: digits, and at most a plus sign before them. -/
inductive WritesNatural : List Char → Nat → Prop
  | intro {sign ds : List Char} (hsign : WritesSign sign false) (hne : ds ≠ [])
    (hds : AllDigits ds) : WritesNatural (sign ++ ds) (Nat.ofDigitChars 10 ds 0)

/-! ### Signs -/

/-- The text does not begin with a sign. -/
def Unsigned (cs : List Char) : Prop := ∀ c ∈ cs.head?, c ≠ '+' ∧ c ≠ '-'

theorem takeSign_append {sign cs : List Char} {negative : Bool} (hsign : WritesSign sign negative)
    (hcs : Unsigned cs) : takeSign (sign ++ cs) = (negative, cs) := by
  cases hsign with
  | plus => rfl
  | minus => rfl
  | absent =>
    rw [List.nil_append]
    unfold takeSign
    split
    · exact absurd rfl (hcs _ rfl).2
    · exact absurd rfl (hcs _ rfl).1
    · rfl

/-- What is taken off is a sign. -/
theorem exists_of_takeSign {cs rest : List Char} {negative : Bool}
    (h : takeSign cs = (negative, rest)) : ∃ sign, WritesSign sign negative ∧ cs = sign ++ rest := by
  unfold takeSign at h
  split at h
  · obtain ⟨rfl, rfl⟩ := Prod.mk.inj h
    exact ⟨['-'], .minus, rfl⟩
  · obtain ⟨rfl, rfl⟩ := Prod.mk.inj h
    exact ⟨['+'], .plus, rfl⟩
  · obtain ⟨rfl, rfl⟩ := Prod.mk.inj h
    exact ⟨[], .absent, rfl⟩

theorem ne_sign_of_isDigit {c : Char} (h : c.isDigit = true) : c ≠ '+' ∧ c ≠ '-' := by
  constructor
  · rintro rfl
    exact absurd h (by decide)
  · rintro rfl
    exact absurd h (by decide)

theorem AllDigits.unsigned {cs : List Char} (h : AllDigits cs) : Unsigned cs :=
  fun c hc ↦ ne_sign_of_isDigit (h c (List.mem_of_mem_head? hc))

/-! ### Digits -/

/-- The text does not begin with a digit. -/
def Undigited (cs : List Char) : Prop := ∀ c ∈ cs.head?, c.isDigit = false

theorem spanDigits_eq {ds cs : List Char} (hds : AllDigits ds) (hcs : Undigited cs) :
    spanDigits (ds ++ cs) = (ds, cs) := by
  have hnone : cs.takeWhile Char.isDigit = [] ∧ cs.dropWhile Char.isDigit = cs := by
    cases cs with
    | nil => exact ⟨rfl, rfl⟩
    | cons c cs =>
      have hc : ¬c.isDigit = true := by
        rw [hcs c rfl]
        exact Bool.false_ne_true
      exact ⟨List.takeWhile_cons_of_neg hc, List.dropWhile_cons_of_neg hc⟩
  rw [spanDigits, List.takeWhile_append_of_pos hds, List.dropWhile_append_of_pos hds, hnone.1,
    hnone.2, List.append_nil]

/-- What is taken off are digits. -/
theorem exists_of_spanDigits {cs ds rest : List Char} (h : spanDigits cs = (ds, rest)) :
    AllDigits ds ∧ cs = ds ++ rest := by
  have happend := spanDigits_append cs
  obtain ⟨rfl, rfl⟩ := Prod.mk.inj h
  exact ⟨fun _ hc ↦ List.mem_takeWhile_imp hc, happend.symm⟩

/-- Digits are read in base ten. -/
theorem ofDigits_eq (ds : List Char) : ofDigits ds = Nat.ofDigitChars 10 ds 0 := rfl

theorem isDigits_iff {ds : List Char} :
    (ds.isEmpty || !ds.all Char.isDigit) = false ↔ ds ≠ [] ∧ AllDigits ds := by
  simp [AllDigits]

theorem readDigits?_eq_some_iff {ds : List Char} {n : Nat} :
    readDigits? ds = some n ↔ ds ≠ [] ∧ AllDigits ds ∧ Nat.ofDigitChars 10 ds 0 = n := by
  rw [readDigits?, ofDigits_eq, Option.ite_none_left_eq_some, Bool.not_eq_true, isDigits_iff,
    Option.some.injEq, and_assoc]

/-! ### Numerals -/

theorem WritesExponent.undigited {cs : List Char} {e : Int} (h : WritesExponent cs e) :
    Undigited cs := by
  cases h with
  | absent => exact fun c hc ↦ absurd hc (by simp)
  | letter hletter =>
    intro c hc
    obtain rfl := Option.some.inj hc
    rcases hletter with rfl | rfl <;> decide

theorem readExponent?_cons {letter : Char} (hletter : letter = 'e' ∨ letter = 'E')
    {cs ds : List Char} {negative : Bool} (h : takeSign cs = (negative, ds)) :
    Numeral.readExponent? (letter :: cs) = (readDigits? ds).map (withSign negative) := by
  rw [Numeral.readExponent?, if_pos hletter, h, readDigits?]
  show (if _ then none else some (withSign negative (ofDigits ds))) = _
  split
  · rfl
  · rfl

theorem readExponent?_eq_some_iff {cs : List Char} {e : Int} :
    Numeral.readExponent? cs = some e ↔ WritesExponent cs e := by
  constructor
  · intro h
    cases cs with
    | nil =>
      obtain rfl := Option.some.inj h
      exact .absent
    | cons letter cs =>
      by_cases hletter : letter = 'e' ∨ letter = 'E'
      · rcases htake : takeSign cs with ⟨negative, ds⟩
        rw [readExponent?_cons hletter htake] at h
        obtain ⟨n, hn, rfl⟩ := Option.map_eq_some_iff.1 h
        obtain ⟨hne, hds, rfl⟩ := readDigits?_eq_some_iff.1 hn
        obtain ⟨sign, hsign, rfl⟩ := exists_of_takeSign htake
        exact .letter hletter hsign hne hds
      · rw [Numeral.readExponent?, if_neg hletter] at h
        exact absurd h (by simp)
  · intro h
    cases h with
    | absent => rfl
    | letter hletter hsign hne hds =>
      rw [readExponent?_cons hletter (takeSign_append hsign hds.unsigned),
        readDigits?_eq_some_iff.2 ⟨hne, hds, rfl⟩]
      rfl

/-- The digits behind the point, if there is one, and what follows. -/
def takeFraction : List Char → List Char × List Char
  | '.' :: cs => spanDigits cs
  | cs => ([], cs)

theorem takeFraction_append {fraction ds cs : List Char} {e : Int}
    (hfraction : WritesFraction fraction ds) (hcs : WritesExponent cs e) :
    takeFraction (fraction ++ cs) = (ds, cs) := by
  cases hfraction with
  | point hds => exact spanDigits_eq hds hcs.undigited
  | absent =>
    cases hcs with
    | absent => rfl
    | letter hletter => rcases hletter with rfl | rfl <;> rfl

theorem exists_of_takeFraction {cs ds rest : List Char} (h : takeFraction cs = (ds, rest)) :
    ∃ fraction, WritesFraction fraction ds ∧ cs = fraction ++ rest := by
  unfold takeFraction at h
  split at h
  · obtain ⟨hds, rfl⟩ := exists_of_spanDigits h
    exact ⟨'.' :: ds, .point hds, rfl⟩
  · obtain ⟨rfl, rfl⟩ := Prod.mk.inj h
    exact ⟨[], .absent, rfl⟩

theorem WritesFraction.undigited_append {fraction ds cs : List Char} {e : Int}
    (h : WritesFraction fraction ds) (hcs : WritesExponent cs e) : Undigited (fraction ++ cs) := by
  cases h with
  | absent => exact hcs.undigited
  | point =>
    intro c hc
    obtain rfl := Option.some.inj hc
    decide

/-- What follows the sign of a numeral begins with a digit or the point. -/
theorem unsigned_append {whole fraction ds exponent : List Char} (hwhole : AllDigits whole)
    (hfraction : WritesFraction fraction ds) (hne : whole ++ ds ≠ []) :
    Unsigned (whole ++ (fraction ++ exponent)) := by
  intro d hd
  cases whole with
  | cons c cs =>
    obtain rfl := Option.some.inj hd
    exact ne_sign_of_isDigit (hwhole c List.mem_cons_self)
  | nil =>
    cases hfraction with
    | absent => exact absurd rfl hne
    | point =>
      obtain rfl := Option.some.inj hd
      decide

theorem Numeral.read?_eq (cs : List Char) :
    read? cs =
      let (negative, cs) := takeSign cs
      let (whole, cs) := spanDigits cs
      let (ds, cs) := takeFraction cs
      if whole.isEmpty && ds.isEmpty then none
      else (readExponent? cs).map fun e ↦
        ⟨negative, Nat.ofDigitChars 10 (whole ++ ds) 0, e - ds.length⟩ := rfl

/-- **The reader of numerals accepts exactly their grammar.** -/
theorem Numeral.read?_eq_some_iff {cs : List Char} {n : Numeral} : read? cs = some n ↔ Writes cs n := by
  constructor
  · intro h
    rw [read?_eq] at h
    rcases htake : takeSign cs with ⟨negative, cs₁⟩
    rcases hspan : spanDigits cs₁ with ⟨whole, cs₂⟩
    rcases hpoint : takeFraction cs₂ with ⟨ds, exponent⟩
    rw [htake] at h
    simp only [hspan, hpoint] at h
    obtain ⟨hne, h⟩ := Option.ite_none_left_eq_some.1 h
    obtain ⟨e, hexponent, rfl⟩ := Option.map_eq_some_iff.1 h
    obtain ⟨sign, hsign, rfl⟩ := exists_of_takeSign htake
    obtain ⟨hwhole, rfl⟩ := exists_of_spanDigits hspan
    obtain ⟨fraction, hfraction, rfl⟩ := exists_of_takeFraction hpoint
    exact .intro hsign hwhole hfraction (by simpa using hne) (readExponent?_eq_some_iff.1 hexponent)
  · intro h
    cases h with
    | @intro sign whole fraction ds exponent negative e hsign hwhole hfraction hne hexponent =>
      rw [read?_eq, takeSign_append hsign (unsigned_append hwhole hfraction hne)]
      simp only [spanDigits_eq hwhole (hfraction.undigited_append hexponent),
        takeFraction_append hfraction hexponent, readExponent?_eq_some_iff.2 hexponent]
      exact if_neg (by simpa using hne)

/-! ### Integers -/

/-- **The reader of integers accepts exactly their grammar**, within the bounds. -/
theorem readInteger?_eq_some_iff {least greatest n : Int} {cs : List Char} :
    readInteger? least greatest cs = some n ↔ WritesInteger cs n ∧ least ≤ n ∧ n ≤ greatest := by
  rcases htake : takeSign cs with ⟨negative, ds⟩
  have hread : readInteger? least greatest cs = (readDigits? ds).bind fun m ↦
      if least ≤ withSign negative m ∧ withSign negative m ≤ greatest then some (withSign negative m)
      else none := by
    rw [readInteger?, htake]
    rfl
  rw [hread]
  constructor
  · intro h
    obtain ⟨m, hm, h⟩ := Option.bind_eq_some_iff.1 h
    obtain ⟨hne, hds, rfl⟩ := readDigits?_eq_some_iff.1 hm
    obtain ⟨hbounds, h⟩ := Option.ite_none_right_eq_some.1 h
    obtain rfl := Option.some.inj h
    obtain ⟨sign, hsign, rfl⟩ := exists_of_takeSign htake
    exact ⟨.intro hsign hne hds, hbounds⟩
  · rintro ⟨⟨hsign, hne, hds⟩, hbounds⟩
    obtain ⟨rfl, rfl⟩ := Prod.mk.inj ((takeSign_append hsign hds.unsigned).symm.trans htake)
    rw [readDigits?_eq_some_iff.2 ⟨hne, hds, rfl⟩]
    exact if_pos hbounds

/-- The text without a plus sign at its beginning. -/
def dropPlus : List Char → List Char
  | '+' :: cs => cs
  | cs => cs

theorem dropPlus_append {sign cs : List Char} (hsign : WritesSign sign false) (hcs : Unsigned cs) :
    dropPlus (sign ++ cs) = cs := by
  cases hsign with
  | plus => rfl
  | absent =>
    rw [List.nil_append]
    unfold dropPlus
    split
    · exact absurd rfl (hcs _ rfl).1
    · rfl

theorem exists_of_dropPlus {cs rest : List Char} (h : dropPlus cs = rest) :
    ∃ sign, WritesSign sign false ∧ cs = sign ++ rest := by
  unfold dropPlus at h
  split at h
  · exact ⟨['+'], .plus, congrArg _ h⟩
  · exact ⟨[], .absent, h⟩

/-- **The reader of natural numbers accepts exactly their grammar**, below the bound. -/
theorem readNatural?_eq_some_iff {bound n : Nat} {cs : List Char} :
    readNatural? bound cs = some n ↔ WritesNatural cs n ∧ n < bound := by
  have hread : readNatural? bound cs =
      (readDigits? (dropPlus cs)).bind fun n ↦ if n < bound then some n else none := rfl
  rw [hread]
  constructor
  · intro h
    obtain ⟨m, hm, h⟩ := Option.bind_eq_some_iff.1 h
    obtain ⟨hne, hds, rfl⟩ := readDigits?_eq_some_iff.1 hm
    obtain ⟨hbound, h⟩ := Option.ite_none_right_eq_some.1 h
    obtain rfl := Option.some.inj h
    obtain ⟨sign, hsign, hcs⟩ := exists_of_dropPlus (Eq.refl (dropPlus cs))
    rw [hcs, dropPlus_append hsign hds.unsigned]
    exact ⟨.intro hsign hne hds, hbound⟩
  · rintro ⟨⟨hsign, hne, hds⟩, hbound⟩
    rw [dropPlus_append hsign hds.unsigned, readDigits?_eq_some_iff.2 ⟨hne, hds, rfl⟩]
    exact if_pos hbound

end RwxScene.Decimal
