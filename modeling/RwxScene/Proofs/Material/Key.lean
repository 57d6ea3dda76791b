import Mathlib
import Std.Data.String.ToInt
import RwxScene.Material.Signature
import RwxScene.Proofs.Decimal.Fixed
import RwxScene.Proofs.Scalar.Alike

/-!
# Signatures as keys

A signature can be read from its front, word by word. A flag has one character; a label, the tag and
a number have no separator in them; a name is as long as the number in front of it says, so it may
hold any text. Thus materials have one signature just if they have the same choices, names and tag
and if their numbers, after zero is added, are written alike with six decimals
(`Material.signature_eq_signature_iff`).
-/

namespace RwxScene

namespace Signature

/-! ### Words -/

/-- A word ends where a character begins that is not in it. -/
theorem cut {c : Char} {v w r s : List Char} (hv : c ∉ v) (hw : c ∉ w) (hr : r.head? = some c)
    (hs : s.head? = some c) (h : v ++ r = w ++ s) : v = w ∧ r = s := by
  obtain ⟨r, rfl⟩ := List.head?_eq_some_iff.1 hr
  obtain ⟨s, rfl⟩ := List.head?_eq_some_iff.1 hs
  obtain ⟨hword, hrest⟩ := append_cons_inj_left hv hw h
  exact ⟨hword, congrArg (c :: ·) hrest⟩

theorem cut_flag {a b : Bool} {r s : List Char}
    (h : (flag a).toList ++ r = (flag b).toList ++ s) : a = b ∧ r = s := by
  have hsize : ∀ b, (flag b).toList.length = 1 := by decide
  obtain ⟨hflag, hrest⟩ := List.append_inj h ((hsize a).trans (hsize b).symm)
  have hinj : ∀ a b, (flag a).toList = (flag b).toList → a = b := by decide
  exact ⟨hinj a b hflag, hrest⟩

theorem cut_scalar {x y : Scalar} {c : Char} {r s : List Char} (hc : c = ',' ∨ c = '|')
    (hr : r.head? = some c) (hs : s.head? = some c)
    (h : (scalar x).toList ++ r = (scalar y).toList ++ s) : scalar x = scalar y ∧ r = s := by
  have hfree : ∀ x, c ∉ (scalar x).toList := by
    intro x
    rw [scalar, String.toList_ofList]
    rcases hc with rfl | rfl <;> exact Decimal.notMem_fixed rfl (by decide) _
  obtain ⟨hword, hrest⟩ := cut (hfree x) (hfree y) hr hs h
  exact ⟨String.toList_inj.1 hword, hrest⟩

/-- An integer has no character but digits and a sign. -/
theorem notMem_toString {c : Char} (hc : c.isDigit = false) (hsign : c ≠ '-') (t : Int) :
    c ∉ (toString t).toList := by
  rw [Int.toString_eq_repr]
  match t with
  | .ofNat n =>
    show c ∉ (Nat.repr n).toList
    rw [Nat.toList_repr]
    exact Decimal.notMem_toDigits hc n
  | .negSucc n =>
    show c ∉ ("-" ++ Nat.repr (n + 1)).toList
    rw [String.toList_append, Nat.toList_repr, List.mem_append]
    rintro (h | h)
    · exact hsign (List.mem_singleton.1 h)
    · exact Decimal.notMem_toDigits hc _ h

theorem cut_tag {t u : Int} {r s : List Char} (hr : r.head? = some '|') (hs : s.head? = some '|')
    (h : (toString t).toList ++ r = (toString u).toList ++ s) : t = u ∧ r = s := by
  have hfree := notMem_toString (c := '|') rfl (by decide)
  obtain ⟨hword, hrest⟩ := cut (hfree t) (hfree u) hr hs h
  replace hword := String.toList_inj.1 hword
  rw [Int.toString_eq_repr, Int.toString_eq_repr] at hword
  exact ⟨Int.repr_injective hword, hrest⟩

/-- The label of a choice. -/
theorem cut_label {α : Type} {label : α → String} (hinj : Function.Injective label)
    (hfree : ∀ a, '|' ∉ (label a).toList) {a b : α} {r s : List Char} (hr : r.head? = some '|')
    (hs : s.head? = some '|') (h : (label a).toList ++ r = (label b).toList ++ s) :
    a = b ∧ r = s := by
  obtain ⟨hword, hrest⟩ := cut (hfree a) (hfree b) hr hs h
  exact ⟨hinj (String.toList_inj.1 hword), hrest⟩

theorem lightSampling_injective : Function.Injective lightSampling := by
  rintro (_ | _) (_ | _) h
  all_goals first | rfl | exact absurd h (by decide)

theorem geometrySampling_injective : Function.Injective geometrySampling := by
  rintro (_ | _ | _) (_ | _ | _) h
  all_goals first | rfl | exact absurd h (by decide)

theorem mode_injective : Function.Injective mode := by
  rintro (_ | _ | _) (_ | _ | _) h
  all_goals first | rfl | exact absurd h (by decide)

theorem addressMode_injective : Function.Injective addressMode := by
  rintro (_ | _ | _) (_ | _ | _) h
  all_goals first | rfl | exact absurd h (by decide)

/-! ### Names -/

/-- A text is cut in one way only after so many bytes. -/
theorem cut_bytes {v w : String} {r s : List Char} (hsize : v.utf8ByteSize = w.utf8ByteSize)
    (h : v.toList ++ r = w.toList ++ s) : v = w ∧ r = s := by
  -- one begins with the other one, and what it has more takes no bytes
  have hnil : ∀ {v w : String} {d : List Char}, v.utf8ByteSize = w.utf8ByteSize →
      w.toList = v.toList ++ d → d = [] := by
    intro v w d hsize hw
    obtain rfl : w = v ++ String.ofList d := by
      rw [← String.toList_inj, hw, String.toList_append, String.toList_ofList]
    rw [String.utf8ByteSize_append, Nat.left_eq_add] at hsize
    exact String.ofList_eq_empty_iff.1 (String.utf8ByteSize_eq_zero_iff.1 hsize)
  rcases List.append_eq_append_iff.1 h with ⟨d, hw, hrest⟩ | ⟨d, hv, hrest⟩
  · obtain rfl := hnil hsize hw
    exact ⟨String.toList_inj.1 (hw.trans (List.append_nil _)).symm, hrest⟩
  · obtain rfl := hnil hsize.symm hv
    exact ⟨String.toList_inj.1 (hv.trans (List.append_nil _)), hrest.symm⟩

/-- What all names of one kind begin with. -/
def nameStart (label : String) : List Char := "|".toList ++ label.toList

theorem toList_name_none (label : String) (r : List Char) :
    (name label none).toList ++ r = nameStart label ++ '-' :: r := by
  rw [name, String.toList_append, String.toList_append, List.append_assoc]
  rfl

theorem toList_name_some (label v : String) (r : List Char) :
    (name label (some v)).toList ++ r =
      nameStart label ++ (Nat.toDigits 10 v.utf8ByteSize ++ ':' :: (v.toList ++ r)) := by
  simp only [name, String.toList_append, Nat.toString_eq_repr, Nat.toList_repr, List.append_assoc]
  rfl

/-- A length begins with a digit. -/
theorem toDigits_append_ne_dash (n : ℕ) (r s : List Char) :
    '-' :: r ≠ Nat.toDigits 10 n ++ s := by
  intro h
  have hdash : '-' ∉ Nat.toDigits 10 n := Decimal.notMem_toDigits rfl n
  match hdigits : Nat.toDigits 10 n with
  | [] => exact Nat.toDigits_ne_nil hdigits
  | d :: ds =>
    rw [hdigits] at h hdash
    exact hdash ((List.cons.inj h).1 ▸ List.mem_cons_self)

theorem toDigits_injective : Function.Injective (Nat.toDigits 10) := by
  intro m n h
  rw [← Nat.ofDigitChars_ten_toDigits (n := m), h, Nat.ofDigitChars_ten_toDigits]

/-- The length in front of a name says where it ends, and no name is not the empty name. -/
theorem cut_name {label : String} {a b : Option String} {r s : List Char}
    (h : (name label a).toList ++ r = (name label b).toList ++ s) : a = b ∧ r = s := by
  rcases a with _ | v <;> rcases b with _ | w
  · exact ⟨rfl, List.append_cancel_left h⟩
  · rw [toList_name_none, toList_name_some] at h
    exact absurd (List.append_cancel_left h) (toDigits_append_ne_dash _ _ _)
  · rw [toList_name_none, toList_name_some] at h
    exact absurd (List.append_cancel_left h).symm (toDigits_append_ne_dash _ _ _)
  · rw [toList_name_some, toList_name_some] at h
    have hcolon : ∀ n, ':' ∉ Nat.toDigits 10 n := Decimal.notMem_toDigits rfl
    obtain ⟨hsize, h⟩ := cut (hcolon _) (hcolon _) rfl rfl (List.append_cancel_left h)
    obtain ⟨rfl, hrest⟩ := cut_bytes (toDigits_injective hsize) (List.cons.inj h).2
    exact ⟨rfl, hrest⟩

end Signature

/-! ### Materials -/

namespace Material

/-- The eight numbers of a material. -/
def scalars (m : Material) : List Scalar :=
  [m.color.red, m.color.green, m.color.blue, m.opacity, m.surface.ambient, m.surface.diffuse,
    m.surface.specular, m.ratio]

/-- The materials have everything but their numbers in common. -/
structure SameTraits (a b : Material) : Prop where
  colorExplicit : a.colorExplicit = b.colorExplicit
  lightSampling : a.lightSampling = b.lightSampling
  geometrySampling : a.geometrySampling = b.geometrySampling
  textureModes : a.textureModes = b.textureModes
  mode : a.mode = b.mode
  texture : a.texture = b.texture
  mask : a.mask = b.mask
  normalMap : a.normalMap = b.normalMap
  specularMap : a.specularMap = b.specularMap
  tint : a.tint = b.tint
  addressMode : a.addressMode = b.addressMode
  collision : a.collision = b.collision
  tag : a.tag = b.tag

/-- The materials are equal, as numbers are compared: zeros are equal whatever their signs, and what
is not a number is equal to nothing. -/
def Agrees (a b : Material) : Prop :=
  a.SameTraits b ∧ List.Forall₂ (fun x y ↦ (x == y) = true) a.scalars b.scalars

open Signature in
/-- A signature as one chain of words. -/
theorem toList_signature (m : Material) :
    m.signature.text.toList =
      "c".toList ++ ((flag m.colorExplicit).toList ++ (":".toList ++
      ((scalar m.color.red).toList ++ (",".toList ++ ((scalar m.color.green).toList ++
      (",".toList ++ ((scalar m.color.blue).toList ++ ("|o".toList ++
      ((scalar m.opacity).toList ++ ("|s".toList ++ ((scalar m.surface.ambient).toList ++
      (",".toList ++ ((scalar m.surface.diffuse).toList ++ (",".toList ++
      ((scalar m.surface.specular).toList ++ ("|ls".toList ++
      ((Signature.lightSampling m.lightSampling).toList ++ ("|gs".toList ++
      ((Signature.geometrySampling m.geometrySampling).toList ++ ("|tm".toList ++
      ((flag m.textureModes.lit).toList ++ ((flag m.textureModes.foreshorten).toList ++
      ((flag m.textureModes.filter).toList ++ ("|mm".toList ++
      ((Signature.mode m.mode).toList ++ ((name "t" m.texture).toList ++
      ((name "m" m.mask).toList ++ ((name "n" m.normalMap).toList ++
      ((name "sp" m.specularMap).toList ++ ("|ti".toList ++ ((flag m.tint).toList ++
      ("|ta".toList ++ ((Signature.addressMode m.addressMode).toList ++ ("|co".toList ++
      ((flag m.collision).toList ++ ("|tg".toList ++ ((toString m.tag).toList ++ ("|r".toList ++
      (scalar m.ratio).toList)))))))))))))))))))))))))))))))))))))) := by
  unfold signature
  simp only [String.toList_append, List.append_assoc]

open Signature in
/-- A signature is read word by word. -/
theorem words_eq_of_signature_eq {a b : Material} (h : a.signature = b.signature) :
    a.SameTraits b ∧ a.scalars.map scalar = b.scalars.map scalar := by
  have hname : ∀ (label : String) (x : Option String) (r : List Char),
      ((name label x).toList ++ r).head? = some '|' := by
    intro label x r
    rcases x with _ | v
    · rw [toList_name_none]
      rfl
    · rw [toList_name_some]
      rfl
  have htext := congrArg (·.text.toList) h
  simp only [toList_signature] at htext
  replace h := List.append_cancel_left htext
  obtain ⟨hexplicit, h⟩ := cut_flag h
  obtain ⟨hred, h⟩ := cut_scalar (.inl rfl) rfl rfl (List.append_cancel_left h)
  obtain ⟨hgreen, h⟩ := cut_scalar (.inl rfl) rfl rfl (List.append_cancel_left h)
  obtain ⟨hblue, h⟩ := cut_scalar (.inr rfl) rfl rfl (List.append_cancel_left h)
  obtain ⟨hopacity, h⟩ := cut_scalar (.inr rfl) rfl rfl (List.append_cancel_left h)
  obtain ⟨hambient, h⟩ := cut_scalar (.inl rfl) rfl rfl (List.append_cancel_left h)
  obtain ⟨hdiffuse, h⟩ := cut_scalar (.inl rfl) rfl rfl (List.append_cancel_left h)
  obtain ⟨hspecular, h⟩ := cut_scalar (.inr rfl) rfl rfl (List.append_cancel_left h)
  obtain ⟨hlight, h⟩ := cut_label lightSampling_injective (by rintro (_ | _) <;> decide) rfl rfl
    (List.append_cancel_left h)
  obtain ⟨hgeometry, h⟩ := cut_label geometrySampling_injective
    (by rintro (_ | _ | _) <;> decide) rfl rfl (List.append_cancel_left h)
  obtain ⟨hlit, h⟩ := cut_flag (List.append_cancel_left h)
  obtain ⟨hforeshorten, h⟩ := cut_flag h
  obtain ⟨hfilter, h⟩ := cut_flag h
  obtain ⟨hmode, h⟩ := cut_label mode_injective (by rintro (_ | _ | _) <;> decide)
    (hname _ _ _) (hname _ _ _) (List.append_cancel_left h)
  obtain ⟨htexture, h⟩ := cut_name h
  obtain ⟨hmask, h⟩ := cut_name h
  obtain ⟨hnormal, h⟩ := cut_name h
  obtain ⟨hspecularMap, h⟩ := cut_name h
  obtain ⟨htint, h⟩ := cut_flag (List.append_cancel_left h)
  obtain ⟨haddress, h⟩ := cut_label addressMode_injective (by rintro (_ | _ | _) <;> decide)
    rfl rfl (List.append_cancel_left h)
  obtain ⟨hcollision, h⟩ := cut_flag (List.append_cancel_left h)
  obtain ⟨htag, h⟩ := cut_tag rfl rfl (List.append_cancel_left h)
  have hratio := String.toList_inj.1 (List.append_cancel_left h)
  have hmodes : a.textureModes = b.textureModes := by
    calc a.textureModes
        = ⟨a.textureModes.lit, a.textureModes.foreshorten, a.textureModes.filter⟩ := rfl
      _ = ⟨b.textureModes.lit, b.textureModes.foreshorten, b.textureModes.filter⟩ := by
          rw [hlit, hforeshorten, hfilter]
  refine ⟨⟨hexplicit, hlight, hgeometry, hmodes, hmode, htexture, hmask, hnormal, hspecularMap,
    htint, haddress, hcollision, htag⟩, ?_⟩
  simp only [scalars, List.map_cons, List.map_nil, hred, hgreen, hblue, hopacity, hambient,
    hdiffuse, hspecular, hratio]

/-- Materials of one signature have one tag. -/
theorem tag_eq_of_signature_eq {a b : Material} (h : a.signature = b.signature) : a.tag = b.tag :=
  (words_eq_of_signature_eq h).1.tag

theorem signature_eq_of_words_eq {a b : Material} (h : a.SameTraits b)
    (hscalars : a.scalars.map Signature.scalar = b.scalars.map Signature.scalar) :
    a.signature = b.signature := by
  simp only [scalars, List.map_cons, List.map_nil, List.cons.injEq, and_true] at hscalars
  obtain ⟨hred, hgreen, hblue, hopacity, hambient, hdiffuse, hspecular, hratio⟩ := hscalars
  unfold signature
  rw [h.colorExplicit, h.lightSampling, h.geometrySampling, h.textureModes, h.mode, h.texture,
    h.mask, h.normalMap, h.specularMap, h.tint, h.addressMode, h.collision, h.tag, hred, hgreen,
    hblue, hopacity, hambient, hdiffuse, hspecular, hratio]

/-! ### Numbers -/

/-- Adding zero makes zeros equal and leaves all else as it is told apart. -/
theorem add_zero_eq_of_beq {x y : Scalar} (h : (x == y) = true) : x + 0 = y + 0 := by
  have hzero : ∀ {x : Scalar}, Scalar.Alike x 0 → x + 0 = 0 := by
    intro x hx
    obtain ⟨s, hs⟩ := Scalar.alike_zero_iff.1 hx
    rw [Scalar.add_eq, hs]
    cases s <;> rfl
  rcases Scalar.Alike.eq_or_zero (.inl h) with rfl | ⟨hx, hy⟩
  · rfl
  · rw [hzero hx, hzero hy]

theorem scalar_eq_scalar_iff {x y : Scalar} :
    Signature.scalar x = Signature.scalar y ↔ Decimal.SameTo 6 (x + 0) (y + 0) := by
  rw [Signature.scalar, Signature.scalar, String.ofList_inj]
  exact Decimal.fixed_eq_fixed_iff

theorem map_scalar_eq_iff {xs ys : List Scalar} :
    xs.map Signature.scalar = ys.map Signature.scalar ↔
      List.Forall₂ (fun x y ↦ Decimal.SameTo 6 (x + 0) (y + 0)) xs ys := by
  rw [← List.forall₂_eq_eq_eq, List.forall₂_map_left_iff, List.forall₂_map_right_iff]
  simp only [scalar_eq_scalar_iff]

/-- Signatures are equal just if all but the numbers is equal and the numbers, after zero is added,
are written alike with six decimals. So materials that are equal share one. -/
theorem signature_eq_signature_iff (a b : Material) :
    (a.signature = b.signature ↔ a.SameTraits b ∧
      List.Forall₂ (fun x y ↦ Decimal.SameTo 6 (x + 0) (y + 0)) a.scalars b.scalars) ∧
    (∀ x y : Scalar, Decimal.fixed 6 x = Decimal.fixed 6 y ↔ Decimal.SameTo 6 x y) ∧
    (a.Agrees b → a.signature = b.signature) := by
  refine ⟨⟨fun h ↦ ?_, fun ⟨htraits, hscalars⟩ ↦ ?_⟩, fun _ _ ↦ Decimal.fixed_eq_fixed_iff, ?_⟩
  · obtain ⟨htraits, hscalars⟩ := words_eq_of_signature_eq h
    exact ⟨htraits, map_scalar_eq_iff.1 hscalars⟩
  · exact signature_eq_of_words_eq htraits (map_scalar_eq_iff.2 hscalars)
  · rintro ⟨htraits, hscalars⟩
    refine signature_eq_of_words_eq htraits (map_scalar_eq_iff.2 (hscalars.imp fun x y h ↦ ?_))
    rw [add_zero_eq_of_beq h, ← scalar_eq_scalar_iff]

/-- A ratio of negative zero, and a mask that looks like the end of a signature. -/
theorem signature_eq_signature_of_signed_zero :
    let a : Material := { Material.initial with mask := some "a|n-|sp-|ti0", ratio := 0 }
    let b : Material := { a with ratio := -0 }
    a.Agrees b ∧ a.ratio ≠ b.ratio ∧ a.signature = b.signature := by
  intro a b
  have hagrees : a.Agrees b :=
    ⟨⟨rfl, rfl, rfl, rfl, rfl, rfl, rfl, rfl, rfl, rfl, rfl, rfl, rfl⟩, by decide⟩
  exact ⟨hagrees, by decide, (signature_eq_signature_iff a b).2.2 hagrees⟩

end Material

end RwxScene
