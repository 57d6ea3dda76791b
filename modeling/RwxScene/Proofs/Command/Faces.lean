import RwxScene.Command.Line
import RwxScene.Mesh.Triangulation

/-!
# Faces of lines

A face that was read off a line has the number of corners that its keyword asks for, and a polygon
at least three (`Line.isComplete_of_read`). So every such face has triangles, two fewer than corners.

`Arguments.Ensures` says what every value of a reader satisfies; it goes from the parts of a reader
to the whole, and from the readers of all keywords to what a line says (`Line.of_ensures`).
-/

namespace RwxScene

namespace Arguments

variable {α β : Type}

/-- Whatever the reader reads has the property. -/
def Ensures (r : Arguments α) (Q : α → Prop) : Prop :=
  ∀ k ws a rest, r k ws = .ok (a, rest) → Q a

theorem ensures_true (r : Arguments α) : r.Ensures fun _ ↦ True := fun _ _ _ _ _ ↦ trivial

theorem ensures_pure {Q : α → Prop} {a : α} (h : Q a) : (pure a : Arguments α).Ensures Q := by
  intro k ws b rest hb
  obtain ⟨rfl, -⟩ := Prod.mk.inj (Except.ok.inj hb)
  exact h

theorem ensures_fail {Q : α → Prop} (e : Rejection) : (fail e : Arguments α).Ensures Q :=
  fun _ _ _ _ h ↦ absurd h (by simp [fail])

theorem Ensures.bind {r : Arguments α} {f : α → Arguments β} {P : α → Prop} {Q : β → Prop}
    (hr : r.Ensures P) (hf : ∀ a, P a → (f a).Ensures Q) : (r >>= f).Ensures Q := by
  intro k ws b rest hb
  rw [bind_apply] at hb
  cases ha : r k ws with
  | error e =>
    rw [ha] at hb
    exact absurd hb (by simp)
  | ok p =>
    rw [ha] at hb
    exact hf p.1 (hr k ws p.1 p.2 ha) k p.2 b rest hb

/-- What comes first does not matter. -/
theorem ensures_bind {r : Arguments α} {f : α → Arguments β} {Q : β → Prop}
    (hf : ∀ a, (f a).Ensures Q) : (r >>= f).Ensures Q :=
  r.ensures_true.bind fun a _ ↦ hf a

end Arguments

/-- The face has as many corners as its shape asks for. -/
def Face.IsComplete (f : Face) : Prop :=
  match f.shape with
  | .triangle => f.indices.length = 3
  | .quad => f.indices.length = 4
  | .polygon => 3 ≤ f.indices.length

/-- The command draws no face, or a complete one. -/
def Command.IsComplete (c : Command) : Prop := ∀ f, c = .face f → f.IsComplete

namespace Face

variable {f : Face}

theorem IsComplete.three_le (h : f.IsComplete) : 3 ≤ f.indices.length := by
  obtain ⟨shape, indices, tag⟩ := f
  cases shape with
  | triangle =>
    have : indices.length = 3 := h
    show 3 ≤ indices.length
    omega
  | quad =>
    have : indices.length = 4 := h
    show 3 ≤ indices.length
    omega
  | polygon => exact h

/-- A complete face is triangulated with all its corners. -/
theorem IsComplete.length_triangulate {α : Type} (h : f.IsComplete) {l : List α}
    (hl : l.length = f.indices.length) :
    (f.shape.triangulate l).length = f.indices.length - 2 := by
  rw [FaceShape.triangulate, length_fan, ← hl]
  obtain ⟨shape, indices, tag⟩ := f
  cases shape with
  | triangle =>
    have hthree : indices.length = 3 := h
    show (l.take 3).length - 2 = _
    rw [List.length_take, hl, hthree]
    rfl
  | quad =>
    have hfour : indices.length = 4 := h
    show (l.take 4).length - 2 = _
    rw [List.length_take, hl, hfour]
    rfl
  | polygon => rfl

end Face

/-! ### Keywords -/

open Arguments in
/-- A face that a keyword begins is complete. -/
theorem Keyword.ensures_isComplete (keyword : Keyword) :
    keyword.arguments.Ensures Command.IsComplete := by
  have hother : ∀ {c : Command}, (∀ f, c ≠ .face f) →
      (pure c : Arguments Command).Ensures Command.IsComplete :=
    fun hface ↦ ensures_pure fun f h ↦ absurd h (hface f)
  have hface : ∀ {f : Face}, f.IsComplete →
      (pure (.face f) : Arguments Command).Ensures Command.IsComplete := by
    refine fun hf ↦ ensures_pure ?_
    rintro _ ⟨⟩
    exact hf
  cases keyword with
  | vertex =>
    refine ensures_bind fun position ↦ ensures_bind fun hasUv ↦ ?_
    split
    · exact ensures_bind fun u ↦ ensures_bind fun v ↦ hother (by simp)
    · exact hother (by simp)
  | triangle =>
    exact ensures_bind fun indices ↦ ensures_bind fun tag ↦ hface indices.length_toList
  | quad => exact ensures_bind fun indices ↦ ensures_bind fun tag ↦ hface indices.length_toList
  | polygon =>
    -- the number of corners is declared, and a line with another number is rejected
    refine ensures_bind fun declared ↦ ensures_bind fun indices ↦ ?_
    split
    · exact ensures_fail _
    · next hcount =>
      refine ensures_bind fun tag ↦ hface ?_
      show 3 ≤ indices.length
      omega
  | materialMode =>
    refine ensures_bind fun atEnd ↦ ?_
    split
    · exact hother (by simp)
    · exact ensures_bind fun mode ↦ hother (by simp)
  | rotate => exact ensures_bind fun axis ↦ ensures_bind fun degrees ↦ hother (by simp)
  | rotateJoint => exact ensures_bind fun axis ↦ ensures_bind fun degrees ↦ hother (by simp)
  | clumpBegin | clumpEnd | transformBegin | transformEnd | jointTransformBegin
  | jointTransformEnd | identityJoint | identity => exact hother (by simp)
  | _ => exact ensures_bind fun a ↦ hother (by simp)

/-- What holds of whatever a keyword begins, holds of what a line says. -/
theorem Line.of_ensures {Q : Command → Prop} (hQ : ∀ keyword : Keyword, keyword.arguments.Ensures Q)
    {cs : List Char} {c : Command} (h : (read cs).command? = some c) : Q c := by
  rw [read] at h
  cases hw : Text.words (Comment.strip cs) with
  | nil =>
    rw [hw] at h
    exact absurd h (by simp [ofWords, command?])
  | cons w ws =>
    rw [hw, ofWords] at h
    split at h
    · exact absurd h (by simp [command?])
    · next keyword hk =>
      split at h
      · exact absurd h (by simp [command?])
      · next d hd =>
        obtain rfl : d = c := Option.some.inj h
        exact hQ keyword _ _ _ _ hd
      · exact absurd h (by simp [command?])

/-- A face that was read off a line is complete. -/
theorem Line.isComplete_of_read {cs : List Char} {f : Face}
    (h : (read cs).command? = some (.face f)) : f.IsComplete :=
  of_ensures Keyword.ensures_isComplete h f rfl

end RwxScene
