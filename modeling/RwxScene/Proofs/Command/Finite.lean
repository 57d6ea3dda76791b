import RwxScene.Proofs.Command.Faces
import RwxScene.Proofs.Space.Mirror

/-!
# Finite values of lines

A word that means no finite scalar is no number, whatever stands in front of it. So all scalars of a
vertex and of a directive that were read off a line are finite (`Line.isFinite_of_read`).
-/

namespace RwxScene

/-! ### Values -/

/-- All coefficients are finite. -/
def Surface.IsFinite (s : Surface) : Prop :=
  s.ambient.isFinite = true ∧ s.diffuse.isFinite = true ∧ s.specular.isFinite = true

/-- All scalars of the directive are finite. -/
def Directive.IsFinite : Directive → Prop
  | .color c => c.red.isFinite = true ∧ c.green.isFinite = true ∧ c.blue.isFinite = true
  | .surface s => s.IsFinite
  | .opacity s => s.isFinite = true
  | .ambient s => s.isFinite = true
  | .diffuse s => s.isFinite = true
  | .specular s => s.isFinite = true
  | .texture t => ∀ r, t.ratio = some r → r.isFinite = true
  | _ => True

/-- All scalars of a vertex or a directive are finite. -/
def Command.IsFinite : Command → Prop
  | .vertex position uv => position.isFinite = true ∧ ∀ t, uv = some t → t.isFinite = true
  | .material d => d.IsFinite
  | _ => True

/-! ### Readers -/

namespace Arguments

/-- A number is finite, or it would not be one. -/
theorem ensures_number : number.Ensures fun s ↦ s.isFinite = true := by
  refine ensures_bind fun w ↦ ?_
  split
  · next s hs => exact ensures_pure (Option.filter_eq_some_iff.1 hs).2
  · exact ensures_fail _

theorem ensures_vec3 : vec3.Ensures fun v ↦ v.isFinite = true := by
  refine ensures_number.bind fun x hx ↦ ensures_number.bind fun y hy ↦
    ensures_number.bind fun z hz ↦ ensures_pure ?_
  rw [Vec3.isFinite, hx, hy, hz]
  rfl

/-- Attributes keep the ratio of a texture finite. -/
theorem isFinite_ratio_of_attributes {k : String} {ws : List String} {t u : TextureSpec}
    (ht : ∀ r, t.ratio = some r → r.isFinite = true) (h : textureAttributes k t ws = .ok u) :
    ∀ r, u.ratio = some r → r.isFinite = true := by
  fun_induction textureAttributes k t ws with
  | case1 t => exact Except.ok.inj h ▸ ht
  | case2 t w hw => exact nomatch h
  | case3 t w a hw => exact nomatch h
  | case4 t w v ws hw => exact nomatch h
  | case5 t w v ws a hw e he => exact nomatch h
  | case6 t w v ws a hw t' ht' ih =>
    refine ih ?_ h
    cases a with
    | mask => exact Except.ok.inj ht' ▸ ht
    | normal => exact Except.ok.inj ht' ▸ ht
    | specular => exact Except.ok.inj ht' ▸ ht
    | ratio =>
      rw [TextureAttribute.set] at ht'
      split at ht'
      · next s hs =>
        rintro r hr
        obtain rfl := Except.ok.inj ht'
        obtain rfl : s = r := Option.some.inj hr
        exact (Option.filter_eq_some_iff.1 hs).2
      · exact nomatch ht'

theorem ensures_texture : texture.Ensures fun t ↦ ∀ r, t.ratio = some r → r.isFinite = true := by
  refine ensures_bind fun name k ws t rest h ↦ ?_
  cases ht : textureAttributes k (.ofName name) ws with
  | error e =>
    rw [ht] at h
    exact nomatch h
  | ok u =>
    rw [ht] at h
    obtain ⟨rfl, -⟩ := Prod.mk.inj (Except.ok.inj h)
    exact isFinite_ratio_of_attributes (by simp [TextureSpec.ofName]) ht

end Arguments

/-! ### Keywords -/

open Arguments in
/-- All scalars of vertices and directives that a keyword begins are finite. -/
theorem Keyword.ensures_isFinite (keyword : Keyword) :
    keyword.arguments.Ensures Command.IsFinite := by
  cases keyword with
  | vertex =>
    refine ensures_vec3.bind fun position hposition ↦ ensures_bind fun hasUv ↦ ?_
    split
    · refine ensures_number.bind fun u hu ↦ ensures_number.bind fun v hv ↦
        ensures_pure ⟨hposition, ?_⟩
      rintro _ ⟨⟩
      rw [UV.isFinite, hu, hv]
      rfl
    · exact ensures_pure ⟨hposition, by simp⟩
  | polygon =>
    refine ensures_bind fun declared ↦ ensures_bind fun indices ↦ ?_
    split
    · exact ensures_fail _
    · exact ensures_bind fun tag ↦ ensures_pure trivial
  | texture => exact ensures_texture.bind fun t ht ↦ ensures_pure ht
  | color => exact ensures_vec3.bind fun v hv ↦ ensures_pure (Vec3.isFinite_iff.1 hv)
  | surface => exact ensures_vec3.bind fun v hv ↦ ensures_pure (Vec3.isFinite_iff.1 hv)
  | opacity => exact ensures_number.bind fun s hs ↦ ensures_pure hs
  | ambient => exact ensures_number.bind fun s hs ↦ ensures_pure hs
  | diffuse => exact ensures_number.bind fun s hs ↦ ensures_pure hs
  | specular => exact ensures_number.bind fun s hs ↦ ensures_pure hs
  | materialMode =>
    refine ensures_bind fun atEnd ↦ ?_
    split
    · exact ensures_pure trivial
    · exact ensures_bind fun mode ↦ ensures_pure trivial
  | triangle => exact ensures_bind fun _ ↦ ensures_bind fun _ ↦ ensures_pure trivial
  | quad => exact ensures_bind fun _ ↦ ensures_bind fun _ ↦ ensures_pure trivial
  | rotate => exact ensures_bind fun _ ↦ ensures_bind fun _ ↦ ensures_pure trivial
  | rotateJoint => exact ensures_bind fun _ ↦ ensures_bind fun _ ↦ ensures_pure trivial
  | clumpBegin | clumpEnd | transformBegin | transformEnd | jointTransformBegin
  | jointTransformEnd | identityJoint | identity => exact ensures_pure trivial
  | _ => exact ensures_bind fun _ ↦ ensures_pure trivial

/-- All scalars of a vertex or a directive that was read off a line are finite. -/
theorem Line.isFinite_of_read {cs : List Char} {c : Command}
    (h : (read cs).command? = some c) : c.IsFinite :=
  of_ensures Keyword.ensures_isFinite h

end RwxScene
