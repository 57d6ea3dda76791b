import Mathlib
import RwxScene.Proofs.Command.Finite
import RwxScene.Proofs.Scalar.Extremes

/-!
# Regular materials

Directives with finite values keep a material regular (`Material.Regular.apply`): colours and the
opacity stay in the unit interval and the coefficients finite. Bringing a scalar into the unit interval
does so only if it is a number, which is where finiteness is used.

A material without a colour of its own is white, so what it is drawn with is always its colour.
-/

namespace RwxScene

namespace Scalar

/-- The scalar is a number of the unit interval. -/
def InUnit (s : Scalar) : Prop := 0 ≤ s ∧ s ≤ 1

theorem inUnit_zero : InUnit 0 := ⟨by decide, by decide⟩

theorem inUnit_one : InUnit 1 := ⟨by decide, by decide⟩

theorem inUnit_clampUnit {s : Scalar} (h : s.isFinite = true) : InUnit s.clampUnit := by
  have hs : ¬s.isNaN = true := not_isNaN_of_isFinite h
  rw [clampUnit]
  split
  · exact inUnit_zero
  · next hzero =>
    split
    · exact inUnit_one
    · next hone => exact ⟨le_of_not_lt hs (by decide) hzero, le_of_not_lt (by decide) hs hone⟩

end Scalar

/-- Each part is in the unit interval. -/
def Color.Regular (c : Color) : Prop := c.red.InUnit ∧ c.green.InUnit ∧ c.blue.InUnit

theorem Color.regular_white : white.Regular :=
  ⟨Scalar.inUnit_one, Scalar.inUnit_one, Scalar.inUnit_one⟩

namespace Material

/-- Colour and opacity are in the unit interval, the coefficients are finite, and where no colour was
given it is white. -/
structure Regular (m : Material) : Prop where
  color : m.color.Regular
  opacity : m.opacity.InUnit
  surface : m.surface.IsFinite
  ratio : m.ratio.isFinite = true
  white : m.colorExplicit = false → m.color = .white

theorem regular_initial : initial.Regular where
  color := Color.regular_white
  opacity := Scalar.inUnit_one
  surface := ⟨by decide, by decide, by decide⟩
  ratio := by decide
  white _ := rfl

variable {m : Material}

/-- A directive with finite values keeps a material regular. -/
theorem Regular.apply (h : m.Regular) {d : Directive} (hd : d.IsFinite) : (m.apply d).Regular := by
  cases d with
  | color c =>
    obtain ⟨hred, hgreen, hblue⟩ := hd
    exact
      { h with
        color := ⟨Scalar.inUnit_clampUnit hred, Scalar.inUnit_clampUnit hgreen,
          Scalar.inUnit_clampUnit hblue⟩
        white := nofun }
  | opacity s => exact { h with opacity := Scalar.inUnit_clampUnit hd }
  | surface s => exact { h with surface := hd }
  | ambient s => exact { h with surface := ⟨hd, h.surface.2⟩ }
  | diffuse s => exact { h with surface := ⟨h.surface.1, hd, h.surface.2.2⟩ }
  | specular s => exact { h with surface := ⟨h.surface.1, h.surface.2.1, hd⟩ }
  | texture t =>
    refine { h with ratio := ?_ }
    show (t.ratio.getD 1).isFinite = true
    cases hratio : t.ratio with
    | none => decide
    | some r => exact hd r hratio
  | _ => exact { h with }

/-- The tag has no part in it. -/
theorem Regular.withTag (h : m.Regular) (tag : Int) : { m with tag }.Regular := { h with }

/-- What the material is drawn with is its colour and its opacity. -/
theorem Regular.effectiveColor (h : m.Regular) : m.effectiveColor = (m.color, m.opacity) := by
  cases hexplicit : m.colorExplicit with
  | true => rw [Material.effectiveColor, if_pos hexplicit]
  | false => rw [Material.effectiveColor, if_neg (by simp [hexplicit]), h.white hexplicit]

end Material

end RwxScene
