import Mathlib.AlgebraicGeometry.EllipticCurve.Affine.Point
import Mathlib.Tactic

/-!
# Adding affine points into Jacobian coordinates

On a curve y² = x³ + b the sum of two points can be had without division as a triple
(X, Y, Z) that stands for (X / Z², Y / Z³).  The triples of this module are those of the
usual chord and tangent formulas, for a first point that is itself given by a triple; the
sum is the point at infinity exactly when the last component is zero.

Main results:

- Theorem {lit}`standsFor_chord_iff`: the chord triple of two points with different first
  coordinates stands for their sum and for nothing else.
- Theorem {lit}`standsFor_tangent_iff`: the tangent triple of a point that is not its own
  inverse stands for its double and for nothing else.
-/

namespace MixedAddition

open WeierstrassCurve

variable {F : Type*} [Field F]

/-- The curve y² = x³ + b. -/
def curve (b : F) : WeierstrassCurve F := ⟨0, 0, 0, 0, b⟩

/-- The points of the curve. -/
abbrev Points (b : F) : Type _ := (curve b).toAffine.Point

theorem equation_iff {b x y : F} :
    (curve b).toAffine.Equation x y ↔ y ^ 2 = x ^ 3 + b := by
  rw [Affine.equation_iff]
  simp [curve]

theorem discriminant (b : F) : (curve b).Δ = -(432 * b ^ 2) := by
  simp only [curve, WeierstrassCurve.Δ, WeierstrassCurve.b₂, WeierstrassCurve.b₄,
    WeierstrassCurve.b₆, WeierstrassCurve.b₈]
  ring

theorem nonsingular_iff {b x y : F} (hb : 432 * b ^ 2 ≠ 0) :
    (curve b).toAffine.Nonsingular x y ↔ y ^ 2 = x ^ 3 + b := by
  have hdiscriminant : (curve b).toAffine.Δ ≠ 0 := by
    rw [discriminant]
    exact neg_ne_zero.mpr hb
  rw [← Affine.equation_iff_nonsingular_of_Δ_ne_zero hdiscriminant, equation_iff]

/-- A triple stands for an affine point. -/
def StandsFor (X Y Z x y : F) : Prop := Z ≠ 0 ∧ x * Z ^ 2 = X ∧ y * Z ^ 3 = Y

theorem standsFor_one (x y : F) : StandsFor x y 1 x y := by
  simp [StandsFor]

/-- The components of the chord triple through two points. -/
def chordX (x₁ y₁ x₂ y₂ : F) : F :=
  (y₂ - y₁) ^ 2 - (2 * (x₁ * (x₂ - x₁) ^ 2) + (x₂ - x₁) ^ 3)

def chordY (x₁ y₁ x₂ y₂ : F) : F :=
  (y₂ - y₁) * (x₁ * (x₂ - x₁) ^ 2 - chordX x₁ y₁ x₂ y₂) - y₁ * (x₂ - x₁) ^ 3

/-- The components of the tangent triple at a point. -/
def tangentX (x y : F) : F := (3 * x ^ 2) ^ 2 - 2 * ((2 * y) ^ 2 * x)

def tangentY (x y : F) : F :=
  3 * x ^ 2 * ((2 * y) ^ 2 * x - tangentX x y) - 8 * y ^ 4

/-- Clearing a denominator. -/
theorem standsFor_iff_of_eq {X Y Z s t x y : F} (hZ : Z ≠ 0) (hX : X = s * Z ^ 2)
    (hY : Y = t * Z ^ 3) : StandsFor X Y Z x y ↔ x = s ∧ y = t := by
  rw [StandsFor, hX, hY]
  constructor
  · rintro ⟨-, hx, hy⟩
    exact ⟨mul_right_cancel₀ (pow_ne_zero 2 hZ) hx, mul_right_cancel₀ (pow_ne_zero 3 hZ) hy⟩
  · rintro ⟨rfl, rfl⟩
    exact ⟨hZ, rfl, rfl⟩

/-- A point whose second coordinate is not zero is not its own inverse. -/
theorem ne_negY {b x₁ y₁ : F} (hne : 2 * y₁ ≠ 0) : y₁ ≠ (curve b).toAffine.negY x₁ y₁ := by
  intro heq
  apply hne
  simp only [Affine.negY, curve, zero_mul, sub_zero] at heq
  linear_combination heq

section Sum

variable [DecidableEq F] {b x₁ y₁ x₂ y₂ x y : F}

/-- The chord triple stands for the sum of two points with different first coordinates. -/
theorem standsFor_chord_iff {X Y Z : F} (h₁ : (curve b).toAffine.Nonsingular x₁ y₁)
    (h₂ : (curve b).toAffine.Nonsingular x₂ y₂) (h : (curve b).toAffine.Nonsingular x y)
    (hfor : StandsFor X Y Z x₁ y₁) (hne : x₁ ≠ x₂) :
    StandsFor (chordX X Y (x₂ * Z ^ 2) (y₂ * Z ^ 3)) (chordY X Y (x₂ * Z ^ 2) (y₂ * Z ^ 3))
        ((x₂ * Z ^ 2 - X) * Z) x y ↔
      (Affine.Point.some x y h : Points b) = Affine.Point.some x₁ y₁ h₁ +
        Affine.Point.some x₂ y₂ h₂ := by
  rcases hfor with ⟨hZ, rfl, rfl⟩
  have hdiff : x₂ - x₁ ≠ 0 := sub_ne_zero.mpr hne.symm
  have hlast : (x₂ * Z ^ 2 - x₁ * Z ^ 2) * Z = (x₂ - x₁) * Z ^ 3 := by ring
  rw [Affine.Point.add_of_X_ne hne, Affine.Point.some.injEq, hlast]
  generalize hslope : (curve b).toAffine.slope x₁ x₂ y₁ y₂ = slope
  have hd : y₂ = slope * (x₂ - x₁) + y₁ := by
    rw [← hslope, Affine.slope_of_X_ne hne]
    have hdiff' : x₁ - x₂ ≠ 0 := sub_ne_zero.mpr hne
    field_simp
    ring
  apply standsFor_iff_of_eq (mul_ne_zero hdiff (pow_ne_zero 3 hZ))
  · simp only [chordX, hd, Affine.addX, curve]
    ring
  · simp only [chordY, chordX, hd, Affine.addY, Affine.negAddY, Affine.negY, Affine.addX, curve]
    ring

theorem exists_add_eq_some (h₁ : (curve b).toAffine.Nonsingular x₁ y₁)
    (h₂ : (curve b).toAffine.Nonsingular x₂ y₂) (hne : x₁ ≠ x₂) :
    ∃ x y h, (Affine.Point.some x₁ y₁ h₁ : Points b) + Affine.Point.some x₂ y₂ h₂ =
      Affine.Point.some x y h :=
  ⟨_, _, _, Affine.Point.add_of_X_ne hne⟩

theorem exists_add_self_eq_some (h₁ : (curve b).toAffine.Nonsingular x₁ y₁) (hne : 2 * y₁ ≠ 0) :
    ∃ x y h, (Affine.Point.some x₁ y₁ h₁ : Points b) + Affine.Point.some x₁ y₁ h₁ =
      Affine.Point.some x y h :=
  ⟨_, _, _, Affine.Point.add_self_of_Y_ne (ne_negY hne)⟩

/-- The tangent triple stands for the double of a point that is not its own inverse. -/
theorem standsFor_tangent_iff {X Y Z : F} (h₁ : (curve b).toAffine.Nonsingular x₁ y₁)
    (h : (curve b).toAffine.Nonsingular x y) (hfor : StandsFor X Y Z x₁ y₁) (hne : 2 * y₁ ≠ 0) :
    StandsFor (tangentX X Y) (tangentY X Y) (2 * Y * Z) x y ↔
      (Affine.Point.some x y h : Points b) = Affine.Point.some x₁ y₁ h₁ +
        Affine.Point.some x₁ y₁ h₁ := by
  rcases hfor with ⟨hZ, rfl, rfl⟩
  have hY : y₁ ≠ (curve b).toAffine.negY x₁ y₁ := ne_negY hne
  have hlast : 2 * (y₁ * Z ^ 3) * Z = 2 * y₁ * Z ^ 4 := by ring
  rw [Affine.Point.add_self_of_Y_ne hY, Affine.Point.some.injEq, hlast]
  generalize hslope : (curve b).toAffine.slope x₁ x₁ y₁ y₁ = slope
  have hd : 3 * x₁ ^ 2 = slope * (2 * y₁) := by
    have hden : y₁ - (curve b).toAffine.negY x₁ y₁ = 2 * y₁ := by
      simp only [Affine.negY, curve]
      ring
    rw [← hslope, Affine.slope_of_Y_ne rfl hY, hden, div_mul_cancel₀ _ hne]
    simp [curve]
  have hm : 3 * (x₁ * Z ^ 2) ^ 2 = slope * (2 * y₁) * Z ^ 4 := by
    rw [← hd]
    ring
  apply standsFor_iff_of_eq (mul_ne_zero hne (pow_ne_zero 4 hZ))
  · simp only [tangentX, hm, Affine.addX, curve]
    ring
  · simp only [tangentY, tangentX, hm, Affine.addY, Affine.negAddY, Affine.negY, Affine.addX,
      curve]
    ring

/-- Points with the same first coordinate are equal or add up to the point at infinity. -/
theorem add_eq_zero_of_X_eq {h₁ : (curve b).toAffine.Nonsingular x₁ y₁}
    {h₂ : (curve b).toAffine.Nonsingular x₁ y₂} (hne : y₁ ≠ y₂) :
    (Affine.Point.some x₁ y₁ h₁ : Points b) + Affine.Point.some x₁ y₂ h₂ = 0 := by
  apply Affine.Point.add_of_Y_eq rfl
  rcases Affine.Y_eq_of_X_eq h₁.1 h₂.1 rfl with heq | heq
  · exact absurd heq hne
  · exact heq

/-- A point with second coordinate zero is its own inverse. -/
theorem add_self_eq_zero {h₁ : (curve b).toAffine.Nonsingular x₁ y₁} (hzero : 2 * y₁ = 0) :
    (Affine.Point.some x₁ y₁ h₁ : Points b) + Affine.Point.some x₁ y₁ h₁ = 0 := by
  apply Affine.Point.add_self_of_Y_eq
  simp only [Affine.negY, curve, zero_mul, sub_zero]
  linear_combination hzero

end Sum

end MixedAddition
