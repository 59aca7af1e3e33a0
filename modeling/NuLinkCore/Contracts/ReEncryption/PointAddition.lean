import NuLinkCore.Contracts.ReEncryption.Curve

/-!
# Adding points

The sum of two points in affine coordinates is computed in Jacobian coordinates and compared
with a third point without a division.  Every subtraction is from the base order, so none
of them underflows.

Main results:

- Theorem {lit}`eqAffineJacobian_iff`: what the comparison decides.
- Theorem {lit}`addAffineJacobian_isSum`: comparison with the sum of two points decides
  equality in the group, also when the points are equal or inverse to each other.
- Theorem {lit}`addAffineJacobian_group_law`: besides, no pair of words is equal to the sum of
  two inverse points.
-/

namespace NuLink
namespace ReEncryption

open Evm WeierstrassCurve MixedAddition

/-- A point in Jacobian coordinates. -/
structure Jacobian where
  x : Nat
  y : Nat
  z : Nat
deriving DecidableEq, Repr

/-- {lit}`eqAffineJacobian`. -/
def eqAffineJacobian (P : Nat × Nat) (Q : Jacobian) : Bool :=
  if Q.z = 0 then false
  else
    let zSquared := mulmod Q.z Q.z fieldOrder
    mulmod P.1 zSquared fieldOrder == Q.x &&
      mulmod P.2 (mulmod zSquared Q.z fieldOrder) fieldOrder == Q.y

/-- {lit}`doubleJacobian`. -/
def doubleJacobian (P : Jacobian) : Option Jacobian :=
  if P.z = 0 then some ⟨0, 0, 0⟩
  else do
    let p := fieldOrder
    let twoY := mulmod 2 P.y p
    let fourYY := mulmod twoY twoY p
    let s := mulmod fourYY P.x p
    let m := mulmod 3 (mulmod P.x P.x p) p
    let t := addmod (mulmod m m p) (mulmod minus2 s p) p
    let minusT ← checkedSub p t
    return {
      x := t
      y := addmod (mulmod m (addmod s minusT p) p)
        (mulmod minusOneHalf (mulmod fourYY fourYY p) p) p
      z := mulmod twoY P.z p }

/-- {lit}`addAffineJacobian`. -/
def addAffineJacobian (P Q : Nat × Nat) : Option Jacobian :=
  let p := fieldOrder
  let a := P.1
  let c := P.2
  let t0 := Q.1
  let t1 := Q.2
  if a = t0 ∧ c = t1 then doubleJacobian ⟨a, c, 1⟩
  else do
    let d := addmod t1 (← checkedSub p c) p
    let b := addmod t0 (← checkedSub p a) p
    let e := mulmod b b p
    let f := mulmod e b p
    let g := mulmod a e p
    let x := addmod (mulmod d d p) (← checkedSub p (addmod (mulmod 2 g p) f p)) p
    let y := addmod (mulmod d (addmod g (← checkedSub p x) p) p)
      (← checkedSub p (mulmod c f p)) p
    return { x, y, z := b }

/-! ## Words as field elements -/

/-- The words of a triple are reduced and stand for given field elements. -/
structure IsTriple (J : Jacobian) (X Y Z : Fp) : Prop where
  x_lt : J.x < fieldOrder
  y_lt : J.y < fieldOrder
  z_lt : J.z < fieldOrder
  x_cast : (J.x : Fp) = X
  y_cast : (J.y : Fp) = Y
  z_cast : (J.z : Fp) = Z

theorem fieldOrder_pos : 0 < fieldOrder := prime_fieldOrder.pos

theorem addmod_lt (a b : Nat) : addmod a b fieldOrder < fieldOrder := Nat.mod_lt _ fieldOrder_pos

theorem mulmod_lt (a b : Nat) : mulmod a b fieldOrder < fieldOrder := Nat.mod_lt _ fieldOrder_pos

/-- A reduced word can be subtracted from the order. -/
theorem checkedSub_fieldOrder {a : Nat} (ha : a < fieldOrder) :
    checkedSub fieldOrder a = some (fieldOrder - a) :=
  checkedSub_eq_some.mpr ⟨ha.le, rfl⟩

/-- The comparison decides what the triple stands for. -/
theorem eqAffineJacobian_iff {J : Jacobian} {X Y Z : Fp} (hJ : IsTriple J X Y Z) (x y : Nat) :
    eqAffineJacobian (x, y) J = true ↔ StandsFor X Y Z (x : Fp) (y : Fp) := by
  have hzero : J.z = 0 ↔ Z = 0 := by
    rw [← hJ.z_cast, ← natCast_eq_iff hJ.z_lt fieldOrder_pos, Nat.cast_zero]
  have hx : mulmod x (mulmod J.z J.z fieldOrder) fieldOrder = J.x ↔ (x : Fp) * Z ^ 2 = X := by
    rw [← natCast_eq_iff (mulmod_lt _ _) hJ.x_lt, mulmod_cast, mulmod_cast, hJ.z_cast, hJ.x_cast,
      pow_two]
  have hy : mulmod y (mulmod (mulmod J.z J.z fieldOrder) J.z fieldOrder) fieldOrder = J.y ↔
      (y : Fp) * Z ^ 3 = Y := by
    rw [← natCast_eq_iff (mulmod_lt _ _) hJ.y_lt, mulmod_cast, mulmod_cast, mulmod_cast,
      hJ.z_cast, hJ.y_cast, pow_succ, pow_two]
  by_cases hZ : Z = 0
  · simp [eqAffineJacobian, StandsFor, hzero.mpr hZ, hZ]
  · have hz : J.z ≠ 0 := fun h => hZ (hzero.mp h)
    simp [eqAffineJacobian, StandsFor, hz, hZ, hx, hy]

/-- Doubling gives the tangent triple. -/
theorem doubleJacobian_isTriple {P : Jacobian} (hz : P.z ≠ 0) :
    ∃ J, doubleJacobian P = some J ∧
      IsTriple J (tangentX (P.x : Fp) P.y) (tangentY (P.x : Fp) P.y) (2 * (P.y : Fp) * P.z) := by
  simp only [doubleJacobian, hz, if_false, checkedSub_fieldOrder (addmod_lt _ _),
    Option.bind_eq_bind, Option.bind_some, Option.pure_def]
  refine ⟨_, rfl, addmod_lt _ _, addmod_lt _ _, mulmod_lt _ _, ?_, ?_, ?_⟩
  · simp only [addmod_cast, mulmod_cast, minus2_cast, tangentX, Nat.cast_ofNat]
    ring
  · simp only [addmod_cast, mulmod_cast, sub_cast (addmod_lt _ _).le, minus2_cast, tangentY,
      tangentX, Nat.cast_ofNat]
    linear_combination 8 * (P.y : Fp) ^ 4 * two_mul_minusOneHalf
  · simp only [mulmod_cast, Nat.cast_ofNat]

/-- Adding different points in affine coordinates gives the chord triple. -/
theorem addAffineJacobian_isTriple {x₁ y₁ x₂ y₂ : Nat} (hx : x₁ < fieldOrder)
    (hy : y₁ < fieldOrder) (hne : ¬ (x₁ = x₂ ∧ y₁ = y₂)) :
    ∃ J, addAffineJacobian (x₁, y₁) (x₂, y₂) = some J ∧
      IsTriple J (chordX (x₁ : Fp) y₁ x₂ y₂) (chordY (x₁ : Fp) y₁ x₂ y₂) ((x₂ : Fp) - x₁) := by
  simp only [addAffineJacobian, hne, if_false, checkedSub_fieldOrder hx, checkedSub_fieldOrder hy,
    checkedSub_fieldOrder (addmod_lt _ _), checkedSub_fieldOrder (mulmod_lt _ _),
    Option.bind_eq_bind, Option.bind_some, Option.pure_def]
  refine ⟨_, rfl, addmod_lt _ _, addmod_lt _ _, addmod_lt _ _, ?_, ?_, ?_⟩
  · simp only [addmod_cast, mulmod_cast, sub_cast hx.le, sub_cast hy.le,
      sub_cast (addmod_lt _ _).le, chordX, Nat.cast_ofNat]
    ring
  · simp only [addmod_cast, mulmod_cast, sub_cast hx.le, sub_cast hy.le,
      sub_cast (addmod_lt _ _).le, sub_cast (mulmod_lt _ _).le, chordY, chordX, Nat.cast_ofNat]
    ring
  · simp only [addmod_cast, sub_cast hx.le]
    ring

/-! ## The sum -/

/-- The sum of two points never reverts, and the comparison with it decides whether a third
point is the sum in the group. -/
theorem addAffineJacobian_isSum {x₁ y₁ x₂ y₂ : Nat} {P Q : Group} (hP : Represents x₁ y₁ P)
    (hQ : Represents x₂ y₂ Q) :
    ∃ J, addAffineJacobian (x₁, y₁) (x₂, y₂) = some J ∧
      ∀ x y R, Represents x y R → (eqAffineJacobian (x, y) J = true ↔ R = P + Q) := by
  rcases hP.eq_some with ⟨h₁, rfl⟩
  rcases hQ.eq_some with ⟨h₂, rfl⟩
  by_cases hsame : x₁ = x₂ ∧ y₁ = y₂
  · rcases hsame with ⟨rfl, rfl⟩
    rcases doubleJacobian_isTriple (P := ⟨x₁, y₁, 1⟩) one_ne_zero with ⟨J, hdouble, hJ⟩
    simp only [Nat.cast_one, mul_one] at hJ
    refine ⟨J, by simpa [addAffineJacobian] using hdouble, ?_⟩
    intro x y R hR
    rcases hR.eq_some with ⟨h, rfl⟩
    rw [eqAffineJacobian_iff hJ]
    by_cases hzero : 2 * (y₁ : Fp) = 0
    · rw [add_self_eq_zero hzero]
      simp [StandsFor, hzero]
    · have htangent := standsFor_tangent_iff h₁ h (standsFor_one _ _) hzero
      rwa [mul_one] at htangent
  · rcases addAffineJacobian_isTriple hP.x_lt hP.y_lt hsame with ⟨J, hsum, hJ⟩
    refine ⟨J, hsum, ?_⟩
    intro x y R hR
    rcases hR.eq_some with ⟨h, rfl⟩
    rw [eqAffineJacobian_iff hJ]
    by_cases hx : x₁ = x₂
    · -- Points over the same first coordinate are inverse to each other.
      subst hx
      have hy : (y₁ : Fp) ≠ y₂ := by
        intro heq
        exact hsame ⟨rfl, (natCast_eq_iff hP.y_lt hQ.y_lt).mp heq⟩
      rw [add_eq_zero_of_X_eq hy]
      simp [StandsFor]
    · have hne : (x₁ : Fp) ≠ x₂ := by
        intro heq
        exact hx ((natCast_eq_iff hP.x_lt hQ.x_lt).mp heq)
      have hchord := standsFor_chord_iff h₁ h₂ h (standsFor_one _ _) hne
      simpa only [one_pow, mul_one] using hchord

/-! ## Inverse points -/

/-- A triple at infinity is equal to no pair of words. -/
theorem IsTriple.eqAffineJacobian_eq_false {J : Jacobian} {X Y : Fp} (hJ : IsTriple J X Y 0)
    (x y : Nat) : eqAffineJacobian (x, y) J = false := by
  rw [Bool.eq_false_iff]
  intro h
  exact ((eqAffineJacobian_iff hJ x y).mp h).1 rfl

theorem Represents.eq_of_eq_neg {x₁ y₁ x₂ y₂ : Nat} {P Q : Group} (hP : Represents x₁ y₁ P)
    (hQ : Represents x₂ y₂ Q) (hneg : P = -Q) : x₁ = x₂ ∧ (y₁ : Fp) = -y₂ := by
  rcases hP.eq_some with ⟨h₁, rfl⟩
  rcases hQ.eq_some with ⟨h₂, rfl⟩
  rw [Affine.Point.neg_some, Affine.Point.some.injEq] at hneg
  refine ⟨(natCast_eq_iff hP.x_lt hQ.x_lt).mp hneg.1, ?_⟩
  simpa [Affine.negY, curve] using hneg.2

/-- The sum of two inverse points is a triple at infinity. -/
theorem addAffineJacobian_of_eq_neg {x₁ y₁ x₂ y₂ : Nat} {P Q : Group} (hP : Represents x₁ y₁ P)
    (hQ : Represents x₂ y₂ Q) (hneg : P = -Q) :
    ∃ J X Y, addAffineJacobian (x₁, y₁) (x₂, y₂) = some J ∧ IsTriple J X Y 0 := by
  rcases hP.eq_of_eq_neg hQ hneg with ⟨rfl, hy⟩
  by_cases hsame : y₁ = y₂
  · subst hsame
    rcases doubleJacobian_isTriple (P := ⟨x₁, y₁, 1⟩) one_ne_zero with ⟨J, hdouble, hJ⟩
    have hzero : 2 * (y₁ : Fp) * (1 : Nat) = 0 := by
      rw [Nat.cast_one]
      linear_combination hy
    rw [hzero] at hJ
    exact ⟨J, _, _, by simpa [addAffineJacobian] using hdouble, hJ⟩
  · rcases addAffineJacobian_isTriple hP.x_lt hP.y_lt (fun h => hsame h.2) with ⟨J, hsum, hJ⟩
    rw [sub_self] at hJ
    exact ⟨J, _, _, hsum, hJ⟩

/-- The addition and the comparison decide the group law: no subtraction underflows, the third
point is accepted when it is the sum, and nothing is accepted for two inverse points. -/
theorem addAffineJacobian_group_law {x₁ y₁ x₂ y₂ : Nat} {P Q : Group} (hP : Represents x₁ y₁ P)
    (hQ : Represents x₂ y₂ Q) :
    ∃ J, addAffineJacobian (x₁, y₁) (x₂, y₂) = some J ∧
      (∀ x y R, Represents x y R → (eqAffineJacobian (x, y) J = true ↔ R = P + Q)) ∧
        (P = -Q → ∀ x y, eqAffineJacobian (x, y) J = false) := by
  rcases addAffineJacobian_isSum hP hQ with ⟨J, hJ, hdecides⟩
  refine ⟨J, hJ, hdecides, ?_⟩
  intro hneg x y
  rcases addAffineJacobian_of_eq_neg hP hQ hneg with ⟨J', X, Y, hJ', htriple⟩
  rw [hJ] at hJ'
  cases hJ'
  exact htriple.eqAffineJacobian_eq_false x y

/-- The second coordinate of a point over one. -/
def yOverOne : Nat := 0x4218f20ae6c646b363db68605822fb14264ca8d2587fdd6fbc750d587e76a7ee

theorem addAffineJacobian_group_law_one :
    ∃ P : Group, Represents 1 yOverOne P ∧
      ∃ J, addAffineJacobian (1, yOverOne) (1, yOverOne) = some J ∧
        (∀ x y R, Represents x y R → (eqAffineJacobian (x, y) J = true ↔ R = P + P)) ∧
          (P = -P → ∀ x y, eqAffineJacobian (x, y) J = false) := by
  have hcurve : isOnCurve 1 yOverOne = true := by decide +kernel
  rcases isOnCurve_iff.mp hcurve with ⟨P, hP⟩
  exact ⟨P, hP, addAffineJacobian_group_law hP hP⟩

end ReEncryption

end NuLink
