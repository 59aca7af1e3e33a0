import NuLinkCore.Contracts.ReEncryption.PointAddition

/-!
# Multiples of points

Multiples are computed by doubling and adding in Jacobian coordinates, with the doubling of
the contract.  There is no result when the point at infinity is met on the way.

Main results:

- Theorem {lit}`multiple_isOf`: what is computed stands for the multiple.
- Theorem {lit}`represents_multiple`: a point that compares equal to it is the multiple.
-/

namespace NuLink
namespace ReEncryption

open Evm WeierstrassCurve MixedAddition

/-- Reduced Jacobian coordinates of an affine point of the group. -/
structure Jacobian.IsOf (J : Jacobian) (P : Group) : Prop where
  x_lt : J.x < fieldOrder
  y_lt : J.y < fieldOrder
  z_lt : J.z < fieldOrder
  standsFor : ∃ x y h, P = Affine.Point.some x y h ∧ StandsFor (J.x : Fp) J.y J.z x y

theorem Represents.isOf {x y : Nat} {P : Group} (hP : Represents x y P) :
    Jacobian.IsOf ⟨x, y, 1⟩ P where
  x_lt := hP.x_lt
  y_lt := hP.y_lt
  z_lt := prime_fieldOrder.one_lt
  standsFor := by
    rcases hP.eq_some with ⟨h, hP⟩
    refine ⟨x, y, h, hP, ?_⟩
    rw [Nat.cast_one]
    exact standsFor_one _ _

/-- Adds a point in affine coordinates to one in Jacobian coordinates. -/
def addMixed (J : Jacobian) (Q : Nat × Nat) : Jacobian :=
  let p := fieldOrder
  let zSquared := mulmod J.z J.z p
  let t0 := mulmod Q.1 zSquared p
  let t1 := mulmod Q.2 (mulmod zSquared J.z p) p
  let d := addmod t1 (p - J.y) p
  let b := addmod t0 (p - J.x) p
  let e := mulmod b b p
  let f := mulmod e b p
  let g := mulmod J.x e p
  let x := addmod (mulmod d d p) (p - addmod (mulmod 2 g p) f p) p
  { x
    y := addmod (mulmod d (addmod g (p - x) p) p) (p - mulmod J.y f p) p
    z := mulmod b J.z p }

theorem addMixed_isTriple {J : Jacobian} (hx : J.x < fieldOrder) (hy : J.y < fieldOrder)
    (x₂ y₂ : Nat) :
    IsTriple (addMixed J (x₂, y₂))
      (chordX (J.x : Fp) J.y (x₂ * (J.z : Fp) ^ 2) (y₂ * (J.z : Fp) ^ 3))
      (chordY (J.x : Fp) J.y (x₂ * (J.z : Fp) ^ 2) (y₂ * (J.z : Fp) ^ 3))
      (((x₂ : Fp) * (J.z : Fp) ^ 2 - J.x) * J.z) := by
  refine ⟨addmod_lt _ _, addmod_lt _ _, mulmod_lt _ _, ?_, ?_, ?_⟩
  · simp only [addMixed, addmod_cast, mulmod_cast, sub_cast hx.le, sub_cast hy.le,
      sub_cast (addmod_lt _ _).le, chordX, Nat.cast_ofNat]
    ring
  · simp only [addMixed, addmod_cast, mulmod_cast, sub_cast hx.le, sub_cast hy.le,
      sub_cast (addmod_lt _ _).le, sub_cast (mulmod_lt _ _).le, chordY, chordX, Nat.cast_ofNat]
    ring
  · simp only [addMixed, addmod_cast, mulmod_cast, sub_cast hx.le]
    ring

theorem IsTriple.isOf {J : Jacobian} {X Y Z x y : Fp} {h} (hJ : IsTriple J X Y Z)
    (hfor : StandsFor X Y Z x y) : J.IsOf (Affine.Point.some x y h) where
  x_lt := hJ.x_lt
  y_lt := hJ.y_lt
  z_lt := hJ.z_lt
  standsFor := by
    refine ⟨x, y, h, rfl, ?_⟩
    rw [hJ.x_cast, hJ.y_cast, hJ.z_cast]
    exact hfor

/-- A last component that is not zero is not zero in the field. -/
theorem IsTriple.z_ne_zero {J : Jacobian} {X Y Z : Fp} (hJ : IsTriple J X Y Z) (hz : J.z ≠ 0) :
    Z ≠ 0 := by
  rw [← hJ.z_cast]
  exact natCast_ne_zero (Nat.pos_of_ne_zero hz) hJ.z_lt

theorem addMixed_isOf {J : Jacobian} {P Q : Group} {x₂ y₂ : Nat} (hJ : J.IsOf P)
    (hQ : Represents x₂ y₂ Q) (hz : (addMixed J (x₂, y₂)).z ≠ 0) :
    (addMixed J (x₂, y₂)).IsOf (P + Q) := by
  rcases hJ.standsFor with ⟨x₁, y₁, h₁, rfl, hfor⟩
  rcases hQ.eq_some with ⟨h₂, rfl⟩
  have htriple := addMixed_isTriple hJ.x_lt hJ.y_lt x₂ y₂
  have hne : x₁ ≠ x₂ := by
    intro heq
    apply htriple.z_ne_zero hz
    rw [← hfor.2.1, heq, sub_self, zero_mul]
  rcases exists_add_eq_some h₁ h₂ hne with ⟨x, y, h, hsum⟩
  rw [hsum]
  exact htriple.isOf ((standsFor_chord_iff h₁ h₂ h hfor hne).mpr hsum.symm)

theorem doubleJacobian_isOf {J J' : Jacobian} {P : Group} (hJ : J.IsOf P)
    (hdouble : doubleJacobian J = some J') (hz : J'.z ≠ 0) : J'.IsOf (P + P) := by
  rcases hJ.standsFor with ⟨x₁, y₁, h₁, rfl, hfor⟩
  have hJz : J.z ≠ 0 := by
    intro hzero
    apply hfor.1
    rw [hzero, Nat.cast_zero]
  rcases doubleJacobian_isTriple hJz with ⟨J'', hdouble', htriple⟩
  have hsame : J'' = J' := Option.some_injective _ (hdouble'.symm.trans hdouble)
  subst hsame
  have hne : 2 * y₁ ≠ 0 := by
    intro hzero
    apply htriple.z_ne_zero hz
    rw [← hfor.2.2]
    linear_combination (J.z : Fp) ^ 4 * hzero
  rcases exists_add_self_eq_some h₁ hne with ⟨x, y, h, hsum⟩
  rw [hsum]
  exact htriple.isOf ((standsFor_tangent_iff h₁ h hfor hne).mpr hsum.symm)

/-- A multiple of a point, for a factor of at most the given number of bits. -/
def multiple (P : Nat × Nat) : (bits k : Nat) → Option Jacobian
  | 0, _ => none
  | bits + 1, k =>
      if k = 1 then some ⟨P.1, P.2, 1⟩
      else do
        let half ← multiple P bits (k / 2)
        let double ← doubleJacobian half
        require (double.z ≠ 0)
        if k % 2 = 0 then return double
        let sum := addMixed double P
        require (sum.z ≠ 0)
        return sum

/-- What is computed stands for the multiple. -/
theorem multiple_isOf {x y : Nat} {P : Group} (hP : Represents x y P) {bits k : Nat} {J : Jacobian}
    (h : multiple (x, y) bits k = some J) : J.IsOf (k • P) := by
  induction bits generalizing k J with
  | zero => cases h
  | succ bits ih =>
      rw [multiple] at h
      by_cases hone : k = 1
      · rw [if_pos hone] at h
        cases h
        rw [hone, one_nsmul]
        exact hP.isOf
      · rw [if_neg hone] at h
        rcases Option.bind_eq_some_iff.mp h with ⟨half, hhalf, hrest⟩
        rcases Option.bind_eq_some_iff.mp hrest with ⟨double, hdouble, hrest'⟩
        rcases Option.bind_eq_some_iff.mp hrest' with ⟨_, hz, hlast⟩
        have hnonzero : double.z ≠ 0 := by simpa using hz
        have htwice := doubleJacobian_isOf (ih hhalf) hdouble hnonzero
        rw [← add_nsmul, ← two_mul] at htwice
        by_cases heven : k % 2 = 0
        · have hk : 2 * (k / 2) = k := by omega
          rw [if_pos heven] at hlast
          cases hlast
          rwa [hk] at htwice
        · have hk : 2 * (k / 2) + 1 = k := by omega
          rw [if_neg heven] at hlast
          rcases Option.bind_eq_some_iff.mp hlast with ⟨_, hsumz, hsum⟩
          cases hsum
          have hodd := addMixed_isOf htwice hP (by simpa using hsumz)
          rwa [← succ_nsmul, hk] at hodd

/-- A point that compares equal to what is computed is the multiple. -/
theorem represents_multiple {x y qx qy bits k : Nat} {P : Group} (hP : Represents x y P)
    (hcurve : isOnCurve qx qy = true)
    (h : (multiple (x, y) bits k).map (eqAffineJacobian (qx, qy)) = some true) :
    Represents qx qy (k • P) := by
  rcases Option.map_eq_some_iff.mp h with ⟨J, hJ, heq⟩
  rcases isOnCurve_iff.mp hcurve with ⟨Q, hQ⟩
  rcases multiple_isOf hP hJ with ⟨hx, hy, hz, x', y', h', hmultiple, hfor⟩
  rw [eqAffineJacobian_iff ⟨hx, hy, hz, rfl, rfl, rfl⟩] at heq
  have hcoordinates : (qx : Fp) = x' ∧ (qy : Fp) = y' :=
    (standsFor_iff_of_eq hfor.1 hfor.2.1.symm hfor.2.2.symm).mp heq
  rcases hQ.eq_some with ⟨hq, rfl⟩
  rw [hmultiple]
  refine ⟨hQ.x_lt, hQ.y_lt, hq, ?_⟩
  rw [Affine.Point.some.injEq]
  exact ⟨hcoordinates.1.symm, hcoordinates.2.symm⟩

end ReEncryption

end NuLink
