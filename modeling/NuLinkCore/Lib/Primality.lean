import Mathlib.Algebra.BigOperators.Associated
import Mathlib.NumberTheory.LucasPrimality
import Mathlib.Tactic

/-!
# Certified primes

A number is prime when some residue has order one less than the number.  A certificate
names such a residue and the prime factors of the order; the powers are computed by
repeated squaring, so that numbers of a few hundred bits can be checked by evaluation.

Main results:

- Theorem {lit}`powMod_cast`: repeated squaring computes the power.
- Theorem {lit}`Certificate.prime`: a certified number is prime.
-/

namespace Primality

/-- Multiply an accumulator by a power modulo {lit}`m`, going through the low bits of the
exponent. -/
def powMod (m : Nat) : (bits base exponent accumulator : Nat) → Nat
  | 0, _, _, accumulator => accumulator
  | bits + 1, base, exponent, accumulator =>
      powMod m bits (base * base % m) (exponent / 2)
        (if exponent % 2 = 0 then accumulator else accumulator * base % m)

theorem powMod_cast (m : Nat) {bits exponent : Nat} (h : exponent < 2 ^ bits)
    (base accumulator : Nat) :
    (powMod m bits base exponent accumulator : ZMod m) = accumulator * (base : ZMod m) ^ exponent := by
  induction bits generalizing base exponent accumulator with
  | zero =>
      have hzero : exponent = 0 := by simpa using h
      simp [powMod, hzero]
  | succ bits ih =>
      have hhalf : exponent / 2 < 2 ^ bits := by
        rw [pow_succ] at h
        omega
      rw [powMod, ih hhalf]
      have hsquare : ((base * base % m : Nat) : ZMod m) ^ (exponent / 2) =
          (base : ZMod m) ^ (2 * (exponent / 2)) := by
        rw [ZMod.natCast_mod, Nat.cast_mul, ← pow_two, ← pow_mul]
      rw [hsquare]
      rcases Nat.mod_two_eq_zero_or_one exponent with heven | hodd
      · rw [if_pos heven]
        congr 2
        omega
      · rw [if_neg (by omega), ZMod.natCast_mod, Nat.cast_mul, mul_assoc, ← pow_succ']
        congr 2
        omega

/-- The residues {lit}`1` and {lit}`base ^ exponent` agree. -/
def isOne (m bits base exponent : Nat) : Bool := powMod m bits base exponent 1 % m == 1 % m

theorem isOne_iff {m bits base exponent : Nat} (h : exponent < 2 ^ bits) :
    isOne m bits base exponent = true ↔ (base : ZMod m) ^ exponent = 1 := by
  have hpow := powMod_cast m h base 1
  rw [Nat.cast_one, one_mul] at hpow
  have hone := ZMod.natCast_eq_natCast_iff' (powMod m bits base exponent 1) 1 m
  rw [Nat.cast_one, hpow] at hone
  rw [isOne, beq_iff_eq, hone]

/-- The witness has order {lit}`p - 1`, for a list of the prime factors of that order. -/
def hasFullOrder (p bits witness : Nat) (factors : List Nat) : Bool :=
  isOne p bits witness (p - 1) &&
    factors.all fun q => !isOne p bits witness ((p - 1) / q)

/-- A residue of full order, with the prime factors of the order. -/
structure Certificate (p : Nat) where
  witness : Nat
  factors : List Nat
  bits : Nat
  primes : ∀ q ∈ factors, q.Prime
  prod : factors.prod = p - 1
  fits : p - 1 < 2 ^ bits
  order : hasFullOrder p bits witness factors = true

/-- A certified number is prime. -/
theorem Certificate.prime {p : Nat} (c : Certificate p) : p.Prime := by
  have horder := c.order
  rw [hasFullOrder, Bool.and_eq_true, List.all_eq_true] at horder
  apply lucas_primality p (c.witness : ZMod p)
  · exact (isOne_iff c.fits).mp horder.1
  · intro q hq hdvd hone
    rw [← c.prod] at hdvd
    rcases (Prime.dvd_prod_iff hq.prime).mp hdvd with ⟨factor, hmem, hfactor⟩
    have heq : q = factor := (Nat.prime_dvd_prime_iff_eq hq (c.primes factor hmem)).mp hfactor
    have hfits : (p - 1) / q < 2 ^ c.bits := (Nat.div_le_self _ _).trans_lt c.fits
    have hpasses := horder.2 factor hmem
    rw [← heq, (isOne_iff hfits).mpr hone] at hpasses
    cases hpasses

end Primality
