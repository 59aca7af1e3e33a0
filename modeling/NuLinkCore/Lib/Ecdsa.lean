import Mathlib.GroupTheory.OrderOfElement
import Mathlib.Tactic

/-!
# Recovering keys from signatures

A signature of a hash is a pair of scalars r and s, where r is the first coordinate of a nonce
point R.  With the parity of the second coordinate of R it recovers a key K, for which
s • R = hash • G + r • K.  In a group whose order is the one of the generator this determines K.

Main results:

- Theorem {lit}`Ecdsa.Domain.recovers_of_sign`: a signature that was made with a secret recovers
  the key of the secret.
-/

namespace Ecdsa

variable {G : Type*} [AddCommGroup G]

/-- A generator, the bound of the scalars, and the points with a given first coordinate and a
given parity of the second one. -/
structure Domain (G : Type*) where
  generator : G
  order : Nat
  nonce : (parity r : Nat) → G → Prop

namespace Domain

variable (domain : Domain G)

/-- A signature of a hash recovers a key. -/
structure Recovers (hash parity r s : Nat) (key : G) : Prop where
  r_pos : 0 < r
  r_lt : r < domain.order
  s_pos : 0 < s
  s_lt : s < domain.order
  equation : ∃ R, domain.nonce parity r R ∧ s • R = hash • domain.generator + r • key

variable {domain}

/-- A signature that was made with a secret recovers the key of the secret. -/
theorem recovers_of_sign (horder : domain.order • domain.generator = 0)
    {hash parity r s secret k : Nat} (hr : 0 < r ∧ r < domain.order)
    (hs : 0 < s ∧ s < domain.order) (hnonce : domain.nonce parity r (k • domain.generator))
    (hsign : s * k ≡ hash + r * secret [MOD domain.order]) :
    domain.Recovers hash parity r s (secret • domain.generator) where
  r_pos := hr.1
  r_lt := hr.2
  s_pos := hs.1
  s_lt := hs.2
  equation := by
    have hmod : s * k ≡ hash + r * secret [MOD addOrderOf domain.generator] :=
      hsign.of_dvd (addOrderOf_dvd_of_nsmul_eq_zero horder)
    refine ⟨k • domain.generator, hnonce, ?_⟩
    calc s • k • domain.generator = (s * k) • domain.generator := (mul_nsmul' _ _ _).symm
      _ = (hash + r * secret) • domain.generator := nsmul_eq_nsmul_iff_modEq.mpr hmod
      _ = hash • domain.generator + r • secret • domain.generator := by
        rw [add_nsmul, mul_nsmul']

end Domain

end Ecdsa
