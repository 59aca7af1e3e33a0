import NuLinkCore.Contracts.Evm
import NuLinkCore.Lib.FixedWidth

/-!
# Additional operations of arithmetic

The Solidity library {lit}`AdditionalMath` divides with rounding up and adds a signed integer to
an unsigned one, or subtracts it.  All arithmetic is checked: an operation whose result leaves its
type reverts, also where what would be computed from it is in the type.

Main results:

- Theorems {lit}`AdditionalMath.add16_eq`, {lit}`AdditionalMath.sub16_eq` and
  {lit}`AdditionalMath.mul32_eq`: the assertions agree with the checks of the compiler.
- Theorem {lit}`AdditionalMath.bySign_eq`: an operation with a signed integer is exact except for
  the least one, which always reverts.
- Theorems {lit}`AdditionalMath.divCeil_of_lt` and {lit}`AdditionalMath.divCeil_of_le`: division
  rounds up, but reverts where the sum of the operands leaves the type.
- Theorem {lit}`AdditionalMath.operations_exact_iff`: where the operations are exact.
-/

namespace NuLink

open Evm FixedWidth

namespace SafeMath

/-- {lit}`add` of two words. -/
def add (a b : BitVec 256) : Option (BitVec 256) := addChecked a b

/-- {lit}`sub` of two words. -/
def sub (a b : BitVec 256) : Option (BitVec 256) := subChecked a b

end SafeMath

namespace AdditionalMath

variable {w : Nat}

/-! ## The operations -/

def max16 (a b : BitVec 16) : BitVec 16 := if a ≥ b then a else b

def min16 (a b : BitVec 16) : BitVec 16 := if a < b then a else b

/-- {lit}`divCeil`: the sum is computed first. -/
def divCeil (a b : BitVec 256) : Option (BitVec 256) := do
  let sum ← SafeMath.add a b
  let dividend ← subChecked sum 1
  divChecked dividend b

/-- {lit}`mul32`. -/
def mul32 (a b : BitVec 32) : Option (BitVec 32) :=
  if a = 0 then some 0
  else do
    let c ← mulChecked a b
    let quotient ← divChecked c a
    require (quotient = b)
    return c

/-- {lit}`add16`. -/
def add16 (a b : BitVec 16) : Option (BitVec 16) := do
  let c ← addChecked a b
  require (c ≥ a)
  return c

/-- {lit}`sub16`. -/
def sub16 (a b : BitVec 16) : Option (BitVec 16) := do
  require (b ≤ a)
  subChecked a b

/-- One operation with a signed integer that is not negative, and another one with the negation
of a negative one. -/
def bySign (nonnegative negative : BitVec w → BitVec w → Option (BitVec w)) (a b : BitVec w) :
    Option (BitVec w) :=
  if b.toInt ≥ 0 then nonnegative a b
  else do
    let magnitude ← negChecked b
    negative a magnitude

/-- {lit}`addSigned`. -/
def addSigned (a b : BitVec 256) : Option (BitVec 256) := bySign SafeMath.add SafeMath.sub a b

/-- {lit}`subSigned`. -/
def subSigned (a b : BitVec 256) : Option (BitVec 256) := bySign SafeMath.sub SafeMath.add a b

/-- {lit}`addSigned16`. -/
def addSigned16 (a b : BitVec 16) : Option (BitVec 16) := bySign add16 sub16 a b

/-- {lit}`subSigned16`. -/
def subSigned16 (a b : BitVec 16) : Option (BitVec 16) := bySign sub16 add16 a b

/-! ## Unsigned operations -/

theorem toNat_max16 (a b : BitVec 16) : (max16 a b).toNat = max a.toNat b.toNat := by
  rcases le_or_gt b.toNat a.toNat with hle | hlt
  · rw [max16, if_pos (BitVec.le_def.mpr hle), max_eq_left hle]
  · rw [max16, if_neg (mt BitVec.le_def.mp (not_le_of_gt hlt)), max_eq_right hlt.le]

theorem toNat_min16 (a b : BitVec 16) : (min16 a b).toNat = min a.toNat b.toNat := by
  rcases lt_or_ge a.toNat b.toNat with hlt | hge
  · rw [min16, if_pos (BitVec.lt_def.mpr hlt), min_eq_left hlt.le]
  · rw [min16, if_neg (mt BitVec.lt_def.mp (not_lt_of_ge hge)), min_eq_right hge]

/-- The assertion holds whenever the addition did not revert. -/
theorem add16_eq (a b : BitVec 16) : add16 a b = unsigned 16 (a.toNat + b.toNat) := by
  rw [add16, addChecked_eq]
  cases hsum : unsigned 16 (a.toNat + b.toNat) with
  | none => rfl
  | some c =>
      have hvalue := unsigned_eq_some_iff.mp hsum
      have hassert : c ≥ a := by
        rw [ge_iff_le, BitVec.le_def]
        omega
      simp [require, hassert]

/-- The assertion fails where the subtraction would revert. -/
theorem sub16_eq (a b : BitVec 16) : sub16 a b = unsigned 16 (a.toNat - b.toNat) := by
  rw [sub16, subChecked_eq]
  by_cases hassert : b ≤ a
  · simp [require, hassert]
  · rw [BitVec.le_def] at hassert
    have hnone : unsigned 16 (a.toNat - b.toNat) = none := by
      rw [unsigned_eq_none_iff]
      omega
    rw [hnone]
    simp

/-- The assertion holds whenever the multiplication did not revert. -/
theorem mul32_eq (a b : BitVec 32) : mul32 a b = unsigned 32 (a.toNat * b.toNat) := by
  rw [mul32, mulChecked_eq]
  by_cases hzero : a = 0
  · rw [if_pos hzero, eq_comm, unsigned_eq_some_iff, hzero]
    simp
  · rw [if_neg hzero]
    cases hproduct : unsigned 32 (a.toNat * b.toNat) with
    | none => rfl
    | some c =>
        have hvalue : c.toNat = a.toNat * b.toNat := by
          exact_mod_cast unsigned_eq_some_iff.mp hproduct
        have hpos : 0 < a.toNat := by
          rw [Nat.pos_iff_ne_zero]
          exact fun h => hzero (BitVec.eq_of_toNat_eq h)
        have hquotient : c / a = b := by
          apply BitVec.eq_of_toNat_eq
          rw [BitVec.toNat_udiv, hvalue, Nat.mul_div_cancel_left _ hpos]
        have hassert : divChecked c a = some b := by
          rw [divChecked, if_neg hzero, hquotient]
        simp [require, hassert]

/-- Division rounds up. -/
theorem divCeil_of_lt {a b : BitVec 256} (h : 0 < b.toNat)
    (hsum : a.toNat + b.toNat < 2 ^ 256) :
    ∃ c, divCeil a b = some c ∧ (c.toNat : Int) = ⌈(a.toNat : ℚ) / b.toNat⌉ := by
  have hsum' : (a.toNat + b.toNat : Int) < 2 ^ 256 := by exact_mod_cast hsum
  rcases exists_unsigned (by omega) hsum' with ⟨sum, hadd, hsumvalue⟩
  have hpositive : 0 ≤ (sum.toNat : Int) - 1 := by omega
  have hpredecessor : (sum.toNat : Int) - 1 < 2 ^ 256 := by omega
  rcases exists_unsigned hpositive hpredecessor with ⟨dividend, hsub, hdividend⟩
  have hdividend' : dividend.toNat = a.toNat + b.toNat - 1 := by omega
  have hpred : subChecked sum 1 = some dividend := (subChecked_eq sum 1).trans hsub
  have hzero : b ≠ 0 := by
    rintro rfl
    exact absurd h (by decide)
  refine ⟨dividend / b, ?_, ?_⟩
  · rw [divCeil, SafeMath.add, addChecked_eq, hadd, Option.bind_eq_bind, Option.bind_some, hpred,
      Option.bind_some, divChecked, if_neg hzero]
  · rw [ceil_natCast_div _ h, BitVec.toNat_udiv, hdividend']

/-- It reverts where the sum of the operands leaves the type, although the quotient does not. -/
theorem divCeil_of_le {a b : BitVec 256} (hsum : 2 ^ 256 ≤ a.toNat + b.toNat) :
    divCeil a b = none := by
  have hnone : unsigned 256 (a.toNat + b.toNat) = none := by
    rw [unsigned_eq_none_iff]
    omega
  rw [divCeil, SafeMath.add, addChecked_eq, hnone]
  rfl

/-! ## Signed operations -/

section Signed

variable {plus minus : BitVec w → BitVec w → Option (BitVec w)} (value : Int → Int → Int)

/-- An operation with a signed integer is exact except for the least one: that one has no
negation. -/
theorem bySign_eq (hw : 0 < w)
    (hplus : ∀ a b, plus a b = unsigned w (value a.toNat b.toNat))
    (hminus : ∀ a b, minus a b = unsigned w (value a.toNat (-b.toNat))) (a b : BitVec w) :
    bySign plus minus a b =
      if b = BitVec.intMin w then none else unsigned w (value a.toNat b.toInt) := by
  have hleast : (BitVec.intMin w).toInt < 0 := by
    rw [BitVec.toInt_intMin_of_pos hw]
    exact neg_lt_zero.mpr (by positivity)
  by_cases hmin : b = BitVec.intMin w
  · rw [if_pos hmin, hmin, bySign, if_neg (by omega), negChecked_intMin hw]
    rfl
  · rw [if_neg hmin, bySign]
    rcases le_or_gt 0 b.toInt with hnonneg | hneg
    · rw [if_pos hnonneg, hplus, toNat_of_nonneg hnonneg]
    · rw [if_neg (by omega), negChecked_of_ne hmin]
      change minus a (-b) = _
      rw [hminus, toNat_neg_of_neg hneg hmin, neg_neg]

/-- It is exact unless the least integer leads back into the type. -/
theorem bySign_exact_iff (hw : 0 < w)
    (hplus : ∀ a b, plus a b = unsigned w (value a.toNat b.toNat))
    (hminus : ∀ a b, minus a b = unsigned w (value a.toNat (-b.toNat))) (a b : BitVec w) :
    bySign plus minus a b = unsigned w (value a.toNat b.toInt) ↔
      (b = BitVec.intMin w →
        unsigned w (value a.toNat (BitVec.intMin w).toInt) = none) := by
  rw [bySign_eq value hw hplus hminus]
  by_cases hmin : b = BitVec.intMin w
  · rw [if_pos hmin, hmin, eq_comm]
    exact ⟨fun h _ => h, fun h => h rfl⟩
  · simp [hmin]

/-- The sum of an unsigned and a signed integer. -/
theorem bySign_sum_iff (hw : 0 < w) (hplus : ∀ a b, plus a b = unsigned w (a.toNat + b.toNat))
    (hminus : ∀ a b, minus a b = unsigned w (a.toNat - b.toNat)) (a b : BitVec w) :
    bySign plus minus a b = unsigned w (a.toNat + b.toInt) ↔
      (b = BitVec.intMin w → a.toNat < 2 ^ (w - 1)) := by
  have hexact := bySign_exact_iff (fun a b => a + b) hw hplus
    (by simpa only [← sub_eq_add_neg] using hminus) a b
  rwa [unsigned_add_intMin_eq_none_iff hw] at hexact

/-- The difference of an unsigned and a signed integer. -/
theorem bySign_difference_iff (hw : 0 < w)
    (hplus : ∀ a b, plus a b = unsigned w (a.toNat + b.toNat))
    (hminus : ∀ a b, minus a b = unsigned w (a.toNat - b.toNat)) (a b : BitVec w) :
    bySign minus plus a b = unsigned w (a.toNat - b.toInt) ↔
      (b = BitVec.intMin w → 2 ^ (w - 1) ≤ a.toNat) := by
  have hexact := bySign_exact_iff (fun a b => a - b) hw hminus
    (by simpa only [sub_neg_eq_add] using hplus) a b
  rwa [unsigned_sub_intMin_eq_none_iff hw] at hexact

end Signed

/-! ## Exactness -/

/-- A signed operation is exact, and reverts only where the type does not have its result, unless
the signed operand is the least one and its negation leads back into the type.  Division rounds up
exactly where the sum of its operands is in the type. -/
theorem operations_exact_iff (a b : BitVec 256) (a16 b16 : BitVec 16) :
    (addSigned a b = unsigned 256 (a.toNat + b.toInt) ↔
      (b = BitVec.intMin 256 → a.toNat < 2 ^ 255)) ∧
    (subSigned a b = unsigned 256 (a.toNat - b.toInt) ↔
      (b = BitVec.intMin 256 → 2 ^ 255 ≤ a.toNat)) ∧
    (addSigned16 a16 b16 = unsigned 16 (a16.toNat + b16.toInt) ↔
      (b16 = BitVec.intMin 16 → a16.toNat < 2 ^ 15)) ∧
    (subSigned16 a16 b16 = unsigned 16 (a16.toNat - b16.toInt) ↔
      (b16 = BitVec.intMin 16 → 2 ^ 15 ≤ a16.toNat)) ∧
    (0 < b.toNat →
      ((∃ c, divCeil a b = some c ∧ (c.toNat : Int) = ⌈(a.toNat : ℚ) / b.toNat⌉) ↔
        a.toNat + b.toNat < 2 ^ 256)) := by
  refine ⟨?_, ?_, ?_, ?_, ?_⟩
  · exact bySign_sum_iff (by decide) addChecked_eq subChecked_eq a b
  · exact bySign_difference_iff (by decide) addChecked_eq subChecked_eq a b
  · exact bySign_sum_iff (by decide) add16_eq sub16_eq a16 b16
  · exact bySign_difference_iff (by decide) add16_eq sub16_eq a16 b16
  · intro h
    refine ⟨?_, divCeil_of_lt h⟩
    rintro ⟨c, hc, -⟩
    by_contra hsum
    rw [divCeil_of_le (not_lt.mp hsum)] at hc
    cases hc

theorem operations_exact_iff_sample :
    addSigned 5 (-3) = unsigned 256 2 ∧ subSigned16 5 (-3) = unsigned 16 8 ∧
      ∃ c, divCeil 7 2 = some c ∧ (c.toNat : Int) = ⌈(7 : ℚ) / 2⌉ :=
  ⟨(operations_exact_iff 5 (-3) 0 0).1.mpr (by decide),
    (operations_exact_iff 0 0 5 (-3)).2.2.2.1.mpr (by decide),
    ((operations_exact_iff 7 2 0 0).2.2.2.2 (by decide)).mpr (by decide)⟩

/-- Each operation reverts at an input whose exact result is in the type; the bits of the least
signed integer are those of half of the unsigned range. -/
theorem exact_results_revert :
    (addSigned (BitVec.intMin 256) (BitVec.intMin 256) = none ∧
      unsigned 256 ((BitVec.intMin 256).toNat + (BitVec.intMin 256).toInt) = some 0) ∧
    (subSigned 0 (BitVec.intMin 256) = none ∧
      unsigned 256 (0 - (BitVec.intMin 256).toInt) = some (BitVec.intMin 256)) ∧
    (addSigned16 (BitVec.intMin 16) (BitVec.intMin 16) = none ∧
      unsigned 16 ((BitVec.intMin 16).toNat + (BitVec.intMin 16).toInt) = some 0) ∧
    (subSigned16 0 (BitVec.intMin 16) = none ∧
      unsigned 16 (0 - (BitVec.intMin 16).toInt) = some (BitVec.intMin 16)) ∧
    divCeil (BitVec.allOnes 256) 1 = none := by
  decide +kernel

end AdditionalMath

end NuLink
