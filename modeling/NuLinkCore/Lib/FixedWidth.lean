import Mathlib.Data.Rat.Floor
import Mathlib.Tactic

/-!
# Checked arithmetic on fixed-width integers

A fixed-width integer is a bit vector.  It is read as a natural number or, in two's complement,
as an integer.  A checked operation fails where its result leaves the type.

Main results:

- Theorems {lit}`unsigned_eq_some_iff` and {lit}`unsigned_eq_none_iff`: which values an unsigned
  type has.
- Theorems {lit}`addChecked_eq`, {lit}`subChecked_eq` and {lit}`mulChecked_eq`: the unsigned
  operations fail exactly where the type does not have the result.
- Theorems {lit}`negChecked_intMin` and {lit}`negChecked_of_ne`: negation fails for the least
  integer only.
- Theorems {lit}`unsigned_add_intMin_eq_none_iff` and {lit}`unsigned_sub_intMin_eq_none_iff`: where
  the least integer can be added or subtracted.
- Theorem {lit}`ceil_natCast_div`: the ceiling of a quotient, by rounding down.
-/

namespace FixedWidth

variable {w : Nat}

/-! ## Unsigned values -/

/-- The unsigned integer of a value, if the type has it. -/
def unsigned (w : Nat) (value : Int) : Option (BitVec w) :=
  if 0 ≤ value ∧ value < 2 ^ w then some (BitVec.ofInt w value) else none

theorem unsigned_eq_none_iff {value : Int} :
    unsigned w value = none ↔ ¬ (0 ≤ value ∧ value < 2 ^ w) := by
  rw [unsigned]
  split <;> simp_all

theorem toNat_lt (a : BitVec w) : (a.toNat : Int) < 2 ^ w := by
  exact_mod_cast a.isLt

theorem unsigned_toNat (a : BitVec w) : unsigned w a.toNat = some a := by
  rw [unsigned, if_pos ⟨Int.natCast_nonneg _, toNat_lt a⟩, BitVec.ofInt_natCast,
    BitVec.ofNat_toNat, BitVec.setWidth_eq]

theorem unsigned_eq_some_iff {value : Int} {c : BitVec w} :
    unsigned w value = some c ↔ (c.toNat : Int) = value := by
  constructor
  · intro h
    have hrange : 0 ≤ value ∧ value < 2 ^ w := by
      by_contra hnot
      rw [unsigned_eq_none_iff.mpr hnot] at h
      cases h
    rw [unsigned, if_pos hrange, Option.some.injEq] at h
    rw [← h, BitVec.toNat_ofInt, Nat.cast_pow, Nat.cast_ofNat, Int.emod_eq_of_lt hrange.1 hrange.2,
      Int.toNat_of_nonneg hrange.1]
  · rintro rfl
    exact unsigned_toNat c

theorem exists_unsigned {value : Int} (hnonneg : 0 ≤ value) (hlt : value < 2 ^ w) :
    ∃ c, unsigned w value = some c ∧ (c.toNat : Int) = value := by
  have hsome : unsigned w value = some (BitVec.ofInt w value) := if_pos ⟨hnonneg, hlt⟩
  exact ⟨_, hsome, unsigned_eq_some_iff.mp hsome⟩

/-! ## Operations -/

def addChecked (a b : BitVec w) : Option (BitVec w) :=
  if a.uaddOverflow b then none else some (a + b)

def subChecked (a b : BitVec w) : Option (BitVec w) :=
  if a.usubOverflow b then none else some (a - b)

def mulChecked (a b : BitVec w) : Option (BitVec w) :=
  if a.umulOverflow b then none else some (a * b)

def divChecked (a b : BitVec w) : Option (BitVec w) := if b = 0 then none else some (a / b)

/-- The negation of a signed integer. -/
def negChecked (b : BitVec w) : Option (BitVec w) := if b.negOverflow then none else some (-b)

theorem addChecked_eq (a b : BitVec w) :
    addChecked a b = unsigned w (a.toNat + b.toNat) := by
  by_cases hover : a.uaddOverflow b = true
  · rw [addChecked, if_pos hover, eq_comm, unsigned_eq_none_iff]
    have hge : 2 ^ w ≤ a.toNat + b.toNat := by simpa [BitVec.uaddOverflow] using hover
    have hge' : (2 : Int) ^ w ≤ a.toNat + b.toNat := by exact_mod_cast hge
    omega
  · rw [addChecked, if_neg hover, eq_comm, unsigned_eq_some_iff,
      BitVec.toNat_add_of_not_uaddOverflow hover, Nat.cast_add]

theorem subChecked_eq (a b : BitVec w) :
    subChecked a b = unsigned w (a.toNat - b.toNat) := by
  by_cases hover : a.usubOverflow b = true
  · rw [subChecked, if_pos hover, eq_comm, unsigned_eq_none_iff]
    have hlt : a.toNat < b.toNat := by simpa [BitVec.usubOverflow] using hover
    omega
  · have hle : b.toNat ≤ a.toNat := by simpa [BitVec.usubOverflow] using hover
    rw [subChecked, if_neg hover, eq_comm, unsigned_eq_some_iff,
      BitVec.toNat_sub_of_not_usubOverflow hover, Nat.cast_sub hle]

theorem mulChecked_eq (a b : BitVec w) :
    mulChecked a b = unsigned w (a.toNat * b.toNat) := by
  by_cases hover : a.umulOverflow b = true
  · rw [mulChecked, if_pos hover, eq_comm, unsigned_eq_none_iff]
    have hge : 2 ^ w ≤ a.toNat * b.toNat := by simpa [BitVec.umulOverflow] using hover
    have hge' : (2 : Int) ^ w ≤ a.toNat * b.toNat := by exact_mod_cast hge
    omega
  · have hlt : a.toNat * b.toNat < 2 ^ w := by simpa [BitVec.umulOverflow] using hover
    rw [mulChecked, if_neg hover, eq_comm, unsigned_eq_some_iff, BitVec.toNat_mul_of_lt hlt,
      Nat.cast_mul]

theorem addChecked_eq_some_iff {a b c : BitVec w} :
    addChecked a b = some c ↔ a.toNat + b.toNat < 2 ^ w ∧ a + b = c := by
  simp [addChecked, BitVec.uaddOverflow]

theorem subChecked_eq_some_iff {a b c : BitVec w} :
    subChecked a b = some c ↔ b.toNat ≤ a.toNat ∧ a - b = c := by
  simp [subChecked, BitVec.usubOverflow]

/-- A signed integer that is not negative has the same unsigned value. -/
theorem toNat_of_nonneg {b : BitVec w} (h : 0 ≤ b.toInt) : (b.toNat : Int) = b.toInt := by
  have hlt : b.toNat < 2 ^ w := b.isLt
  rw [BitVec.toInt_eq_toNat_cond] at h ⊢
  split at h <;> omega

/-- The least integer has no negation among the signed ones. -/
theorem negChecked_intMin (hw : 0 < w) : negChecked (BitVec.intMin w) = none := by
  have hover : (BitVec.intMin w).negOverflow = true := by
    simp [BitVec.negOverflow, BitVec.toInt_intMin_of_pos hw]
  rw [negChecked, if_pos hover]

theorem negChecked_of_ne {b : BitVec w} (h : b ≠ BitVec.intMin w) : negChecked b = some (-b) := by
  have hpos : 0 < w := by
    by_contra hzero
    obtain rfl : w = 0 := by omega
    exact h (Subsingleton.elim _ _)
  have hover : ¬ b.negOverflow = true := by
    intro hmin
    apply h
    apply BitVec.eq_of_toInt_eq
    rw [BitVec.toInt_intMin_of_pos hpos]
    simpa [BitVec.negOverflow] using hmin
  rw [negChecked, if_neg hover]

/-- The magnitude of any other negative integer. -/
theorem toNat_neg_of_neg {b : BitVec w} (hneg : b.toInt < 0) (h : b ≠ BitVec.intMin w) :
    ((-b).toNat : Int) = -b.toInt := by
  have hvalue : (-b).toInt = -b.toInt := BitVec.toInt_neg_of_ne_intMin h
  rw [toNat_of_nonneg (by omega), hvalue]

/-- Adding the least integer takes half of the range away. -/
theorem unsigned_add_intMin_eq_none_iff (hw : 0 < w) (a : BitVec w) :
    unsigned w (a.toNat + (BitVec.intMin w).toInt) = none ↔ a.toNat < 2 ^ (w - 1) := by
  have hlt : (a.toNat : Int) < 2 ^ w := toNat_lt a
  have hpos : (0 : Int) < 2 ^ (w - 1) := by positivity
  have hhalf : (a.toNat : Int) < 2 ^ (w - 1) ↔ a.toNat < 2 ^ (w - 1) := by exact_mod_cast Iff.rfl
  rw [unsigned_eq_none_iff, BitVec.toInt_intMin_of_pos hw, ← hhalf]
  omega

/-- Subtracting the least integer adds half of the range. -/
theorem unsigned_sub_intMin_eq_none_iff (hw : 0 < w) (a : BitVec w) :
    unsigned w (a.toNat - (BitVec.intMin w).toInt) = none ↔ 2 ^ (w - 1) ≤ a.toNat := by
  have hpower : (2 : Int) ^ w = 2 ^ (w - 1) * 2 := by
    rw [← pow_succ, Nat.sub_add_cancel hw]
  have hhalf : (2 : Int) ^ (w - 1) ≤ a.toNat ↔ 2 ^ (w - 1) ≤ a.toNat := by exact_mod_cast Iff.rfl
  rw [unsigned_eq_none_iff, BitVec.toInt_intMin_of_pos hw, ← hhalf]
  omega

/-! ## Quotients -/

/-- The ceiling of a quotient, by rounding down. -/
theorem ceil_natCast_div (a : Nat) {b : Nat} (h : 0 < b) :
    ⌈(a : ℚ) / b⌉ = ((a + b - 1) / b : Nat) := by
  have hb : (0 : ℚ) < b := by exact_mod_cast h
  apply eq_of_forall_ge_iff
  intro z
  have hceil : ⌈(a : ℚ) / b⌉ ≤ z ↔ (a : Int) ≤ z * b := by
    rw [Int.ceil_le, div_le_iff₀ hb]
    exact_mod_cast Iff.rfl
  have hfloor : ((a + b - 1 : Nat) : Int) / b ≤ z ↔ (a : Int) ≤ z * b := by
    rw [← Int.lt_add_one_iff, Int.ediv_lt_iff_lt_mul (by exact_mod_cast h)]
    have hmul : (z + 1) * (b : Int) = z * b + b := by ring
    omega
  rw [hceil, Int.natCast_ediv, hfloor]

end FixedWidth
