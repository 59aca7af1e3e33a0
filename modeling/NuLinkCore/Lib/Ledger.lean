import Mathlib.Algebra.BigOperators.Group.Finset.Piecewise
import Mathlib.Algebra.Order.BigOperators.Group.Finset
import Mathlib.Tactic

/-!
# Ledgers

Amounts are held by finitely many holders, and a run changes them step by step.  A tally adds
up what the steps of a run pay, each in the state in which it is taken.

Main results:

- Theorem {lit}`Ledger.total_update`: what changing one holding does to the total.
- Theorem {lit}`Ledger.tally_balance`: when every step accounts for the change of a measure, a
  run does.
- Theorem {lit}`Ledger.tally_le_tally`: when no step pays more than another measure of it, a run
  does not.
-/

namespace Ledger

universe u v

open Finset

/-! ## Holdings -/

section Holdings

variable {α : Type u} [Fintype α]

/-- What all holders have together. -/
def total (held : α → Nat) : Nat := ∑ a, held a

theorem le_total (held : α → Nat) (a : α) : held a ≤ total held :=
  single_le_sum (fun _ _ => Nat.zero_le _) (mem_univ a)

variable [DecidableEq α]

/-- Changing one holding changes the total by the difference. -/
theorem total_update (held : α → Nat) (a : α) (amount : Nat) :
    total (Function.update held a amount) + held a = total held + amount := by
  have hrest : total held = held a + ∑ b ∈ univ \ {a}, held b :=
    (add_sum_erase univ held (mem_univ a)).symm.trans (by rw [sdiff_singleton_eq_erase])
  rw [total, sum_update_of_mem (mem_univ a), hrest]
  omega

/-- Two different holders have at most the total. -/
theorem add_le_total (held : α → Nat) {a b : α} (hne : a ≠ b) : held a + held b ≤ total held := by
  have hsum : ∑ c ∈ {a, b}, held c = held a + held b := sum_pair hne
  rw [← hsum]
  exact sum_le_sum_of_subset (subset_univ _)

end Holdings

/-! ## Tallies -/

section Tally

variable {σ : Type u} {α : Type v} (next : σ → α → σ)

/-- What the steps of a run pay together. -/
def tally (amount : σ → α → Nat) : σ → List α → Nat
  | _, [] => 0
  | s, a :: as => amount s a + tally amount (next s a) as

variable {next}

/-- When every step accounts for the change of a measure by what comes in and what goes out, so
does a run. -/
theorem tally_balance (measure : σ → Nat) {paidIn paidOut : σ → α → Nat}
    (hstep : ∀ s a, measure (next s a) + paidOut s a = measure s + paidIn s a) (s : σ)
    (as : List α) :
    measure (as.foldl next s) + tally next paidOut s as =
      measure s + tally next paidIn s as := by
  induction as generalizing s with
  | nil => rfl
  | cons a as ih =>
      have hfirst := hstep s a
      have hrest := ih (next s a)
      rw [List.foldl_cons, tally, tally]
      omega

/-- When no step pays more than another measure of it, a run does not. -/
theorem tally_le_tally {amount bound : σ → α → Nat} (s : σ) (as : List α)
    (hle : ∀ s, ∀ a ∈ as, amount s a ≤ bound s a) : tally next amount s as ≤ tally next bound s as := by
  induction as generalizing s with
  | nil => exact Nat.le_refl 0
  | cons a as ih =>
      have hfirst := hle s a List.mem_cons_self
      have hrest := ih (next s a) fun s b hb => hle s b (List.mem_cons_of_mem a hb)
      rw [tally, tally]
      omega

theorem tally_add (amount amount' : σ → α → Nat) (s : σ) (as : List α) :
    tally next (fun s a => amount s a + amount' s a) s as =
      tally next amount s as + tally next amount' s as := by
  induction as generalizing s with
  | nil => rfl
  | cons a as ih =>
      simp only [tally]
      rw [ih]
      omega

/-- What several kinds of payment come to is the sum of what each comes to. -/
theorem tally_sum {ι : Type*} (kinds : Finset ι) (amount : ι → σ → α → Nat) (s : σ) (as : List α) :
    tally next (fun s a => ∑ i ∈ kinds, amount i s a) s as =
      ∑ i ∈ kinds, tally next (amount i) s as := by
  induction as generalizing s with
  | nil => simp [tally]
  | cons a as ih =>
      simp only [tally]
      rw [ih, sum_add_distrib]

end Tally

end Ledger
