import Mathlib.Algebra.BigOperators.Group.List.Basic
import Mathlib.Order.Interval.Finset.Nat
import Mathlib.Tactic

/-!
# Prefix sums

The running sums of a list of weights cut the positions below their total into intervals, one
for each weight.  A position is found in its interval by bisection, and an interval is emptied
by subtracting its width from the sums that follow.

Main results:

- Theorem {lit}`PrefixSums.bisectRight_bounds`: a position below the total is found in the
  interval of a weight.
- Theorem {lit}`PrefixSums.card_positions`: each weight is found at as many positions as it is
  large.
- Theorem {lit}`PrefixSums.subtractFrom_accumulateFrom`: subtracting a weight from the sums that
  follow is setting it to zero.
-/

namespace PrefixSums

/-- The running sums of a list, above a start. -/
def accumulateFrom : Nat → List Nat → List Nat
  | _, [] => []
  | start, weight :: weights => (start + weight) :: accumulateFrom (start + weight) weights

/-- The running sums of a list. -/
def accumulate (weights : List Nat) : List Nat := accumulateFrom 0 weights

/-- Where a position belongs in sorted sums, after those that are equal to it. -/
def bisectRight : List Nat → Nat → Nat
  | [], _ => 0
  | total :: rest, position => if total ≤ position then bisectRight rest position + 1 else 0

/-- Subtract an amount from the sums from an index on. -/
def subtractFrom : Nat → Nat → List Nat → List Nat
  | 0, amount, totals => totals.map (· - amount)
  | _ + 1, _, [] => []
  | index + 1, amount, total :: rest => total :: subtractFrom index amount rest

/-! ## Running sums -/

@[simp]
theorem length_accumulateFrom (start : Nat) (weights : List Nat) :
    (accumulateFrom start weights).length = weights.length := by
  induction weights generalizing start with
  | nil => rfl
  | cons weight weights ih => simp [accumulateFrom, ih]

@[simp]
theorem length_accumulate (weights : List Nat) :
    (accumulate weights).length = weights.length :=
  length_accumulateFrom 0 weights

theorem getElem?_accumulateFrom (start : Nat) (weights : List Nat) (index : Nat) :
    (accumulateFrom start weights)[index]? =
      if index < weights.length then some (start + (weights.take (index + 1)).sum) else none := by
  induction weights generalizing start index with
  | nil => simp [accumulateFrom]
  | cons weight weights ih =>
      cases index with
      | zero => simp [accumulateFrom]
      | succ index => simp [accumulateFrom, ih, Nat.add_assoc]

/-- The last of the sums is the total. -/
theorem getLast?_accumulateFrom {start : Nat} {weights : List Nat} (h : weights ≠ []) :
    (accumulateFrom start weights).getLast? = some (start + weights.sum) := by
  have hlength : 0 < weights.length := List.length_pos_iff.mpr h
  rw [List.getLast?_eq_getElem?, length_accumulateFrom, getElem?_accumulateFrom,
    if_pos (by omega), Nat.sub_add_cancel hlength, List.take_length]

/-- The width of an interval is the difference of the sums on its two sides. -/
theorem sum_take_succ_sub {weights : List Nat} {index weight : Nat}
    (h : weights[index]? = some weight) :
    (weights.take (index + 1)).sum = (weights.take index).sum + weight := by
  induction weights generalizing index with
  | nil => simp at h
  | cons first weights ih =>
      cases index with
      | zero =>
          have hfirst : first = weight := by simpa using h
          simp [hfirst]
      | succ index =>
          have hrest : weights[index]? = some weight := by simpa using h
          simp [ih hrest, Nat.add_assoc]

/-! ## Bisection -/

/-- A position below the total is found in the interval of a weight. -/
theorem bisectRight_bounds {start : Nat} {weights : List Nat} {position : Nat}
    (hstart : start ≤ position) (htotal : position < start + weights.sum) :
    bisectRight (accumulateFrom start weights) position < weights.length ∧
      start + (weights.take (bisectRight (accumulateFrom start weights) position)).sum ≤
        position ∧
      position < start +
        (weights.take (bisectRight (accumulateFrom start weights) position + 1)).sum := by
  induction weights generalizing start with
  | nil =>
      rw [List.sum_nil] at htotal
      omega
  | cons weight weights ih =>
      rw [accumulateFrom, bisectRight]
      by_cases hbeyond : start + weight ≤ position
      · rw [if_pos hbeyond]
        rw [List.sum_cons] at htotal
        have hrest := ih hbeyond (by omega)
        simp only [List.length_cons, List.take_succ_cons, List.sum_cons]
        omega
      · rw [if_neg hbeyond]
        simp only [List.length_cons, List.take_zero, List.sum_nil, List.take_succ_cons,
          List.sum_cons]
        omega

/-- The weight that a position below the total is found at is not zero. -/
theorem exists_weight_bisectRight {weights : List Nat} {position : Nat}
    (h : position < weights.sum) :
    ∃ weight, weights[bisectRight (accumulate weights) position]? = some weight ∧
      0 < weight := by
  have hbounds := bisectRight_bounds (Nat.zero_le position) (by omega : position < 0 + weights.sum)
  have hweight := List.getElem?_eq_getElem hbounds.1
  refine ⟨_, hweight, ?_⟩
  have hsum := sum_take_succ_sub hweight
  omega

theorem bisectRight_accumulateFrom_eq_iff {start : Nat} {weights : List Nat} {position index : Nat}
    (hstart : start ≤ position) (hindex : index < weights.length) :
    bisectRight (accumulateFrom start weights) position = index ↔
      start + (weights.take index).sum ≤ position ∧
        position < start + (weights.take (index + 1)).sum := by
  induction weights generalizing start index with
  | nil => simp at hindex
  | cons weight weights ih =>
      rw [accumulateFrom, bisectRight]
      cases index with
      | zero =>
          by_cases hbeyond : start + weight ≤ position
          · rw [if_pos hbeyond]
            simp only [List.take_zero, List.sum_nil, List.take_succ_cons, List.sum_cons]
            omega
          · rw [if_neg hbeyond, List.take_zero, List.sum_nil, List.take_succ_cons, List.take_zero,
              List.sum_cons, List.sum_nil]
            constructor
            · intro _
              omega
            · intro _
              rfl
      | succ index =>
          simp only [List.take_succ_cons, List.sum_cons, ← Nat.add_assoc]
          by_cases hbeyond : start + weight ≤ position
          · rw [if_pos hbeyond, Nat.add_right_cancel_iff]
            exact ih hbeyond (by simpa using hindex)
          · rw [if_neg hbeyond]
            omega

/-- The interval in which a position is found. -/
theorem bisectRight_eq_iff {weights : List Nat} {position index : Nat}
    (hindex : index < weights.length) :
    bisectRight (accumulate weights) position = index ↔
      (weights.take index).sum ≤ position ∧ position < (weights.take (index + 1)).sum := by
  have h := bisectRight_accumulateFrom_eq_iff (Nat.zero_le position) hindex
  rw [Nat.zero_add, Nat.zero_add] at h
  exact h

/-- Each weight is found at as many positions below the total as it is large. -/
theorem card_positions {weights : List Nat} {index weight : Nat}
    (h : weights[index]? = some weight) :
    ((Finset.range weights.sum).filter
      (fun position => bisectRight (accumulate weights) position = index)).card = weight := by
  obtain ⟨hindex, -⟩ := List.getElem?_eq_some_iff.mp h
  have hle : (weights.take (index + 1)).sum ≤ weights.sum := by
    have hsplit := List.sum_take_add_sum_drop weights (index + 1)
    omega
  have hfilter : (Finset.range weights.sum).filter
      (fun position => bisectRight (accumulate weights) position = index) =
        Finset.Ico (weights.take index).sum (weights.take (index + 1)).sum := by
    ext position
    rw [Finset.mem_filter, Finset.mem_range, Finset.mem_Ico, bisectRight_eq_iff hindex]
    constructor
    · rintro ⟨-, hbounds⟩
      exact hbounds
    · intro hbounds
      exact ⟨by omega, hbounds⟩
  rw [hfilter, Nat.card_Ico, sum_take_succ_sub h, Nat.add_sub_cancel_left]

/-! ## Emptying an interval -/

theorem map_sub_accumulateFrom (start amount : Nat) (weights : List Nat) :
    (accumulateFrom (start + amount) weights).map (· - amount) = accumulateFrom start weights := by
  induction weights generalizing start with
  | nil => rfl
  | cons weight weights ih =>
      have hsum : start + amount + weight = start + weight + amount := by omega
      rw [accumulateFrom, accumulateFrom, List.map_cons, hsum, ih, Nat.add_sub_cancel]

/-- Subtracting a weight from the sums that follow is setting it to zero. -/
theorem subtractFrom_accumulateFrom {start index weight : Nat} {weights : List Nat}
    (h : weights[index]? = some weight) :
    subtractFrom index weight (accumulateFrom start weights) =
      accumulateFrom start (weights.set index 0) := by
  induction weights generalizing start index with
  | nil => simp at h
  | cons first weights ih =>
      cases index with
      | zero =>
          have hfirst : first = weight := by simpa using h
          rw [List.set_cons_zero, accumulateFrom, accumulateFrom, subtractFrom, List.map_cons,
            hfirst, Nat.add_sub_cancel, map_sub_accumulateFrom, Nat.add_zero]
      | succ index =>
          have hrest : weights[index]? = some weight := by simpa using h
          rw [List.set_cons_succ, accumulateFrom, accumulateFrom, subtractFrom, ih hrest]

end PrefixSums
