import Mathlib.Data.List.Basic
import Mathlib.Tactic

/-!
# The newest entries of a sequence

A bounded queue that drops its oldest entries holds the newest entries of
everything that was ever appended to it.  A slice whose bounds may be negative
counts those from the end.  Together they describe what can be read from the end
of a bounded queue in terms of the whole sequence.

Main results:

- Theorem {lit}`newest_newest_append`: appending to a bounded window is appending to the
  sequence behind it.
- Theorem {lit}`newest_newest`: a window of a window is a window.
- Theorem {lit}`slice_append_singleton`: the slice that ends before the last entry holds the
  newest of the entries before it.
-/

namespace Collections

universe u

variable {α : Type u}

/-! ## Windows -/

/-- The newest entries of a sequence, at most the given number of them. -/
def newest (n : Nat) (l : List α) : List α := l.drop (l.length - n)

@[simp]
theorem length_newest (n : Nat) (l : List α) : (newest n l).length = min n l.length := by
  rw [newest, List.length_drop]
  omega

/-- A window that is not empty ends with the last entry. -/
theorem newest_append_singleton (n : Nat) (l : List α) (x : α) :
    newest (n + 1) (l ++ [x]) = newest n l ++ [x] := by
  have hlength : (l ++ [x]).length - (n + 1) = l.length - n := by simp
  rw [newest, hlength, List.drop_append_of_le_length (Nat.sub_le l.length n)]
  rfl

/-- A window of a window is a window. -/
theorem newest_newest (m n : Nat) (l : List α) : newest m (newest n l) = newest (min m n) l := by
  have hindex : l.length - n + (min n l.length - m) = l.length - min m n := by omega
  calc
    newest m (newest n l) = (newest n l).drop (min n l.length - m) := by
      rw [newest, length_newest]
    _ = l.drop (l.length - n + (min n l.length - m)) := by
      rw [newest, List.drop_drop]
    _ = newest (min m n) l := by
      rw [hindex, newest]

/-- Appending to a bounded window is appending to the sequence behind it. -/
theorem newest_newest_append (n : Nat) (l : List α) (x : α) :
    newest n (newest n l ++ [x]) = newest n (l ++ [x]) := by
  cases n with
  | zero => simp [newest]
  | succ n =>
      rw [newest_append_singleton, newest_append_singleton, newest_newest,
        Nat.min_eq_left (Nat.le_succ n)]

/-! ## Slices -/

/-- The position a bound of a slice stands for: a negative one counts from the end, and one
outside the sequence is moved to its nearest end. -/
def sliceBound (length : Nat) (bound : Int) : Nat :=
  if bound < 0 then (bound + length).toNat else min bound.toNat length

/-- The slice {lit}`l[start:stop]`. -/
def slice (l : List α) (start stop : Int) : List α :=
  (l.take (sliceBound l.length stop)).drop (sliceBound l.length start)

/-- The slice that ends before the last entry holds the newest of the entries before it. -/
theorem slice_append_singleton (l : List α) (x : α) (k : Nat) :
    slice (l ++ [x]) (-(k : Int) - 1) (-1) = newest k l := by
  have hstop : sliceBound (l ++ [x]).length (-1) = l.length := by
    simp [sliceBound]
  have hstart : sliceBound (l ++ [x]).length (-(k : Int) - 1) = l.length - k := by
    have hneg : -(k : Int) - 1 < 0 := by omega
    rw [sliceBound, if_pos hneg, List.length_append, List.length_singleton]
    omega
  rw [slice, hstop, hstart, List.take_left, newest]

end Collections
