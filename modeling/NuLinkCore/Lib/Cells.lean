import Mathlib.Data.List.Basic
import Mathlib.Tactic

/-!
# Memories of cells

A memory gives a value to every address.  Lists of values are loaded from consecutive addresses
and stored to them.  Copying goes block by block, from the first block to the last one, and the
last block may go beyond what is to be copied.

Main results:

- Theorem {lit}`Cells.copyBlocks_frame`: copying writes the blocks of the destination only.
- Theorem {lit}`Cells.copyBlocks_copied`: a value in front of the destination is copied, whatever
  the blocks behind it overwrite.
-/

namespace Cells

universe u

variable {α : Type u} {m m' : Nat → α}

/-! ## Loads and stores -/

/-- The values at consecutive addresses. -/
def load (m : Nat → α) (p n : Nat) : List α := (List.range n).map fun i => m (p + i)

/-- Values are written to consecutive addresses. -/
def store (m : Nat → α) (p : Nat) (values : List α) (a : Nat) : α :=
  if p ≤ a then (values[a - p]?).getD (m a) else m a

@[simp]
theorem length_load (m : Nat → α) (p n : Nat) : (load m p n).length = n := by
  simp [load]

theorem getElem_load {p n i : Nat} (h : i < (load m p n).length) :
    (load m p n)[i] = m (p + i) := by
  simp [load]

/-- A load is a list whose elements are the values at the addresses. -/
theorem load_eq_iff {p n : Nat} {values : List α} :
    load m p n = values ↔ ∃ h : values.length = n, ∀ i (hi : i < n), m (p + i) = values[i] := by
  constructor
  · rintro rfl
    refine ⟨length_load m p n, ?_⟩
    intro i hi
    rw [getElem_load]
  · rintro ⟨rfl, h⟩
    apply List.ext_getElem (length_load _ _ _)
    intro i hi hi'
    rw [getElem_load, h i hi']

theorem load_congr {p n : Nat} (h : ∀ i < n, m (p + i) = m' (p + i)) :
    load m p n = load m' p n := by
  rw [load_eq_iff]
  refine ⟨length_load _ _ _, ?_⟩
  intro i hi
  rw [getElem_load, h i hi]

theorem load_add (m : Nat → α) (p n k : Nat) :
    load m p (n + k) = load m p n ++ load m (p + n) k := by
  simp [load, List.range_add, Nat.add_assoc, Function.comp_def]

/-- Consecutive blocks are one load. -/
theorem flatMap_load (m : Nat → α) (p size n : Nat) :
    (List.range n).flatMap (fun i => load m (p + i * size) size) = load m p (n * size) := by
  induction n with
  | zero => simp [load]
  | succ n ih =>
      rw [List.range_succ, List.flatMap_append, ih, List.flatMap_singleton, Nat.succ_mul, load_add]

/-- A load inside of a load. -/
theorem take_drop_load (m : Nat → α) (p : Nat) {n i k : Nat} (h : i + k ≤ n) :
    ((load m p n).drop i).take k = load m (p + i) k := by
  symm
  rw [load_eq_iff]
  refine ⟨by simp; omega, ?_⟩
  intro j hj
  rw [List.getElem_take, List.getElem_drop, getElem_load, Nat.add_assoc]

theorem take_load (m : Nat → α) (p : Nat) {n k : Nat} (h : k ≤ n) :
    (load m p n).take k = load m p k :=
  take_drop_load m p (i := 0) (by omega)

/-- Nothing is written in front of a store. -/
theorem store_of_lt {p a : Nat} {values : List α} (h : a < p) : store m p values a = m a := by
  rw [store, if_neg (Nat.not_le.mpr h)]

/-- Nothing is written behind a store. -/
theorem store_of_le {p a : Nat} {values : List α} (h : p + values.length ≤ a) :
    store m p values a = m a := by
  rw [store, List.getElem?_eq_none (by omega), Option.getD_none, ite_self]

theorem store_at {p i : Nat} {values : List α} (h : i < values.length) :
    store m p values (p + i) = values[i] := by
  rw [store, if_pos (Nat.le_add_right p i), Nat.add_sub_cancel_left, List.getElem?_eq_getElem h,
    Option.getD_some]

/-! ## Copying -/

/-- Blocks of a size are copied in order. -/
def copyBlocks (size : Nat) (m : Nat → α) (source destination : Nat) : Nat → Nat → α
  | 0 => m
  | n + 1 =>
      let copied := copyBlocks size m source destination n
      store copied (destination + n * size) (load copied (source + n * size) size)

variable {size source destination : Nat}

/-- Copying writes the blocks of the destination only. -/
theorem copyBlocks_frame {n a : Nat} (h : a < destination ∨ destination + n * size ≤ a) :
    copyBlocks size m source destination n a = m a := by
  induction n with
  | zero => rfl
  | succ n ih =>
      rw [Nat.succ_mul] at h
      have hprevious : a < destination ∨ destination + n * size ≤ a := by omega
      rcases h with hbefore | hbehind
      · rw [copyBlocks, store_of_lt (by omega), ih hprevious]
      · rw [copyBlocks, store_of_le (by rw [length_load]; omega), ih hprevious]

/-- A value in front of the destination is copied: no block that was written changes it, and no
later block overwrites its copy. -/
theorem copyBlocks_copied {n i : Nat} (hi : i < n * size) (hbefore : source + i < destination) :
    copyBlocks size m source destination n (destination + i) = m (source + i) := by
  induction n with
  | zero => simp at hi
  | succ n ih =>
      rw [Nat.succ_mul] at hi
      by_cases hprevious : i < n * size
      · rw [copyBlocks, store_of_lt (by omega), ih hprevious]
      · rcases Nat.exists_eq_add_of_le (Nat.not_lt.mp hprevious) with ⟨j, rfl⟩
        have hj : j < size := by omega
        rw [copyBlocks, ← Nat.add_assoc, store_at (by rwa [length_load]), getElem_load,
          copyBlocks_frame (Or.inl (by omega)), Nat.add_assoc]

end Cells
