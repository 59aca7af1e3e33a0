import Mathlib.Data.List.Sort
import Mathlib.Tactic

/-!
# Scans over ordered keys

A cursor over lexicographically ordered keys is placed at the first key that is not
below a start key and then moves forward as long as the keys satisfy a condition.
A scan sees every key with the condition when no key without it lies between the start
and a key with it.

Main results:

- Theorem {lit}`Scan.mem_scan_iff`: what a scan sees when the condition is closed downwards.
- Theorem {lit}`Scan.scan_eq_nil`: a scan sees nothing when some key stands in its way.
- Theorem {lit}`Scan.prefix_of_between`: the keys with a given first part are contiguous.
-/

namespace Scan

section Whiles

variable {α : Type*} {p : α → Bool} {l : List α}

/-- If the condition is closed downwards along the list, taking while it holds is filtering. -/
theorem takeWhile_eq_filter (h : l.Pairwise (fun a b => p b = true → p a = true)) :
    l.takeWhile p = l.filter p := by
  induction l with
  | nil => rfl
  | cons a rest ih =>
      rcases List.pairwise_cons.mp h with ⟨hhead, htail⟩
      by_cases ha : p a = true
      · rw [List.takeWhile_cons_of_pos ha, List.filter_cons_of_pos ha, ih htail]
      · have hnone : rest.filter p = [] := by
          apply List.filter_eq_nil_iff.mpr
          intro b hb hpb
          exact ha (hhead b hb hpb)
        rw [List.takeWhile_cons_of_neg ha, List.filter_cons_of_neg ha, hnone]

/-- If the condition is closed downwards along the list, dropping while it holds is filtering
by its negation. -/
theorem dropWhile_eq_filter (h : l.Pairwise (fun a b => p b = true → p a = true)) :
    l.dropWhile p = l.filter (fun a => !p a) := by
  induction l with
  | nil => rfl
  | cons a rest ih =>
      rcases List.pairwise_cons.mp h with ⟨hhead, htail⟩
      by_cases ha : p a = true
      · rw [List.dropWhile_cons_of_pos ha, ih htail]
        simp [ha]
      · have hall : rest.filter (fun b => !p b) = rest := by
          apply List.filter_eq_self.mpr
          intro b hb
          have hpb : ¬ p b = true := fun hpb => ha (hhead b hb hpb)
          simpa using hpb
        rw [List.dropWhile_cons_of_neg ha]
        simp [ha, hall]

end Whiles

variable {α : Type*} [LT α] [LE α] [DecidableEq α] [DecidableLT α] [Std.IsLinearOrder α]
  [Std.LawfulOrderLT α]

instance instTotalList : Std.Total (fun a b : List α => a ≤ b) where
  total := List.le_total

instance instTransList : IsTrans (List α) (fun a b => a ≤ b) where
  trans _ _ _ := List.le_trans

/-- The keys from a start key on, in order. -/
def startAt (start : List α) (keys : List (List α)) : List (List α) :=
  (keys.insertionSort (fun a b => a ≤ b)).dropWhile (fun k => decide (k < start))

theorem pairwise_insertionSort_le (keys : List (List α)) :
    (keys.insertionSort (fun a b => a ≤ b)).Pairwise (fun a b => a ≤ b) :=
  List.pairwise_insertionSort _ keys

theorem startAt_eq_filter (start : List α) (keys : List (List α)) :
    startAt start keys =
      (keys.insertionSort (fun a b => a ≤ b)).filter (fun k => !decide (k < start)) := by
  apply dropWhile_eq_filter
  apply (pairwise_insertionSort_le keys).imp
  intro a b hab hb
  exact decide_eq_true (List.lt_of_le_of_lt hab (of_decide_eq_true hb))

theorem mem_startAt {start k : List α} {keys : List (List α)} :
    k ∈ startAt start keys ↔ k ∈ keys ∧ start ≤ k := by
  rw [startAt_eq_filter, List.mem_filter, List.mem_insertionSort]
  simp only [Bool.not_eq_true', decide_eq_false_iff_not, List.not_lt]

theorem pairwise_startAt (start : List α) (keys : List (List α)) :
    (startAt start keys).Pairwise (fun a b => a ≤ b) := by
  rw [startAt_eq_filter]
  exact (pairwise_insertionSort_le keys).filter _

/-- A scan sees exactly the keys with the condition, if the condition is closed downwards
from the start on. -/
theorem mem_scan_iff {start : List α} {keys : List (List α)} {p : List α → Bool}
    (hclosed : ∀ k ∈ keys, ∀ k' ∈ keys, start ≤ k → k ≤ k' → p k' = true → p k = true)
    (k : List α) :
    k ∈ (startAt start keys).takeWhile p ↔ k ∈ keys ∧ start ≤ k ∧ p k = true := by
  have hpairwise : (startAt start keys).Pairwise (fun a b => p b = true → p a = true) := by
    apply (pairwise_startAt start keys).imp_of_mem
    intro a b ha hb hab
    rcases mem_startAt.mp ha with ⟨hakeys, hstart⟩
    exact hclosed a hakeys b (mem_startAt.mp hb).1 hstart hab
  rw [takeWhile_eq_filter hpairwise, List.mem_filter, mem_startAt, and_assoc]

/-- A scan sees nothing, if some key after the start is below every key with the condition. -/
theorem scan_eq_nil {start k : List α} {keys : List (List α)} {p : List α → Bool}
    (hk : k ∈ keys) (hstart : start ≤ k)
    (hblocks : ∀ k' ∈ keys, start ≤ k' → k' ≤ k → p k' = false) :
    (startAt start keys).takeWhile p = [] := by
  have hmem : k ∈ startAt start keys := mem_startAt.mpr ⟨hk, hstart⟩
  cases hkeys : startAt start keys with
  | nil => rfl
  | cons first rest =>
      have hsorted := pairwise_startAt start keys
      rw [hkeys] at hsorted hmem
      have hfirst : first ∈ startAt start keys := by
        rw [hkeys]
        exact List.mem_cons_self
      have hle : first ≤ k := by
        rcases List.mem_cons.mp hmem with rfl | hrest
        · exact List.le_refl _
        · exact (List.pairwise_cons.mp hsorted).1 k hrest
      rcases mem_startAt.mp hfirst with ⟨hfirstKey, hfirstStart⟩
      have hnot : ¬ p first = true := by
        rw [hblocks first hfirstKey hfirstStart hle]
        exact Bool.false_ne_true
      rw [List.takeWhile_cons_of_neg hnot]

omit [DecidableEq α] [DecidableLT α] in
/-- What lies between two lists with a common first part has that first part, too. -/
theorem prefix_of_between {first a b c : List α} (ha : first <+: a) (hc : first <+: c)
    (hab : a ≤ b) (hbc : b ≤ c) : first <+: b := by
  induction first generalizing a b c with
  | nil => exact List.nil_prefix
  | cons x first ih =>
      rcases ha with ⟨a, rfl⟩
      rcases hc with ⟨c, rfl⟩
      cases b with
      | nil => exact absurd (List.nil_lt_cons x (first ++ a)) hab
      | cons y b =>
          rw [List.cons_append, List.cons_le_cons_iff] at hab
          rw [List.cons_append, List.cons_le_cons_iff] at hbc
          rcases hab with hxy | ⟨rfl, hab⟩
          · rcases hbc with hyx | ⟨rfl, -⟩
            · exact absurd (Std.lt_trans hxy hyx) (Std.lt_irrefl)
            · exact absurd hxy (Std.lt_irrefl)
          · rcases hbc with hxx | ⟨-, hbc⟩
            · exact absurd hxx (Std.lt_irrefl)
            · rcases ih (List.prefix_append first a) (List.prefix_append first c) hab hbc with
                ⟨b', rfl⟩
              exact ⟨b', rfl⟩

end Scan
