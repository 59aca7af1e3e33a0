import Mathlib.Data.List.Perm.Basic
import Mathlib.Order.SuccPred.Basic
import Mathlib.Tactic
import NuLinkCore.Lib.Scan

/-!
# Ranges that tile an interval

A range has a first and a last element, both of which belong to it.  Ranges tile an interval
when the first one begins where the interval does, each one begins right behind the one before
it, and the interval ends right behind the last one.

Main results:

- Theorems {lit}`Tiles.exists_mem_iff` and {lit}`Tiles.pairwise`: the elements of the interval
  are those of the ranges, and every range lies behind the ones before it.
- Theorem {lit}`Tiles.inside`: no range leaves the interval.
- Theorem {lit}`Tiles.flatMap_filter_perm`: what has its key in the interval is found range by
  range, each once.
- Theorem {lit}`Tiles.flatMap_filter_eq`: in the same order, if the keys are sorted.
-/

namespace Tilings

universe u v

/-! ## Lists with keys -/

section Keys

variable {α : Type u} [LinearOrder α] {β : Type v} (key : β → α)

/-- What has its key in the interval. -/
def within (first top : α) (l : List β) : List β :=
  l.filter fun b => first ≤ key b ∧ key b < top

/-- What has its key in a range. -/
def inRange (range : α × α) (l : List β) : List β :=
  l.filter fun b => range.1 ≤ key b ∧ key b ≤ range.2

theorem within_self (top : α) (l : List β) : within key top top l = [] := by
  rw [within, List.filter_eq_nil_iff]
  intro b _
  simp

theorem filter_within_of_lt {first last top : α} (htop : last < top) (l : List β) :
    (within key first top l).filter (fun b => key b ≤ last) = inRange key (first, last) l := by
  rw [within, inRange, List.filter_filter]
  apply List.filter_congr
  intro b _
  grind

/-- What satisfies a property stands first, if nothing before it fails to. -/
theorem filter_append_filter_not {p : β → Bool} {l : List β}
    (h : l.Pairwise fun b b' => p b' = true → p b = true) :
    l.filter p ++ l.filter (fun b => !p b) = l := by
  rw [← Scan.takeWhile_eq_filter h, ← Scan.dropWhile_eq_filter h, List.takeWhile_append_dropWhile]

end Keys

/-! ## Tilings -/

variable {α : Type u} [LinearOrder α] [SuccOrder α]

/-- Ranges tile the interval from an element up to, and without, another. -/
inductive Tiles : α → α → List (α × α) → Prop
  | nil (top : α) : Tiles top top []
  | cons {first last top : α} {ranges : List (α × α)} (hle : first ≤ last)
      (hrest : Tiles (Order.succ last) top ranges) : Tiles first top ((first, last) :: ranges)

namespace Tiles

variable {lo top : α} {ranges : List (α × α)}

theorem first_le_last (h : Tiles lo top ranges) : ∀ range ∈ ranges, range.1 ≤ range.2 := by
  induction h with
  | nil top => simp
  | cons hle _ ih => exact List.forall_mem_cons.mpr ⟨hle, ih⟩

theorem le (h : Tiles lo top ranges) : lo ≤ top := by
  induction h with
  | nil top => exact le_rfl
  | cons hle _ ih => exact (hle.trans (Order.le_succ _)).trans ih

variable [NoMaxOrder α]

/-- The elements of the ranges are those of the interval. -/
theorem exists_mem_iff (h : Tiles lo top ranges) (a : α) :
    (∃ range ∈ ranges, range.1 ≤ a ∧ a ≤ range.2) ↔ lo ≤ a ∧ a < top := by
  induction h with
  | nil top => simp
  | @cons first last top ranges hle hrest ih =>
      have htop : Order.succ last ≤ top := hrest.le
      simp only [List.exists_mem_cons_iff, ih, Order.succ_le_iff]
      constructor
      · rintro (⟨hfirst, hlast⟩ | ⟨hlast, hlt⟩)
        · exact ⟨hfirst, (Order.lt_succ_of_le hlast).trans_le htop⟩
        · exact ⟨hle.trans hlast.le, hlt⟩
      · rintro ⟨hfirst, hlt⟩
        rcases le_or_gt a last with hlast | hlast
        · exact Or.inl ⟨hfirst, hlast⟩
        · exact Or.inr ⟨hlast, hlt⟩

/-- Every range lies inside of the interval. -/
theorem inside (h : Tiles lo top ranges) {range : α × α} (hrange : range ∈ ranges) :
    lo ≤ range.1 ∧ range.2 < top := by
  have hle := h.first_le_last range hrange
  have hfirst := (h.exists_mem_iff range.1).mp ⟨range, hrange, le_rfl, hle⟩
  have hlast := (h.exists_mem_iff range.2).mp ⟨range, hrange, hle, le_rfl⟩
  exact ⟨hfirst.1, hlast.2⟩

/-- Every range lies behind the ones before it. -/
theorem pairwise (h : Tiles lo top ranges) :
    ranges.Pairwise fun range range' => range.2 < range'.1 := by
  induction h with
  | nil top => exact List.Pairwise.nil
  | @cons first last top ranges hle hrest ih =>
      refine List.Pairwise.cons ?_ ih
      intro range hrange
      exact Order.succ_le_iff.mp (hrest.inside hrange).1

section Keys

variable {β : Type v} (key : β → α)

theorem filter_not_within_of_le {first last top : α} (hle : first ≤ last) (l : List β) :
    (within key first top l).filter (fun b => !decide (key b ≤ last)) =
      within key (Order.succ last) top l := by
  rw [within, within, List.filter_filter]
  apply List.filter_congr
  intro b _
  simp only [Order.succ_le_iff]
  grind

/-- What has its key in the interval is found range by range, each once. -/
theorem flatMap_filter_perm (h : Tiles lo top ranges) (l : List β) :
    (ranges.flatMap fun range => inRange key range l).Perm (within key lo top l) := by
  induction h with
  | nil top =>
      rw [within_self]
      exact List.Perm.nil
  | @cons first last top ranges hle hrest ih =>
      have hsplit := List.filter_append_perm (fun b => decide (key b ≤ last))
        (within key first top l)
      rw [filter_within_of_lt key (Order.succ_le_iff.mp hrest.le),
        filter_not_within_of_le key hle] at hsplit
      rw [List.flatMap_cons]
      exact (ih.append_left _).trans hsplit

/-- In a sorted list it is found in order. -/
theorem flatMap_filter_eq (h : Tiles lo top ranges) {l : List β}
    (hl : l.Pairwise fun b b' => key b ≤ key b') :
    (ranges.flatMap fun range => inRange key range l) = within key lo top l := by
  induction h with
  | nil top => exact (within_self key top l).symm
  | @cons first last top ranges hle hrest ih =>
      have hsorted : (within key first top l).Pairwise fun b b' =>
          decide (key b' ≤ last) = true → decide (key b ≤ last) = true := by
        refine (hl.filter _).imp ?_
        intro b b' hkey hlast
        rw [decide_eq_true_iff] at hlast ⊢
        exact hkey.trans hlast
      have hsplit := filter_append_filter_not hsorted
      rw [filter_within_of_lt key (Order.succ_le_iff.mp hrest.le),
        filter_not_within_of_le key hle] at hsplit
      rw [List.flatMap_cons, ih, hsplit]

end Keys

end Tiles

end Tilings
