import Mathlib.Data.List.Nodup
import Mathlib.Data.List.Perm.Basic
import Mathlib.Data.Finset.Sort
import Mathlib.Tactic

/-!
# Sets whose elements are identified by a key

An element of a {lit}`KeyedSet` is an object, but membership, insertion and
removal only look at its key: two different objects with the same key are the
same element.  Insertion keeps an element that is already present; replacing it
takes a removal first.

The order in which a set is iterated is not fixed by its contents.  A
{lit}`Reorder` is an arbitrary rearrangement of a list, an {lit}`Enumeration` an
arbitrary listing of finite sets; an operation that iterates over a set takes
one of them as an argument.

Main results:

- Theorem {lit}`KeyedSet.mem_replace`: after a replacement the set holds the new
  object and every old object with another key.
- Theorem {lit}`KeyedSet.mem_foldl_replace`: after a sequence of replacements the
  last object of every key survives.
- Theorem {lit}`KeyedSet.eq_of_key_eq`: an element is determined by its key.
-/

namespace Collections

universe u v

/-- A finite set of objects compared by a key. -/
structure KeyedSet {α : Type u} {κ : Type v} (key : α → κ) where
  elems : List α
  nodup_keys : (elems.map key).Nodup

namespace KeyedSet

variable {α : Type u} {κ : Type v} {key : α → κ}

/-- The set without elements. -/
def empty : KeyedSet key where
  elems := []
  nodup_keys := by simp

@[simp]
theorem elems_empty : (empty : KeyedSet key).elems = [] :=
  rfl

/-- An element is determined by its key. -/
theorem eq_of_key_eq (s : KeyedSet key) {x y : α} (hx : x ∈ s.elems) (hy : y ∈ s.elems)
    (h : key x = key y) : x = y :=
  List.inj_on_of_nodup_map s.nodup_keys hx hy h

variable [DecidableEq κ]

/-- Whether an element with the same key is present. -/
def contains (s : KeyedSet key) (x : α) : Bool := decide (key x ∈ s.elems.map key)

/-- Remove the element with the same key. -/
def remove (s : KeyedSet key) (x : α) : KeyedSet key where
  elems := s.elems.filter (fun y => key y ≠ key x)
  nodup_keys := (List.filter_sublist.map key).nodup s.nodup_keys

/-- Insert an object, keeping an element with the same key that is already there. -/
def add (s : KeyedSet key) (x : α) : KeyedSet key :=
  if h : key x ∈ s.elems.map key then s
  else
    { elems := s.elems ++ [x]
      nodup_keys := by
        rw [List.map_append]
        refine List.nodup_append.mpr ⟨s.nodup_keys, by simp, ?_⟩
        intro a ha b hb hab
        rw [List.map_singleton, List.mem_singleton] at hb
        exact h (hb ▸ hab ▸ ha) }

theorem elems_add_of_not_mem {s : KeyedSet key} {x : α} (h : key x ∉ s.elems.map key) :
    (s.add x).elems = s.elems ++ [x] := by
  simp only [add, h, dite_false]

/-- Insert an object in place of the element with the same key. -/
def replace (s : KeyedSet key) (x : α) : KeyedSet key :=
  (if s.contains x then s.remove x else s).add x

theorem elems_replace (s : KeyedSet key) (x : α) :
    (s.replace x).elems = s.elems.filter (fun y => key y ≠ key x) ++ [x] := by
  unfold replace
  split
  · have h : key x ∉ (s.remove x).elems.map key := by simp [remove]
    rw [elems_add_of_not_mem h]
    rfl
  · rename_i hc
    have h : key x ∉ s.elems.map key := by simpa [contains] using hc
    have hall : ∀ y ∈ s.elems, key y ≠ key x := by
      intro y hy hyx
      exact h (hyx ▸ List.mem_map_of_mem hy)
    rw [elems_add_of_not_mem h, List.filter_eq_self.mpr (by simpa using hall)]

/-- After a replacement the set holds the new object and every old object with
another key. -/
theorem mem_replace {s : KeyedSet key} {x y : α} :
    y ∈ (s.replace x).elems ↔ y = x ∨ (y ∈ s.elems ∧ key y ≠ key x) := by
  rw [elems_replace]
  simp [or_comm]

/-- After a sequence of replacements the set holds the last object of every key
that occurs in the sequence, and the old objects of all other keys. -/
theorem mem_foldl_replace {s : KeyedSet key} {l : List α} {y : α} :
    y ∈ (l.foldl replace s).elems ↔
      (∃ l₁ l₂, l = l₁ ++ y :: l₂ ∧ ∀ z ∈ l₂, key z ≠ key y) ∨
        (y ∈ s.elems ∧ ∀ z ∈ l, key z ≠ key y) := by
  induction l using List.reverseRecOn with
  | nil => simp
  | append_singleton l x ih =>
      rw [List.foldl_append, List.foldl_cons, List.foldl_nil, mem_replace, ih]
      constructor
      · rintro (rfl | ⟨⟨l₁, l₂, rfl, hlast⟩ | ⟨hold, hnone⟩, hne⟩)
        · exact Or.inl ⟨l, [], rfl, by simp⟩
        · refine Or.inl ⟨l₁, l₂ ++ [x], by simp, ?_⟩
          intro z hz
          rcases List.mem_append.mp hz with hz | hz
          · exact hlast z hz
          · rw [List.mem_singleton.mp hz]
            exact hne.symm
        · refine Or.inr ⟨hold, ?_⟩
          intro z hz
          rcases List.mem_append.mp hz with hz | hz
          · exact hnone z hz
          · rw [List.mem_singleton.mp hz]
            exact hne.symm
      · rintro (⟨l₁, l₂, hsplit, hlast⟩ | ⟨hold, hnone⟩)
        · rcases List.eq_nil_or_concat l₂ with rfl | ⟨l₂', x', rfl⟩
          · have hxy := (List.append_inj' hsplit rfl).2
            exact Or.inl (List.cons.inj hxy).1.symm
          · rw [List.concat_eq_append, ← List.cons_append, ← List.append_assoc] at hsplit
            have hinj := List.append_inj' hsplit rfl
            have hx : x = x' := (List.cons.inj hinj.2).1
            subst hx
            refine Or.inr ⟨Or.inl ⟨l₁, l₂', hinj.1, fun z hz => hlast z (by simp [hz])⟩, ?_⟩
            exact (hlast x (by simp)).symm
        · exact Or.inr ⟨Or.inr ⟨hold, fun z hz => hnone z (by simp [hz])⟩,
            (hnone x (by simp)).symm⟩

/-- Every key of a sequence of replacements is present afterwards. -/
theorem exists_mem_foldl_replace {s : KeyedSet key} {l : List α} {x : α} (hx : x ∈ l) :
    ∃ y ∈ (l.foldl replace s).elems, key y = key x := by
  induction l using List.reverseRecOn with
  | nil => simp at hx
  | append_singleton l z ih =>
      rw [List.foldl_append, List.foldl_cons, List.foldl_nil]
      by_cases hkey : key z = key x
      · exact ⟨z, mem_replace.mpr (Or.inl rfl), hkey⟩
      · rcases List.mem_append.mp hx with hx | hx
        · rcases ih hx with ⟨y, hy, hyx⟩
          refine ⟨y, mem_replace.mpr (Or.inr ⟨hy, ?_⟩), hyx⟩
          rw [hyx]
          exact fun h => hkey h.symm
        · exact absurd (congrArg key (List.mem_singleton.mp hx)).symm hkey

end KeyedSet

/-! ## Iteration orders -/

/-- An arbitrary rearrangement of lists: a shuffle, or the order in which a set
is iterated. -/
structure Reorder (α : Type u) where
  apply : List α → List α
  perm : ∀ l, (apply l).Perm l

namespace Reorder

variable {α : Type u}

/-- The rearrangement that keeps the given order. -/
def identity : Reorder α where
  apply l := l
  perm l := List.Perm.refl l

@[simp]
theorem mem_apply (r : Reorder α) {l : List α} {x : α} : x ∈ r.apply l ↔ x ∈ l :=
  (r.perm l).mem_iff

/-- The rearrangement that moves one occurrence of an object to the end. -/
def moveToEnd [DecidableEq α] (x : α) : Reorder α where
  apply l := if x ∈ l then l.erase x ++ [x] else l
  perm l := by
    split
    · rename_i hx
      exact List.perm_append_comm.trans (List.perm_cons_erase hx).symm
    · exact List.Perm.refl l

theorem moveToEnd_apply_of_mem [DecidableEq α] {x : α} {l : List α} (h : x ∈ l) :
    (moveToEnd x).apply l = l.erase x ++ [x] :=
  if_pos h

end Reorder

/-- An arbitrary listing of finite sets without repetitions. -/
structure Enumeration (α : Type u) where
  toList : Finset α → List α
  nodup : ∀ s, (toList s).Nodup
  mem_toList : ∀ s x, x ∈ toList s ↔ x ∈ s

/-- The listing in increasing order. -/
def Enumeration.sorted (α : Type u) [LinearOrder α] : Enumeration α where
  toList s := Quot.liftOn s.val (List.insertionSort (· ≤ ·)) fun l l' hperm =>
    List.Perm.eq_of_pairwise' (List.pairwise_insertionSort _ l)
      (List.pairwise_insertionSort _ l')
      ((List.perm_insertionSort _ l).trans (hperm.trans (List.perm_insertionSort _ l').symm))
  nodup s := by
    rcases s with ⟨⟨l⟩, hnodup⟩
    exact (List.perm_insertionSort (· ≤ ·) l).nodup_iff.mpr hnodup
  mem_toList s x := by
    rcases s with ⟨⟨l⟩, hnodup⟩
    exact List.mem_insertionSort (· ≤ ·)

end Collections
