import Mathlib.Data.List.Basic
import Mathlib.Tactic

/-!
# Locations in a tree of directories

A location is the list of the names that lead to it from the root.  A path is cut at its
slashes and followed part by part from a directory, or from the root when it starts with a
slash; a dot stays, two dots go up, and every other part goes down.

When a suffix without a slash is put after a path, only the last part of the path grows.  The
file that is reached lies in the directory to which the parts before the last one lead.

Main results:

- Theorem {lit}`resolve_append`: where a path with a suffix leads.
- Theorem {lit}`append_cons_inj_of_notMem_right`: a list is split at the last separator in one
  way only.
-/

namespace Locations

/-- The names from the root to a file or a directory. -/
abbrev Location := List (List Char)

/-- Follow one part of a path. -/
def enter (location : Location) (part : List Char) : Location :=
  if part = [] ∨ part = ['.'] then location
  else if part = ['.', '.'] then location.dropLast
  else location ++ [part]

/-- Where a path starts. -/
def start (directory : Location) (path : List Char) : Location :=
  if path.head? = some '/' then [] else directory

/-- Where a path leads. -/
def resolve (directory : Location) (path : List Char) : Location :=
  (path.splitOn '/').foldl enter (start directory path)

/-- The part of a path after its last slash. -/
def base (path : List Char) : List Char := (path.splitOn '/').getLastD []

/-- Where the part of a path before its last slash leads. -/
def folder (directory : Location) (path : List Char) : Location :=
  (path.splitOn '/').dropLast.foldl enter (start directory path)

/-- A path without a slash is its own last part. -/
theorem splitOn_of_notMem {path : List Char} (h : '/' ∉ path) : path.splitOn '/' = [path] :=
  List.splitOn_eq_singleton h

/-- Every path with a slash has a last one. -/
theorem exists_last_slash {path : List Char} (h : '/' ∈ path) :
    ∃ front last, path = front ++ '/' :: last ∧ '/' ∉ last := by
  rcases List.eq_append_cons_of_mem (List.mem_reverse.mpr h) with ⟨last, front, hsplit, hlast⟩
  refine ⟨front.reverse, last.reverse, ?_, fun hmem => hlast (List.mem_reverse.mp hmem)⟩
  rw [← List.reverse_reverse path, hsplit]
  simp

/-- The last slash cuts off the last part. -/
theorem splitOn_append_last (front : List Char) {last : List Char} (h : '/' ∉ last) :
    (front ++ '/' :: last).splitOn '/' = front.splitOn '/' ++ [last] := by
  rw [List.splitOn_append_cons_self, splitOn_of_notMem h]

theorem base_of_notMem {path : List Char} (h : '/' ∉ path) : base path = path := by
  rw [base, splitOn_of_notMem h]
  rfl

theorem base_append_last (front : List Char) {last : List Char} (h : '/' ∉ last) :
    base (front ++ '/' :: last) = last := by
  rw [base, splitOn_append_last front h, List.getLastD_concat]

theorem slash_notMem_base (path : List Char) : '/' ∉ base path := by
  by_cases hslash : '/' ∈ path
  · rcases exists_last_slash hslash with ⟨front, last, rfl, hlast⟩
    rw [base_append_last front hlast]
    exact hlast
  · rw [base_of_notMem hslash]
    exact hslash

theorem folder_of_notMem (directory : Location) {path : List Char} (h : '/' ∉ path) :
    folder directory path = directory := by
  have hhead : path.head? ≠ some '/' := fun hslash => h (List.mem_of_mem_head? hslash)
  rw [folder, splitOn_of_notMem h, start, if_neg hhead]
  rfl

/-- A suffix without a slash extends the last part of a path. -/
theorem splitOn_append_of_notMem (path : List Char) {suffix : List Char} (h : '/' ∉ suffix) :
    (path ++ suffix).splitOn '/' = (path.splitOn '/').dropLast ++ [base path ++ suffix] := by
  have hextend : ∀ {last : List Char}, '/' ∉ last → '/' ∉ last ++ suffix := by
    intro last hlast hmem
    exact (List.mem_append.mp hmem).elim hlast h
  by_cases hslash : '/' ∈ path
  · rcases exists_last_slash hslash with ⟨front, last, rfl, hlast⟩
    rw [List.append_assoc, List.cons_append, splitOn_append_last front (hextend hlast),
      splitOn_append_last front hlast, List.dropLast_concat, base_append_last front hlast]
  · rw [splitOn_of_notMem (hextend hslash), splitOn_of_notMem hslash, base_of_notMem hslash]
    rfl

theorem start_append (directory : Location) (path : List Char) {suffix : List Char}
    (h : '/' ∉ suffix) : start directory (path ++ suffix) = start directory path := by
  cases path with
  | nil =>
      have hhead : suffix.head? ≠ some '/' := fun hslash => h (List.mem_of_mem_head? hslash)
      rw [start, start, List.nil_append, if_neg hhead, if_neg (by simp)]
  | cons c rest => rfl

/-- A path with a suffix leads to a file in the directory of the path, if the last part with
the suffix is neither empty nor made of dots. -/
theorem resolve_append (directory : Location) (path : List Char) {suffix : List Char}
    (h : '/' ∉ suffix) (hname : 2 < suffix.length) :
    resolve directory (path ++ suffix) = folder directory path ++ [base path ++ suffix] := by
  have hlength : 2 < (base path ++ suffix).length := by
    rw [List.length_append]
    omega
  have hplain : ¬ (base path ++ suffix = [] ∨ base path ++ suffix = ['.']) := by
    rintro (hnil | hdot)
    · simp [hnil] at hlength
    · simp [hdot] at hlength
  have hup : base path ++ suffix ≠ ['.', '.'] := by
    intro hdots
    simp [hdots] at hlength
  rw [resolve, splitOn_append_of_notMem path h, start_append directory path h,
    List.foldl_append, List.foldl_cons, List.foldl_nil, enter, if_neg hplain, if_neg hup]
  rfl

/-- A list is split at the last occurrence of a separator in one way only. -/
theorem append_cons_inj_of_notMem_right {α : Type*} {front front' back back' : List α} {sep : α}
    (hback : sep ∉ back) (hback' : sep ∉ back') :
    front ++ sep :: back = front' ++ sep :: back' ↔ front = front' ∧ back = back' := by
  constructor
  · intro h
    rcases List.append_eq_append_iff.mp h with ⟨middle, hfront, hrest⟩ | ⟨middle, hfront, hrest⟩
    · cases middle with
      | nil => exact ⟨by simpa using hfront.symm, (List.cons.inj hrest).2⟩
      | cons x middle =>
          have hmem : sep ∈ back := by
            rw [(List.cons.inj hrest).2]
            exact List.mem_append_right middle List.mem_cons_self
          exact absurd hmem hback
    · cases middle with
      | nil => exact ⟨by simpa using hfront, (List.cons.inj hrest).2.symm⟩
      | cons x middle =>
          have hmem : sep ∈ back' := by
            rw [(List.cons.inj hrest).2]
            exact List.mem_append_right middle List.mem_cons_self
          exact absurd hmem hback'
  · rintro ⟨rfl, rfl⟩
    rfl

end Locations
