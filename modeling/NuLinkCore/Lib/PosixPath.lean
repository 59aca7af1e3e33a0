import Mathlib.Data.List.Basic
import NuLinkCore.Lib.Split

/-!
# Paths

A path has a root and parts, none of which is empty, a dot, or holds a slash.  So two texts that
differ in such parts are one path, and a path has one text.

Main results:

- Theorem {lit}`Paths.PosixPath.parse_str`: reading inverts printing.
- Theorem {lit}`Paths.PosixPath.join_of_isPart`: a part goes to the end of a path.
-/

namespace Paths

/-- Where a path starts.  Two slashes are a root of their own. -/
inductive Root where
  | relative
  | slash
  | doubleSlash
deriving DecidableEq, Repr

def Root.text : Root → List Char
  | .relative => []
  | .slash => ['/']
  | .doubleSlash => ['/', '/']

def IsPart (part : List Char) : Prop := part ≠ [] ∧ part ≠ ['.'] ∧ '/' ∉ part

structure PosixPath where
  root : Root
  parts : List (List Char)
  proper : ∀ part ∈ parts, IsPart part

@[ext]
theorem PosixPath.ext {p q : PosixPath} (hroot : p.root = q.root) (hparts : p.parts = q.parts) :
    p = q := by
  cases p
  cases q
  cases hroot
  cases hparts
  rfl

instance : DecidableEq PosixPath := fun p q =>
  decidable_of_iff (p.root = q.root ∧ p.parts = q.parts)
    ⟨fun h => PosixPath.ext h.1 h.2, fun h => h ▸ ⟨rfl, rfl⟩⟩

namespace PosixPath

/-- The text of a path without a part is its root, or a dot. -/
def str (p : PosixPath) : List Char :=
  if p.root = .relative ∧ p.parts = [] then ['.']
  else p.root.text ++ ['/'].intercalate p.parts

/-- The root of a text: two slashes are not one, but three are. -/
def rootOf (text : List Char) : Root :=
  match (text.takeWhile (· = '/')).length with
  | 0 => .relative
  | 2 => .doubleSlash
  | _ => .slash

/-- The parts of a text, whatever its root is. -/
def partsOf (text : List Char) : List (List Char) :=
  (text.splitOn '/').filter fun part => part ≠ [] ∧ part ≠ ['.']

theorem isPart_of_mem_partsOf {text part : List Char} (h : part ∈ partsOf text) : IsPart part := by
  rw [partsOf, List.mem_filter, decide_eq_true_iff] at h
  exact ⟨h.2.1, h.2.2, Collections.notMem_of_mem_splitOn part h.1⟩

/-- {lit}`Path(text)`. -/
def parse (text : List Char) : PosixPath where
  root := rootOf text
  parts := partsOf text
  proper _ := isPart_of_mem_partsOf

/-- {lit}`path / text`, which is the second path if that has a root. -/
def join (p : PosixPath) (text : List Char) : PosixPath :=
  if rootOf text = .relative then
    { root := p.root
      parts := p.parts ++ partsOf text
      proper := fun part hpart => (List.mem_append.mp hpart).elim (p.proper part)
        isPart_of_mem_partsOf }
  else parse text

/-! ## Round trip -/

/-- The slashes of the root are followed by no other slash. -/
theorem takeWhile_root (root : Root) {rest : List Char} (h : rest.head? ≠ some '/') :
    ((root.text ++ rest).takeWhile (· = '/')).length = root.text.length := by
  have hrest : rest.takeWhile (· = '/') = [] := by
    cases rest with
    | nil => rfl
    | cons c rest => exact List.takeWhile_cons_of_neg (by simpa using h)
  cases root <;> simp [Root.text, hrest]

theorem rootOf_append (root : Root) {rest : List Char} (h : rest.head? ≠ some '/') :
    rootOf (root.text ++ rest) = root := by
  rw [rootOf, takeWhile_root root h]
  cases root <;> rfl

/-- The slashes of the root only add empty parts. -/
theorem partsOf_append (root : Root) (rest : List Char) :
    partsOf (root.text ++ rest) = partsOf rest := by
  have hslash : ∀ text : List Char, partsOf ('/' :: text) = partsOf text := by
    intro text
    rw [partsOf, List.splitOn_cons_eq_if_modifyHead]
    simp [partsOf]
  cases root with
  | relative => rfl
  | slash => exact hslash rest
  | doubleSlash => exact (hslash ('/' :: rest)).trans (hslash rest)

theorem partsOf_intercalate {parts : List (List Char)} (h : ∀ part ∈ parts, IsPart part) :
    partsOf (['/'].intercalate parts) = parts := by
  by_cases hnil : parts = []
  · rw [hnil]
    rfl
  · rw [partsOf, List.splitOn_intercalate '/' (fun part hpart => (h part hpart).2.2) hnil,
      List.filter_eq_self]
    intro part hpart
    exact decide_eq_true ⟨(h part hpart).1, (h part hpart).2.1⟩

/-- Parts that are joined do not start with a slash. -/
theorem head?_intercalate {parts : List (List Char)} (h : ∀ part ∈ parts, IsPart part) :
    (['/'].intercalate parts).head? ≠ some '/' := by
  cases parts with
  | nil => simp
  | cons part parts =>
      have hpart := h part List.mem_cons_self
      cases part with
      | nil => exact absurd rfl hpart.1
      | cons c part =>
          have hc : c ≠ '/' := fun hslash => hpart.2.2 (hslash ▸ List.mem_cons_self)
          cases parts <;> simpa [List.intercalate] using hc

/-- A path is read back from its text. -/
@[simp]
theorem parse_str (p : PosixPath) : parse p.str = p := by
  by_cases hdot : p.root = .relative ∧ p.parts = []
  · rw [str, if_pos hdot]
    exact PosixPath.ext hdot.1.symm hdot.2.symm
  · rw [str, if_neg hdot]
    refine PosixPath.ext ?_ ?_
    · exact rootOf_append p.root (head?_intercalate p.proper)
    · exact (partsOf_append p.root _).trans (partsOf_intercalate p.proper)

/-! ## Joining -/

/-- A part goes to the end of a path. -/
theorem join_of_isPart (p : PosixPath) {name : List Char} (h : IsPart name) :
    (p.join name).root = p.root ∧ (p.join name).parts = p.parts ++ [name] := by
  have hproper : ∀ part ∈ [name], IsPart part := List.forall_mem_singleton.mpr h
  have hname : ['/'].intercalate [name] = name := List.intercalate_singleton
  have hroot : rootOf name = .relative := by
    have hhead := head?_intercalate hproper
    rw [hname] at hhead
    exact rootOf_append .relative hhead
  have hparts : partsOf name = [name] := by
    rw [← hname, partsOf_intercalate hproper, hname]
  rw [join, if_pos hroot]
  exact ⟨rfl, congrArg (p.parts ++ ·) hparts⟩

/-- A path with a root stands for itself. -/
theorem join_str_of_rooted (p : PosixPath) {q : PosixPath} (h : q.root ≠ .relative) :
    p.join q.str = q := by
  have hroot : rootOf q.str = q.root := congrArg PosixPath.root q.parse_str
  rw [join, if_neg (hroot ▸ h), parse_str]

theorem parts_join_str_of_relative (p : PosixPath) {q : PosixPath} (h : q.root = .relative) :
    (p.join q.str).parts = p.parts ++ q.parts := by
  have hroot : rootOf q.str = q.root := congrArg PosixPath.root q.parse_str
  have hparts : partsOf q.str = q.parts := congrArg PosixPath.parts q.parse_str
  rw [join, if_pos (hroot.trans h)]
  exact congrArg (p.parts ++ ·) hparts

theorem str_ne_nil (p : PosixPath) : p.str ≠ [] := by
  by_cases hdot : p.root = .relative ∧ p.parts = []
  · rw [str, if_pos hdot]
    exact List.cons_ne_nil '.' []
  · intro hnil
    have hparse := parse_str p
    rw [hnil] at hparse
    exact hdot (hparse ▸ ⟨rfl, rfl⟩)

/-! ## Strings -/

/-- {lit}`str(path)`. -/
def text (p : PosixPath) : String := String.ofList p.str

/-- {lit}`Path(text)`. -/
def ofString (text : String) : PosixPath := parse text.toList

@[simp]
theorem ofString_text (p : PosixPath) : ofString p.text = p := by
  rw [ofString, text, String.toList_ofList, parse_str]

theorem text_ne_empty (p : PosixPath) : p.text ≠ "" := by
  intro hempty
  have htext : p.text.toList = p.str := String.toList_ofList
  rw [hempty] at htext
  exact str_ne_nil p htext.symm

end PosixPath

end Paths
