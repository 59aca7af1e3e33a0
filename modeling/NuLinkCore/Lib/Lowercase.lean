import Mathlib.Data.List.Infix
import Mathlib.Tactic

/-!
# Lower case

A text is put into lower case one character after the other by a table.  Only the Greek capital
sigma depends on the characters around it: at the end of a word it has a form of its own.

Main results:

- Theorem {lit}`CaseTables.lower_append`: the lower case of a text whose end is no end of a word.
-/

namespace Lowercase

/-- The tables of the characters: the lower case of each, those that have a case, and those that
are skipped where the end of a word is looked for. -/
structure CaseTables where
  lowerChar : Char → List Char
  cased : Char → Bool
  ignorable : Char → Bool

namespace CaseTables

variable (tables : CaseTables)

/-- Whether the first character that counts has a case. -/
def meetsCased (text : List Char) : Bool :=
  (text.dropWhile tables.ignorable).head?.any tables.cased

/-- The lower case of a character between what is before it, backwards, and what is after it. -/
def lowerAt (before : List Char) (c : Char) (after : List Char) : List Char :=
  if c = 'Σ' then
    if tables.meetsCased before && !tables.meetsCased after then ['ς'] else ['σ']
  else tables.lowerChar c

def lowerFrom (before : List Char) : List Char → List Char
  | [] => []
  | c :: after => tables.lowerAt before c after ++ lowerFrom (c :: before) after

/-- {lit}`str.lower`. -/
def lower (text : List Char) : List Char := tables.lowerFrom [] text

variable {tables}

theorem meetsCased_append {text rest : List Char}
    (h : tables.meetsCased rest = false ∨ ∃ c ∈ text, tables.ignorable c = false) :
    tables.meetsCased (text ++ rest) = tables.meetsCased text := by
  induction text with
  | nil =>
      rcases h with hrest | ⟨c, hc, -⟩
      · rw [List.nil_append, hrest]
        rfl
      · exact absurd hc List.not_mem_nil
  | cons c text ih =>
      rw [meetsCased, meetsCased, List.cons_append]
      by_cases hc : tables.ignorable c = true
      · rw [List.dropWhile_cons_of_pos hc, List.dropWhile_cons_of_pos hc]
        refine ih (h.imp_right ?_)
        rintro ⟨d, hd, hignorable⟩
        rcases List.mem_cons.mp hd with rfl | hmem
        · rw [hc] at hignorable
          cases hignorable
        · exact ⟨d, hmem, hignorable⟩
      · rw [List.dropWhile_cons_of_neg hc, List.dropWhile_cons_of_neg hc]
        rfl

/-- What comes after a text changes its lower case only through a sigma near its end. -/
theorem lowerFrom_append {before text rest : List Char}
    (h : ∀ after, 'Σ' :: after <:+ text →
      tables.meetsCased (after ++ rest) = tables.meetsCased after) :
    tables.lowerFrom before (text ++ rest) =
      tables.lowerFrom before text ++ tables.lowerFrom (text.reverse ++ before) rest := by
  induction text generalizing before with
  | nil => rfl
  | cons c text ih =>
      have hchar : tables.lowerAt before c (text ++ rest) = tables.lowerAt before c text := by
        rw [lowerAt, lowerAt]
        by_cases hc : c = 'Σ'
        · rw [if_pos hc, if_pos hc, h text (hc ▸ List.suffix_refl _)]
        · rw [if_neg hc, if_neg hc]
      rw [List.cons_append, lowerFrom, lowerFrom, hchar,
        ih fun after hafter => h after (hafter.trans (List.suffix_cons c text)), List.append_assoc,
        List.reverse_cons, List.append_assoc, List.singleton_append]

/-- A text that ends a word as it does before what follows it keeps its lower case. -/
theorem lower_append {text rest : List Char}
    (h : ∀ after, 'Σ' :: after <:+ text →
      tables.meetsCased (after ++ rest) = tables.meetsCased after) :
    tables.lower text <+: tables.lower (text ++ rest) := by
  rw [lower, lower, lowerFrom_append h]
  exact List.prefix_append _ _

/-- A character that only one character is put into lower case as. -/
theorem mem_lower_iff {d : Char} (hd : d ≠ 'σ' ∧ d ≠ 'ς' ∧ d ≠ 'Σ')
    (h : ∀ c, d ∈ tables.lowerChar c ↔ c = d) (text : List Char) :
    d ∈ tables.lower text ↔ d ∈ text := by
  have hfrom : ∀ before, d ∈ tables.lowerFrom before text ↔ d ∈ text := by
    induction text with
    | nil => exact fun before => Iff.rfl
    | cons c text ih =>
        intro before
        have hchar : d ∈ tables.lowerAt before c text ↔ d = c := by
          rw [lowerAt]
          by_cases hc : c = 'Σ'
          · rw [if_pos hc, hc]
            refine iff_of_false ?_ hd.2.2
            split_ifs
            · exact fun hmem => hd.2.1 (List.mem_singleton.mp hmem)
            · exact fun hmem => hd.1 (List.mem_singleton.mp hmem)
          · rw [if_neg hc, h, eq_comm]
        rw [lowerFrom, List.mem_append, hchar, ih, List.mem_cons]
  exact hfrom []

end CaseTables

end Lowercase
