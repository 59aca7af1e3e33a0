import Mathlib.Data.List.TakeWhile
import NuLinkCore.Lib.Json.Lexer
import NuLinkCore.Lib.Numeral

/-!
# Numbers in JSON text

The literals that Python's {lit}`json` module reads as numbers.  A float is kept as its
literal.

Main results:

- Theorem {lit}`Json.numberKind_intLiteral`: a written integer is read as an integer.
- Theorems {lit}`Json.word_float` and {lit}`Json.word_of_numberKind`: numbers are words for the
  lexer.
-/

namespace Json

/-! ## Numbers -/

/-- Drops a run of digits, at least one. -/
def dropDigits (text : List Char) : Option (List Char) :=
  match text with
  | c :: _ => if c.isDigit then some (text.dropWhile Char.isDigit) else none
  | [] => none

/-- Drops the integer part of a number. -/
def dropInteger (text : List Char) : Option (List Char) :=
  match (if text.head? = some '-' then text.tail else text) with
  | '0' :: rest => some rest
  | rest => dropDigits rest

/-- Drops a fraction; whether there is one. -/
def dropFraction (text : List Char) : Option (Bool × List Char) :=
  match text with
  | '.' :: rest => (dropDigits rest).map (true, ·)
  | _ => some (false, text)

/-- Drops an exponent; whether there is one. -/
def dropExponent (text : List Char) : Option (Bool × List Char) :=
  match text with
  | c :: rest =>
      if c = 'e' ∨ c = 'E' then
        (dropDigits (if rest.head? = some '+' ∨ rest.head? = some '-' then rest.tail else rest)).map
          (true, ·)
      else some (false, text)
  | [] => some (false, [])

/-- Whether a text is a number; whether it has a fraction or an exponent. -/
def numberKind (text : List Char) : Option Bool := do
  let rest ← dropInteger text
  let (fraction, rest) ← dropFraction rest
  let (exponent, rest) ← dropExponent rest
  if rest = [] then some (fraction || exponent) else none

/-- The names of the floats that are not numbers. -/
def floatNames : List (List Char) :=
  [['N', 'a', 'N'], ['I', 'n', 'f', 'i', 'n', 'i', 't', 'y'],
    ['-', 'I', 'n', 'f', 'i', 'n', 'i', 't', 'y']]

/-- Whether a text is a float: a number with a fraction or an exponent, or one of three names. -/
def isFloat (text : List Char) : Bool := numberKind text = some true || text ∈ floatNames

abbrev Float := {text : List Char // isFloat text = true}

/-- How an integer is written. -/
def intLiteral (n : Int) : List Char := (Numerals.printInt n).toList

/-! ## Literals are words -/

/-- The characters of numbers. -/
def isNumeric (c : Char) : Bool :=
  c.isDigit || c = '-' || c = '+' || c = '.' || c = 'e' || c = 'E'

/-- A text less a numeric front. -/
def Drops (text rest : List Char) : Prop :=
  ∃ front, text = front ++ rest ∧ ∀ c ∈ front, isNumeric c = true

theorem Drops.refl (text : List Char) : Drops text text := ⟨[], rfl, by simp⟩

theorem Drops.cons {c : Char} {text rest : List Char} (hc : isNumeric c = true)
    (h : Drops text rest) : Drops (c :: text) rest := by
  rcases h with ⟨front, rfl, hfront⟩
  refine ⟨c :: front, rfl, ?_⟩
  intro d hd
  rcases List.mem_cons.mp hd with rfl | hd
  · exact hc
  · exact hfront d hd

theorem Drops.trans {text rest end' : List Char} (h : Drops text rest) (h' : Drops rest end') :
    Drops text end' := by
  rcases h with ⟨front, rfl, hfront⟩
  rcases h' with ⟨front', rfl, hfront'⟩
  refine ⟨front ++ front', by simp, ?_⟩
  intro c hc
  rcases List.mem_append.mp hc with hc | hc
  · exact hfront c hc
  · exact hfront' c hc

theorem drops_tail {text : List Char} {c : Char} (hc : isNumeric c = true)
    (h : text.head? = some c) : Drops text text.tail := by
  cases text with
  | nil => cases h
  | cons d text =>
      rw [List.head?_cons, Option.some_inj] at h
      rw [h]
      exact (Drops.refl text).cons hc

theorem drops_of_dropDigits {text rest : List Char} (h : dropDigits text = some rest) :
    Drops text rest := by
  cases text with
  | nil => cases h
  | cons c text =>
      simp only [dropDigits] at h
      split_ifs at h with hc
      cases h
      refine ⟨(c :: text).takeWhile Char.isDigit, List.takeWhile_append_dropWhile.symm, ?_⟩
      intro d hd
      simp [isNumeric, List.mem_takeWhile_imp hd]

theorem drops_of_dropInteger {text rest : List Char} (h : dropInteger text = some rest) :
    Drops text rest := by
  have hsign : Drops text (if text.head? = some '-' then text.tail else text) := by
    split_ifs with hminus
    · exact drops_tail (by decide) hminus
    · exact Drops.refl text
  apply hsign.trans
  unfold dropInteger at h
  split at h
  · next heq =>
      cases h
      rw [heq]
      exact (Drops.refl rest).cons (by decide)
  · exact drops_of_dropDigits h

theorem drops_of_dropFraction {text rest : List Char} {fraction : Bool}
    (h : dropFraction text = some (fraction, rest)) : Drops text rest := by
  unfold dropFraction at h
  split at h
  · rcases Option.map_eq_some_iff.mp h with ⟨rest', hdigits, heq⟩
    cases heq
    exact (drops_of_dropDigits hdigits).cons (by decide)
  · cases h
    exact Drops.refl text

theorem drops_of_dropExponent {text rest : List Char} {exponent : Bool}
    (h : dropExponent text = some (exponent, rest)) : Drops text rest := by
  unfold dropExponent at h
  split at h
  · next c text =>
      split_ifs at h with he hsign
      · rcases Option.map_eq_some_iff.mp h with ⟨rest', hdigits, heq⟩
        cases heq
        have hc : isNumeric c = true := by
          rcases he with rfl | rfl <;> decide
        apply Drops.cons hc
        apply Drops.trans _ (drops_of_dropDigits hdigits)
        rcases hsign with hplus | hminus
        · exact drops_tail (by decide) hplus
        · exact drops_tail (by decide) hminus
      · rcases Option.map_eq_some_iff.mp h with ⟨rest', hdigits, heq⟩
        cases heq
        have hc : isNumeric c = true := by
          rcases he with rfl | rfl <;> decide
        exact (drops_of_dropDigits hdigits).cons hc
      · cases h
        exact Drops.refl _
  · cases h
    exact Drops.refl _

/-- Numbers consist of the characters of numbers. -/
theorem isNumeric_of_numberKind {text : List Char} {kind : Bool}
    (h : numberKind text = some kind) : ∀ c ∈ text, isNumeric c = true := by
  simp only [numberKind, Option.bind_eq_bind, Option.bind_eq_some_iff] at h
  rcases h with ⟨rest, hinteger, ⟨fraction, rest'⟩, hfraction, ⟨exponent, rest''⟩, hexponent, h⟩
  split_ifs at h with hend
  have hdrops := ((drops_of_dropInteger hinteger).trans (drops_of_dropFraction hfraction)).trans
    (drops_of_dropExponent hexponent)
  rcases hdrops with ⟨front, rfl, hfront⟩
  rw [show rest'' = [] from hend, List.append_nil]
  exact hfront

theorem numberKind_nil : numberKind [] = none := rfl

/-- A word: it is not empty and nothing in it ends a literal. -/
structure Word (text : List Char) : Prop where
  ne_nil : text ≠ []
  not_delimiter : ∀ c ∈ text, isDelimiter c = false

theorem Word.of_all {text : List Char} (hne : text ≠ [])
    (h : text.all (fun c => !isDelimiter c) = true) : Word text := by
  refine ⟨hne, ?_⟩
  intro c hc
  simpa using List.all_eq_true.mp h c hc

theorem isDelimiter_of_isNumeric {c : Char} (h : isNumeric c = true) : isDelimiter c = false := by
  have hdigit : c.isDigit = true → isDelimiter c = false := by
    intro hc
    have hne : ∀ d : Char, d.isDigit = false → c ≠ d := by
      intro d hd heq
      rw [heq, hd] at hc
      cases hc
    simp [isDelimiter, isSpace, punctuation, hne ' ' rfl, hne '\t' rfl, hne '\n' rfl,
      hne '\r' rfl, hne '"' rfl, hne '{' rfl, hne '}' rfl, hne '[' rfl, hne ']' rfl, hne ':' rfl,
      hne ',' rfl]
  simp only [isNumeric, Bool.or_eq_true, decide_eq_true_eq] at h
  rcases h with ((((hc | rfl) | rfl) | rfl) | rfl) | rfl
  · exact hdigit hc
  all_goals rfl

theorem word_of_numberKind {text : List Char} {kind : Bool} (h : numberKind text = some kind) :
    Word text := by
  constructor
  · intro hnil
    rw [hnil, numberKind_nil] at h
    cases h
  · intro c hc
    exact isDelimiter_of_isNumeric (isNumeric_of_numberKind h c hc)

theorem word_float (literal : Float) : Word literal.val := by
  have h := literal.property
  simp only [isFloat, Bool.or_eq_true, decide_eq_true_eq] at h
  rcases h with hnumber | hname
  · exact word_of_numberKind hnumber
  · have hnames : ∀ name ∈ floatNames,
        name ≠ [] ∧ name.all (fun c => !isDelimiter c) = true := by decide
    exact Word.of_all (hnames _ hname).1 (hnames _ hname).2

/-- The numeral of a positive number does not start with zero. -/
theorem head_toDigits {n : Nat} (h : 0 < n) : (Nat.toDigits 10 n).head? ≠ some '0' := by
  induction n using Nat.strongRecOn with
  | ind n ih =>
      by_cases hlt : n < 10
      · rw [Nat.toDigits_of_lt_base hlt]
        interval_cases n <;> decide
      · rw [Nat.toDigits_of_base_le (by omega) (by omega)]
        have hrest := ih (n / 10) (by omega) (by omega)
        cases hdigits : Nat.toDigits 10 (n / 10) with
        | nil => exact absurd hdigits Nat.toDigits_ne_nil
        | cons c digits =>
            rw [hdigits] at hrest
            exact hrest

/-- A numeral is an integer for the reader. -/
theorem numberKind_digits {digits : List Char} (hdigits : ∀ c ∈ digits, c.isDigit = true)
    (hne : digits ≠ []) (hzero : digits.head? = some '0' → digits = ['0']) :
    dropInteger digits = some [] := by
  cases digits with
  | nil => exact absurd rfl hne
  | cons c digits =>
      have hc : c.isDigit = true := hdigits c List.mem_cons_self
      have hminus : c ≠ '-' := by
        intro heq
        rw [heq] at hc
        cases hc
      by_cases hcz : c = '0'
      · rw [hzero (by rw [hcz]; rfl)]
        rfl
      · have hdrop : (c :: digits).dropWhile Char.isDigit = [] :=
          List.dropWhile_eq_nil_iff.mpr hdigits
        simp only [dropInteger, List.head?_cons, Option.some_inj, hminus, if_false]
        split
        · next heq => exact absurd (List.cons.inj heq).1 hcz
        · rw [dropDigits, if_pos hc, hdrop]

theorem dropInteger_repr (n : Nat) : dropInteger n.repr.toList = some [] := by
  rw [Nat.toList_repr]
  apply numberKind_digits
  · intro c hc
    exact Nat.isDigit_of_mem_toDigits (by norm_num) le_rfl hc
  · exact Nat.toDigits_ne_nil
  · intro hzero
    rcases Nat.eq_zero_or_pos n with rfl | hpos
    · exact Nat.toDigits_zero 10
    · exact absurd hzero (head_toDigits hpos)

theorem numberKind_intLiteral (n : Int) : numberKind (intLiteral n) = some false := by
  have hinteger : dropInteger (intLiteral n) = some [] := by
    cases n with
    | ofNat n => exact dropInteger_repr n
    | negSucc n =>
        have hchars : intLiteral (.negSucc n) = '-' :: (n.succ).repr.toList := by
          simp [intLiteral, Numerals.printInt, Int.repr, String.toList_append]
        have hplain : dropInteger ('-' :: (n.succ).repr.toList) =
            dropInteger (n.succ).repr.toList := by
          have hminus : (n.succ).repr.toList.head? ≠ some '-' := by
            intro hhead
            exact absurd (Numerals.isDigit_of_mem_repr (List.mem_of_mem_head? hhead)) (by decide)
          simp only [dropInteger, List.head?_cons, if_true, List.tail_cons, hminus, if_false]
        rw [hchars, hplain, dropInteger_repr]
  simp [numberKind, hinteger, dropFraction, dropExponent]

end Json
