import Mathlib.Data.List.Basic
import Mathlib.Tactic

/-!
# Reading and printing decimal integers

The reading of an integer from text as the Python built-in {lit}`int` does it:
white space around the numeral, an optional sign, decimal digits of any script and
single underscores between digits.  Printing gives the plain ASCII numeral.

Main results:

- Theorem {lit}`Numerals.readInt_printInt`: reading inverts printing.
- Theorem {lit}`Numerals.readInt_eq_none_of_junk`: characters that no numeral has.
- Theorem {lit}`Numerals.colon_not_mem_printInt`: a printed integer has no colon.
-/

namespace Numerals

/-! ## Reading -/

/-- What a character is to the reader of a numeral. -/
inductive Glyph where
  | space
  | plus
  | minus
  | underscore
  | digit (d : Nat)
  | junk
deriving DecidableEq, Repr

/-- The code points of the digit zero, one for each run of ten decimal digits outside ASCII. -/
def zeroDigits : List Nat :=
  [0x660, 0x6f0, 0x7c0, 0x966, 0x9e6, 0xa66, 0xae6, 0xb66, 0xbe6, 0xc66, 0xce6, 0xd66, 0xde6,
    0xe50, 0xed0, 0xf20, 0x1040, 0x1090, 0x17e0, 0x1810, 0x1946, 0x19d0, 0x1a80, 0x1a90, 0x1b50,
    0x1bb0, 0x1c40, 0x1c50, 0xa620, 0xa8d0, 0xa900, 0xa9d0, 0xa9f0, 0xaa50, 0xabf0, 0xff10,
    0x104a0, 0x10d30, 0x11066, 0x110f0, 0x11136, 0x111d0, 0x112f0, 0x11450, 0x114d0, 0x11650,
    0x116c0, 0x11730, 0x118e0, 0x11950, 0x11c50, 0x11d50, 0x11da0, 0x16a60, 0x16ac0, 0x16b50,
    0x1d7ce, 0x1d7d8, 0x1d7e2, 0x1d7ec, 0x1d7f6, 0x1e140, 0x1e2f0, 0x1e950, 0x1fbf0]

/-- The white space that may surround a numeral. -/
def isSpace (code : Nat) : Bool :=
  (9 ≤ code && code ≤ 13) || code == 0x20 || code == 0x85 || code == 0xa0 || code == 0x1680 ||
    (0x2000 ≤ code && code ≤ 0x200a) || code == 0x2028 || code == 0x2029 || code == 0x202f ||
    code == 0x205f || code == 0x3000

/-- Classifies a character; ASCII digits come first. -/
def glyph (c : Char) : Glyph :=
  if c.isDigit then .digit (c.toNat - '0'.toNat)
  else if c = '+' then .plus
  else if c = '-' then .minus
  else if c = '_' then .underscore
  else if isSpace c.toNat then .space
  else
    match zeroDigits.find? (fun first => first ≤ c.toNat && c.toNat < first + 10) with
    | some first => .digit (c.toNat - first)
    | none => .junk

/-- Reads digits up to the end, with at most one underscore between two of them. -/
def readDigits (acc : Nat) : List Glyph → Option Nat
  | [] => some acc
  | .digit d :: rest => readDigits (10 * acc + d) rest
  | .underscore :: .digit d :: rest => readDigits (10 * acc + d) rest
  | _ => none

/-- Reads a nonempty run of digits; the first one is no underscore. -/
def readNat : List Glyph → Option Nat
  | .digit d :: rest => readDigits d rest
  | _ => none

/-- Reads an optional sign and a run of digits. -/
def readSigned : List Glyph → Option Int
  | .plus :: rest => (readNat rest).map Int.ofNat
  | .minus :: rest => (readNat rest).map (fun n => -(n : Int))
  | glyphs => (readNat glyphs).map Int.ofNat

/-- Removes the white space at both ends. -/
def strip (glyphs : List Glyph) : List Glyph :=
  ((glyphs.dropWhile (· = .space)).reverse.dropWhile (· = .space)).reverse

/-- The integer a text denotes, or {lit}`none` where {lit}`int` raises {lit}`ValueError`. -/
def readInt (text : String) : Option Int := readSigned (strip (text.toList.map glyph))

/-! ## What no numeral has -/

theorem readDigits_eq_none {glyphs : List Glyph} (h : .junk ∈ glyphs) (acc : Nat) :
    readDigits acc glyphs = none := by
  fun_induction readDigits acc glyphs with
  | case1 acc => cases h
  | case2 acc d rest ih => exact ih (by simpa using h)
  | case3 acc d rest ih => exact ih (by simpa using h)
  | case4 acc glyphs => rfl

theorem readNat_eq_none {glyphs : List Glyph} (h : .junk ∈ glyphs) : readNat glyphs = none := by
  unfold readNat
  split
  · rename_i d rest
    exact readDigits_eq_none (by simpa using h) d
  · rfl

theorem readSigned_eq_none {glyphs : List Glyph} (h : .junk ∈ glyphs) :
    readSigned glyphs = none := by
  unfold readSigned
  split
  · rw [readNat_eq_none (by simpa using h)]
    rfl
  · rw [readNat_eq_none (by simpa using h)]
    rfl
  · rw [readNat_eq_none h]
    rfl

theorem junk_mem_dropWhile {glyphs : List Glyph} (h : .junk ∈ glyphs) :
    .junk ∈ glyphs.dropWhile (· = .space) := by
  induction glyphs with
  | nil => cases h
  | cons first rest ih =>
      by_cases hspace : first = .space
      · rw [List.dropWhile_cons_of_pos (by simpa using hspace)]
        exact ih (by simpa [hspace] using h)
      · rw [List.dropWhile_cons_of_neg (by simpa using hspace)]
        exact h

/-- A text with a character that no numeral has does not read as an integer. -/
theorem readInt_eq_none_of_junk {text : String} {c : Char} (hc : c ∈ text.toList)
    (hjunk : glyph c = .junk) : readInt text = none := by
  apply readSigned_eq_none
  have hmem : .junk ∈ text.toList.map glyph := List.mem_map.mpr ⟨c, hc, hjunk⟩
  rw [strip, List.mem_reverse]
  apply junk_mem_dropWhile
  rw [List.mem_reverse]
  exact junk_mem_dropWhile hmem

/-! ## Printing -/

/-- The decimal numeral of an integer. -/
def printInt (n : Int) : String := n.repr

theorem glyph_of_isDigit {c : Char} (h : c.isDigit = true) :
    glyph c = .digit (c.toNat - '0'.toNat) := by
  simp only [glyph, h, if_true]

theorem strip_eq_self {glyphs : List Glyph} (h : ∀ g ∈ glyphs, g ≠ .space) :
    strip glyphs = glyphs := by
  have hdrop : ∀ l : List Glyph, (∀ g ∈ l, g ≠ .space) → l.dropWhile (· = .space) = l := by
    intro l hl
    cases l with
    | nil => rfl
    | cons g rest =>
        have hg : g ≠ .space := hl g List.mem_cons_self
        simp [hg]
  have hrev : ∀ g ∈ glyphs.reverse, g ≠ .space := fun g hg => h g (List.mem_reverse.mp hg)
  rw [strip, hdrop glyphs h, hdrop _ hrev, List.reverse_reverse]

theorem readDigits_map_glyph (acc : Nat) {cs : List Char} (h : ∀ c ∈ cs, c.isDigit = true) :
    readDigits acc (cs.map glyph) = some (Nat.ofDigitChars 10 cs acc) := by
  induction cs generalizing acc with
  | nil => simp [readDigits]
  | cons c rest ih =>
      have hc : c.isDigit = true := h c List.mem_cons_self
      have hrest : ∀ d ∈ rest, d.isDigit = true := fun d hd => h d (List.mem_cons_of_mem c hd)
      rw [List.map_cons, glyph_of_isDigit hc, readDigits, ih _ hrest, Nat.ofDigitChars_cons]

theorem isDigit_of_mem_repr {n : Nat} {c : Char} (h : c ∈ n.repr.toList) : c.isDigit = true := by
  rw [Nat.toList_repr] at h
  exact Nat.isDigit_of_mem_toDigits (by norm_num) le_rfl h

/-- Reading inverts printing on natural numbers. -/
theorem readNat_repr (n : Nat) : readNat (n.repr.toList.map glyph) = some n := by
  have hdigit : ∀ c ∈ n.repr.toList, c.isDigit = true := fun c hc => isDigit_of_mem_repr hc
  have hvalue : Nat.ofDigitChars 10 n.repr.toList 0 = n := by
    rw [Nat.toList_repr, Nat.ofDigitChars_ten_toDigits]
  cases hchars : n.repr.toList with
  | nil =>
      rw [Nat.toList_repr] at hchars
      exact absurd hchars Nat.toDigits_ne_nil
  | cons c rest =>
      rw [hchars] at hdigit hvalue
      have hc : c.isDigit = true := hdigit c List.mem_cons_self
      rw [Nat.ofDigitChars_cons] at hvalue
      rw [List.map_cons, glyph_of_isDigit hc, readNat,
        readDigits_map_glyph _ (fun d hd => hdigit d (List.mem_cons_of_mem c hd))]
      simpa using hvalue

theorem glyph_repr_ne_space {n : Nat} : ∀ g ∈ n.repr.toList.map glyph, g ≠ .space := by
  intro g hg
  rcases List.mem_map.mp hg with ⟨c, hc, rfl⟩
  simp [glyph_of_isDigit (isDigit_of_mem_repr hc)]

/-- A printed natural number starts with a digit, so no sign is taken off it. -/
theorem readSigned_repr (n : Nat) : readSigned (n.repr.toList.map glyph) = some (n : Int) := by
  have hread := readNat_repr n
  generalize n.repr.toList.map glyph = glyphs at hread
  cases glyphs with
  | nil => simp [readNat] at hread
  | cons g rest =>
      cases g with
      | digit d => simp [readSigned, hread]
      | space => simp [readNat] at hread
      | plus => simp [readNat] at hread
      | minus => simp [readNat] at hread
      | underscore => simp [readNat] at hread
      | junk => simp [readNat] at hread

/-- Reading inverts printing. -/
@[simp]
theorem readInt_printInt (n : Int) : readInt (printInt n) = some n := by
  cases n with
  | ofNat n =>
      have hstrip := strip_eq_self (glyph_repr_ne_space (n := n))
      simp only [readInt, printInt, Int.repr, hstrip, readSigned_repr]
      rfl
  | negSucc n =>
      have hchars : ("-" ++ (n.succ).repr).toList.map glyph =
          .minus :: (n.succ).repr.toList.map glyph := by
        rw [String.toList_append, List.map_append]
        rfl
      have hspace : ∀ g ∈ Glyph.minus :: (n.succ).repr.toList.map glyph, g ≠ .space := by
        intro g hg
        rcases List.mem_cons.mp hg with rfl | hg
        · simp
        · exact glyph_repr_ne_space g hg
      simp only [readInt, printInt, Int.repr]
      rw [hchars, strip_eq_self hspace, readSigned, readNat_repr]
      rfl

theorem printInt_injective : Function.Injective printInt := by
  intro m n h
  have hread := congrArg readInt h
  simpa using hread

/-- A printed integer has no colon. -/
theorem colon_not_mem_printInt (n : Int) : ':' ∉ (printInt n).toList := by
  have hrepr : ∀ m : Nat, ':' ∉ m.repr.toList := by
    intro m hmem
    exact absurd (isDigit_of_mem_repr hmem) (by decide)
  cases n with
  | ofNat n => exact hrepr n
  | negSucc n =>
      simp only [printInt, Int.repr, String.toList_append, List.mem_append, not_or]
      exact ⟨by decide, hrepr n.succ⟩

end Numerals
