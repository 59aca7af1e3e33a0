import NuLinkCore.Lib.Numeral

/-!
# Decimal numbers

Finite decimal numbers as Python's {lit}`decimal` module has them: a sign, a coefficient and an
exponent, so that numbers of one value may differ.  The text of a decimal is in scientific
notation if the exponent is positive or the number is small.

Main results:

- Theorem {lit}`Numerals.Decimal.parse_str`: reading inverts printing.
-/

namespace Numerals

structure Decimal where
  negative : Bool
  coefficient : Nat
  exponent : Int
deriving DecidableEq, Repr

namespace Decimal

/-! ## Printing -/

def zeros (n : Nat) : List Char := List.replicate n '0'

/-- {lit}`'%+d'`. -/
def signedInt (n : Int) : List Char :=
  if 0 ≤ n then '+' :: (printInt n).toList else (printInt n).toList

/-- How many digits stand left of the point if no exponent is printed. -/
def leftDigits (d : Decimal) : Int := d.exponent + d.coefficient.repr.toList.length

/-- How many digits stand left of the point. -/
def dotPlace (d : Decimal) : Int :=
  if d.exponent ≤ 0 ∧ -6 < d.leftDigits then d.leftDigits else 1

/-- The digits before and after the point. -/
def parts (d : Decimal) : List Char × List Char :=
  let digits := d.coefficient.repr.toList
  if d.dotPlace ≤ 0 then (['0'], zeros (-d.dotPlace).toNat ++ digits)
  else (digits.take d.dotPlace.toNat ++ zeros (d.dotPlace.toNat - digits.length),
    digits.drop d.dotPlace.toNat)

/-- The exponent that is printed. -/
def printedExponent (d : Decimal) : Int := d.leftDigits - d.dotPlace

/-- {lit}`Decimal.__str__`. -/
def str (d : Decimal) : List Char :=
  (if d.negative then ['-'] else []) ++ d.parts.1 ++
    (if d.parts.2 = [] then [] else '.' :: d.parts.2) ++
    (if d.printedExponent = 0 then [] else 'E' :: signedInt d.printedExponent)

/-! ## Reading -/

/-- The value of a decimal digit of any script. -/
def digit? (c : Char) : Option Nat :=
  match glyph c with
  | .digit d => some d
  | _ => none

def isDigit (c : Char) : Bool := (digit? c).isSome

def value (digits : List Char) : Nat :=
  digits.foldl (fun n c => 10 * n + (digit? c).getD 0) 0

/-- Takes a sign off. -/
def takeSign : List Char → Bool × List Char
  | '-' :: rest => (true, rest)
  | '+' :: rest => (false, rest)
  | rest => (false, rest)

/-- Reads an exponent, if there is one. -/
def readExponent : List Char → Option Int
  | [] => some 0
  | c :: rest =>
      let (negative, digits) := takeSign rest
      if (c = 'e' ∨ c = 'E') ∧ digits ≠ [] ∧ digits.all isDigit = true then
        some (if negative then -(value digits : Int) else value digits)
      else none

/-- Takes a point and the digits after it off. -/
def takeFraction : List Char → List Char × List Char
  | '.' :: rest => (rest.takeWhile isDigit, rest.dropWhile isDigit)
  | rest => ([], rest)

def isSpaceChar (c : Char) : Bool := isSpace c.toNat || (0x1c ≤ c.toNat && c.toNat ≤ 0x1f)

/-- White space around the number and underscores in it do not count. -/
def clean (text : List Char) : List Char :=
  (((text.dropWhile isSpaceChar).reverse.dropWhile isSpaceChar).reverse).filter (· ≠ '_')

/-- {lit}`Decimal(text)`, or {lit}`none` where it raises or is no finite number. -/
def parse (text : List Char) : Option Decimal :=
  let (negative, unsigned) := takeSign (clean text)
  let integer := unsigned.takeWhile isDigit
  let (fraction, rest) := takeFraction (unsigned.dropWhile isDigit)
  if integer = [] ∧ fraction = [] then none
  else
    (readExponent rest).map fun exponent =>
      ⟨negative, value (integer ++ fraction), exponent - fraction.length⟩

/-! ## Digits -/

theorem digit?_of_isDigit {c : Char} (h : c.isDigit = true) :
    digit? c = some (c.toNat - '0'.toNat) := by
  rw [digit?, glyph_of_isDigit h]

theorem isDigit_of_isDigit {c : Char} (h : c.isDigit = true) : isDigit c = true := by
  rw [isDigit, digit?_of_isDigit h, Option.isSome_some]

theorem value_eq_ofDigitChars {digits : List Char} (h : ∀ c ∈ digits, c.isDigit = true) :
    value digits = Nat.ofDigitChars 10 digits 0 := by
  have hfold : ∀ n, digits.foldl (fun n c => 10 * n + (digit? c).getD 0) n =
      Nat.ofDigitChars 10 digits n := by
    induction digits with
    | nil => intro n; rw [List.foldl_nil, Nat.ofDigitChars_nil]
    | cons c digits ih =>
        intro n
        rw [List.foldl_cons, ih fun d hd => h d (List.mem_cons_of_mem c hd),
          digit?_of_isDigit (h c List.mem_cons_self), Option.getD_some, Nat.ofDigitChars_cons]
  exact hfold 0

theorem isDigit_repr {n : Nat} : ∀ c ∈ n.repr.toList, c.isDigit = true :=
  fun _ hc => isDigit_of_mem_repr hc

theorem repr_ne_nil (n : Nat) : n.repr.toList ≠ [] := by
  rw [Nat.toList_repr]
  exact Nat.toDigits_ne_nil

theorem value_repr (n : Nat) : value n.repr.toList = n := by
  rw [value_eq_ofDigitChars isDigit_repr, Nat.toList_repr, Nat.ofDigitChars_ten_toDigits]

theorem isDigit_zeros {n : Nat} : ∀ c ∈ zeros n, c.isDigit = true := by
  intro c hc
  rw [List.eq_of_mem_replicate hc]
  rfl

/-- Leading zeros do not count. -/
theorem value_zeros_append (n : Nat) {digits : List Char} (h : ∀ c ∈ digits, c.isDigit = true) :
    value (zeros n ++ digits) = value digits := by
  rw [value_eq_ofDigitChars (List.forall_mem_append.mpr ⟨isDigit_zeros, h⟩),
    value_eq_ofDigitChars h, Nat.ofDigitChars_append, zeros, Nat.ofDigitChars_replicate_zero,
    Nat.mul_zero]

theorem takeWhile_digits {digits rest : List Char} (h : ∀ c ∈ digits, c.isDigit = true)
    (hrest : ∀ c ∈ rest.head?, isDigit c = false) :
    (digits ++ rest).takeWhile isDigit = digits ∧ (digits ++ rest).dropWhile isDigit = rest := by
  have hdigits : ∀ c ∈ digits, isDigit c = true := fun c hc => isDigit_of_isDigit (h c hc)
  rw [List.takeWhile_append_of_pos hdigits, List.dropWhile_append_of_pos hdigits]
  cases rest with
  | nil => simp
  | cons c rest =>
      have hc : isDigit c = false := hrest c rfl
      simp [hc]

/-! ## Reading what is printed -/

/-- The characters of a printed decimal. -/
def isPrinted (c : Char) : Bool := c.isDigit || c = '-' || c = '+' || c = '.' || c = 'E'

theorem isPrinted_of_isDigit {c : Char} (h : c.isDigit = true) : isPrinted c = true := by
  simp [isPrinted, h]

theorem not_space_of_isPrinted {c : Char} (h : isPrinted c = true) :
    isSpaceChar c = false ∧ c ≠ '_' := by
  simp only [isPrinted, Bool.or_eq_true, decide_eq_true_eq] at h
  rcases h with (((hdigit | rfl) | rfl) | rfl) | rfl
  · have hrange : 48 ≤ c.toNat ∧ c.toNat ≤ 57 := by
      simp only [Char.isDigit, Bool.and_eq_true, decide_eq_true_eq, ge_iff_le,
        UInt32.le_iff_toNat_le] at hdigit
      exact hdigit
    constructor
    · rw [Bool.eq_false_iff]
      simp only [isSpaceChar, isSpace, ne_eq, Bool.or_eq_true, Bool.and_eq_true,
        decide_eq_true_eq, beq_iff_eq]
      omega
    · rintro rfl
      exact absurd hdigit (by decide)
  · decide
  · decide
  · decide
  · decide

theorem clean_eq_self {text : List Char} (h : ∀ c ∈ text, isPrinted c = true) :
    clean text = text := by
  have hdrop : ∀ l : List Char, (∀ c ∈ l, isPrinted c = true) → l.dropWhile isSpaceChar = l := by
    intro l hl
    cases l with
    | nil => rfl
    | cons c rest =>
        have hc := (not_space_of_isPrinted (hl c List.mem_cons_self)).1
        simp [hc]
  have hreverse : ∀ c ∈ text.reverse, isPrinted c = true :=
    fun c hc => h c (List.mem_reverse.mp hc)
  rw [clean, hdrop text h, hdrop _ hreverse, List.reverse_reverse, List.filter_eq_self]
  intro c hc
  simpa using (not_space_of_isPrinted (h c hc)).2

/-- A printed integer is an optional minus and digits. -/
theorem printInt_cases (n : Int) :
    (0 ≤ n ∧ (printInt n).toList = n.natAbs.repr.toList) ∨
      (n < 0 ∧ (printInt n).toList = '-' :: n.natAbs.repr.toList) := by
  cases n with
  | ofNat n => exact Or.inl ⟨Int.natCast_nonneg n, rfl⟩
  | negSucc n =>
      refine Or.inr ⟨Int.negSucc_lt_zero n, ?_⟩
      simp [printInt, Int.repr, String.toList_append]

theorem signedInt_cases (n : Int) :
    (0 ≤ n ∧ signedInt n = '+' :: n.natAbs.repr.toList) ∨
      (n < 0 ∧ signedInt n = '-' :: n.natAbs.repr.toList) := by
  rw [signedInt]
  rcases printInt_cases n with h | h
  · exact Or.inl ⟨h.1, by rw [if_pos h.1, h.2]⟩
  · exact Or.inr ⟨h.1, by rw [if_neg (not_le.mpr h.1), h.2]⟩

theorem isPrinted_signedInt (n : Int) : ∀ c ∈ signedInt n, isPrinted c = true := by
  have hdigits : ∀ c ∈ n.natAbs.repr.toList, isPrinted c = true :=
    fun c hc => isPrinted_of_isDigit (isDigit_repr c hc)
  rcases signedInt_cases n with ⟨-, h⟩ | ⟨-, h⟩
  · rw [h, List.forall_mem_cons]
    exact ⟨rfl, hdigits⟩
  · rw [h, List.forall_mem_cons]
    exact ⟨rfl, hdigits⟩

/-- A printed exponent is read back. -/
theorem readExponent_signedInt (n : Int) : readExponent ('E' :: signedInt n) = some n := by
  have hall : n.natAbs.repr.toList.all isDigit = true :=
    List.all_eq_true.mpr fun c hc => isDigit_of_isDigit (isDigit_repr c hc)
  rcases signedInt_cases n with ⟨hn, h⟩ | ⟨hn, h⟩
  · rw [h, readExponent]
    simp only [takeSign, or_true, ne_eq, repr_ne_nil, not_false_eq_true, hall, and_self,
      if_true, Bool.false_eq_true, if_false, value_repr]
    rw [Int.natAbs_of_nonneg hn]
  · rw [h, readExponent]
    simp only [takeSign, or_true, ne_eq, repr_ne_nil, not_false_eq_true, hall, and_self,
      if_true, value_repr]
    rw [Int.ofNat_natAbs_of_nonpos hn.le, neg_neg]

theorem takeSign_of_isDigit {c : Char} (h : c.isDigit = true) (rest : List Char) :
    takeSign (c :: rest) = (false, c :: rest) := by
  unfold takeSign
  split
  · exact absurd h (by simp_all)
  · exact absurd h (by simp_all)
  · rfl

/-- What is printed for an exponent. -/
def exponentText (exponent : Int) : List Char :=
  if exponent = 0 then [] else 'E' :: signedInt exponent

/-- What is printed for the digits after the point. -/
def fractionText (fraction : List Char) : List Char :=
  if fraction = [] then [] else '.' :: fraction

theorem readExponent_exponentText (exponent : Int) :
    readExponent (exponentText exponent) = some exponent := by
  by_cases h : exponent = 0
  · rw [exponentText, if_pos h, h]
    rfl
  · rw [exponentText, if_neg h, readExponent_signedInt]

theorem exponentText_head (exponent : Int) :
    ∀ c ∈ (exponentText exponent).head?, isDigit c = false ∧ c ≠ '.' := by
  intro c hc
  rw [exponentText] at hc
  split_ifs at hc with hzero
  · cases hc
  · cases hc
    decide

theorem takeFraction_text {fraction : List Char} (h : ∀ c ∈ fraction, c.isDigit = true)
    (exponent : Int) :
    takeFraction (fractionText fraction ++ exponentText exponent) =
      (fraction, exponentText exponent) := by
  have hhead := exponentText_head exponent
  by_cases hnil : fraction = []
  · rw [fractionText, if_pos hnil, hnil, List.nil_append]
    generalize exponentText exponent = text at hhead
    unfold takeFraction
    split
    · rename_i rest
      exact absurd rfl (hhead '.' rfl).2
    · rfl
  · rw [fractionText, if_neg hnil, List.cons_append]
    rcases takeWhile_digits h fun c hc => (hhead c hc).1 with ⟨htake, hdrop⟩
    rw [takeFraction, htake, hdrop]

/-- The parts of a printed decimal are read back. -/
theorem parse_parts (negative : Bool) {integer fraction : List Char} (hne : integer ≠ [])
    (hinteger : ∀ c ∈ integer, c.isDigit = true) (hfraction : ∀ c ∈ fraction, c.isDigit = true)
    (exponent : Int) :
    parse ((if negative then ['-'] else []) ++ integer ++ fractionText fraction ++
        exponentText exponent) =
      some ⟨negative, value (integer ++ fraction), exponent - fraction.length⟩ := by
  have hhead : ∀ c ∈ (fractionText fraction ++ exponentText exponent).head?,
      isDigit c = false := by
    intro c hc
    rw [fractionText] at hc
    split_ifs at hc with hnil
    · exact (exponentText_head exponent c hc).1
    · cases hc
      decide
  rcases takeWhile_digits hinteger hhead with ⟨htake, hdrop⟩
  have hprinted : ∀ c ∈ (if negative then ['-'] else []) ++ integer ++ fractionText fraction ++
      exponentText exponent, isPrinted c = true := by
    simp only [List.forall_mem_append]
    refine ⟨⟨⟨?_, fun c hc => isPrinted_of_isDigit (hinteger c hc)⟩, ?_⟩, ?_⟩
    · cases negative with
      | true => simp [isPrinted]
      | false => simp
    · rw [fractionText]
      split_ifs with hnil
      · simp
      · rw [List.forall_mem_cons]
        exact ⟨rfl, fun c hc => isPrinted_of_isDigit (hfraction c hc)⟩
    · rw [exponentText]
      split_ifs with hzero
      · simp
      · rw [List.forall_mem_cons]
        exact ⟨rfl, isPrinted_signedInt exponent⟩
  have hsign : takeSign ((if negative then ['-'] else []) ++ integer ++ fractionText fraction ++
      exponentText exponent) =
      (negative, integer ++ (fractionText fraction ++ exponentText exponent)) := by
    cases negative with
    | true => simp [takeSign]
    | false =>
        cases integer with
        | nil => exact absurd rfl hne
        | cons c integer =>
            have hc : c.isDigit = true := hinteger c List.mem_cons_self
            simpa using takeSign_of_isDigit hc (integer ++ (fractionText fraction ++
              exponentText exponent))
  simp only [parse, clean_eq_self hprinted, hsign, htake, hdrop, takeFraction_text hfraction,
    hne, false_and, if_false, readExponent_exponentText, Option.map_some]

/-- Reading inverts printing. -/
theorem parse_str (d : Decimal) : parse (str d) = some d := by
  have hdigits : ∀ c ∈ d.coefficient.repr.toList, c.isDigit = true := isDigit_repr
  have hlength : 0 < d.coefficient.repr.toList.length :=
    List.length_pos_iff.mpr (repr_ne_nil d.coefficient)
  have hstr : str d = (if d.negative then ['-'] else []) ++ d.parts.1 ++ fractionText d.parts.2 ++
      exponentText d.printedExponent := rfl
  by_cases hsmall : d.dotPlace ≤ 0
  · have hparts : d.parts = (['0'], zeros (-d.dotPlace).toNat ++ d.coefficient.repr.toList) :=
      if_pos hsmall
    have hfraction : ∀ c ∈ zeros (-d.dotPlace).toNat ++ d.coefficient.repr.toList,
        c.isDigit = true := List.forall_mem_append.mpr ⟨isDigit_zeros, hdigits⟩
    have hvalue : value (['0'] ++ (zeros (-d.dotPlace).toNat ++ d.coefficient.repr.toList)) =
        d.coefficient := by
      have hzero : ['0'] = zeros 1 := rfl
      rw [hzero, value_zeros_append 1 hfraction, value_zeros_append _ hdigits, value_repr]
    have hexponent : d.printedExponent -
        ((zeros (-d.dotPlace).toNat ++ d.coefficient.repr.toList).length : Int) = d.exponent := by
      rw [List.length_append, zeros, List.length_replicate, printedExponent, leftDigits]
      omega
    rw [hstr, hparts, parse_parts d.negative (by simp) (by simp) hfraction, hvalue, hexponent]
  · -- No zeros are needed before the point, because a positive exponent is printed.
    have hplace : d.dotPlace.toNat ≤ d.coefficient.repr.toList.length := by
      rw [dotPlace] at hsmall ⊢
      split_ifs at hsmall ⊢ with hplain
      · rw [leftDigits] at hsmall ⊢
        omega
      · omega
    have hparts : d.parts = (d.coefficient.repr.toList.take d.dotPlace.toNat,
        d.coefficient.repr.toList.drop d.dotPlace.toNat) := by
      rw [parts, if_neg hsmall, Nat.sub_eq_zero_of_le hplace, zeros, List.replicate_zero,
        List.append_nil]
    have htake : d.coefficient.repr.toList.take d.dotPlace.toNat ≠ [] := by
      rw [Ne, List.take_eq_nil_iff, not_or]
      exact ⟨by omega, repr_ne_nil _⟩
    have hexponent : d.printedExponent -
        ((d.coefficient.repr.toList.drop d.dotPlace.toNat).length : Int) = d.exponent := by
      rw [List.length_drop, printedExponent, leftDigits]
      omega
    rw [hstr, hparts, parse_parts d.negative htake
      (fun c hc => hdigits c (List.mem_of_mem_take hc))
      (fun c hc => hdigits c (List.mem_of_mem_drop hc)), List.take_append_drop, value_repr,
      hexponent]

/-! ## Integers -/

/-- {lit}`Decimal(n)` of an integer. -/
def ofInt (n : Int) : Decimal := ⟨n < 0, n.natAbs, 0⟩

/-- An integer is printed as a decimal the way it is printed as an integer. -/
theorem str_ofInt (n : Int) : str (ofInt n) = (printInt n).toList := by
  have hlength : 0 < n.natAbs.repr.toList.length := List.length_pos_iff.mpr (repr_ne_nil n.natAbs)
  have hleft : (ofInt n).leftDigits = n.natAbs.repr.toList.length := by simp [leftDigits, ofInt]
  have hplace : (ofInt n).dotPlace = n.natAbs.repr.toList.length := by
    rw [dotPlace, hleft, if_pos ⟨le_refl _, by omega⟩]
  have hparts : (ofInt n).parts = (n.natAbs.repr.toList, []) := by
    have hcoefficient : (ofInt n).coefficient = n.natAbs := rfl
    rw [parts, hplace, if_neg (by omega), hcoefficient]
    simp [zeros]
  have hexponent : (ofInt n).printedExponent = 0 := by
    rw [printedExponent, hleft, hplace, sub_self]
  rw [str, hparts, hexponent]
  rcases printInt_cases n with ⟨hn, htext⟩ | ⟨hn, htext⟩
  · have hsign : (ofInt n).negative = false := decide_eq_false (not_lt.mpr hn)
    simp [hsign, htext]
  · have hsign : (ofInt n).negative = true := decide_eq_true hn
    simp [hsign, htext]

end Decimal

end Numerals
