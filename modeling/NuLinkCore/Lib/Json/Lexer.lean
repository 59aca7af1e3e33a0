import NuLinkCore.Lib.Hex

/-!
# The tokens of JSON text

The lexer of JSON documents as Python's {lit}`json` module reads them: control characters
may not stand in a string, an escaped code unit has four digits, and two surrogates make
one character.  A lone surrogate is no character and is refused.  Strings are written in
ASCII.

Main results:

- Theorem {lit}`Json.lex_quote`: a written string is lexed as that string.
- Theorem {lit}`Json.lex_word`: a literal is lexed as one word.
-/

namespace Json

inductive Token where
  | lbrace
  | rbrace
  | lbracket
  | rbracket
  | colon
  | comma
  | str (text : List Char)
  | word (text : List Char)
deriving DecidableEq, Repr

/-- White space between tokens. -/
def isSpace (c : Char) : Bool := c = ' ' || c = '\t' || c = '\n' || c = '\r'

def punctuation (c : Char) : Option Token :=
  if c = '{' then some .lbrace
  else if c = '}' then some .rbrace
  else if c = '[' then some .lbracket
  else if c = ']' then some .rbracket
  else if c = ':' then some .colon
  else if c = ',' then some .comma
  else none

/-- The character that a short escape stands for. -/
def unescape (c : Char) : Option Char :=
  if c = '"' then some '"'
  else if c = '\\' then some '\\'
  else if c = '/' then some '/'
  else if c = 'b' then some '\x08'
  else if c = 'f' then some '\x0c'
  else if c = 'n' then some '\n'
  else if c = 'r' then some '\r'
  else if c = 't' then some '\t'
  else none

/-- The value of four hexadecimal digits, the last one first. -/
def unitValue (digits : List Nat) : Nat := digits.foldr (fun d n => 16 * n + d) 0

def isHighSurrogate (n : Nat) : Bool := 0xd800 ≤ n && n ≤ 0xdbff
def isLowSurrogate (n : Nat) : Bool := 0xdc00 ≤ n && n ≤ 0xdfff

/-- Where the lexer is. -/
inductive Mode where
  | plain
  | word (text : List Char)
  | quoted (text : List Char)
  | escape (text : List Char)
  /-- Among the digits of a code unit, after a high surrogate or not. -/
  | unit (text : List Char) (high : Option Nat) (digits : List Nat)
  /-- After a high surrogate. -/
  | pair (text : List Char) (high : Nat)
  | pairEscape (text : List Char) (high : Nat)

/-- Where the lexer is after a code unit. -/
def Mode.afterUnit (text : List Char) : Option Nat → Nat → Option Mode
  | none, n =>
      if isHighSurrogate n then some (.pair text n)
      else if isLowSurrogate n then none
      else some (.quoted (text ++ [Char.ofNat n]))
  | some high, n =>
      if isLowSurrogate n then
        some (.quoted (text ++ [Char.ofNat (0x10000 + (high - 0xd800) * 1024 + (n - 0xdc00))]))
      else none

/-- One character in a string: where the lexer is after it. -/
def Mode.inString : Mode → Char → Option Mode
  | .quoted text, c =>
      if c = '\\' then some (.escape text)
      else if c.toNat < 0x20 then none
      else some (.quoted (text ++ [c]))
  | .escape text, c =>
      if c = 'u' then some (.unit text none [])
      else (unescape c).map fun d => .quoted (text ++ [d])
  | .unit text high digits, c =>
      match Hex.value? c with
      | none => none
      | some d =>
          if digits.length = 3 then Mode.afterUnit text high (unitValue (d :: digits))
          else some (.unit text high (d :: digits))
  | .pair text high, c => if c = '\\' then some (.pairEscape text high) else none
  | .pairEscape text high, c => if c = 'u' then some (.unit text (some high) []) else none
  | .plain, _ => none
  | .word _, _ => none

/-- The tokens of a text, from where the lexer is. -/
def lex : Mode → List Char → Option (List Token)
  | .plain, [] => some []
  | .plain, c :: cs =>
      if isSpace c then lex .plain cs
      else if c = '"' then lex (.quoted []) cs
      else
        match punctuation c with
        | some token => (lex .plain cs).map (token :: ·)
        | none => lex (.word [c]) cs
  | .word text, [] => some [.word text]
  | .word text, c :: cs =>
      if isSpace c then (lex .plain cs).map (.word text :: ·)
      else if c = '"' then (lex (.quoted []) cs).map (.word text :: ·)
      else
        match punctuation c with
        | some token => (lex .plain cs).map (fun tokens => .word text :: token :: tokens)
        | none => lex (.word (text ++ [c])) cs
  | .quoted text, c :: cs =>
      if c = '"' then (lex .plain cs).map (.str text :: ·)
      else
        match (Mode.quoted text).inString c with
        | some mode => lex mode cs
        | none => none
  | _, [] => none
  | mode, c :: cs =>
      match mode.inString c with
      | some mode => lex mode cs
      | none => none

/-! ## Strings -/

/-- The four digits of a code unit. -/
def unit4 (n : Nat) : List Char :=
  [Hex.digit (n / 4096), Hex.digit (n / 256 % 16), Hex.digit (n / 16 % 16), Hex.digit (n % 16)]

/-- How a character is written in a string. -/
def escapeChar (c : Char) : List Char :=
  if c = '"' then ['\\', '"']
  else if c = '\\' then ['\\', '\\']
  else if c = '\n' then ['\\', 'n']
  else if c = '\r' then ['\\', 'r']
  else if c = '\t' then ['\\', 't']
  else if c = '\x0c' then ['\\', 'f']
  else if c = '\x08' then ['\\', 'b']
  else if 0x20 ≤ c.toNat ∧ c.toNat ≤ 0x7e then [c]
  else if c.toNat < 0x10000 then '\\' :: 'u' :: unit4 c.toNat
  else
    '\\' :: 'u' :: unit4 (0xd800 + (c.toNat - 0x10000) / 1024) ++
      '\\' :: 'u' :: unit4 (0xdc00 + (c.toNat - 0x10000) % 1024)

def quote (text : List Char) : List Char := '"' :: text.flatMap escapeChar ++ ['"']

theorem lex_unit4 {text rest : List Char} {high : Option Nat} {n : Nat} (h : n < 0x10000) :
    lex (.unit text high []) (unit4 n ++ rest) =
      match Mode.afterUnit text high n with
      | some mode => lex mode rest
      | none => none := by
  have hvalue : unitValue [n % 16, n / 16 % 16, n / 256 % 16, n / 4096] = n := by
    simp only [unitValue, List.foldr_cons, List.foldr_nil]
    omega
  simp [unit4, lex, Mode.inString, Hex.value?_digit _ (show n / 4096 < 16 by omega),
    Hex.value?_digit _ (show n / 256 % 16 < 16 by omega),
    Hex.value?_digit _ (show n / 16 % 16 < 16 by omega),
    Hex.value?_digit _ (show n % 16 < 16 by omega), hvalue]

theorem toNat_valid (c : Char) : c.toNat < 0xd800 ∨ 0xe000 ≤ c.toNat ∧ c.toNat < 0x110000 := by
  have hvalid := c.valid
  rw [UInt32.isValidChar, Nat.isValidChar] at hvalid
  exact hvalid

@[simp]
theorem isHighSurrogate_iff {n : Nat} :
    isHighSurrogate n = true ↔ 0xd800 ≤ n ∧ n ≤ 0xdbff := by
  simp [isHighSurrogate]

@[simp]
theorem isLowSurrogate_iff {n : Nat} :
    isLowSurrogate n = true ↔ 0xdc00 ≤ n ∧ n ≤ 0xdfff := by
  simp [isLowSurrogate]

/-- No character is a surrogate. -/
theorem not_highSurrogate (c : Char) : isHighSurrogate c.toNat = false := by
  have hvalid := toNat_valid c
  rw [← Bool.not_eq_true, isHighSurrogate_iff]
  omega

theorem not_lowSurrogate (c : Char) : isLowSurrogate c.toNat = false := by
  have hvalid := toNat_valid c
  rw [← Bool.not_eq_true, isLowSurrogate_iff]
  omega

theorem afterUnit_char (text : List Char) (c : Char) :
    Mode.afterUnit text none c.toNat = some (.quoted (text ++ [c])) := by
  simp [Mode.afterUnit, not_highSurrogate, not_lowSurrogate]

/-- Two surrogates are read as one character. -/
theorem lex_pair {text rest : List Char} {high low : Nat} (hhigh : isHighSurrogate high = true)
    (hlow : isLowSurrogate low = true) :
    lex (.quoted text) ('\\' :: 'u' :: unit4 high ++ '\\' :: 'u' :: unit4 low ++ rest) =
      lex (.quoted (text ++ [Char.ofNat (0x10000 + (high - 0xd800) * 1024 + (low - 0xdc00))]))
        rest := by
  have hhighBound := isHighSurrogate_iff.mp hhigh
  have hlowBound := isLowSurrogate_iff.mp hlow
  have hpair : Mode.afterUnit text none high = some (.pair text high) := by
    rw [Mode.afterUnit, if_pos hhigh]
  have hquoted : Mode.afterUnit text (some high) low = some (.quoted
      (text ++ [Char.ofNat (0x10000 + (high - 0xd800) * 1024 + (low - 0xdc00))])) := by
    rw [Mode.afterUnit, if_pos hlow]
  calc lex (.quoted text) ('\\' :: 'u' :: unit4 high ++ '\\' :: 'u' :: unit4 low ++ rest)
      = lex (.unit text none []) (unit4 high ++ ('\\' :: 'u' :: unit4 low ++ rest)) := rfl
    _ = lex (.pair text high) ('\\' :: 'u' :: unit4 low ++ rest) := by
        rw [lex_unit4 (by omega), hpair]
    _ = lex (.unit text (some high) []) (unit4 low ++ rest) := rfl
    _ = _ := by rw [lex_unit4 (by omega), hquoted]

theorem surrogates_value {n : Nat} (h : 0x10000 ≤ n) :
    0x10000 + (0xd800 + (n - 0x10000) / 1024 - 0xd800) * 1024 +
      (0xdc00 + (n - 0x10000) % 1024 - 0xdc00) = n := by
  omega

/-- A written character is read into the string. -/
theorem lex_escapeChar (c : Char) (text rest : List Char) :
    lex (.quoted text) (escapeChar c ++ rest) = lex (.quoted (text ++ [c])) rest := by
  unfold escapeChar
  split_ifs with hquote hbackslash hn hr ht hf hb hplain hunit
  · rw [hquote]
    rfl
  · rw [hbackslash]
    rfl
  · rw [hn]
    rfl
  · rw [hr]
    rfl
  · rw [ht]
    rfl
  · rw [hf]
    rfl
  · rw [hb]
    rfl
  · have hcontrol : ¬ c.toNat < 0x20 := by omega
    simp [lex, Mode.inString, hquote, hbackslash, hcontrol]
  · have hlex : lex (.quoted text) ('\\' :: 'u' :: unit4 c.toNat ++ rest) =
        lex (.unit text none []) (unit4 c.toNat ++ rest) := rfl
    rw [hlex, lex_unit4 hunit, afterUnit_char]
  · have hvalid := toNat_valid c
    have hvalue := surrogates_value (show 0x10000 ≤ c.toNat by omega)
    rw [lex_pair (by rw [isHighSurrogate_iff]; omega) (by rw [isLowSurrogate_iff]; omega), hvalue,
      Char.ofNat_toNat]

/-- The text that is still to come is read into the string. -/
theorem lex_flatMap_escapeChar (text more rest : List Char) :
    lex (.quoted text) (more.flatMap escapeChar ++ '"' :: rest) =
      (lex .plain rest).map (.str (text ++ more) :: ·) := by
  induction more generalizing text with
  | nil =>
      rw [List.append_nil]
      rfl
  | cons c more ih =>
      rw [List.flatMap_cons, List.append_assoc, lex_escapeChar, ih, List.append_assoc]
      rfl

/-- A written string is lexed as that string. -/
theorem lex_quote (text rest : List Char) :
    lex .plain (quote text ++ rest) = (lex .plain rest).map (.str text :: ·) := by
  have hquote : quote text ++ rest = '"' :: (text.flatMap escapeChar ++ '"' :: rest) := by
    simp [quote]
  rw [hquote]
  exact lex_flatMap_escapeChar [] text rest

/-! ## Literals -/

/-- Whether a character ends a literal. -/
def isDelimiter (c : Char) : Bool := isSpace c || c = '"' || (punctuation c).isSome

/-- A text before which a literal ends. -/
def Delimited (rest : List Char) : Prop := ∀ c ∈ rest.head?, isDelimiter c = true

theorem delimited_nil : Delimited [] := by
  intro c hc
  cases hc

theorem delimited_cons {c : Char} (h : isDelimiter c = true) (rest : List Char) :
    Delimited (c :: rest) := by
  intro d hd
  rw [List.head?_cons, Option.mem_some_iff] at hd
  rwa [← hd]

theorem not_delimiter {c : Char} (h : isDelimiter c = false) :
    isSpace c = false ∧ c ≠ '"' ∧ punctuation c = none := by
  simp only [isDelimiter, Bool.or_eq_false_iff, decide_eq_false_iff_not,
    Option.isSome_eq_false_iff, Option.isNone_iff_eq_none] at h
  exact ⟨h.1.1, h.1.2, h.2⟩

/-- What comes after a literal does not change it. -/
theorem lex_word_of_delimited {text rest : List Char} (h : Delimited rest) :
    lex (.word text) rest = (lex .plain rest).map (.word text :: ·) := by
  cases rest with
  | nil => rfl
  | cons c rest =>
      have hc : isDelimiter c = true := h c rfl
      simp only [lex]
      by_cases hspace : isSpace c = true
      · rw [if_pos hspace, if_pos hspace]
      · by_cases hquote : c = '"'
        · rw [if_neg hspace, if_pos hquote, if_neg hspace, if_pos hquote]
        · simp only [isDelimiter, hspace, hquote, Bool.false_or, decide_false] at hc
          rcases Option.isSome_iff_exists.mp hc with ⟨token, htoken⟩
          rw [if_neg hspace, if_neg hquote, if_neg hspace, if_neg hquote, htoken]
          simp [Option.map_map, Function.comp_def]

theorem lex_word_append {text more rest : List Char} (hmore : ∀ c ∈ more, isDelimiter c = false)
    (hrest : Delimited rest) :
    lex (.word text) (more ++ rest) = (lex .plain rest).map (.word (text ++ more) :: ·) := by
  induction more generalizing text with
  | nil =>
      rw [List.append_nil]
      exact lex_word_of_delimited hrest
  | cons c more ih =>
      rcases not_delimiter (hmore c List.mem_cons_self) with ⟨hspace, hquote, hpunctuation⟩
      simp only [List.cons_append, lex, hspace, hquote, hpunctuation, Bool.false_eq_true, if_false]
      rw [ih fun d hd => hmore d (List.mem_cons_of_mem c hd), List.append_assoc]
      rfl

/-- A literal is lexed as one word. -/
theorem lex_word {word rest : List Char} (hne : word ≠ [])
    (hword : ∀ c ∈ word, isDelimiter c = false) (hrest : Delimited rest) :
    lex .plain (word ++ rest) = (lex .plain rest).map (.word word :: ·) := by
  cases word with
  | nil => exact absurd rfl hne
  | cons c word =>
      rcases not_delimiter (hword c List.mem_cons_self) with ⟨hspace, hquote, hpunctuation⟩
      simp only [List.cons_append, lex, hspace, hquote, hpunctuation, Bool.false_eq_true, if_false]
      exact lex_word_append (fun d hd => hword d (List.mem_cons_of_mem c hd)) hrest

/-- White space before a token is skipped. -/
theorem lex_spaces {spaces : List Char} (h : ∀ c ∈ spaces, isSpace c = true) (rest : List Char) :
    lex .plain (spaces ++ rest) = lex .plain rest := by
  induction spaces with
  | nil => rfl
  | cons c spaces ih =>
      simp only [List.cons_append, lex, h c List.mem_cons_self, if_true]
      exact ih fun d hd => h d (List.mem_cons_of_mem c hd)

end Json
