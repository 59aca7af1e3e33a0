import Mathlib.Data.List.Basic
import Mathlib.Tactic

/-!
# Base64 text

Bytes are written in groups of three as four digits, with padding at the end.  The reader
is that of Python's {lit}`base64.b64decode`: it skips characters that are no digits, counts
the padding of a group that is not complete and stops behind it.

Main results:

- Theorem {lit}`Base64.decode_encode`: reading inverts writing.
- Theorem {lit}`Base64.decodeUrlsafe_encodeUrlsafe`: so it does with the digits that are safe in
  URLs.
-/

namespace Base64

def alphabet : List Char :=
  ['A', 'B', 'C', 'D', 'E', 'F', 'G', 'H', 'I', 'J', 'K', 'L', 'M', 'N', 'O', 'P',
    'Q', 'R', 'S', 'T', 'U', 'V', 'W', 'X', 'Y', 'Z', 'a', 'b', 'c', 'd', 'e', 'f',
    'g', 'h', 'i', 'j', 'k', 'l', 'm', 'n', 'o', 'p', 'q', 'r', 's', 't', 'u', 'v',
    'w', 'x', 'y', 'z', '0', '1', '2', '3', '4', '5', '6', '7', '8', '9', '+', '/']

/-- The digit of a number below 64. -/
def digit (n : Nat) : Char := alphabet.getD n 'A'

/-- The number that a digit stands for. -/
def value? (c : Char) : Option Nat := alphabet.findIdx? (· = c)

/-! ## Writing -/

/-- {lit}`base64.b64encode`. -/
def encode : List UInt8 → List Char
  | a :: b :: c :: rest =>
      digit (a.toNat / 4) :: digit (a.toNat % 4 * 16 + b.toNat / 16) ::
        digit (b.toNat % 16 * 4 + c.toNat / 64) :: digit (c.toNat % 64) :: encode rest
  | [a, b] =>
      [digit (a.toNat / 4), digit (a.toNat % 4 * 16 + b.toNat / 16), digit (b.toNat % 16 * 4), '=']
  | [a] => [digit (a.toNat / 4), digit (a.toNat % 4 * 16), '=', '=']
  | [] => []

/-! ## Reading -/

/-- Where the reader is in a group of four digits: how many it has read, the bits that are left
of them, and how much padding came after them. -/
structure Group where
  position : Nat
  left : Nat
  pads : Nat

def Group.start : Group := ⟨0, 0, 0⟩

/-- One digit: the byte that it completes, and where the reader is after it. -/
def Group.step (group : Group) (n : Nat) : Option UInt8 × Group :=
  match group.position with
  | 0 => (none, ⟨1, n, 0⟩)
  | 1 => (some (UInt8.ofNat (group.left * 4 + n / 16)), ⟨2, n % 16, 0⟩)
  | 2 => (some (UInt8.ofNat (group.left * 16 + n / 4)), ⟨3, n % 4, 0⟩)
  | _ => (some (UInt8.ofNat (group.left * 64 + n)), Group.start)

/-- The bytes of a text, or {lit}`none` where {lit}`binascii.Error` is raised. -/
def decodeFrom (group : Group) : List Char → Option (List UInt8)
  | [] => if group.position = 0 then some [] else none
  | c :: cs =>
      if c = '=' then
        if 2 ≤ group.position then
          if 4 ≤ group.position + (group.pads + 1) then some []
          else decodeFrom { group with pads := group.pads + 1 } cs
        else decodeFrom group cs
      else
        match value? c with
        | none => decodeFrom group cs
        | some n => (decodeFrom (group.step n).2 cs).map ((group.step n).1.toList ++ ·)

/-- {lit}`base64.b64decode`. -/
def decode (text : List Char) : Option (List UInt8) := decodeFrom Group.start text

/-! ## Reading inverts writing -/

theorem value?_digit : ∀ n < 64, value? (digit n) = some n := by
  decide +kernel

theorem digit_ne_pad : ∀ n < 64, digit n ≠ '=' := by
  decide

theorem decodeFrom_digit {n : Nat} (h : n < 64) (group : Group) (cs : List Char) :
    decodeFrom group (digit n :: cs) =
      (decodeFrom (group.step n).2 cs).map ((group.step n).1.toList ++ ·) := by
  rw [decodeFrom, if_neg (digit_ne_pad n h), value?_digit n h]

/-- Four digits are read as the three bytes they were written for. -/
theorem decode_group (a b c : UInt8) (cs : List Char) :
    decode (digit (a.toNat / 4) :: digit (a.toNat % 4 * 16 + b.toNat / 16) ::
        digit (b.toNat % 16 * 4 + c.toNat / 64) :: digit (c.toNat % 64) :: cs) =
      (decode cs).map ([a, b, c] ++ ·) := by
  have ha : a.toNat < 256 := a.toNat_lt
  have hb : b.toNat < 256 := b.toNat_lt
  have hc : c.toNat < 256 := c.toNat_lt
  have hfirst : a.toNat / 4 * 4 + (a.toNat % 4 * 16 + b.toNat / 16) / 16 = a.toNat := by omega
  have hsecond : (a.toNat % 4 * 16 + b.toNat / 16) % 16 * 16 +
      (b.toNat % 16 * 4 + c.toNat / 64) / 4 = b.toNat := by omega
  have hthird : (b.toNat % 16 * 4 + c.toNat / 64) % 4 * 64 + c.toNat % 64 = c.toNat := by omega
  rw [decode, decodeFrom_digit (by omega), decodeFrom_digit (by omega),
    decodeFrom_digit (by omega), decodeFrom_digit (by omega)]
  simp only [Group.step, Group.start, hfirst, hsecond, hthird, UInt8.ofNat_toNat, Option.map_map]
  rfl

/-- Reading inverts writing. -/
@[simp]
theorem decode_encode (bytes : List UInt8) : decode (encode bytes) = some bytes := by
  fun_induction encode bytes with
  | case1 a b c rest ih =>
      rw [decode_group, ih]
      rfl
  | case2 a b =>
      have hb : b.toNat < 256 := b.toNat_lt
      have ha : a.toNat < 256 := a.toNat_lt
      have hfirst : a.toNat / 4 * 4 + (a.toNat % 4 * 16 + b.toNat / 16) / 16 = a.toNat := by omega
      have hsecond : (a.toNat % 4 * 16 + b.toNat / 16) % 16 * 16 + b.toNat % 16 * 4 / 4 =
          b.toNat := by omega
      rw [decode, decodeFrom_digit (by omega), decodeFrom_digit (by omega),
        decodeFrom_digit (by omega)]
      simp only [Group.step, Group.start, hfirst, hsecond, UInt8.ofNat_toNat]
      rfl
  | case3 a =>
      have ha : a.toNat < 256 := a.toNat_lt
      have hfirst : a.toNat / 4 * 4 + a.toNat % 4 * 16 / 16 = a.toNat := by omega
      rw [decode, decodeFrom_digit (by omega), decodeFrom_digit (by omega)]
      simp only [Group.step, Group.start, hfirst, UInt8.ofNat_toNat]
      rfl
  | case4 => rfl

/-! ## Digits that are safe in URLs -/

/-- {lit}`base64.urlsafe_b64encode`. -/
def encodeUrlsafe (bytes : List UInt8) : List Char :=
  (encode bytes).map fun c => if c = '+' then '-' else if c = '/' then '_' else c

/-- {lit}`base64.urlsafe_b64decode`. -/
def decodeUrlsafe (text : List Char) : Option (List UInt8) :=
  decode (text.map fun c => if c = '-' then '+' else if c = '_' then '/' else c)

theorem digit_mem (n : Nat) : digit n ∈ alphabet := by
  rw [digit, List.getD_eq_getElem?_getD]
  cases hdigit : alphabet[n]? with
  | none => exact List.mem_cons_self
  | some c => exact List.mem_of_getElem? hdigit

/-- What is written consists of digits and padding. -/
theorem mem_encode {bytes : List UInt8} {c : Char} (h : c ∈ encode bytes) :
    c ∈ '=' :: alphabet := by
  fun_induction encode bytes with
  | case1 a b d rest ih =>
      simp only [List.mem_cons] at h
      rcases h with rfl | rfl | rfl | rfl | hrest
      · exact List.mem_cons_of_mem _ (digit_mem _)
      · exact List.mem_cons_of_mem _ (digit_mem _)
      · exact List.mem_cons_of_mem _ (digit_mem _)
      · exact List.mem_cons_of_mem _ (digit_mem _)
      · exact ih hrest
  | case2 a b =>
      simp only [List.mem_cons, List.not_mem_nil, or_false] at h
      rcases h with rfl | rfl | rfl | rfl
      · exact List.mem_cons_of_mem _ (digit_mem _)
      · exact List.mem_cons_of_mem _ (digit_mem _)
      · exact List.mem_cons_of_mem _ (digit_mem _)
      · exact List.mem_cons_self
  | case3 a =>
      simp only [List.mem_cons, List.not_mem_nil, or_false] at h
      rcases h with rfl | rfl | rfl | rfl
      · exact List.mem_cons_of_mem _ (digit_mem _)
      · exact List.mem_cons_of_mem _ (digit_mem _)
      · exact List.mem_cons_self
      · exact List.mem_cons_self
  | case4 => cases h

@[simp]
theorem decodeUrlsafe_encodeUrlsafe (bytes : List UInt8) :
    decodeUrlsafe (encodeUrlsafe bytes) = some bytes := by
  have hback : ('=' :: alphabet).map
      ((fun c => if c = '-' then '+' else if c = '_' then '/' else c) ∘
        fun c => if c = '+' then '-' else if c = '/' then '_' else c) =
      ('=' :: alphabet).map id := by
    decide +kernel
  have hmap : (encodeUrlsafe bytes).map
      (fun c => if c = '-' then '+' else if c = '_' then '/' else c) = encode bytes := by
    rw [encodeUrlsafe, List.map_map,
      List.map_congr_left fun c hc => List.map_inj_left.mp hback c (mem_encode hc), List.map_id]
  rw [decodeUrlsafe, hmap, decode_encode]

end Base64
