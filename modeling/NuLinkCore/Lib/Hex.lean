import Mathlib.Data.List.Basic
import Mathlib.Tactic

/-!
# Hexadecimal text

Bytes are written with two lowercase digits each.  The reader is that of Python's
{lit}`bytes.fromhex`: it takes digits of either case and skips white space between bytes.

Main results:

- Theorem {lit}`Hex.decode_encode`: reading inverts writing.
- Theorem {lit}`Hex.isDigit_of_mem_encode`: what is written consists of digits.
-/

namespace Hex

def digits : List Char :=
  ['0', '1', '2', '3', '4', '5', '6', '7', '8', '9', 'a', 'b', 'c', 'd', 'e', 'f']

/-- The digit of a number below sixteen. -/
def digit (n : Nat) : Char := digits.getD n '0'

/-- The number that a digit of either case stands for. -/
def value? (c : Char) : Option Nat :=
  if '0' ≤ c ∧ c ≤ '9' then some (c.toNat - '0'.toNat)
  else if 'a' ≤ c ∧ c ≤ 'f' then some (c.toNat - 'a'.toNat + 10)
  else if 'A' ≤ c ∧ c ≤ 'F' then some (c.toNat - 'A'.toNat + 10)
  else none

/-- Whether a character is in {lit}`string.hexdigits`. -/
def isDigit (c : Char) : Bool := (value? c).isSome

theorem value?_digit : ∀ n < 16, value? (digit n) = some n := by
  decide

/-- Two digits for each byte, as {lit}`bytes.hex` writes them. -/
def encode (bytes : List UInt8) : List Char :=
  bytes.flatMap fun byte => [digit (byte.toNat / 16), digit (byte.toNat % 16)]

def isSpace (c : Char) : Bool := c = ' ' || (9 ≤ c.toNat && c.toNat ≤ 13)

/-- {lit}`bytes.fromhex`. -/
def decode : List Char → Option (List UInt8)
  | [] => some []
  | [c] => if isSpace c then some [] else none
  | high :: low :: rest =>
      if isSpace high then decode (low :: rest)
      else
        match value? high, value? low, decode rest with
        | some h, some l, some bytes => some (UInt8.ofNat (h * 16 + l) :: bytes)
        | _, _, _ => none

theorem encode_cons (byte : UInt8) (bytes : List UInt8) :
    encode (byte :: bytes) = digit (byte.toNat / 16) :: digit (byte.toNat % 16) :: encode bytes :=
  rfl

@[simp]
theorem length_encode (bytes : List UInt8) : (encode bytes).length = 2 * bytes.length := by
  induction bytes with
  | nil => rfl
  | cons byte bytes ih =>
      rw [encode_cons]
      simp only [List.length_cons, ih]
      omega

theorem isSpace_digit : ∀ n < 16, isSpace (digit n) = false := by
  decide

/-- Reading inverts writing. -/
@[simp]
theorem decode_encode (bytes : List UInt8) : decode (encode bytes) = some bytes := by
  induction bytes with
  | nil => rfl
  | cons byte bytes ih =>
      have hlt : byte.toNat < 256 := byte.toNat_lt
      have hsum : byte.toNat / 16 * 16 + byte.toNat % 16 = byte.toNat := by omega
      rw [encode_cons, decode, isSpace_digit _ (by omega), value?_digit _ (by omega),
        value?_digit _ (by omega), ih]
      simp [hsum]

/-- What is written consists of digits. -/
theorem isDigit_of_mem_encode {bytes : List UInt8} {c : Char} (h : c ∈ encode bytes) :
    isDigit c = true := by
  rcases List.mem_flatMap.mp h with ⟨byte, -, hc⟩
  have hlt : byte.toNat < 256 := byte.toNat_lt
  rcases List.mem_cons.mp hc with rfl | hlow
  · rw [isDigit, value?_digit _ (by omega)]
    rfl
  · rw [List.mem_singleton] at hlow
    rw [hlow, isDigit, value?_digit _ (by omega)]
    rfl

end Hex
