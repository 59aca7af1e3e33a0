import NuLinkCore.Contracts.Evm
import NuLinkCore.Lib.Cells

/-!
# Words as byte strings

A word of the machine is read from 32 bytes, the most significant first, and is written as
32 bytes again.  A load inside of a byte string reads the bytes at the offset and nothing else.

Main results:

- Theorems {lit}`Evm.wordBytes_bigEndian` and {lit}`Evm.bigEndian_wordBytes`: writing a word
  gives back the bytes it was read from, and reading it gives back the word.
- Theorem {lit}`Evm.mload_eq_load`: a word is loaded from the cells of a byte string.
-/

namespace NuLink
namespace Evm

/-! ## Big-endian values -/

theorem foldl_bigEndian (value : Nat) (bytes : Bytes) :
    bytes.foldl (fun value byte => value * 256 + byte.toNat) value =
      value * 256 ^ bytes.length + bigEndian bytes := by
  induction bytes generalizing value with
  | nil => simp [bigEndian]
  | cons byte bytes ih =>
      rw [bigEndian, List.foldl_cons, List.foldl_cons, ih, ih (0 * 256 + byte.toNat),
        List.length_cons, pow_succ]
      ring

theorem bigEndian_append (front back : Bytes) :
    bigEndian (front ++ back) = bigEndian front * 256 ^ back.length + bigEndian back := by
  rw [bigEndian, List.foldl_append, foldl_bigEndian]
  rfl

theorem bigEndian_singleton (byte : UInt8) : bigEndian [byte] = byte.toNat := by
  simp [bigEndian]

theorem bigEndian_cons (byte : UInt8) (bytes : Bytes) :
    bigEndian (byte :: bytes) = byte.toNat * 256 ^ bytes.length + bigEndian bytes := by
  rw [← List.singleton_append, bigEndian_append, bigEndian_singleton]

theorem bigEndian_lt (bytes : Bytes) : bigEndian bytes < 256 ^ bytes.length := by
  induction bytes with
  | nil => simp [bigEndian]
  | cons byte bytes ih =>
      have hbyte : byte.toNat < 256 := byte.toNat_lt
      rw [bigEndian_cons, List.length_cons, pow_succ]
      calc byte.toNat * 256 ^ bytes.length + bigEndian bytes
          < byte.toNat * 256 ^ bytes.length + 256 ^ bytes.length := Nat.add_lt_add_left ih _
        _ = (byte.toNat + 1) * 256 ^ bytes.length := by ring
        _ ≤ 256 * 256 ^ bytes.length := Nat.mul_le_mul_right _ hbyte
        _ = 256 ^ bytes.length * 256 := Nat.mul_comm _ _

/-- Dividing takes bytes off the end. -/
theorem bigEndian_append_div (front back : Bytes) :
    bigEndian (front ++ back) / 256 ^ back.length = bigEndian front := by
  have hpos : 0 < 256 ^ back.length := Nat.pow_pos (by decide)
  rw [bigEndian_append, Nat.add_comm, Nat.add_mul_div_right _ _ hpos,
    Nat.div_eq_of_lt (bigEndian_lt back), Nat.zero_add]

/-- The last byte of a value. -/
theorem ofNat_bigEndian_append_singleton (front : Bytes) (byte : UInt8) :
    UInt8.ofNat (bigEndian (front ++ [byte])) = byte := by
  have hbyte : byte.toNat < 256 := byte.toNat_lt
  rw [bigEndian_append, bigEndian_singleton, List.length_singleton, pow_one, ← UInt8.toNat_inj,
    UInt8.toNat_ofNat']
  omega

/-! ## Words -/

theorem length_wordBytes (word : Nat) : (wordBytes word).length = 32 := by
  simp [wordBytes]

/-- Writing a word gives back the bytes it was read from. -/
theorem wordBytes_bigEndian {bytes : Bytes} (h : bytes.length = 32) :
    wordBytes (bigEndian bytes) = bytes := by
  apply List.ext_getElem
  · rw [length_wordBytes, h]
  · intro i _ hi
    have hsplit : bytes = (bytes.take i ++ [bytes[i]]) ++ bytes.drop (i + 1) := by
      rw [List.append_assoc, List.singleton_append, List.getElem_cons_drop, List.take_append_drop]
    have hlength : (bytes.drop (i + 1)).length = 31 - i := by
      rw [List.length_drop, h]
      omega
    have hdiv : bigEndian bytes / 256 ^ (31 - i) = bigEndian (bytes.take i ++ [bytes[i]]) := by
      rw [← hlength]
      nth_rewrite 1 [hsplit]
      rw [bigEndian_append_div]
    simp only [wordBytes, List.getElem_map, List.getElem_range, hdiv,
      ofNat_bigEndian_append_singleton]

theorem bigEndian_replicate_append (n : Nat) (bytes : Bytes) :
    bigEndian (List.replicate n 0 ++ bytes) = bigEndian bytes := by
  induction n with
  | zero => rfl
  | succ n ih =>
      rw [List.replicate_succ, List.cons_append, bigEndian_cons, ih]
      simp

/-- Fewer bytes are the last ones of the word. -/
theorem wordBytes_bigEndian_of_le {bytes : Bytes} (h : bytes.length ≤ 32) :
    wordBytes (bigEndian bytes) = List.replicate (32 - bytes.length) 0 ++ bytes := by
  rw [← bigEndian_replicate_append (32 - bytes.length), wordBytes_bigEndian]
  rw [List.length_append, List.length_replicate]
  omega

theorem bigEndian_digits (word n : Nat) :
    bigEndian ((List.range n).map fun i => UInt8.ofNat (word / 256 ^ (n - 1 - i))) =
      word % 256 ^ n := by
  induction n generalizing word with
  | zero => simp [bigEndian, Nat.mod_one]
  | succ n ih =>
      have hfront : (List.range n).map (fun i => UInt8.ofNat (word / 256 ^ (n + 1 - 1 - i))) =
          (List.range n).map fun i => UInt8.ofNat (word / 256 / 256 ^ (n - 1 - i)) := by
        apply List.map_congr_left
        intro i hi
        have hexponent : n + 1 - 1 - i = n - 1 - i + 1 := by
          have hlt := List.mem_range.mp hi
          omega
        rw [hexponent, pow_succ', Nat.div_div_eq_div_mul]
      have hlast : word / 256 ^ (n + 1 - 1 - n) = word := by simp
      have hmod : word % 256 ^ (n + 1) = word % 256 + 256 * (word / 256 % 256 ^ n) := by
        rw [pow_succ', Nat.mod_mul]
      rw [List.range_succ, List.map_append, hfront, bigEndian_append, ih, List.map_singleton,
        List.length_singleton, hlast, bigEndian_singleton, UInt8.toNat_ofNat', hmod, pow_one]
      omega

/-- Reading a word gives back what was written. -/
theorem bigEndian_wordBytes {word : Nat} (h : word < 2 ^ 256) :
    bigEndian (wordBytes word) = word := by
  have hpow : (2 : Nat) ^ 256 = 256 ^ 32 := by norm_num
  have hdigits := bigEndian_digits word 32
  rwa [Nat.mod_eq_of_lt (hpow ▸ h)] at hdigits

/-! ## Loads -/

open Cells

/-- A byte string as a memory, with zeros behind it. -/
def cells (memory : Bytes) (address : Nat) : UInt8 := memory.getD address 0

theorem mload_eq_load (memory : Bytes) (pointer : Nat) :
    mload memory pointer = bigEndian (load (cells memory) pointer 32) := by
  have hload : load (cells memory) pointer 32 =
      (memory.drop pointer ++ List.replicate 32 0).take 32 := by
    rw [load_eq_iff]
    refine ⟨by simp, ?_⟩
    intro i hi
    by_cases hinside : pointer + i < memory.length
    · rw [List.getElem_take, List.getElem_append_left (by rw [List.length_drop]; omega),
        List.getElem_drop, cells, List.getElem_eq_getD 0]
    · rw [List.getElem_take, List.getElem_append_right (by rw [List.length_drop]; omega),
        List.getElem_replicate, cells, List.getD_eq_getElem?_getD,
        List.getElem?_eq_none (Nat.not_lt.mp hinside), Option.getD_none]
  rw [mload, hload]

/-- A load inside of a byte string. -/
theorem load_cells {memory : Bytes} {pointer n : Nat} (h : pointer + n ≤ memory.length) :
    load (cells memory) pointer n = (memory.drop pointer).take n := by
  rw [load_eq_iff]
  refine ⟨by rw [List.length_take, List.length_drop]; omega, ?_⟩
  intro i hi
  rw [List.getElem_take, List.getElem_drop, cells, List.getElem_eq_getD 0]

theorem wordBytes_bigEndian_load (m : Nat → UInt8) (pointer : Nat) :
    wordBytes (bigEndian (load m pointer 32)) = load m pointer 32 :=
  wordBytes_bigEndian (length_load m pointer 32)

/-- The first byte of a word that was loaded. -/
theorem firstByte_bigEndian_load (m : Nat → UInt8) (pointer : Nat) :
    firstByte (bigEndian (load m pointer 32)) = (m pointer).toNat := by
  have hload : load m pointer 32 = [m pointer] ++ load m (pointer + 1) 31 := load_add m pointer 1 31
  have hpow : (2 : Nat) ^ 248 = 256 ^ (load m (pointer + 1) 31).length := by
    rw [length_load]
    norm_num
  rw [firstByte, hload, hpow, bigEndian_append_div, bigEndian_singleton]

theorem mload_eq {memory : Bytes} {pointer : Nat} (h : pointer + 32 ≤ memory.length) :
    mload memory pointer = bigEndian ((memory.drop pointer).take 32) := by
  rw [mload_eq_load, load_cells h]

theorem firstByte_mload {memory : Bytes} {pointer : Nat} (h : pointer < memory.length) :
    firstByte (mload memory pointer) = memory[pointer].toNat := by
  rw [mload_eq_load, firstByte_bigEndian_load, cells, List.getElem_eq_getD 0]

end Evm

end NuLink
