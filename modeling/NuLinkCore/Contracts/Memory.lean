import NuLinkCore.Contracts.Words

/-!
# Memory of a contract

Memory is addressed by bytes and is never freed: a byte string is allocated behind everything
that was allocated before, as its length and its bytes, and everything behind it is free.

Main results:

- Theorem {lit}`Memory.newBytes_extends`: allocation keeps what is allocated.
- Theorem {lit}`Memory.Holds.of_extends`: byte strings are kept by whatever writes to free
  memory only.
-/

namespace NuLink

open Evm Cells

/-- The bytes, and the pointer to the free memory. -/
structure Memory where
  bytes : Nat → UInt8
  free : Nat

namespace Memory

/-- {lit}`mload`. -/
def loadWord (memory : Memory) (pointer : Nat) : Nat := bigEndian (load memory.bytes pointer 32)

/-- {lit}`mstore`. -/
def storeWord (memory : Memory) (pointer word : Nat) : Memory :=
  { memory with bytes := store memory.bytes pointer (wordBytes word) }

/-- The bytes that a byte string takes up, in whole words. -/
def padded (length : Nat) : Nat := (length + 31) / 32 * 32

/-- {lit}`new bytes(length)`: the length and zeros. -/
def newBytes (memory : Memory) (length : Nat) : Nat × Memory :=
  (memory.free,
    { bytes := store memory.bytes memory.free
        (wordBytes length ++ List.replicate (padded length) 0)
      free := memory.free + 32 + padded length })

/-- The byte string that a reference refers to. -/
def bytesAt (memory : Memory) (reference : Nat) : Bytes :=
  load memory.bytes (reference + 32) (memory.loadWord reference)

theorem le_padded (length : Nat) : length ≤ padded length := by
  rw [padded]
  omega

/-! ## Free memory -/

/-- Nothing was written but free memory. -/
structure Extends (memory memory' : Memory) : Prop where
  free_le : memory.free ≤ memory'.free
  bytes_eq : ∀ a < memory.free, memory'.bytes a = memory.bytes a

variable {memory memory' memory'' : Memory}

theorem Extends.refl (memory : Memory) : memory.Extends memory := ⟨le_rfl, fun _ _ => rfl⟩

theorem Extends.trans (h : memory.Extends memory') (h' : memory'.Extends memory'') :
    memory.Extends memory'' where
  free_le := h.free_le.trans h'.free_le
  bytes_eq a ha := (h'.bytes_eq a (ha.trans_le h.free_le)).trans (h.bytes_eq a ha)

/-- What is allocated is loaded as before. -/
theorem Extends.load_eq (h : memory.Extends memory') {p n : Nat} (hp : p + n ≤ memory.free) :
    load memory'.bytes p n = load memory.bytes p n := by
  apply load_congr
  intro i hi
  exact h.bytes_eq _ (by omega)

theorem Extends.loadWord_eq (h : memory.Extends memory') {p : Nat} (hp : p + 32 ≤ memory.free) :
    memory'.loadWord p = memory.loadWord p := by
  rw [loadWord, h.load_eq hp, loadWord]

theorem newBytes_extends (memory : Memory) (length : Nat) :
    memory.Extends (memory.newBytes length).2 where
  free_le := by
    simp only [newBytes]
    omega
  bytes_eq _ ha := store_of_lt ha

/-- The length of an allocated string is written in front of it. -/
theorem newBytes_loadWord {length : Nat} (h : length < 2 ^ 256) :
    (memory.newBytes length).2.loadWord memory.free = length := by
  have hload : load (memory.newBytes length).2.bytes memory.free 32 = wordBytes length := by
    rw [load_eq_iff]
    refine ⟨length_wordBytes length, ?_⟩
    intro i hi
    have hword : i < (wordBytes length).length := by rwa [length_wordBytes]
    simp only [newBytes]
    rw [store_at (by rw [List.length_append]; omega), List.getElem_append_left hword]
  rw [loadWord, hload, bigEndian_wordBytes h]

/-! ## Byte strings -/

/-- A reference refers to a byte string that is allocated. -/
structure Holds (memory : Memory) (reference : Nat) (data : Bytes) : Prop where
  loadWord_eq : memory.loadWord reference = data.length
  load_all : load memory.bytes (reference + 32) data.length = data
  allocated : reference + 32 + data.length ≤ memory.free

namespace Holds

variable {reference : Nat} {data : Bytes}

theorem bytesAt_eq (h : memory.Holds reference data) : memory.bytesAt reference = data := by
  rw [bytesAt, h.loadWord_eq, h.load_all]

theorem length_lt (h : memory.Holds reference data) : data.length < 2 ^ 256 := by
  have hlt := bigEndian_lt (load memory.bytes reference 32)
  rw [length_load] at hlt
  calc data.length = memory.loadWord reference := h.loadWord_eq.symm
    _ < 256 ^ 32 := hlt
    _ = 2 ^ 256 := by norm_num

/-- Byte strings are kept by whatever writes to free memory only. -/
theorem of_extends (h : memory.Holds reference data) (hext : memory.Extends memory') :
    memory'.Holds reference data where
  loadWord_eq := by
    have hallocated := h.allocated
    rw [hext.loadWord_eq (by omega), h.loadWord_eq]
  load_all := by rw [hext.load_eq h.allocated, h.load_all]
  allocated := h.allocated.trans hext.free_le

/-- A load inside of the byte string. -/
theorem load_eq (h : memory.Holds reference data) {k n : Nat} (hk : k + n ≤ data.length) :
    load memory.bytes (reference + 32 + k) n = load (cells data) k n := by
  rw [load_cells hk, ← take_drop_load memory.bytes (reference + 32) hk, h.load_all]

theorem loadWord_inside (h : memory.Holds reference data) {k : Nat} (hk : k + 32 ≤ data.length) :
    memory.loadWord (reference + 32 + k) = mload data k := by
  rw [loadWord, h.load_eq hk, mload_eq_load]

end Holds

/-- A byte string that was allocated is made of zeros. -/
theorem newBytes_holds {length : Nat} (h : length < 2 ^ 256) :
    (memory.newBytes length).2.Holds memory.free (List.replicate length 0) where
  loadWord_eq := by rw [newBytes_loadWord h, List.length_replicate]
  load_all := by
    rw [List.length_replicate, load_eq_iff]
    refine ⟨List.length_replicate, ?_⟩
    intro i hi
    have hpadded := le_padded length
    have hword : (wordBytes length).length ≤ 32 + i := by
      rw [length_wordBytes]
      omega
    have hinside : 32 + i < (wordBytes length ++ List.replicate (padded length) 0).length := by
      rw [List.length_append, length_wordBytes, List.length_replicate]
      omega
    simp only [newBytes]
    rw [Nat.add_assoc, store_at hinside, List.getElem_append_right hword, List.getElem_replicate,
      List.getElem_replicate]
  allocated := by
    have hpadded := le_padded length
    simp only [newBytes, List.length_replicate]
    omega

end Memory

end NuLink
