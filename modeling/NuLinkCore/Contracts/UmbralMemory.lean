import NuLinkCore.Contracts.Memory
import NuLinkCore.Contracts.UmbralSerialization

/-!
# Deserialization in memory

Umbral objects are read from a byte string in the memory of a contract.  The signature and the
metadata of a fragment are byte strings of their own: each is allocated and copied in whole words
right away, so that what is written beyond it is free memory.

Main results:

- Theorem {lit}`copyBytes_newBytes`: a copy holds the bytes of the source, and only free memory
  is written.
- Theorems {lit}`toCapsule_refines`, {lit}`toCapsuleFrag_spec` and
  {lit}`toPreComputedData_refines`: what is read in memory are the fields of the byte string.
- Theorem {lit}`deserialization_exact`: which lengths are accepted, and that the fields in their
  order are the byte string.
-/

namespace NuLink
namespace UmbralMemory

open Evm Cells Memory Umbral

/-! ## Copying -/

/-- The loop of {lit}`copyBytes`. -/
def copyWords (memory : Memory) (source destination : Nat) : Nat → Memory
  | 0 => memory
  | i + 1 =>
      let copied := copyWords memory source destination i
      copied.storeWord (destination + i * 32) (copied.loadWord (source + i * 32))

/-- {lit}`copyBytes`: the word behind the target is cleared last. -/
def copyBytes (memory : Memory) (bytesPointer target bytesLength : Nat) : Nat × Memory :=
  let words := (bytesLength + 31) / 32
  let copied := copyWords memory bytesPointer (target + 32) words
  (bytesPointer + bytesLength, copied.storeWord (target + (32 + copied.loadWord target)) 0)

theorem copyWords_bytes (memory : Memory) (source destination n : Nat) :
    (copyWords memory source destination n).bytes =
      copyBlocks 32 memory.bytes source destination n := by
  induction n with
  | zero => rfl
  | succ n ih =>
      simp only [copyWords, copyBlocks, storeWord, loadWord, wordBytes_bigEndian_load, ih]

theorem copyWords_free (memory : Memory) (source destination n : Nat) :
    (copyWords memory source destination n).free = memory.free := by
  induction n with
  | zero => rfl
  | succ n ih => exact ih

/-- The length of the target is not overwritten. -/
theorem copyWords_loadWord (memory : Memory) (source target n : Nat) :
    (copyWords memory source (target + 32) n).loadWord target = memory.loadWord target := by
  rw [loadWord, loadWord, copyWords_bytes]
  congr 1
  apply load_congr
  intro i hi
  exact copyBlocks_frame (Or.inl (by omega))

variable {memory : Memory} {source target n : Nat}

theorem copyBytes_bytes (memory : Memory) (source target n : Nat) :
    (copyBytes memory source target n).2.bytes =
      store (copyBlocks 32 memory.bytes source (target + 32) ((n + 31) / 32))
        (target + (32 + memory.loadWord target)) (wordBytes 0) := by
  simp only [copyBytes, storeWord, copyWords_loadWord, copyWords_bytes]

theorem copyBytes_free (memory : Memory) (source target n : Nat) :
    (copyBytes memory source target n).2.free = memory.free := by
  simp only [copyBytes, storeWord, copyWords_free]

/-- Nothing is written in front of the bytes of the target. -/
theorem copyBytes_of_lt {a : Nat} (h : a < target + 32) :
    (copyBytes memory source target n).2.bytes a = memory.bytes a := by
  rw [copyBytes_bytes, store_of_lt (by omega), copyBlocks_frame (Or.inl h)]

/-- The bytes of a source in front of the target are copied. -/
theorem copyBytes_copied (htarget : memory.loadWord target = n)
    (hsource : source + n ≤ target + 32) {i : Nat} (hi : i < n) :
    (copyBytes memory source target n).2.bytes (target + 32 + i) = memory.bytes (source + i) := by
  rw [copyBytes_bytes, htarget, store_of_lt (by omega), copyBlocks_copied (by omega) (by omega)]

/-- What the last word exceeds the target by is cleared, and nothing is written behind that. -/
theorem copyBytes_of_le (htarget : memory.loadWord target = n) {i : Nat} (hi : n ≤ i) :
    (copyBytes memory source target n).2.bytes (target + 32 + i) =
      if i < n + 32 then 0 else memory.bytes (target + 32 + i) := by
  rcases Nat.exists_eq_add_of_le hi with ⟨j, rfl⟩
  rw [copyBytes_bytes, htarget]
  by_cases hj : j < 32
  · have hword : j < (wordBytes 0).length := by rwa [length_wordBytes]
    have hzero : wordBytes 0 = List.replicate 32 0 := by decide
    have haddress : target + 32 + (n + j) = target + (32 + n) + j := by omega
    rw [if_pos (by omega), haddress, store_at hword]
    simp only [hzero, List.getElem_replicate]
  · rw [if_neg (by omega), store_of_le (by rw [length_wordBytes]; omega),
      copyBlocks_frame (Or.inr (by omega))]

/-- A new byte string with a copy holds the bytes of the source, and only free memory is
written. -/
theorem copyBytes_newBytes (hsource : source + n ≤ memory.free) (hn : n < 2 ^ 256) :
    let copied := (copyBytes (memory.newBytes n).2 source memory.free n).2
    memory.Extends copied ∧ copied.Holds memory.free (load memory.bytes source n) := by
  intro copied
  have hlength : (memory.newBytes n).2.loadWord memory.free = n := newBytes_loadWord hn
  have hnew := newBytes_extends memory n
  have hfree : copied.free = memory.free + 32 + padded n := copyBytes_free _ _ _ _
  constructor
  · constructor
    · omega
    · intro a ha
      rw [copyBytes_of_lt (by omega), hnew.bytes_eq a ha]
  · constructor
    · rw [length_load, ← hlength]
      simp only [loadWord]
      congr 1
      apply load_congr
      intro i hi
      exact copyBytes_of_lt (by omega)
    · rw [length_load, load_eq_iff]
      refine ⟨length_load _ _ _, ?_⟩
      intro i hi
      rw [getElem_load, copyBytes_copied hlength (by omega) hi, hnew.bytes_eq _ (by omega)]
    · have hpadded := le_padded n
      rw [length_load]
      omega

/-! ## Reading -/

/-- {lit}`getPointer`. -/
def getPointer (bytes : Nat) : Nat := bytes + 32

/-- {lit}`copyPoint`: the point, and the pointer behind it. -/
def copyPoint (memory : Memory) (pointer : Nat) : Point × Nat :=
  (⟨firstByte (memory.loadWord pointer), memory.loadWord (pointer + 1)⟩, pointer + pointSize)

/-- The byte strings of a proof are references. -/
structure CorrectnessProofRef where
  pointE2 : Point
  pointV2 : Point
  pointKFragCommitment : Point
  pointKFragPok : Point
  bnSig : Nat
  kFragSignature : Nat
  metadata : Nat

structure CapsuleFragRef where
  pointE1 : Point
  pointV1 : Point
  kFragId : Nat
  pointPrecursor : Point
  proof : CorrectnessProofRef

/-- The proof with its byte strings. -/
def CorrectnessProofRef.read (proof : CorrectnessProofRef) (memory : Memory) :
    CorrectnessProof where
  pointE2 := proof.pointE2
  pointV2 := proof.pointV2
  pointKFragCommitment := proof.pointKFragCommitment
  pointKFragPok := proof.pointKFragPok
  bnSig := proof.bnSig
  kFragSignature := memory.bytesAt proof.kFragSignature
  metadata := memory.bytesAt proof.metadata

def CapsuleFragRef.read (cFrag : CapsuleFragRef) (memory : Memory) : CapsuleFrag where
  pointE1 := cFrag.pointE1
  pointV1 := cFrag.pointV1
  kFragId := cFrag.kFragId
  pointPrecursor := cFrag.pointPrecursor
  proof := cFrag.proof.read memory

/-- The reference of a byte string that was not assigned; a zero is there. -/
def zeroSlot : Nat := 0x60

/-- {lit}`toCapsule`. -/
def toCapsule (memory : Memory) (capsuleBytes : Nat) : Option Capsule := do
  require (memory.loadWord capsuleBytes = capsuleSize)
  let pointer := getPointer capsuleBytes
  let (pointE, pointer) := copyPoint memory pointer
  let (pointV, pointer) := copyPoint memory pointer
  return { pointE, pointV, bnSig := memory.loadWord pointer }

/-- {lit}`toCorrectnessProof`. -/
def toCorrectnessProof (memory : Memory) (pointer proofBytesLength : Nat) :
    Option (CorrectnessProofRef × Memory) := do
  require (correctnessProofSize ≤ proofBytesLength)
  let (pointE2, pointer) := copyPoint memory pointer
  let (pointV2, pointer) := copyPoint memory pointer
  let (pointKFragCommitment, pointer) := copyPoint memory pointer
  let (pointKFragPok, pointer) := copyPoint memory pointer
  let bnSig := memory.loadWord pointer
  let pointer := pointer + bignumSize
  let signature := memory.newBytes signatureSize
  let signed := copyBytes signature.2 pointer signature.1 signatureSize
  let proof : CorrectnessProofRef :=
    { pointE2, pointV2, pointKFragCommitment, pointKFragPok, bnSig,
      kFragSignature := signature.1
      metadata := zeroSlot }
  if correctnessProofSize < proofBytesLength then
    let metadata := signed.2.newBytes (proofBytesLength - correctnessProofSize)
    let copied := copyBytes metadata.2 signed.1 metadata.1 (metadata.2.loadWord metadata.1)
    return ({ proof with metadata := metadata.1 }, copied.2)
  else return (proof, signed.2)

/-- {lit}`toCapsuleFrag`. -/
def toCapsuleFrag (memory : Memory) (cFragBytes : Nat) : Option (CapsuleFragRef × Memory) := do
  let cFragBytesLength := memory.loadWord cFragBytes
  require (fullCapsuleFragSize ≤ cFragBytesLength)
  let pointer := getPointer cFragBytes
  let (pointE1, pointer) := copyPoint memory pointer
  let (pointV1, pointer) := copyPoint memory pointer
  let kFragId := memory.loadWord pointer
  let pointer := pointer + bignumSize
  let (pointPrecursor, pointer) := copyPoint memory pointer
  let (proof, memory) ← toCorrectnessProof memory pointer (cFragBytesLength - capsuleFragSize)
  return ({ pointE1, pointV1, kFragId, pointPrecursor, proof }, memory)

/-- {lit}`toPreComputedData`: each scalar is read at a pointer of its own. -/
def toPreComputedData (memory : Memory) (preComputedData : Nat) : Option PreComputedData := do
  require (memory.loadWord preComputedData = preComputedDataSize)
  let initialPointer := getPointer preComputedData
  let word (i : Nat) := memory.loadWord (initialPointer + i * bignumSize)
  let pointer := initialPointer + 20 * bignumSize
  let hashedKFragValidityMessage := memory.loadWord pointer
  let pointer := pointer + 32
  let alicesKeyAsAddress := memory.loadWord pointer / 2 ^ 96
  let pointer := pointer + 20
  let lostBytes := (wordBytes (memory.loadWord pointer)).take 5
  let pointer := pointer + 5
  require (pointer = initialPointer + preComputedDataSize)
  return {
    pointEyCoord := word 0
    pointEZxCoord := word 1
    pointEZyCoord := word 2
    pointE1yCoord := word 3
    pointE1HxCoord := word 4
    pointE1HyCoord := word 5
    pointE2yCoord := word 6
    pointVyCoord := word 7
    pointVZxCoord := word 8
    pointVZyCoord := word 9
    pointV1yCoord := word 10
    pointV1HxCoord := word 11
    pointV1HyCoord := word 12
    pointV2yCoord := word 13
    pointUZxCoord := word 14
    pointUZyCoord := word 15
    pointU1yCoord := word 16
    pointU1HxCoord := word 17
    pointU1HyCoord := word 18
    pointU2yCoord := word 19
    hashedKFragValidityMessage
    alicesKeyAsAddress
    lostBytes }

/-! ## The fields of the byte string -/

/-- The word of the zero slot is zero, and not free. -/
structure HasZeroSlot (memory : Memory) : Prop where
  loadWord_eq : memory.loadWord zeroSlot = 0
  allocated : zeroSlot + 32 ≤ memory.free

theorem HasZeroSlot.bytesAt_eq {memory' : Memory} (h : HasZeroSlot memory)
    (hext : memory.Extends memory') : memory'.bytesAt zeroSlot = [] := by
  rw [bytesAt, hext.loadWord_eq h.allocated, h.loadWord_eq]
  rfl

section Refinement

variable {reference : Nat} {data : Bytes} (h : memory.Holds reference data)

include h

theorem copyPoint_inside {k : Nat} (hk : k + pointSize ≤ data.length) :
    copyPoint memory (reference + 32 + k) =
      (Umbral.copyPoint data k, reference + 32 + (k + pointSize)) := by
  simp only [pointSize] at hk
  have hx : memory.loadWord (reference + 32 + k + 1) = mload data (k + 1) := by
    rw [Nat.add_assoc, h.loadWord_inside (by omega)]
  rw [copyPoint, Umbral.copyPoint, h.loadWord_inside (by omega), hx, Nat.add_assoc]

theorem toCapsule_refines : toCapsule memory reference = Umbral.toCapsule data := by
  by_cases hlength : data.length = capsuleSize
  · have hsizes : data.length = 98 := hlength
    have hE := copyPoint_inside h (k := 0) (by simp only [pointSize]; omega)
    have hV := copyPoint_inside h (k := pointSize) (by simp only [pointSize]; omega)
    have hbnSig := h.loadWord_inside (k := 2 * pointSize) (by simp only [pointSize]; omega)
    rw [Nat.add_zero, Nat.zero_add] at hE
    rw [← Nat.two_mul] at hV
    simp only [toCapsule, Umbral.toCapsule, h.loadWord_eq, hlength, getPointer, hE, hV, hbnSig,
      if_true]
    rfl
  · simp [toCapsule, Umbral.toCapsule, h.loadWord_eq, hlength, require]

/-- A copy of bytes of the string, in a memory where only free memory was written since. -/
theorem copyBytes_inside {memory₁ : Memory} (hext : memory.Extends memory₁) {k : Nat}
    (hk : k + n ≤ data.length) :
    let copied := (copyBytes (memory₁.newBytes n).2 (reference + 32 + k) memory₁.free n).2
    memory₁.Extends copied ∧ copied.Holds memory₁.free (Umbral.copyBytes data k n) := by
  have hallocated := (h.of_extends hext).allocated
  have hlength := h.length_lt
  have hsource : reference + 32 + k + n ≤ memory₁.free := by omega
  have hn : n < 2 ^ 256 := by omega
  have hcopy := copyBytes_newBytes hsource hn
  rwa [(h.of_extends hext).load_eq hk, ← copyBytes_eq_load] at hcopy

/-- The points and the scalar of a proof inside of the string, with a signature. -/
def proofRef (data : Bytes) (k kFragSignature metadata : Nat) : CorrectnessProofRef where
  pointE2 := Umbral.copyPoint data k
  pointV2 := Umbral.copyPoint data (k + pointSize)
  pointKFragCommitment := Umbral.copyPoint data (k + 2 * pointSize)
  pointKFragPok := Umbral.copyPoint data (k + 3 * pointSize)
  bnSig := mload data (k + 4 * pointSize)
  kFragSignature
  metadata

/-- Where the points of a proof are read. -/
theorem toCorrectnessProof_eq {k proofBytesLength : Nat}
    (hk : k + proofBytesLength ≤ data.length) (hsize : correctnessProofSize ≤ proofBytesLength) :
    let signature := k + 4 * pointSize + bignumSize
    let signed := (copyBytes (memory.newBytes signatureSize).2 (reference + 32 + signature)
      memory.free signatureSize).2
    let metadata := (signed.newBytes (proofBytesLength - correctnessProofSize)).2
    toCorrectnessProof memory (reference + 32 + k) proofBytesLength =
      if correctnessProofSize < proofBytesLength then
        some (proofRef data k memory.free signed.free,
          (copyBytes metadata (reference + 32 + (signature + signatureSize)) signed.free
            (metadata.loadWord signed.free)).2)
      else some (proofRef data k memory.free zeroSlot, signed) := by
  intro signature signed metadata
  have hsizes : 228 ≤ proofBytesLength := hsize
  have h1 := copyPoint_inside h (k := k) (by simp only [pointSize]; omega)
  have h2 := copyPoint_inside h (k := k + pointSize) (by simp only [pointSize]; omega)
  have h3 := copyPoint_inside h (k := k + 2 * pointSize) (by simp only [pointSize]; omega)
  have h4 := copyPoint_inside h (k := k + 3 * pointSize) (by simp only [pointSize]; omega)
  have hbnSig := h.loadWord_inside (k := k + 4 * pointSize) (by simp only [pointSize]; omega)
  have hp2 : k + pointSize + pointSize = k + 2 * pointSize := by omega
  have hp3 : k + 2 * pointSize + pointSize = k + 3 * pointSize := by omega
  have hp4 : k + 3 * pointSize + pointSize = k + 4 * pointSize := by omega
  have hrequire : require (correctnessProofSize ≤ proofBytesLength) = some () := by
    simpa using hsize
  simp only [toCorrectnessProof, hrequire, h1, h2, h3, h4, hp2, hp3, hp4, hbnSig]
  rfl

/-- A proof inside of the string is read, and only free memory is written. -/
theorem toCorrectnessProof_spec (hslot : HasZeroSlot memory) {k proofBytesLength : Nat}
    (hk : k + proofBytesLength ≤ data.length) (hsize : correctnessProofSize ≤ proofBytesLength) :
    ∃ proof memory', toCorrectnessProof memory (reference + 32 + k) proofBytesLength =
      some (proof, memory') ∧ memory.Extends memory' ∧
        Umbral.toCorrectnessProof data k proofBytesLength = some (proof.read memory') := by
  have hend : k + 4 * pointSize + bignumSize + signatureSize = k + correctnessProofSize := rfl
  have hproof := toCorrectnessProof_eq h hk hsize
  rcases copyBytes_inside h (n := signatureSize) (Extends.refl memory)
    (k := k + 4 * pointSize + bignumSize) (by omega) with ⟨hextSigned, hsignature⟩
  simp only at hproof
  generalize (copyBytes (memory.newBytes signatureSize).2
    (reference + 32 + (k + 4 * pointSize + bignumSize)) memory.free signatureSize).2 = signed
    at hextSigned hsignature hproof
  by_cases hmore : correctnessProofSize < proofBytesLength
  · rcases copyBytes_inside h (n := proofBytesLength - correctnessProofSize) hextSigned
      (k := k + 4 * pointSize + bignumSize + signatureSize) (by omega) with ⟨hextCopied, hmetadata⟩
    have hlength := h.length_lt
    rw [if_pos hmore, newBytes_loadWord (by omega)] at hproof
    refine ⟨_, _, hproof, hextSigned.trans hextCopied, ?_⟩
    simp only [CorrectnessProofRef.read, proofRef, (hsignature.of_extends hextCopied).bytesAt_eq,
      hmetadata.bytesAt_eq, Umbral.toCorrectnessProof, hsize, if_true]
  · have hnone : proofBytesLength - correctnessProofSize = 0 := by omega
    rw [if_neg hmore] at hproof
    refine ⟨_, _, hproof, hextSigned, ?_⟩
    simp only [CorrectnessProofRef.read, proofRef, hsignature.bytesAt_eq,
      hslot.bytesAt_eq hextSigned, Umbral.toCorrectnessProof, hsize, if_true, hnone]
    rfl

theorem toCapsuleFrag_spec (hslot : HasZeroSlot memory)
    (hsize : fullCapsuleFragSize ≤ data.length) :
    ∃ cFrag memory', toCapsuleFrag memory reference = some (cFrag, memory') ∧
      memory.Extends memory' ∧ Umbral.toCapsuleFrag data = some (cFrag.read memory') := by
  have hsizes : 359 ≤ data.length := hsize
  have hp : capsuleFragSize + (data.length - capsuleFragSize) = data.length := by
    simp only [capsuleFragSize, pointSize, bignumSize]
    omega
  have hE1 := copyPoint_inside h (k := 0) (by simp only [pointSize]; omega)
  have hV1 := copyPoint_inside h (k := pointSize) (by simp only [pointSize]; omega)
  have hkFragId := h.loadWord_inside (k := 2 * pointSize) (by simp only [pointSize]; omega)
  have hprecursor := copyPoint_inside h (k := 2 * pointSize + bignumSize)
    (by simp only [pointSize, bignumSize]; omega)
  rcases toCorrectnessProof_spec h hslot (k := 3 * pointSize + bignumSize) hp.le
    (by simp only [fullCapsuleFragSize] at hsize; omega) with
    ⟨proof, memory', hproof, hext, hrefines⟩
  rw [Nat.add_zero, Nat.zero_add] at hE1
  rw [← Nat.two_mul] at hV1
  have hp3 : 2 * pointSize + bignumSize + pointSize = 3 * pointSize + bignumSize := by omega
  have hrequire : require (fullCapsuleFragSize ≤ data.length) = some () := by
    simpa using hsize
  let cFrag : CapsuleFragRef :=
    { pointE1 := Umbral.copyPoint data 0
      pointV1 := Umbral.copyPoint data pointSize
      kFragId := mload data (2 * pointSize)
      pointPrecursor := Umbral.copyPoint data (2 * pointSize + bignumSize)
      proof }
  refine ⟨cFrag, memory', ?_, hext, ?_⟩
  · simp only [toCapsuleFrag, h.loadWord_eq, hrequire, getPointer, hE1, hV1, hkFragId,
      Nat.add_assoc _ _ bignumSize, hprecursor, hp3, hproof]
    rfl
  · simp only [Umbral.toCapsuleFrag, hsize, if_true, hrefines]
    rfl

theorem toPreComputedData_refines :
    toPreComputedData memory reference = Umbral.toPreComputedData data := by
  by_cases hlength : data.length = preComputedDataSize
  · have hsizes : data.length = 697 := hlength
    have hword (i : Nat) (hi : i < 21) :
        memory.loadWord (reference + 32 + i * bignumSize) = mload data (i * bignumSize) :=
      h.loadWord_inside (by simp only [bignumSize]; omega)
    have haddress : memory.loadWord (reference + 32 + 20 * bignumSize + 32) / 2 ^ 96 =
        mload data (20 * bignumSize + 32) / 2 ^ 96 := by
      rw [Nat.add_assoc _ (20 * bignumSize), loadWord, mload_eq_load, bigEndian_load_address,
        bigEndian_load_address, h.load_eq (by simp only [bignumSize]; omega)]
    have hlost : (wordBytes (memory.loadWord (reference + 32 + 20 * bignumSize + 32 + 20))).take 5 =
        (wordBytes (mload data (20 * bignumSize + 32 + 20))).take 5 := by
      rw [Nat.add_assoc _ (20 * bignumSize), Nat.add_assoc _ (20 * bignumSize + 32), loadWord,
        mload_eq_load, wordBytes_bigEndian_load, wordBytes_bigEndian_load,
        take_load _ _ (by omega), take_load _ _ (by omega),
        h.load_eq (by simp only [bignumSize]; omega)]
    have hend : reference + 32 + 20 * bignumSize + 32 + 20 + 5 =
        reference + 32 + preComputedDataSize := by
      simp only [preComputedDataSize]
      omega
    simp (disch := omega) only [toPreComputedData, Umbral.toPreComputedData, h.loadWord_eq,
      getPointer, hlength, if_true, haddress, hlost, hword, hend]
    rfl
  · simp [toPreComputedData, Umbral.toPreComputedData, h.loadWord_eq, hlength, require]

end Refinement

theorem toCapsuleFrag_eq_none {reference : Nat} {data : Bytes} (h : memory.Holds reference data)
    (hsize : ¬ fullCapsuleFragSize ≤ data.length) : toCapsuleFrag memory reference = none := by
  simp [toCapsuleFrag, h.loadWord_eq, hsize, require]

/-! ## Exactness -/

/-- Deserialization of a byte string in memory.  The lengths that are accepted are exact, the
fields in their order are the byte string, and copying a byte string writes only to the bytes
of the new one and to free memory. -/
theorem deserialization_exact {reference : Nat} {data : Bytes} (h : memory.Holds reference data)
    (hslot : HasZeroSlot memory) :
    ((toCapsule memory reference).isSome ↔ data.length = 98) ∧
    (∀ capsule, toCapsule memory reference = some capsule → capsule.serialize = data) ∧
    ((toCapsuleFrag memory reference).isSome ↔ 359 ≤ data.length) ∧
    (∀ cFrag memory', toCapsuleFrag memory reference = some (cFrag, memory') →
      (cFrag.read memory').serialize = data ∧
        (memory'.bytesAt cFrag.proof.kFragSignature).length = 64 ∧
          ∀ a < memory.free, memory'.bytes a = memory.bytes a) ∧
    ((toPreComputedData memory reference).isSome ↔ data.length = 697) ∧
    (∀ precomputed, toPreComputedData memory reference = some precomputed →
      precomputed.serialize = data) ∧
    ∀ (source length a : Nat), a < memory.free + 32 →
      (copyBytes (memory.newBytes length).2 source (memory.newBytes length).1 length).2.bytes a =
        (memory.newBytes length).2.bytes a := by
  refine ⟨?_, ?_, ?_, ?_, ?_, ?_, ?_⟩
  · rw [toCapsule_refines h]
    exact toCapsule_isSome_iff data
  · intro capsule hcapsule
    rw [toCapsule_refines h] at hcapsule
    exact toCapsule_serialize hcapsule
  · by_cases hsize : fullCapsuleFragSize ≤ data.length
    · rcases toCapsuleFrag_spec h hslot hsize with ⟨cFrag, memory', hcFrag, -, -⟩
      rw [hcFrag]
      exact iff_of_true rfl hsize
    · rw [toCapsuleFrag_eq_none h hsize]
      exact iff_of_false Bool.false_ne_true hsize
  · intro cFrag memory' hcFrag
    by_cases hsize : fullCapsuleFragSize ≤ data.length
    · rcases toCapsuleFrag_spec h hslot hsize with ⟨cFrag', memory'', hcFrag', hext, hrefines⟩
      rw [hcFrag] at hcFrag'
      cases hcFrag'
      exact ⟨toCapsuleFrag_serialize hrefines, length_kFragSignature hrefines, hext.bytes_eq⟩
    · rw [toCapsuleFrag_eq_none h hsize] at hcFrag
      cases hcFrag
  · rw [toPreComputedData_refines h]
    exact toPreComputedData_isSome_iff data
  · intro precomputed hprecomputed
    rw [toPreComputedData_refines h] at hprecomputed
    exact toPreComputedData_serialize hprecomputed
  · intro source length a ha
    exact copyBytes_of_lt ha

/-- A memory of zeros, in which a string of 361 bytes was allocated. -/
def sampleMemory : Memory := ((⟨fun _ => 0, 0x80⟩ : Memory).newBytes 361).2

theorem sampleMemory_holds : sampleMemory.Holds 0x80 (List.replicate 361 0) :=
  newBytes_holds (by decide)

theorem sampleMemory_hasZeroSlot : HasZeroSlot sampleMemory where
  loadWord_eq := by
    rw [sampleMemory, (newBytes_extends _ _).loadWord_eq (by decide)]
    decide
  allocated := by decide

/-- The metadata of the sample have two bytes. -/
theorem deserialization_exact_sample :
    ∃ cFrag memory', toCapsuleFrag sampleMemory 0x80 = some (cFrag, memory') ∧
      (cFrag.read memory').serialize = List.replicate 361 0 ∧
        (memory'.bytesAt cFrag.proof.kFragSignature).length = 64 ∧
          ∀ a < sampleMemory.free, memory'.bytes a = sampleMemory.bytes a := by
  have hexact := deserialization_exact sampleMemory_holds sampleMemory_hasZeroSlot
  have hlength : 359 ≤ (List.replicate 361 (0 : UInt8)).length := by
    rw [List.length_replicate]
    decide
  rcases Option.isSome_iff_exists.mp (hexact.2.2.1.mpr hlength) with ⟨⟨cFrag, memory'⟩, hcFrag⟩
  exact ⟨cFrag, memory', hcFrag, hexact.2.2.2.1 cFrag memory' hcFrag⟩

end UmbralMemory

end NuLink
