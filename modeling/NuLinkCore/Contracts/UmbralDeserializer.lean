import NuLinkCore.Contracts.Words

/-!
# Deserialization of Umbral objects

The Solidity library {lit}`UmbralDeserializer` reads points, scalars and byte strings at
fixed offsets.  Pointers are offsets from the start of the string.

Main results:

- Theorems {lit}`toCapsule_isSome_iff`, {lit}`toCapsuleFrag_isSome_iff` and
  {lit}`toPreComputedData_isSome_iff`: the lengths that are accepted.
-/

namespace NuLink
namespace Umbral

open Evm

/-- A compressed point. -/
structure Point where
  sign : Nat
  xCoord : Nat
deriving DecidableEq, Repr

structure Capsule where
  pointE : Point
  pointV : Point
  bnSig : Nat
deriving DecidableEq, Repr

structure CorrectnessProof where
  pointE2 : Point
  pointV2 : Point
  pointKFragCommitment : Point
  pointKFragPok : Point
  bnSig : Nat
  kFragSignature : Bytes
  metadata : Bytes
deriving DecidableEq, Repr

structure CapsuleFrag where
  pointE1 : Point
  pointV1 : Point
  kFragId : Nat
  pointPrecursor : Point
  proof : CorrectnessProof
deriving DecidableEq, Repr

structure PreComputedData where
  pointEyCoord : Nat
  pointEZxCoord : Nat
  pointEZyCoord : Nat
  pointE1yCoord : Nat
  pointE1HxCoord : Nat
  pointE1HyCoord : Nat
  pointE2yCoord : Nat
  pointVyCoord : Nat
  pointVZxCoord : Nat
  pointVZyCoord : Nat
  pointV1yCoord : Nat
  pointV1HxCoord : Nat
  pointV1HyCoord : Nat
  pointV2yCoord : Nat
  pointUZxCoord : Nat
  pointUZyCoord : Nat
  pointU1yCoord : Nat
  pointU1HxCoord : Nat
  pointU1HyCoord : Nat
  pointU2yCoord : Nat
  hashedKFragValidityMessage : Nat
  alicesKeyAsAddress : Nat
  lostBytes : Bytes
deriving DecidableEq, Repr

def bignumSize : Nat := 32
def pointSize : Nat := 33
def signatureSize : Nat := 64
def capsuleSize : Nat := 2 * pointSize + bignumSize
def correctnessProofSize : Nat := 4 * pointSize + bignumSize + signatureSize
def capsuleFragSize : Nat := 3 * pointSize + bignumSize
def fullCapsuleFragSize : Nat := capsuleFragSize + correctnessProofSize
def preComputedDataSize : Nat := 20 * bignumSize + 32 + 20 + 5

/-! ## Reading -/

def copyPoint (memory : Bytes) (pointer : Nat) : Point where
  sign := firstByte (mload memory pointer)
  xCoord := mload memory (pointer + 1)

/-- The bytes are copied word by word; what exceeds the target is overwritten. -/
def copyBytes (memory : Bytes) (pointer bytesLength : Nat) : Bytes :=
  let words := (bytesLength + 31) / 32
  ((List.range words).flatMap fun i => wordBytes (mload memory (pointer + i * 32))).take bytesLength

def toCapsule (capsuleBytes : Bytes) : Option Capsule :=
  if capsuleBytes.length = capsuleSize then
    some {
      pointE := copyPoint capsuleBytes 0
      pointV := copyPoint capsuleBytes pointSize
      bnSig := mload capsuleBytes (2 * pointSize) }
  else none

/-- The proof that starts at a pointer, of a given length. -/
def toCorrectnessProof (memory : Bytes) (pointer proofBytesLength : Nat) :
    Option CorrectnessProof :=
  if correctnessProofSize ≤ proofBytesLength then
    let afterPoints := pointer + 4 * pointSize
    some {
      pointE2 := copyPoint memory pointer
      pointV2 := copyPoint memory (pointer + pointSize)
      pointKFragCommitment := copyPoint memory (pointer + 2 * pointSize)
      pointKFragPok := copyPoint memory (pointer + 3 * pointSize)
      bnSig := mload memory afterPoints
      kFragSignature := copyBytes memory (afterPoints + bignumSize) signatureSize
      metadata := copyBytes memory (afterPoints + bignumSize + signatureSize)
        (proofBytesLength - correctnessProofSize) }
  else none

def toCapsuleFrag (cFragBytes : Bytes) : Option CapsuleFrag :=
  if fullCapsuleFragSize ≤ cFragBytes.length then
    (toCorrectnessProof cFragBytes (3 * pointSize + bignumSize)
      (cFragBytes.length - capsuleFragSize)).map fun proof => {
        pointE1 := copyPoint cFragBytes 0
        pointV1 := copyPoint cFragBytes pointSize
        kFragId := mload cFragBytes (2 * pointSize)
        pointPrecursor := copyPoint cFragBytes (2 * pointSize + bignumSize)
        proof }
  else none

def toPreComputedData (preComputedData : Bytes) : Option PreComputedData :=
  if preComputedData.length = preComputedDataSize then
    let word (i : Nat) := mload preComputedData (i * bignumSize)
    let afterWords := 20 * bignumSize
    some {
      pointEyCoord := word 0
      pointEZxCoord := word 1
      pointEZyCoord := word 2
      pointE1yCoord := word 3
      pointE1HxCoord := word 4
      pointE1HyCoord := word 5
      pointE2yCoord := word 6
      pointVyCoord := word 7
      pointVZxCoord := word 8
      pointVZyCoord := word 9
      pointV1yCoord := word 10
      pointV1HxCoord := word 11
      pointV1HyCoord := word 12
      pointV2yCoord := word 13
      pointUZxCoord := word 14
      pointUZyCoord := word 15
      pointU1yCoord := word 16
      pointU1HxCoord := word 17
      pointU1HyCoord := word 18
      pointU2yCoord := word 19
      hashedKFragValidityMessage := mload preComputedData afterWords
      -- bytes20 and bytes5 keep the leading bytes of the word.
      alicesKeyAsAddress := mload preComputedData (afterWords + 32) / 2 ^ 96
      lostBytes := (wordBytes (mload preComputedData (afterWords + 32 + 20))).take 5 }
  else none

theorem length_copyBytes (memory : Bytes) (pointer bytesLength : Nat) :
    (copyBytes memory pointer bytesLength).length = bytesLength := by
  have hwords : ((List.range ((bytesLength + 31) / 32)).flatMap fun i =>
      wordBytes (mload memory (pointer + i * 32))).length = (bytesLength + 31) / 32 * 32 := by
    simp [List.length_flatMap, length_wordBytes]
  rw [copyBytes, List.length_take, hwords]
  omega

/-! ## Accepted lengths -/

theorem toCapsule_isSome_iff (capsuleBytes : Bytes) :
    (toCapsule capsuleBytes).isSome ↔ capsuleBytes.length = 98 := by
  by_cases h : capsuleBytes.length = 98 <;>
    simp [toCapsule, capsuleSize, pointSize, bignumSize, h]

theorem toCapsuleFrag_isSome_iff (cFragBytes : Bytes) :
    (toCapsuleFrag cFragBytes).isSome ↔ 359 ≤ cFragBytes.length := by
  simp only [toCapsuleFrag, toCorrectnessProof, fullCapsuleFragSize, capsuleFragSize,
    correctnessProofSize, pointSize, bignumSize, signatureSize]
  by_cases h : 359 ≤ cFragBytes.length
  · have hproof : 228 ≤ cFragBytes.length - 131 := by omega
    simp [h, hproof]
  · simp [h]

theorem length_kFragSignature {cFragBytes : Bytes} {cFrag : CapsuleFrag}
    (h : toCapsuleFrag cFragBytes = some cFrag) : cFrag.proof.kFragSignature.length = 64 := by
  simp only [toCapsuleFrag, toCorrectnessProof] at h
  split_ifs at h
  · cases h
    exact length_copyBytes _ _ _
  · simp at h

theorem toPreComputedData_isSome_iff (preComputedData : Bytes) :
    (toPreComputedData preComputedData).isSome ↔ preComputedData.length = 697 := by
  by_cases h : preComputedData.length = 697 <;>
    simp [toPreComputedData, preComputedDataSize, bignumSize, h]

end Umbral

end NuLink
