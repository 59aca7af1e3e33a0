import NuLinkCore.Contracts.UmbralDeserializer

/-!
# Serialized Umbral objects

The fields of an object in their order are the byte string that the object was read from: points
are a sign and a coordinate of 32 bytes, scalars are 32 bytes, and the metadata are what remains.

Main results:

- Theorems {lit}`toCapsule_serialize`, {lit}`toCapsuleFrag_serialize` and
  {lit}`toPreComputedData_serialize`: serializing inverts deserializing.
-/

namespace NuLink
namespace Umbral

open Evm Cells

/-! ## Serialization -/

def Point.serialize (point : Point) : Bytes := UInt8.ofNat point.sign :: wordBytes point.xCoord

def Capsule.serialize (capsule : Capsule) : Bytes :=
  capsule.pointE.serialize ++ capsule.pointV.serialize ++ wordBytes capsule.bnSig

def CorrectnessProof.serialize (proof : CorrectnessProof) : Bytes :=
  proof.pointE2.serialize ++ proof.pointV2.serialize ++ proof.pointKFragCommitment.serialize ++
    proof.pointKFragPok.serialize ++ wordBytes proof.bnSig ++ proof.kFragSignature ++
    proof.metadata

def CapsuleFrag.serialize (cFrag : CapsuleFrag) : Bytes :=
  cFrag.pointE1.serialize ++ cFrag.pointV1.serialize ++ wordBytes cFrag.kFragId ++
    cFrag.pointPrecursor.serialize ++ cFrag.proof.serialize

/-- The twenty scalars. -/
def PreComputedData.scalars (data : PreComputedData) : List Nat :=
  [data.pointEyCoord, data.pointEZxCoord, data.pointEZyCoord, data.pointE1yCoord,
    data.pointE1HxCoord, data.pointE1HyCoord, data.pointE2yCoord, data.pointVyCoord,
    data.pointVZxCoord, data.pointVZyCoord, data.pointV1yCoord, data.pointV1HxCoord,
    data.pointV1HyCoord, data.pointV2yCoord, data.pointUZxCoord, data.pointUZyCoord,
    data.pointU1yCoord, data.pointU1HxCoord, data.pointU1HyCoord, data.pointU2yCoord]

/-- An address has 20 bytes. -/
def PreComputedData.serialize (data : PreComputedData) : Bytes :=
  data.scalars.flatMap wordBytes ++ wordBytes data.hashedKFragValidityMessage ++
    (wordBytes data.alicesKeyAsAddress).drop 12 ++ data.lostBytes

/-! ## Fields -/

theorem wordBytes_mload (memory : Bytes) (pointer : Nat) :
    wordBytes (mload memory pointer) = load (cells memory) pointer 32 := by
  rw [mload_eq_load, wordBytes_bigEndian_load]

theorem copyPoint_serialize (memory : Bytes) (pointer : Nat) :
    (copyPoint memory pointer).serialize = load (cells memory) pointer pointSize := by
  have hsign : UInt8.ofNat (firstByte (mload memory pointer)) = cells memory pointer := by
    rw [mload_eq_load, firstByte_bigEndian_load, UInt8.ofNat_toNat]
  have hsplit : load (cells memory) pointer pointSize =
      [cells memory pointer] ++ load (cells memory) (pointer + 1) 32 :=
    load_add (cells memory) pointer 1 32
  rw [Point.serialize, copyPoint, hsign, wordBytes_mload, hsplit, List.singleton_append]

theorem copyBytes_eq_load (memory : Bytes) (pointer bytesLength : Nat) :
    copyBytes memory pointer bytesLength = load (cells memory) pointer bytesLength := by
  have hwords : (List.range ((bytesLength + 31) / 32)).flatMap
      (fun i => wordBytes (mload memory (pointer + i * 32))) =
        load (cells memory) pointer ((bytesLength + 31) / 32 * 32) := by
    simp only [wordBytes_mload, flatMap_load]
  rw [copyBytes, hwords, take_load _ _ (by omega)]

/-- The leading bytes of a word are the address. -/
theorem bigEndian_load_address (m : Nat → UInt8) (pointer : Nat) :
    bigEndian (load m pointer 32) / 2 ^ 96 = bigEndian (load m pointer 20) := by
  have hsplit : load m pointer 32 = load m pointer 20 ++ load m (pointer + 20) 12 :=
    load_add m pointer 20 12
  have hpow : (2 : Nat) ^ 96 = 256 ^ (load m (pointer + 20) 12).length := by
    rw [length_load]
    norm_num
  rw [hsplit, hpow, bigEndian_append_div]

theorem wordBytes_address (m : Nat → UInt8) (pointer : Nat) :
    (wordBytes (bigEndian (load m pointer 32) / 2 ^ 96)).drop 12 = load m pointer 20 := by
  rw [bigEndian_load_address, wordBytes_bigEndian_of_le (by rw [length_load]; omega), length_load,
    List.drop_left' (by simp)]

theorem load_cells_all (data : Bytes) : load (cells data) 0 data.length = data := by
  rw [load_cells (by omega), List.drop_zero, List.take_length]

/-! ## Exactness -/

theorem toCapsule_serialize {capsuleBytes : Bytes} {capsule : Capsule}
    (h : toCapsule capsuleBytes = some capsule) : capsule.serialize = capsuleBytes := by
  simp only [toCapsule] at h
  split_ifs at h with hlength
  cases h
  let m := cells capsuleBytes
  calc _ = load m 0 pointSize ++ load m pointSize pointSize ++
        load m (2 * pointSize) bignumSize := by
        simp only [Capsule.serialize, copyPoint_serialize, wordBytes_mload]
        rfl
    _ = load m 0 (pointSize + pointSize + bignumSize) := by
        rw [load_add, load_add]
        rfl
    _ = load m 0 capsuleBytes.length := by rw [hlength]; rfl
    _ = capsuleBytes := load_cells_all capsuleBytes

/-- A proof is what lies behind its pointer. -/
theorem toCorrectnessProof_serialize {memory : Bytes} {pointer proofBytesLength : Nat}
    {proof : CorrectnessProof}
    (h : toCorrectnessProof memory pointer proofBytesLength = some proof) :
    proof.serialize = load (cells memory) pointer proofBytesLength := by
  simp only [toCorrectnessProof] at h
  split_ifs at h with hlength
  cases h
  let m := cells memory
  let metadataLength := proofBytesLength - correctnessProofSize
  have htotal : proofBytesLength =
      pointSize + pointSize + pointSize + pointSize + bignumSize + signatureSize +
        metadataLength := by
    simp only [metadataLength, correctnessProofSize, pointSize, bignumSize, signatureSize] at *
    omega
  calc _ = load m pointer pointSize ++ load m (pointer + pointSize) pointSize ++
        load m (pointer + 2 * pointSize) pointSize ++ load m (pointer + 3 * pointSize) pointSize ++
        load m (pointer + 4 * pointSize) bignumSize ++
        load m (pointer + 4 * pointSize + bignumSize) signatureSize ++
        load m (pointer + 4 * pointSize + bignumSize + signatureSize) metadataLength := by
        simp only [CorrectnessProof.serialize, copyPoint_serialize, wordBytes_mload,
          copyBytes_eq_load]
        rfl
    _ = load m pointer (pointSize + pointSize + pointSize + pointSize + bignumSize +
        signatureSize + metadataLength) := by
        simp only [load_add]
        rfl
    _ = load m pointer proofBytesLength := by rw [← htotal]

theorem toCapsuleFrag_serialize {cFragBytes : Bytes} {cFrag : CapsuleFrag}
    (h : toCapsuleFrag cFragBytes = some cFrag) : cFrag.serialize = cFragBytes := by
  simp only [toCapsuleFrag] at h
  split_ifs at h with hlength
  rcases Option.map_eq_some_iff.mp h with ⟨proof, hproof, rfl⟩
  let m := cells cFragBytes
  let proofLength := cFragBytes.length - capsuleFragSize
  have htotal : cFragBytes.length =
      pointSize + pointSize + bignumSize + pointSize + proofLength := by
    simp only [proofLength, fullCapsuleFragSize, capsuleFragSize, pointSize, bignumSize] at *
    omega
  calc _ = load m 0 pointSize ++ load m pointSize pointSize ++
        load m (2 * pointSize) bignumSize ++ load m (2 * pointSize + bignumSize) pointSize ++
        load m (3 * pointSize + bignumSize) proofLength := by
        simp only [CapsuleFrag.serialize, copyPoint_serialize, wordBytes_mload,
          toCorrectnessProof_serialize hproof]
        rfl
    _ = load m 0 (pointSize + pointSize + bignumSize + pointSize + proofLength) := by
        simp only [load_add]
        rfl
    _ = load m 0 cFragBytes.length := by rw [← htotal]
    _ = cFragBytes := load_cells_all cFragBytes

theorem toPreComputedData_serialize {preComputedData : Bytes} {data : PreComputedData}
    (h : toPreComputedData preComputedData = some data) : data.serialize = preComputedData := by
  simp only [toPreComputedData] at h
  split_ifs at h with hlength
  cases h
  let m := cells preComputedData
  have hscalars : ((List.range 20).map fun i => mload preComputedData (i * bignumSize)).flatMap
      wordBytes = load m 0 (20 * bignumSize) := by
    rw [List.flatMap_map, ← flatMap_load]
    simp only [wordBytes_mload, Nat.zero_add]
    rfl
  have haddress : (wordBytes (mload preComputedData (20 * bignumSize + 32) / 2 ^ 96)).drop 12 =
      load m (20 * bignumSize + 32) 20 := by
    rw [mload_eq_load, wordBytes_address]
  have hlost : (wordBytes (mload preComputedData (20 * bignumSize + 32 + 20))).take 5 =
      load m (20 * bignumSize + 32 + 20) 5 := by
    rw [wordBytes_mload, take_load _ _ (by omega)]
  calc _ = load m 0 (20 * bignumSize) ++ load m (20 * bignumSize) 32 ++
        load m (20 * bignumSize + 32) 20 ++ load m (20 * bignumSize + 32 + 20) 5 := by
        rw [← hscalars, ← haddress, ← hlost, ← wordBytes_mload]
        rfl
    _ = load m 0 (20 * bignumSize + 32 + 20 + 5) := by
        simp only [load_add]
        rfl
    _ = load m 0 preComputedData.length := by rw [hlength]; rfl
    _ = preComputedData := load_cells_all preComputedData

end Umbral

end NuLink
