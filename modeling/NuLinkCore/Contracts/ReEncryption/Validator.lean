import NuLinkCore.Contracts.ReEncryption.PointAddition
import NuLinkCore.Contracts.SignatureVerifier
import NuLinkCore.Contracts.UmbralDeserializer

/-!
# Validation of capsule fragments

The Solidity library {lit}`ReEncryptionValidator` checks the three equations of the proof of
correct re-encryption.  The prover supplies the second coordinates of all points and the
products that enter the equations; each of them is tied to the capsule and the fragment by
a check of its own.  A failed {lit}`require` reverts.

Main results:

- Theorem {lit}`extendedKeccakToBN_eq`: the challenge is the reduction of a hash of two words.
- Theorem {lit}`checkCompressedPoint_iff`: what the check of a compressed point accepts.
- Theorem {lit}`checkEquation_eq_some`: the checks that an equation goes through.
-/

namespace NuLink
namespace ReEncryption

open Evm Umbral

/-! ## Constants -/

/-- {lit}`UMBRAL_PARAMETER_U_SIGN`, {lit}`UMBRAL_PARAMETER_U_XCOORD` and
{lit}`UMBRAL_PARAMETER_U_YCOORD`. -/
def umbralParameterUSign : Nat := 0x02

def umbralParameterUXCoord : Nat :=
  0x03c98795773ff1c241fc0b1cced85e80f8366581dda5c9452175ebd41385fa1f

def umbralParameterUYCoord : Nat :=
  0x7880ed56962d7c0ae44d6f14bb53b5fe64b31ea44a41d0316f3a598778f0f936

/-- The order of the group of secp256k1. -/
def curveOrder : Nat := 0xFFFFFFFFFFFFFFFFFFFFFFFFFFFFFFFEBAAEDCE6AF48A03BBFD25E8CD0364141

/-! ## Hashing -/

/-- {lit}`bytes32("hash_to_curvebn")`. -/
def customizationString : Bytes :=
  "hash_to_curvebn".toList.map (fun c => UInt8.ofNat c.toNat) ++ List.replicate 17 0

/-- {lit}`extendedKeccakToBN`; the last addition stays below the order. -/
def extendedKeccakToBN (evm : Evm) (data : Bytes) : Nat :=
  let input := customizationString ++ wordBytes 0 ++ data
  let upper := evm.keccak256 (0x00 :: input)
  let lower := evm.keccak256 (0x01 :: input)
  let delta := 0x14551231950b75fc4402da1732fc9bec0
  let nMinus1 := 0xfffffffffffffffffffffffffffffffebaaedce6af48a03bbfd25e8cd0364140
  let upperHalf := mulmod upper delta nMinus1
  1 + addmod upperHalf lower nMinus1

/-- The two words of the hash are reduced as one number, to a scalar that is not zero.  The last
addition does not overflow. -/
theorem extendedKeccakToBN_eq (evm : Evm) (data : Bytes) :
    let input := customizationString ++ wordBytes 0 ++ data
    let upper := evm.keccak256 (0x00 :: input)
    let lower := evm.keccak256 (0x01 :: input)
    extendedKeccakToBN evm data = 1 + (upper * 2 ^ 256 + lower) % (curveOrder - 1) ∧
      1 ≤ extendedKeccakToBN evm data ∧ extendedKeccakToBN evm data ≤ curveOrder - 1 ∧
      extendedKeccakToBN evm data < 2 ^ 256 := by
  intro input upper lower
  have hmodulus : 0xfffffffffffffffffffffffffffffffebaaedce6af48a03bbfd25e8cd0364140 =
      curveOrder - 1 := by decide
  have hdelta : 0x14551231950b75fc4402da1732fc9bec0 = 2 ^ 256 % (curveOrder - 1) := by decide
  have hreduced : extendedKeccakToBN evm data =
      1 + (upper * 2 ^ 256 + lower) % (curveOrder - 1) := by
    rw [← addmod_mulmod, ← hdelta, ← hmodulus]
    rfl
  have hlt : (upper * 2 ^ 256 + lower) % (curveOrder - 1) < curveOrder - 1 :=
    Nat.mod_lt _ (by decide)
  have horder : curveOrder < 2 ^ 256 := by decide
  refine ⟨hreduced, ?_, ?_, ?_⟩ <;> omega

/-- A compressed point, packed. -/
def pointBytes (point : Point) : Bytes := UInt8.ofNat point.sign :: wordBytes point.xCoord

/-- {lit}`computeProofChallengeScalar`. -/
def computeProofChallengeScalar (evm : Evm) (capsule : Capsule) (cFrag : CapsuleFrag) : Nat :=
  extendedKeccakToBN evm
    (pointBytes capsule.pointE ++ pointBytes cFrag.pointE1 ++ pointBytes cFrag.proof.pointE2 ++
      pointBytes capsule.pointV ++ pointBytes cFrag.pointV1 ++ pointBytes cFrag.proof.pointV2 ++
      pointBytes ⟨umbralParameterUSign, umbralParameterUXCoord⟩ ++
      pointBytes cFrag.proof.pointKFragCommitment ++ pointBytes cFrag.proof.pointKFragPok ++
      cFrag.proof.metadata)

/-! ## Checks of points and products -/

/-- {lit}`checkCompressedPoint`.  The sign is an unsigned integer: below 2 the subtraction
reverts. -/
def checkCompressedPoint (pointSign pointX pointY : Nat) : Option Bool := do
  let parity ← checkedSub pointSign 2
  let correctSign := decide (pointY % 2 = parity)
  return correctSign && isOnCurve pointX pointY

/-- The arguments of a call of {lit}`ecmulVerify`. -/
structure EcmulCall where
  x1 : Nat
  y1 : Nat
  scalar : Nat
  qx : Nat
  qy : Nat
deriving DecidableEq, Repr

/-- {lit}`ecmulVerify`. -/
def ecmulVerify (evm : Evm) (call : EcmulCall) : Bool :=
  let signer := evm.ecrecover 0 (27 + call.y1 % 2) call.x1 (mulmod call.scalar call.x1 curveOrder)
  let xyAddress := evm.keccak256 (wordBytes call.qx ++ wordBytes call.qy) % 2 ^ 160
  xyAddress == signer

/-! ## Equations -/

/-- The data of one of the equations z * P == h * P_1 + P_2: the first point and its product,
the second point with its second coordinate and its product, and the third point with its
second coordinate. -/
structure EquationData where
  point : Nat × Nat
  product : Nat × Nat
  point1 : Point
  point1YCoord : Nat
  product1 : Nat × Nat
  point2 : Point
  point2YCoord : Nat

/-- The product of the first point. -/
def EquationData.call (data : EquationData) (z : Nat) : EcmulCall :=
  ⟨data.point.1, data.point.2, z, data.product.1, data.product.2⟩

/-- The product of the second point. -/
def EquationData.call1 (data : EquationData) (h : Nat) : EcmulCall :=
  ⟨data.point1.xCoord, data.point1YCoord, h, data.product1.1, data.product1.2⟩

/-- What the verification of each equation does once its first point is known to be valid. -/
def checkEquation (evm : Evm) (z h : Nat) (data : EquationData) : Option Bool := do
  require (isOnCurve data.product.1 data.product.2)
  require (ecmulVerify evm (data.call z))
  require (← checkCompressedPoint data.point1.sign data.point1.xCoord data.point1YCoord)
  require (isOnCurve data.product1.1 data.product1.2)
  require (ecmulVerify evm (data.call1 h))
  require (← checkCompressedPoint data.point2.sign data.point2.xCoord data.point2YCoord)
  let sum ← addAffineJacobian (data.point2.xCoord, data.point2YCoord) data.product1
  return eqAffineJacobian data.product sum

/-- z * E == h * E_1 + E_2. -/
def equationE (capsule : Capsule) (cFrag : CapsuleFrag) (precomputed : PreComputedData) :
    EquationData where
  point := (capsule.pointE.xCoord, precomputed.pointEyCoord)
  product := (precomputed.pointEZxCoord, precomputed.pointEZyCoord)
  point1 := cFrag.pointE1
  point1YCoord := precomputed.pointE1yCoord
  product1 := (precomputed.pointE1HxCoord, precomputed.pointE1HyCoord)
  point2 := cFrag.proof.pointE2
  point2YCoord := precomputed.pointE2yCoord

/-- z * V == h * V_1 + V_2. -/
def equationV (capsule : Capsule) (cFrag : CapsuleFrag) (precomputed : PreComputedData) :
    EquationData where
  point := (capsule.pointV.xCoord, precomputed.pointVyCoord)
  product := (precomputed.pointVZxCoord, precomputed.pointVZyCoord)
  point1 := cFrag.pointV1
  point1YCoord := precomputed.pointV1yCoord
  product1 := (precomputed.pointV1HxCoord, precomputed.pointV1HyCoord)
  point2 := cFrag.proof.pointV2
  point2YCoord := precomputed.pointV2yCoord

/-- z * U == h * U_1 + U_2. -/
def equationU (cFrag : CapsuleFrag) (precomputed : PreComputedData) : EquationData where
  point := (umbralParameterUXCoord, umbralParameterUYCoord)
  product := (precomputed.pointUZxCoord, precomputed.pointUZyCoord)
  point1 := cFrag.proof.pointKFragCommitment
  point1YCoord := precomputed.pointU1yCoord
  product1 := (precomputed.pointU1HxCoord, precomputed.pointU1HyCoord)
  point2 := cFrag.proof.pointKFragPok
  point2YCoord := precomputed.pointU2yCoord

/-- {lit}`validateCFrag` after deserialization and the check of the signature.  The point U is
fixed and needs no validation. -/
def checkEquations (evm : Evm) (capsule : Capsule) (cFrag : CapsuleFrag)
    (precomputed : PreComputedData) : Option Bool := do
  let z := cFrag.proof.bnSig
  let h := computeProofChallengeScalar evm capsule cFrag
  require (← checkCompressedPoint capsule.pointE.sign capsule.pointE.xCoord
    precomputed.pointEyCoord)
  let holdsE ← checkEquation evm z h (equationE capsule cFrag precomputed)
  if !holdsE then return false
  require (← checkCompressedPoint capsule.pointV.sign capsule.pointV.xCoord
    precomputed.pointVyCoord)
  let holdsV ← checkEquation evm z h (equationV capsule cFrag precomputed)
  if !holdsV then return false
  checkEquation evm z h (equationU cFrag precomputed)

/-- The address that signed the fragment. -/
def recoverSigner (evm : Evm) (cFrag : CapsuleFrag) (precomputed : PreComputedData) :
    Option Nat :=
  SignatureVerifier.recover evm precomputed.hashedKFragValidityMessage
    (cFrag.proof.kFragSignature ++ precomputed.lostBytes.take 1)

/-- {lit}`validateCFrag`. -/
def validateCFrag (evm : Evm) (capsuleBytes cFragBytes precomputedBytes : Bytes) :
    Option Bool := do
  let capsule ← toCapsule capsuleBytes
  let cFrag ← toCapsuleFrag cFragBytes
  let precomputed ← toPreComputedData precomputedBytes
  let alicesAddress ← recoverSigner evm cFrag precomputed
  require (alicesAddress = precomputed.alicesKeyAsAddress)
  checkEquations evm capsule cFrag precomputed

/-! ## What is accepted -/

/-- A compressed point and its second coordinate belong to a point of the curve. -/
structure Decompresses (point : Point) (y : Nat) (P : Group) : Prop where
  sign : point.sign = 2 + y % 2
  represents : Represents point.xCoord y P

/-- The check accepts exactly the compressed points with their second coordinate. -/
theorem checkCompressedPoint_iff {point : Point} {y : Nat} :
    checkCompressedPoint point.sign point.xCoord y = some true ↔ ∃ P, Decompresses point y P := by
  have hsign : (∃ parity, checkedSub point.sign 2 = some parity ∧ y % 2 = parity) ↔
      point.sign = 2 + y % 2 := by
    simp only [checkedSub_eq_some]
    constructor
    · rintro ⟨parity, ⟨hle, hsub⟩, hparity⟩
      omega
    · intro h
      exact ⟨y % 2, ⟨by omega, by omega⟩, rfl⟩
  constructor
  · intro h
    rcases Option.bind_eq_some_iff.mp h with ⟨parity, hparity, hboth⟩
    have hboth' : y % 2 = parity ∧ isOnCurve point.xCoord y = true := by simpa using hboth
    rcases isOnCurve_iff.mp hboth'.2 with ⟨P, hP⟩
    exact ⟨P, hsign.mp ⟨parity, hparity, hboth'.1⟩, hP⟩
  · rintro ⟨P, hP⟩
    rcases hsign.mpr hP.sign with ⟨parity, hparity, heq⟩
    apply Option.bind_eq_some_iff.mpr
    exact ⟨parity, hparity, by simp [heq, isOnCurve_iff.mpr ⟨P, hP.represents⟩]⟩

/-- Everything that an equation has to pass. -/
structure Passes (evm : Evm) (z h : Nat) (data : EquationData) : Prop where
  product : ∃ P, Represents data.product.1 data.product.2 P
  call : ecmulVerify evm (data.call z) = true
  point1 : ∃ P, Decompresses data.point1 data.point1YCoord P
  product1 : ∃ P, Represents data.product1.1 data.product1.2 P
  call1 : ecmulVerify evm (data.call1 h) = true
  point2 : ∃ P, Decompresses data.point2 data.point2YCoord P
  sum : ∃ J, addAffineJacobian (data.point2.xCoord, data.point2YCoord) data.product1 = some J ∧
    eqAffineJacobian data.product J = true

/-- An equation is accepted exactly when it passes every check. -/
theorem checkEquation_eq_some {evm : Evm} {z h : Nat} {data : EquationData} :
    checkEquation evm z h data = some true ↔ Passes evm z h data := by
  simp only [checkEquation, Option.bind_eq_bind, Option.bind_eq_some_iff, require_eq_some,
    exists_const, Option.pure_def, Option.some.injEq, isOnCurve_iff]
  constructor
  · rintro ⟨hproduct, hcall, valid1, hpoint1, rfl, hproduct1, hcall1, valid2, hpoint2, rfl, hsum⟩
    exact ⟨hproduct, hcall, checkCompressedPoint_iff.mp hpoint1, hproduct1, hcall1,
      checkCompressedPoint_iff.mp hpoint2, hsum⟩
  · intro hpasses
    exact ⟨hpasses.product, hpasses.call, true, checkCompressedPoint_iff.mpr hpasses.point1, rfl,
      hpasses.product1, hpasses.call1, true, checkCompressedPoint_iff.mpr hpasses.point2, rfl,
      hpasses.sum⟩

/-- The three equations are accepted exactly when the two first points are valid and each
equation passes every check. -/
theorem checkEquations_eq_some {evm : Evm} {capsule : Capsule} {cFrag : CapsuleFrag}
    {precomputed : PreComputedData} :
    let z := cFrag.proof.bnSig
    let h := computeProofChallengeScalar evm capsule cFrag
    checkEquations evm capsule cFrag precomputed = some true ↔
      (∃ P, Decompresses capsule.pointE precomputed.pointEyCoord P) ∧
        Passes evm z h (equationE capsule cFrag precomputed) ∧
        (∃ P, Decompresses capsule.pointV precomputed.pointVyCoord P) ∧
        Passes evm z h (equationV capsule cFrag precomputed) ∧
        Passes evm z h (equationU cFrag precomputed) := by
  intro z h
  simp only [checkEquations, Option.bind_eq_bind, Option.bind_eq_some_iff, require_eq_some,
    exists_const, ← checkCompressedPoint_iff, ← checkEquation_eq_some]
  constructor
  · rintro ⟨validE, hE, rfl, holdsE, hholdsE, hrest⟩
    cases holdsE with
    | false => simp at hrest
    | true =>
        simp only [Bool.not_true, Bool.false_eq_true, if_false, Option.bind_eq_some_iff,
          require_eq_some, exists_const] at hrest
        rcases hrest with ⟨validV, hV, rfl, holdsV, hholdsV, hlast⟩
        cases holdsV with
        | false => simp at hlast
        | true => exact ⟨hE, hholdsE, hV, hholdsV, by simpa using hlast⟩
  · rintro ⟨hE, hholdsE, hV, hholdsV, hholdsU⟩
    refine ⟨true, hE, rfl, true, hholdsE, ?_⟩
    simp only [Bool.not_true, Bool.false_eq_true, if_false, Option.bind_eq_some_iff,
      require_eq_some, exists_const]
    exact ⟨true, hV, rfl, true, hholdsV, by simpa using hholdsU⟩

/-- A fragment is accepted exactly when the inputs can be read, the signature is that of the
given address, and the equations are accepted. -/
theorem validateCFrag_eq_some {evm : Evm} {capsuleBytes cFragBytes precomputedBytes : Bytes} :
    validateCFrag evm capsuleBytes cFragBytes precomputedBytes = some true ↔
      ∃ capsule cFrag precomputed, toCapsule capsuleBytes = some capsule ∧
        toCapsuleFrag cFragBytes = some cFrag ∧
        toPreComputedData precomputedBytes = some precomputed ∧
        recoverSigner evm cFrag precomputed = some precomputed.alicesKeyAsAddress ∧
        checkEquations evm capsule cFrag precomputed = some true := by
  simp only [validateCFrag, Option.bind_eq_bind, Option.bind_eq_some_iff, require_eq_some,
    exists_const, decide_eq_true_eq]
  constructor
  · rintro ⟨capsule, hcapsule, cFrag, hcFrag, precomputed, hprecomputed, signer, hsigner, rfl,
      hequations⟩
    exact ⟨capsule, cFrag, precomputed, hcapsule, hcFrag, hprecomputed, hsigner, hequations⟩
  · rintro ⟨capsule, cFrag, precomputed, hcapsule, hcFrag, hprecomputed, hsigner, hequations⟩
    exact ⟨capsule, hcapsule, cFrag, hcFrag, precomputed, hprecomputed, _, hsigner, rfl,
      hequations⟩

end ReEncryption

end NuLink
