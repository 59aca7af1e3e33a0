import NuLinkCore.Contracts.ReEncryption.Soundness
import NuLinkCore.Contracts.Words
import NuLinkCore.Lib.Ecdsa

/-!
# Whose signatures are accepted

The precompile that recovers signers is assumed to return the address of a recovered public key,
and the zero address when no key is recovered.  Verification against a public key then accepts
only valid signatures.  The signature of a capsule fragment is compared with an address that the
prover supplies, so that the zero address lets every invalid signature pass.

Main results:

- Theorem {lit}`order_nsmul_generator`: the order of secp256k1 takes its generator to zero.
- Theorem {lit}`Lawful.recover_eq_zero_iff`: when the zero address is recovered.
- Theorem {lit}`kFragSignature_sound_iff`: when the check of a capsule fragment's signature is
  sound, and that verification against public keys is.
-/

namespace NuLink
namespace ReEncryption

open Evm Umbral SignatureVerifier WeierstrassCurve

/-! ## The signature scheme -/

def generatorX : Nat := 0x79BE667EF9DCBBAC55A06295CE870B07029BFCDB2DCE28D959F2815B16F81798

def generatorY : Nat := 0x483ADA7726A3C4655DA4FBFC0E1108A8FD17B448A68554199C47D08FFB10D4B8

theorem exists_generator : ∃ G, Represents generatorX generatorY G := by
  apply isOnCurve_iff.mp
  decide +kernel

noncomputable def generator : Group := exists_generator.choose

theorem represents_generator : Represents generatorX generatorY generator :=
  exists_generator.choose_spec

/-- Signatures over secp256k1. -/
noncomputable def secp256k1 : Ecdsa.Domain Group where
  generator := generator
  order := curveOrder
  nonce parity r R := ∃ y, Represents r y R ∧ y % 2 = parity

theorem Represents.neg {x y : Nat} {P : Group} (hP : Represents x y P) (hy : 0 < y) :
    Represents x (fieldOrder - y) (-P) where
  x_lt := hP.x_lt
  y_lt := Nat.sub_lt fieldOrder_pos hy
  eq_some := by
    rcases hP.eq_some with ⟨h, rfl⟩
    have hcoordinate : (MixedAddition.curve (7 : Fp)).toAffine.negY (x : Fp) y =
        ((fieldOrder - y : Nat) : Fp) := by
      rw [sub_cast hP.y_lt.le]
      simp [Affine.negY, MixedAddition.curve]
    refine ⟨hcoordinate ▸ (Affine.nonsingular_neg _ _).mpr h, ?_⟩
    rw [Affine.Point.neg_some, Affine.Point.some.injEq]
    exact ⟨rfl, hcoordinate⟩

/-- The order takes the generator to zero. -/
theorem order_nsmul_generator : curveOrder • generator = 0 := by
  have hcomputed : (multiple (generatorX, generatorY) 256 (curveOrder - 1)).map
      (eqAffineJacobian (generatorX, fieldOrder - generatorY)) = some true := by
    decide +kernel
  have hmultiple : Represents generatorX (fieldOrder - generatorY)
      ((curveOrder - 1) • generator) :=
    represents_multiple represents_generator (by decide +kernel) hcomputed
  have hneg : (curveOrder - 1) • generator = -generator :=
    hmultiple.unique (represents_generator.neg (by decide))
  calc curveOrder • generator = (curveOrder - 1 + 1) • generator := rfl
    _ = 0 := by rw [succ_nsmul, hneg, neg_add_cancel]

/-! ## Recovered addresses -/

/-- A signature recovers a public key with an address. -/
def RecoversTo (evm : Evm) (hash v r s address : Nat) : Prop :=
  (v = 27 ∨ v = 28) ∧ ∃ x y key, Represents x y key ∧
    secp256k1.Recovers hash (v - 27) r s key ∧
      address = toAddress evm (wordBytes x ++ wordBytes y)

/-- What is assumed of the precompile and of the hash function: the address of a recovered key
is returned, and zero if there is none; and the address of no public key is zero. -/
structure Lawful (evm : Evm) : Prop where
  ecrecover_valid : ∀ hash v r s, (∃ address, RecoversTo evm hash v r s address) →
    RecoversTo evm hash v r s (evm.ecrecover hash v r s)
  ecrecover_invalid : ∀ hash v r s, (¬ ∃ address, RecoversTo evm hash v r s address) →
    evm.ecrecover hash v r s = 0
  toAddress_ne_zero : ∀ publicKey : Bytes, publicKey.length = 64 → toAddress evm publicKey ≠ 0

/-- The recovery value of a signature of 65 bytes. -/
def recoveryValue (signature : Bytes) : Nat := versionOf (signature.getD 64 0).toNat

/-- A signature of 65 bytes is valid for a hash and an address: the bytes are those of r, s
and v. -/
def SignedBy (evm : Evm) (hash : Nat) (signature : Bytes) (address : Nat) : Prop :=
  signature.length = 65 ∧ RecoversTo evm hash (recoveryValue signature)
    (bigEndian (signature.take 32)) (bigEndian ((signature.drop 32).take 32)) address

/-- What is recovered, in terms of the bytes of the signature. -/
theorem recover_eq_some_iff {evm : Evm} {hash signer : Nat} {signature : Bytes} :
    recover evm hash signature = some signer ↔
      signature.length = 65 ∧ (recoveryValue signature = 27 ∨ recoveryValue signature = 28) ∧
        evm.ecrecover hash (recoveryValue signature) (bigEndian (signature.take 32))
          (bigEndian ((signature.drop 32).take 32)) = signer := by
  rw [recover_eq_some]
  apply and_congr_right
  intro hlength
  have hr : mload signature 0 = bigEndian (signature.take 32) := by
    rw [mload_eq (by omega), List.drop_zero]
  have hs : mload signature 32 = bigEndian ((signature.drop 32).take 32) := mload_eq (by omega)
  have hv : versionOf (firstByte (mload signature 64)) = recoveryValue signature := by
    have hindex : 64 < signature.length := by omega
    rw [firstByte_mload hindex, recoveryValue,
      List.getElem_eq_getD 0]
  rw [hr, hs, hv]

namespace Lawful

variable {evm : Evm} (h : Lawful evm) {hash address : Nat} {signature : Bytes}

include h

/-- The address of a valid signature is not zero. -/
theorem signer_ne_zero (hsigned : SignedBy evm hash signature address) : address ≠ 0 := by
  rcases hsigned with ⟨-, -, x, y, key, -, -, rfl⟩
  apply h.toAddress_ne_zero
  rw [List.length_append, length_wordBytes, length_wordBytes]

/-- An address other than zero is recovered from valid signatures only. -/
theorem signedBy_of_recover (hrecover : recover evm hash signature = some address)
    (hne : address ≠ 0) : SignedBy evm hash signature address := by
  rcases recover_eq_some_iff.mp hrecover with ⟨hlength, -, rfl⟩
  refine ⟨hlength, h.ecrecover_valid _ _ _ _ ?_⟩
  by_contra hnone
  exact hne (h.ecrecover_invalid _ _ _ _ hnone)

/-- The zero address is recovered from the invalid signatures with a proper recovery value. -/
theorem recover_eq_zero_iff :
    recover evm hash signature = some 0 ↔
      signature.length = 65 ∧ (recoveryValue signature = 27 ∨ recoveryValue signature = 28) ∧
        ¬ ∃ signer, SignedBy evm hash signature signer := by
  rw [recover_eq_some_iff]
  apply and_congr_right
  intro hlength
  apply and_congr_right
  intro _
  constructor
  · rintro hzero ⟨signer, hsigned⟩
    have hvalid := h.ecrecover_valid _ _ _ _ ⟨signer, hsigned.2⟩
    exact h.signer_ne_zero ⟨hlength, hvalid⟩ hzero
  · intro hnone
    apply h.ecrecover_invalid
    rintro ⟨signer, hsigner⟩
    exact hnone ⟨signer, hlength, hsigner⟩

end Lawful

/-! ## Capsule fragments -/

namespace Inputs

/-- The signature of the fragment with its recovery byte. -/
def kFragSignature (inputs : Inputs) : Bytes :=
  inputs.cFrag.proof.kFragSignature ++ inputs.precomputed.lostBytes.take 1

/-- What the check of the signature is for. -/
def SignatureValid (inputs : Inputs) (evm : Evm) : Prop :=
  SignedBy evm inputs.precomputed.hashedKFragValidityMessage inputs.kFragSignature
    inputs.precomputed.alicesKeyAsAddress

/-- The signature has 64 bytes, and there is a recovery byte. -/
theorem ReadFrom.length_kFragSignature {inputs : Inputs}
    {capsuleBytes cFragBytes precomputedBytes : Bytes}
    (hread : inputs.ReadFrom capsuleBytes cFragBytes precomputedBytes) :
    inputs.kFragSignature.length = 65 := by
  have hsignature : inputs.cFrag.proof.kFragSignature.length = 64 :=
    Umbral.length_kFragSignature hread.cFrag
  have hlost : inputs.precomputed.lostBytes.length = 5 := by
    have hprecomputed := hread.precomputed
    simp only [toPreComputedData] at hprecomputed
    split_ifs at hprecomputed
    simp only [Option.some.injEq] at hprecomputed
    rw [← hprecomputed]
    simp [length_wordBytes]
  rw [kFragSignature, List.length_append, List.length_take, hsignature, hlost]
  rfl

end Inputs

/-- A fragment that is not refused passes the check of the signature. -/
theorem signatureChecks_of_validateCFrag {evm : Evm}
    {capsuleBytes cFragBytes precomputedBytes : Bytes} {valid : Bool}
    (hvalid : validateCFrag evm capsuleBytes cFragBytes precomputedBytes = some valid)
    {inputs : Inputs} (hread : inputs.ReadFrom capsuleBytes cFragBytes precomputedBytes) :
    inputs.SignatureChecks evm := by
  simp only [validateCFrag, hread.capsule, hread.cFrag, hread.precomputed, Option.bind_eq_bind,
    Option.bind_some, Option.bind_eq_some_iff, require_eq_some, decide_eq_true_eq] at hvalid
  rcases hvalid with ⟨signer, hsigner, _, rfl, -⟩
  exact hsigner

/-- A signature that passes the check is valid, unless the supplied address is zero. -/
theorem Lawful.signatureValid_iff {evm : Evm} (h : Lawful evm) {inputs : Inputs}
    {capsuleBytes cFragBytes precomputedBytes : Bytes}
    (hread : inputs.ReadFrom capsuleBytes cFragBytes precomputedBytes) :
    (inputs.SignatureChecks evm → inputs.SignatureValid evm) ↔
      (inputs.precomputed.alicesKeyAsAddress = 0 →
        recoveryValue inputs.kFragSignature = 27 ∨ recoveryValue inputs.kFragSignature = 28 →
          ∃ signer, SignedBy evm inputs.precomputed.hashedKFragValidityMessage
            inputs.kFragSignature signer) := by
  constructor
  · intro hsound hzero hvalue
    by_contra hnone
    have hchecks : inputs.SignatureChecks evm := by
      rw [Inputs.SignatureChecks, hzero]
      exact h.recover_eq_zero_iff.mpr ⟨hread.length_kFragSignature, hvalue, hnone⟩
    exact hnone ⟨_, hsound hchecks⟩
  · intro hcondition hchecks
    by_cases hzero : inputs.precomputed.alicesKeyAsAddress = 0
    · rw [Inputs.SignatureChecks, hzero] at hchecks
      rcases h.recover_eq_zero_iff.mp hchecks with ⟨-, hvalue, hnone⟩
      exact absurd (hcondition hzero hvalue) hnone
    · exact h.signedBy_of_recover hchecks hzero

/-- A signature that passes the check of a capsule fragment is valid for the supplied address
exactly when this address is not zero, or the recovery value is not proper, or some key is
recovered; and what is verified against a public key is a valid signature. -/
theorem kFragSignature_sound_iff {context : Context} (h : Lawful context.toEvm) :
    (∀ capsuleBytes cFragBytes precomputedBytes,
      (∀ inputs : Inputs, inputs.ReadFrom capsuleBytes cFragBytes precomputedBytes →
        inputs.SignatureChecks context.toEvm → inputs.SignatureValid context.toEvm) ↔
      ∀ inputs : Inputs, inputs.ReadFrom capsuleBytes cFragBytes precomputedBytes →
        inputs.precomputed.alicesKeyAsAddress = 0 →
          recoveryValue inputs.kFragSignature = 27 ∨ recoveryValue inputs.kFragSignature = 28 →
            ∃ signer, SignedBy context.toEvm inputs.precomputed.hashedKFragValidityMessage
              inputs.kFragSignature signer) ∧
    (∀ message signature publicKey algorithm,
      verify context message signature publicKey algorithm = some true →
        SignedBy context.toEvm (hash context message algorithm) signature
          (toAddress context.toEvm publicKey)) ∧
    ∀ message signature publicKey version,
      verifyEIP191 context message signature publicKey version = some true →
        ∃ hash, hashEIP191 context message version = some hash ∧
          SignedBy context.toEvm hash signature (toAddress context.toEvm publicKey) := by
  refine ⟨?_, ?_, ?_⟩
  · intro capsuleBytes cFragBytes precomputedBytes
    apply forall_congr'
    intro inputs
    apply forall_congr'
    intro hread
    exact h.signatureValid_iff hread
  · intro message signature publicKey algorithm hverify
    rcases verify_eq_some_true.mp hverify with ⟨hlength, hrecover⟩
    exact h.signedBy_of_recover hrecover (h.toAddress_ne_zero publicKey hlength)
  · intro message signature publicKey version hverify
    rcases verifyEIP191_eq_some_true.mp hverify with ⟨hlength, hash, hhash, hrecover⟩
    exact ⟨hash, hhash, h.signedBy_of_recover hrecover (h.toAddress_ne_zero publicKey hlength)⟩

/-! ## A sample

The empty message is signed with the secret 1, and with 1 for the nonce too. -/

/-- The hash of the public key of the secret 1, and one for everything else. -/
def generatorKeccak (data : Bytes) : Nat :=
  if data = wordBytes generatorX ++ wordBytes generatorY then
    0xc0a6c424ac7157ae408398df7e5f4552091a69125d5dfcb7b8c2659029395bdf
  else 1

/-- The hash of the empty message. -/
def emptyHash : Nat := 0xe3b0c44298fc1c149afbf4c8996fb92427ae41e4649b934ca495991b7852b855

def emptyS : Nat := 0x5d6f2ac192d8d7c0f09c575e67f6c42c6f9b61d8e3211bea3eb5bbe9bf148eac

/-- The signature of the sample recovers the generator; otherwise some recovered address is
returned, or zero. -/
noncomputable def recoveryEvm : Evm where
  keccak256 := generatorKeccak
  ecrecover hash v r s :=
    if hash = emptyHash ∧ v = 27 ∧ r = generatorX ∧ s = emptyS then sampleAddress
    else
      open Classical in
      if h : ∃ address, RecoversTo ⟨generatorKeccak, fun _ _ _ _ => 0⟩ hash v r s address then
        h.choose
      else 0

theorem ecrecover_sample :
    recoveryEvm.ecrecover emptyHash 27 generatorX emptyS = sampleAddress := by
  simp only [recoveryEvm, and_self, if_true]

theorem recoversTo_sample :
    RecoversTo recoveryEvm emptyHash 27 generatorX emptyS sampleAddress := by
  have hone : 1 • secp256k1.generator = generator := one_nsmul generator
  refine ⟨Or.inl rfl, generatorX, generatorY, 1 • secp256k1.generator, ?_, ?_, by decide +kernel⟩
  · rw [hone]
    exact represents_generator
  · have horder : secp256k1.order • secp256k1.generator = 0 := order_nsmul_generator
    apply Ecdsa.Domain.recovers_of_sign horder (k := 1)
    · exact ⟨by decide, by decide⟩
    · exact ⟨by decide, by decide⟩
    · rw [hone]
      exact ⟨generatorY, represents_generator, by decide⟩
    · have hmod : emptyS * 1 % curveOrder = (emptyHash + generatorX * 1) % curveOrder := by decide
      exact hmod

theorem recoveryEvm_lawful : Lawful recoveryEvm where
  ecrecover_valid := by
    intro hash v r s hexists
    simp only [recoveryEvm]
    split_ifs with hsample hother
    · rcases hsample with ⟨rfl, rfl, rfl, rfl⟩
      exact recoversTo_sample
    · exact hother.choose_spec
    · exact absurd hexists hother
  ecrecover_invalid := by
    intro hash v r s hnone
    simp only [recoveryEvm]
    split_ifs with hsample hother
    · rcases hsample with ⟨rfl, rfl, rfl, rfl⟩
      exact absurd ⟨_, recoversTo_sample⟩ hnone
    · exact absurd hother hnone
    · rfl
  toAddress_ne_zero := by
    intro publicKey _
    simp only [toAddress, recoveryEvm, generatorKeccak]
    split_ifs <;> decide

/-- The hash of every message is the one of the empty message. -/
noncomputable def recoveryContext : Context where
  toEvm := recoveryEvm
  sha256 _ := emptyHash
  ripemd160 _ := 0
  self := 0

def generatorKey : Bytes := wordBytes generatorX ++ wordBytes generatorY

def emptySignature : Bytes := wordBytes generatorX ++ wordBytes emptyS ++ [27]

theorem kFragSignature_sound_iff_sample :
    verify recoveryContext [] emptySignature generatorKey .sha256 = some true ∧
      SignedBy recoveryContext.toEvm (hash recoveryContext [] .sha256) emptySignature
        (toAddress recoveryContext.toEvm generatorKey) := by
  have hvalue : recoveryValue emptySignature = 27 := by decide +kernel
  have hr : bigEndian (emptySignature.take 32) = generatorX := by decide +kernel
  have hs : bigEndian ((emptySignature.drop 32).take 32) = emptyS := by decide +kernel
  have haddress : toAddress recoveryContext.toEvm generatorKey = sampleAddress := by
    decide +kernel
  have hrecover : recover recoveryContext.toEvm (hash recoveryContext [] .sha256) emptySignature =
      some (toAddress recoveryContext.toEvm generatorKey) := by
    rw [recover_eq_some_iff, hvalue, hr, hs, haddress]
    exact ⟨by decide +kernel, Or.inl rfl, ecrecover_sample⟩
  have hverify : verify recoveryContext [] emptySignature generatorKey .sha256 = some true :=
    verify_eq_some_true.mpr ⟨by decide +kernel, hrecover⟩
  exact ⟨hverify, (kFragSignature_sound_iff recoveryEvm_lawful).2.1 _ _ _ _ hverify⟩

/-! ## The zero address -/

/-- Inputs of zeros. -/
def zeroInputs : Inputs where
  capsule := ⟨⟨0, 0⟩, ⟨0, 0⟩, 0⟩
  cFrag := ⟨⟨0, 0⟩, ⟨0, 0⟩, 0, ⟨0, 0⟩, ⟨0, 0⟩, ⟨0, 0⟩, ⟨0, 0⟩, ⟨0, 0⟩, 0, List.replicate 64 0, []⟩
  precomputed := ⟨0, 0, 0, 0, 0, 0, 0, 0, 0, 0, 0, 0, 0, 0, 0, 0, 0, 0, 0, 0, 0, 0,
    List.replicate 5 0⟩

theorem readFrom_zeros : zeroInputs.ReadFrom (List.replicate 98 0) (List.replicate 359 0)
    (List.replicate 697 0) where
  capsule := by decide +kernel
  cFrag := by decide +kernel
  precomputed := by decide +kernel

/-- A signature of zeros is accepted for the zero address. -/
theorem zero_signature_accepted :
    Lawful recoveryContext.toEvm ∧
      zeroInputs.ReadFrom (List.replicate 98 0) (List.replicate 359 0) (List.replicate 697 0) ∧
        zeroInputs.SignatureChecks recoveryContext.toEvm ∧
          ¬ zeroInputs.SignatureValid recoveryContext.toEvm := by
  have hr : bigEndian (zeroInputs.kFragSignature.take 32) = 0 := by decide +kernel
  have hnone : ¬ ∃ signer, SignedBy recoveryContext.toEvm
      zeroInputs.precomputed.hashedKFragValidityMessage zeroInputs.kFragSignature signer := by
    rintro ⟨signer, -, -, x, y, key, -, hrecovers, -⟩
    rw [hr] at hrecovers
    exact absurd hrecovers.r_pos (Nat.lt_irrefl 0)
  refine ⟨recoveryEvm_lawful, readFrom_zeros, ?_, ?_⟩
  · have hvalue : recoveryValue zeroInputs.kFragSignature = 27 := by decide +kernel
    exact Lawful.recover_eq_zero_iff recoveryEvm_lawful |>.mpr
      ⟨readFrom_zeros.length_kFragSignature, Or.inl hvalue, hnone⟩
  · intro hvalid
    exact hnone ⟨_, hvalid⟩

end ReEncryption

end NuLink
