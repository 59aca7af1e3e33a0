import Mathlib.Data.Nat.Digits.Lemmas
import NuLinkCore.Contracts.Evm

/-!
# Recovering signers

The Solidity library {lit}`SignatureVerifier` is a wrapper of the precompile that recovers the
address of a signer.  Verification compares it with the address of a public key.

Main results:

- Theorem {lit}`SignatureVerifier.recover_eq_some`: when an address is recovered, and which.
- Theorem {lit}`SignatureVerifier.textOfLength_eq`: the length of a message is written in
  decimal digits.
- Theorem {lit}`SignatureVerifier.hashEIP191_versionE_preimage`: the bytes that are hashed for
  version E.
- Theorem {lit}`SignatureVerifier.hashEIP191_isSome_iff`: which messages have a hash.
- Theorems {lit}`SignatureVerifier.verify_eq_some_true` and
  {lit}`SignatureVerifier.verifyEIP191_eq_some_true`: what is verified.
-/

namespace NuLink
namespace SignatureVerifier

open Evm

/-- The recovery value in the form that the precompile expects. -/
def versionOf (v : Nat) : Nat := if v < 27 then v + 27 else v

/-- {lit}`SignatureVerifier.recover`: the signature is 32 bytes r, 32 bytes s and 1 byte v. -/
def recover (evm : Evm) (hash : Nat) (signature : Bytes) : Option Nat := do
  require (signature.length = 65)
  let r := mload signature 0
  let s := mload signature 32
  let v := versionOf (firstByte (mload signature 64))
  require (v = 27 ∨ v = 28)
  return evm.ecrecover hash v r s

theorem recover_eq_some {evm : Evm} {hash signer : Nat} {signature : Bytes} :
    recover evm hash signature = some signer ↔
      signature.length = 65 ∧
        (versionOf (firstByte (mload signature 64)) = 27 ∨
          versionOf (firstByte (mload signature 64)) = 28) ∧
        evm.ecrecover hash (versionOf (firstByte (mload signature 64))) (mload signature 0)
          (mload signature 32) = signer := by
  simp [recover, Option.bind_eq_some_iff]

/-! ## Hashing -/

/-- The machine with its other hash functions, and the address of the contract that runs. -/
structure Context extends Evm where
  sha256 : Bytes → Nat
  /-- The value of the 20 bytes of the hash. -/
  ripemd160 : Bytes → Nat
  self : Nat

inductive HashAlgorithm where
  | keccak256
  | sha256
  | ripemd160
deriving DecidableEq, Repr

/-- {lit}`hash`; a hash of 20 bytes is padded at the end. -/
def hash (context : Context) (message : Bytes) : HashAlgorithm → Nat
  | .keccak256 => context.keccak256 message
  | .sha256 => context.sha256 message
  | .ripemd160 => context.ripemd160 message * 2 ^ 96

/-- {lit}`toAddress`. -/
def toAddress (evm : Evm) (publicKey : Bytes) : Nat := evm.keccak256 publicKey % 2 ^ 160

/-- The loop that counts the digits of the length. -/
def countDigits (length digits : Nat) : Nat :=
  if length = 0 then digits else countDigits (length / 10) (digits + 1)
termination_by length
decreasing_by omega

/-- The loop that writes the digits of the length, from the last one. -/
def writeDigits (text : Bytes) (index length : Nat) : Option Bytes :=
  if length = 0 then some text
  else do
    let index ← checkedSub index 1
    require (index < text.length)
    writeDigits (text.set index (UInt8.ofNat (48 + length % 10))) index (length / 10)
termination_by length
decreasing_by omega

/-- The length of a message as text. -/
def textOfLength (length : Nat) : Option Bytes :=
  let digits := countDigits length 0
  writeDigits (List.replicate digits 0) digits length

/-- {lit}`EIP191_VERSION_E_HEADER`. -/
def eip191VersionEHeader : Bytes :=
  "Ethereum Signed Message:\n".toList.map fun c => UInt8.ofNat c.toNat

/-- {lit}`hashEIP191`. -/
def hashEIP191 (context : Context) (message : Bytes) (version : UInt8) : Option Nat :=
  if version = 0x00 then
    some (context.keccak256
      ([0x19] ++ [0x00] ++ (wordBytes context.self).drop 12 ++ message))
  else if version = 0x45 then do
    require (0 < message.length)
    let lengthAsText ← textOfLength message.length
    return context.keccak256 ([0x19] ++ eip191VersionEHeader ++ lengthAsText ++ message)
  else none

/-! ## Verification -/

/-- The address of a public key is compared with the recovered one. -/
def isSignedBy (evm : Evm) (hash : Nat) (signature publicKey : Bytes) : Option Bool := do
  let signer ← recover evm hash signature
  return toAddress evm publicKey == signer

/-- {lit}`verify`. -/
def verify (context : Context) (message signature publicKey : Bytes)
    (algorithm : HashAlgorithm) : Option Bool := do
  require (publicKey.length = 64)
  isSignedBy context.toEvm (hash context message algorithm) signature publicKey

/-- {lit}`verifyEIP191`. -/
def verifyEIP191 (context : Context) (message signature publicKey : Bytes)
    (version : UInt8) : Option Bool := do
  require (publicKey.length = 64)
  let hash ← hashEIP191 context message version
  isSignedBy context.toEvm hash signature publicKey

/-! ## Lengths in decimal -/

/-- The decimal digits of a number. -/
def decimal (n : Nat) : Bytes := (Nat.digits 10 n).reverse.map fun d => UInt8.ofNat (48 + d)

theorem decimal_of_ne_zero {n : Nat} (h : n ≠ 0) :
    decimal n = decimal (n / 10) ++ [UInt8.ofNat (48 + n % 10)] := by
  rw [decimal, Nat.digits_of_two_le_of_pos (by decide) (Nat.pos_of_ne_zero h)]
  simp [decimal]

theorem countDigits_eq (length digits : Nat) :
    countDigits length digits = digits + (decimal length).length := by
  induction length, digits using countDigits.induct with
  | case1 digits =>
      rw [countDigits, if_pos rfl]
      rfl
  | case2 length digits h ih =>
      rw [countDigits, if_neg h, ih, decimal_of_ne_zero h, List.length_append,
        List.length_singleton]
      omega

/-- One round of the loop. -/
theorem writeDigits_step (front : Bytes) (byte : UInt8) (back : Bytes) {length : Nat}
    (h : length ≠ 0) :
    writeDigits (front ++ byte :: back) (front.length + 1) length =
      writeDigits (front ++ UInt8.ofNat (48 + length % 10) :: back) front.length
        (length / 10) := by
  rw [writeDigits, if_neg h]
  simp [checkedSub, require]

/-- The loop writes the digits in front of the index. -/
theorem writeDigits_eq (front back : Bytes) (length : Nat)
    (h : front.length = (decimal length).length) :
    writeDigits (front ++ back) front.length length = some (decimal length ++ back) := by
  induction length using Nat.strong_induction_on generalizing front back with
  | _ length ih =>
      by_cases hzero : length = 0
      · subst hzero
        have hnil : front = [] := List.length_eq_zero_iff.mp h
        rw [hnil, writeDigits, if_pos rfl]
        rfl
      · rw [decimal_of_ne_zero hzero, List.length_append, List.length_singleton] at h
        rcases List.eq_nil_or_concat front with rfl | ⟨init, last, rfl⟩
        · simp at h
        · have hinit : init.length = (decimal (length / 10)).length := by simpa using h
          have hsmaller : length / 10 < length := by omega
          rw [List.concat_eq_append, List.append_assoc, List.singleton_append,
            List.length_append, List.length_singleton, writeDigits_step _ _ _ hzero,
            ih _ hsmaller init _ hinit, decimal_of_ne_zero hzero, List.append_assoc,
            List.singleton_append]

/-- The length is written in decimal digits. -/
theorem textOfLength_eq (length : Nat) : textOfLength length = some (decimal length) := by
  have hwritten := writeDigits_eq (List.replicate (decimal length).length 0) [] length (by simp)
  rw [List.append_nil, List.append_nil, List.length_replicate] at hwritten
  simpa only [textOfLength, countDigits_eq, Nat.zero_add] using hwritten

/-- The bytes of an ASCII text. -/
def asciiBytes (text : String) : Bytes := text.toList.map fun c => UInt8.ofNat c.toNat

/-- The digits are those of the numeral. -/
theorem asciiBytes_repr {n : Nat} (h : n ≠ 0) : asciiBytes n.repr = decimal n := by
  rw [asciiBytes, Nat.toList_repr]
  induction n using Nat.strong_induction_on with
  | _ n ih =>
      rw [decimal_of_ne_zero h]
      rcases lt_or_ge n 10 with hlt | hge
      · have hzero : n / 10 = 0 := Nat.div_eq_of_lt hlt
        rw [Nat.toDigits_of_lt_base hlt, hzero, Nat.mod_eq_of_lt hlt, List.map_singleton,
          Nat.toNat_digitChar_of_lt_ten hlt]
        rfl
      · have hlast : n % 10 < 10 := Nat.mod_lt n (by decide)
        rw [Nat.toDigits_of_base_le (by decide) hge, List.map_append, ih (n / 10) (by omega)
          (by omega), List.map_singleton, Nat.toNat_digitChar_of_lt_ten hlast]

/-- The first digit is no zero. -/
theorem head?_decimal_ne (n : Nat) : (decimal n).head? ≠ some 48 := by
  intro hzero
  rw [decimal, List.head?_map, List.head?_reverse, Option.map_eq_some_iff] at hzero
  rcases hzero with ⟨d, hlast, hbyte⟩
  have hmem : d ∈ Nat.digits 10 n := List.mem_of_getLast? hlast
  have hlt : d < 10 := Nat.digits_lt_base (by decide) hmem
  have hd : d = 0 := by
    have hvalue : (UInt8.ofNat (48 + d)).toNat = 48 := congrArg UInt8.toNat hbyte
    rw [UInt8.toNat_ofNat'] at hvalue
    omega
  have hn : n ≠ 0 := Nat.digits_ne_nil_iff_ne_zero.mp (List.ne_nil_of_mem hmem)
  rw [List.getLast?_eq_some_getLast (List.ne_nil_of_mem hmem), Option.some.injEq] at hlast
  exact Nat.getLast_digit_ne_zero 10 hn (hlast.trans hd)

/-- A message that is not empty has a hash of version E. -/
theorem hashEIP191_versionE {context : Context} {message : Bytes} (h : message ≠ []) :
    hashEIP191 context message 0x45 =
      some (context.keccak256
        ([0x19] ++ eip191VersionEHeader ++ decimal message.length ++ message)) := by
  have hlength : require (0 < message.length) = some () := by
    simpa using List.length_pos_iff.mpr h
  rw [hashEIP191, if_neg (by decide), if_pos rfl, hlength, textOfLength_eq]
  rfl

/-- What is hashed for version E: the header, the decimal numeral of the length and the message.
Both loops end; the first one counts the digits that the second one writes, which stays inside of
the text. -/
theorem hashEIP191_versionE_preimage (context : Context) {message : Bytes}
    (h : message ≠ []) :
    let digits := countDigits message.length 0
    let lengthAsText := asciiBytes (toString message.length)
    digits = lengthAsText.length ∧
      writeDigits (List.replicate digits 0) digits message.length = some lengthAsText ∧
      lengthAsText.head? ≠ some 48 ∧
      hashEIP191 context message 0x45 =
        some (context.keccak256
          ([0x19] ++ asciiBytes "Ethereum Signed Message:\n" ++ lengthAsText ++ message)) := by
  intro digits lengthAsText
  have hpositive : message.length ≠ 0 := mt List.length_eq_zero_iff.mp h
  have htext : lengthAsText = decimal message.length := asciiBytes_repr hpositive
  have hdigits : digits = (decimal message.length).length := by
    rw [show digits = countDigits message.length 0 from rfl, countDigits_eq, Nat.zero_add]
  refine ⟨by rw [hdigits, htext], ?_, ?_, ?_⟩
  · rw [htext]
    exact textOfLength_eq message.length
  · rw [htext]
    exact head?_decimal_ne message.length
  · rw [htext, hashEIP191_versionE h]
    rfl

/-- A machine whose hash of a byte string is its value. -/
def plainContext : Context where
  keccak256 := bigEndian
  ecrecover _ _ _ _ := 0
  sha256 := bigEndian
  ripemd160 := bigEndian
  self := 0

/-- A message of ten bytes, where the numeral gets its second digit. -/
theorem hashEIP191_versionE_preimage_sample :
    hashEIP191 plainContext (List.replicate 10 0x61) 0x45 =
      some (bigEndian ([0x19] ++ asciiBytes "Ethereum Signed Message:\n" ++ asciiBytes "10" ++
        List.replicate 10 0x61)) :=
  (hashEIP191_versionE_preimage plainContext (List.cons_ne_nil 0x61 _)).2.2.2

/-- The messages that have a hash. -/
theorem hashEIP191_isSome_iff {context : Context} {message : Bytes} {version : UInt8} :
    (hashEIP191 context message version).isSome ↔
      version = 0x00 ∨ version = 0x45 ∧ message ≠ [] := by
  by_cases hzero : version = 0x00
  · simp only [hashEIP191, hzero, if_true, Option.isSome_some, true_or]
  · by_cases hE : version = 0x45
    · subst hE
      by_cases hmessage : message = []
      · subst hmessage
        have hnone : hashEIP191 context [] 0x45 = none := rfl
        simp only [hnone, hzero, ne_eq, not_true_eq_false, and_false, or_false,
          Option.isSome_none, Bool.false_eq_true]
      · rw [hashEIP191_versionE hmessage]
        simp only [Option.isSome_some, true_and, true_iff]
        exact Or.inr hmessage
    · simp only [hashEIP191, hzero, hE, if_false, Option.isSome_none, Bool.false_eq_true,
        false_and, or_self]

/-! ## What is verified -/

theorem isSignedBy_eq_some_true {evm : Evm} {hash : Nat} {signature publicKey : Bytes} :
    isSignedBy evm hash signature publicKey = some true ↔
      recover evm hash signature = some (toAddress evm publicKey) := by
  cases hsigner : recover evm hash signature with
  | none => simp [isSignedBy, hsigner]
  | some signer =>
      have hsigned : isSignedBy evm hash signature publicKey =
          some (toAddress evm publicKey == signer) := by
        rw [isSignedBy, hsigner]
        rfl
      rw [hsigned, Option.some.injEq, beq_iff_eq, Option.some.injEq]
      exact eq_comm

theorem verify_eq_some_true {context : Context} {message signature publicKey : Bytes}
    {algorithm : HashAlgorithm} :
    verify context message signature publicKey algorithm = some true ↔
      publicKey.length = 64 ∧
        recover context.toEvm (hash context message algorithm) signature =
          some (toAddress context.toEvm publicKey) := by
  simp [verify, Option.bind_eq_some_iff, isSignedBy_eq_some_true]

theorem verifyEIP191_eq_some_true {context : Context} {message signature publicKey : Bytes}
    {version : UInt8} :
    verifyEIP191 context message signature publicKey version = some true ↔
      publicKey.length = 64 ∧ ∃ hash, hashEIP191 context message version = some hash ∧
        recover context.toEvm hash signature = some (toAddress context.toEvm publicKey) := by
  simp [verifyEIP191, Option.bind_eq_some_iff, isSignedBy_eq_some_true]

end SignatureVerifier

end NuLink
