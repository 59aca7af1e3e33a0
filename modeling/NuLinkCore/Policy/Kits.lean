import NuLinkCore.Lib.Dict
import NuLinkCore.Network.NodeMetadata

/-!
# Message kits and retrieval results

A message kit is loaded with the capsule fragments that were obtained for its capsule,
under the addresses of the nodes they came from.  Addresses occur in two forms: the
twenty bytes that treasure maps and retrieval kits use, and the checksummed text under
which nodes are known.

Main results:

- Theorem {lit}`PolicyMessageKit.isDecryptable_withResult`: a kit is decryptable after a
  result when the addresses of both together are enough.
- Definition {lit}`hexCodec`: the hexadecimal form of an address can be read back.
-/

namespace NuLink

open Collections

/-- An address as bytes. -/
structure CanonicalAddress where
  bytes : Bytes
  length_eq : bytes.length = 20
deriving DecidableEq

/-- The bytes of an address as numbers, by which addresses are ordered. -/
def CanonicalAddress.digits (address : CanonicalAddress) : List Nat :=
  address.bytes.map UInt8.toNat

theorem CanonicalAddress.digits_injective : Function.Injective CanonicalAddress.digits := by
  intro a b h
  have hbytes : a.bytes = b.bytes :=
    List.map_injective_iff.mpr (fun _ _ => UInt8.toNat_inj.mp) h
  cases a
  cases b
  cases hbytes
  rfl

instance : LinearOrder CanonicalAddress :=
  LinearOrder.lift' CanonicalAddress.digits CanonicalAddress.digits_injective

/-- The conversions between the two forms of an address. -/
structure AddressCodec where
  toChecksumAddress : CanonicalAddress → ChecksumAddress
  toCanonicalAddress : ChecksumAddress → CanonicalAddress
  canonical_checksum : ∀ address, toCanonicalAddress (toChecksumAddress address) = address

theorem AddressCodec.toChecksumAddress_injective (codec : AddressCodec) :
    Function.Injective codec.toChecksumAddress :=
  Function.LeftInverse.injective codec.canonical_checksum

/-- What a retrieval needs to know of a message kit. -/
structure RetrievalKit (Capsule : Type) where
  capsule : Capsule
  queriedAddresses : Finset CanonicalAddress

/-- The capsule fragments obtained for one capsule. -/
structure RetrievalResult (CapsuleFrag : Type) where
  cfrags : Dict ChecksumAddress CapsuleFrag

namespace RetrievalResult

variable {CapsuleFrag : Type}

/-- {lit}`RetrievalResult.empty`. -/
def empty : RetrievalResult CapsuleFrag := ⟨Dict.empty⟩

/-- {lit}`canonical_addresses`. -/
def canonicalAddresses (codec : AddressCodec) (result : RetrievalResult CapsuleFrag) :
    Finset CanonicalAddress :=
  (result.cfrags.keys.map codec.toCanonicalAddress).toFinset

/-- {lit}`with_result`: join two results, keeping the later fragment of an address. -/
def withResult (result other : RetrievalResult CapsuleFrag) : RetrievalResult CapsuleFrag :=
  ⟨result.cfrags.update other.cfrags⟩

end RetrievalResult

/-- A message kit with the fragments retrieved so far.  Of the message itself only the
capsule matters here. -/
structure PolicyMessageKit (Capsule CapsuleFrag : Type) where
  capsule : Capsule
  threshold : Nat
  result : RetrievalResult CapsuleFrag

namespace PolicyMessageKit

variable {Capsule CapsuleFrag : Type}

/-- {lit}`from_message_kit`. -/
def fromMessageKit (capsule : Capsule) (threshold : Nat) : PolicyMessageKit Capsule CapsuleFrag :=
  ⟨capsule, threshold, RetrievalResult.empty⟩

/-- {lit}`as_retrieval_kit`. -/
def asRetrievalKit (codec : AddressCodec) (kit : PolicyMessageKit Capsule CapsuleFrag) :
    RetrievalKit Capsule :=
  ⟨kit.capsule, kit.result.canonicalAddresses codec⟩

/-- {lit}`is_decryptable_by_receiver`. -/
def isDecryptableByReceiver (kit : PolicyMessageKit Capsule CapsuleFrag) : Bool :=
  decide (kit.threshold ≤ kit.result.cfrags.len)

/-- {lit}`with_result`. -/
def withResult (kit : PolicyMessageKit Capsule CapsuleFrag)
    (result : RetrievalResult CapsuleFrag) : PolicyMessageKit Capsule CapsuleFrag :=
  { kit with result := kit.result.withResult result }

/-- A kit is decryptable after a result when the addresses of its own fragments and of
the result together are enough. -/
theorem isDecryptable_withResult (codec : AddressCodec)
    (kit : PolicyMessageKit Capsule CapsuleFrag) (result : RetrievalResult CapsuleFrag)
    (h : kit.threshold ≤ ((kit.asRetrievalKit codec).queriedAddresses ∪
      result.canonicalAddresses codec).card) :
    (kit.withResult result).isDecryptableByReceiver = true := by
  have hkeys : kit.result.canonicalAddresses codec ∪ result.canonicalAddresses codec ⊆
      ((kit.result.cfrags.update result.cfrags).keys.toFinset).image
        codec.toCanonicalAddress := by
    intro address hmem
    simp only [RetrievalResult.canonicalAddresses, Finset.mem_union, List.mem_toFinset,
      List.mem_map] at hmem
    rw [Finset.mem_image]
    rcases hmem with ⟨key, hkey, rfl⟩ | ⟨key, hkey, rfl⟩
    · exact ⟨key, List.mem_toFinset.mpr (Dict.mem_keys_update.mpr (Or.inl hkey)), rfl⟩
    · exact ⟨key, List.mem_toFinset.mpr (Dict.mem_keys_update.mpr (Or.inr hkey)), rfl⟩
  have hcard : ((kit.asRetrievalKit codec).queriedAddresses ∪
      result.canonicalAddresses codec).card ≤ (kit.withResult result).result.cfrags.len :=
    calc ((kit.asRetrievalKit codec).queriedAddresses ∪ result.canonicalAddresses codec).card
        ≤ (((kit.result.cfrags.update result.cfrags).keys.toFinset).image
            codec.toCanonicalAddress).card := Finset.card_le_card hkeys
      _ ≤ ((kit.result.cfrags.update result.cfrags).keys.toFinset).card := Finset.card_image_le
      _ = (kit.result.cfrags.update result.cfrags).len := Dict.card_keys _
  rw [isDecryptableByReceiver, decide_eq_true_eq]
  exact Nat.le_trans h hcard

end PolicyMessageKit

/-! ## Hexadecimal addresses -/

/-- The digit of a number below sixteen. -/
def hexDigit (n : Nat) : Char := "0123456789abcdef".toList.getD n '0'

/-- The number of a digit. -/
def hexValue (c : Char) : Nat :=
  if c.toNat < 'a'.toNat then c.toNat - '0'.toNat else c.toNat - 'a'.toNat + 10

/-- Two digits for each byte. -/
def hexEncode (bytes : Bytes) : List Char :=
  bytes.flatMap fun byte => [hexDigit (byte.toNat / 16), hexDigit (byte.toNat % 16)]

/-- Read two digits for each byte. -/
def hexDecode : List Char → Bytes
  | high :: low :: rest => UInt8.ofNat (hexValue high * 16 + hexValue low) :: hexDecode rest
  | _ => []

theorem hexValue_hexDigit : ∀ n < 16, hexValue (hexDigit n) = n := by
  decide

theorem hexDecode_hexEncode (bytes : Bytes) : hexDecode (hexEncode bytes) = bytes := by
  induction bytes with
  | nil => rfl
  | cons byte bytes ih =>
      have hlt : byte.toNat < 256 := byte.toNat_lt
      have hhigh := hexValue_hexDigit (byte.toNat / 16) (by omega)
      have hlow := hexValue_hexDigit (byte.toNat % 16) (by omega)
      have hsum : byte.toNat / 16 * 16 + byte.toNat % 16 = byte.toNat := by omega
      have hcons : hexEncode (byte :: bytes) =
          hexDigit (byte.toNat / 16) :: hexDigit (byte.toNat % 16) :: hexEncode bytes := rfl
      rw [hcons, hexDecode, hhigh, hlow, hsum, ih, UInt8.ofNat_toNat]

/-- The hexadecimal form of an address, for addresses without letters the checksummed
one. -/
def hexCodec : AddressCodec where
  toChecksumAddress address := String.ofList ('0' :: 'x' :: hexEncode address.bytes)
  toCanonicalAddress text :=
    let bytes := hexDecode (text.toList.drop 2)
    if h : bytes.length = 20 then ⟨bytes, h⟩ else ⟨List.replicate 20 0, by simp⟩
  canonical_checksum := by
    intro address
    have hbytes : hexDecode ((String.ofList ('0' :: 'x' :: hexEncode address.bytes)).toList.drop
        2) = address.bytes := by
      simp [hexDecode_hexEncode]
    simp only [hbytes, address.length_eq, dite_true]

end NuLink
