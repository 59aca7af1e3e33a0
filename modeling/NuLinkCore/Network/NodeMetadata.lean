import Mathlib.Data.List.Basic
import Mathlib.Tactic

/-!
# Node metadata and the nodes made from it

The signed metadata record is what nodes exchange about each other.  A node of
the fleet, whether still a {lit}`NodeSprout` or matured in place into an
{lit}`Ursula`, answers every question the learner and the fleet sensor ask from
the metadata it was made from: its address, stamp, domain and timestamp.

The record stores the staking provider's address in its checksummed form, the
only form in which it is read through {lit}`NodeSprout.checksum_address`.
-/

namespace NuLink

abbrev Bytes := List UInt8

abbrev ChecksumAddress := String

/-- The signed part of a node's metadata. -/
structure NodeMetadataPayload where
  stakingProviderAddress : ChecksumAddress
  domain : String
  timestampEpoch : Nat
  operatorSignature : Option Bytes
  verifyingKey : Bytes
  encryptingKey : Bytes
  certificateDer : Bytes
  host : String
  port : Nat
deriving DecidableEq, Repr

/-- A payload together with the node's signature over it. -/
structure NodeMetadata where
  signature : Bytes
  payload : NodeMetadataPayload
deriving DecidableEq, Repr

/-- A node of the fleet, identified with the metadata it was made from. -/
structure Node where
  metadata : NodeMetadata
deriving DecidableEq, Repr

namespace Node

def checksumAddress (node : Node) : ChecksumAddress :=
  node.metadata.payload.stakingProviderAddress

/-- The bytes of the node's stamp, its verifying key.  Equality and hash of node
objects are those of these bytes. -/
def stamp (node : Node) : Bytes := node.metadata.payload.verifyingKey

def domain (node : Node) : String := node.metadata.payload.domain

def timestamp (node : Node) : Nat := node.metadata.payload.timestampEpoch

end Node

/-- {lit}`NodeSprout(metadata)`. -/
def nodeSprout (metadata : NodeMetadata) : Node := ⟨metadata⟩

/-- Metadata of a node of the main network, used in concrete instances. -/
def sampleMetadata (address : ChecksumAddress) (verifyingKey : Bytes) (timestampEpoch : Nat) :
    NodeMetadata where
  signature := [0]
  payload :=
    { stakingProviderAddress := address
      domain := "mainnet"
      timestampEpoch := timestampEpoch
      operatorSignature := none
      verifyingKey := verifyingKey
      encryptingKey := [0]
      certificateDer := [0]
      host := "127.0.0.1"
      port := 9151 }

end NuLink
