import NuLinkCore.Lib.Guarded
import NuLinkCore.Network.Verification

/-!
# The identity that a node announces

A local Ursula reads its staking provider from the chain, again and again, and
takes the answer as its checksum address.  Its metadata names the checksum address
of the moment at which it was first asked for, and is kept from then on, since the
attributes it collects are assumed not to change.

Main results:

- Theorem {lit}`LocalUrsula.step_announcesCurrent_iff`: when one operation keeps the metadata in
  step with the checksum address.
- Theorem {lit}`LocalUrsula.announcesCurrent_iff`: when a whole run does.
-/

namespace NuLink

open Execution

/-- What the metadata of a local node collects besides its checksum address: what does not
change, and the signer. -/
structure LocalIdentity where
  domain : String
  operatorSignature : Option Bytes
  verifyingKey : Bytes
  encryptingKey : Bytes
  certificateDer : Bytes
  host : String
  port : Nat
  signer : NodeMetadataPayload → Bytes

/-- The state of a local Ursula that its operator and its metadata share. -/
structure LocalUrsula where
  checksumAddress : Option ChecksumAddress
  cachedStakingProviderAddress : Option ChecksumAddress
  cachedMetadata : Option NodeMetadata

namespace LocalUrsula

/-- A node that was constructed, with or without a checksum address. -/
def new (checksumAddress : Option ChecksumAddress) : LocalUrsula where
  checksumAddress := checksumAddress
  cachedStakingProviderAddress := none
  cachedMetadata := none

/-- {lit}`Operator.get_staking_provider_address`, with the answer of the chain. -/
def getStakingProviderAddress (ursula : LocalUrsula) (answer : ChecksumAddress) : LocalUrsula :=
  { ursula with cachedStakingProviderAddress := some answer, checksumAddress := some answer }

/-- {lit}`Operator.staking_provider_address`: read the chain unless it was read before. -/
def stakingProviderAddress (ursula : LocalUrsula) (answer : ChecksumAddress) : LocalUrsula :=
  match ursula.cachedStakingProviderAddress with
  | none => ursula.getStakingProviderAddress answer
  | some _ => ursula

variable (identity : LocalIdentity)

/-- {lit}`Ursula._generate_metadata`. -/
def generateMetadata (checksumAddress : ChecksumAddress) (now : Nat) : NodeMetadata :=
  let payload : NodeMetadataPayload :=
    { stakingProviderAddress := checksumAddress
      domain := identity.domain
      timestampEpoch := now
      operatorSignature := identity.operatorSignature
      verifyingKey := identity.verifyingKey
      encryptingKey := identity.encryptingKey
      certificateDer := identity.certificateDer
      host := identity.host
      port := identity.port }
  { signature := identity.signer payload, payload }

/-- {lit}`Ursula.metadata`; {lit}`none` stands for the exception of a node without a checksum
address. -/
def metadata (ursula : LocalUrsula) (now : Nat) : Option NodeMetadata × LocalUrsula :=
  match ursula.cachedMetadata with
  | some cached => (some cached, ursula)
  | none =>
      match ursula.checksumAddress with
      | none => (none, ursula)
      | some checksumAddress =>
          let generated := generateMetadata identity checksumAddress now
          (some generated, { ursula with cachedMetadata := some generated })

/-- The operations of a run.  A read of the chain comes with its answer; one that fails changes
nothing. -/
inductive Op where
  | getStakingProviderAddress (answer : ChecksumAddress)
  | stakingProviderAddress (answer : ChecksumAddress)
  | metadata (now : Nat)

/-- Perform one operation. -/
def step (ursula : LocalUrsula) : Op → LocalUrsula
  | .getStakingProviderAddress answer => ursula.getStakingProviderAddress answer
  | .stakingProviderAddress answer => ursula.stakingProviderAddress answer
  | .metadata now => (ursula.metadata identity now).2

/-! ## Announcing the current identity -/

/-- Whatever the time, metadata that is requested names the current checksum address. -/
def AnnouncesCurrent (ursula : LocalUrsula) : Prop :=
  ∀ now metadata, (ursula.metadata identity now).1 = some metadata →
    ursula.checksumAddress = some metadata.payload.stakingProviderAddress

/-- No metadata was generated yet, or the answer of the chain is the current address. -/
def KeepsIdentity (ursula : LocalUrsula) (answer : ChecksumAddress) : Prop :=
  ursula.cachedMetadata = none ∨ ursula.checksumAddress = some answer

/-- The condition on one operation: a read of the chain keeps the identity. -/
def Keeps (ursula : LocalUrsula) : Op → Prop
  | .getStakingProviderAddress answer => ursula.KeepsIdentity answer
  | .stakingProviderAddress answer =>
      ursula.cachedStakingProviderAddress = none → ursula.KeepsIdentity answer
  | .metadata _ => True

/-- A node announces its current identity exactly when the metadata it has kept, if any, names
it. -/
theorem announcesCurrent_iff_cached {ursula : LocalUrsula} :
    ursula.AnnouncesCurrent identity ↔
      ∀ cached, ursula.cachedMetadata = some cached →
        ursula.checksumAddress = some cached.payload.stakingProviderAddress := by
  unfold AnnouncesCurrent metadata
  cases hcached : ursula.cachedMetadata with
  | some cached => simp
  | none =>
      cases haddress : ursula.checksumAddress with
      | none => simp
      | some checksumAddress => simp [generateMetadata]

theorem new_announcesCurrent (checksumAddress : Option ChecksumAddress) :
    (new checksumAddress).AnnouncesCurrent identity := by
  rw [announcesCurrent_iff_cached]
  intro cached h
  cases h

/-- Reading the chain keeps the announced identity current exactly when it was not announced
yet or does not change. -/
theorem getStakingProviderAddress_announcesCurrent_iff {ursula : LocalUrsula}
    (h : ursula.AnnouncesCurrent identity) (answer : ChecksumAddress) :
    (ursula.getStakingProviderAddress answer).AnnouncesCurrent identity ↔
      ursula.KeepsIdentity answer := by
  rw [announcesCurrent_iff_cached] at h ⊢
  unfold getStakingProviderAddress KeepsIdentity
  cases hcached : ursula.cachedMetadata with
  | none => simp
  | some cached =>
      have haddress := h cached hcached
      rw [haddress]
      simp [eq_comm]

/-- When one operation keeps the announced identity current. -/
theorem step_announcesCurrent_iff {ursula : LocalUrsula} (h : ursula.AnnouncesCurrent identity)
    (op : Op) :
    (ursula.step identity op).AnnouncesCurrent identity ↔ ursula.Keeps op := by
  cases op with
  | getStakingProviderAddress answer =>
      exact getStakingProviderAddress_announcesCurrent_iff identity h answer
  | stakingProviderAddress answer =>
      simp only [step, stakingProviderAddress, Keeps]
      cases hprovider : ursula.cachedStakingProviderAddress with
      | none =>
          simpa using getStakingProviderAddress_announcesCurrent_iff identity h answer
      | some provider => simpa using h
  | metadata now =>
      simp only [step, Keeps, iff_true]
      rw [announcesCurrent_iff_cached] at h ⊢
      unfold metadata
      cases hcached : ursula.cachedMetadata with
      | some cached =>
          simp only
          exact h
      | none =>
          cases haddress : ursula.checksumAddress with
          | none =>
              simp only
              exact h
          | some checksumAddress => simp [generateMetadata]

/-- A run announces the current identity in all of its states exactly when every read of the
chain comes before the first metadata or answers the current address. -/
theorem announcesCurrent_iff (checksumAddress : Option ChecksumAddress) (ops : List Op) :
    Throughout (step identity) (AnnouncesCurrent identity) (new checksumAddress) ops ↔
      Guarded (step identity) Keeps (new checksumAddress) ops :=
  throughout_iff_guarded (P := AnnouncesCurrent identity) (I := fun _ => True) (fun _ _ h => h)
    (fun _ op _ h => step_announcesCurrent_iff identity h op) trivial
    (new_announcesCurrent identity checksumAddress) ops

/-- A node of the main network with constant keys. -/
def plainIdentity : LocalIdentity where
  domain := "mainnet"
  operatorSignature := none
  verifyingKey := [1]
  encryptingKey := [2]
  certificateDer := [3]
  host := "127.0.0.1"
  port := 9151
  signer _ := [0]

/-- Metadata that was requested while the operator was not bonded is served after it is. -/
theorem announced_before_bonding :
    let ursula := [Op.getStakingProviderAddress nullAddress, Op.metadata 10,
      Op.getStakingProviderAddress "0x1000000000000000000000000000000000000001"].foldl
        (step plainIdentity) (new none)
    ((ursula.metadata plainIdentity 20).1.map fun metadata =>
        metadata.payload.stakingProviderAddress) = some nullAddress ∧
      ursula.checksumAddress = some "0x1000000000000000000000000000000000000001" ∧
      ¬ ursula.AnnouncesCurrent plainIdentity := by
  refine ⟨by decide, by decide, ?_⟩
  intro h
  have hcurrent := h 20 (generateMetadata plainIdentity nullAddress 10) (by decide)
  revert hcurrent
  decide

end LocalUrsula

end NuLink
