import NuLinkCore.Policy.Sampling

/-!
# Enacting a policy

A policy is enacted in a fixed order: its nodes are sampled, the payment is made, the key
fragments are assigned to the nodes, and the treasure map and the revocation orders are made.
The cryptography comes from {lit}`nucypher_core` and is a parameter, as is the payment method;
their calls have no result when they raise.

Main results:

- Theorem {lit}`assignKfrags_eq`: the assignment exists exactly when all nodes are mature.
- Theorem {lit}`sample_assigns_kfrags`: sampling raises, or the assignment of the key fragments
  to the sampled nodes is a bijection.
- Theorem {lit}`Policy.finish_isOk_iff`: what has to hold after the payment for the enactment to
  succeed.
-/

namespace NuLink

open Collections

/-! ## The cryptography and the payment -/

/-- What is used of {lit}`nucypher_core`.  A call has no result when it raises. -/
structure NucypherCore where
  PublicKey : Type
  KeyFrag : Type
  HRAC : Type
  TreasureMap : Type
  EncryptedTreasureMap : Type
  EncryptedKeyFrag : Type
  RevocationOrder : Type
  decEqHRAC : DecidableEq HRAC
  hrac (publisherVerifyingKey bobVerifyingKey : PublicKey) (label : Bytes) : HRAC
  generateKfrags (bobEncryptingKey : PublicKey) (label : Bytes) (threshold shares : Nat) :
    Option (PublicKey × List KeyFrag)
  treasureMap (hrac : HRAC) (policyEncryptingKey : PublicKey)
    (assignedKfrags : Dict CanonicalAddress (PublicKey × KeyFrag)) (threshold : Nat) :
    Option TreasureMap
  threshold : TreasureMap → Nat
  destinations : TreasureMap → Dict CanonicalAddress EncryptedKeyFrag
  encrypt (treasureMap : TreasureMap) (recipientKey : PublicKey) : Option EncryptedTreasureMap
  revocationOrder (stakingProviderAddress : CanonicalAddress)
    (encryptedKeyFrag : EncryptedKeyFrag) : Option RevocationOrder

instance (core : NucypherCore) : DecidableEq core.HRAC := core.decEqHRAC

/-- A policy proposal; {lit}`nodes` is set by publication. -/
structure Policy (core : NucypherCore) where
  label : Bytes
  bobEncryptingKey : core.PublicKey
  kfrags : List core.KeyFrag
  publicKey : core.PublicKey
  threshold : Nat
  hrac : core.HRAC
  commencement : Option Int
  expiration : Option Int
  duration : Option Int
  value : Int
  rate : Int
  nodes : Option (List ChecksumAddress)

/-- A policy has one share for each key fragment, and is priced by them. -/
def Policy.shares {core : NucypherCore} (policy : Policy core) : Nat := policy.kfrags.length

/-- The arguments of {lit}`create_policy` in the {lit}`SubscriptionManager` contract. -/
structure SubscriptionOrder (core : NucypherCore) where
  value : Int
  policyId : core.HRAC
  size : Nat
  startTimestamp : Option Int
  endTimestamp : Option Int

/-- What {lit}`SubscriptionManagerPayment.pay` orders. -/
def subscriptionOrder {core : NucypherCore} (policy : Policy core) : SubscriptionOrder core where
  value := policy.value
  policyId := policy.hrac
  size := policy.kfrags.length
  startTimestamp := policy.commencement
  endTimestamp := policy.expiration

structure Quote where
  rate : Int
  value : Int
  commencement : Option Int
  expiration : Option Int
  duration : Option Int
  shares : Nat
deriving DecidableEq

/-- A payment method: its quotes, its check of a price, and whether it returns from the payment
of a policy. -/
structure PaymentMethod (core : NucypherCore) where
  quote (shares : Nat) (duration commencement expiration rate value : Option Int) : Option Quote
  validatePrice (shares : Nat) (value : Int) (duration : Option Int) : Bool
  pay : Policy core → Bool

/-- {lit}`FreeReencryptions`. -/
def freeReencryptions (core : NucypherCore) : PaymentMethod core where
  quote := fun shares duration commencement expiration _ _ =>
    some ⟨0, 0, commencement, expiration, duration, shares⟩
  validatePrice := fun _ _ _ => true
  pay := fun _ => true

/-! ## Assigning the key fragments -/

section Assignment

variable {PublicKey KeyFrag : Type}

/-- The entry of a node in {lit}`assigned_kfrags`. -/
def kfragEntry (pair : KnownNode PublicKey × KeyFrag) :
    CanonicalAddress × (PublicKey × KeyFrag) :=
  (pair.1.canonicalAddress, (pair.1.encryptingKey, pair.2))

/-- The comprehension {lit}`assigned_kfrags` of {lit}`Policy.enact`; it raises at a node without
the method {lit}`public_keys`. -/
def assignKfrags (ursulas : List (KnownNode PublicKey)) (kfrags : List KeyFrag) :
    Option (Dict CanonicalAddress (PublicKey × KeyFrag)) :=
  (ursulas.zip kfrags).foldlM (fun assigned pair =>
    pair.1.decryptingKey.map (fun key =>
      assigned.set pair.1.canonicalAddress (key, pair.2))) Dict.empty

/-- The assignment exists exactly when all nodes are mature. -/
theorem assignKfrags_eq (ursulas : List (KnownNode PublicKey)) (kfrags : List KeyFrag) :
    assignKfrags ursulas kfrags =
      if ∀ pair ∈ ursulas.zip kfrags, pair.1.isMature = true then
        some (Dict.ofList ((ursulas.zip kfrags).map kfragEntry))
      else none := by
  unfold assignKfrags Dict.ofList
  generalize ursulas.zip kfrags = pairs
  generalize Dict.empty = assigned
  induction pairs generalizing assigned with
  | nil => simp
  | cons pair pairs ih =>
      rw [List.foldlM_cons]
      cases hmature : pair.1.isMature with
      | false => simp [KnownNode.decryptingKey, hmature]
      | true =>
          simp only [KnownNode.decryptingKey, hmature, if_true, Option.map_some,
            Option.bind_eq_bind, Option.bind_some, List.forall_mem_cons, true_and, List.map_cons,
            List.foldl_cons]
          exact ih _

/-- Nodes with different addresses get one key fragment each, in order. -/
theorem entries_assignKfrags {ursulas : List (KnownNode PublicKey)} {kfrags : List KeyFrag}
    {assigned : Dict CanonicalAddress (PublicKey × KeyFrag)}
    (h : assignKfrags ursulas kfrags = some assigned) (hlen : ursulas.length = kfrags.length)
    (hnodup : (ursulas.map KnownNode.canonicalAddress).Nodup) :
    assigned.entries = (ursulas.zip kfrags).map kfragEntry := by
  rw [assignKfrags_eq] at h
  split at h
  · rw [Option.some.injEq] at h
    rw [← h]
    apply Dict.entries_ofList
    have hkeys : ((ursulas.zip kfrags).map kfragEntry).map Prod.fst =
        ((ursulas.zip kfrags).map Prod.fst).map KnownNode.canonicalAddress := by
      simp [Function.comp_def, kfragEntry]
    rwa [hkeys, List.map_fst_zip (le_of_eq hlen)]
  · simp at h

end Assignment

/-- For every policy and everything that its sampling may meet, sampling raises or returns as
many nodes as there are key fragments, with different addresses; then every key fragment is
assigned to one node, in order, and there are as many entries as shares were priced and paid
for. -/
theorem sample_assigns_kfrags (core : NucypherCore) (codec : AddressCodec) (policy : Policy core)
    (sampling : Sampling codec core.PublicKey policy.shares) :
    (∃ error, sampling.sample = .error error) ∨
    ∃ ursulas, sampling.sample = .ok ursulas ∧ ursulas.length = policy.kfrags.length ∧
      (ursulas.map (KnownNode.checksumAddress codec)).Nodup ∧
      ∀ assigned, assignKfrags ursulas policy.kfrags = some assigned →
        assigned.len = policy.kfrags.length ∧ assigned.len = policy.shares ∧
        assigned.len = (subscriptionOrder policy).size ∧
        assigned.keys = ursulas.map KnownNode.canonicalAddress ∧
        assigned.values.map Prod.snd = policy.kfrags := by
  cases hsample : sampling.sample with
  | error error => exact Or.inl ⟨error, rfl⟩
  | ok ursulas =>
      right
      rcases sample_spec hsample with ⟨hlen, hnodup⟩
      rw [Policy.shares] at hlen
      refine ⟨ursulas, rfl, hlen, hnodup, ?_⟩
      intro assigned hassigned
      -- Different checksum addresses come from different canonical ones.
      have hcanonical : (ursulas.map KnownNode.canonicalAddress).Nodup := by
        have hmap : ursulas.map (KnownNode.checksumAddress codec) =
            (ursulas.map KnownNode.canonicalAddress).map codec.toChecksumAddress := by
          simp [Function.comp_def, KnownNode.checksumAddress]
        rw [hmap] at hnodup
        exact hnodup.of_map
      have hentries := entries_assignKfrags hassigned hlen hcanonical
      have hcount : assigned.len = policy.kfrags.length := by
        rw [Dict.len, hentries, List.length_map, List.length_zip, hlen, Nat.min_self]
      have hkeys : assigned.keys = ((ursulas.zip policy.kfrags).map Prod.fst).map
          KnownNode.canonicalAddress := by
        simp [Dict.keys, hentries, Function.comp_def, kfragEntry]
      have hvalues : assigned.values.map Prod.snd = (ursulas.zip policy.kfrags).map Prod.snd := by
        simp [Dict.values, hentries, Function.comp_def, kfragEntry]
      rw [List.map_fst_zip (le_of_eq hlen)] at hkeys
      rw [List.map_snd_zip (le_of_eq hlen.symm)] at hvalues
      exact ⟨hcount, hcount, hcount, hkeys, hvalues⟩

/-! ## Enacting -/

/-- The revocation orders for the destinations of a treasure map. -/
def revocationKit (core : NucypherCore) (treasureMap : core.TreasureMap) :
    Option (Dict CanonicalAddress core.RevocationOrder) :=
  (core.destinations treasureMap).entries.foldlM (fun revocations destination =>
    (core.revocationOrder destination.1 destination.2).map (fun order =>
      revocations.set destination.1 order)) Dict.empty

structure EnactedPolicy (core : NucypherCore) where
  hrac : core.HRAC
  label : Bytes
  publicKey : core.PublicKey
  threshold : Nat
  treasureMap : core.EncryptedTreasureMap
  revocationKit : Dict CanonicalAddress core.RevocationOrder
  shares : Nat

/-- Why {lit}`Policy.enact` raises. -/
inductive EnactError where
  | sample (error : SampleError)
  | payment
  | attributeError
  | treasureMap
  | encrypt
  | revocationOrder

/-- The steps of {lit}`Policy.enact` after the payment. -/
def Policy.finish {core : NucypherCore} (policy : Policy core)
    (ursulas : List (KnownNode core.PublicKey)) : Except EnactError (EnactedPolicy core) :=
  match assignKfrags ursulas policy.kfrags with
  | none => .error .attributeError
  | some assignedKfrags =>
      match core.treasureMap policy.hrac policy.publicKey assignedKfrags policy.threshold with
      | none => .error .treasureMap
      | some treasureMap =>
          match core.encrypt treasureMap policy.bobEncryptingKey with
          | none => .error .encrypt
          | some encTreasureMap =>
              match revocationKit core treasureMap with
              | none => .error .revocationOrder
              | some revocationKit =>
                  .ok {
                    hrac := policy.hrac
                    label := policy.label
                    publicKey := policy.publicKey
                    threshold := core.threshold treasureMap
                    treasureMap := encTreasureMap
                    revocationKit := revocationKit
                    shares := revocationKit.len }

/-- The policy as it is when it is paid for. -/
def Policy.published {core : NucypherCore} (policy : Policy core) (codec : AddressCodec)
    (ursulas : List (KnownNode core.PublicKey)) : Policy core :=
  { policy with nodes := some (ursulas.map (KnownNode.checksumAddress codec)) }

/-- What came of an enactment, and whether the payment was made. -/
structure Enactment (core : NucypherCore) where
  paid : Bool
  result : Except EnactError (EnactedPolicy core)

/-- {lit}`Policy.enact`. -/
def Policy.enact {core : NucypherCore} (policy : Policy core) (payment : PaymentMethod core)
    {codec : AddressCodec} (sampling : Sampling codec core.PublicKey policy.shares) :
    Enactment core :=
  match sampling.sample with
  | .error error => ⟨false, .error (.sample error)⟩
  | .ok ursulas =>
      if payment.pay (policy.published codec ursulas) then ⟨true, policy.finish ursulas⟩
      else ⟨false, .error .payment⟩

/-- The cryptography makes the treasure map, encrypts it and makes its revocation orders. -/
def Policy.CoreCompletes {core : NucypherCore} (policy : Policy core)
    (ursulas : List (KnownNode core.PublicKey)) : Prop :=
  ∃ treasureMap, core.treasureMap policy.hrac policy.publicKey
      (Dict.ofList ((ursulas.zip policy.kfrags).map kfragEntry)) policy.threshold =
        some treasureMap ∧
    (core.encrypt treasureMap policy.bobEncryptingKey).isSome = true ∧
    ∀ destination ∈ (core.destinations treasureMap).entries,
      (core.revocationOrder destination.1 destination.2).isSome = true

theorem revocationKit_isSome_iff (core : NucypherCore) (treasureMap : core.TreasureMap) :
    (revocationKit core treasureMap).isSome = true ↔
      ∀ destination ∈ (core.destinations treasureMap).entries,
        (core.revocationOrder destination.1 destination.2).isSome = true := by
  unfold revocationKit
  generalize (core.destinations treasureMap).entries = destinations
  generalize Dict.empty = revocations
  induction destinations generalizing revocations with
  | nil => simp
  | cons destination destinations ih =>
      rw [List.foldlM_cons]
      cases horder : core.revocationOrder destination.1 destination.2 with
      | none => simp [horder]
      | some order =>
          simp only [Option.map_some, Option.bind_eq_bind, Option.bind_some,
            List.forall_mem_cons, horder, Option.isSome_some, true_and]
          exact ih _

/-- After the payment the enactment succeeds exactly when all nodes are mature and the
cryptography completes. -/
theorem Policy.finish_isOk_iff {core : NucypherCore} (policy : Policy core)
    (ursulas : List (KnownNode core.PublicKey)) (hlen : ursulas.length = policy.shares) :
    (∃ enacted, policy.finish ursulas = .ok enacted) ↔
      (∀ ursula ∈ ursulas, ursula.isMature = true) ∧ policy.CoreCompletes ursulas := by
  have hmature : (∀ pair ∈ ursulas.zip policy.kfrags, pair.1.isMature = true) ↔
      ∀ ursula ∈ ursulas, ursula.isMature = true := by
    have hmap : (ursulas.zip policy.kfrags).map Prod.fst = ursulas :=
      List.map_fst_zip (le_of_eq hlen)
    constructor
    · intro h ursula hursula
      rw [← hmap] at hursula
      rcases List.mem_map.mp hursula with ⟨pair, hpair, heq⟩
      exact heq ▸ h pair hpair
    · intro h pair hpair
      exact h pair.1 (hmap ▸ List.mem_map_of_mem hpair)
  rw [Policy.finish, assignKfrags_eq]
  by_cases hall : ∀ ursula ∈ ursulas, ursula.isMature = true
  · rw [if_pos (hmature.mpr hall)]
    rw [and_iff_right hall, CoreCompletes]
    cases hmap : core.treasureMap policy.hrac policy.publicKey
        (Dict.ofList ((ursulas.zip policy.kfrags).map kfragEntry)) policy.threshold with
    | none => simp [hmap]
    | some treasureMap =>
        have hkit := revocationKit_isSome_iff core treasureMap
        cases hencrypt : core.encrypt treasureMap policy.bobEncryptingKey with
        | none => simp [hmap, hencrypt]
        | some encrypted =>
            cases hrevocations : revocationKit core treasureMap with
            | none => simpa [hmap, hencrypt, hrevocations] using hkit
            | some revocations => simpa [hmap, hencrypt, hrevocations] using hkit
  · rw [if_neg (fun h => hall (hmature.mp h))]
    simp [hall]

end NuLink
