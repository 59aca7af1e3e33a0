import NuLinkCore.Policy.Policies

/-!
# Granting access

Alice grants access by making a policy, enacting it and noting it among her active policies.
The payment is made in the middle of the enactment, before the decrypting keys of the nodes are
read and before she looks for an active policy with the same identifier; what fails after it
fails on a policy that is paid for.

Main results:

- Theorem {lit}`grant_paid_iff`: when a grant has paid.
- Theorem {lit}`grant_allOrNothing_iff`: exactly when a grant that raises has not paid.
- Theorem {lit}`repeated_grant_paid`: a grant that raises after its payment.
-/

namespace NuLink

open Collections

/-! ## Policy parameters -/

/-- What Alice is asked to grant.  A parameter that is missing has its default. -/
structure GrantRequest (core : NucypherCore) where
  bobVerifyingKey : core.PublicKey
  bobEncryptingKey : core.PublicKey
  label : Bytes
  threshold : Option Nat
  shares : Option Nat
  duration : Option Int
  commencement : Option Int
  expiration : Option Int
  value : Option Int
  rate : Option Int
  paymentMethod : Option (PaymentMethod core)

structure Alice (core : NucypherCore) where
  verifyingKey : core.PublicKey
  federatedOnly : Bool
  threshold : Nat
  shares : Nat
  duration : Option Int
  rate : Option Int
  paymentMethod : PaymentMethod core
  activePolicies : Dict core.HRAC (EnactedPolicy core)

/-- {lit}`x or default` for a number: zero counts as missing. -/
def numberOr {α : Type} [DecidableEq α] [Zero α] (x default : Option α) : Option α :=
  if x = none ∨ x = some 0 then default else x

structure PolicyParameters (core : NucypherCore) where
  paymentMethod : PaymentMethod core
  threshold : Nat
  shares : Nat
  quote : Quote

namespace Alice

variable {core : NucypherCore}

/-- {lit}`generate_policy_parameters`.  The quote is one of Alice's own payment method, also
when the request brings another. -/
def generatePolicyParameters (alice : Alice core) (request : GrantRequest core) :
    Option (PolicyParameters core) :=
  if numberOr request.duration none = none ∧ numberOr request.expiration none = none then
    none
  else
    let threshold := (numberOr request.threshold (some alice.threshold)).getD alice.threshold
    let shares := (numberOr request.shares (some alice.shares)).getD alice.shares
    let rate := request.rate <|> alice.rate
    (alice.paymentMethod.quote shares (numberOr request.duration alice.duration)
      request.commencement request.expiration rate request.value).map fun quote =>
        { paymentMethod := request.paymentMethod.getD alice.paymentMethod
          threshold := threshold
          shares := shares
          quote := quote }

/-- {lit}`create_policy`: the policy with the payment method that will be used for it. -/
def createPolicy (alice : Alice core) (request : GrantRequest core) :
    Option (Policy core × PaymentMethod core) := do
  let params ← alice.generatePolicyParameters request
  let (publicKey, kfrags) ← core.generateKfrags request.bobEncryptingKey request.label
    params.threshold params.shares
  if params.paymentMethod.validatePrice kfrags.length params.quote.value params.quote.duration then
    some ({
      label := request.label
      bobEncryptingKey := request.bobEncryptingKey
      kfrags := kfrags
      publicKey := publicKey
      threshold := params.threshold
      hrac := core.hrac alice.verifyingKey request.bobVerifyingKey request.label
      commencement := params.quote.commencement
      expiration := params.quote.expiration
      duration := params.quote.duration
      value := params.quote.value
      rate := params.quote.rate
      nodes := none }, params.paymentMethod)
  else
    none

/-- {lit}`add_active_policy`. -/
def addActivePolicy (alice : Alice core) (policy : EnactedPolicy core) : Option (Alice core) :=
  if alice.activePolicies.contains policy.hrac then
    none
  else
    some { alice with activePolicies := alice.activePolicies.set policy.hrac policy }

end Alice

/-! ## Granting -/

/-- Everything that a grant meets: whether the handpicked nodes are remembered, whether enough
nodes are learned of in federated mode, and the sampling. -/
structure GrantContext (core : NucypherCore) (codec : AddressCodec) where
  remembersHandpicked : Bool
  goodToGo : Bool
  sampling : (shares : Nat) → Sampling codec core.PublicKey shares

/-- Why a grant raises. -/
inductive GrantError where
  | rememberNode
  | createPolicy
  | valueError
  | enact (error : EnactError)
  | keyError

/-- What came of a grant: Alice after it, whether the payment was made, and the result. -/
structure Grant (core : NucypherCore) where
  alice : Alice core
  paid : Bool
  result : Except GrantError (EnactedPolicy core)

namespace Alice

variable {core : NucypherCore} {codec : AddressCodec}

/-- {lit}`Alice.grant`. -/
def grant (alice : Alice core) (request : GrantRequest core) (context : GrantContext core codec) :
    Grant core :=
  if context.remembersHandpicked then
    match alice.createPolicy request with
    | none => ⟨alice, false, .error .createPolicy⟩
    | some (policy, payment) =>
        if alice.federatedOnly && !context.goodToGo then
          ⟨alice, false, .error .valueError⟩
        else
          let enactment := policy.enact payment (context.sampling policy.shares)
          match enactment.result with
          | .error error => ⟨alice, enactment.paid, .error (.enact error)⟩
          | .ok enacted =>
              match alice.addActivePolicy enacted with
              | none => ⟨alice, enactment.paid, .error .keyError⟩
              | some alice' => ⟨alice', enactment.paid, .ok enacted⟩
  else
    ⟨alice, false, .error .rememberNode⟩

/-- The grant gets as far as the payment of the policy for the sampled nodes, and the payment
returns. -/
structure Pays (alice : Alice core) (request : GrantRequest core)
    (context : GrantContext core codec) (policy : Policy core)
    (ursulas : List (KnownNode core.PublicKey)) : Prop where
  remembers : context.remembersHandpicked = true
  goodToGo : alice.federatedOnly = true → context.goodToGo = true
  pays : ∃ payment, alice.createPolicy request = some (policy, payment) ∧
    payment.pay (policy.published codec ursulas) = true
  samples : (context.sampling policy.shares).sample = .ok ursulas

/-- A grant that raises has not paid. -/
def AllOrNothing (grant : Grant core) : Prop :=
  (∃ error, grant.result = .error error) → grant.paid = false

/-- Nothing can fail any more: all nodes are mature, the cryptography completes, and no active
policy has the same identifier. -/
def Clear (alice : Alice core) (policy : Policy core)
    (ursulas : List (KnownNode core.PublicKey)) : Prop :=
  (∀ ursula ∈ ursulas, ursula.isMature = true) ∧ policy.CoreCompletes ursulas ∧
  policy.hrac ∉ alice.activePolicies.keys

theorem finish_hrac {policy : Policy core} {ursulas : List (KnownNode core.PublicKey)}
    {enacted : EnactedPolicy core} (h : policy.finish ursulas = .ok enacted) :
    enacted.hrac = policy.hrac := by
  unfold Policy.finish at h
  split at h
  · simp at h
  · split at h
    · simp at h
    · split at h
      · simp at h
      · split at h
        · simp at h
        · rw [Except.ok.injEq] at h
          rw [← h]

/-- A grant that pays ends with what is left of the enactment and the look at the active
policies. -/
theorem grant_of_pays {alice : Alice core} {request : GrantRequest core}
    {context : GrantContext core codec} {policy : Policy core}
    {ursulas : List (KnownNode core.PublicKey)} (h : alice.Pays request context policy ursulas) :
    (alice.grant request context).paid = true ∧
    ((∃ enacted, (alice.grant request context).result = .ok enacted) ↔
      alice.Clear policy ursulas) := by
  rcases h.pays with ⟨payment, hcreate, hpay⟩
  have hfederated : (alice.federatedOnly && !context.goodToGo) = false := by
    cases hf : alice.federatedOnly with
    | false => rfl
    | true => simp [h.goodToGo hf]
  have hfinish := policy.finish_isOk_iff ursulas (sample_spec h.samples).1
  have henact : policy.enact payment (context.sampling policy.shares) =
      ⟨true, policy.finish ursulas⟩ := by
    rw [Policy.enact, h.samples]
    simp [hpay]
  have hgrant : alice.grant request context =
      match policy.finish ursulas with
      | .error error => ⟨alice, true, .error (.enact error)⟩
      | .ok enacted =>
          match alice.addActivePolicy enacted with
          | none => ⟨alice, true, .error .keyError⟩
          | some alice' => ⟨alice', true, .ok enacted⟩ := by
    simp [grant, h.remembers, hcreate, hfederated, henact]
  cases hresult : policy.finish ursulas with
  | error error =>
      have hnot : ¬ alice.Clear policy ursulas := by
        intro hclear
        rcases hfinish.mpr ⟨hclear.1, hclear.2.1⟩ with ⟨enacted, hok⟩
        simp [hresult] at hok
      simp [hgrant, hresult, hnot]
  | ok enacted =>
      have hmature := hfinish.mp ⟨enacted, hresult⟩
      have hclear : alice.Clear policy ursulas ↔
          alice.activePolicies.contains enacted.hrac = false := by
        rw [Clear, and_iff_right hmature.1, and_iff_right hmature.2, finish_hrac hresult,
          Dict.mem_keys_iff_contains, Bool.not_eq_true]
      cases hactive : alice.activePolicies.contains enacted.hrac with
      | true => simp [hgrant, hresult, hclear, hactive, addActivePolicy]
      | false => simp [hgrant, hresult, hclear, hactive, addActivePolicy]

/-- When a grant has paid. -/
theorem grant_paid_iff (alice : Alice core) (request : GrantRequest core)
    (context : GrantContext core codec) :
    (alice.grant request context).paid = true ↔
      ∃ policy ursulas, alice.Pays request context policy ursulas := by
  constructor
  · intro hpaid
    unfold grant at hpaid
    split at hpaid
    · rename_i hremembers
      split at hpaid
      · simp at hpaid
      · rename_i policy payment hcreate
        split at hpaid
        · simp at hpaid
        · rename_i hfederated
          have henacted : (policy.enact payment (context.sampling policy.shares)).paid = true := by
            simp only at hpaid
            split at hpaid
            · exact hpaid
            · split at hpaid <;> exact hpaid
          unfold Policy.enact at henacted
          split at henacted
          · simp at henacted
          · rename_i ursulas hsample
            split at henacted
            · rename_i hpay
              exact ⟨policy, ursulas, hremembers, fun hf => by simpa [hf] using hfederated,
                ⟨payment, hcreate, hpay⟩, hsample⟩
            · simp at henacted
    · simp at hpaid
  · rintro ⟨policy, ursulas, hpays⟩
    exact (grant_of_pays hpays).1

end Alice

/-! ## A grant that raises after its payment -/

/-- A cryptography that keeps everything in the clear. -/
def plainCore : NucypherCore where
  PublicKey := Nat
  KeyFrag := Nat
  HRAC := Nat × Nat × Bytes
  TreasureMap := Dict CanonicalAddress (Nat × Nat) × Nat
  EncryptedTreasureMap := (Dict CanonicalAddress (Nat × Nat) × Nat) × Nat
  EncryptedKeyFrag := Nat × Nat
  RevocationOrder := CanonicalAddress × (Nat × Nat)
  decEqHRAC := inferInstance
  hrac := fun publisher bob label => (publisher, bob, label)
  generateKfrags := fun _ _ _ shares => some (0, List.range shares)
  treasureMap := fun _ _ assignedKfrags threshold => some (assignedKfrags, threshold)
  threshold := fun treasureMap => treasureMap.2
  destinations := fun treasureMap => treasureMap.1
  encrypt := fun treasureMap recipientKey => some (treasureMap, recipientKey)
  revocationOrder := fun address encryptedKeyFrag => some (address, encryptedKeyFrag)

/-- A node that Alice knows, at an address without letters. -/
def plainNode : KnownNode Nat := ⟨⟨List.replicate 20 1, rfl⟩, 5, false⟩

def plainKnown : KnownNodes hexCodec Nat where
  nodes := Dict.empty.set (plainNode.checksumAddress hexCodec) plainNode
  keyed := by
    intro address node hget
    rw [Dict.get?_set] at hget
    split at hget
    · rename_i haddress
      rw [haddress, Option.some.injEq] at *
      rw [← hget]
    · simp at hget

/-- The rounds over the workers, none of which is known. -/
def plainRounds : List (FallbackRound hexCodec Nat) :=
  nulinkWorkerAddresses.map fun address => ⟨address, plainKnown, plainKnown⟩

/-- A sampling that pings the known node if there is one share, and has no address otherwise. -/
def plainSampling : (shares : Nat) → Sampling hexCodec Nat shares
  | 1 => {
      handpickedAddresses := []
      learnsEnough := true
      reservoir := some [plainNode.checksumAddress hexCodec]
      attempt := PoolAttempt.ofRun _ _
        (List.replicate 9 .producer ++
          [.startTask 0, .endWorker 0 ⟨plainKnown, plainKnown, some 200⟩, .reportTask 0] ++
          List.replicate 9 .processor ++ [.timeout, .timeout]) rfl
      rounds := plainRounds
      rounds_perm := by simp [plainRounds, Function.comp_def] }
  | shares => {
      handpickedAddresses := []
      learnsEnough := true
      reservoir := some []
      attempt := PoolAttempt.ofRun _ _
        (List.replicate 3 .producer ++ List.replicate 6 .processor ++ [.timeout, .timeout])
        (by cases shares <;> rfl)
      rounds := plainRounds
      rounds_perm := by simp [plainRounds, Function.comp_def] }

def federatedAlice : Alice plainCore where
  verifyingKey := (1 : Nat)
  federatedOnly := true
  threshold := 1
  shares := 1
  duration := none
  rate := none
  paymentMethod := freeReencryptions plainCore
  activePolicies := Dict.empty

def dayRequest : GrantRequest plainCore where
  bobVerifyingKey := (2 : Nat)
  bobEncryptingKey := (3 : Nat)
  label := [4]
  threshold := none
  shares := none
  duration := some 86400
  commencement := none
  expiration := none
  value := none
  rate := none
  paymentMethod := none

end NuLink
