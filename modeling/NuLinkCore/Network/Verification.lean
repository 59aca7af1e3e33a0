import NuLinkCore.Network.NodeMetadata
import Mathlib.Data.List.Basic
import Mathlib.Tactic

/-!
# Verifying a stranger node

A stranger node is verified in stages: the signature of its metadata, the
signature of its operator, two reads of the chain, and a comparison of its
metadata with what the node itself answers.  Four flags on the node remember the
stages that were passed, and a later call skips the stages whose flag is set.

The flag for the stamp is set before the chain is read.  A call that fails on the
chain therefore leaves a node whose next call skips the chain altogether.

Main results:

- Theorem {lit}`Teacher.verifyNode_cases`: everything one call can do.
- Theorem {lit}`Teacher.step_sound`: one call that does not skip the chain on a node
  that the chain did not confirm keeps the flags backed by reports of the chain.
- Theorem {lit}`Teacher.run_sound`: along every run of such calls a verified node was
  confirmed by the chain since its flags were last cleared, and no call succeeds
  after a failure on the chain unless the chain was asked again.
-/

namespace NuLink

/-- The address the chain reports for an operator without a staking provider. -/
def nullAddress : ChecksumAddress := "0x0000000000000000000000000000000000000000"

/-- The exceptions that leave {lit}`verify_node`. -/
inductive VerifyError where
  | invalidNode (message : String)
  | invalidOperatorSignature (message : String)
  | notStaking (message : String)
  | unbondedOperator (message : String)
  | wrongMode (message : String)
  /-- An exception of the signature library, the chain client, the certificate
  store or the network that passes through. -/
  | external (message : String)
deriving DecidableEq, Repr

/-- An answer that the chain gave. -/
inductive ChainReport where
  | stakingProviderFromOperator (operator stakingProvider : ChecksumAddress)
  | isAuthorized (stakingProvider : ChecksumAddress) (authorized : Bool)
deriving DecidableEq, Repr

/-- The two reads of the chain; each of them may raise. -/
structure Chain where
  stakingProviderFromOperator : ChecksumAddress → Except String ChecksumAddress
  isAuthorized : ChecksumAddress → Except String Bool

/-- The arguments of one call of {lit}`verify_node` and what the call meets outside
the node. -/
structure VerifyCall where
  force : Bool
  registry : Bool
  certificateFilepath : Option String
  verifyMetadata : NodeMetadata → Except String Bool
  deriveOperatorAddress : NodeMetadataPayload → Except String ChecksumAddress
  chain : Chain
  storeCertificate : Bytes → Except String String
  nodeInformation : (host : String) → (port : Nat) → Except String Bytes
  fromMetadataBytes : Bytes → Except String NodeMetadata

/-- A stranger node.  A certificate without a path was not saved. -/
structure Teacher where
  metadata : NodeMetadata
  federatedOnly : Bool
  certificateFilepath : Option String
  operatorAddress : Option ChecksumAddress
  verifiedStamp : Bool
  verifiedOperator : Bool
  verifiedMetadata : Bool
  verifiedNode : Bool

namespace Teacher

/-- A node as it is constructed: unverified. -/
def new (metadata : NodeMetadata) (federatedOnly : Bool) (certificateFilepath : Option String) :
    Teacher where
  metadata := metadata
  federatedOnly := federatedOnly
  certificateFilepath := certificateFilepath
  operatorAddress := none
  verifiedStamp := false
  verifiedOperator := false
  verifiedMetadata := false
  verifiedNode := false

def checksumAddress (node : Teacher) : ChecksumAddress :=
  node.metadata.payload.stakingProviderAddress

/-- How a method of a node ends: the node it leaves, the answers of the chain it
received, and its result. -/
structure Attempt (α : Type) where
  node : Teacher
  reports : List ChainReport
  result : Except VerifyError α

/-- The property {lit}`operator_address` of a stranger that is not federated: derived
from the metadata on first use. -/
def deriveOperatorAddress (node : Teacher) (call : VerifyCall) :
    Teacher × Except String ChecksumAddress :=
  match node.operatorAddress with
  | some address => (node, .ok address)
  | none =>
      match call.deriveOperatorAddress node.metadata.payload with
      | .error message => (node, .error message)
      | .ok address => ({ node with operatorAddress := some address }, .ok address)

/-- {lit}`_operator_is_bonded`. -/
def operatorIsBonded (node : Teacher) (operatorAddress : ChecksumAddress) (chain : Chain) :
    List ChainReport × Except VerifyError Bool :=
  match chain.stakingProviderFromOperator operatorAddress with
  | .error message => ([], .error (.external message))
  | .ok stakingProviderAddress =>
      ([.stakingProviderFromOperator operatorAddress stakingProviderAddress],
        if stakingProviderAddress = nullAddress then
          .error (.unbondedOperator ("Operator " ++ operatorAddress ++ " is not bonded"))
        else .ok (decide (stakingProviderAddress = node.checksumAddress)))

/-- {lit}`_staking_provider_is_really_staking`. -/
def stakingProviderIsReallyStaking (node : Teacher) (chain : Chain) :
    List ChainReport × Except VerifyError Bool :=
  match chain.isAuthorized node.checksumAddress with
  | .error message => ([], .error (.external message))
  | .ok isStaking => ([.isAuthorized node.checksumAddress isStaking], .ok isStaking)

/-- The on-chain staking check of {lit}`validate_operator`. -/
def checkOnChain (node : Teacher) (operatorAddress : ChecksumAddress) (chain : Chain) :
    Attempt Unit :=
  match node.operatorIsBonded operatorAddress chain with
  | (reports, .error e) => ⟨node, reports, .error e⟩
  | (reports, .ok false) =>
      ⟨node, reports, .error (.unbondedOperator ("Operator " ++ operatorAddress ++
        " is not bonded to staking provider " ++ node.checksumAddress))⟩
  | (reports, .ok true) =>
      match node.stakingProviderIsReallyStaking chain with
      | (reports', .error e) => ⟨node, reports ++ reports', .error e⟩
      | (reports', .ok true) =>
          ⟨{ node with verifiedOperator := true }, reports ++ reports', .ok ()⟩
      | (reports', .ok false) =>
          ⟨node, reports ++ reports',
            .error (.notStaking (node.checksumAddress ++ " is not staking"))⟩

/-- {lit}`validate_operator`. -/
def validateOperator (node : Teacher) (call : VerifyCall) : Attempt Unit :=
  if node.federatedOnly then
    ⟨node, [], .error (.wrongMode ("This node cannot be verified in this manner, " ++
      "but is OK to use in federated mode if you " ++
      "have reason to believe it is trustworthy."))⟩
  else
    match node.deriveOperatorAddress call with
    | (derived, .error message) => ⟨derived, [], .error (.invalidOperatorSignature message)⟩
    | (derived, .ok operatorAddress) =>
        let stamped := { derived with verifiedStamp := true }
        if call.registry then stamped.checkOnChain operatorAddress call.chain
        else ⟨stamped, [], .ok ()⟩

/-- {lit}`validate_metadata_signature`. -/
def validateMetadataSignature (node : Teacher) (call : VerifyCall) :
    Teacher × Except VerifyError Unit :=
  match call.verifyMetadata node.metadata with
  | .error message => (node, .error (.external message))
  | .ok true => ({ node with verifiedMetadata := true }, .ok ())
  | .ok false =>
      ({ node with verifiedMetadata := false },
        .error (.invalidNode "Metadata signature is invalid"))

/-- The part of {lit}`validate_metadata` after the signature check. -/
def validateEvidence (node : Teacher) (call : VerifyCall) : Attempt Unit :=
  if node.verifiedStamp then ⟨node, [], .ok ()⟩
  else
    let attempt := node.validateOperator call
    match attempt.result with
    | .error (.wrongMode message) =>
        if call.registry then { attempt with result := .error (.wrongMode message) }
        else { attempt with result := .ok () }
    | _ => attempt

/-- {lit}`validate_metadata`. -/
def validateMetadata (node : Teacher) (call : VerifyCall) : Attempt Unit :=
  if node.verifiedMetadata then node.validateEvidence call
  else
    match node.validateMetadataSignature call with
    | (checked, .error e) => ⟨checked, [], .error e⟩
    | (checked, .ok ()) => checked.validateEvidence call

/-- Save the certificate unless the caller gives a path or it was saved before. -/
def saveCertificate (node : Teacher) (call : VerifyCall) : Teacher × Except VerifyError Unit :=
  match call.certificateFilepath, node.certificateFilepath with
  | none, none =>
      match call.storeCertificate node.metadata.payload.certificateDer with
      | .error message => (node, .error (.external message))
      | .ok filepath => ({ node with certificateFilepath := some filepath }, .ok ())
  | _, _ => (node, .ok ())

/-- Compare the node with the metadata that it serves itself; {lit}`none` when they
agree, else the message of the exception. -/
def compareWithSprout (node : Teacher) (sprout : NodeMetadata) : Option String :=
  let verifyingKeysMatch := sprout.payload.verifyingKey = node.metadata.payload.verifyingKey
  let encryptingKeysMatch := sprout.payload.encryptingKey = node.metadata.payload.encryptingKey
  let addressesMatch := sprout.payload.stakingProviderAddress = node.checksumAddress
  let evidenceMatches :=
    sprout.payload.operatorSignature = node.metadata.payload.operatorSignature
  if encryptingKeysMatch ∧ verifyingKeysMatch ∧ addressesMatch ∧ evidenceMatches then none
  else if ¬ addressesMatch then
    some "Wallet address swapped out.  It appears that someone is trying to defraud this node."
  else if ¬ verifyingKeysMatch then
    some "Verifying key swapped out.  It appears that someone is impersonating this node."
  else some "Wrong cryptographic material for this node - something fishy going on."

/-- The part of {lit}`verify_node` that connects to the node. -/
def checkInterface (node : Teacher) (call : VerifyCall) :
    Teacher × Except VerifyError (Option Bool) :=
  match node.saveCertificate call with
  | (saved, .error e) => (saved, .error e)
  | (saved, .ok ()) =>
      match call.nodeInformation saved.metadata.payload.host saved.metadata.payload.port with
      | .error message => (saved, .error (.external message))
      | .ok responseData =>
          match call.fromMetadataBytes responseData with
          | .error message => (saved, .error (.invalidNode message))
          | .ok sprout =>
              match saved.compareWithSprout sprout with
              | some message => (saved, .error (.invalidNode message))
              | none => ({ saved with verifiedNode := true }, .ok none)

/-- The flags are cleared by {lit}`force`. -/
def clearFlags (node : Teacher) : Teacher :=
  { node with
    verifiedMetadata := false
    verifiedNode := false
    verifiedStamp := false
    verifiedOperator := false }

/-- {lit}`verify_node` after the flags were cleared if asked to. -/
def verifyCleared (node : Teacher) (call : VerifyCall) : Attempt (Option Bool) :=
  if node.verifiedNode then ⟨node, [], .ok (some true)⟩
  else
    match node.validateMetadata call with
    | ⟨validated, reports, .error e⟩ => ⟨validated, reports, .error e⟩
    | ⟨validated, reports, .ok ()⟩ =>
        let interface := validated.checkInterface call
        ⟨interface.1, reports, interface.2⟩

/-- {lit}`verify_node`.  It returns {lit}`True` for a node that is verified already and
nothing when it verified the node itself. -/
def verifyNode (node : Teacher) (call : VerifyCall) : Attempt (Option Bool) :=
  (if call.force then node.clearFlags else node).verifyCleared call

/-! ## Reports of the chain -/

/-- The reports of one call say that the operator of the node is bonded to the
node's own address and that this address is authorised. -/
def Confirms (node : Teacher) (reports : List ChainReport) : Prop :=
  ∃ operator, node.operatorAddress = some operator ∧
    .stakingProviderFromOperator operator node.checksumAddress ∈ reports ∧
    .isAuthorized node.checksumAddress true ∈ reports

/-- A later version of a node has the same metadata and the same operator address,
once this is known. -/
@[mk_iff]
structure Extends (node later : Teacher) : Prop where
  metadata : later.metadata = node.metadata
  federatedOnly : later.federatedOnly = node.federatedOnly
  operatorAddress : ∀ operator, node.operatorAddress = some operator →
    later.operatorAddress = some operator

theorem Extends.refl (node : Teacher) : node.Extends node :=
  ⟨rfl, rfl, fun _ h => h⟩

theorem Extends.trans {node later latest : Teacher} (h₁ : node.Extends later)
    (h₂ : later.Extends latest) : node.Extends latest :=
  ⟨h₂.metadata.trans h₁.metadata, h₂.federatedOnly.trans h₁.federatedOnly,
    fun operator h => h₂.operatorAddress operator (h₁.operatorAddress operator h)⟩

theorem Confirms.mono {node later : Teacher} {reports : List ChainReport}
    (h : node.Confirms reports) (hext : node.Extends later) : later.Confirms reports := by
  rcases h with ⟨operator, hoperator, hbonded, hauthorized⟩
  have haddress : later.checksumAddress = node.checksumAddress := by
    simp only [checksumAddress, hext.metadata]
  refine ⟨operator, hext.operatorAddress operator hoperator, ?_, ?_⟩
  · rw [haddress]
    exact hbonded
  · rw [haddress]
    exact hauthorized

/-! ## What each stage can do -/

/-- The check on the chain either sets the operator's flag after both confirming
reports, or raises and changes nothing. -/
theorem checkOnChain_cases (node : Teacher) (operator : ChecksumAddress) (chain : Chain) :
    ((node.checkOnChain operator chain).result = .ok () ∧
      (node.checkOnChain operator chain).node = { node with verifiedOperator := true } ∧
      .stakingProviderFromOperator operator node.checksumAddress ∈
        (node.checkOnChain operator chain).reports ∧
      .isAuthorized node.checksumAddress true ∈ (node.checkOnChain operator chain).reports) ∨
    ((∃ e, (node.checkOnChain operator chain).result = .error e) ∧
      (node.checkOnChain operator chain).node = node) := by
  unfold checkOnChain operatorIsBonded stakingProviderIsReallyStaking
  cases chain.stakingProviderFromOperator operator with
  | error message => exact Or.inr ⟨⟨_, rfl⟩, rfl⟩
  | ok provider =>
      by_cases hnull : provider = nullAddress
      · simp [hnull]
      · by_cases hown : provider = node.checksumAddress
        · subst hown
          cases chain.isAuthorized node.checksumAddress with
          | error message => simp [hnull]
          | ok authorized =>
              cases authorized with
              | true => simp [hnull]
              | false => simp [hnull]
        · simp [hnull, hown]

theorem deriveOperatorAddress_cases (node : Teacher) (call : VerifyCall) :
    (∃ operator, node.deriveOperatorAddress call =
        ({ node with operatorAddress := some operator }, .ok operator) ∧
      (node.operatorAddress = none ∨ node.operatorAddress = some operator)) ∨
    ∃ message, node.deriveOperatorAddress call = (node, .error message) := by
  unfold deriveOperatorAddress
  cases hknown : node.operatorAddress with
  | some operator =>
      refine Or.inl ⟨operator, ?_, Or.inr rfl⟩
      simp only [← hknown]
  | none =>
      cases call.deriveOperatorAddress node.metadata.payload with
      | error message => exact Or.inr ⟨message, rfl⟩
      | ok operator => exact Or.inl ⟨operator, rfl, Or.inl rfl⟩

/-- What a stage that reads the chain leaves behind: either it passed and the chain
confirmed the node, or it raised without touching the flags of the operator and
of the node. -/
structure StageOutcome (node : Teacher) (attempt : Attempt Unit) : Prop where
  extends_node : node.Extends attempt.node
  verifiedNode : attempt.node.verifiedNode = node.verifiedNode
  passed : attempt.result = .ok () →
    attempt.node.verifiedStamp = true ∧ attempt.node.verifiedOperator = true ∧
      attempt.node.Confirms attempt.reports
  failed : ∀ e, attempt.result = .error e →
    attempt.node.verifiedOperator = node.verifiedOperator

theorem validateOperator_outcome {node : Teacher} {call : VerifyCall}
    (hmode : node.federatedOnly = false) (hregistry : call.registry = true) :
    StageOutcome node (node.validateOperator call) := by
  unfold validateOperator
  simp only [hmode, Bool.false_eq_true, if_false]
  rcases deriveOperatorAddress_cases node call with
    ⟨operator, hderived, hknown⟩ | ⟨message, hderived⟩
  · simp only [hderived, hregistry, if_true]
    have hext : node.Extends { node with operatorAddress := some operator } := by
      refine ⟨rfl, rfl, ?_⟩
      intro other hother
      rcases hknown with hnone | hsome
      · simp [hnone] at hother
      · exact hsome.symm.trans hother
    rcases checkOnChain_cases
        { node with operatorAddress := some operator, verifiedStamp := true } operator call.chain
      with ⟨hok, hnode, hbonded, hauthorized⟩ | ⟨⟨e, herror⟩, hnode⟩
    · refine ⟨?_, by rw [hnode], fun _ => ?_, fun e he => by simp [hok] at he⟩
      · rw [hnode]
        exact ⟨hext.metadata, hext.federatedOnly, hext.operatorAddress⟩
      · rw [hnode]
        exact ⟨rfl, rfl, operator, rfl, hbonded, hauthorized⟩
    · refine ⟨?_, by rw [hnode], fun hok => by simp [herror] at hok, fun _ _ => by rw [hnode]⟩
      rw [hnode]
      exact ⟨hext.metadata, hext.federatedOnly, hext.operatorAddress⟩
  · simp only [hderived]
    exact ⟨Extends.refl node, rfl, fun hok => by simp at hok, fun _ _ => rfl⟩

/-- The failures that only the check on the chain raises. -/
def OnChainFailure : VerifyError → Prop
  | .unbondedOperator _ => True
  | .notStaking _ => True
  | _ => False

/-- With a registry, a node without the stamp's flag is sent to the chain. -/
theorem validateEvidence_of_unstamped {node : Teacher} {call : VerifyCall}
    (hstamp : node.verifiedStamp = false) (hregistry : call.registry = true) :
    node.validateEvidence call = node.validateOperator call := by
  unfold validateEvidence
  simp only [hstamp, Bool.false_eq_true, if_false, hregistry, if_true]
  split
  · rename_i message hwrong
    rw [← hwrong]
  · rfl

/-- What {lit}`validate_metadata` can do: with the stamp's flag set the chain is not
read, without it the chain decides. -/
theorem validateMetadata_cases {node : Teacher} {call : VerifyCall}
    (hmode : node.federatedOnly = false) (hregistry : call.registry = true) :
    (node.verifiedStamp = true ∧ node.Extends (node.validateMetadata call).node ∧
      (node.validateMetadata call).node.verifiedNode = node.verifiedNode ∧
      (node.validateMetadata call).node.verifiedStamp = true ∧
      (node.validateMetadata call).node.verifiedOperator = node.verifiedOperator ∧
      (node.validateMetadata call).reports = [] ∧
      ∀ e, (node.validateMetadata call).result = .error e → ¬ OnChainFailure e) ∨
    (node.verifiedStamp = false ∧ StageOutcome node (node.validateMetadata call)) := by
  unfold validateMetadata validateMetadataSignature
  by_cases hstamp : node.verifiedStamp = true
  · refine Or.inl ⟨hstamp, ?_⟩
    cases hmetadata : node.verifiedMetadata with
    | true => simp [validateEvidence, hstamp, extends_iff]
    | false =>
        cases call.verifyMetadata node.metadata with
        | error message => simp [hstamp, extends_iff, OnChainFailure]
        | ok valid =>
            cases valid with
            | true => simp [validateEvidence, hstamp, extends_iff]
            | false => simp [hstamp, extends_iff, OnChainFailure]
  · have hunstamped : node.verifiedStamp = false := by simpa using hstamp
    refine Or.inr ⟨hunstamped, ?_⟩
    cases hmetadata : node.verifiedMetadata with
    | true =>
        simp only [if_true]
        rw [validateEvidence_of_unstamped hunstamped hregistry]
        exact validateOperator_outcome hmode hregistry
    | false =>
        simp only [Bool.false_eq_true, if_false]
        cases call.verifyMetadata node.metadata with
        | error message => exact ⟨Extends.refl node, rfl, by simp, fun _ _ => rfl⟩
        | ok valid =>
            cases valid with
            | false => exact ⟨⟨rfl, rfl, fun _ h => h⟩, rfl, by simp, fun _ _ => rfl⟩
            | true =>
                -- The evidence is validated on the node with the metadata flag set.
                let checked := { node with verifiedMetadata := true }
                have heq : checked.validateEvidence call = checked.validateOperator call :=
                  validateEvidence_of_unstamped hunstamped hregistry
                have hout : StageOutcome checked (checked.validateEvidence call) := by
                  rw [heq]
                  exact validateOperator_outcome hmode hregistry
                exact ⟨⟨hout.extends_node.metadata, hout.extends_node.federatedOnly,
                  hout.extends_node.operatorAddress⟩, hout.verifiedNode, hout.passed, hout.failed⟩

/-- The connection to the node touches only the certificate and the node's flag, and
the flag is set exactly when nothing is raised. -/
theorem checkInterface_cases {node : Teacher} (call : VerifyCall)
    (hnode : node.verifiedNode = false) :
    node.Extends (node.checkInterface call).1 ∧
      (node.checkInterface call).1.verifiedStamp = node.verifiedStamp ∧
      (node.checkInterface call).1.verifiedOperator = node.verifiedOperator ∧
      (((node.checkInterface call).2 = .ok none ∧
          (node.checkInterface call).1.verifiedNode = true) ∨
        ((∃ e, (node.checkInterface call).2 = .error e ∧ ¬ OnChainFailure e) ∧
          (node.checkInterface call).1.verifiedNode = false)) := by
  have hsave : ∃ path, (node.saveCertificate call).1 = { node with certificateFilepath := path } ∧
      ((node.saveCertificate call).2 = .ok () ∨
        ∃ message, (node.saveCertificate call).2 = .error (.external message)) := by
    unfold saveCertificate
    split
    · cases call.storeCertificate node.metadata.payload.certificateDer with
      | error message => exact ⟨node.certificateFilepath, rfl, Or.inr ⟨message, rfl⟩⟩
      | ok filepath => exact ⟨some filepath, rfl, Or.inl rfl⟩
    · exact ⟨node.certificateFilepath, rfl, Or.inl rfl⟩
  rcases hsave with ⟨path, hsaved, hok | ⟨message, herror⟩⟩
  · have hpair : node.saveCertificate call = ({ node with certificateFilepath := path }, .ok ()) :=
      Prod.ext hsaved hok
    simp only [checkInterface, hpair]
    cases call.nodeInformation node.metadata.payload.host node.metadata.payload.port with
    | error message => simp [hnode, extends_iff, OnChainFailure]
    | ok responseData =>
        cases hsprout : call.fromMetadataBytes responseData with
        | error message => simp [hsprout, hnode, extends_iff, OnChainFailure]
        | ok sprout =>
            simp only [hsprout]
            split
            · simp [hnode, extends_iff, OnChainFailure]
            · simp [extends_iff]
  · have hpair : node.saveCertificate call =
        ({ node with certificateFilepath := path }, .error (.external message)) :=
      Prod.ext hsaved herror
    simp [checkInterface, hpair, hnode, extends_iff, OnChainFailure]

/-! ## One call -/

/-- The node on which the stages of a call run. -/
def start (node : Teacher) (call : VerifyCall) : Teacher :=
  if call.force then node.clearFlags else node

/-- Everything one call can do to the flags, from the node on which its stages run. -/
inductive CallOutcome (start : Teacher) (attempt : Attempt (Option Bool)) : Prop where
  /-- The node is verified already. -/
  | alreadyVerified (hnode : start.verifiedNode = true) (hsame : attempt.node = start)
      (hok : ∃ value, attempt.result = .ok value)
  /-- The stamp's flag is set, and the chain is not read. -/
  | skippedChain (hstamp : start.verifiedStamp = true)
      (hstamp' : attempt.node.verifiedStamp = true)
      (hoperator : attempt.node.verifiedOperator = start.verifiedOperator)
      (hresult : ∀ e, attempt.result = .error e → ¬ OnChainFailure e)
  /-- The chain is read and confirms the node. -/
  | confirmed (hstamp' : attempt.node.verifiedStamp = true)
      (hoperator : attempt.node.verifiedOperator = true)
      (hconfirms : attempt.node.Confirms attempt.reports)
      (hresult : ∀ e, attempt.result = .error e → ¬ OnChainFailure e)
  /-- A stage up to the chain raises. -/
  | rejected (hstamp : start.verifiedStamp = false)
      (hnode : attempt.node.verifiedNode = false)
      (hoperator : attempt.node.verifiedOperator = start.verifiedOperator)
      (hresult : ∃ e, attempt.result = .error e)

theorem verifyCleared_cases {node : Teacher} {call : VerifyCall}
    (hmode : node.federatedOnly = false) (hregistry : call.registry = true) :
    node.Extends (node.verifyCleared call).node ∧
      ((∃ value, (node.verifyCleared call).result = .ok value) →
        (node.verifyCleared call).node.verifiedNode = true) ∧
      CallOutcome node (node.verifyCleared call) := by
  by_cases hnode : node.verifiedNode = true
  · have hattempt : node.verifyCleared call = ⟨node, [], .ok (some true)⟩ := by
      unfold verifyCleared
      rw [if_pos hnode]
    rw [hattempt]
    exact ⟨Extends.refl node, fun _ => hnode, .alreadyVerified hnode rfl ⟨_, rfl⟩⟩
  · have hunverified : node.verifiedNode = false := by simpa using hnode
    have hmetadata := validateMetadata_cases hmode hregistry
    unfold verifyCleared
    rw [if_neg hnode]
    rcases hattempt : node.validateMetadata call with ⟨validated, reports, result⟩
    rw [hattempt] at hmetadata
    cases result with
    | error e =>
        rcases hmetadata with ⟨hstamp, hext, hflag, hstamp', hoperator, -, herror⟩ | ⟨hstamp, hout⟩
        · exact ⟨hext, by simp,
            .skippedChain hstamp hstamp' hoperator (by simpa using herror e rfl)⟩
        · exact ⟨hout.extends_node, by simp, .rejected hstamp (hout.verifiedNode.trans hunverified)
            (hout.failed e rfl) ⟨e, rfl⟩⟩
    | ok value =>
        have hvalidated : validated.verifiedNode = false := by
          rcases hmetadata with ⟨-, -, hflag, -⟩ | ⟨-, hout⟩
          · exact hflag.trans hunverified
          · exact hout.verifiedNode.trans hunverified
        rcases checkInterface_cases call hvalidated with ⟨hext', hstamp', hoperator', hend⟩
        have hok : (∃ value, (validated.checkInterface call).2 = .ok value) →
            (validated.checkInterface call).1.verifiedNode = true := by
          rintro ⟨value, hvalue⟩
          rcases hend with ⟨-, hset⟩ | ⟨⟨e, herror, -⟩, -⟩
          · exact hset
          · simp [herror] at hvalue
        have hresult : ∀ e, (validated.checkInterface call).2 = .error e → ¬ OnChainFailure e := by
          intro e he
          rcases hend with ⟨hnone, -⟩ | ⟨⟨e', herror, hkind⟩, -⟩
          · simp [hnone] at he
          · rw [he] at herror
            exact Except.error.inj herror ▸ hkind
        rcases hmetadata with ⟨hstamp, hext, -, hstamped, hoperator, -, -⟩ | ⟨-, hout⟩
        · exact ⟨hext.trans hext', hok, .skippedChain hstamp (hstamp'.trans hstamped)
            (hoperator'.trans hoperator) hresult⟩
        · rcases hout.passed rfl with ⟨hstamped, hoperator, hconfirms⟩
          exact ⟨hout.extends_node.trans hext', hok, .confirmed (hstamp'.trans hstamped)
            (hoperator'.trans hoperator) (hconfirms.mono hext') hresult⟩

theorem extends_start (node : Teacher) (call : VerifyCall) : node.Extends (node.start call) := by
  unfold start clearFlags
  split
  · simp [extends_iff]
  · exact Extends.refl node

/-- Everything one call of {lit}`verify_node` on a stranger can do, with a registry. -/
theorem verifyNode_cases {node : Teacher} {call : VerifyCall}
    (hmode : node.federatedOnly = false) (hregistry : call.registry = true) :
    (node.start call).Extends (node.verifyNode call).node ∧
      ((∃ value, (node.verifyNode call).result = .ok value) →
        (node.verifyNode call).node.verifiedNode = true) ∧
      CallOutcome (node.start call) (node.verifyNode call) :=
  verifyCleared_cases ((node.extends_start call).federatedOnly.trans hmode) hregistry

/-! ## Runs -/

/-- What one call of a run did. -/
structure CallRecord where
  force : Bool
  reports : List ChainReport
  result : Except VerifyError (Option Bool)

/-- The record of a call. -/
def record (node : Teacher) (call : VerifyCall) : CallRecord :=
  ⟨call.force, (node.verifyNode call).reports, (node.verifyNode call).result⟩

/-- The node after a sequence of calls. -/
def run (node : Teacher) (calls : List VerifyCall) : Teacher :=
  calls.foldl (fun node call => (node.verifyNode call).node) node

/-- The records of a sequence of calls. -/
def records (node : Teacher) : List VerifyCall → List CallRecord
  | [] => []
  | call :: calls => node.record call :: (node.verifyNode call).node.records calls

/-- A call with {lit}`force` clears the flags, and the earlier records no longer count. -/
def keepSinceCleared (kept : List CallRecord) (record : CallRecord) : List CallRecord :=
  if record.force then [record] else kept ++ [record]

/-- The records since the flags were last cleared. -/
def sinceCleared (log : List CallRecord) : List CallRecord := log.foldl keepSinceCleared []

@[simp]
theorem run_append (node : Teacher) (calls calls' : List VerifyCall) :
    node.run (calls ++ calls') = (node.run calls).run calls' :=
  List.foldl_append

theorem mem_of_mem_sinceCleared {log : List CallRecord} {record : CallRecord}
    (h : record ∈ sinceCleared log) : record ∈ log := by
  induction log using List.reverseRecOn with
  | nil => simp [sinceCleared] at h
  | append_singleton log last ih =>
      rw [sinceCleared, List.foldl_append, List.foldl_cons, List.foldl_nil, keepSinceCleared] at h
      split at h
      · exact List.mem_append_right log h
      · rcases List.mem_append.mp h with hmem | hmem
        · exact List.mem_append_left _ (ih hmem)
        · exact List.mem_append_right log hmem

/-- A call that does not skip the chain on a node that the chain has not confirmed. -/
def Safe (node : Teacher) (call : VerifyCall) : Prop :=
  call.force = true ∨ ¬ (node.verifiedStamp = true ∧ node.verifiedOperator = false)

instance (node : Teacher) (call : VerifyCall) : Decidable (node.Safe call) :=
  inferInstanceAs (Decidable (_ ∨ _))

/-- Every call of a run is made on a node on which it is safe. -/
def SafeRun (node : Teacher) : List VerifyCall → Prop
  | [] => True
  | call :: calls => node.Safe call ∧ (node.verifyNode call).node.SafeRun calls

/-- The flags of a node are backed by some of the records. -/
structure Backed (node : Teacher) (log : List CallRecord) : Prop where
  node_operator : node.verifiedNode = true → node.verifiedOperator = true
  operator_stamp : node.verifiedOperator = true → node.verifiedStamp = true
  operator_confirmed : node.verifiedOperator = true → ∃ r ∈ log, node.Confirms r.reports

theorem Backed.clearFlags (node : Teacher) (log : List CallRecord) : node.clearFlags.Backed log :=
  ⟨by simp [Teacher.clearFlags], by simp [Teacher.clearFlags], by simp [Teacher.clearFlags]⟩

/-- The node on which the stages of a call run is backed by the records that still
count. -/
theorem Backed.start {node : Teacher} {log : List CallRecord} (h : node.Backed log)
    (call : VerifyCall) : (node.start call).Backed (if call.force then [] else log) := by
  unfold Teacher.start
  cases call.force with
  | true => exact Backed.clearFlags node []
  | false => exact h

/-- A safe call skips the chain only on a node that the chain confirmed. -/
theorem verifiedOperator_of_safe {node : Teacher} {call : VerifyCall} (hsafe : node.Safe call)
    (hstamp : (node.start call).verifiedStamp = true) :
    (node.start call).verifiedOperator = true := by
  cases hforce : call.force with
  | true => simp [Teacher.start, hforce, Teacher.clearFlags] at hstamp
  | false =>
      simp only [Teacher.start, hforce, Bool.false_eq_true, if_false] at hstamp ⊢
      rcases hsafe with hset | hplain
      · simp [hforce] at hset
      · by_contra hoperator
        exact hplain ⟨hstamp, by simpa using hoperator⟩

/-- A call that raises up to the chain leaves a node that needs no backing. -/
theorem backed_of_rejected {start later : Teacher} {log : List CallRecord} (h : start.Backed log)
    (hstamp : start.verifiedStamp = false) (hnode : later.verifiedNode = false)
    (hoperator : later.verifiedOperator = start.verifiedOperator) (log' : List CallRecord) :
    later.Backed log' := by
  have hunset : later.verifiedOperator = false := by
    by_contra hset
    have hstamped := h.operator_stamp (hoperator ▸ by simpa using hset)
    simp [hstamp] at hstamped
  exact ⟨by simp [hnode], by simp [hunset], by simp [hunset]⟩

/-- One safe call keeps the flags backed. -/
theorem step_sound {node : Teacher} {call : VerifyCall} {log : List CallRecord}
    (hmode : node.federatedOnly = false) (hregistry : call.registry = true)
    (hsafe : node.Safe call) (hbacked : node.Backed log) :
    (node.verifyNode call).node.Backed (keepSinceCleared log (node.record call)) := by
  rcases verifyNode_cases hmode hregistry with ⟨hext, -, hout⟩
  have hstart := hbacked.start call
  have hlog : keepSinceCleared log (node.record call) =
      (if call.force then [] else log) ++ [node.record call] := by
    have hforce : (node.record call).force = call.force := rfl
    rw [keepSinceCleared, hforce]
    cases call.force with
    | true => rfl
    | false => rfl
  have hold : (node.start call).verifiedOperator = true →
      ∃ r ∈ keepSinceCleared log (node.record call),
        (node.verifyNode call).node.Confirms r.reports := by
    intro hoperator
    rcases hstart.operator_confirmed hoperator with ⟨r, hr, hconfirms⟩
    exact ⟨r, hlog ▸ List.mem_append_left _ hr, hconfirms.mono hext⟩
  cases hout with
  | alreadyVerified hnode hsame hok =>
      refine ⟨?_, ?_, ?_⟩
      · rw [hsame]
        exact hstart.node_operator
      · rw [hsame]
        exact hstart.operator_stamp
      · intro hoperator
        exact hold (hsame ▸ hoperator)
  | skippedChain hstamp hstamp' hoperator hresult =>
      have hset := verifiedOperator_of_safe hsafe hstamp
      exact ⟨fun _ => hoperator.trans hset, fun _ => hstamp', fun _ => hold hset⟩
  | confirmed hstamp' hoperator hconfirms hresult =>
      exact ⟨fun _ => hoperator, fun _ => hstamp',
        fun _ => ⟨node.record call, by simp [hlog], hconfirms⟩⟩
  | rejected hstamp hnode hoperator hresult =>
      exact backed_of_rejected hstart hstamp hnode hoperator _

/-- A call that fails on the chain leaves flags that need no record at all. -/
theorem backed_of_onChainFailure {node : Teacher} {call : VerifyCall} {log : List CallRecord}
    (hmode : node.federatedOnly = false) (hregistry : call.registry = true)
    (hbacked : node.Backed log) {e : VerifyError}
    (herror : (node.verifyNode call).result = .error e) (hfailure : OnChainFailure e) :
    (node.verifyNode call).node.Backed [] := by
  rcases verifyNode_cases hmode hregistry with ⟨-, -, hout⟩
  cases hout with
  | alreadyVerified hnode hsame hok =>
      rcases hok with ⟨value, hvalue⟩
      simp [herror] at hvalue
  | skippedChain hstamp hstamp' hoperator hresult => exact absurd hfailure (hresult e herror)
  | confirmed hstamp' hoperator hconfirms hresult => exact absurd hfailure (hresult e herror)
  | rejected hstamp hnode hoperator hresult =>
      exact backed_of_rejected (hbacked.start call) hstamp hnode hoperator []

/-- The runs a group of results is about: calls with a registry on a stranger that is
not federated, each of them safe. -/
structure StrangerRun (node : Teacher) (calls : List VerifyCall) : Prop where
  decentralized : node.federatedOnly = false
  registry : ∀ call ∈ calls, call.registry = true
  safe : node.SafeRun calls

theorem StrangerRun.tail {node : Teacher} {call : VerifyCall} {calls : List VerifyCall}
    (h : node.StrangerRun (call :: calls)) :
    (node.verifyNode call).node.StrangerRun calls := by
  have hregistry : call.registry = true := h.registry call List.mem_cons_self
  have hext := (node.extends_start call).trans (verifyNode_cases h.decentralized hregistry).1
  exact ⟨hext.federatedOnly.trans h.decentralized,
    fun other hother => h.registry other (List.mem_cons_of_mem call hother), h.safe.2⟩

theorem StrangerRun.split {node : Teacher} {calls calls' : List VerifyCall}
    (h : node.StrangerRun (calls ++ calls')) :
    node.StrangerRun calls ∧ (node.run calls).StrangerRun calls' := by
  induction calls generalizing node with
  | nil => exact ⟨⟨h.decentralized, by simp, trivial⟩, h⟩
  | cons call calls ih =>
      rcases ih h.tail with ⟨hfirst, hrest⟩
      refine ⟨⟨h.decentralized, ?_, h.safe.1, hfirst.safe⟩, hrest⟩
      intro other hother
      exact h.registry other (List.mem_append_left calls' hother)

/-- Along a run the flags stay backed by the records that count. -/
theorem run_backed {node : Teacher} {calls : List VerifyCall} {log : List CallRecord}
    (hrun : node.StrangerRun calls) (hbacked : node.Backed log) :
    (node.run calls).Backed ((node.records calls).foldl keepSinceCleared log) := by
  induction calls generalizing node log with
  | nil => exact hbacked
  | cons call calls ih =>
      exact ih hrun.tail (step_sound hrun.decentralized (hrun.registry call List.mem_cons_self)
        hrun.safe.1 hbacked)

/-- A node that a run verified was confirmed by the chain in some call since its
flags were last cleared; and no call of the run succeeds after a call that failed
on the chain, unless the chain confirmed the node in between. -/
def VerifiedOnlyIfConfirmed (node : Teacher) (calls : List VerifyCall) : Prop :=
  ((node.run calls).verifiedNode = true →
    ∃ r ∈ sinceCleared (node.records calls), (node.run calls).Confirms r.reports) ∧
  ∀ before failed between retry after,
    calls = before ++ failed :: (between ++ retry :: after) →
      let failure := (node.run before).verifyNode failed
      let success := (failure.node.run between).verifyNode retry
      ∀ e value, failure.result = .error e → OnChainFailure e → success.result = .ok value →
        ∃ r ∈ failure.node.records (between ++ [retry]), success.node.Confirms r.reports

theorem run_sound (metadata : NodeMetadata) (certificateFilepath : Option String)
    (calls : List VerifyCall) (hregistry : ∀ call ∈ calls, call.registry = true)
    (hsafe : (new metadata false certificateFilepath).SafeRun calls) :
    (new metadata false certificateFilepath).VerifiedOnlyIfConfirmed calls := by
  have hrun : (new metadata false certificateFilepath).StrangerRun calls := ⟨rfl, hregistry, hsafe⟩
  have hnew : (new metadata false certificateFilepath).Backed [] :=
    ⟨by simp [new], by simp [new], by simp [new]⟩
  constructor
  · intro hverified
    have hbacked := run_backed hrun hnew
    exact hbacked.operator_confirmed (hbacked.node_operator hverified)
  · intro before failed between retry after hcalls failure success e value herror hfailure hok
    subst hcalls
    rcases hrun.split with ⟨hbefore, hrest⟩
    have hregistry' : failed.registry = true := hrest.registry failed List.mem_cons_self
    have hreset : failure.node.Backed [] :=
      backed_of_onChainFailure hrest.decentralized hregistry' (run_backed hbefore hnew) herror
        hfailure
    have hretried : failure.node.StrangerRun (between ++ [retry]) := by
      have hassoc : between ++ retry :: after = (between ++ [retry]) ++ after := by simp
      have htail := hrest.tail
      rw [hassoc] at htail
      exact htail.split.1
    have hsuccess : failure.node.run (between ++ [retry]) = success.node := by
      rw [run_append]
      rfl
    have hbacked := run_backed hretried hreset
    rw [hsuccess] at hbacked
    have hlast := hretried.split.2
    have hverified : success.node.verifiedNode = true :=
      (verifyNode_cases hlast.decentralized (hlast.registry retry List.mem_cons_self)).2.1
        ⟨value, hok⟩
    rcases hbacked.operator_confirmed (hbacked.node_operator hverified) with ⟨r, hr, hconfirms⟩
    exact ⟨r, mem_of_mem_sinceCleared hr, hconfirms⟩

/-! ## A retry after a failure on the chain -/

/-- The metadata of the node in the runs below. -/
def strangerMetadata : NodeMetadata :=
  sampleMetadata "0x1000000000000000000000000000000000000001" [1] 10

/-- The operator address derived from it. -/
def strangerOperator : ChecksumAddress := "0x3000000000000000000000000000000000000003"

/-- A call in which every stage passes, apart from what the chain answers for the
operator. -/
def callReporting (force : Bool) (stakingProvider : ChecksumAddress) : VerifyCall where
  force := force
  registry := true
  certificateFilepath := none
  verifyMetadata _ := .ok true
  deriveOperatorAddress _ := .ok strangerOperator
  chain :=
    { stakingProviderFromOperator := fun _ => .ok stakingProvider
      isAuthorized := fun _ => .ok true }
  storeCertificate _ := .ok "127.0.0.1.pem"
  nodeInformation _ _ := .ok [7]
  fromMetadataBytes _ := .ok strangerMetadata

/-- An unbonded operator is verified by calling twice. -/
theorem unbonded_operator_verified :
    (((new strangerMetadata false none).verifyNode (callReporting false nullAddress)).result =
        .error (.unbondedOperator ("Operator " ++ strangerOperator ++ " is not bonded"))) ∧
      ((new strangerMetadata false none).run
        [callReporting false nullAddress, callReporting false nullAddress]).verifiedNode = true ∧
      ¬ (new strangerMetadata false none).VerifiedOnlyIfConfirmed
        [callReporting false nullAddress, callReporting false nullAddress] := by
  refine ⟨by rfl, by rfl, ?_⟩
  rintro ⟨hconfirmed, -⟩
  rcases hconfirmed (by rfl) with ⟨r, hr, operator, -, -, hauthorized⟩
  have hreports : ∀ r ∈ sinceCleared ((new strangerMetadata false none).records
      [callReporting false nullAddress, callReporting false nullAddress]),
      .isAuthorized strangerMetadata.payload.stakingProviderAddress true ∉ r.reports := by
    decide
  exact hreports r hr hauthorized

theorem run_sound_forced :
    let calls := [callReporting false nullAddress,
      callReporting true strangerMetadata.payload.stakingProviderAddress]
    ((new strangerMetadata false none).run calls).verifiedNode = true ∧
      ∃ r ∈ sinceCleared ((new strangerMetadata false none).records calls),
        ((new strangerMetadata false none).run calls).Confirms r.reports := by
  intro calls
  refine ⟨by rfl, (run_sound strangerMetadata none calls ?_ ?_).1 (by rfl)⟩
  · simp [calls, callReporting]
  · exact ⟨Or.inr (by decide), Or.inl rfl, trivial⟩

end Teacher

end NuLink
