import NuLinkCore.Network.Retrieval.Plan
import NuLinkCore.Utilities.WorkerPool.Termination

/-!
# Retrieving capsule fragments

The client issues all work orders of a plan, lets a worker pool ask the nodes until a
threshold of them succeeded, and tries the remaining nodes in a second pool when the
first one ended short.  A worker that succeeds records its fragments in the plan, whether
or not its pool still counts it.

The number of work orders depends on what the kits hold already, the target of the pools
does not.

Main definitions:

- {lit}`RetrievalCall.worker`, {lit}`RetrievalCall.pool`: the worker of a retrieval and the
  pools that run it.
- {lit}`RetrievalRun.retrieveCfrags`: what a call of {lit}`retrieve_cfrags` returns or raises,
  given how its pools went.
-/

namespace NuLink

open Collections Execution

/-! ## Asking one node -/

/-- What the middleware makes of a request for re-encryption. -/
inductive MiddlewareAnswer where
  | nodeSeemsToBeDown
  | notFound
  | unexpectedResponse
  | content (response : Bytes)

/-- How the verification of a response fails. -/
inductive ResponseError where
  | invalidSignature
  | verificationError
  | other

/-- Why {lit}`_request_reencryption` raises. -/
inductive ReencryptionError where
  | nodeSeemsToBeDown
  | notFound
  | unexpectedResponse
  | invalidResponse
  | invalidSignature
  | verificationError
  | failedToVerify

/-- The class {lit}`ReencryptionResponse` of the cryptographic library, with the keys of the
retrieval. -/
structure ReencryptionApi (Capsule CapsuleFrag Response : Type) where
  fromBytes : Bytes → Option Response
  verify : Response → List Capsule → Node → Except ResponseError (List CapsuleFrag)

/-- A verified response has one fragment for every requested capsule. -/
def ReencryptionApi.OnePerCapsule {Capsule CapsuleFrag Response : Type}
    (api : ReencryptionApi Capsule CapsuleFrag Response) : Prop :=
  ∀ response capsules ursula cfrags, api.verify response capsules ursula = .ok cfrags →
    cfrags.length = capsules.length

/-- {lit}`_request_reencryption`. -/
def requestReencryption {Capsule CapsuleFrag Response : Type} [DecidableEq Capsule]
    (api : ReencryptionApi Capsule CapsuleFrag Response) (ursula : Node)
    (capsules : List Capsule) :
    MiddlewareAnswer → Except ReencryptionError (Dict Capsule CapsuleFrag)
  | .nodeSeemsToBeDown => .error .nodeSeemsToBeDown
  | .notFound => .error .notFound
  | .unexpectedResponse => .error .unexpectedResponse
  | .content bytes =>
      match api.fromBytes bytes with
      | none => .error .invalidResponse
      | some response =>
          match api.verify response capsules ursula with
          | .error .invalidSignature => .error .invalidSignature
          | .error .verificationError => .error .verificationError
          | .error .other => .error .failedToVerify
          | .ok cfrags => .ok (Dict.ofList (capsules.zip cfrags))

theorem requestReencryption_eq_ok {Capsule CapsuleFrag Response : Type} [DecidableEq Capsule]
    {api : ReencryptionApi Capsule CapsuleFrag Response} {ursula : Node}
    {capsules : List Capsule} {answer : MiddlewareAnswer} {cfrags : Dict Capsule CapsuleFrag}
    (h : requestReencryption api ursula capsules answer = .ok cfrags) :
    ∃ response verified, api.verify response capsules ursula = .ok verified ∧
      cfrags = Dict.ofList (capsules.zip verified) := by
  cases answer with
  | content bytes =>
      simp only [requestReencryption] at h
      split at h
      · simp at h
      · rename_i response hresponse
        split at h
        · simp at h
        · simp at h
        · simp at h
        · rename_i verified hverify
          cases h
          exact ⟨response, verified, hverify, rfl⟩
  | _ => simp [requestReencryption] at h

/-! ## The retrieval strategy -/

/-- {lit}`RetrievalStrategy`. -/
structure RetrievalStrategy where
  retrievalWorkOrderKeyList : List ChecksumAddress
  needSuccesses : Nat

namespace RetrievalStrategy

/-- The loop of {lit}`__call__`: take up to a number of keys from the end of a list. -/
def drawBatch : Nat → List ChecksumAddress → List ChecksumAddress × List ChecksumAddress
  | 0, keys => ([], keys)
  | n + 1, keys =>
      match keys.getLast? with
      | none => ([], keys)
      | some key =>
          let drawn := drawBatch n keys.dropLast
          (key :: drawn.1, drawn.2)

/-- {lit}`RetrievalStrategy.__call__`. -/
def draw (strategy : RetrievalStrategy) (successes : Nat) :
    List ChecksumAddress × RetrievalStrategy :=
  let drawn := drawBatch (strategy.needSuccesses - successes) strategy.retrievalWorkOrderKeyList
  (drawn.1, { strategy with retrievalWorkOrderKeyList := drawn.2 })

/-- A batch is taken out of the list. -/
theorem drawBatch_perm (n : Nat) (keys : List ChecksumAddress) :
    ((drawBatch n keys).1 ++ (drawBatch n keys).2).Perm keys := by
  induction n generalizing keys with
  | zero => exact List.Perm.refl keys
  | succ n ih =>
      rw [drawBatch]
      cases hlast : keys.getLast? with
      | none => exact List.Perm.refl keys
      | some key =>
          have hkeys : keys.dropLast ++ [key] = keys := List.dropLast_append_getLast? key hlast
          have hlastFirst := (List.perm_append_singleton key keys.dropLast).symm
          rw [hkeys] at hlastFirst
          exact ((ih keys.dropLast).cons key).trans hlastFirst

end RetrievalStrategy

/-! ## The worker and its pools -/

/-- Whether a call of the worker returned. -/
def WorkerOutcome.isReturned {R E : Type} : WorkerOutcome R E → Bool
  | .returned _ => true
  | _ => false

/-- Why the worker of a retrieval raises. -/
inductive WorkerError where
  | orderNotFound (address : ChecksumAddress)
  | ursulaNotKnown (address : CanonicalAddress)
  /-- The {lit}`KeyError` for a node that is not in the treasure map. -/
  | notInTreasureMap (address : CanonicalAddress)
  | failedToReencrypt (ursula : Node) (cause : ReencryptionError)

/-- What a worker finds when it runs: the nodes that the learner knows, and the answer to
its request. -/
structure WorkerInput where
  knownNodes : Dict ChecksumAddress Node
  answer : MiddlewareAnswer

instance : Inhabited WorkerInput := ⟨⟨Dict.empty, .nodeSeemsToBeDown⟩⟩

/-- A call of {lit}`retrieve_cfrags`. -/
structure RetrievalCall (Capsule CapsuleFrag EncryptedKeyFrag Response : Type) where
  codec : AddressCodec
  api : ReencryptionApi Capsule CapsuleFrag Response
  treasureMap : TreasureMap EncryptedKeyFrag
  retrievalKits : List (RetrievalKit Capsule)
  pickOrder : PickOrder

namespace RetrievalCall

variable {Capsule CapsuleFrag EncryptedKeyFrag Response : Type} [DecidableEq Capsule]

/-- {lit}`retrieval_plan` when it is made. -/
def newPlan (call : RetrievalCall Capsule CapsuleFrag EncryptedKeyFrag Response) :
    RetrievalPlan Capsule CapsuleFrag :=
  RetrievalPlan.new call.treasureMap call.retrievalKits call.pickOrder

/-- {lit}`retrieval_worker_orders`. -/
def workerOrders (call : RetrievalCall Capsule CapsuleFrag EncryptedKeyFrag Response) :
    Dict ChecksumAddress (RetrievalWorkOrder Capsule) :=
  (call.newPlan.workOrders call.codec).1

/-- {lit}`retrieval_plan` after the orders were issued. -/
def issuedPlan (call : RetrievalCall Capsule CapsuleFrag EncryptedKeyFrag Response) :
    RetrievalPlan Capsule CapsuleFrag :=
  (call.newPlan.workOrders call.codec).2

/-- {lit}`worker`, up to its update of the plan. -/
def worker (call : RetrievalCall Capsule CapsuleFrag EncryptedKeyFrag Response)
    (address : ChecksumAddress) (input : WorkerInput) :
    WorkerOutcome (Dict Capsule CapsuleFrag) WorkerError :=
  match call.workerOrders.get? address with
  | none => .raised (.orderNotFound address)
  | some workOrder =>
      match input.knownNodes.get? (call.codec.toChecksumAddress workOrder.ursulaAddress) with
      | none => .raised (.ursulaNotKnown workOrder.ursulaAddress)
      | some ursula =>
          match call.treasureMap.destinations.get? workOrder.ursulaAddress with
          | none => .raised (.notInTreasureMap workOrder.ursulaAddress)
          | some _ =>
              match requestReencryption call.api ursula workOrder.capsules input.answer with
              | .error cause => .raised (.failedToReencrypt ursula cause)
              | .ok cfrags => .returned cfrags

/-- The update of the plan by a worker that succeeded. -/
def planUpdate (call : RetrievalCall Capsule CapsuleFrag EncryptedKeyFrag Response) :
    ChecksumAddress × WorkerOutcome (Dict Capsule CapsuleFrag) WorkerError →
      Option (CanonicalAddress × Dict Capsule CapsuleFrag)
  | (address, .returned cfrags) =>
      (call.workerOrders.get? address).map fun workOrder => (workOrder.ursulaAddress, cfrags)
  | _ => none

/-- The pools of a retrieval. -/
def pool (call : RetrievalCall Capsule CapsuleFrag EncryptedKeyFrag Response)
    (targetSuccesses : Nat) :
    WorkerPool ChecksumAddress (Dict Capsule CapsuleFrag) WorkerError RetrievalStrategy
      WorkerInput where
  worker := call.worker
  valueFactory strategy successes :=
    let drawn := strategy.draw successes
    (.batch drawn.1, drawn.2)
  targetSuccesses := targetSuccesses

/-- The value factory of a retrieval before anything is drawn. -/
def strategy (call : RetrievalCall Capsule CapsuleFrag EncryptedKeyFrag Response) :
    RetrievalStrategy :=
  ⟨call.workerOrders.keys, call.treasureMap.threshold⟩

variable {call : RetrievalCall Capsule CapsuleFrag EncryptedKeyFrag Response}

theorem pool_drawsFrom (call : RetrievalCall Capsule CapsuleFrag EncryptedKeyFrag Response)
    (targetSuccesses : Nat) :
    PoolState.DrawsFrom (call.pool targetSuccesses)
      RetrievalStrategy.retrievalWorkOrderKeyList := by
  intro strategy successes
  exact ⟨_, _, rfl, RetrievalStrategy.drawBatch_perm _ _⟩

/-- A worker that succeeds has an order, and returns what was verified for its capsules. -/
theorem worker_eq_returned {address : ChecksumAddress} {input : WorkerInput}
    {cfrags : Dict Capsule CapsuleFrag} (h : call.worker address input = .returned cfrags) :
    ∃ workOrder ursula response verified,
      call.workerOrders.get? address = some workOrder ∧
      call.api.verify response workOrder.capsules ursula = .ok verified ∧
      cfrags = Dict.ofList (workOrder.capsules.zip verified) := by
  unfold worker at h
  split at h
  · simp at h
  · rename_i workOrder horder
    split at h
    · simp at h
    · rename_i ursula hursula
      split at h
      · simp at h
      · split at h
        · simp at h
        · rename_i returned hrequest
          cases h
          rcases requestReencryption_eq_ok hrequest with ⟨response, verified, hverify, hcfrags⟩
          exact ⟨workOrder, ursula, response, verified, horder, hverify, hcfrags⟩

/-- A worker that succeeds has a fragment for every capsule of its order. -/
theorem mem_keys_of_returned (hverify : call.api.OnePerCapsule) {address : ChecksumAddress}
    {input : WorkerInput} {cfrags : Dict Capsule CapsuleFrag}
    (h : call.worker address input = .returned cfrags) :
    ∃ workOrder, call.workerOrders.get? address = some workOrder ∧
      ∀ capsule ∈ workOrder.capsules, capsule ∈ cfrags.keys := by
  rcases worker_eq_returned h with ⟨workOrder, ursula, response, verified, horder, hok, rfl⟩
  refine ⟨workOrder, horder, fun capsule hcapsule => ?_⟩
  have hlength := hverify response workOrder.capsules ursula verified hok
  rw [Dict.mem_keys_ofList, List.map_fst_zip (by omega)]
  exact hcapsule

end RetrievalCall

/-! ## Retrieving -/

/-- What {lit}`retrieve_cfrags` may raise after it made sure that enough nodes are known. -/
inductive RetrievalError where
  | producerError (excInfo : WorkerError)
  | attributeError (name : String)

/-- How the pools of a retrieval went.  The second pool draws from what the first one left;
its target is known when the first one has ended. -/
structure RetrievalRun {Capsule CapsuleFrag EncryptedKeyFrag Response : Type}
    [DecidableEq Capsule]
    (call : RetrievalCall Capsule CapsuleFrag EncryptedKeyFrag Response) where
  first : PoolAttempt (call.pool call.treasureMap.threshold) call.strategy
  second : (targetSuccesses : Nat) →
    PoolAttempt (call.pool targetSuccesses) first.atEnd.factory

namespace RetrievalRun

variable {Capsule CapsuleFrag EncryptedKeyFrag Response : Type} [DecidableEq Capsule]
  {call : RetrievalCall Capsule CapsuleFrag EncryptedKeyFrag Response}

/-- The plan after worker calls that ended, in the order in which they did. -/
def planAfter (call : RetrievalCall Capsule CapsuleFrag EncryptedKeyFrag Response)
    (ended : List (ChecksumAddress × WorkerOutcome (Dict Capsule CapsuleFrag) WorkerError)) :
    RetrievalPlan Capsule CapsuleFrag :=
  call.issuedPlan.applyUpdates (ended.filterMap call.planUpdate)

/-- {lit}`accepted_addresses`.  The values of {lit}`successes` are dictionaries of fragments,
not nodes, so that the first one already raises. -/
def acceptedAddresses (successes : Dict ChecksumAddress (Dict Capsule CapsuleFrag)) :
    Except RetrievalError String :=
  match successes.values with
  | [] => .ok ""
  | _ :: _ => .error (.attributeError "checksum_address")

/-- The end of {lit}`retrieve_cfrags`. -/
def finish (call : RetrievalCall Capsule CapsuleFrag EncryptedKeyFrag Response)
    (successes : Dict ChecksumAddress (Dict Capsule CapsuleFrag))
    (plan : RetrievalPlan Capsule CapsuleFrag) :
    Except RetrievalError (List (RetrievalResult CapsuleFrag)) :=
  if successes.len < call.treasureMap.threshold then
    match acceptedAddresses successes with
    | .error raised => .error raised
    | .ok _ => .ok (plan.resultList call.codec)
  else .ok (plan.resultList call.codec)

/-- {lit}`retrieve_cfrags`, after {lit}`_ensure_ursula_availability`. -/
def retrieveCfrags (run : RetrievalRun call) :
    Except RetrievalError (List (RetrievalResult CapsuleFrag)) :=
  match run.first.result with
  | .error excInfo => .error (.producerError excInfo)
  | .ok successes =>
      if successes.len < call.treasureMap.threshold then
        let second := run.second (call.treasureMap.threshold - successes.len)
        match second.result with
        | .error excInfo => .error (.producerError excInfo)
        | .ok newSuccesses =>
            finish call (successes.update newSuccesses)
              (planAfter call (run.first.atEnd.ended ++ second.atEnd.ended))
      else finish call successes (planAfter call run.first.atEnd.ended)

/-- The number of successes that the second pool still has to reach. -/
def missing (run : RetrievalRun call) : Nat :=
  call.treasureMap.threshold - run.first.reported

/-- The worker calls that ended, over both pools. -/
def ended (run : RetrievalRun call) :
    List (ChecksumAddress × WorkerOutcome (Dict Capsule CapsuleFrag) WorkerError) :=
  run.first.atEnd.ended ++
    if 0 < run.missing then (run.second run.missing).atEnd.ended else []

/-- The number of successes that the pools report. -/
def reported (run : RetrievalRun call) : Nat :=
  run.first.reported + if 0 < run.missing then (run.second run.missing).reported else 0

end RetrievalRun

end NuLink
