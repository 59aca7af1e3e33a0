import NuLinkCore.Network.Middleware
import NuLinkCore.Network.Reencryption
import NuLinkCore.Network.Retrieval.Results

/-!
# A retrieval from nodes that serve it

The client asks the nodes of a treasure map, and every answer with content is what some node has
served for this very request.  Then each fragment that the client ends with is the re-encryption
of its capsule with the key fragment that was assigned to the node under whose address it stands.

Main results:

- Theorem {lit}`UrsulaService.answer_eq_content`: only what is served has content.
- Theorem {lit}`Retriever.worker_reencrypts`: what a worker returns.
- Theorem {lit}`Retriever.finalResult_reencrypted`: what the client ends with.
- Theorem {lit}`RetrievalRun.card_finalResult_fresh`: for kits without fragments, every worker
  that succeeds adds one fragment to every kit.
-/

namespace NuLink

open Collections Execution

/-! ## The answer to a request -/

namespace UrsulaService

variable {core : ReencryptionCore} (service : UrsulaService core)

theorem Refused.le_status {service : UrsulaService core} {post : ReencryptionPost core}
    {status : Nat} (h : service.Refused post status) : 300 ≤ status := by
  cases h <;> decide

/-- A request is served, or its status is that of an error. -/
theorem served_or_le_status (post : ReencryptionPost core) (datastore : Dict Bytes Bytes) :
    (∃ request kfrag, service.Authorized post request kfrag ∧
        (service.reencrypt post datastore).1 =
          .served (service.reencryptCapsules post.coins kfrag request.capsules)) ∨
      300 ≤ (service.reencrypt post datastore).1.status := by
  cases hauthorize : service.authorize post with
  | error reply =>
      right
      simp only [reencrypt, hauthorize]
      exact (service.refused_of_authorize hauthorize).2.le_status
  | ok authorized =>
      rcases authorized with ⟨request, kfrag⟩
      rcases hstore : WorkOrders.store core.keyCodec post.lmdb (.str post.uuid.text)
        request.bobVerifyingKey datastore with ⟨stored, after⟩
      cases stored with
      | error error =>
          right
          simp only [reencrypt, hauthorize, hstore, ReencryptionReply.status]
          omega
      | ok stored =>
          left
          refine ⟨request, kfrag, service.authorize_eq_ok_iff.mp hauthorize, ?_⟩
          simp only [reencrypt, hauthorize, hstore]

end UrsulaService

/-- What the middleware makes of a response of the endpoint. -/
def ReencryptionReply.answer (reply : ReencryptionReply) : MiddlewareAnswer :=
  match Exchange.handleResponse reply.status with
  | .ok _ => .content (reply.content?.getD [])
  | .error .notFound => .notFound
  | .error _ => .unexpectedResponse

/-- Only what is served has content for the client. -/
theorem UrsulaService.answer_eq_content {core : ReencryptionCore} {service : UrsulaService core}
    {post : ReencryptionPost core} {datastore : Dict Bytes Bytes} {bytes : Bytes}
    (h : (service.reencrypt post datastore).1.answer = .content bytes) :
    ∃ request kfrag, service.Authorized post request kfrag ∧
      bytes = service.reencryptCapsules post.coins kfrag request.capsules := by
  rcases service.served_or_le_status post datastore with
    ⟨request, kfrag, hauthorized, hserved⟩ | hstatus
  · refine ⟨request, kfrag, hauthorized, ?_⟩
    rw [hserved] at h
    exact (MiddlewareAnswer.content.inj h).symm
  · rcases Exchange.handleResponse_of_le hstatus with ⟨error, herror, -⟩
    unfold ReencryptionReply.answer at h
    rw [herror] at h
    cases error <;> cases h

/-! ## The retriever -/

/-- {lit}`MessageKit`. -/
structure MessageKit (Capsule : Type) where
  capsule : Capsule
  ciphertext : Bytes

/-- A treasure map that Bob has decrypted. -/
structure OpenedMap (core : ReencryptionCore) extends TreasureMap core.EncryptedKeyFrag where
  hrac : core.HRAC
  policyEncryptingKey : core.PublicKey
  publisherVerifyingKey : core.PublicKey

/-- What the decryption of a message kit raises: {lit}`ValueError`, or anything else. -/
inductive DecryptionException where
  | valueError (text : String)
  | other (text : String)
deriving DecidableEq

/-- What retrieval and decryption use of {lit}`nucypher_core` besides.  The key that a response is
verified with is that of its node. -/
structure DeliveryCore extends ReencryptionCore where
  Response : Type
  messageKit (policyEncryptingKey : PublicKey) (plaintext : Bytes) (coins : Coins) :
    MessageKit Capsule
  decryptTreasureMap (encrypted : EncryptedTreasureMap) (privkey : SecretKey)
    (publisherVerifyingKey : PublicKey) : Except String (OpenedMap toReencryptionCore)
  responseFromBytes : Bytes → Option Response
  verify (response : Response) (capsules : List Capsule) (aliceVerifyingKey : PublicKey)
    (ursula : Node) (policyEncryptingKey bobEncryptingKey : PublicKey) :
    Except ResponseError (List CapsuleFrag)
  decryptReencrypted (privkey : SecretKey) (policyEncryptingKey : PublicKey)
    (kit : MessageKit Capsule) (cfrags : List CapsuleFrag) : Except DecryptionException Bytes

/-- A Bob who retrieves with a treasure map, as far as the client sees him. -/
structure Retriever (core : DeliveryCore) where
  codec : AddressCodec
  treasureMap : OpenedMap core.toReencryptionCore
  aliceVerifyingKey : core.PublicKey
  bobEncryptingKey : core.PublicKey
  bobVerifyingKey : core.PublicKey

namespace Retriever

variable {core : DeliveryCore} (retriever : Retriever core)

/-- The keys of a retrieval. -/
def api : ReencryptionApi core.Capsule core.CapsuleFrag core.Response where
  fromBytes := core.responseFromBytes
  verify response capsules ursula :=
    core.verify response capsules retriever.aliceVerifyingKey ursula
      retriever.treasureMap.policyEncryptingKey retriever.bobEncryptingKey

abbrev Call (core : DeliveryCore) : Type :=
  RetrievalCall core.Capsule core.CapsuleFrag core.EncryptedKeyFrag core.Response

/-- The call of {lit}`retrieve_cfrags` for some kits. -/
def call (kits : List (RetrievalKit core.Capsule)) (pickOrder : PickOrder) : Call core where
  codec := retriever.codec
  api := retriever.api
  treasureMap := retriever.treasureMap.toTreasureMap
  retrievalKits := kits
  pickOrder := pickOrder

/-- The {lit}`ReencryptionRequest` that a worker sends for its order. -/
def reencryptionRequest (workOrder : RetrievalWorkOrder core.Capsule)
    (encryptedKfrag : core.EncryptedKeyFrag) : core.Request where
  hrac := retriever.treasureMap.hrac
  capsules := workOrder.capsules
  encryptedKfrag := encryptedKfrag
  bobVerifyingKey := retriever.bobVerifyingKey
  publisherVerifyingKey := retriever.treasureMap.publisherVerifyingKey

/-- The request of a worker meets a node that is down, or the answer is what the service at its
address replies to it. -/
def AnsweredBy (services : CanonicalAddress → UrsulaService core.toReencryptionCore)
    (workOrder : RetrievalWorkOrder core.Capsule) (answer : MiddlewareAnswer) : Prop :=
  answer = .nodeSeemsToBeDown ∨
    ∀ encryptedKfrag,
      retriever.treasureMap.destinations.get? workOrder.ursulaAddress = some encryptedKfrag →
      ∃ post datastore,
        post.data = core.requestBytes (retriever.reencryptionRequest workOrder encryptedKfrag) ∧
        answer = ((services workOrder.ursulaAddress).reencrypt post datastore).1.answer

/-- Every worker of a run was answered by the service at the address that it asked. -/
def Answered (services : CanonicalAddress → UrsulaService core.toReencryptionCore)
    {call : Call core} (run : RetrievalRun call) : Prop :=
  ∀ key outcome, (key, outcome) ∈ run.ended → ∃ input, outcome = call.worker key input ∧
    ∀ workOrder, call.workerOrders.get? key = some workOrder →
      retriever.AnsweredBy services workOrder input.answer

end Retriever

/-! ## What is documented of the cryptography -/

/-- The key fragments by the addresses of the nodes that they are assigned to. -/
abbrev AssignedKfrags (core : NucypherCore) : Type :=
  Dict CanonicalAddress (core.PublicKey × core.KeyFrag)

/-- What the serialization and the encryption of {lit}`nucypher_core` promise: a request can be
read back; a key fragment that decrypts is the one that was encrypted for its destination; a
treasure map opens as it was made; a response that is verified has the fragments that were sent,
one for each capsule; and a threshold of fragments by different key fragments opens a message. -/
structure DeliveryCore.Lawful (core : DeliveryCore) : Prop where
  requestFromBytes_bytes : ∀ request, core.requestFromBytes (core.requestBytes request) =
    .ok request
  decryptKfrag_destination : ∀ hrac policyEncryptingKey
    (assignedKfrags : AssignedKfrags core.toNucypherCore) threshold treasureMap,
    core.treasureMap hrac policyEncryptingKey assignedKfrags threshold = some treasureMap →
    ∀ address encryptedKfrag privkey policy publisher kfrag,
      (core.destinations treasureMap).get? address = some encryptedKfrag →
      core.decryptKfrag encryptedKfrag privkey policy publisher = .ok kfrag →
      ∃ key, assignedKfrags.get? address = some (key, kfrag)
  decryptTreasureMap_encrypt : ∀ hrac policyEncryptingKey
    (assignedKfrags : AssignedKfrags core.toNucypherCore) threshold treasureMap,
    core.treasureMap hrac policyEncryptingKey assignedKfrags threshold = some treasureMap →
    ∀ privkey encrypted publisher opened,
      core.encrypt treasureMap (core.publicKey privkey) = some encrypted →
      core.decryptTreasureMap encrypted privkey publisher = .ok opened →
      opened.threshold = threshold ∧ opened.destinations = core.destinations treasureMap ∧
        opened.policyEncryptingKey = policyEncryptingKey
  verify_response : ∀ signer capsules vcfrags response,
    core.responseFromBytes (core.responseBytes signer capsules vcfrags) = some response →
    ∀ requested aliceKey ursula policyKey bobKey verified,
      core.verify response requested aliceKey ursula policyKey bobKey = .ok verified →
      verified = vcfrags
  verify_length : ∀ response requested aliceKey ursula policyKey bobKey verified,
    core.verify response requested aliceKey ursula policyKey bobKey = .ok verified →
    verified.length = requested.length
  decryptReencrypted_of_threshold : ∀ privkey label threshold shares policyEncryptingKey kfrags,
    core.generateKfrags (core.publicKey privkey) label threshold shares =
      some (policyEncryptingKey, kfrags) →
    ∀ (plaintext : Bytes) (coins : core.Coins) (shown : List (core.KeyFrag × core.Coins)),
      (shown.map Prod.fst).Subperm kfrags → threshold ≤ shown.length →
      core.decryptReencrypted privkey policyEncryptingKey
        (core.messageKit policyEncryptingKey plaintext coins)
        (shown.map fun pair => core.reencrypt
          (core.messageKit policyEncryptingKey plaintext coins).capsule pair.1 pair.2) =
        .ok plaintext

/-! ## One worker -/

namespace Retriever

variable {core : DeliveryCore} {retriever : Retriever core}

/-- What a worker that succeeds has seen. -/
theorem content_of_returned {call : Call core} {key : ChecksumAddress} {input : WorkerInput}
    {cfrags : Dict core.Capsule core.CapsuleFrag} (h : call.worker key input = .returned cfrags) :
    ∃ workOrder encryptedKfrag ursula bytes response verified,
      call.workerOrders.get? key = some workOrder ∧
      call.treasureMap.destinations.get? workOrder.ursulaAddress = some encryptedKfrag ∧
      input.answer = .content bytes ∧ call.api.fromBytes bytes = some response ∧
      call.api.verify response workOrder.capsules ursula = .ok verified ∧
      cfrags = Dict.ofList (workOrder.capsules.zip verified) := by
  unfold RetrievalCall.worker at h
  split at h
  · cases h
  · rename_i workOrder horder
    split at h
    · cases h
    · rename_i ursula hursula
      split at h
      · cases h
      · rename_i encryptedKfrag hencrypted
        split at h
        · cases h
        · rename_i returned hrequest
          cases h
          cases hanswer : input.answer with
          | content bytes =>
              rw [hanswer] at hrequest
              simp only [requestReencryption] at hrequest
              split at hrequest
              · cases hrequest
              · rename_i response hresponse
                split at hrequest
                · cases hrequest
                · cases hrequest
                · cases hrequest
                · rename_i verified hverify
                  cases hrequest
                  exact ⟨workOrder, encryptedKfrag, ursula, bytes, response, verified, horder,
                    hencrypted, rfl, hresponse, hverify, rfl⟩
          | _ => simp [hanswer, requestReencryption] at hrequest

/-- A fragment under an address is the re-encryption of the capsule with the key fragment that is
assigned to the address. -/
def Reencrypted (core : DeliveryCore) (codec : AddressCodec)
    (assignedKfrags : AssignedKfrags core.toNucypherCore) (capsule : core.Capsule)
    (key : ChecksumAddress) (cfrag : core.CapsuleFrag) : Prop :=
  ∃ address encryptingKey kfrag coins, key = codec.toChecksumAddress address ∧
    assignedKfrags.get? address = some (encryptingKey, kfrag) ∧
    cfrag = core.reencrypt capsule kfrag coins

/-- The key fragments at the destinations of a treasure map are those that were assigned. -/
def Assigns (treasureMap : OpenedMap core.toReencryptionCore)
    (assignedKfrags : AssignedKfrags core.toNucypherCore) : Prop :=
  ∀ address encryptedKfrag privkey policy publisher kfrag,
    treasureMap.destinations.get? address = some encryptedKfrag →
    core.decryptKfrag encryptedKfrag privkey policy publisher = .ok kfrag →
    ∃ key, assignedKfrags.get? address = some (key, kfrag)

/-- What a worker returns for a capsule is the re-encryption of the capsule with the key fragment
of its node. -/
theorem worker_reencrypts (hcore : core.Lawful)
    {services : CanonicalAddress → UrsulaService core.toReencryptionCore}
    {assignedKfrags : AssignedKfrags core.toNucypherCore}
    (hassigns : Assigns retriever.treasureMap assignedKfrags)
    {kits : List (RetrievalKit core.Capsule)} {pickOrder : PickOrder} {key : ChecksumAddress}
    {input : WorkerInput} {cfrags : Dict core.Capsule core.CapsuleFrag}
    (h : (retriever.call kits pickOrder).worker key input = .returned cfrags)
    (hanswered : ∀ workOrder,
      (retriever.call kits pickOrder).workerOrders.get? key = some workOrder →
      retriever.AnsweredBy services workOrder input.answer)
    {capsule : core.Capsule} {cfrag : core.CapsuleFrag}
    (hcfrag : cfrags.get? capsule = some cfrag) :
    Reencrypted core retriever.codec assignedKfrags capsule key cfrag := by
  rcases content_of_returned h with ⟨workOrder, encryptedKfrag, ursula, bytes, response, verified,
    horder, hencrypted, hanswer, hresponse, hverify, rfl⟩
  rcases hanswered workOrder horder with hdown | hservice
  · rw [hanswer] at hdown
    cases hdown
  · rcases hservice encryptedKfrag hencrypted with ⟨post, datastore, hdata, hreply⟩
    rcases UrsulaService.answer_eq_content (hreply.symm.trans hanswer) with
      ⟨request, kfrag, hauthorized, rfl⟩
    -- The service has read the request that the worker sent.
    have hrequest : retriever.reencryptionRequest workOrder encryptedKfrag = request := by
      have hparsed := hauthorized.parsed
      rw [hdata, hcore.requestFromBytes_bytes] at hparsed
      exact Except.ok.inj hparsed
    subst hrequest
    rcases hassigns _ _ _ _ _ _ hencrypted hauthorized.decrypted with ⟨encryptingKey, hassigned⟩
    have hverified := hcore.verify_response _ _ _ _ hresponse _ _ _ _ _ _ hverify
    rw [hverified] at hcfrag
    have hmem := Dict.mem_of_get?_ofList hcfrag
    rcases List.mem_iff_getElem.mp hmem with ⟨i, hi, hpair⟩
    rw [List.getElem_zip, List.getElem_mapIdx] at hpair
    rcases Prod.mk.inj hpair with ⟨hcapsule, rfl⟩
    refine ⟨workOrder.ursulaAddress, encryptingKey, kfrag, post.coins i,
      (RetrievalPlan.workOrders_sound horder).1, hassigned, ?_⟩
    rw [← hcapsule]
    rfl

/-! ## The results of the client -/

/-- Every fragment in a result of the client is the re-encryption of its capsule with the key
fragment that is assigned to its address. -/
theorem finalResult_reencrypted (hcore : core.Lawful)
    {services : CanonicalAddress → UrsulaService core.toReencryptionCore}
    {assignedKfrags : AssignedKfrags core.toNucypherCore}
    (hassigns : Assigns retriever.treasureMap assignedKfrags)
    {kits : List (RetrievalKit core.Capsule)} {pickOrder : PickOrder}
    {run : RetrievalRun (retriever.call kits pickOrder)}
    (hanswered : retriever.Answered services run) {capsule : core.Capsule} {key : ChecksumAddress}
    {cfrag : core.CapsuleFrag} (h : (run.finalResult capsule).cfrags.get? key = some cfrag) :
    Reencrypted core retriever.codec assignedKfrags capsule key cfrag := by
  rcases (run.get?_finalResult capsule key cfrag).mp h with ⟨cfrags, hmem, hcfrag⟩
  rcases hanswered _ _ hmem with ⟨input, hworker, hanswer⟩
  exact worker_reencrypts hcore hassigns hworker.symm hanswer hcfrag

end Retriever

/-! ## Kits without fragments -/

namespace RetrievalRun

variable {Capsule CapsuleFrag EncryptedKeyFrag Response : Type} [DecidableEq Capsule]
  {call : RetrievalCall Capsule CapsuleFrag EncryptedKeyFrag Response}

/-- No kit of the call has fragments. -/
def Fresh (call : RetrievalCall Capsule CapsuleFrag EncryptedKeyFrag Response) : Prop :=
  ∀ kit ∈ call.retrievalKits, kit.queriedAddresses = ∅

omit [DecidableEq Capsule] in
theorem getD_eq_empty {κ α : Type} [DecidableEq κ] {table : Dict κ (Finset α)}
    (h : ∀ k elements, table.get? k = some elements → elements = ∅) (k : κ) :
    (table.get? k).getD ∅ = ∅ := by
  cases hget : table.get? k with
  | none => rfl
  | some elements => exact h k elements hget

/-- Nothing was queried before for the capsules of fresh kits. -/
theorem queried_of_fresh (hfresh : Fresh call) (capsule : Capsule) :
    call.newPlan.queried capsule = ∅ := by
  refine getD_eq_empty (fun k elements hget => ?_) capsule
  rcases List.mem_map.mp (Dict.mem_of_get?_ofList hget) with ⟨kit, hkit, hpair⟩
  rw [← (Prod.mk.inj hpair).2]
  exact hfresh kit hkit

theorem processed_of_fresh (hfresh : Fresh call) (address : CanonicalAddress)
    (capsule : Capsule) : capsule ∉ call.newPlan.processed address := by
  intro hmem
  rcases RetrievalPlan.mem_processedBy.mp hmem with ⟨kit, hkit, -, haddress⟩
  rw [hfresh kit hkit] at haddress
  simp at haddress

/-- A node that is asked at all is asked for the capsules of all fresh kits. -/
theorem capsules_of_order_fresh (hfresh : Fresh call) {key : ChecksumAddress}
    {workOrder : RetrievalWorkOrder Capsule}
    (horder : call.workerOrders.get? key = some workOrder) :
    workOrder.capsules = call.retrievalKits.map RetrievalKit.capsule := by
  have hasked : ∃ capsule, capsule ∈ workOrder.capsules := by
    unfold RetrievalCall.workerOrders at horder
    rw [RetrievalPlan.workOrders_eq] at horder
    rcases List.mem_map.mp (Dict.mem_of_get?_ofList horder) with ⟨address, haddress, hentry⟩
    cases hentry
    exact List.exists_mem_of_length_pos (by simpa using (List.mem_filter.mp haddress).2)
  rw [(RetrievalPlan.workOrders_sound horder).2] at hasked ⊢
  rcases hasked with ⟨capsule, hcapsule⟩
  have hfew := (List.mem_filter.mp hcapsule).2
  simp only [queried_of_fresh hfresh, processed_of_fresh hfresh, not_false_eq_true, true_and,
    decide_eq_true_eq] at hfew
  refine List.filter_eq_self.mpr fun other hother => ?_
  simp only [queried_of_fresh hfresh, processed_of_fresh hfresh, not_false_eq_true, true_and,
    decide_eq_true_eq]
  exact hfew

/-- The addresses in the result of a fresh kit are those of the workers that succeeded. -/
theorem keys_finalResult_fresh (run : RetrievalRun call) (hfresh : Fresh call)
    (hverify : call.api.OnePerCapsule) {kit : RetrievalKit Capsule}
    (hkit : kit ∈ call.retrievalKits) :
    (run.finalResult kit.capsule).cfrags.keys.toFinset = run.succeeded := by
  ext key
  rw [List.mem_toFinset, Dict.mem_keys_iff_exists, mem_succeeded]
  constructor
  · rintro ⟨cfrag, hcfrag⟩
    rcases (run.get?_finalResult kit.capsule key cfrag).mp hcfrag with ⟨cfrags, hmem, -⟩
    exact ⟨cfrags, hmem⟩
  · rintro ⟨cfrags, hmem⟩
    rcases run.worker_of_mem_ended hmem with ⟨input, hinput⟩
    rcases RetrievalCall.mem_keys_of_returned hverify hinput.symm with ⟨workOrder, horder, hall⟩
    have hcapsule : kit.capsule ∈ workOrder.capsules := by
      rw [capsules_of_order_fresh hfresh horder]
      exact List.mem_map_of_mem hkit
    rcases Dict.mem_keys_iff_exists.mp (hall _ hcapsule) with ⟨cfrag, hcfrag⟩
    exact ⟨cfrag, (run.get?_finalResult kit.capsule key cfrag).mpr ⟨cfrags, hmem, hcfrag⟩⟩

/-- Every worker that succeeds adds one fragment to every fresh kit. -/
theorem card_finalResult_fresh (run : RetrievalRun call) (hfresh : Fresh call)
    (hverify : call.api.OnePerCapsule) {kit : RetrievalKit Capsule}
    (hkit : kit ∈ call.retrievalKits) :
    (run.finalResult kit.capsule).cfrags.len = run.succeeded.card := by
  rw [← Dict.card_keys, run.keys_finalResult_fresh hfresh hverify hkit]

end RetrievalRun

end NuLink
