import NuLinkCore.Characters.Bob
import NuLinkCore.Lib.Shares
import NuLinkCore.Network.Retrieval.Served

/-!
# From a grant to the plaintext

Alice grants a policy, messages are encrypted with its key, and Bob retrieves fragments for the
messages, in as many calls as he likes, from nodes that serve him.  He may keep the kits of one
call for the next one.  Whatever the calls meet on the way, his kits only ever have fragments
that fit together, so that a kit with enough of them opens as the message that was put into it.

Main results:

- Theorem {lit}`Retriever.retrieve_outline`: with the messages in the kits, a retrieval is the one
  of {lit}`Bob.retrieve`.
- Theorem {lit}`Retriever.Session.carries`: what holds of the kits over any number of calls.
- Theorem {lit}`Retriever.grant_delivers`: exactly when {lit}`retrieve_and_decrypt` returns, and
  that it returns the messages.
- Theorem {lit}`Retriever.fresh_delivery_eq`: the outcome for messages without fragments.
-/

namespace NuLink

open Collections Execution

/-- A retrieval whose pools report some successes but too few raises. -/
theorem RetrievalRun.retrieveCfrags_eq_error {Capsule CapsuleFrag EncryptedKeyFrag Response : Type}
    [DecidableEq Capsule] {call : RetrievalCall Capsule CapsuleFrag EncryptedKeyFrag Response}
    (run : RetrievalRun call) (hsome : 0 < run.reported)
    (hfew : run.reported < call.treasureMap.threshold) :
    run.retrieveCfrags = .error (.attributeError "checksum_address") := by
  rcases run.retrieveCfrags_eq_finish with ⟨successes, hlen, heq⟩
  have hvalues : successes.values.length = successes.len := by simp [Dict.values, Dict.len]
  rw [heq, finish, if_pos (hlen ▸ hfew), acceptedAddresses]
  cases hlist : successes.values with
  | nil =>
      rw [hlist, List.length_nil] at hvalues
      omega
  | cons cfrags rest => rfl

/-! ## Message kits with their messages -/

/-- {lit}`PolicyMessageKit`. -/
structure SealedKit (core : DeliveryCore) where
  messageKit : MessageKit core.Capsule
  policyEncryptingKey : core.PublicKey
  threshold : Nat
  result : RetrievalResult core.CapsuleFrag

namespace SealedKit

variable {core : DeliveryCore}

/-- What the kit is without its message. -/
def outline (kit : SealedKit core) : PolicyMessageKit core.Capsule core.CapsuleFrag :=
  ⟨kit.messageKit.capsule, kit.threshold, kit.result⟩

/-- {lit}`with_result`. -/
def withResult (kit : SealedKit core) (result : RetrievalResult core.CapsuleFrag) :
    SealedKit core :=
  { kit with result := kit.result.withResult result }

/-- {lit}`is_decryptable_by_receiver`. -/
def isDecryptableByReceiver (kit : SealedKit core) : Bool :=
  decide (kit.threshold ≤ kit.result.cfrags.len)

/-- {lit}`decrypt`. -/
def decrypt (privkey : core.SecretKey) (kit : SealedKit core) :
    Except DecryptionException Bytes :=
  core.decryptReencrypted privkey kit.policyEncryptingKey kit.messageKit
    kit.result.cfrags.values

end SealedKit

/-- A message kit as Bob is given it. -/
inductive GivenKit (core : DeliveryCore) where
  | messageKit (kit : MessageKit core.Capsule)
  | policyMessageKit (kit : SealedKit core)

def GivenKit.outline {core : DeliveryCore} :
    GivenKit core → BobMessageKit core.Capsule core.CapsuleFrag
  | .messageKit kit => .messageKit kit.capsule
  | .policyMessageKit kit => .policyMessageKit kit.outline

/-- Why {lit}`retrieve_and_decrypt` raises. -/
inductive DeliveryError (core : DeliveryCore) where
  | retrieval (raised : RetrievalError)
  | notEnoughUrsulas (capsule : core.Capsule)
  | decryptionFailed
  | other (text : String)

/-- {lit}`DecryptingKeypair.decrypt_message_kit`. -/
def decryptMessageKit {core : DeliveryCore} (privkey : core.SecretKey) (kit : SealedKit core) :
    Except (DeliveryError core) Bytes :=
  match kit.decrypt privkey with
  | .ok plaintext => .ok plaintext
  | .error (.valueError _) => .error .decryptionFailed
  | .error (.other text) => .error (.other text)

namespace Retriever

variable {core : DeliveryCore} (retriever : Retriever core)

/-- The normalization of the input of {lit}`Bob.retrieve`. -/
def normalize : GivenKit core → SealedKit core
  | .messageKit kit =>
      ⟨kit, retriever.treasureMap.policyEncryptingKey, retriever.treasureMap.threshold,
        RetrievalResult.empty⟩
  | .policyMessageKit kit => kit

/-- The call of the client for Bob's kits. -/
def kitsCall (kits : List (GivenKit core)) (pickOrder : PickOrder) : Call core :=
  retriever.call
    ((kits.map retriever.normalize).map fun kit => kit.outline.asRetrievalKit retriever.codec)
    pickOrder

variable {kits : List (GivenKit core)} {pickOrder : PickOrder}

/-- {lit}`Bob.retrieve`, with the messages in the kits. -/
def retrieve (kits : List (GivenKit core))
    (run : RetrievalRun (retriever.kitsCall kits pickOrder)) :
    Except RetrievalError (List (SealedKit core)) :=
  match run.retrieveCfrags with
  | .error raised => .error raised
  | .ok results =>
      .ok (List.zipWith SealedKit.withResult (kits.map retriever.normalize) results)

/-- The two loops of {lit}`retrieve_and_decrypt`. -/
def decryptKits (privkey : core.SecretKey) (kits : List (SealedKit core)) :
    Except (DeliveryError core) (List Bytes) :=
  match kits.find? fun kit => !kit.isDecryptableByReceiver with
  | some kit => .error (.notEnoughUrsulas kit.messageKit.capsule)
  | none => kits.mapM (decryptMessageKit privkey)

/-- {lit}`retrieve_and_decrypt`. -/
def retrieveAndDecrypt (privkey : core.SecretKey) (kits : List (GivenKit core))
    (run : RetrievalRun (retriever.kitsCall kits pickOrder)) :
    Except (DeliveryError core) (List Bytes) :=
  match retriever.retrieve kits run with
  | .error raised => .error (.retrieval raised)
  | .ok loaded => decryptKits privkey loaded

theorem normalize_outline (kit : GivenKit core) :
    (retriever.normalize kit).outline =
      Bob.normalize retriever.treasureMap.threshold kit.outline := by
  cases kit with
  | messageKit kit => rfl
  | policyMessageKit kit => rfl

theorem map_normalize_outline (kits : List (GivenKit core)) :
    (kits.map retriever.normalize).map SealedKit.outline =
      (kits.map GivenKit.outline).map (Bob.normalize retriever.treasureMap.threshold) := by
  rw [List.map_map, List.map_map]
  exact List.map_congr_left fun kit _ => retriever.normalize_outline kit

/-- Without the messages it is the retrieval of {lit}`Bob.retrieve`. -/
theorem retrieve_outline (kits : List (GivenKit core))
    (run : RetrievalRun (retriever.kitsCall kits pickOrder)) :
    (retriever.retrieve kits run).map (List.map SealedKit.outline) =
      Bob.retrieve (kits.map GivenKit.outline) run := by
  unfold retrieve Bob.retrieve
  cases run.retrieveCfrags with
  | error raised => rfl
  | ok results =>
      have hzip : (List.zipWith SealedKit.withResult (kits.map retriever.normalize) results).map
          SealedKit.outline =
          List.zipWith PolicyMessageKit.withResult
            ((kits.map retriever.normalize).map SealedKit.outline) results := by
        simp only [List.map_zipWith, List.zipWith_map_left]
        rfl
      rw [map_normalize_outline] at hzip
      exact congrArg Except.ok hzip

/-- The kits that Bob gets back, with what the client has for their capsules. -/
theorem retrieve_eq_ok_iff {run : RetrievalRun (retriever.kitsCall kits pickOrder)}
    {loaded : List (SealedKit core)} :
    retriever.retrieve kits run = .ok loaded ↔
      loaded = (kits.map retriever.normalize).map (fun kit =>
        kit.withResult (run.finalResult kit.messageKit.capsule)) ∧
      (run.reported = 0 ∨ retriever.treasureMap.threshold ≤ run.reported) := by
  have hresults : (retriever.kitsCall kits pickOrder).retrievalKits.map
      (fun kit => run.finalResult kit.capsule) =
      (kits.map retriever.normalize).map fun kit => run.finalResult kit.messageKit.capsule :=
    List.map_map
  have hzip : List.zipWith SealedKit.withResult (kits.map retriever.normalize)
      ((kits.map retriever.normalize).map fun kit => run.finalResult kit.messageKit.capsule) =
      (kits.map retriever.normalize).map fun kit =>
        kit.withResult (run.finalResult kit.messageKit.capsule) := by
    rw [List.zipWith_map_right, List.zipWith_self]
  unfold retrieve
  constructor
  · intro h
    split at h
    · cases h
    · rename_i results hok
      rcases (run.retrieveCfrags_eq_ok_iff results).mp hok with ⟨rfl, hreported⟩
      cases h
      exact ⟨by rw [hresults, hzip], hreported⟩
  · rintro ⟨rfl, hreported⟩
    rw [(run.retrieveCfrags_eq_ok_iff _).mpr ⟨rfl, hreported⟩]
    simp only [hresults, hzip]

/-! ## What the kits carry -/

/-- A kit carries a message: it was made from it, and its fragments are re-encryptions with the
key fragments that are assigned to their nodes. -/
structure Carries (policyEncryptingKey : core.PublicKey)
    (assignedKfrags : AssignedKfrags core.toNucypherCore) (message : Bytes × core.Coins)
    (kit : SealedKit core) : Prop where
  messageKit : kit.messageKit = core.messageKit policyEncryptingKey message.1 message.2
  policyKey : kit.policyEncryptingKey = policyEncryptingKey
  threshold : kit.threshold = retriever.treasureMap.threshold
  reencrypted : ∀ key cfrag, kit.result.cfrags.get? key = some cfrag →
    Reencrypted core retriever.codec assignedKfrags kit.messageKit.capsule key cfrag

/-- The kits as a sender makes them. -/
def sealedMessages (policyEncryptingKey : core.PublicKey)
    (messages : List (Bytes × core.Coins)) : List (GivenKit core) :=
  messages.map fun message =>
    .messageKit (core.messageKit policyEncryptingKey message.1 message.2)

/-- The kits that Bob may have after calls of {lit}`retrieve`, each with the kits from before.
A call that raises leaves the kits that he had. -/
inductive Session (services : CanonicalAddress → UrsulaService core.toReencryptionCore)
    (given : List (GivenKit core)) : List (GivenKit core) → Prop where
  | start : Session services given given
  | retrieved {kits : List (GivenKit core)} (h : Session services given kits)
      {pickOrder : PickOrder} (run : RetrievalRun (retriever.kitsCall kits pickOrder))
      (hanswered : retriever.Answered services run) {loaded : List (SealedKit core)}
      (hloaded : retriever.retrieve kits run = .ok loaded) :
      Session services given (loaded.map .policyMessageKit)

variable {retriever} {policyEncryptingKey : core.PublicKey}
  {assignedKfrags : AssignedKfrags core.toNucypherCore}
  {services : CanonicalAddress → UrsulaService core.toReencryptionCore}

/-- A message kit without fragments carries its message. -/
theorem carries_sealed (hkey : retriever.treasureMap.policyEncryptingKey = policyEncryptingKey)
    (message : Bytes × core.Coins) :
    retriever.Carries policyEncryptingKey assignedKfrags message
      (retriever.normalize
        (.messageKit (core.messageKit policyEncryptingKey message.1 message.2))) where
  messageKit := rfl
  policyKey := hkey
  threshold := rfl
  reencrypted := by
    intro key cfrag hget
    cases hget

/-- A kit that carries a message still does with the results of a call that was answered. -/
theorem Carries.withResult (hcore : core.Lawful)
    (hassigns : Assigns retriever.treasureMap assignedKfrags) {message : Bytes × core.Coins}
    {kit : SealedKit core} (h : retriever.Carries policyEncryptingKey assignedKfrags message kit)
    {kits : List (GivenKit core)} {pickOrder : PickOrder}
    {run : RetrievalRun (retriever.kitsCall kits pickOrder)}
    (hanswered : retriever.Answered services run) :
    retriever.Carries policyEncryptingKey assignedKfrags message
      (kit.withResult (run.finalResult kit.messageKit.capsule)) where
  messageKit := h.messageKit
  policyKey := h.policyKey
  threshold := h.threshold
  reencrypted := by
    intro key cfrag hget
    have hupdate : (kit.result.cfrags.update
        (run.finalResult kit.messageKit.capsule).cfrags).get? key = some cfrag := hget
    rw [Dict.get?_update] at hupdate
    rcases Option.or_eq_some_iff.mp hupdate with hnew | ⟨-, hold⟩
    · exact finalResult_reencrypted hcore hassigns hanswered hnew
    · exact h.reencrypted key cfrag hold

/-- Over any number of calls, every kit carries its message. -/
theorem Session.carries (hcore : core.Lawful)
    (hassigns : Assigns retriever.treasureMap assignedKfrags)
    (hkey : retriever.treasureMap.policyEncryptingKey = policyEncryptingKey)
    {messages : List (Bytes × core.Coins)} {kits : List (GivenKit core)}
    (h : retriever.Session services (sealedMessages policyEncryptingKey messages) kits) :
    List.Forall₂ (retriever.Carries policyEncryptingKey assignedKfrags) messages
      (kits.map retriever.normalize) := by
  induction h with
  | start =>
      rw [sealedMessages, List.map_map, List.forall₂_map_right_iff, List.forall₂_same]
      exact fun message _ => carries_sealed hkey message
  | retrieved h run hanswered hloaded ih =>
      rw [((retriever.retrieve_eq_ok_iff).mp hloaded).1, List.map_map, List.map_map,
        List.forall₂_map_right_iff]
      exact ih.imp fun message kit hkit => hkit.withResult hcore hassigns hanswered

/-! ## Opening a kit -/

/-- Fragments with their shares are fragments with key fragments and coins. -/
theorem exists_shown {capsule : core.Capsule} {cfrags : List core.CapsuleFrag}
    {shares : List (core.PublicKey × core.KeyFrag)}
    (h : List.Forall₂ (fun cfrag share => ∃ coins, cfrag = core.reencrypt capsule share.2 coins)
      cfrags shares) :
    ∃ shown : List (core.KeyFrag × core.Coins), shown.map Prod.fst = shares.map Prod.snd ∧
      cfrags = shown.map fun pair => core.reencrypt capsule pair.1 pair.2 := by
  induction h with
  | nil => exact ⟨[], rfl, rfl⟩
  | @cons cfrag share _ _ hcfrag _ ih =>
      rcases hcfrag with ⟨coins, rfl⟩
      rcases ih with ⟨shown, hshares, hcfrags⟩
      exact ⟨(share.2, coins) :: shown, by simp [hshares], by simp [hcfrags]⟩

/-- The treasure map is one of a policy: the map opens with the threshold for which the key
fragments were generated, and exactly these were assigned. -/
structure MadeFor (retriever : Retriever core) (privkey : core.SecretKey)
    (policyEncryptingKey : core.PublicKey) (assignedKfrags : AssignedKfrags core.toNucypherCore) :
    Prop where
  policyKey : retriever.treasureMap.policyEncryptingKey = policyEncryptingKey
  assigns : Assigns retriever.treasureMap assignedKfrags
  generated : ∃ label shares, core.generateKfrags (core.publicKey privkey) label
    retriever.treasureMap.threshold shares =
      some (policyEncryptingKey, assignedKfrags.values.map Prod.snd)

/-- A kit that carries a message and has enough fragments opens as the message. -/
theorem Carries.decrypt (hcore : core.Lawful) {privkey : core.SecretKey}
    (hmade : retriever.MadeFor privkey policyEncryptingKey assignedKfrags)
    {message : Bytes × core.Coins} {kit : SealedKit core}
    (h : retriever.Carries policyEncryptingKey assignedKfrags message kit)
    (henough : kit.isDecryptableByReceiver = true) : kit.decrypt privkey = .ok message.1 := by
  have hfragments : ∀ key cfrag, kit.result.cfrags.get? key = some cfrag →
      ∃ (address : CanonicalAddress) (share : core.PublicKey × core.KeyFrag),
        key = retriever.codec.toChecksumAddress address ∧
        assignedKfrags.get? address = some share ∧
        ∃ coins, cfrag = core.reencrypt kit.messageKit.capsule share.2 coins := by
    intro key cfrag hget
    rcases h.reencrypted key cfrag hget with
      ⟨address, encryptingKey, kfrag, coins, hkey, hassigned, hcfrag⟩
    exact ⟨address, (encryptingKey, kfrag), hkey, hassigned, coins, hcfrag⟩
  have hshares := Dict.exists_shares retriever.codec.toChecksumAddress
    (fun (share : core.PublicKey × core.KeyFrag) cfrag =>
      ∃ coins, cfrag = core.reencrypt kit.messageKit.capsule share.2 coins)
    hfragments
  rcases hshares with ⟨shares, hsubperm, hvalues⟩
  rcases exists_shown hvalues with ⟨shown, hshown, hcfrags⟩
  rcases hmade.generated with ⟨label, total, hgenerated⟩
  have hkfrags : (shown.map Prod.fst).Subperm (assignedKfrags.values.map Prod.snd) := by
    rw [hshown]
    rcases hsubperm with ⟨chosen, hperm, hsublist⟩
    exact ⟨chosen.map Prod.snd, hperm.map _, hsublist.map _⟩
  have hthreshold : retriever.treasureMap.threshold ≤ shown.length := by
    rw [SealedKit.isDecryptableByReceiver, decide_eq_true_eq, h.threshold] at henough
    have hlength := congrArg List.length hcfrags
    rw [List.length_map, Dict.values, List.length_map] at hlength
    exact hlength ▸ henough
  have hopen := hcore.decryptReencrypted_of_threshold _ _ _ _ _ _ hgenerated message.1 message.2
    shown hkfrags hthreshold
  rw [SealedKit.decrypt, h.policyKey, hcfrags, h.messageKit]
  exact hopen

/-- The loops of {lit}`retrieve_and_decrypt` over kits that carry messages: all messages, or a
complaint about the first kit without enough fragments. -/
theorem decryptKits_of_carries (hcore : core.Lawful) {privkey : core.SecretKey}
    (hmade : retriever.MadeFor privkey policyEncryptingKey assignedKfrags)
    {messages : List (Bytes × core.Coins)} {loaded : List (SealedKit core)}
    (h : List.Forall₂ (retriever.Carries policyEncryptingKey assignedKfrags) messages loaded) :
    decryptKits privkey loaded =
      match loaded.find? fun kit => !kit.isDecryptableByReceiver with
      | some kit => .error (.notEnoughUrsulas kit.messageKit.capsule)
      | none => .ok (messages.map Prod.fst) := by
  unfold decryptKits
  cases hfind : loaded.find? fun kit => !kit.isDecryptableByReceiver with
  | some kit => rfl
  | none =>
      have henough := List.find?_eq_none.mp hfind
      clear hfind
      simp only
      induction h with
      | nil => rfl
      | @cons message kit _ _ hkit _ ih =>
          have hopen : decryptMessageKit privkey kit = .ok message.1 := by
            have hself : kit.isDecryptableByReceiver = true := by
              simpa using henough kit List.mem_cons_self
            rw [decryptMessageKit, hkit.decrypt hcore hmade hself]
          have hrest := ih fun other hother => henough other (List.mem_cons_of_mem _ hother)
          rw [List.mapM_cons, hopen, hrest]
          rfl

end Retriever

/-! ## What a grant sends out -/

/-- What Alice has made for an enacted policy, up to the treasure map that she sends. -/
structure Granted {core : DeliveryCore} (request : GrantRequest core.toNucypherCore)
    (enacted : EnactedPolicy core.toNucypherCore) (policy : Policy core.toNucypherCore)
    (assignedKfrags : AssignedKfrags core.toNucypherCore) (treasureMap : core.TreasureMap) :
    Prop where
  generated : ∃ shares, core.generateKfrags request.bobEncryptingKey request.label
    policy.threshold shares = some (enacted.publicKey, policy.kfrags)
  assigned : assignedKfrags.values.map Prod.snd = policy.kfrags
  made : core.treasureMap policy.hrac enacted.publicKey assignedKfrags policy.threshold =
    some treasureMap
  encrypted : core.encrypt treasureMap request.bobEncryptingKey = some enacted.treasureMap

/-- Nodes with different addresses get all key fragments. -/
theorem values_assignKfrags {PublicKey KeyFrag : Type} {codec : AddressCodec}
    {ursulas : List (KnownNode PublicKey)} {kfrags : List KeyFrag}
    {assigned : Dict CanonicalAddress (PublicKey × KeyFrag)}
    (h : assignKfrags ursulas kfrags = some assigned) (hlen : ursulas.length = kfrags.length)
    (hnodup : (ursulas.map (KnownNode.checksumAddress codec)).Nodup) :
    assigned.values.map Prod.snd = kfrags := by
  have hcanonical : (ursulas.map KnownNode.canonicalAddress).Nodup := by
    refine List.pairwise_map.mpr ((List.pairwise_map.mp hnodup).imp fun hne hsame => hne ?_)
    rw [KnownNode.checksumAddress, KnownNode.checksumAddress, hsame]
  have hvalues : assigned.values.map Prod.snd = (ursulas.zip kfrags).map Prod.snd := by
    simp [Dict.values, entries_assignKfrags h hlen hcanonical, Function.comp_def, kfragEntry]
  rw [hvalues, List.map_snd_zip (le_of_eq hlen.symm)]

namespace Alice

variable {core : DeliveryCore} {codec : AddressCodec}

/-- The policy that a request is for. -/
theorem createPolicy_eq_some {alice : Alice core.toNucypherCore}
    {request : GrantRequest core.toNucypherCore} {policy : Policy core.toNucypherCore}
    {payment : PaymentMethod core.toNucypherCore}
    (h : alice.createPolicy request = some (policy, payment)) :
    (∃ shares, core.generateKfrags request.bobEncryptingKey request.label policy.threshold
      shares = some (policy.publicKey, policy.kfrags)) ∧
      policy.bobEncryptingKey = request.bobEncryptingKey := by
  unfold createPolicy at h
  cases hparams : alice.generatePolicyParameters request with
  | none => simp [hparams] at h
  | some params =>
      cases hkfrags : core.generateKfrags request.bobEncryptingKey request.label
          params.threshold params.shares with
      | none => simp [hparams, hkfrags] at h
      | some generated =>
          rcases generated with ⟨publicKey, kfrags⟩
          simp only [hparams, hkfrags, Option.bind_eq_bind, Option.bind_some] at h
          split at h
          · cases h
            exact ⟨⟨params.shares, hkfrags⟩, rfl⟩
          · cases h

/-- What an enactment has made when it ends well. -/
theorem finish_eq_ok {policy : Policy core.toNucypherCore}
    {ursulas : List (KnownNode core.PublicKey)} {enacted : EnactedPolicy core.toNucypherCore}
    (h : policy.finish ursulas = .ok enacted) :
    enacted.publicKey = policy.publicKey ∧
      ∃ assignedKfrags treasureMap, assignKfrags ursulas policy.kfrags = some assignedKfrags ∧
        core.treasureMap policy.hrac policy.publicKey assignedKfrags policy.threshold =
          some treasureMap ∧
        core.encrypt treasureMap policy.bobEncryptingKey = some enacted.treasureMap := by
  unfold Policy.finish at h
  split at h
  · cases h
  · rename_i assignedKfrags hassigned
    split at h
    · cases h
    · rename_i treasureMap hmap
      split at h
      · cases h
      · rename_i encrypted hencrypted
        split at h
        · cases h
        · cases h
          exact ⟨rfl, assignedKfrags, treasureMap, hassigned, hmap, hencrypted⟩

/-- A grant that returns has made a policy, assigned all of its key fragments and encrypted the
treasure map for Bob. -/
theorem granted_of_grant {alice : Alice core.toNucypherCore}
    {request : GrantRequest core.toNucypherCore}
    {context : GrantContext core.toNucypherCore codec}
    {enacted : EnactedPolicy core.toNucypherCore}
    (h : (alice.grant request context).result = .ok enacted) :
    ∃ policy assignedKfrags treasureMap,
      Granted request enacted policy assignedKfrags treasureMap := by
  unfold grant at h
  split at h
  · split at h
    · cases h
    · rename_i policy payment hcreate
      split at h
      · cases h
      · simp only at h
        split at h
        · cases h
        · rename_i result hresult
          split at h
          · cases h
          · cases h
            unfold Policy.enact at hresult
            split at hresult
            · cases hresult
            · rename_i ursulas hsample
              split at hresult
              · rcases createPolicy_eq_some hcreate with ⟨hgenerated, hbob⟩
                rcases finish_eq_ok hresult with
                  ⟨hkey, assignedKfrags, treasureMap, hassigned, hmade, hencrypted⟩
                rcases sample_spec hsample with ⟨hlen, hnodup⟩
                refine ⟨policy, assignedKfrags, treasureMap, ?_, ?_, ?_, ?_⟩
                · rw [hkey]
                  exact hgenerated
                · exact values_assignKfrags hassigned hlen hnodup
                · rw [hkey]
                  exact hmade
                · rw [← hbob]
                  exact hencrypted
              · cases hresult
  · cases h

end Alice

namespace Retriever

variable {core : DeliveryCore} {retriever : Retriever core}

/-- What Bob opens is a map that was made for him. -/
theorem madeFor_of_granted (hcore : core.Lawful) {request : GrantRequest core.toNucypherCore}
    {enacted : EnactedPolicy core.toNucypherCore} {policy : Policy core.toNucypherCore}
    {assignedKfrags : AssignedKfrags core.toNucypherCore} {treasureMap : core.TreasureMap}
    (hgranted : Granted request enacted policy assignedKfrags treasureMap)
    {privkey : core.SecretKey} (hbob : core.publicKey privkey = request.bobEncryptingKey)
    {publisher : core.PublicKey}
    (hopened : core.decryptTreasureMap enacted.treasureMap privkey publisher =
      .ok retriever.treasureMap) :
    retriever.MadeFor privkey enacted.publicKey assignedKfrags := by
  have hencrypted := hgranted.encrypted
  rw [← hbob] at hencrypted
  rcases hcore.decryptTreasureMap_encrypt _ _ _ _ _ hgranted.made _ _ _ _ hencrypted hopened with
    ⟨hthreshold, hdestinations, hkey⟩
  refine ⟨hkey, ?_, ?_⟩
  · intro address encryptedKfrag privkey policyId publisher kfrag hdestination hdecrypted
    rw [hdestinations] at hdestination
    exact hcore.decryptKfrag_destination _ _ _ _ _ hgranted.made _ _ _ _ _ _ hdestination
      hdecrypted
  · rcases hgranted.generated with ⟨shares, hgenerated⟩
    refine ⟨request.label, shares, ?_⟩
    rw [hbob, hthreshold, hgranted.assigned]
    exact hgenerated

/-! ## Any number of calls -/

/-- The nodes whose fragments a kit has after a call. -/
def holdersAfter {kits : List (GivenKit core)} {pickOrder : PickOrder}
    (run : RetrievalRun (retriever.kitsCall kits pickOrder)) (kit : SealedKit core) :
    Finset ChecksumAddress :=
  kit.result.cfrags.keys.toFinset ∪
    (run.finalResult kit.messageKit.capsule).cfrags.keys.toFinset

theorem isDecryptable_withResult_iff {kits : List (GivenKit core)} {pickOrder : PickOrder}
    {run : RetrievalRun (retriever.kitsCall kits pickOrder)} {kit : SealedKit core} :
    (kit.withResult (run.finalResult kit.messageKit.capsule)).isDecryptableByReceiver = true ↔
      kit.threshold ≤ (holdersAfter run kit).card := by
  have hkeys : (kit.result.cfrags.update
      (run.finalResult kit.messageKit.capsule).cfrags).keys.toFinset = holdersAfter run kit := by
    ext key
    simp only [holdersAfter, List.mem_toFinset, Dict.mem_keys_update, Finset.mem_union]
  have hlen : (kit.withResult (run.finalResult kit.messageKit.capsule)).result.cfrags.len =
      (holdersAfter run kit).card := by
    rw [← hkeys, Dict.card_keys]
    rfl
  rw [SealedKit.isDecryptableByReceiver, decide_eq_true_eq, hlen]
  rfl

/-- {lit}`retrieve_and_decrypt` for kits that carry messages. -/
theorem retrieveAndDecrypt_of_carries (hcore : core.Lawful) {privkey : core.SecretKey}
    {policyEncryptingKey : core.PublicKey} {assignedKfrags : AssignedKfrags core.toNucypherCore}
    (hmade : retriever.MadeFor privkey policyEncryptingKey assignedKfrags)
    {services : CanonicalAddress → UrsulaService core.toReencryptionCore}
    {messages : List (Bytes × core.Coins)} {kits : List (GivenKit core)}
    (hcarries : List.Forall₂ (retriever.Carries policyEncryptingKey assignedKfrags) messages
      (kits.map retriever.normalize))
    {pickOrder : PickOrder} {run : RetrievalRun (retriever.kitsCall kits pickOrder)}
    (hanswered : retriever.Answered services run) :
    retriever.retrieveAndDecrypt privkey kits run =
      match retriever.retrieve kits run with
      | .error raised => .error (.retrieval raised)
      | .ok loaded =>
          match loaded.find? fun kit => !kit.isDecryptableByReceiver with
          | some kit => .error (.notEnoughUrsulas kit.messageKit.capsule)
          | none => .ok (messages.map Prod.fst) := by
  unfold retrieveAndDecrypt
  cases hretrieve : retriever.retrieve kits run with
  | error raised => rfl
  | ok loaded =>
      refine decryptKits_of_carries hcore hmade ?_
      rw [((retriever.retrieve_eq_ok_iff).mp hretrieve).1]
      exact List.forall₂_map_right_iff.mpr
        (hcarries.imp fun _ _ hkit => hkit.withResult hcore hmade.assigns hanswered)

/-- No kit is short of fragments after a call exactly when every kit has those of a threshold of
nodes. -/
theorem find?_short_eq_none_iff {policyEncryptingKey : core.PublicKey}
    {assignedKfrags : AssignedKfrags core.toNucypherCore}
    {messages : List (Bytes × core.Coins)} {kits : List (GivenKit core)}
    (hcarries : List.Forall₂ (retriever.Carries policyEncryptingKey assignedKfrags) messages
      (kits.map retriever.normalize))
    {pickOrder : PickOrder} (run : RetrievalRun (retriever.kitsCall kits pickOrder)) :
    (((kits.map retriever.normalize).map fun kit =>
        kit.withResult (run.finalResult kit.messageKit.capsule)).find?
          fun kit => !kit.isDecryptableByReceiver) = none ↔
      ∀ kit ∈ kits.map retriever.normalize,
        retriever.treasureMap.threshold ≤ (holdersAfter run kit).card := by
  have hthreshold : ∀ kit ∈ kits.map retriever.normalize,
      kit.threshold = retriever.treasureMap.threshold := by
    intro kit hkit
    rcases List.mem_iff_getElem.mp hkit with ⟨i, hi, rfl⟩
    exact (hcarries.get (hcarries.length_eq ▸ hi) hi).threshold
  rw [List.find?_eq_none, List.forall_mem_map]
  refine forall₂_congr fun kit hkit => ?_
  rw [Bool.not_eq_true, Bool.not_eq_false', isDecryptable_withResult_iff, hthreshold kit hkit]

/-- Alice's grant reaches Bob.  He opens the treasure map of an enacted policy, has kits from any
number of calls of {lit}`retrieve` for messages that were encrypted for the policy, and calls
{lit}`retrieve_and_decrypt`; every answer that he got was what the service at its address replied
to his request.  The call returns exactly when its pools report no success or a threshold of them
and every kit then has fragments of a threshold of nodes, and it returns the messages.  It never
fails at a decryption. -/
theorem grant_delivers (hcore : core.Lawful) {alice : Alice core.toNucypherCore}
    {request : GrantRequest core.toNucypherCore} {codec : AddressCodec}
    {context : GrantContext core.toNucypherCore codec}
    {enacted : EnactedPolicy core.toNucypherCore}
    (hgrant : (alice.grant request context).result = .ok enacted) {privkey : core.SecretKey}
    (hbob : core.publicKey privkey = request.bobEncryptingKey) {publisher : core.PublicKey}
    (hopened : core.decryptTreasureMap enacted.treasureMap privkey publisher =
      .ok retriever.treasureMap)
    {services : CanonicalAddress → UrsulaService core.toReencryptionCore}
    {messages : List (Bytes × core.Coins)} {kits : List (GivenKit core)}
    (hsession : retriever.Session services (sealedMessages enacted.publicKey messages) kits)
    {pickOrder : PickOrder} (run : RetrievalRun (retriever.kitsCall kits pickOrder))
    (hanswered : retriever.Answered services run) :
    (∀ cleartexts, retriever.retrieveAndDecrypt privkey kits run = .ok cleartexts ↔
      cleartexts = messages.map Prod.fst ∧
      (run.reported = 0 ∨ retriever.treasureMap.threshold ≤ run.reported) ∧
      ∀ kit ∈ kits.map retriever.normalize,
        retriever.treasureMap.threshold ≤ (holdersAfter run kit).card) ∧
    ∀ error, retriever.retrieveAndDecrypt privkey kits run = .error error →
      (∃ raised, error = .retrieval raised) ∨ ∃ capsule, error = .notEnoughUrsulas capsule := by
  rcases Alice.granted_of_grant hgrant with ⟨policy, assignedKfrags, treasureMap, hgranted⟩
  have hmade := madeFor_of_granted hcore hgranted hbob hopened
  have hcarries := hsession.carries hcore hmade.assigns hmade.policyKey
  rw [retrieveAndDecrypt_of_carries hcore hmade hcarries hanswered]
  have hshort := find?_short_eq_none_iff hcarries run
  cases hretrieve : retriever.retrieve kits run with
  | error raised =>
      refine ⟨fun cleartexts => ?_, fun error herror => Or.inl ⟨raised, ?_⟩⟩
      · simp only [reduceCtorEq, false_iff]
        rintro ⟨-, hreported, -⟩
        rw [(retriever.retrieve_eq_ok_iff).mpr ⟨rfl, hreported⟩] at hretrieve
        cases hretrieve
      · exact (Except.error.inj herror).symm
  | ok loaded =>
      rcases (retriever.retrieve_eq_ok_iff).mp hretrieve with ⟨rfl, hreported⟩
      rw [← hshort, and_iff_right hreported]
      cases hfind : ((kits.map retriever.normalize).map fun kit =>
          kit.withResult (run.finalResult kit.messageKit.capsule)).find?
            fun kit => !kit.isDecryptableByReceiver with
      | some short =>
          refine ⟨fun cleartexts => ?_, fun error herror => Or.inr ⟨short.messageKit.capsule, ?_⟩⟩
          · simp only [hfind, reduceCtorEq, and_false]
          · simp only [hfind] at herror
            exact (Except.error.inj herror).symm
      | none =>
          refine ⟨fun cleartexts => ?_, fun error herror => ?_⟩
          · simp only [hfind, Except.ok.injEq, and_true]
            exact eq_comm
          · simp only [hfind, reduceCtorEq] at herror

/-! ## One call for fresh messages -/

/-- The call for messages without fragments asks for all of them everywhere. -/
theorem fresh_kitsCall (policyEncryptingKey : core.PublicKey)
    (messages : List (Bytes × core.Coins)) (pickOrder : PickOrder) :
    RetrievalRun.Fresh (retriever.kitsCall (sealedMessages policyEncryptingKey messages)
      pickOrder) := by
  intro kit hkit
  rcases List.mem_map.mp hkit with ⟨loaded, hloaded, rfl⟩
  rcases List.mem_map.mp hloaded with ⟨given, hgiven, rfl⟩
  rcases List.mem_map.mp hgiven with ⟨message, -, rfl⟩
  rfl

/-- After one call, every message has fragments of the nodes whose workers succeeded. -/
theorem holdersAfter_fresh (hcore : core.Lawful) {policyEncryptingKey : core.PublicKey}
    {messages : List (Bytes × core.Coins)} {pickOrder : PickOrder}
    {run : RetrievalRun (retriever.kitsCall (sealedMessages policyEncryptingKey messages)
      pickOrder)} {kit : SealedKit core}
    (hkit : kit ∈ (sealedMessages policyEncryptingKey messages).map retriever.normalize) :
    holdersAfter run kit = run.succeeded := by
  have hverify : (retriever.kitsCall (sealedMessages policyEncryptingKey messages)
      pickOrder).api.OnePerCapsule := fun _ _ _ _ hok => hcore.verify_length _ _ _ _ _ _ _ hok
  have hmem := List.mem_map_of_mem
    (f := fun kit : SealedKit core => kit.outline.asRetrievalKit retriever.codec) hkit
  have hkeys := run.keys_finalResult_fresh (fresh_kitsCall _ _ _) hverify hmem
  have hempty : kit.result.cfrags.keys = [] := by
    rcases List.mem_map.mp hkit with ⟨given, hgiven, rfl⟩
    rcases List.mem_map.mp hgiven with ⟨message, -, rfl⟩
    rfl
  rw [holdersAfter, hempty, List.toFinset_nil, Finset.empty_union]
  exact hkeys

/-- The outcome of one call of {lit}`retrieve_and_decrypt` for messages that were encrypted for a
granted policy.  It raises for its pools when they report some successes but fewer than a
threshold, and for the first message when fewer than a threshold of workers succeeded, reported or
not.  Otherwise it returns the messages. -/
theorem fresh_delivery_eq (hcore : core.Lawful) {alice : Alice core.toNucypherCore}
    {request : GrantRequest core.toNucypherCore} {codec : AddressCodec}
    {context : GrantContext core.toNucypherCore codec}
    {enacted : EnactedPolicy core.toNucypherCore}
    (hgrant : (alice.grant request context).result = .ok enacted) {privkey : core.SecretKey}
    (hbob : core.publicKey privkey = request.bobEncryptingKey) {publisher : core.PublicKey}
    (hopened : core.decryptTreasureMap enacted.treasureMap privkey publisher =
      .ok retriever.treasureMap)
    {services : CanonicalAddress → UrsulaService core.toReencryptionCore}
    (message : Bytes × core.Coins) (messages : List (Bytes × core.Coins)) {pickOrder : PickOrder}
    (run : RetrievalRun (retriever.kitsCall
      (sealedMessages enacted.publicKey (message :: messages)) pickOrder))
    (hanswered : retriever.Answered services run) :
    retriever.retrieveAndDecrypt privkey (sealedMessages enacted.publicKey (message :: messages))
        run =
      if 0 < run.reported ∧ run.reported < retriever.treasureMap.threshold then
        .error (.retrieval (.attributeError "checksum_address"))
      else if run.succeeded.card < retriever.treasureMap.threshold then
        .error (.notEnoughUrsulas
          (core.messageKit enacted.publicKey message.1 message.2).capsule)
      else .ok (message.1 :: messages.map Prod.fst) := by
  rcases Alice.granted_of_grant hgrant with ⟨policy, assignedKfrags, treasureMap, hgranted⟩
  have hmade := madeFor_of_granted hcore hgranted hbob hopened
  have hstart : retriever.Session services
      (sealedMessages enacted.publicKey (message :: messages))
      (sealedMessages enacted.publicKey (message :: messages)) := .start
  have hcarries := hstart.carries hcore hmade.assigns hmade.policyKey
  rw [retrieveAndDecrypt_of_carries hcore hmade hcarries hanswered]
  by_cases hreported : run.reported = 0 ∨ retriever.treasureMap.threshold ≤ run.reported
  · rw [if_neg (by omega), (retriever.retrieve_eq_ok_iff).mpr ⟨rfl, hreported⟩]
    by_cases hsucceeded : run.succeeded.card < retriever.treasureMap.threshold
    · rw [if_pos hsucceeded]
      -- The first kit is one that is short of fragments.
      let first := retriever.normalize
        (.messageKit (core.messageKit enacted.publicKey message.1 message.2))
      have hmem : first ∈ (sealedMessages enacted.publicKey (message :: messages)).map
          retriever.normalize := List.mem_cons_self
      have hshort : (!(first.withResult (run.finalResult
          first.messageKit.capsule)).isDecryptableByReceiver) = true := by
        rw [Bool.not_eq_true', ← Bool.not_eq_true, isDecryptable_withResult_iff,
          holdersAfter_fresh hcore hmem]
        exact not_le.mpr hsucceeded
      have hfind : (((sealedMessages enacted.publicKey (message :: messages)).map
          retriever.normalize).map fun kit =>
            kit.withResult (run.finalResult kit.messageKit.capsule)).find?
              (fun kit => !kit.isDecryptableByReceiver) =
          some (first.withResult (run.finalResult first.messageKit.capsule)) :=
        List.find?_cons_of_pos hshort
      simp only [hfind]
      rfl
    · have hall := (find?_short_eq_none_iff hcarries run).mpr fun kit hkit => by
        rw [holdersAfter_fresh hcore hkit]
        omega
      simp only [if_neg hsucceeded, hall, List.map_cons]
  · have hraises := run.retrieveCfrags_eq_error (by omega) (by
      have hthreshold : (retriever.kitsCall (sealedMessages enacted.publicKey
        (message :: messages)) pickOrder).treasureMap.threshold =
          retriever.treasureMap.threshold := rfl
      omega)
    rw [if_pos (by omega), retrieve, hraises]

end Retriever

/-! ## A delivery in the clear -/

/-- A treasure map in the clear. -/
structure PlainMap where
  hrac : Nat × Nat × Bytes
  policyEncryptingKey : Nat
  assignedKfrags : Dict CanonicalAddress (Nat × Nat)
  threshold : Nat

/-- Every two numbers as a fragment. -/
def readFragments : List Nat → List (Nat × Nat)
  | capsule :: kfrag :: rest => (capsule, kfrag) :: readFragments rest
  | _ => []

theorem readFragments_flatMap (vcfrags : List (Nat × Nat)) :
    readFragments (vcfrags.flatMap fun vcfrag => [vcfrag.1, vcfrag.2]) = vcfrags := by
  induction vcfrags with
  | nil => rfl
  | cons vcfrag vcfrags ih =>
      rw [List.flatMap_cons]
      exact congrArg (vcfrag :: ·) ih

/-- The plain cryptography, with maps that keep all they are made of. -/
def plainMaps : ReencryptionCore where
  toNucypherCore := { plainCore with
    TreasureMap := PlainMap
    EncryptedTreasureMap := PlainMap × Nat
    treasureMap := fun hrac policyKey assignedKfrags threshold =>
      some ⟨hrac, policyKey, assignedKfrags, threshold⟩
    threshold := PlainMap.threshold
    destinations := PlainMap.assignedKfrags
    encrypt := fun treasureMap recipientKey => some (treasureMap, recipientKey) }
  SecretKey := Nat
  Capsule := Nat
  CapsuleFrag := Nat × Nat
  Coins := Unit
  decEqCapsule := inferInstance
  publicKey := fun key => key
  keyCodec := plainKeyCodec
  requestBytes := plainRequestBytes
  requestFromBytes := plainRequestFromBytes
  decryptKfrag := fun encrypted privkey _ _ => plainDecryptKfrag encrypted privkey
  reencrypt := fun capsule kfrag _ => (capsule, kfrag)
  responseBytes := plainResponseBytes
  hracText := fun _ => "HRAC"
  hracBytesText := fun _ => ""

def plainOpen (encrypted : PlainMap × Nat) (privkey publisher : Nat) :
    Except String (OpenedMap plainMaps) :=
  if encrypted.2 = privkey then
    .ok {
      threshold := encrypted.1.threshold
      destinations := encrypted.1.assignedKfrags
      hrac := encrypted.1.hrac
      policyEncryptingKey := encrypted.1.policyEncryptingKey
      publisherVerifyingKey := publisher }
  else .error "Decryption of ciphertext failed"

def plainResponseFromBytes (bytes : Bytes) : Option (List (Nat × Nat)) :=
  match readPlain 0 bytes with
  | _ :: count :: rest => some (readFragments (rest.drop count))
  | _ => none

theorem plainResponseFromBytes_bytes (signer : Nat) (capsules : List Nat)
    (vcfrags : List (Nat × Nat)) :
    plainResponseFromBytes (plainResponseBytes signer capsules vcfrags) = some vcfrags := by
  simp only [plainResponseFromBytes, plainResponseBytes, readPlain_plainBytes]
  rw [List.drop_left, readFragments_flatMap]

def plainVerify (response : List (Nat × Nat)) (capsules : List Nat) :
    Except ResponseError (List (Nat × Nat)) :=
  if response.length = capsules.length then .ok response else .error .verificationError

theorem plainVerify_eq_ok {response verified : List (Nat × Nat)} {capsules : List Nat}
    (h : plainVerify response capsules = .ok verified) :
    verified = response ∧ verified.length = capsules.length := by
  unfold plainVerify at h
  split at h
  · rename_i hlength
    cases h
    exact ⟨rfl, hlength⟩
  · cases h

def plainDecrypt (kit : MessageKit Nat) (cfrags : List (Nat × Nat)) :
    Except DecryptionException Bytes :=
  if ∀ cfrag ∈ cfrags, cfrag.1 = kit.capsule then .ok kit.ciphertext
  else .error (.valueError "The fragments are of another capsule")

/-- Messages in the clear, whose capsules are their lengths. -/
def plainDelivery : DeliveryCore where
  toReencryptionCore := plainMaps
  Response := List (Nat × Nat)
  messageKit := fun _ plaintext _ => ⟨plaintext.length, plaintext⟩
  decryptTreasureMap := plainOpen
  responseFromBytes := plainResponseFromBytes
  verify := fun response capsules _ _ _ _ => plainVerify response capsules
  decryptReencrypted := fun _ _ kit cfrags => plainDecrypt kit cfrags

theorem plainDelivery_lawful : plainDelivery.Lawful where
  requestFromBytes_bytes := plainRequestFromBytes_bytes
  decryptKfrag_destination := by
    intro hrac policyKey assignedKfrags threshold treasureMap hmade address encryptedKfrag
      privkey policy publisher kfrag hdestination hdecrypted
    cases hmade
    obtain rfl := plainDecryptKfrag_eq_ok hdecrypted
    exact ⟨encryptedKfrag.1, hdestination⟩
  decryptTreasureMap_encrypt := by
    intro hrac policyKey assignedKfrags threshold treasureMap hmade privkey encrypted publisher
      opened hencrypted hopened
    cases hmade
    cases hencrypted
    have hopen := (if_pos rfl).symm.trans hopened
    cases hopen
    exact ⟨rfl, rfl, rfl⟩
  verify_response := by
    intro signer capsules vcfrags response hresponse requested aliceKey ursula policyKey bobKey
      verified hverified
    obtain rfl : vcfrags = response :=
      Option.some.inj ((plainResponseFromBytes_bytes signer capsules vcfrags).symm.trans hresponse)
    exact (plainVerify_eq_ok hverified).1
  verify_length := by
    intro response requested aliceKey ursula policyKey bobKey verified hverified
    exact (plainVerify_eq_ok hverified).2
  decryptReencrypted_of_threshold := by
    intro privkey label threshold shares policyKey kfrags _ plaintext coins shown _ _
    refine if_pos fun cfrag hcfrag => ?_
    rcases List.mem_map.mp hcfrag with ⟨pair, -, rfl⟩
    rfl

def plainAlice : Alice plainDelivery.toNucypherCore where
  verifyingKey := (1 : Nat)
  federatedOnly := true
  threshold := 1
  shares := 1
  duration := none
  rate := none
  paymentMethod := freeReencryptions _
  activePolicies := Dict.empty

/-- A day for the Bob with the keys 2 and 3. -/
def plainRequest : GrantRequest plainDelivery.toNucypherCore where
  bobVerifyingKey := (2 : Nat)
  bobEncryptingKey := (3 : Nat)
  label := [4]
  threshold := none
  shares := none
  duration := some 86400
  commencement := none
  expiration := none
  value := none
  rate := none
  paymentMethod := none

/-- The treasure map of the grant: the only key fragment is for {lit}`plainNode`. -/
def plainTreasureMap : PlainMap where
  hrac := (1, 2, [4])
  policyEncryptingKey := 0
  assignedKfrags := Dict.ofList [(sampleAddress 1, (5, 0))]
  threshold := 1

def plainEnacted : EnactedPolicy plainDelivery.toNucypherCore where
  hrac := ((1, 2, [4]) : Nat × Nat × Bytes)
  label := [4]
  publicKey := (0 : Nat)
  threshold := 1
  treasureMap := ((plainTreasureMap, 3) : PlainMap × Nat)
  revocationKit := Dict.ofList [(sampleAddress 1, (sampleAddress 1, (5, 0)))]
  shares := 1

theorem plain_grant : (plainAlice.grant plainRequest
    (⟨true, true, plainSampling⟩ : GrantContext plainDelivery.toNucypherCore hexCodec)).result =
      .ok plainEnacted := rfl

/-- Bob with the opened map. -/
def plainRetriever : Retriever plainDelivery where
  codec := hexCodec
  treasureMap := {
    threshold := 1
    destinations := plainTreasureMap.assignedKfrags
    hrac := ((1, 2, [4]) : Nat × Nat × Bytes)
    policyEncryptingKey := (0 : Nat)
    publisherVerifyingKey := (1 : Nat) }
  aliceVerifyingKey := (1 : Nat)
  bobEncryptingKey := (3 : Nat)
  bobVerifyingKey := (2 : Nat)

theorem plain_opened : plainDelivery.decryptTreasureMap plainEnacted.treasureMap (3 : Nat)
    (1 : Nat) = .ok plainRetriever.treasureMap := rfl

/-- A node with the key that the key fragment is for. -/
def plainNodeService : UrsulaService plainDelivery.toReencryptionCore where
  decryptingKey := (5 : Nat)
  signingKey := (6 : Nat)
  revokedPolicies := []
  paymentMethod := .freeReencryptions

/-- Bob's request for a message of two bytes. -/
def plainDeliveryPost : ReencryptionPost plainDelivery.toReencryptionCore where
  data := plainRequestBytes ⟨(1, 2, [4]), [2], (5, 0), 2, 1⟩
  remoteAddr := "10.0.0.1"
  isPolicyActive := fun _ => .ok true
  coins := fun _ => ()
  uuid := ⟨List.replicate 16 1, List.length_replicate⟩
  lmdb := {}

/-- The node is known and serves the request. -/
def plainInput : WorkerInput where
  knownNodes :=
    let address := hexCodec.toChecksumAddress (sampleAddress 1)
    Dict.ofList [(address, nodeSprout (sampleMetadata address [1] 10))]
  answer := (plainNodeService.reencrypt plainDeliveryPost Dict.empty).1.answer

def plainPickOrder : PickOrder := ⟨Reorder.identity, Enumeration.sorted CanonicalAddress⟩

/-- The kits that Bob is given: one message for the policy. -/
def plainKits : List (GivenKit plainDelivery) :=
  Retriever.sealedMessages plainEnacted.publicKey [(([9, 8] : Bytes), ())]

/-- The worker of the only order ends, and the pools with it. -/
def plainRun : RetrievalRun (plainRetriever.kitsCall plainKits plainPickOrder) where
  first := PoolAttempt.ofRun _ _
    (List.replicate 9 .producer ++ [.startTask 0, .endWorker 0 plainInput, .reportTask 0] ++
      List.replicate 9 .processor ++ [.timeout, .timeout]) rfl
  second _ := PoolAttempt.ofRun _ _ idleActions rfl

theorem plain_answered : plainRetriever.Answered (fun _ => plainNodeService) plainRun := by
  have hended : plainRun.ended = [(hexCodec.toChecksumAddress (sampleAddress 1),
      (plainRetriever.kitsCall plainKits plainPickOrder).worker
        (hexCodec.toChecksumAddress (sampleAddress 1)) plainInput)] := rfl
  intro key outcome hmem
  rw [hended, List.mem_singleton, Prod.mk.injEq] at hmem
  rcases hmem with ⟨rfl, rfl⟩
  refine ⟨plainInput, rfl, fun workOrder horder => Or.inr fun encryptedKfrag hencrypted => ?_⟩
  have hworkOrder : some ⟨sampleAddress 1, ([2] : List Nat)⟩ = some workOrder := horder
  cases hworkOrder
  have hdestination : some ((5, 0) : Nat × Nat) = some encryptedKfrag := hencrypted
  cases hdestination
  exact ⟨plainDeliveryPost, Dict.empty, rfl, rfl⟩

/-- The kit that Bob has after the run. -/
def plainLoaded : SealedKit plainDelivery where
  messageKit := ⟨(2 : Nat), [9, 8]⟩
  policyEncryptingKey := (0 : Nat)
  threshold := 1
  result := ⟨Dict.ofList [(hexCodec.toChecksumAddress (sampleAddress 1), ((2, 0) : Nat × Nat))]⟩

/-- A second call has nothing to ask for. -/
def plainIdleRun : RetrievalRun
    (plainRetriever.kitsCall [.policyMessageKit plainLoaded] plainPickOrder) where
  first := PoolAttempt.ofRun _ _ idleActions rfl
  second _ := PoolAttempt.ofRun _ _ idleActions rfl

theorem plain_session : plainRetriever.Session (fun _ => plainNodeService) plainKits
    [.policyMessageKit plainLoaded] := by
  have hretrieve : plainRetriever.retrieve plainKits plainRun = .ok [plainLoaded] := rfl
  exact .retrieved .start plainRun plain_answered hretrieve

theorem grant_delivers_plain :
    plainIdleRun.reported = 0 ∧
      plainRetriever.retrieveAndDecrypt (3 : Nat) [.policyMessageKit plainLoaded] plainIdleRun =
        .ok [[9, 8]] := by
  have hanswered : plainRetriever.Answered (fun _ => plainNodeService) plainIdleRun := by
    intro key outcome hmem
    cases hmem
  have hsession : plainRetriever.Session (fun _ => plainNodeService)
      (Retriever.sealedMessages plainEnacted.publicKey [(([9, 8] : Bytes), ())])
      [.policyMessageKit plainLoaded] := plain_session
  have hdelivers := (Retriever.grant_delivers plainDelivery_lawful plain_grant rfl plain_opened
    hsession plainIdleRun hanswered).1 [[9, 8]]
  have hreported : plainIdleRun.reported = 0 := rfl
  refine ⟨hreported, hdelivers.mpr ⟨rfl, Or.inl hreported, ?_⟩⟩
  intro kit hkit
  have hsame : kit = plainLoaded := List.mem_singleton.mp hkit
  subst hsame
  decide

theorem fresh_delivery_eq_plain :
    plainRun.succeeded.card = 1 ∧
      plainRetriever.retrieveAndDecrypt (3 : Nat) plainKits plainRun = .ok [[9, 8]] := by
  have hsucceeded : plainRun.succeeded.card = 1 := rfl
  have hdelivers := Retriever.fresh_delivery_eq plainDelivery_lawful plain_grant rfl plain_opened
    (([9, 8] : Bytes), ()) [] plainRun plain_answered
  exact ⟨hsucceeded, hdelivers⟩

end NuLink
