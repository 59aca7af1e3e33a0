import NuLinkCore.Network.Retrieval.Results

/-!
# Bob's retrieval

Bob gives the client what it needs to know of his message kits, and loads the kits with
the results.  A kit may come as a bare message, which then gets the threshold of the
treasure map, or as a kit from an earlier retrieval.

Main results:

- Theorem {lit}`Bob.retrieval_sufficient`: when a threshold of workers succeeded, every
  kit has enough fragments, and the message kits are decryptable.
-/

namespace NuLink

open Collections

/-- A message kit as Bob is given it. -/
inductive BobMessageKit (Capsule CapsuleFrag : Type) where
  | messageKit (capsule : Capsule)
  | policyMessageKit (kit : PolicyMessageKit Capsule CapsuleFrag)

namespace Bob

variable {Capsule CapsuleFrag EncryptedKeyFrag Response : Type}

/-- The normalization of the input of {lit}`Bob.retrieve`. -/
def normalize (threshold : Nat) :
    BobMessageKit Capsule CapsuleFrag → PolicyMessageKit Capsule CapsuleFrag
  | .messageKit capsule => PolicyMessageKit.fromMessageKit capsule threshold
  | .policyMessageKit kit => kit

/-- The retrieval kits that {lit}`Bob.retrieve` hands to the client. -/
def retrievalKits (codec : AddressCodec) (treasureMap : TreasureMap EncryptedKeyFrag)
    (messageKits : List (BobMessageKit Capsule CapsuleFrag)) : List (RetrievalKit Capsule) :=
  (messageKits.map (normalize treasureMap.threshold)).map (PolicyMessageKit.asRetrievalKit codec)

variable [DecidableEq Capsule]
  {call : RetrievalCall Capsule CapsuleFrag EncryptedKeyFrag Response}

/-- {lit}`Bob.retrieve`: refill the message kits with the retrieved fragments. -/
def retrieve (messageKits : List (BobMessageKit Capsule CapsuleFrag)) (run : RetrievalRun call) :
    Except RetrievalError (List (PolicyMessageKit Capsule CapsuleFrag)) :=
  match run.retrieveCfrags with
  | .error raised => .error raised
  | .ok results =>
      .ok (List.zipWith PolicyMessageKit.withResult
        (messageKits.map (normalize call.treasureMap.threshold)) results)

/-- The message kits that Bob gets back, when the client was called with his kits. -/
theorem retrieve_eq_ok {messageKits : List (BobMessageKit Capsule CapsuleFrag)}
    {run : RetrievalRun call}
    (hkits : call.retrievalKits = retrievalKits call.codec call.treasureMap messageKits)
    {loaded : List (PolicyMessageKit Capsule CapsuleFrag)}
    (h : retrieve messageKits run = .ok loaded) :
    loaded = (messageKits.map (normalize call.treasureMap.threshold)).map fun kit =>
      kit.withResult (run.finalResult kit.capsule) := by
  unfold retrieve at h
  split at h
  · simp at h
  · rename_i results hresults
    rw [((run.retrieveCfrags_eq_ok_iff results).mp hresults).1, hkits, retrievalKits,
      List.map_map, List.zipWith_map_right, List.zipWith_self] at h
    cases h
    rfl

/-- When at least a threshold of workers succeeded over both pools, the nodes queried
before for a kit and those in its result are at least a threshold.  What the client
returns are these results, and the message kits that Bob built with the threshold of the
treasure map are decryptable once they are loaded. -/
theorem retrieval_sufficient
    (call : RetrievalCall Capsule CapsuleFrag EncryptedKeyFrag Response) (run : RetrievalRun call)
    (hcapsules : (call.retrievalKits.map RetrievalKit.capsule).Nodup)
    (hverify : call.api.OnePerCapsule)
    (hsucceeded : call.treasureMap.threshold ≤ run.succeeded.card) :
    List.Forall₂
      (fun kit result => call.treasureMap.threshold ≤
        (kit.queriedAddresses ∪ result.canonicalAddresses call.codec).card)
      call.retrievalKits ((RetrievalRun.planAfter call run.ended).resultList call.codec) ∧
    (∀ results, run.retrieveCfrags = .ok results →
      results = (RetrievalRun.planAfter call run.ended).resultList call.codec) ∧
    (∀ messageKits : List (BobMessageKit Capsule CapsuleFrag),
      call.retrievalKits = retrievalKits call.codec call.treasureMap messageKits →
      ∀ loaded, retrieve messageKits run = .ok loaded →
        ∀ kit ∈ loaded, kit.threshold ≤ call.treasureMap.threshold →
          kit.isDecryptableByReceiver = true) := by
  have henough : ∀ kit ∈ call.retrievalKits, call.treasureMap.threshold ≤
      (kit.queriedAddresses ∪
        (run.finalResult kit.capsule).canonicalAddresses call.codec).card := by
    intro kit hkit
    exact run.threshold_le_card_union hcapsules hverify hsucceeded hkit
  refine ⟨?_, ?_, ?_⟩
  · rw [run.resultList_planAfter, List.forall₂_map_right_iff, List.forall₂_same]
    exact henough
  · intro results hresults
    rw [run.resultList_planAfter]
    exact ((run.retrieveCfrags_eq_ok_iff results).mp hresults).1
  · intro messageKits hkits loaded hloaded kit hkit hthreshold
    rw [retrieve_eq_ok hkits hloaded] at hkit
    rcases List.mem_map.mp hkit with ⟨before, hbefore, rfl⟩
    have hmem : before.asRetrievalKit call.codec ∈ call.retrievalKits := by
      rw [hkits]
      exact List.mem_map_of_mem hbefore
    exact PolicyMessageKit.isDecryptable_withResult call.codec before _
      (Nat.le_trans hthreshold (henough _ hmem))

theorem retrieval_sufficient_completed :
    1 ≤ completedRun.succeeded.card ∧
      ∃ kit, retrieve [.messageKit 7] completedRun = .ok [kit] ∧
        kit.isDecryptableByReceiver = true := by
  have hsucceeded : 1 ≤ completedRun.succeeded.card := by decide
  have hverify : (sampleCall 1 [sampleAddress 2] ∅).api.OnePerCapsule := by
    intro response capsules ursula cfrags hok
    simp only [sampleCall, sampleApi] at hok
    split at hok
    · rename_i hlength
      cases hok
      exact hlength
    · simp at hok
  have hall := (retrieval_sufficient _ completedRun (by decide) hverify hsucceeded).2.2
    [.messageKit 7] rfl
  refine ⟨hsucceeded, _, rfl, ?_⟩
  exact hall _ rfl _ List.mem_cons_self (Nat.le_refl 1)

end Bob

end NuLink
