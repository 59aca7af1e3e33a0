import NuLinkCore.Network.Retrieval.Client

/-!
# What a retrieval returns

Over both pools every node is asked at most once, so that the plan at the end holds the
fragments of exactly the workers that succeeded.  A capsule that was short of fragments
when the orders were issued is part of every order, except for the nodes that have
processed it already.

Main results:

- Theorem {lit}`RetrievalRun.get?_finalResult`: the fragments in a result are those of the
  workers that succeeded.
- Theorem {lit}`RetrievalRun.retrieval_sufficient`: when a threshold of workers succeeded,
  every kit has enough fragments.
- Theorem {lit}`RetrievalRun.retrieveCfrags_exact_iff`: when a retrieval returns.
-/

namespace NuLink

open Collections Execution

namespace RetrievalRun

variable {Capsule CapsuleFrag EncryptedKeyFrag Response : Type} [DecidableEq Capsule]
  {call : RetrievalCall Capsule CapsuleFrag EncryptedKeyFrag Response}

/-! ## The calls of the worker -/

/-- Every ended call is a call of the worker of the retrieval. -/
theorem worker_of_mem_ended (run : RetrievalRun call) {key : ChecksumAddress}
    {outcome : WorkerOutcome (Dict Capsule CapsuleFrag) WorkerError}
    (h : (key, outcome) ∈ run.ended) : ∃ input, outcome = call.worker key input := by
  rcases List.mem_append.mp h with hfirst | hsecond
  · exact PoolState.ended_from_worker run.first.reaches_atEnd key outcome hfirst
  · split at hsecond
    · exact PoolState.ended_from_worker (run.second run.missing).reaches_atEnd key outcome hsecond
    · simp at hsecond

/-- Over both pools a node is asked at most once. -/
theorem count_ended_le_one (run : RetrievalRun call) (key : ChecksumAddress) :
    (run.ended.map Prod.fst).count key ≤ 1 := by
  have hkeys : call.strategy.retrievalWorkOrderKeyList.count key ≤ 1 :=
    List.nodup_iff_count_le_one.mp call.workerOrders.keys_nodup key
  have hfirst := PoolState.count_ended_add_remaining_le
    (call.pool_drawsFrom call.treasureMap.threshold) run.first.reaches_atEnd key
  rw [ended, List.map_append, List.count_append]
  split
  · have hsecond := PoolState.count_ended_add_remaining_le (call.pool_drawsFrom run.missing)
      (run.second run.missing).reaches_atEnd key
    omega
  · rw [List.map_nil, List.count_nil]
    omega

theorem ended_pairwise (run : RetrievalRun call) :
    run.ended.Pairwise fun e e' => e.1 ≠ e'.1 := by
  have hnodup : (run.ended.map Prod.fst).Nodup :=
    List.nodup_iff_count_le_one.mpr run.count_ended_le_one
  exact List.pairwise_map.mp hnodup

/-! ## The plan at the end -/

/-- The updates of the plan by the workers that succeeded. -/
def updates (run : RetrievalRun call) : List (CanonicalAddress × Dict Capsule CapsuleFrag) :=
  run.ended.filterMap call.planUpdate

/-- An update belongs to the node that the worker asked. -/
theorem planUpdate_eq_some
    {entry : ChecksumAddress × WorkerOutcome (Dict Capsule CapsuleFrag) WorkerError}
    {address : CanonicalAddress} {cfrags : Dict Capsule CapsuleFrag}
    (h : call.planUpdate entry = some (address, cfrags)) :
    entry = (call.codec.toChecksumAddress address, .returned cfrags) := by
  rcases entry with ⟨key, outcome⟩
  cases outcome with
  | returned result =>
      rcases Option.map_eq_some_iff.mp h with ⟨workOrder, horder, hpair⟩
      cases hpair
      rw [(RetrievalPlan.workOrders_sound horder).1]
  | raisedCancelled => simp [RetrievalCall.planUpdate] at h
  | raised excInfo => simp [RetrievalCall.planUpdate] at h

theorem updates_nodup (run : RetrievalRun call) : (run.updates.map Prod.fst).Nodup := by
  refine List.pairwise_map.mpr (run.ended_pairwise.filterMap _ ?_)
  intro entry entry' hne update hupdate update' hupdate' heq
  rw [planUpdate_eq_some hupdate, planUpdate_eq_some hupdate', heq] at hne
  exact hne rfl

/-- The order of a worker that succeeded stands under the address of its node. -/
theorem order_of_returned (run : RetrievalRun call) {key : ChecksumAddress}
    {cfrags : Dict Capsule CapsuleFrag} (h : (key, .returned cfrags) ∈ run.ended) :
    ∃ workOrder, call.workerOrders.get? key = some workOrder ∧
      key = call.codec.toChecksumAddress workOrder.ursulaAddress := by
  rcases run.worker_of_mem_ended h with ⟨input, hinput⟩
  rcases RetrievalCall.worker_eq_returned hinput.symm with ⟨workOrder, -, -, -, horder, -, -⟩
  exact ⟨workOrder, horder, (RetrievalPlan.workOrders_sound horder).1⟩

/-- The updates are those of the workers that succeeded. -/
theorem mem_updates (run : RetrievalRun call) {address : CanonicalAddress}
    {cfrags : Dict Capsule CapsuleFrag} :
    (address, cfrags) ∈ run.updates ↔
      (call.codec.toChecksumAddress address, .returned cfrags) ∈ run.ended := by
  constructor
  · intro hmem
    rcases List.mem_filterMap.mp hmem with ⟨entry, hentry, hupdate⟩
    exact planUpdate_eq_some hupdate ▸ hentry
  · intro hmem
    rcases run.order_of_returned hmem with ⟨workOrder, horder, hkey⟩
    have haddress : workOrder.ursulaAddress = address :=
      call.codec.toChecksumAddress_injective hkey.symm
    refine List.mem_filterMap.mpr ⟨_, hmem, ?_⟩
    simp only [RetrievalCall.planUpdate, horder, Option.map_some, haddress]

/-- The results of the plan when all workers have ended. -/
def finalResult (run : RetrievalRun call) (capsule : Capsule) : RetrievalResult CapsuleFrag :=
  (planAfter call run.ended).resultFor call.codec capsule

theorem resultList_planAfter (run : RetrievalRun call) :
    (planAfter call run.ended).resultList call.codec =
      call.retrievalKits.map fun kit => run.finalResult kit.capsule := by
  have hcapsules : (planAfter call run.ended).capsules =
      call.retrievalKits.map RetrievalKit.capsule := by
    rw [planAfter, RetrievalPlan.applyUpdates_capsules, RetrievalCall.issuedPlan,
      RetrievalPlan.workOrders_eq]
    rfl
  rw [RetrievalPlan.resultList, hcapsules, List.map_map]
  rfl

/-- The fragments in a result are those of the workers that succeeded. -/
theorem get?_finalResult (run : RetrievalRun call) (capsule : Capsule) (key : ChecksumAddress)
    (cfrag : CapsuleFrag) :
    (run.finalResult capsule).cfrags.get? key = some cfrag ↔
      ∃ cfrags, (key, .returned cfrags) ∈ run.ended ∧ cfrags.get? capsule = some cfrag := by
  have hnew : call.newPlan.resultsOf capsule = Dict.empty := RetrievalPlan.resultsOf_new capsule
  have hempty : call.issuedPlan.resultsOf capsule = Dict.empty := by
    rw [RetrievalCall.issuedPlan, RetrievalPlan.workOrders_eq]
    exact hnew
  have hplan := @RetrievalPlan.resultsOf_applyUpdates _ _ _ _ capsule hempty run.updates
    run.updates_nodup
  rw [finalResult, RetrievalPlan.get?_resultFor]
  constructor
  · rintro ⟨address, rfl, hget⟩
    rcases hplan.mp hget with ⟨cfrags, hmem, hcfrag⟩
    exact ⟨cfrags, run.mem_updates.mp hmem, hcfrag⟩
  · rintro ⟨cfrags, hmem, hcfrag⟩
    rcases run.order_of_returned hmem with ⟨workOrder, -, rfl⟩
    exact ⟨workOrder.ursulaAddress, rfl, hplan.mpr ⟨cfrags, run.mem_updates.mpr hmem, hcfrag⟩⟩

/-! ## Enough fragments -/

/-- The addresses whose worker succeeded, in either pool. -/
def succeeded (run : RetrievalRun call) : Finset ChecksumAddress :=
  ((run.ended.filter fun entry => entry.2.isReturned).map Prod.fst).toFinset

theorem mem_succeeded {run : RetrievalRun call} {key : ChecksumAddress} :
    key ∈ run.succeeded ↔ ∃ cfrags, (key, .returned cfrags) ∈ run.ended := by
  simp only [succeeded, List.mem_toFinset, List.mem_map, List.mem_filter]
  constructor
  · rintro ⟨⟨key, outcome⟩, ⟨hmem, hreturned⟩, rfl⟩
    cases outcome with
    | returned cfrags => exact ⟨cfrags, hmem⟩
    | raisedCancelled => simp [WorkerOutcome.isReturned] at hreturned
    | raised excInfo => simp [WorkerOutcome.isReturned] at hreturned
  · rintro ⟨cfrags, hmem⟩
    exact ⟨_, ⟨hmem, rfl⟩, rfl⟩

/-- An address stands in the result for a capsule when its worker returned a fragment. -/
theorem mem_canonicalAddresses {run : RetrievalRun call} {capsule : Capsule}
    {address : CanonicalAddress} {cfrags : Dict Capsule CapsuleFrag}
    (hmem : (call.codec.toChecksumAddress address, .returned cfrags) ∈ run.ended)
    (hcapsule : capsule ∈ cfrags.keys) :
    address ∈ (run.finalResult capsule).canonicalAddresses call.codec := by
  rcases Dict.mem_keys_iff_exists.mp hcapsule with ⟨cfrag, hcfrag⟩
  have hget := (run.get?_finalResult capsule _ cfrag).mpr ⟨cfrags, hmem, hcfrag⟩
  rw [RetrievalResult.canonicalAddresses, List.mem_toFinset, List.mem_map]
  exact ⟨_, Dict.mem_keys_iff_exists.mpr ⟨cfrag, hget⟩, call.codec.canonical_checksum address⟩

/-- A node that succeeded was queried before for a capsule that lacks fragments, or has
returned one. -/
theorem mem_union_of_succeeded (run : RetrievalRun call)
    (hcapsules : (call.retrievalKits.map RetrievalKit.capsule).Nodup)
    (hverify : call.api.OnePerCapsule) {kit : RetrievalKit Capsule}
    (hkit : kit ∈ call.retrievalKits)
    (hlacks : kit.queriedAddresses.card < call.treasureMap.threshold) {key : ChecksumAddress}
    (hkey : key ∈ run.succeeded) :
    call.codec.toCanonicalAddress key ∈ kit.queriedAddresses ∪
      (run.finalResult kit.capsule).canonicalAddresses call.codec := by
  rcases mem_succeeded.mp hkey with ⟨cfrags, hmem⟩
  rcases run.worker_of_mem_ended hmem with ⟨input, hinput⟩
  rcases RetrievalCall.mem_keys_of_returned hverify hinput.symm with ⟨workOrder, horder, hkeys⟩
  rcases RetrievalPlan.workOrders_sound horder with ⟨rfl, hasked⟩
  rw [call.codec.canonical_checksum, Finset.mem_union]
  by_cases hqueried : workOrder.ursulaAddress ∈ kit.queriedAddresses
  · exact Or.inl hqueried
  · have hprocessed : kit.capsule ∉ call.newPlan.processed workOrder.ursulaAddress := by
      intro hprocessed
      exact hqueried ((RetrievalPlan.mem_processed_new hcapsules hkit).mp hprocessed)
    have hfew : (call.newPlan.queried kit.capsule).card < call.newPlan.threshold := by
      have heq : call.newPlan.queried kit.capsule = kit.queriedAddresses :=
        RetrievalPlan.queried_new hcapsules hkit
      rw [heq]
      exact hlacks
    have hplanned : kit.capsule ∈ call.newPlan.capsules := List.mem_map.mpr ⟨kit, hkit, rfl⟩
    have hordered : kit.capsule ∈ workOrder.capsules := by
      rw [hasked, RetrievalPlan.capsulesFor, List.mem_filter]
      exact ⟨hplanned, by simp [hprocessed, hfew]⟩
    exact Or.inr (mem_canonicalAddresses hmem (hkeys kit.capsule hordered))

/-- Different workers are of different nodes. -/
theorem card_image_succeeded (run : RetrievalRun call) :
    (run.succeeded.image call.codec.toCanonicalAddress).card = run.succeeded.card := by
  refine Finset.card_image_of_injOn ?_
  intro key hkey key' hkey' heq
  rcases mem_succeeded.mp (Finset.mem_coe.mp hkey) with ⟨cfrags, hmem⟩
  rcases mem_succeeded.mp (Finset.mem_coe.mp hkey') with ⟨cfrags', hmem'⟩
  rcases run.order_of_returned hmem with ⟨workOrder, -, rfl⟩
  rcases run.order_of_returned hmem' with ⟨workOrder', -, rfl⟩
  simp only [call.codec.canonical_checksum] at heq
  rw [heq]

/-- When a threshold of workers succeeded, the nodes queried before for a capsule and those
in its result are enough. -/
theorem threshold_le_card_union (run : RetrievalRun call)
    (hcapsules : (call.retrievalKits.map RetrievalKit.capsule).Nodup)
    (hverify : call.api.OnePerCapsule)
    (hsucceeded : call.treasureMap.threshold ≤ run.succeeded.card) {kit : RetrievalKit Capsule}
    (hkit : kit ∈ call.retrievalKits) :
    call.treasureMap.threshold ≤ (kit.queriedAddresses ∪
      (run.finalResult kit.capsule).canonicalAddresses call.codec).card := by
  by_cases hlacks : kit.queriedAddresses.card < call.treasureMap.threshold
  · have hsubset : run.succeeded.image call.codec.toCanonicalAddress ⊆ kit.queriedAddresses ∪
        (run.finalResult kit.capsule).canonicalAddresses call.codec := by
      intro address haddress
      rcases Finset.mem_image.mp haddress with ⟨key, hkey, rfl⟩
      exact run.mem_union_of_succeeded hcapsules hverify hkit hlacks hkey
    have hcard := Finset.card_le_card hsubset
    rw [run.card_image_succeeded] at hcard
    omega
  · have hsubset : kit.queriedAddresses ⊆ kit.queriedAddresses ∪
        (run.finalResult kit.capsule).canonicalAddresses call.codec := Finset.subset_union_left
    have hcard := Finset.card_le_card hsubset
    omega

/-! ## When a retrieval returns -/

/-- The end of a retrieval returns unless it has some successes but too few. -/
theorem finish_eq_ok_iff (successes : Dict ChecksumAddress (Dict Capsule CapsuleFrag))
    (plan : RetrievalPlan Capsule CapsuleFrag) (results : List (RetrievalResult CapsuleFrag)) :
    finish call successes plan = .ok results ↔
      results = plan.resultList call.codec ∧
        (successes.len = 0 ∨ call.treasureMap.threshold ≤ successes.len) := by
  have hlen : successes.values.length = successes.len := by simp [Dict.values, Dict.len]
  unfold finish acceptedAddresses
  split
  · rename_i hshort
    split
    · rename_i raised hraised
      split at hraised
      · simp at hraised
      · rename_i head tail hvalues
        rw [hvalues, List.length_cons] at hlen
        simp only [reduceCtorEq, false_iff, not_and, not_or]
        intro _
        omega
    · rename_i accepted haccepted
      split at haccepted
      · rename_i hvalues
        rw [hvalues, List.length_nil] at hlen
        simp [← hlen, eq_comm]
      · simp at haccepted
  · rename_i henough
    have hle : call.treasureMap.threshold ≤ successes.len := by omega
    simp [hle, eq_comm]

/-- The successes of the two pools are of different nodes. -/
theorem disjoint_successes (run : RetrievalRun call)
    {successes newSuccesses : Dict ChecksumAddress (Dict Capsule CapsuleFrag)}
    (hfirst : run.first.result = .ok successes) (hmissing : 0 < run.missing)
    (hsecond : (run.second run.missing).result = .ok newSuccesses) :
    ∀ key ∈ successes.keys, key ∉ newSuccesses.keys := by
  intro key hkey hnew
  rcases Dict.mem_keys_iff_exists.mp hkey with ⟨cfrags, hget⟩
  rcases Dict.mem_keys_iff_exists.mp hnew with ⟨cfrags', hget'⟩
  have hmem := List.mem_map_of_mem (f := Prod.fst) (PoolAttempt.returned_of_result hfirst hget)
  have hmem' := List.mem_map_of_mem (f := Prod.fst) (PoolAttempt.returned_of_result hsecond hget')
  have hcount := run.count_ended_le_one key
  rw [ended, if_pos hmissing, List.map_append, List.count_append] at hcount
  have hpos := List.count_pos_iff.mpr hmem
  have hpos' := List.count_pos_iff.mpr hmem'
  simp only at hpos hpos'
  omega

/-- A retrieval ends with the successes that its pools report and with the plan in which
all workers that succeeded have recorded their fragments. -/
theorem retrieveCfrags_eq_finish (run : RetrievalRun call) :
    ∃ successes, successes.len = run.reported ∧
      run.retrieveCfrags = finish call successes (planAfter call run.ended) := by
  rcases run.first.result_eq_ok (call.pool_drawsFrom _) with ⟨successes, hfirst⟩
  have hreported := PoolAttempt.reported_of_result hfirst
  unfold retrieveCfrags
  rw [hfirst]
  simp only
  by_cases hshort : successes.len < call.treasureMap.threshold
  · have hmissing : call.treasureMap.threshold - successes.len = run.missing := by
      rw [missing, hreported]
    have hpos : 0 < run.missing := by omega
    rcases (run.second run.missing).result_eq_ok (call.pool_drawsFrom _) with
      ⟨newSuccesses, hsecond⟩
    refine ⟨successes.update newSuccesses, ?_, ?_⟩
    · rw [Dict.len_update_of_disjoint (run.disjoint_successes hfirst hpos hsecond), reported,
        if_pos hpos, hreported, PoolAttempt.reported_of_result hsecond]
    · rw [if_pos hshort, hmissing, hsecond, ended, if_pos hpos]
  · have hnone : ¬ 0 < run.missing := by
      rw [missing, hreported]
      omega
    refine ⟨successes, ?_, ?_⟩
    · rw [reported, if_neg hnone, hreported, Nat.add_zero]
    · rw [if_neg hshort, ended, if_neg hnone, List.append_nil]

theorem retrieveCfrags_eq_ok_iff (run : RetrievalRun call)
    (results : List (RetrievalResult CapsuleFrag)) :
    run.retrieveCfrags = .ok results ↔
      results = call.retrievalKits.map (fun kit => run.finalResult kit.capsule) ∧
        (run.reported = 0 ∨ call.treasureMap.threshold ≤ run.reported) := by
  rcases run.retrieveCfrags_eq_finish with ⟨successes, hlen, heq⟩
  rw [heq, finish_eq_ok_iff, hlen, run.resultList_planAfter]

/-- One result for each kit, in the order of the kits, that holds exactly the fragments of
the workers that succeeded. -/
def Exact (run : RetrievalRun call) (results : List (RetrievalResult CapsuleFrag)) : Prop :=
  List.Forall₂
    (fun kit result => ∀ key cfrag, result.cfrags.get? key = some cfrag ↔
      ∃ cfrags, (key, .returned cfrags) ∈ run.ended ∧ cfrags.get? kit.capsule = some cfrag)
    call.retrievalKits results

/-- The pools of a retrieval always end: their threads make a bounded number of accesses,
and every state that they reach can be brought to the end.  However they went, the
retrieval returns exactly the fragments of the workers that succeeded if and only if the
pools report no success at all or a threshold of them. -/
theorem retrieveCfrags_exact_iff
    (call : RetrievalCall Capsule CapsuleFrag EncryptedKeyFrag Response) :
    (∀ targetSuccesses strategy actions s,
      Execution.run (PoolState.step (call.pool targetSuccesses)) (PoolState.start strategy)
          actions = some s →
        actions.countP (fun action => PoolState.internal action) ≤
            13 * strategy.retrievalWorkOrderKeyList.length + 16 ∧
          ∃ attempt : PoolAttempt (call.pool targetSuccesses) strategy,
            Reaches (PoolState.step (call.pool targetSuccesses)) s attempt.atEnd) ∧
    ∀ run : RetrievalRun call,
      (∃ results, run.retrieveCfrags = .ok results ∧ run.Exact results) ↔
        (run.reported = 0 ∨ call.treasureMap.threshold ≤ run.reported) := by
  constructor
  · intro targetSuccesses strategy actions s hrun
    have hdraws := call.pool_drawsFrom targetSuccesses
    exact ⟨PoolState.countP_internal_le_work hdraws hrun,
      PoolAttempt.exists_of_reaches hdraws (reaches_of_run hrun)⟩
  · intro run
    constructor
    · rintro ⟨results, hreturns, -⟩
      exact ((run.retrieveCfrags_eq_ok_iff results).mp hreturns).2
    · intro hreported
      refine ⟨_, (run.retrieveCfrags_eq_ok_iff _).mpr ⟨rfl, hreported⟩, ?_⟩
      rw [Exact, List.forall₂_map_right_iff, List.forall₂_same]
      intro kit _ key cfrag
      exact run.get?_finalResult kit.capsule key cfrag

end RetrievalRun

/-! ## A retrieval from one node -/

/-- An address whose bytes are all the same. -/
def sampleAddress (byte : UInt8) : CanonicalAddress := ⟨List.replicate 20 byte, by simp⟩

/-- Responses that list their fragments, and that are verified by counting them. -/
def sampleApi : ReencryptionApi Nat Nat (List Nat) where
  fromBytes bytes := some (bytes.map UInt8.toNat)
  verify response capsules _ :=
    if response.length = capsules.length then .ok response else .error .verificationError

/-- A retrieval for one capsule. -/
def sampleCall (threshold : Nat) (destinations : List CanonicalAddress)
    (queriedAddresses : Finset CanonicalAddress) : RetrievalCall Nat Nat Nat (List Nat) where
  codec := hexCodec
  api := sampleApi
  treasureMap := ⟨threshold, Dict.ofList (destinations.map fun address => (address, 0))⟩
  retrievalKits := [⟨7, queriedAddresses⟩]
  pickOrder := ⟨Reorder.identity, Enumeration.sorted CanonicalAddress⟩

/-- The second node is known and answers with one fragment. -/
def sampleInput : WorkerInput where
  knownNodes :=
    let address := hexCodec.toChecksumAddress (sampleAddress 2)
    Dict.ofList [(address, nodeSprout (sampleMetadata address [1] 10))]
  answer := .content [5]

/-- The producer submits the only order and finds no other, the worker returns, and all
threads end. -/
def deliverActions : List (PoolAction WorkerInput) :=
  List.replicate 9 .producer ++ [.startTask 0, .endWorker 0 sampleInput, .reportTask 0] ++
    List.replicate 9 .processor ++ [.timeout, .timeout]

/-- A pool that has no values ends at once. -/
def idleActions : List (PoolAction WorkerInput) :=
  List.replicate 3 .producer ++ List.replicate 6 .processor ++ [.timeout, .timeout]

/-- A kit that holds a fragment of the first node gets one of the second. -/
def resumedRun : RetrievalRun
    (sampleCall 2 [sampleAddress 1, sampleAddress 2] {sampleAddress 1}) where
  first := PoolAttempt.ofRun _ _ deliverActions rfl
  second _ := PoolAttempt.ofRun _ _ idleActions rfl

/-- The last fragment that the kit needs is obtained, and the retrieval raises. -/
theorem resumed_retrieval_raises :
    (∃ cfrags, (hexCodec.toChecksumAddress (sampleAddress 2), .returned cfrags) ∈
      resumedRun.ended ∧ cfrags.get? 7 = some 5) ∧
    resumedRun.retrieveCfrags = .error (.attributeError "checksum_address") ∧
    ¬ ∃ results, resumedRun.retrieveCfrags = .ok results ∧ resumedRun.Exact results := by
  have hraises : resumedRun.retrieveCfrags = .error (.attributeError "checksum_address") := rfl
  refine ⟨⟨Dict.ofList [(7, 5)], ?_, rfl⟩, hraises, ?_⟩
  · have hended : resumedRun.ended =
        [(hexCodec.toChecksumAddress (sampleAddress 2), .returned (Dict.ofList [(7, 5)]))] := rfl
    rw [hended, List.mem_singleton]
  · rintro ⟨results, hreturns, -⟩
    rw [hraises] at hreturns
    simp at hreturns

/-- A kit without fragments gets the one that it needs. -/
def completedRun : RetrievalRun (sampleCall 1 [sampleAddress 2] ∅) where
  first := PoolAttempt.ofRun _ _ deliverActions rfl
  second _ := PoolAttempt.ofRun _ _ idleActions rfl

end NuLink
