import NuLinkCore.Network.Retrieval.Targets
import NuLinkCore.Utilities.WorkerPool.InOrder

/-!
# The order in which nodes are asked

A plan picks fresh addresses before those that were queried already, and issues its orders in
this order.  The strategy of a retrieval takes the addresses of the orders from the end of
their list, so that the pools are handed the addresses that were to be asked last first.

Main results:

- Theorem {lit}`RetrievalStrategy.drawBatch_eq`: a batch is a front part of the reversed list.
- Theorem {lit}`RetrievalRun.handed_prefix`: over both pools the addresses of the orders are
  handed out in reverse.
- Theorem {lit}`RetrievalRun.exists_handed_all`: some run hands out all of them.
- Theorem {lit}`RetrievalCall.freshFirst_iff`: exactly when all runs hand out fresh addresses
  first.
-/

namespace NuLink

open Collections Execution

/-- A batch is a front part of the reversed list. -/
theorem RetrievalStrategy.drawBatch_eq (n : Nat) (keys : List ChecksumAddress) :
    drawBatch n keys = (keys.reverse.take n, (keys.reverse.drop n).reverse) := by
  induction n generalizing keys with
  | zero => simp [drawBatch]
  | succ n ih =>
      rw [drawBatch]
      cases hlast : keys.getLast? with
      | none =>
          rw [List.getLast?_eq_none_iff.mp hlast]
          rfl
      | some key =>
          have hkeys : keys.reverse = key :: keys.dropLast.reverse := by
            rw [← List.reverse_concat, List.dropLast_append_getLast? key hlast]
          simp only
          rw [ih, hkeys, List.take_succ_cons, List.drop_succ_cons]

variable {Capsule CapsuleFrag EncryptedKeyFrag Response : Type} [DecidableEq Capsule]

/-! ## What the pools are handed -/

namespace RetrievalCall

/-- The strategy hands out the reversed list from its front. -/
theorem pool_drawsInOrder (call : RetrievalCall Capsule CapsuleFrag EncryptedKeyFrag Response)
    (targetSuccesses : Nat) :
    PoolState.DrawsInOrder (call.pool targetSuccesses)
      fun strategy => strategy.retrievalWorkOrderKeyList.reverse := by
  intro strategy successes
  refine ⟨_, _, rfl, ?_⟩
  simp only [RetrievalStrategy.draw, RetrievalStrategy.drawBatch_eq, List.reverse_reverse]
  exact List.take_append_drop _ _

/-- The orders stand under the addresses of the asked nodes, in the order of the plan. -/
theorem keys_workerOrders
    (call : RetrievalCall Capsule CapsuleFrag EncryptedKeyFrag Response) :
    call.workerOrders.keys =
      (call.newPlan.askedNodes call.newPlan.ursulasPickOrder).map call.codec.toChecksumAddress := by
  have hkeys : ((call.newPlan.askedNodes call.newPlan.ursulasPickOrder).map
      (call.newPlan.orderEntry call.codec)).map Prod.fst =
        (call.newPlan.askedNodes call.newPlan.ursulasPickOrder).map
          call.codec.toChecksumAddress := by
    rw [List.map_map]
    rfl
  have hnodup : ((call.newPlan.askedNodes call.newPlan.ursulasPickOrder).map
      call.codec.toChecksumAddress).Nodup :=
    (RetrievalPlan.pickOrder_new_nodup.filter _).map call.codec.toChecksumAddress_injective
  rw [workerOrders, RetrievalPlan.workOrders_eq, Dict.keys, Dict.entries_ofList (hkeys ▸ hnodup),
    hkeys]

end RetrievalCall

namespace RetrievalRun

variable {call : RetrievalCall Capsule CapsuleFrag EncryptedKeyFrag Response}

/-- The addresses that the strategy hands to the pools, over all batches and both pools. -/
def handed (run : RetrievalRun call) : List ChecksumAddress :=
  run.first.atEnd.emitted ++
    if 0 < run.missing then (run.second run.missing).atEnd.emitted else []

/-- Over both pools the addresses of the orders are handed out in reverse. -/
theorem handed_prefix (run : RetrievalRun call) :
    run.handed <+: call.workerOrders.keys.reverse := by
  have hfirst := PoolState.emitted_append_remaining_eq
    (call.pool_drawsInOrder call.treasureMap.threshold) run.first.reaches_atEnd
  have hsecond := PoolState.emitted_append_remaining_eq
    (call.pool_drawsInOrder run.missing) (run.second run.missing).reaches_atEnd
  rw [handed]
  split
  · refine ⟨(run.second run.missing).atEnd.factory.retrievalWorkOrderKeyList.reverse, ?_⟩
    rw [List.append_assoc, hsecond]
    exact hfirst
  · refine ⟨run.first.atEnd.factory.retrievalWorkOrderKeyList.reverse, ?_⟩
    rw [List.append_nil]
    exact hfirst

/-- Some run hands out all addresses of the orders. -/
theorem exists_handed_all (call : RetrievalCall Capsule CapsuleFrag EncryptedKeyFrag Response)
    (hpos : 0 < call.treasureMap.threshold) :
    ∃ run : RetrievalRun call, run.handed = call.workerOrders.keys.reverse := by
  have hdraws := call.pool_drawsInOrder call.treasureMap.threshold
  have hsome : ∀ (strategy : RetrievalStrategy) batch strategy',
      strategy.needSuccesses = call.treasureMap.threshold →
      strategy.retrievalWorkOrderKeyList.reverse ≠ [] →
      (call.pool call.treasureMap.threshold).valueFactory strategy 0 =
        (.batch batch, strategy') → batch ≠ [] := by
    intro strategy batch strategy' hneed hkeys hcall hbatch
    rw [hbatch] at hcall
    have hdrawn : (strategy.draw 0).1 = [] :=
      FactoryOutcome.batch.inj (Prod.mk.inj hcall).1
    rw [RetrievalStrategy.draw, RetrievalStrategy.drawBatch_eq, hneed, Nat.sub_zero] at hdrawn
    rcases List.take_eq_nil_iff.mp hdrawn with hzero | hempty
    · omega
    · exact hkeys hempty
  rcases @PoolState.exists_reaches_drained _ _ _ _ _ _ _ (PoolState.start call.strategy) _ hdraws
    (fun strategy => strategy.needSuccesses = call.treasureMap.threshold) (fun _ _ h => h) hsome
    rfl rfl rfl with ⟨drained, hdrained, hempty⟩
  rcases PoolAttempt.exists_of_reaches (call.pool_drawsFrom call.treasureMap.threshold)
    hdrained with ⟨first, hfirst⟩
  have hsecond : ∀ targetSuccesses, ∃ attempt : PoolAttempt (call.pool targetSuccesses)
      first.atEnd.factory, True := by
    intro targetSuccesses
    rcases PoolAttempt.exists_of_reaches (call.pool_drawsFrom targetSuccesses)
      (Reaches.refl (PoolState.start first.atEnd.factory)) with ⟨attempt, -⟩
    exact ⟨attempt, trivial⟩
  let run : RetrievalRun call := ⟨first, fun target => (hsecond target).choose⟩
  have hleft := PoolState.drained_of_reaches hdraws hfirst hempty
  have hall := PoolState.emitted_append_remaining_eq hdraws first.reaches_atEnd
  rw [hleft, List.append_nil] at hall
  have hnone := PoolState.emitted_append_remaining_eq (call.pool_drawsInOrder run.missing)
    (run.second run.missing).reaches_atEnd
  refine ⟨run, ?_⟩
  have hnothing : (run.second run.missing).atEnd.emitted = [] := by
    have hempty' := hnone.trans hleft
    exact (List.append_eq_nil_iff.mp hempty').1
  rw [handed, hnothing, ite_self, List.append_nil]
  exact hall

end RetrievalRun

/-! ## Fresh addresses first -/

/-- Some kit lists the address as queried. -/
def Listed (kits : List (RetrievalKit Capsule)) (address : CanonicalAddress) : Prop :=
  ∃ kit ∈ kits, address ∈ kit.queriedAddresses

namespace RetrievalCall

/-- An address under which the learner knows a node that some kit lists. -/
def ListedKey (call : RetrievalCall Capsule CapsuleFrag EncryptedKeyFrag Response)
    (key : ChecksumAddress) : Prop :=
  ∃ address, Listed call.retrievalKits address ∧ call.codec.toChecksumAddress address = key

/-- No address that some kit lists comes before an address that no kit lists. -/
def FreshFirst (call : RetrievalCall Capsule CapsuleFrag EncryptedKeyFrag Response)
    (handed : List ChecksumAddress) : Prop :=
  handed.Pairwise fun earlier later => call.ListedKey earlier → call.ListedKey later

/-- Reversing the pick order does no harm: a fresh destination and an address of the last kits
do not both have work, and no fresh destination with work is shuffled before a listed one that
is not among the last kits. -/
structure ReversalHarmless
    (call : RetrievalCall Capsule CapsuleFrag EncryptedKeyFrag Response) : Prop where
  contactedLast : ∀ address, RetrievalPlan.ContactedLast call.retrievalKits address →
    RetrievalPlan.HasWork call.treasureMap call.retrievalKits address →
      ∀ destination ∈ call.treasureMap.destinations.keys,
        RetrievalPlan.HasWork call.treasureMap call.retrievalKits destination →
          Listed call.retrievalKits destination
  shuffled : (call.pickOrder.shuffle.apply call.treasureMap.destinations.keys).Pairwise
    fun earlier later =>
      RetrievalPlan.HasWork call.treasureMap call.retrievalKits earlier →
      RetrievalPlan.HasWork call.treasureMap call.retrievalKits later →
      ¬ RetrievalPlan.ContactedLast call.retrievalKits later →
        Listed call.retrievalKits later → Listed call.retrievalKits earlier

omit [DecidableEq Capsule] in
/-- Under its address a node is listed exactly when some kit lists the node. -/
theorem listedKey_iff (call : RetrievalCall Capsule CapsuleFrag EncryptedKeyFrag Response)
    (address : CanonicalAddress) :
    call.ListedKey (call.codec.toChecksumAddress address) ↔ Listed call.retrievalKits address := by
  constructor
  · rintro ⟨listed, hlisted, hkey⟩
    rw [← call.codec.toChecksumAddress_injective hkey]
    exact hlisted
  · intro hlisted
    exact ⟨address, hlisted, rfl⟩

omit [DecidableEq Capsule] in
/-- The last kits list what they are contacted last for. -/
theorem listed_of_contactedLast {kits : List (RetrievalKit Capsule)} {address : CanonicalAddress}
    (h : RetrievalPlan.ContactedLast kits address) : Listed kits address := by
  rcases h with ⟨last, hlast, haddress⟩
  exact ⟨last, hlast.mem, haddress⟩

/-- The reversed orders have fresh addresses first exactly when no listed address is asked after
a fresh one. -/
theorem freshFirst_reverse_iff
    (call : RetrievalCall Capsule CapsuleFrag EncryptedKeyFrag Response) :
    call.FreshFirst call.workerOrders.keys.reverse ↔
      (call.newPlan.askedNodes call.newPlan.ursulasPickOrder).Pairwise fun earlier later =>
        Listed call.retrievalKits later → Listed call.retrievalKits earlier := by
  rw [FreshFirst, List.pairwise_reverse, keys_workerOrders, List.pairwise_map]
  simp only [listedKey_iff]

/-- No listed address is asked after a fresh one exactly when reversing does no harm. -/
theorem asked_pairwise_iff
    (call : RetrievalCall Capsule CapsuleFrag EncryptedKeyFrag Response) :
    ((call.newPlan.askedNodes call.newPlan.ursulasPickOrder).Pairwise fun earlier later =>
        Listed call.retrievalKits later → Listed call.retrievalKits earlier) ↔
      call.ReversalHarmless := by
  have hwork : ∀ address, 0 < (call.newPlan.capsulesFor address).length ↔
      RetrievalPlan.HasWork call.treasureMap call.retrievalKits address :=
    fun address => RetrievalPlan.capsulesFor_new_pos_iff
  rw [RetrievalPlan.askedNodes, newPlan, RetrievalPlan.pickOrder_new, List.filter_append,
    List.pairwise_append, List.pairwise_filter, List.pairwise_filter, List.pairwise_filter]
  rw [newPlan] at hwork
  simp only [List.mem_filter, Reorder.mem_apply, call.pickOrder.listing.mem_toList,
    RetrievalPlan.mem_ursulasToContactLast, decide_eq_true_eq, hwork]
  constructor
  · rintro ⟨hshuffled, -, hcross⟩
    constructor
    · intro address hcontacted haddress destination hdestination hasked
      by_cases hdestinationLast : RetrievalPlan.ContactedLast call.retrievalKits destination
      · exact listed_of_contactedLast hdestinationLast
      · exact hcross destination ⟨⟨hdestination, hdestinationLast⟩, hasked⟩ address
          ⟨hcontacted, haddress⟩ (listed_of_contactedLast hcontacted)
    · refine hshuffled.imp ?_
      intro earlier later h hearlier hlater hlaterLast hlisted
      by_cases hearlierLast : RetrievalPlan.ContactedLast call.retrievalKits earlier
      · exact listed_of_contactedLast hearlierLast
      · exact h hearlierLast hlaterLast hearlier hlater hlisted
  · intro hharmless
    refine ⟨?_, ?_, ?_⟩
    · refine hharmless.shuffled.imp ?_
      intro earlier later h _ hlaterLast hearlier hlater hlisted
      exact h hearlier hlater hlaterLast hlisted
    · -- All addresses of the last kits are listed.
      refine List.pairwise_of_forall_mem_list ?_
      intro earlier hearlier later _ _ _ _
      exact listed_of_contactedLast (RetrievalPlan.mem_ursulasToContactLast.mp
        ((call.pickOrder.listing.mem_toList _ earlier).mp hearlier))
    · rintro destination ⟨⟨hdestination, -⟩, hasked⟩ address ⟨hcontacted, haddress⟩ _
      exact hharmless.contactedLast address hcontacted haddress destination hdestination hasked

/-- All runs of a retrieval hand out fresh addresses before listed ones, exactly when reversing
the pick order does no harm. -/
theorem freshFirst_iff (call : RetrievalCall Capsule CapsuleFrag EncryptedKeyFrag Response) :
    (∀ run : RetrievalRun call, call.FreshFirst run.handed) ↔ call.ReversalHarmless := by
  constructor
  · intro h
    by_cases hpos : 0 < call.treasureMap.threshold
    · rcases RetrievalRun.exists_handed_all call hpos with ⟨run, hall⟩
      have hrun := h run
      rw [hall] at hrun
      exact call.asked_pairwise_iff.mp (call.freshFirst_reverse_iff.mp hrun)
    · -- With threshold zero no address has work.
      have hidle : ∀ address,
          ¬ RetrievalPlan.HasWork call.treasureMap call.retrievalKits address := by
        rintro address ⟨last, -, hfew, -⟩
        omega
      refine ⟨fun address _ haddress => absurd haddress (hidle address), ?_⟩
      exact List.pairwise_of_forall fun earlier _ hearlier => absurd hearlier (hidle earlier)
  · intro hharmless run
    have hall := call.freshFirst_reverse_iff.mpr (call.asked_pairwise_iff.mpr hharmless)
    exact List.Pairwise.sublist run.handed_prefix.sublist hall

/-- A kit for the first capsule lists the first of two destinations. -/
def reversedCall : RetrievalCall Nat Nat Nat (List Nat) :=
  { sampleCall 2 [sampleAddress 1, sampleAddress 2] ∅ with
    retrievalKits := [⟨7, {sampleAddress 1}⟩, ⟨8, ∅⟩] }

/-- The second destination is fresh and the first one is listed, and some run hands out the first
one before the second one. -/
theorem listed_handed_first :
    ListedKey reversedCall (hexCodec.toChecksumAddress (sampleAddress 1)) ∧
      ¬ ListedKey reversedCall (hexCodec.toChecksumAddress (sampleAddress 2)) ∧
      ∃ run : RetrievalRun reversedCall, run.handed =
        [hexCodec.toChecksumAddress (sampleAddress 1),
          hexCodec.toChecksumAddress (sampleAddress 2)] := by
  refine ⟨(listedKey_iff reversedCall _).mpr ?_, fun h => ?_, ?_⟩
  · exact ⟨⟨7, {sampleAddress 1}⟩, List.mem_cons_self, by simp⟩
  · rcases (listedKey_iff reversedCall _).mp h with ⟨kit, hkit, haddress⟩
    rcases List.mem_cons.mp hkit with rfl | hkit
    · exact absurd haddress (by decide)
    · rw [List.mem_singleton.mp hkit] at haddress
      exact absurd haddress (by decide)
  · rcases RetrievalRun.exists_handed_all reversedCall (by decide) with ⟨run, hall⟩
    exact ⟨run, hall.trans rfl⟩

end RetrievalCall

end NuLink
