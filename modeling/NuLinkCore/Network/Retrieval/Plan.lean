import NuLinkCore.Lib.KeyedSet
import NuLinkCore.Policy.Kits

/-!
# The retrieval plan

A plan decides which nodes of a treasure map are asked for which capsules, and records
the fragments that come back.  It keeps two tables that are inverse to each other: the
nodes that were queried for a capsule, and the capsules that a node has processed.

All work orders are issued before the first fragment arrives.  A node is asked for the
capsules that it has not processed and that had too few fragments at that time.

Main results:

- Theorem {lit}`RetrievalPlan.mem_processed_new`: the two tables of a new plan are inverse
  to each other.
- Theorem {lit}`RetrievalPlan.workOrders_eq`: the issued orders, and that the loop that
  collects them ends because no node is left.
- Theorem {lit}`RetrievalPlan.resultsOf_applyUpdates`: the fragments after a sequence of
  updates.
-/

namespace NuLink

open Collections

/-- The part of a treasure map that a retrieval reads. -/
structure TreasureMap (EncryptedKeyFrag : Type) where
  threshold : Nat
  destinations : Dict CanonicalAddress EncryptedKeyFrag

/-- A request to one node for some capsules. -/
structure RetrievalWorkOrder (Capsule : Type) where
  ursulaAddress : CanonicalAddress
  capsules : List Capsule

/-- The order of {lit}`random.shuffle`, and of iterating over a set of addresses. -/
structure PickOrder where
  shuffle : Reorder CanonicalAddress
  listing : Enumeration CanonicalAddress

/-- The state of a retrieval. -/
structure RetrievalPlan (Capsule CapsuleFrag : Type) where
  capsules : List Capsule
  threshold : Nat
  results : Dict Capsule (Dict CanonicalAddress CapsuleFrag)
  queriedAddresses : Dict Capsule (Finset CanonicalAddress)
  processedCapsules : Dict CanonicalAddress (Finset Capsule)
  ursulasPickOrder : List CanonicalAddress

namespace RetrievalPlan

variable {Capsule CapsuleFrag EncryptedKeyFrag : Type} [DecidableEq Capsule]

/-- The entry of a {lit}`defaultdict(set)`. -/
def setEntry {κ α : Type} [DecidableEq κ] (table : Dict κ (Finset α)) (key : κ) : Finset α :=
  (table.get? key).getD ∅

/-- The nodes queried for a capsule.  Every capsule of the plan has an entry. -/
def queried (plan : RetrievalPlan Capsule CapsuleFrag) (capsule : Capsule) :
    Finset CanonicalAddress :=
  setEntry plan.queriedAddresses capsule

/-- The capsules processed by a node. -/
def processed (plan : RetrievalPlan Capsule CapsuleFrag) (address : CanonicalAddress) :
    Finset Capsule :=
  setEntry plan.processedCapsules address

/-- The fragments of a capsule.  Every capsule of the plan has an entry. -/
def resultsOf (plan : RetrievalPlan Capsule CapsuleFrag) (capsule : Capsule) :
    Dict CanonicalAddress CapsuleFrag :=
  (plan.results.get? capsule).getD Dict.empty

/-- Add an element to an entry of a {lit}`defaultdict(set)`. -/
def addToEntry {κ α : Type} [DecidableEq κ] [DecidableEq α] (table : Dict κ (Finset α)) (key : κ)
    (element : α) : Dict κ (Finset α) :=
  table.set key (insert element (setEntry table key))

/-- The loop that fills {lit}`_processed_capsules`. -/
def processedBy (listing : Enumeration CanonicalAddress) (kits : List (RetrievalKit Capsule)) :
    Dict CanonicalAddress (Finset Capsule) :=
  kits.foldl
    (fun table kit => (listing.toList kit.queriedAddresses).foldl
      (fun table address => addToEntry table address kit.capsule) table)
    Dict.empty

/-- {lit}`RetrievalPlan.__init__`. -/
def new (treasureMap : TreasureMap EncryptedKeyFrag) (kits : List (RetrievalKit Capsule))
    (order : PickOrder) : RetrievalPlan Capsule CapsuleFrag :=
  let queriedAddresses := Dict.ofList (kits.map fun kit => (kit.capsule, kit.queriedAddresses))
  let ursulasToContactLast := queriedAddresses.values.foldl (fun last queried => last ∪ queried) ∅
  { capsules := kits.map RetrievalKit.capsule
    threshold := treasureMap.threshold
    results := Dict.ofList (kits.map fun kit => (kit.capsule, Dict.empty))
    queriedAddresses := queriedAddresses
    processedCapsules := processedBy order.listing kits
    ursulasPickOrder :=
      (order.shuffle.apply treasureMap.destinations.keys).filter
        (fun ursula => ursula ∉ ursulasToContactLast) ++
      order.listing.toList ursulasToContactLast }

/-- The capsules for which a node is asked: those that it has not processed and that do
not have enough fragments. -/
def capsulesFor (plan : RetrievalPlan Capsule CapsuleFrag) (address : CanonicalAddress) :
    List Capsule :=
  plan.capsules.filter fun capsule =>
    capsule ∉ plan.processed address ∧ (plan.queried capsule).card < plan.threshold

/-- The loop of {lit}`get_work_order`, with the nodes that it leaves. -/
def pickUrsula (plan : RetrievalPlan Capsule CapsuleFrag) :
    List CanonicalAddress → Option (RetrievalWorkOrder Capsule) × List CanonicalAddress
  | [] => (none, [])
  | address :: rest =>
      if 0 < (plan.capsulesFor address).length then
        (some ⟨address, plan.capsulesFor address⟩, rest)
      else plan.pickUrsula rest

/-- {lit}`get_work_order`; {lit}`none` stands for the {lit}`RuntimeError` when no node is
left. -/
def getWorkOrder (plan : RetrievalPlan Capsule CapsuleFrag) :
    Option (RetrievalWorkOrder Capsule) × RetrievalPlan Capsule CapsuleFrag :=
  let picked := plan.pickUrsula plan.ursulasPickOrder
  (picked.1, { plan with ursulasPickOrder := picked.2 })

/-- The body of the loop of {lit}`update`. -/
def updateCapsule (address : CanonicalAddress) (plan : RetrievalPlan Capsule CapsuleFrag)
    (entry : Capsule × CapsuleFrag) : RetrievalPlan Capsule CapsuleFrag :=
  { plan with
    queriedAddresses := addToEntry plan.queriedAddresses entry.1 address
    processedCapsules := addToEntry plan.processedCapsules address entry.1
    results := plan.results.set entry.1 ((plan.resultsOf entry.1).set address entry.2) }

/-- {lit}`update`. -/
def update (plan : RetrievalPlan Capsule CapsuleFrag) (address : CanonicalAddress)
    (cfrags : Dict Capsule CapsuleFrag) : RetrievalPlan Capsule CapsuleFrag :=
  cfrags.entries.foldl (updateCapsule address) plan

/-- The result for one capsule. -/
def resultFor (codec : AddressCodec) (plan : RetrievalPlan Capsule CapsuleFrag)
    (capsule : Capsule) : RetrievalResult CapsuleFrag :=
  ⟨Dict.ofList ((plan.resultsOf capsule).entries.map
    fun entry => (codec.toChecksumAddress entry.1, entry.2))⟩

/-- {lit}`RetrievalPlan.results`. -/
def resultList (codec : AddressCodec) (plan : RetrievalPlan Capsule CapsuleFrag) :
    List (RetrievalResult CapsuleFrag) :=
  plan.capsules.map (plan.resultFor codec)

/-! ## A new plan -/

theorem setEntry_addToEntry {κ α : Type} [DecidableEq κ] [DecidableEq α]
    (table : Dict κ (Finset α)) (key key' : κ) (element : α) :
    setEntry (addToEntry table key element) key' =
      if key' = key then insert element (setEntry table key) else setEntry table key' := by
  unfold setEntry addToEntry
  rw [Dict.get?_set]
  split <;> rfl

/-- The inner loop marks one capsule as processed by the listed nodes. -/
theorem mem_setEntry_foldl_addToEntry {table : Dict CanonicalAddress (Finset Capsule)}
    {addresses : List CanonicalAddress} {capsule capsule' : Capsule}
    {address : CanonicalAddress} :
    capsule' ∈ setEntry (addresses.foldl (fun table a => addToEntry table a capsule) table) address ↔
      capsule' ∈ setEntry table address ∨ capsule' = capsule ∧ address ∈ addresses := by
  induction addresses generalizing table with
  | nil => simp
  | cons first rest ih =>
      rw [List.foldl_cons, ih, setEntry_addToEntry]
      by_cases h : address = first
      · subst h
        rw [if_pos rfl, Finset.mem_insert]
        constructor
        · rintro ((heq | hold) | ⟨heq, -⟩)
          · exact Or.inr ⟨heq, List.mem_cons_self⟩
          · exact Or.inl hold
          · exact Or.inr ⟨heq, List.mem_cons_self⟩
        · rintro (hold | ⟨heq, -⟩)
          · exact Or.inl (Or.inr hold)
          · exact Or.inl (Or.inl heq)
      · simp [h]

/-- A node has processed the capsules of the kits for which it was queried. -/
theorem mem_processedBy {listing : Enumeration CanonicalAddress}
    {kits : List (RetrievalKit Capsule)} {capsule : Capsule} {address : CanonicalAddress} :
    capsule ∈ setEntry (processedBy listing kits) address ↔
      ∃ kit ∈ kits, kit.capsule = capsule ∧ address ∈ kit.queriedAddresses := by
  have hfold : ∀ (kits : List (RetrievalKit Capsule))
      (table : Dict CanonicalAddress (Finset Capsule)),
      capsule ∈ setEntry (kits.foldl
        (fun table kit => (listing.toList kit.queriedAddresses).foldl
          (fun table a => addToEntry table a kit.capsule) table) table) address ↔
        capsule ∈ setEntry table address ∨
          ∃ kit ∈ kits, kit.capsule = capsule ∧ address ∈ kit.queriedAddresses := by
    intro kits
    induction kits with
    | nil => simp
    | cons kit kits ih =>
        intro table
        rw [List.foldl_cons, ih, mem_setEntry_foldl_addToEntry, listing.mem_toList]
        simp only [List.exists_mem_cons_iff, or_assoc, eq_comm (a := capsule)]
  rw [processedBy, hfold]
  simp [setEntry]

variable {treasureMap : TreasureMap EncryptedKeyFrag} {kits : List (RetrievalKit Capsule)}
  {order : PickOrder}

/-- When the capsules are different, the queried nodes of a capsule are those of its kit. -/
theorem queried_new (hnodup : (kits.map RetrievalKit.capsule).Nodup) {kit : RetrievalKit Capsule}
    (hkit : kit ∈ kits) :
    (new treasureMap kits order : RetrievalPlan Capsule CapsuleFrag).queried kit.capsule =
      kit.queriedAddresses := by
  have hkeys : ((kits.map fun kit => (kit.capsule, kit.queriedAddresses)).map Prod.fst).Nodup := by
    rw [List.map_map]
    exact hnodup
  have hget := (Dict.get?_ofList_eq_some_iff hkeys).mpr
    (List.mem_map.mpr ⟨kit, hkit, rfl⟩)
  simp only [queried, setEntry, new, hget, Option.getD_some]

/-- The two tables of a new plan are inverse to each other. -/
theorem mem_processed_new (hnodup : (kits.map RetrievalKit.capsule).Nodup)
    {kit : RetrievalKit Capsule} (hkit : kit ∈ kits) {address : CanonicalAddress} :
    kit.capsule ∈ (new treasureMap kits order : RetrievalPlan Capsule CapsuleFrag).processed
        address ↔
      address ∈ kit.queriedAddresses := by
  have hmem := @mem_processedBy Capsule _ order.listing kits kit.capsule address
  rw [processed, new]
  simp only
  rw [hmem]
  constructor
  · rintro ⟨other, hother, hcapsule, haddress⟩
    have heq : other = kit := List.inj_on_of_nodup_map hnodup hother hkit hcapsule
    exact heq ▸ haddress
  · intro haddress
    exact ⟨kit, hkit, rfl, haddress⟩

/-- A new plan holds no fragments. -/
theorem resultsOf_new (capsule : Capsule) :
    (new treasureMap kits order : RetrievalPlan Capsule CapsuleFrag).resultsOf capsule =
      Dict.empty := by
  unfold resultsOf new
  simp only
  cases hget : (Dict.ofList (kits.map fun kit => (kit.capsule, Dict.empty)) :
      Dict Capsule (Dict CanonicalAddress CapsuleFrag)).get? capsule with
  | none => rfl
  | some results =>
      have hmem := Dict.mem_of_get?_ofList hget
      rcases List.mem_map.mp hmem with ⟨kit, -, hpair⟩
      exact (Prod.mk.inj hpair).2.symm

/-! ## Issuing the work orders -/

/-- The loop of {lit}`retrieve_cfrags` that collects work orders until none is left. -/
def collectWorkOrders (codec : AddressCodec) :
    Nat → RetrievalPlan Capsule CapsuleFrag →
      Dict ChecksumAddress (RetrievalWorkOrder Capsule) →
      Dict ChecksumAddress (RetrievalWorkOrder Capsule) × RetrievalPlan Capsule CapsuleFrag
  | 0, plan, orders => (orders, plan)
  | fuel + 1, plan, orders =>
      match plan.getWorkOrder with
      | (none, plan) => (orders, plan)
      | (some workOrder, plan) =>
          collectWorkOrders codec fuel plan
            (orders.set (codec.toChecksumAddress workOrder.ursulaAddress) workOrder)

/-- All work orders of a plan.  Every order takes at least one node off the pick order. -/
def workOrders (codec : AddressCodec) (plan : RetrievalPlan Capsule CapsuleFrag) :
    Dict ChecksumAddress (RetrievalWorkOrder Capsule) × RetrievalPlan Capsule CapsuleFrag :=
  collectWorkOrders codec (plan.ursulasPickOrder.length + 1) plan Dict.empty

/-- The order for a node, under the address by which the node is known. -/
def orderEntry (codec : AddressCodec) (plan : RetrievalPlan Capsule CapsuleFrag)
    (address : CanonicalAddress) : ChecksumAddress × RetrievalWorkOrder Capsule :=
  (codec.toChecksumAddress address, ⟨address, plan.capsulesFor address⟩)

/-- The nodes that are asked for at least one capsule. -/
def askedNodes (plan : RetrievalPlan Capsule CapsuleFrag)
    (addresses : List CanonicalAddress) : List CanonicalAddress :=
  addresses.filter fun address => 0 < (plan.capsulesFor address).length

/-- {lit}`get_work_order` skips the nodes that have nothing to do. -/
theorem pickUrsula_cases (plan : RetrievalPlan Capsule CapsuleFrag)
    (addresses : List CanonicalAddress) :
    plan.pickUrsula addresses = (none, []) ∧ plan.askedNodes addresses = [] ∨
      ∃ address rest,
        plan.pickUrsula addresses = (some ⟨address, plan.capsulesFor address⟩, rest) ∧
        plan.askedNodes addresses = address :: plan.askedNodes rest ∧
        rest.length < addresses.length := by
  induction addresses with
  | nil => exact Or.inl ⟨rfl, rfl⟩
  | cons first addresses ih =>
      by_cases hfirst : 0 < (plan.capsulesFor first).length
      · refine Or.inr ⟨first, addresses, ?_, ?_, by simp⟩
        · rw [pickUrsula, if_pos hfirst]
        · simp [askedNodes, hfirst]
      · have hasked : plan.askedNodes (first :: addresses) = plan.askedNodes addresses := by
          simp [askedNodes, hfirst]
        rw [pickUrsula, if_neg hfirst, hasked]
        rcases ih with hnone | ⟨address, rest, hpick, hrest, hlength⟩
        · exact Or.inl hnone
        · refine Or.inr ⟨address, rest, hpick, hrest, ?_⟩
          rw [List.length_cons]
          omega

/-- The loop collects an order for every node that has something to do, and ends because
no node is left. -/
theorem collectWorkOrders_eq (codec : AddressCodec) (fuel : Nat)
    (plan : RetrievalPlan Capsule CapsuleFrag)
    (orders : Dict ChecksumAddress (RetrievalWorkOrder Capsule))
    (hfuel : plan.ursulasPickOrder.length < fuel) :
    collectWorkOrders codec fuel plan orders =
      (((plan.askedNodes plan.ursulasPickOrder).map (plan.orderEntry codec)).foldl
        (fun orders entry => orders.set entry.1 entry.2) orders,
        { plan with ursulasPickOrder := [] }) := by
  induction fuel generalizing plan orders with
  | zero => omega
  | succ fuel ih =>
      rw [collectWorkOrders, getWorkOrder]
      rcases plan.pickUrsula_cases plan.ursulasPickOrder with
        ⟨hpick, hasked⟩ | ⟨address, rest, hpick, hasked, hlength⟩
      · simp only [hpick, hasked, List.map_nil, List.foldl_nil]
      · simp only [hpick, hasked, List.map_cons, List.foldl_cons]
        exact ih { plan with ursulasPickOrder := rest } _
          (by simp only; omega)

theorem workOrders_eq (codec : AddressCodec) (plan : RetrievalPlan Capsule CapsuleFrag) :
    plan.workOrders codec =
      (Dict.ofList ((plan.askedNodes plan.ursulasPickOrder).map (plan.orderEntry codec)),
        { plan with ursulasPickOrder := [] }) :=
  collectWorkOrders_eq codec _ plan Dict.empty (Nat.lt_succ_self _)

/-- An issued order is for the capsules that its node is to be asked for, and stands under
the address of the node. -/
theorem workOrders_sound {codec : AddressCodec} {plan : RetrievalPlan Capsule CapsuleFrag}
    {key : ChecksumAddress} {workOrder : RetrievalWorkOrder Capsule}
    (h : (plan.workOrders codec).1.get? key = some workOrder) :
    key = codec.toChecksumAddress workOrder.ursulaAddress ∧
      workOrder.capsules = plan.capsulesFor workOrder.ursulaAddress := by
  rw [workOrders_eq] at h
  rcases List.mem_map.mp (Dict.mem_of_get?_ofList h) with ⟨address, -, hentry⟩
  cases hentry
  exact ⟨rfl, rfl⟩

/-! ## Recording fragments -/

@[simp]
theorem update_capsules (plan : RetrievalPlan Capsule CapsuleFrag) (address : CanonicalAddress)
    (cfrags : Dict Capsule CapsuleFrag) : (plan.update address cfrags).capsules = plan.capsules := by
  unfold update
  generalize cfrags.entries = entries
  induction entries generalizing plan with
  | nil => rfl
  | cons entry entries ih => exact ih (updateCapsule address plan entry)

theorem resultsOf_updateCapsule (address : CanonicalAddress)
    (plan : RetrievalPlan Capsule CapsuleFrag) (entry : Capsule × CapsuleFrag)
    (capsule : Capsule) :
    (updateCapsule address plan entry).resultsOf capsule =
      if capsule = entry.1 then (plan.resultsOf entry.1).set address entry.2
      else plan.resultsOf capsule := by
  unfold updateCapsule resultsOf
  simp only
  rw [Dict.get?_set]
  split <;> rfl

/-- An update records the fragments of one node and keeps those of the others. -/
theorem get?_resultsOf_update (plan : RetrievalPlan Capsule CapsuleFrag)
    (address address' : CanonicalAddress) (cfrags : Dict Capsule CapsuleFrag)
    (capsule : Capsule) :
    ((plan.update address cfrags).resultsOf capsule).get? address' =
      if address' = address then (cfrags.get? capsule).or ((plan.resultsOf capsule).get? address')
      else (plan.resultsOf capsule).get? address' := by
  have hfold : ∀ entries : List (Capsule × CapsuleFrag),
      ((entries.foldl (updateCapsule address) plan).resultsOf capsule).get? address' =
        if address' = address then
          (entries.reverse.lookup capsule).or ((plan.resultsOf capsule).get? address')
        else (plan.resultsOf capsule).get? address' := by
    intro entries
    induction entries using List.reverseRecOn with
    | nil => simp
    | append_singleton entries entry ih =>
        rw [List.foldl_append, List.foldl_cons, List.foldl_nil, resultsOf_updateCapsule,
          List.reverse_append, List.reverse_singleton, List.singleton_append,
          Dict.lookup_cons_ite]
        by_cases hcapsule : capsule = entry.1
        · rw [if_pos hcapsule, if_pos hcapsule, Dict.get?_set, ← hcapsule, ih]
          by_cases haddress : address' = address <;> simp [haddress]
        · rw [if_neg hcapsule, if_neg hcapsule, ih]
  rw [update, hfold, Dict.lookup_reverse_entries]

/-- Perform updates of several nodes, one after the other. -/
def applyUpdates (plan : RetrievalPlan Capsule CapsuleFrag)
    (log : List (CanonicalAddress × Dict Capsule CapsuleFrag)) :
    RetrievalPlan Capsule CapsuleFrag :=
  log.foldl (fun plan entry => plan.update entry.1 entry.2) plan

@[simp]
theorem applyUpdates_capsules (plan : RetrievalPlan Capsule CapsuleFrag)
    (log : List (CanonicalAddress × Dict Capsule CapsuleFrag)) :
    (plan.applyUpdates log).capsules = plan.capsules := by
  unfold applyUpdates
  induction log generalizing plan with
  | nil => rfl
  | cons entry log ih =>
      rw [List.foldl_cons, ih, update_capsules]

/-- After the updates of different nodes a plan without fragments holds exactly theirs. -/
theorem resultsOf_applyUpdates {plan : RetrievalPlan Capsule CapsuleFrag} {capsule : Capsule}
    (hempty : plan.resultsOf capsule = Dict.empty)
    {log : List (CanonicalAddress × Dict Capsule CapsuleFrag)}
    (hnodup : (log.map Prod.fst).Nodup) {address : CanonicalAddress} {cfrag : CapsuleFrag} :
    ((plan.applyUpdates log).resultsOf capsule).get? address = some cfrag ↔
      ∃ cfrags, (address, cfrags) ∈ log ∧ cfrags.get? capsule = some cfrag := by
  induction log using List.reverseRecOn generalizing cfrag with
  | nil => simp [applyUpdates, hempty]
  | append_singleton log entry ih =>
      rw [List.map_append, List.nodup_append] at hnodup
      have hold := @ih hnodup.1 cfrag
      have hlast : plan.applyUpdates (log ++ [entry]) =
          (plan.applyUpdates log).update entry.1 entry.2 := by
        simp [applyUpdates]
      have hexists : (∃ cfrags, (address, cfrags) ∈ log ++ [entry] ∧
          cfrags.get? capsule = some cfrag) ↔
          (∃ cfrags, (address, cfrags) ∈ log ∧ cfrags.get? capsule = some cfrag) ∨
            address = entry.1 ∧ entry.2.get? capsule = some cfrag := by
        simp only [List.mem_append, List.mem_singleton, or_and_right, exists_or]
        refine or_congr_right ?_
        constructor
        · rintro ⟨cfrags, heq, hget⟩
          exact ⟨congrArg Prod.fst heq, heq ▸ hget⟩
        · rintro ⟨heq, hget⟩
          exact ⟨entry.2, by rw [heq], hget⟩
      rw [hlast, get?_resultsOf_update, hexists, ← hold]
      by_cases haddress : address = entry.1
      · -- The node has not been heard of before.
        have hnew : address ∉ log.map Prod.fst := by
          intro hmem
          exact hnodup.2.2 address hmem entry.1 (by simp) haddress
        have hnone : ((plan.applyUpdates log).resultsOf capsule).get? address = none := by
          rw [Option.eq_none_iff_forall_ne_some]
          intro other hother
          rcases (ih hnodup.1).mp hother with ⟨cfrags, hmem, -⟩
          exact hnew (List.mem_map.mpr ⟨_, hmem, rfl⟩)
        rw [if_pos haddress, hnone]
        simp [haddress]
      · rw [if_neg haddress]
        simp [haddress]

/-- The result for a capsule holds its fragments under the checksummed addresses. -/
theorem get?_resultFor (codec : AddressCodec) (plan : RetrievalPlan Capsule CapsuleFrag)
    (capsule : Capsule) (key : ChecksumAddress) (cfrag : CapsuleFrag) :
    (plan.resultFor codec capsule).cfrags.get? key = some cfrag ↔
      ∃ address, key = codec.toChecksumAddress address ∧
        (plan.resultsOf capsule).get? address = some cfrag := by
  have hkeys : (((plan.resultsOf capsule).entries.map
      fun entry => (codec.toChecksumAddress entry.1, entry.2)).map Prod.fst).Nodup := by
    have hmap : ((plan.resultsOf capsule).entries.map
        fun entry => (codec.toChecksumAddress entry.1, entry.2)).map Prod.fst =
          (plan.resultsOf capsule).keys.map codec.toChecksumAddress := by
      simp [Dict.keys]
    rw [hmap]
    exact (plan.resultsOf capsule).keys_nodup.map codec.toChecksumAddress_injective
  rw [resultFor, Dict.get?_ofList_eq_some_iff hkeys, List.mem_map]
  constructor
  · rintro ⟨⟨address, other⟩, hmem, hentry⟩
    cases hentry
    exact ⟨address, rfl, Dict.mem_entries_iff.mp hmem⟩
  · rintro ⟨address, rfl, hget⟩
    exact ⟨(address, cfrag), Dict.mem_entries_iff.mpr hget, rfl⟩

end RetrievalPlan

end NuLink
