import NuLinkCore.Network.Retrieval.PlanRuns
import NuLinkCore.Network.Retrieval.Results

/-!
# The targets of work orders

A plan picks the destinations of the treasure map that no kit lists, and after them every
address that the last kit of some capsule lists, whether or not the map has it.  Kits come
from outside, so that an order may be issued for an address without an entry in the map; its
worker then raises a {lit}`KeyError`.

Main results:

- Theorem {lit}`RetrievalPlan.mem_pickOrder_new_iff`: the addresses that a new plan picks from.
- Theorem {lit}`RetrievalPlan.capsulesFor_new_pos_iff`: for which addresses a new plan has work.
- Theorem {lit}`RetrievalPlan.issued_sublist`: the orders of a run come off the pick order.
- Theorem {lit}`RetrievalPlan.issued_shrinks`: every order is for capsules that the plan had for
  the address from the start.
- Theorem {lit}`RetrievalCall.wellTargeted_iff`: exactly when all orders are for destinations
  and no worker misses its entry in the map.
-/

namespace NuLink

open Collections

namespace RetrievalPlan

variable {Capsule CapsuleFrag EncryptedKeyFrag : Type} [DecidableEq Capsule]
  {treasureMap : TreasureMap EncryptedKeyFrag} {kits : List (RetrievalKit Capsule)}
  {order : PickOrder}

/-! ## The pick order of a new plan -/

/-- The last kit for some capsule lists the address. -/
def ContactedLast (kits : List (RetrievalKit Capsule)) (address : CanonicalAddress) : Prop :=
  ∃ last, IsLastKit kits last ∧ address ∈ last.queriedAddresses

/-- {lit}`ursulas_to_contact_last`. -/
def ursulasToContactLast (kits : List (RetrievalKit Capsule)) : Finset CanonicalAddress :=
  (Dict.ofList (kits.map fun kit => (kit.capsule, kit.queriedAddresses))).values.foldl
    (fun last queried => last ∪ queried) ∅

theorem mem_foldl_union {sets : List (Finset CanonicalAddress)}
    {start : Finset CanonicalAddress} {address : CanonicalAddress} :
    address ∈ sets.foldl (fun last queried => last ∪ queried) start ↔
      address ∈ start ∨ ∃ queried ∈ sets, address ∈ queried := by
  induction sets generalizing start with
  | nil => simp
  | cons first sets ih =>
      rw [List.foldl_cons, ih, Finset.mem_union, or_assoc, List.exists_mem_cons_iff]

theorem mem_ursulasToContactLast {address : CanonicalAddress} :
    address ∈ ursulasToContactLast kits ↔ ContactedLast kits address := by
  rw [ursulasToContactLast, mem_foldl_union, ContactedLast]
  constructor
  · rintro (hempty | ⟨queried, hqueried, haddress⟩)
    · cases hempty
    · rcases Dict.mem_values_iff_exists.mp hqueried with ⟨capsule, hget⟩
      rcases get?_ofKits_iff.mp hget with ⟨last, hlast, -, rfl⟩
      exact ⟨last, hlast, haddress⟩
  · rintro ⟨last, hlast, haddress⟩
    exact Or.inr ⟨_, Dict.mem_values_iff_exists.mpr
      ⟨last.capsule, get?_ofKits_iff.mpr ⟨last, hlast, rfl, rfl⟩⟩, haddress⟩

theorem pickOrder_new :
    (new treasureMap kits order : RetrievalPlan Capsule CapsuleFrag).ursulasPickOrder =
      (order.shuffle.apply treasureMap.destinations.keys).filter
          (fun ursula => ursula ∉ ursulasToContactLast kits) ++
        order.listing.toList (ursulasToContactLast kits) :=
  rfl

/-- A new plan picks from the destinations and from the addresses of the last kits. -/
theorem mem_pickOrder_new_iff {address : CanonicalAddress} :
    address ∈ (new treasureMap kits order : RetrievalPlan Capsule CapsuleFrag).ursulasPickOrder ↔
      address ∈ treasureMap.destinations.keys ∨ ContactedLast kits address := by
  simp only [pickOrder_new, List.mem_append, List.mem_filter, Reorder.mem_apply,
    order.listing.mem_toList, mem_ursulasToContactLast, decide_eq_true_eq]
  tauto

/-- A new plan picks no address twice. -/
theorem pickOrder_new_nodup :
    (new treasureMap kits order : RetrievalPlan Capsule CapsuleFrag).ursulasPickOrder.Nodup := by
  have hdestinations : (order.shuffle.apply treasureMap.destinations.keys).Nodup :=
    (order.shuffle.perm _).nodup_iff.mpr treasureMap.destinations.keys_nodup
  rw [pickOrder_new, List.nodup_append]
  refine ⟨hdestinations.filter _, order.listing.nodup _, ?_⟩
  intro a ha b hb hab
  have hnot : a ∉ ursulasToContactLast kits := by simpa using (List.mem_filter.mp ha).2
  exact hnot (hab ▸ (order.listing.mem_toList _ b).mp hb)

/-- Some capsule has too few queried nodes by its last kit, and no kit for it lists the
address. -/
def HasWork (treasureMap : TreasureMap EncryptedKeyFrag) (kits : List (RetrievalKit Capsule))
    (address : CanonicalAddress) : Prop :=
  ∃ last, IsLastKit kits last ∧ last.queriedAddresses.card < treasureMap.threshold ∧
    ∀ kit ∈ kits, kit.capsule = last.capsule → address ∉ kit.queriedAddresses

/-- A new plan asks exactly the addresses that have work. -/
theorem capsulesFor_new_pos_iff {address : CanonicalAddress} :
    0 < ((new treasureMap kits order :
        RetrievalPlan Capsule CapsuleFrag).capsulesFor address).length ↔
      HasWork treasureMap kits address := by
  rw [List.length_pos_iff_exists_mem]
  constructor
  · rintro ⟨capsule, hcapsule⟩
    rcases List.mem_filter.mp hcapsule with ⟨hmem, hwork⟩
    rcases List.mem_map.mp hmem with ⟨kit, hkit, rfl⟩
    rcases exists_isLastKit hkit with ⟨last, hlast, hsame⟩
    rw [decide_eq_true_eq, mem_processed_new_iff, ← hsame, queried_new_of_isLastKit hlast] at hwork
    refine ⟨last, hlast, hwork.2, ?_⟩
    intro other hother hcapsule haddress
    exact hwork.1 ⟨other, hother, hcapsule, haddress⟩
  · rintro ⟨last, hlast, hfew, hnone⟩
    refine ⟨last.capsule, List.mem_filter.mpr ⟨List.mem_map_of_mem hlast.mem, ?_⟩⟩
    rw [decide_eq_true_eq, mem_processed_new_iff, queried_new_of_isLastKit hlast]
    refine ⟨?_, hfew⟩
    rintro ⟨kit, hkit, hcapsule, haddress⟩
    exact hnone kit hkit hcapsule haddress

/-! ## The orders of a run -/

/-- The work order that an operation issues. -/
def orderOf (plan : RetrievalPlan Capsule CapsuleFrag) :
    Op Capsule CapsuleFrag → Option (RetrievalWorkOrder Capsule)
  | .getWorkOrder => plan.getWorkOrder.1
  | .update _ _ => none

/-- The work orders of a run, each with the plan that issued it. -/
def issued : RetrievalPlan Capsule CapsuleFrag → List (Op Capsule CapsuleFrag) →
    List (RetrievalPlan Capsule CapsuleFrag × RetrievalWorkOrder Capsule)
  | _, [] => []
  | plan, op :: ops =>
      ((plan.orderOf op).map fun workOrder => (plan, workOrder)).toList ++
        issued (plan.step op) ops

/-- An issued order takes its address off the pick order, with what stands before it. -/
theorem pickUrsula_eq_some {plan : RetrievalPlan Capsule CapsuleFrag}
    {addresses rest : List CanonicalAddress} {workOrder : RetrievalWorkOrder Capsule}
    (h : plan.pickUrsula addresses = (some workOrder, rest)) :
    (∃ skipped, addresses = skipped ++ workOrder.ursulaAddress :: rest) ∧
      workOrder.capsules = plan.capsulesFor workOrder.ursulaAddress ∧
      0 < workOrder.capsules.length := by
  induction addresses with
  | nil => cases h
  | cons first addresses ih =>
      rw [pickUrsula] at h
      split at h
      · rename_i hwork
        cases h
        exact ⟨⟨[], rfl⟩, rfl, hwork⟩
      · rcases ih h with ⟨⟨skipped, rfl⟩, hcapsules⟩
        exact ⟨⟨first :: skipped, rfl⟩, hcapsules⟩

theorem pickUrsula_eq_none {plan : RetrievalPlan Capsule CapsuleFrag}
    {addresses rest : List CanonicalAddress} (h : plan.pickUrsula addresses = (none, rest)) :
    rest = [] := by
  rcases plan.pickUrsula_cases addresses with ⟨hnone, -⟩ | ⟨address, rest', hsome, -⟩
  · rw [hnone] at h
    exact (Prod.mk.inj h).2.symm
  · rw [hsome] at h
    cases h

/-- The orders of a run come off the pick order. -/
theorem issued_sublist (plan : RetrievalPlan Capsule CapsuleFrag)
    (ops : List (Op Capsule CapsuleFrag)) :
    ((plan.issued ops).map fun entry => entry.2.ursulaAddress).Sublist plan.ursulasPickOrder := by
  induction ops generalizing plan with
  | nil => exact List.nil_sublist _
  | cons op ops ih =>
      cases op with
      | getWorkOrder =>
          have hrest := ih (plan.step .getWorkOrder)
          rw [issued, List.map_append]
          cases hpick : plan.pickUrsula plan.ursulasPickOrder with
          | mk picked rest =>
              have hstep : (plan.step .getWorkOrder).ursulasPickOrder = rest := by
                rw [step, getWorkOrder, hpick]
              rw [hstep] at hrest
              cases picked with
              | none =>
                  rw [orderOf, getWorkOrder, hpick]
                  rw [pickUrsula_eq_none hpick] at hrest
                  exact hrest.trans (List.nil_sublist _)
              | some workOrder =>
                  rcases (pickUrsula_eq_some hpick).1 with ⟨skipped, hsplit⟩
                  rw [orderOf, getWorkOrder, hpick, hsplit]
                  exact (hrest.cons_cons workOrder.ursulaAddress).trans
                    (List.sublist_append_right skipped _)
      | update address cfrags =>
          have hkeep : (plan.step (.update address cfrags)).ursulasPickOrder =
              plan.ursulasPickOrder :=
            @updateUntilMissing_invariant _ _ _
              (fun after => after.ursulasPickOrder = plan.ursulasPickOrder) address
              (fun _ _ h => h) cfrags.entries plan rfl
          exact hkeep ▸ ih (plan.step (.update address cfrags))

/-- What the operations keep holds of every plan that issues an order, and the order is for the
capsules that this plan has for the address. -/
theorem issued_invariant {P : RetrievalPlan Capsule CapsuleFrag → Prop}
    (hpick : ∀ (plan : RetrievalPlan Capsule CapsuleFrag) rest, P plan →
      P { plan with ursulasPickOrder := rest })
    (hstep : ∀ address plan entry, P plan → P (updateCapsule address plan entry))
    {plan : RetrievalPlan Capsule CapsuleFrag} (hplan : P plan)
    (ops : List (Op Capsule CapsuleFrag)) :
    ∀ entry ∈ plan.issued ops, P entry.1 ∧
      entry.2.capsules = entry.1.capsulesFor entry.2.ursulaAddress ∧
      0 < entry.2.capsules.length := by
  induction ops generalizing plan with
  | nil => simp [issued]
  | cons op ops ih =>
      intro entry hentry
      rcases List.mem_append.mp hentry with hfirst | hlater
      · rcases Option.map_eq_some_iff.mp (Option.mem_toList.mp hfirst) with
          ⟨workOrder, hissued, rfl⟩
        cases op with
        | getWorkOrder =>
            exact ⟨hplan, (pickUrsula_eq_some (Prod.ext hissued rfl)).2⟩
        | update address cfrags => cases hissued
      · exact ih (run_invariant hpick hstep hplan [op]) entry hlater

/-- The second plan is the first one with more nodes queried and more capsules processed. -/
structure Extends (plan after : RetrievalPlan Capsule CapsuleFrag) : Prop where
  capsules : after.capsules = plan.capsules
  threshold : after.threshold = plan.threshold
  processed : ∀ address, plan.processed address ⊆ after.processed address
  queried : ∀ capsule, plan.queried capsule ⊆ after.queried capsule

theorem Extends.updateCapsule {plan after : RetrievalPlan Capsule CapsuleFrag}
    (h : plan.Extends after) (address : CanonicalAddress) (entry : Capsule × CapsuleFrag) :
    plan.Extends (updateCapsule address after entry) where
  capsules := h.capsules
  threshold := h.threshold
  processed address' := by
    rw [processed_updateCapsule]
    split
    · exact (h.processed address').trans (Finset.subset_insert _ _)
    · exact h.processed address'
  queried capsule := by
    rw [queried_updateCapsule]
    split
    · exact (h.queried capsule).trans (Finset.subset_insert _ _)
    · exact h.queried capsule

/-- What a plan still has for an address it had before. -/
theorem Extends.capsulesFor_subset {plan after : RetrievalPlan Capsule CapsuleFrag}
    (h : plan.Extends after) (address : CanonicalAddress) :
    after.capsulesFor address ⊆ plan.capsulesFor address := by
  intro capsule hcapsule
  rcases List.mem_filter.mp hcapsule with ⟨hmem, hwork⟩
  rw [decide_eq_true_eq] at hwork
  refine List.mem_filter.mpr ⟨h.capsules ▸ hmem, decide_eq_true ⟨?_, ?_⟩⟩
  · exact fun hprocessed => hwork.1 (h.processed address hprocessed)
  · exact (Finset.card_le_card (h.queried capsule)).trans_lt (h.threshold ▸ hwork.2)

/-- Every order is for capsules that the plan had for the address from the start. -/
theorem issued_shrinks (plan : RetrievalPlan Capsule CapsuleFrag)
    (ops : List (Op Capsule CapsuleFrag))
    {entry : RetrievalPlan Capsule CapsuleFrag × RetrievalWorkOrder Capsule}
    (h : entry ∈ plan.issued ops) :
    entry.2.capsules ⊆ plan.capsulesFor entry.2.ursulaAddress ∧ 0 < entry.2.capsules.length := by
  rcases issued_invariant (P := plan.Extends) (fun _ _ h => ⟨h.1, h.2, h.3, h.4⟩)
    (fun address _ entry h => h.updateCapsule address entry)
    ⟨rfl, rfl, fun _ => Finset.Subset.refl _, fun _ => Finset.Subset.refl _⟩ ops entry h with
    ⟨hextends, hcapsules, hpos⟩
  exact ⟨hcapsules ▸ hextends.capsulesFor_subset _, hpos⟩

/-- Asking for orders often enough issues one for every address that has work. -/
theorem issued_getWorkOrders (plan : RetrievalPlan Capsule CapsuleFrag) {n : Nat}
    (hn : plan.ursulasPickOrder.length ≤ n) :
    ((plan.issued (List.replicate n .getWorkOrder)).map fun entry => entry.2.ursulaAddress) =
      plan.askedNodes plan.ursulasPickOrder := by
  induction n generalizing plan with
  | zero => rw [List.length_eq_zero_iff.mp (Nat.le_zero.mp hn)]; rfl
  | succ n ih =>
      rw [List.replicate_succ, issued, orderOf, step, getWorkOrder]
      rcases plan.pickUrsula_cases plan.ursulasPickOrder with
        ⟨hpick, hasked⟩ | ⟨address, rest, hpick, hasked, hlength⟩
      · rw [hpick, hasked]
        exact ih { plan with ursulasPickOrder := [] } (Nat.zero_le n)
      · rw [hpick, hasked]
        have hrest := ih { plan with ursulasPickOrder := rest } (by simp only; omega)
        simp only [Option.map_some, Option.toList_some, List.singleton_append, List.map_cons]
        rw [hrest]
        rfl

/-! ## Well-targeted orders -/

/-- All orders are for destinations of the map, no address gets two, and none asks for a capsule
that its node is recorded to have processed. -/
structure WellTargeted (treasureMap : TreasureMap EncryptedKeyFrag)
    (orders : List (RetrievalPlan Capsule CapsuleFrag × RetrievalWorkOrder Capsule)) : Prop where
  destinations : ∀ entry ∈ orders, entry.2.ursulaAddress ∈ treasureMap.destinations.keys
  distinct : (orders.map fun entry => entry.2.ursulaAddress).Nodup
  unprocessed : ∀ entry ∈ orders, ∀ capsule ∈ entry.2.capsules,
    capsule ∉ entry.1.processed entry.2.ursulaAddress

/-- No address outside of the map that the last kit of a capsule lists has work. -/
def OutsidersIdle (treasureMap : TreasureMap EncryptedKeyFrag)
    (kits : List (RetrievalKit Capsule)) : Prop :=
  ∀ address, ContactedLast kits address → address ∉ treasureMap.destinations.keys →
    ¬ HasWork treasureMap kits address

theorem new_distinct (ops : List (Op Capsule CapsuleFrag)) :
    (((new treasureMap kits order : RetrievalPlan Capsule CapsuleFrag).issued ops).map
      fun entry => entry.2.ursulaAddress).Nodup :=
  (issued_sublist _ ops).nodup pickOrder_new_nodup

theorem issued_unprocessed (plan : RetrievalPlan Capsule CapsuleFrag)
    (ops : List (Op Capsule CapsuleFrag))
    {entry : RetrievalPlan Capsule CapsuleFrag × RetrievalWorkOrder Capsule}
    (h : entry ∈ plan.issued ops) {capsule : Capsule} (hcapsule : capsule ∈ entry.2.capsules) :
    capsule ∉ entry.1.processed entry.2.ursulaAddress := by
  have hspec := issued_invariant (P := fun _ => True) (fun _ _ h => h) (fun _ _ _ h => h)
    trivial ops entry h
  rw [hspec.2.1] at hcapsule
  exact (of_decide_eq_true (List.mem_filter.mp hcapsule).2).1

omit [DecidableEq Capsule] in
/-- An address that is asked while outsiders are idle is a destination. -/
theorem destination_of_hasWork {address : CanonicalAddress}
    (hidle : OutsidersIdle treasureMap kits)
    (hpicked : address ∈ treasureMap.destinations.keys ∨ ContactedLast kits address)
    (hwork : HasWork treasureMap kits address) : address ∈ treasureMap.destinations.keys := by
  by_contra houtside
  rcases hpicked with hmem | hlast
  · exact houtside hmem
  · exact hidle address hlast houtside hwork

/-- The orders of all runs are well targeted exactly when outsiders are idle. -/
theorem new_wellTargeted_iff :
    (∀ ops, WellTargeted treasureMap ((new treasureMap kits order :
        RetrievalPlan Capsule CapsuleFrag).issued ops)) ↔
      OutsidersIdle treasureMap kits := by
  constructor
  · intro h address hlast houtside hwork
    let plan : RetrievalPlan Capsule CapsuleFrag := new treasureMap kits order
    have hasked : address ∈ plan.askedNodes plan.ursulasPickOrder :=
      List.mem_filter.mpr ⟨mem_pickOrder_new_iff.mpr (Or.inr hlast),
        decide_eq_true (capsulesFor_new_pos_iff.mpr hwork)⟩
    rw [← issued_getWorkOrders plan (Nat.le_refl _)] at hasked
    rcases List.mem_map.mp hasked with ⟨entry, hentry, rfl⟩
    exact houtside ((h _).destinations entry hentry)
  · intro hidle ops
    refine ⟨?_, new_distinct ops, fun entry hentry capsule =>
      issued_unprocessed _ ops hentry⟩
    intro entry hentry
    rcases issued_shrinks _ ops hentry with ⟨hsubset, hpos⟩
    have hpicked := (issued_sublist _ ops).subset (List.mem_map_of_mem hentry)
    refine destination_of_hasWork hidle (mem_pickOrder_new_iff.mp hpicked) ?_
    rcases List.length_pos_iff_exists_mem.mp hpos with ⟨capsule, hcapsule⟩
    exact capsulesFor_new_pos_iff.mp (List.length_pos_of_mem (hsubset hcapsule))

end RetrievalPlan

namespace RetrievalCall

variable {Capsule CapsuleFrag EncryptedKeyFrag Response : Type} [DecidableEq Capsule]

/-- The worker of a call misses no entry in the map when outsiders are idle. -/
theorem worker_ne_notInTreasureMap
    {call : RetrievalCall Capsule CapsuleFrag EncryptedKeyFrag Response}
    (hidle : RetrievalPlan.OutsidersIdle call.treasureMap call.retrievalKits)
    (address : ChecksumAddress) (input : WorkerInput) (missed : CanonicalAddress) :
    call.worker address input ≠ .raised (.notInTreasureMap missed) := by
  unfold worker
  split
  · simp
  · rename_i workOrder horder
    have hdestination : workOrder.ursulaAddress ∈ call.treasureMap.destinations.keys := by
      rw [workerOrders, RetrievalPlan.workOrders_eq] at horder
      rcases List.mem_map.mp (Dict.mem_of_get?_ofList horder) with ⟨asked, hasked, hentry⟩
      rcases List.mem_filter.mp hasked with ⟨hpicked, hwork⟩
      have haddress : asked = workOrder.ursulaAddress :=
        congrArg RetrievalWorkOrder.ursulaAddress (Prod.mk.inj hentry).2
      rw [← haddress]
      exact RetrievalPlan.destination_of_hasWork hidle
        (RetrievalPlan.mem_pickOrder_new_iff.mp hpicked)
        (RetrievalPlan.capsulesFor_new_pos_iff.mp (of_decide_eq_true hwork))
    rcases Dict.mem_keys_iff_exists.mp hdestination with ⟨encryptedKeyFrag, hget⟩
    split
    · simp
    · rw [hget]
      simp only
      split <;> simp

/-- In all runs of a plan the orders are well targeted, and no worker misses its entry in the
map, exactly when no address outside of the map that the last kit of a capsule lists has work. -/
theorem wellTargeted_iff (call : RetrievalCall Capsule CapsuleFrag EncryptedKeyFrag Response) :
    ((∀ ops, RetrievalPlan.WellTargeted call.treasureMap (call.newPlan.issued ops)) ∧
        ∀ address input missed, call.worker address input ≠ .raised (.notInTreasureMap missed)) ↔
      RetrievalPlan.OutsidersIdle call.treasureMap call.retrievalKits := by
  constructor
  · rintro ⟨htargeted, -⟩
    exact RetrievalPlan.new_wellTargeted_iff.mp htargeted
  · intro hidle
    exact ⟨RetrievalPlan.new_wellTargeted_iff.mpr hidle, worker_ne_notInTreasureMap hidle⟩

/-- A retrieval from two destinations for two capsules, where the kit for the first capsule lists
an address outside of the map. -/
def outsiderCall : RetrievalCall Nat Nat Nat (List Nat) :=
  { sampleCall 2 [sampleAddress 2, sampleAddress 3] ∅ with
    retrievalKits := [⟨7, {sampleAddress 1}⟩, ⟨8, ∅⟩] }

/-- The outsider is known and answers. -/
def outsiderInput : WorkerInput where
  knownNodes :=
    let address := hexCodec.toChecksumAddress (sampleAddress 1)
    Dict.ofList [(address, nodeSprout (sampleMetadata address [1] 10))]
  answer := .content [5]

/-- The outsider gets an order for the second capsule, and its worker misses its entry in the
map. -/
theorem outsider_targeted :
    ((outsiderCall.newPlan.issued (List.replicate 3 .getWorkOrder)).map fun entry =>
        (entry.2.ursulaAddress, entry.2.capsules)) =
      [(sampleAddress 2, [7, 8]), (sampleAddress 3, [7, 8]), (sampleAddress 1, [8])] ∧
    sampleAddress 1 ∉ outsiderCall.treasureMap.destinations.keys ∧
    outsiderCall.worker (hexCodec.toChecksumAddress (sampleAddress 1)) outsiderInput =
      .raised (.notInTreasureMap (sampleAddress 1)) :=
  ⟨rfl, by decide, rfl⟩

end RetrievalCall

end NuLink
