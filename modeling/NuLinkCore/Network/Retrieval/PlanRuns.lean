import NuLinkCore.Network.Retrieval.Plan

/-!
# Runs of a retrieval plan

After it is made, a plan is changed by issuing work orders and by recording fragments, in any
order.  The tables of queried nodes and of processed capsules are then changed together; they
are made differently, however.  Several kits for one capsule overwrite each other in the first
table and accumulate in the second one.

Main results:

- Theorem {lit}`RetrievalPlan.mem_queried_new_iff`: the nodes queried for a capsule in a new
  plan are those of the last kit for it.
- Theorem {lit}`RetrievalPlan.step_indexesInverse`: every operation keeps the tables inverse.
- Theorem {lit}`RetrievalPlan.indexesInverse_iff`: exactly when the tables are inverse in all
  runs.
-/

namespace NuLink

open Collections

section LastKit

variable {Capsule : Type} {kits : List (RetrievalKit Capsule)} {kit : RetrievalKit Capsule}

/-- The last kit of a list for its capsule. -/
def IsLastKit (kits : List (RetrievalKit Capsule)) (kit : RetrievalKit Capsule) : Prop :=
  ∃ before after, kits = before ++ kit :: after ∧ ∀ later ∈ after, later.capsule ≠ kit.capsule

theorem IsLastKit.mem (h : IsLastKit kits kit) : kit ∈ kits := by
  rcases h with ⟨before, after, rfl, -⟩
  simp

/-- Every capsule of the kits has a last kit. -/
theorem exists_isLastKit [DecidableEq Capsule] (h : kit ∈ kits) :
    ∃ last, IsLastKit kits last ∧ last.capsule = kit.capsule := by
  induction kits using List.reverseRecOn with
  | nil => cases h
  | append_singleton kits final ih =>
      by_cases hfinal : final.capsule = kit.capsule
      · exact ⟨final, ⟨kits, [], rfl, by simp⟩, hfinal⟩
      · have hmem : kit ∈ kits := by
          rcases List.mem_append.mp h with hmem | heq
          · exact hmem
          · rw [List.mem_singleton.mp heq] at hfinal
            exact absurd rfl hfinal
        rcases ih hmem with ⟨last, ⟨before, after, rfl, hnone⟩, hcapsule⟩
        refine ⟨last, ⟨before, after ++ [final], by simp, ?_⟩, hcapsule⟩
        intro later hlater
        rcases List.mem_append.mp hlater with hlater | heq
        · exact hnone later hlater
        · rw [List.mem_singleton.mp heq, hcapsule]
          exact hfinal

end LastKit

namespace RetrievalPlan

variable {Capsule CapsuleFrag EncryptedKeyFrag : Type} [DecidableEq Capsule]
  {treasureMap : TreasureMap EncryptedKeyFrag} {kits : List (RetrievalKit Capsule)}
  {order : PickOrder}

/-! ## The tables of a new plan -/

/-- The comprehension over the kits gives a capsule the addresses of its last kit. -/
theorem get?_ofKits_iff {capsule : Capsule} {queried : Finset CanonicalAddress} :
    (Dict.ofList (kits.map fun kit => (kit.capsule, kit.queriedAddresses))).get? capsule =
        some queried ↔
      ∃ last, IsLastKit kits last ∧ last.capsule = capsule ∧ last.queriedAddresses = queried := by
  rw [Dict.get?_ofList_map_eq_some_iff]
  constructor
  · rintro ⟨before, last, after, hsplit, hnone, hcapsule, hqueried⟩
    exact ⟨last, ⟨before, after, hsplit, hnone⟩, hcapsule, hqueried⟩
  · rintro ⟨last, ⟨before, after, hsplit, hnone⟩, hcapsule, hqueried⟩
    exact ⟨before, last, after, hsplit, hnone, hcapsule, hqueried⟩

/-- The nodes queried for the capsule of a last kit are its own. -/
theorem queried_new_of_isLastKit {last : RetrievalKit Capsule} (h : IsLastKit kits last) :
    (new treasureMap kits order : RetrievalPlan Capsule CapsuleFrag).queried last.capsule =
      last.queriedAddresses := by
  have hget := get?_ofKits_iff.mpr ⟨last, h, rfl, rfl⟩
  simp only [queried, setEntry, new, hget, Option.getD_some]

/-- The nodes queried for a capsule in a new plan are those of the last kit for it. -/
theorem mem_queried_new_iff {capsule : Capsule} {address : CanonicalAddress} :
    address ∈ (new treasureMap kits order : RetrievalPlan Capsule CapsuleFrag).queried capsule ↔
      ∃ last, IsLastKit kits last ∧ last.capsule = capsule ∧ address ∈ last.queriedAddresses := by
  constructor
  · intro haddress
    simp only [queried, setEntry, new] at haddress
    cases hget : (Dict.ofList (kits.map fun kit => (kit.capsule, kit.queriedAddresses))).get?
      capsule with
    | none =>
        rw [hget] at haddress
        exact absurd haddress (Finset.notMem_empty address)
    | some queried =>
        rw [hget] at haddress
        rcases get?_ofKits_iff.mp hget with ⟨last, hlast, hcapsule, rfl⟩
        exact ⟨last, hlast, hcapsule, haddress⟩
  · rintro ⟨last, hlast, rfl, haddress⟩
    rw [queried_new_of_isLastKit hlast]
    exact haddress

/-- A node has processed the capsules of the kits that list it. -/
theorem mem_processed_new_iff {capsule : Capsule} {address : CanonicalAddress} :
    capsule ∈ (new treasureMap kits order : RetrievalPlan Capsule CapsuleFrag).processed address ↔
      ∃ kit ∈ kits, kit.capsule = capsule ∧ address ∈ kit.queriedAddresses :=
  mem_processedBy

/-! ## Operations -/

/-- {lit}`update` on any fragments: the loop ends with a {lit}`KeyError` at the first capsule
that the plan does not have. -/
def updateUntilMissing (address : CanonicalAddress) :
    List (Capsule × CapsuleFrag) → RetrievalPlan Capsule CapsuleFrag →
      RetrievalPlan Capsule CapsuleFrag × Option Capsule
  | [], plan => (plan, none)
  | entry :: entries, plan =>
      if plan.queriedAddresses.contains entry.1 then
        updateUntilMissing address entries (updateCapsule address plan entry)
      else (plan, some entry.1)

/-- What callers do with a plan. -/
inductive Op (Capsule CapsuleFrag : Type) where
  | getWorkOrder
  | update (address : CanonicalAddress) (cfrags : Dict Capsule CapsuleFrag)

/-- Perform one operation. -/
def step (plan : RetrievalPlan Capsule CapsuleFrag) :
    Op Capsule CapsuleFrag → RetrievalPlan Capsule CapsuleFrag
  | .getWorkOrder => plan.getWorkOrder.2
  | .update address cfrags => (updateUntilMissing address cfrags.entries plan).1

/-- Perform a sequence of operations. -/
def run (plan : RetrievalPlan Capsule CapsuleFrag) (ops : List (Op Capsule CapsuleFrag)) :
    RetrievalPlan Capsule CapsuleFrag :=
  ops.foldl step plan

theorem contains_updateCapsule {plan : RetrievalPlan Capsule CapsuleFrag}
    (address : CanonicalAddress) (entry : Capsule × CapsuleFrag) {capsule : Capsule}
    (h : plan.queriedAddresses.contains capsule = true) :
    (updateCapsule address plan entry).queriedAddresses.contains capsule = true := by
  rw [← Dict.mem_keys_iff_contains] at h ⊢
  exact Dict.mem_keys_set.mpr (Or.inr h)

/-- An update with capsules of the plan records all of them. -/
theorem updateUntilMissing_of_contains {plan : RetrievalPlan Capsule CapsuleFrag}
    (address : CanonicalAddress) (cfrags : Dict Capsule CapsuleFrag)
    (h : ∀ capsule ∈ cfrags.keys, plan.queriedAddresses.contains capsule = true) :
    updateUntilMissing address cfrags.entries plan = (plan.update address cfrags, none) := by
  have hentries : ∀ entry ∈ cfrags.entries,
      plan.queriedAddresses.contains entry.1 = true :=
    fun entry hentry => h entry.1 (List.mem_map_of_mem hentry)
  clear h
  unfold update
  generalize cfrags.entries = entries at hentries
  induction entries generalizing plan with
  | nil => rfl
  | cons entry entries ih =>
      rw [List.forall_mem_cons] at hentries
      rw [updateUntilMissing, if_pos hentries.1]
      refine ih ?_
      intro later hlater
      exact contains_updateCapsule address entry (hentries.2 later hlater)

/-! ## What the operations keep -/

theorem queried_updateCapsule (address : CanonicalAddress)
    (plan : RetrievalPlan Capsule CapsuleFrag) (entry : Capsule × CapsuleFrag)
    (capsule : Capsule) :
    (updateCapsule address plan entry).queried capsule =
      if capsule = entry.1 then insert address (plan.queried capsule)
      else plan.queried capsule := by
  by_cases h : capsule = entry.1
  · rw [queried, updateCapsule, setEntry_addToEntry, if_pos h, if_pos h, h]
    rfl
  · rw [queried, updateCapsule, setEntry_addToEntry, if_neg h, if_neg h]
    rfl

theorem processed_updateCapsule (address : CanonicalAddress)
    (plan : RetrievalPlan Capsule CapsuleFrag) (entry : Capsule × CapsuleFrag)
    (address' : CanonicalAddress) :
    (updateCapsule address plan entry).processed address' =
      if address' = address then insert entry.1 (plan.processed address')
      else plan.processed address' := by
  by_cases h : address' = address
  · rw [processed, updateCapsule, setEntry_addToEntry, if_pos h, if_pos h, h]
    rfl
  · rw [processed, updateCapsule, setEntry_addToEntry, if_neg h, if_neg h]
    rfl

/-- What every recorded fragment keeps an update keeps. -/
theorem updateUntilMissing_invariant {P : RetrievalPlan Capsule CapsuleFrag → Prop}
    {address : CanonicalAddress}
    (hstep : ∀ plan entry, P plan → P (updateCapsule address plan entry))
    (entries : List (Capsule × CapsuleFrag)) {plan : RetrievalPlan Capsule CapsuleFrag}
    (hplan : P plan) : P (updateUntilMissing address entries plan).1 := by
  induction entries generalizing plan with
  | nil => exact hplan
  | cons entry entries ih =>
      rw [updateUntilMissing]
      split
      · exact ih (hstep plan entry hplan)
      · exact hplan

/-- What every recorded fragment keeps, and what does not look at the pick order, holds in every
state of a run. -/
theorem run_invariant {P : RetrievalPlan Capsule CapsuleFrag → Prop}
    (hpick : ∀ (plan : RetrievalPlan Capsule CapsuleFrag) rest, P plan →
      P { plan with ursulasPickOrder := rest })
    (hstep : ∀ address plan entry, P plan → P (updateCapsule address plan entry))
    {plan : RetrievalPlan Capsule CapsuleFrag} (hplan : P plan)
    (ops : List (Op Capsule CapsuleFrag)) : P (plan.run ops) := by
  induction ops generalizing plan with
  | nil => exact hplan
  | cons op ops ih =>
      refine ih (?_ : P (plan.step op))
      cases op with
      | getWorkOrder => exact hpick plan _ hplan
      | update address cfrags =>
          exact updateUntilMissing_invariant (hstep address) cfrags.entries hplan

/-! ## The two tables -/

/-- A capsule is processed by a node exactly when the node was queried for it. -/
def IndexesInverse (plan : RetrievalPlan Capsule CapsuleFrag) : Prop :=
  ∀ capsule address, capsule ∈ plan.processed address ↔ address ∈ plan.queried capsule

theorem updateCapsule_indexesInverse (address : CanonicalAddress)
    (plan : RetrievalPlan Capsule CapsuleFrag) (entry : Capsule × CapsuleFrag)
    (h : plan.IndexesInverse) : (updateCapsule address plan entry).IndexesInverse := by
  intro capsule address'
  rw [processed_updateCapsule, queried_updateCapsule]
  by_cases haddress : address' = address
  · by_cases hcapsule : capsule = entry.1
    · rw [if_pos haddress, if_pos hcapsule, haddress, hcapsule]
      simp
    · rw [if_pos haddress, if_neg hcapsule, Finset.mem_insert, h capsule address']
      simp [hcapsule]
  · by_cases hcapsule : capsule = entry.1
    · rw [if_neg haddress, if_pos hcapsule, Finset.mem_insert, h capsule address']
      simp [haddress]
    · rw [if_neg haddress, if_neg hcapsule]
      exact h capsule address'

/-- Every operation keeps the tables inverse. -/
theorem step_indexesInverse {plan : RetrievalPlan Capsule CapsuleFrag} (h : plan.IndexesInverse)
    (op : Op Capsule CapsuleFrag) : (plan.step op).IndexesInverse :=
  run_invariant (fun _ _ h => h) updateCapsule_indexesInverse h [op]

/-- The last kit for a capsule lists every address that a kit for the capsule lists. -/
def LastKitsComplete (kits : List (RetrievalKit Capsule)) : Prop :=
  ∀ kit ∈ kits, ∀ last, IsLastKit kits last → last.capsule = kit.capsule →
    kit.queriedAddresses ⊆ last.queriedAddresses

/-- The tables of a new plan are inverse exactly when the last kits are complete. -/
theorem new_indexesInverse_iff :
    (new treasureMap kits order : RetrievalPlan Capsule CapsuleFrag).IndexesInverse ↔
      LastKitsComplete kits := by
  simp only [IndexesInverse, mem_processed_new_iff, mem_queried_new_iff]
  constructor
  · intro h kit hkit last hlast hcapsule address haddress
    rcases (h kit.capsule address).mp ⟨kit, hkit, rfl, haddress⟩ with
      ⟨last', hlast', hcapsule', haddress'⟩
    have hqueried : address ∈ (new treasureMap kits order :
        RetrievalPlan Capsule CapsuleFrag).queried last.capsule := by
      rw [hcapsule, ← hcapsule', queried_new_of_isLastKit hlast']
      exact haddress'
    rw [queried_new_of_isLastKit hlast] at hqueried
    exact hqueried
  · intro h capsule address
    constructor
    · rintro ⟨kit, hkit, rfl, haddress⟩
      rcases exists_isLastKit hkit with ⟨last, hlast, hcapsule⟩
      exact ⟨last, hlast, hcapsule, h kit hkit last hlast hcapsule haddress⟩
    · rintro ⟨last, hlast, hcapsule, haddress⟩
      exact ⟨last, hlast.mem, hcapsule, haddress⟩

/-- The tables are inverse in every state of every run, exactly when the last kit for every
capsule lists all addresses that the kits for it list. -/
theorem indexesInverse_iff (treasureMap : TreasureMap EncryptedKeyFrag)
    (kits : List (RetrievalKit Capsule)) (order : PickOrder) :
    (∀ ops : List (Op Capsule CapsuleFrag),
        ((new treasureMap kits order : RetrievalPlan Capsule CapsuleFrag).run
          ops).IndexesInverse) ↔
      LastKitsComplete kits := by
  constructor
  · intro h
    exact new_indexesInverse_iff.mp (h [])
  · intro h ops
    exact run_invariant (fun _ _ h => h) updateCapsule_indexesInverse
      (new_indexesInverse_iff.mpr h) ops

/-- An address listed only by the first of two kits for one capsule. -/
theorem indexes_notInverse :
    let address : CanonicalAddress := ⟨List.replicate 20 1, rfl⟩
    let plan : RetrievalPlan Nat Nat :=
      new (⟨1, Dict.ofList [(address, 0)]⟩ : TreasureMap Nat) [⟨7, {address}⟩, ⟨7, ∅⟩]
        ⟨Reorder.identity, Enumeration.sorted CanonicalAddress⟩
    7 ∈ plan.processed address ∧ address ∉ plan.queried 7 := by
  decide

end RetrievalPlan

end NuLink
