import NuLinkCore.Acumen.FleetSensor

/-!
# Runs of a fleet sensor

What one update does to a fleet state is stated field by field: which addresses
disappear, which keep their node, which take one of the batch, and what the
reported difference says about all this.  A run performs the operations of a
sensor in any order; along every run the recorded nodes stay filed under their
own addresses and inside the sensor's domain.

Main results:

- Theorem {lit}`FleetState.withUpdatedNodes_mergesBatch`: an update meets its specification
  {lit}`FleetState.MergesBatch`.
- Theorem {lit}`FleetSensor.run_wellKeyed`: the invariant {lit}`FleetSensor.WellKeyed` along
  every run.
- Theorem {lit}`FleetSensor.fleet_update_spec`: both together.
-/

namespace NuLink

open Collections

/-! ## One update -/

namespace FleetState

/-- The metadata of a node is not what a state has recorded for its address. -/
def Differs (state : FleetState) (node : Node) : Prop :=
  ∀ known, state.nodes.get? node.checksumAddress = some known → known.metadata ≠ node.metadata

/-- What merging a batch of additions and removals into a state does: the new state and the
reported difference. -/
structure MergesBatch (old : FleetState) (nodesToAdd : List Node)
    (nodesToRemove : List ChecksumAddress) (new : FleetState) (diff : StateDiff) : Prop where
  removed_absent : ∀ address ∈ nodesToRemove, address ∉ new.addresses
  untouched_kept : ∀ address ∉ nodesToRemove,
    (∀ node ∈ nodesToAdd, node.checksumAddress ≠ address) →
      new.nodes.get? address = old.nodes.get? address
  added_written : ∀ node ∈ nodesToAdd, node.checksumAddress ∉ nodesToRemove →
    old.Differs node →
      ∃ added ∈ nodesToAdd, added.checksumAddress = node.checksumAddress ∧
        new.nodes.get? node.checksumAddress = some added
  added_kept : ∀ address ∉ nodesToRemove, ∀ known, old.nodes.get? address = some known →
    (∀ added ∈ nodesToAdd, added.checksumAddress = address →
      added.metadata = known.metadata) →
      new.nodes.get? address = some known
  nodesRemoved_iff : ∀ address,
    address ∈ diff.nodesRemoved ↔ address ∈ old.addresses ∧ address ∈ nodesToRemove
  unchanged_of_empty : diff.empty = true → new.nodes = old.nodes
  nodesUpdated_iff : (nodesToAdd.map Node.checksumAddress).Nodup → ∀ address,
    address ∈ diff.nodesUpdated ↔
      ∃ node, new.nodes.get? address = some node ∧
        ∀ known, old.nodes.get? address = some known → known.metadata ≠ node.metadata

theorem isUpdate_iff {state : FleetState} {nodesToRemove : List ChecksumAddress} {node : Node} :
    state.isUpdate nodesToRemove node = true ↔
      node.checksumAddress ∉ nodesToRemove ∧ state.Differs node := by
  unfold isUpdate Differs
  by_cases hremove : node.checksumAddress ∈ nodesToRemove
  · simp [hremove]
  · cases state.nodes.get? node.checksumAddress with
    | none => simp [hremove]
    | some known => simp [hremove]

section Update

variable (state : FleetState) (nodesToAdd : List Node) (nodesToRemove : List ChecksumAddress)
  (skipThisNode : Bool) (thisNode : NodeMetadata) (now : Nat)

/-- An address that no node of the batch changes keeps its node. -/
theorem get?_withUpdatedNodes_of_unchanged {address : ChecksumAddress}
    (hremove : address ∉ nodesToRemove)
    (hsame : ∀ node ∈ nodesToAdd, node.checksumAddress = address → ¬ state.Differs node) :
    (state.withUpdatedNodes nodesToAdd nodesToRemove skipThisNode thisNode now).1.nodes.get?
      address = state.nodes.get? address := by
  rw [get?_withUpdatedNodes, if_neg hremove, if_neg]
  rintro ⟨node, hmem, hupdate, haddr⟩
  exact hsame node hmem haddr (isUpdate_iff.mp hupdate).2

/-- An address that some node of the batch changes takes one of the batch. -/
theorem get?_withUpdatedNodes_of_differs {node : Node} (hmem : node ∈ nodesToAdd)
    (hremove : node.checksumAddress ∉ nodesToRemove) (hdiffers : state.Differs node) :
    ∃ added ∈ nodesToAdd, added.checksumAddress = node.checksumAddress ∧
      (nodesToAddDict nodesToAdd).get? node.checksumAddress = some added ∧
      (state.withUpdatedNodes nodesToAdd nodesToRemove skipThisNode thisNode now).1.nodes.get?
        node.checksumAddress = some added := by
  have hkey : node.checksumAddress ∈ (nodesToAddDict nodesToAdd).keys :=
    mem_keys_nodesToAddDict.mpr ⟨node, hmem, rfl⟩
  rcases Dict.mem_keys_iff_exists.mp hkey with ⟨added, hadded⟩
  rcases get?_nodesToAddDict_some hadded with ⟨hin, haddr⟩
  refine ⟨added, hin, haddr, hadded, ?_⟩
  rw [get?_withUpdatedNodes, if_neg hremove, if_pos, hadded]
  exact ⟨node, hmem, isUpdate_iff.mpr ⟨hremove, hdiffers⟩, rfl⟩

theorem mem_nodesUpdated_withUpdatedNodes {address : ChecksumAddress} :
    address ∈ (state.withUpdatedNodes nodesToAdd nodesToRemove skipThisNode thisNode
        now).2.nodesUpdated ↔
      ∃ node ∈ nodesToAdd, node.checksumAddress = address ∧ address ∉ nodesToRemove ∧
        state.Differs node := by
  simp only [withUpdatedNodes, mem_nodesUpdated, isUpdate_iff]
  constructor
  · rintro ⟨node, hmem, ⟨hremove, hdiffers⟩, rfl⟩
    exact ⟨node, hmem, rfl, hremove, hdiffers⟩
  · rintro ⟨node, hmem, rfl, hremove, hdiffers⟩
    exact ⟨node, hmem, ⟨hremove, hdiffers⟩, rfl⟩

/-- When the batch adds each address at most once, the updated addresses are the surviving
ones whose metadata differs from what was recorded. -/
theorem mem_nodesUpdated_iff (hnodup : (nodesToAdd.map Node.checksumAddress).Nodup)
    (address : ChecksumAddress) :
    address ∈ (state.withUpdatedNodes nodesToAdd nodesToRemove skipThisNode thisNode
        now).2.nodesUpdated ↔
      ∃ node, (state.withUpdatedNodes nodesToAdd nodesToRemove skipThisNode thisNode
          now).1.nodes.get? address = some node ∧
        ∀ known, state.nodes.get? address = some known → known.metadata ≠ node.metadata := by
  rw [mem_nodesUpdated_withUpdatedNodes]
  constructor
  · rintro ⟨node, hmem, rfl, hremove, hdiffers⟩
    rcases get?_withUpdatedNodes_of_differs state nodesToAdd nodesToRemove skipThisNode thisNode
      now hmem hremove hdiffers with ⟨added, hin, haddr, -, hnew⟩
    have hsame : added = node := List.inj_on_of_nodup_map hnodup hin hmem haddr
    subst hsame
    exact ⟨added, hnew, hdiffers⟩
  · rintro ⟨node, hnew, hdiffers⟩
    have hremove : address ∉ nodesToRemove := by
      intro hmem
      rw [get?_withUpdatedNodes, if_pos hmem] at hnew
      cases hnew
    by_contra hnone
    have hunchanged := get?_withUpdatedNodes_of_unchanged state nodesToAdd nodesToRemove
      skipThisNode thisNode now hremove
      (fun added hmem haddr hchange => hnone ⟨added, hmem, haddr, hremove, hchange⟩)
    exact hdiffers node (hunchanged ▸ hnew) rfl

/-- An update meets its specification. -/
theorem withUpdatedNodes_mergesBatch :
    MergesBatch state nodesToAdd nodesToRemove
      (state.withUpdatedNodes nodesToAdd nodesToRemove skipThisNode thisNode now).1
      (state.withUpdatedNodes nodesToAdd nodesToRemove skipThisNode thisNode now).2 where
  removed_absent := by
    intro address hmem hin
    rcases Dict.mem_keys_iff_exists.mp hin with ⟨node, hnode⟩
    rw [get?_withUpdatedNodes, if_pos hmem] at hnode
    cases hnode
  untouched_kept := by
    intro address hremove hnone
    exact get?_withUpdatedNodes_of_unchanged state nodesToAdd nodesToRemove skipThisNode thisNode
      now hremove (fun node hmem haddr => absurd haddr (hnone node hmem))
  added_written := by
    intro node hmem hremove hdiffers
    rcases get?_withUpdatedNodes_of_differs state nodesToAdd nodesToRemove skipThisNode thisNode
      now hmem hremove hdiffers with ⟨added, hin, haddr, -, hnew⟩
    exact ⟨added, hin, haddr, hnew⟩
  added_kept := by
    intro address hremove known hknown hsame
    rw [← hknown]
    apply get?_withUpdatedNodes_of_unchanged state nodesToAdd nodesToRemove skipThisNode thisNode
      now hremove
    rintro node hmem rfl hdiffers
    exact hdiffers known hknown (hsame node hmem rfl).symm
  nodesRemoved_iff := by
    intro address
    simp only [withUpdatedNodes, calculateDiff, List.mem_filter, addresses,
      Dict.mem_keys_iff_exists, Dict.contains, Option.isSome_iff_exists]
    exact And.comm
  unchanged_of_empty := by
    intro hempty
    simp only [withUpdatedNodes] at hempty ⊢
    rw [if_pos hempty]
  nodesUpdated_iff := by
    intro hnodup address
    exact mem_nodesUpdated_iff state nodesToAdd nodesToRemove skipThisNode thisNode now hnodup
      address

end Update

end FleetState

/-! ## Runs -/

namespace FleetSensor

variable {C : Type} (fleetStateChecksum : Option NodeMetadata → List NodeMetadata → C)

/-- The operations that change a sensor. -/
inductive Op (C : Type) where
  | recordNode (node : Node) (context : RecordContext)
  | markAs (node : Node)
  | recordFleetState (skipThisNode : Bool) (context : RecordContext)
  | recordRemoteFleetState (checksumAddress : ChecksumAddress) (stateChecksum : C)
      (timestamp population now : Nat)

/-- Perform one operation; the state of an unknown address is not recorded. -/
def step (sensor : FleetSensor C) : Op C → FleetSensor C
  | .recordNode node context => sensor.recordNode fleetStateChecksum node context
  | .markAs node => sensor.markAs node
  | .recordFleetState skipThisNode context =>
      sensor.recordFleetState fleetStateChecksum skipThisNode context
  | .recordRemoteFleetState checksumAddress stateChecksum timestamp population now =>
      (sensor.recordRemoteFleetState checksumAddress stateChecksum timestamp population
        now).getD sensor

/-- Perform a sequence of operations. -/
def run (sensor : FleetSensor C) (ops : List (Op C)) : FleetSensor C :=
  ops.foldl (step fleetStateChecksum) sensor

/-- Every recorded node is filed under its own address, and every recorded or accumulated
node belongs to the sensor's domain. -/
structure WellKeyed (sensor : FleetSensor C) : Prop where
  address_eq : ∀ address node, sensor.currentState.nodes.get? address = some node →
    node.checksumAddress = address
  domain_eq : ∀ address node, sensor.currentState.nodes.get? address = some node →
    node.domain = sensor.domain
  pending_domain : ∀ node ∈ sensor.nodesToAdd.elems, node.domain = sensor.domain

/-- The operations that leave the recorded state and the accumulated nodes alone. -/
theorem WellKeyed.congr {sensor sensor' : FleetSensor C} (h : sensor.WellKeyed)
    (hstate : sensor'.currentState = sensor.currentState)
    (hdomain : sensor'.domain = sensor.domain) (hadd : sensor'.nodesToAdd = sensor.nodesToAdd) :
    sensor'.WellKeyed where
  address_eq := by
    rw [hstate]
    exact h.address_eq
  domain_eq := by
    rw [hstate, hdomain]
    exact h.domain_eq
  pending_domain := by
    rw [hadd, hdomain]
    exact h.pending_domain

theorem new_wellKeyed (domain : String) (hasThisNode : Bool) (now : Nat) :
    (new fleetStateChecksum domain hasThisNode now).WellKeyed where
  address_eq := by
    intro address node hnode
    cases hnode
  domain_eq := by
    intro address node hnode
    cases hnode
  pending_domain := by
    intro node hnode
    cases hnode

theorem recordNode_wellKeyed {sensor : FleetSensor C} (h : sensor.WellKeyed) (node : Node)
    (context : RecordContext) :
    (sensor.recordNode fleetStateChecksum node context).WellKeyed := by
  by_cases hdomain : node.domain = sensor.domain
  · rw [recordNode_of_domain fleetStateChecksum context hdomain]
    refine ⟨h.address_eq, h.domain_eq, ?_⟩
    intro other hother
    rcases KeyedSet.mem_replace.mp hother with rfl | ⟨hmem, -⟩
    · exact hdomain
    · exact h.pending_domain other hmem
  · rw [recordNode_of_foreign fleetStateChecksum context hdomain]
    exact h

theorem markAs_wellKeyed {sensor : FleetSensor C} (h : sensor.WellKeyed) (node : Node) :
    (sensor.markAs node).WellKeyed := by
  unfold markAs
  split
  · exact h
  · exact h.congr rfl rfl rfl

theorem recordFleetState_wellKeyed {sensor : FleetSensor C} (h : sensor.WellKeyed) (skip : Bool)
    (context : RecordContext) :
    (sensor.recordFleetState fleetStateChecksum skip context).WellKeyed where
  address_eq := by
    intro address node hnode
    rcases get?_recordFleetState_some fleetStateChecksum hnode with hold | ⟨-, haddr⟩
    · exact h.address_eq address node hold
    · exact haddr
  domain_eq := by
    intro address node hnode
    rcases get?_recordFleetState_some fleetStateChecksum hnode with hold | ⟨hmem, -⟩
    · exact h.domain_eq address node hold
    · exact h.pending_domain node hmem
  pending_domain := by
    intro node hnode
    simp at hnode

/-- Every operation keeps the recorded nodes under their addresses and in the domain. -/
theorem step_wellKeyed {sensor : FleetSensor C} (h : sensor.WellKeyed) (op : Op C) :
    (sensor.step fleetStateChecksum op).WellKeyed := by
  cases op with
  | recordNode node context => exact recordNode_wellKeyed fleetStateChecksum h node context
  | markAs node => exact markAs_wellKeyed h node
  | recordFleetState skip context =>
      exact recordFleetState_wellKeyed fleetStateChecksum h skip context
  | recordRemoteFleetState address stateChecksum timestamp population now =>
      simp only [step, recordRemoteFleetState]
      split
      · exact h.congr rfl rfl rfl
      · exact h

/-- Every run keeps the recorded nodes under their addresses and in the domain. -/
theorem run_wellKeyed {sensor : FleetSensor C} (h : sensor.WellKeyed) (ops : List (Op C)) :
    (sensor.run fleetStateChecksum ops).WellKeyed := by
  induction ops generalizing sensor with
  | nil => exact h
  | cons op ops ih => exact ih (step_wellKeyed fleetStateChecksum h op)

/-- Every update of every state meets its specification, and in every state that a sensor
reaches each key is its node's address and each node's domain is the one the sensor was made
for. -/
theorem fleet_update_spec :
    (∀ (state : FleetState) (nodesToAdd : List Node) (nodesToRemove : List ChecksumAddress)
        (skipThisNode : Bool) (thisNode : NodeMetadata) (now : Nat),
      FleetState.MergesBatch state nodesToAdd nodesToRemove
        (state.withUpdatedNodes nodesToAdd nodesToRemove skipThisNode thisNode now).1
        (state.withUpdatedNodes nodesToAdd nodesToRemove skipThisNode thisNode now).2) ∧
      ∀ (domain : String) (hasThisNode : Bool) (now : Nat) (ops : List (Op C))
          (address : ChecksumAddress) (node : Node),
        let sensor := (new fleetStateChecksum domain hasThisNode now).run fleetStateChecksum ops
        sensor.currentState.nodes.get? address = some node →
          node.checksumAddress = address ∧ node.domain = sensor.domain := by
  refine ⟨FleetState.withUpdatedNodes_mergesBatch, ?_⟩
  intro domain hasThisNode now ops address node sensor hnode
  have hkeyed : sensor.WellKeyed := run_wellKeyed fleetStateChecksum
    (new_wellKeyed fleetStateChecksum domain hasThisNode now) ops
  exact ⟨hkeyed.address_eq address node hnode, hkeyed.domain_eq address node hnode⟩

end FleetSensor

end NuLink
