import NuLinkCore.Lib.Dict
import NuLinkCore.Network.NodeMetadata

/-!
# The fleet state perceived by a node

A fleet state maps checksum addresses to nodes and remembers the metadata of the
node that owns the sensor.  {lit}`withUpdatedNodes` computes the difference
between the state and a batch of additions and removals, and applies it.  Its
whole effect on lookups is stated once, and every later result about the fleet
rests on that statement.

Main results:

- Theorem {lit}`FleetState.get?_withUpdatedNodes`: a removed address is absent, an
  updated one maps to the batch's entry, every other address keeps its node.
- Theorem {lit}`FleetState.get?_nodesToAddDict_append_self`: among several nodes of
  one address the last one of the batch is taken.
-/

namespace NuLink

open Collections

/-- What changes from one fleet state to the next. -/
structure StateDiff where
  thisNodeUpdated : Bool
  nodesUpdated : List ChecksumAddress
  nodesRemoved : List ChecksumAddress
deriving DecidableEq, Repr

def StateDiff.empty (diff : StateDiff) : Bool :=
  !diff.thisNodeUpdated && diff.nodesUpdated.isEmpty && diff.nodesRemoved.isEmpty

/-- The fleet as perceived by a local node.  {lit}`hasThisNode` says whether the
state holds a reference to its owner, whose metadata may change over time. -/
structure FleetState where
  nodes : Dict ChecksumAddress Node
  timestamp : Nat
  hasThisNode : Bool
  thisNodeMetadata : Option NodeMetadata

namespace FleetState

/-- {lit}`FleetState.new`. -/
def new (hasThisNode : Bool) (now : Nat) : FleetState where
  nodes := Dict.empty
  timestamp := now
  hasThisNode := hasThisNode
  thisNodeMetadata := none

def addresses (state : FleetState) : List ChecksumAddress := state.nodes.keys

/-- The number of known nodes, including the owner once its metadata is known. -/
def population (state : FleetState) : Nat :=
  state.nodes.len + if state.thisNodeMetadata.isSome then 1 else 0

/-- The checksum of a state, computed by an external digest of the owner's
metadata and of the metadata of the other nodes. -/
def checksum {C : Type} (fleetStateChecksum : Option NodeMetadata → List NodeMetadata → C)
    (state : FleetState) : C :=
  fleetStateChecksum state.thisNodeMetadata (state.nodes.values.map Node.metadata)

/-- Whether a node of the batch counts as an update: it is not to be removed,
and it is unknown or its metadata differs from what is recorded. -/
def isUpdate (state : FleetState) (nodesToRemove : List ChecksumAddress) (node : Node) : Bool :=
  if node.checksumAddress ∈ nodesToRemove then false
  else
    match state.nodes.get? node.checksumAddress with
    | none => true
    | some known => decide (known.metadata ≠ node.metadata)

/-- {lit}`FleetState._calculate_diff`. -/
def calculateDiff (state : FleetState) (thisNodeUpdated : Bool) (nodesToAdd : List Node)
    (nodesToRemove : List ChecksumAddress) : StateDiff where
  thisNodeUpdated := thisNodeUpdated
  nodesUpdated := (nodesToAdd.filter (state.isUpdate nodesToRemove)).map Node.checksumAddress
  nodesRemoved := nodesToRemove.filter state.nodes.contains

/-- The batch as a dictionary: among nodes of one address the last one stays. -/
def nodesToAddDict (nodesToAdd : List Node) : Dict ChecksumAddress Node :=
  Dict.ofList (nodesToAdd.map fun node => (node.checksumAddress, node))

/-- Write the updated addresses into a copy of the map, then delete the removed
ones. -/
def applyDiff (state : FleetState) (diff : StateDiff) (nodesToAdd : List Node) :
    Dict ChecksumAddress Node :=
  let updated := diff.nodesUpdated.foldl
    (fun nodes address =>
      match (nodesToAddDict nodesToAdd).get? address with
      | some newNode => nodes.set address newNode
      | none => nodes)
    state.nodes
  diff.nodesRemoved.foldl (fun nodes address => nodes.erase address) updated

/-- {lit}`FleetState.with_updated_nodes`.  {lit}`thisNode` is the metadata the owner
reports at the time of the call. -/
def withUpdatedNodes (state : FleetState) (nodesToAdd : List Node)
    (nodesToRemove : List ChecksumAddress) (skipThisNode : Bool) (thisNode : NodeMetadata)
    (now : Nat) : FleetState × StateDiff :=
  let refresh := state.hasThisNode && !skipThisNode
  let thisNodeMetadata := if refresh then some thisNode else state.thisNodeMetadata
  let thisNodeUpdated := refresh && decide (state.thisNodeMetadata ≠ some thisNode)
  let diff := state.calculateDiff thisNodeUpdated nodesToAdd nodesToRemove
  let nodes := if diff.empty then state.nodes else state.applyDiff diff nodesToAdd
  ({ nodes, timestamp := now, hasThisNode := state.hasThisNode, thisNodeMetadata }, diff)

/-! ## Lookups after an update -/

/-- The node the batch dictionary holds for an address has that address and
comes from the batch. -/
theorem get?_nodesToAddDict_some {nodesToAdd : List Node} {address : ChecksumAddress}
    {node : Node} (h : (nodesToAddDict nodesToAdd).get? address = some node) :
    node ∈ nodesToAdd ∧ node.checksumAddress = address := by
  rw [nodesToAddDict, Dict.get?_ofList, List.lookup_eq_some_iff] at h
  rcases h with ⟨l₁, l₂, hsplit, -⟩
  have hmem : (address, node) ∈ (nodesToAdd.map fun node => (node.checksumAddress, node)) := by
    rw [← List.mem_reverse, hsplit]
    simp
  rcases List.mem_map.mp hmem with ⟨n, hn, hpair⟩
  rcases Prod.mk.inj hpair with ⟨haddr, rfl⟩
  exact ⟨hn, haddr⟩

theorem mem_keys_nodesToAddDict {nodesToAdd : List Node} {address : ChecksumAddress} :
    address ∈ (nodesToAddDict nodesToAdd).keys ↔
      ∃ node ∈ nodesToAdd, node.checksumAddress = address := by
  rw [nodesToAddDict, Dict.mem_keys_ofList]
  simp

/-- An address added by exactly one node of the batch maps to that node. -/
theorem get?_nodesToAddDict_of_unique {nodesToAdd : List Node} {node : Node}
    (hmem : node ∈ nodesToAdd)
    (hunique : ∀ other ∈ nodesToAdd, other.checksumAddress = node.checksumAddress → other = node) :
    (nodesToAddDict nodesToAdd).get? node.checksumAddress = some node := by
  have hkey : node.checksumAddress ∈ (nodesToAddDict nodesToAdd).keys :=
    mem_keys_nodesToAddDict.mpr ⟨node, hmem, rfl⟩
  rcases Dict.mem_keys_iff_exists.mp hkey with ⟨found, hfound⟩
  rcases get?_nodesToAddDict_some hfound with ⟨hin, haddr⟩
  rw [hfound, hunique found hin haddr]

/-- The last node of the batch is the one its address maps to. -/
theorem get?_nodesToAddDict_append_self (nodesToAdd : List Node) (node : Node) :
    (nodesToAddDict (nodesToAdd ++ [node])).get? node.checksumAddress = some node := by
  rw [nodesToAddDict, Dict.get?_ofList]
  simp [Dict.lookup_cons_ite]

/-- The loop over the updated addresses writes the batch's entry of each. -/
theorem get?_foldl_update (added nodes : Dict ChecksumAddress Node)
    (updated : List ChecksumAddress) (hsub : ∀ a ∈ updated, a ∈ added.keys)
    (address : ChecksumAddress) :
    (updated.foldl
      (fun nodes address =>
        match added.get? address with
        | some newNode => nodes.set address newNode
        | none => nodes)
      nodes).get? address =
      if address ∈ updated then added.get? address else nodes.get? address := by
  induction updated generalizing nodes with
  | nil => simp
  | cons a rest ih =>
      rcases Dict.mem_keys_iff_exists.mp (hsub a List.mem_cons_self) with ⟨node, hnode⟩
      have hrest : ∀ b ∈ rest, b ∈ added.keys := fun b hb => hsub b (List.mem_cons_of_mem a hb)
      simp only [List.foldl_cons, hnode, ih (nodes.set a node) hrest, List.mem_cons,
        Dict.get?_set]
      by_cases ha : address = a
      · subst ha
        simp [hnode]
      · simp [ha]

theorem get?_foldl_erase (nodes : Dict ChecksumAddress Node) (removed : List ChecksumAddress)
    (address : ChecksumAddress) :
    (removed.foldl (fun nodes address => nodes.erase address) nodes).get? address =
      if address ∈ removed then none else nodes.get? address := by
  induction removed generalizing nodes with
  | nil => simp
  | cons a rest ih =>
      simp only [List.foldl_cons, ih, Dict.get?_erase, List.mem_cons]
      by_cases ha : address = a <;> simp [ha]

theorem mem_nodesUpdated {state : FleetState} {updated : Bool} {nodesToAdd : List Node}
    {nodesToRemove : List ChecksumAddress} {address : ChecksumAddress} :
    address ∈ (state.calculateDiff updated nodesToAdd nodesToRemove).nodesUpdated ↔
      ∃ node ∈ nodesToAdd, state.isUpdate nodesToRemove node = true ∧
        node.checksumAddress = address := by
  simp only [calculateDiff, List.mem_map, List.mem_filter, and_assoc]

theorem not_mem_nodesToRemove_of_isUpdate {state : FleetState}
    {nodesToRemove : List ChecksumAddress} {node : Node}
    (h : state.isUpdate nodesToRemove node = true) : node.checksumAddress ∉ nodesToRemove := by
  intro hmem
  simp [isUpdate, hmem] at h

/-- Lookups after a difference was applied. -/
theorem get?_applyDiff (state : FleetState) (updated : Bool) (nodesToAdd : List Node)
    (nodesToRemove : List ChecksumAddress) (address : ChecksumAddress) :
    (state.applyDiff (state.calculateDiff updated nodesToAdd nodesToRemove) nodesToAdd).get?
        address =
      if address ∈ nodesToRemove then none
      else if ∃ node ∈ nodesToAdd, state.isUpdate nodesToRemove node = true ∧
          node.checksumAddress = address then
        (nodesToAddDict nodesToAdd).get? address
      else state.nodes.get? address := by
  have hsub : ∀ a ∈ (state.calculateDiff updated nodesToAdd nodesToRemove).nodesUpdated,
      a ∈ (nodesToAddDict nodesToAdd).keys := by
    intro a ha
    rcases mem_nodesUpdated.mp ha with ⟨node, hnode, -, haddr⟩
    exact mem_keys_nodesToAddDict.mpr ⟨node, hnode, haddr⟩
  simp only [← @mem_nodesUpdated state updated]
  simp only [applyDiff, get?_foldl_erase, get?_foldl_update _ _ _ hsub]
  by_cases hrem : address ∈ nodesToRemove
  · -- A removed address that is not recorded is also not updated.
    have hnot : address ∉
        (state.calculateDiff updated nodesToAdd nodesToRemove).nodesUpdated := by
      intro ha
      rcases mem_nodesUpdated.mp ha with ⟨node, -, hupd, rfl⟩
      exact not_mem_nodesToRemove_of_isUpdate hupd hrem
    by_cases hknown : state.nodes.contains address = true
    · simp [calculateDiff, hrem, hknown]
    · have hnone : state.nodes.get? address = none := by simpa [Dict.contains] using hknown
      rw [if_neg hnot]
      simp [hrem, hnone]
  · simp [calculateDiff, hrem]

theorem applyDiff_of_empty (state : FleetState) {diff : StateDiff} (nodesToAdd : List Node)
    (hempty : diff.empty = true) : state.applyDiff diff nodesToAdd = state.nodes := by
  simp only [StateDiff.empty, Bool.and_eq_true, List.isEmpty_iff] at hempty
  rw [applyDiff, hempty.1.2, hempty.2]
  rfl

/-- The whole effect of an update on lookups: a removed address is absent, an
updated one maps to the batch's entry, every other address keeps its node. -/
theorem get?_withUpdatedNodes (state : FleetState) (nodesToAdd : List Node)
    (nodesToRemove : List ChecksumAddress) (skipThisNode : Bool) (thisNode : NodeMetadata)
    (now : Nat) (address : ChecksumAddress) :
    (state.withUpdatedNodes nodesToAdd nodesToRemove skipThisNode thisNode now).1.nodes.get?
        address =
      if address ∈ nodesToRemove then none
      else if ∃ node ∈ nodesToAdd, state.isUpdate nodesToRemove node = true ∧
          node.checksumAddress = address then
        (nodesToAddDict nodesToAdd).get? address
      else state.nodes.get? address := by
  unfold withUpdatedNodes
  dsimp only
  split
  · rename_i hempty
    rw [← get?_applyDiff, applyDiff_of_empty state nodesToAdd hempty]
  · rw [get?_applyDiff]

end FleetState

end NuLink
