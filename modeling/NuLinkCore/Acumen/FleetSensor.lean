import NuLinkCore.Lib.KeyedSet
import NuLinkCore.Acumen.FleetState

/-!
# The fleet sensor

The sensor owns the current fleet state and two accumulators: the nodes to add,
a set whose elements are compared by their stamps, and the addresses to remove.
Recording the fleet state applies both accumulators, empties them and archives
the new state when something changed.

The state is keyed by address while the accumulator is keyed by stamp, so a
recorded node can be pushed out of the accumulator by another node with the same
stamp before the state is recorded.

Main results:

- Theorem {lit}`FleetSensor.get?_recordFleetState`: the lookups of the recorded
  state in terms of the accumulators.
- Theorem {lit}`FleetSensor.recorded_nodes_kept_iff`: a sequence of recorded nodes
  reaches the next state completely exactly when every new address belongs to
  the last node recorded with some stamp.
-/

namespace NuLink

open Collections

/-- What remains of a fleet state in the archive. -/
structure ArchivedFleetState (C : Type) where
  checksum : C
  timestamp : Nat
  population : Nat
deriving DecidableEq, Repr

/-- What recording a fleet state reads from outside the sensor: the clock, the
metadata reported by the owner, and the iteration order of the accumulated set. -/
structure RecordContext where
  now : Nat
  thisNode : NodeMetadata
  order : Reorder Node

/-- A representation of a fleet of nodes. -/
structure FleetSensor (C : Type) where
  domain : String
  currentState : FleetState
  archivedStates : List (ArchivedFleetState C)
  remoteStates : Dict ChecksumAddress (ArchivedFleetState C)
  remoteLastSeen : Dict ChecksumAddress Nat
  nodesToAdd : KeyedSet Node.stamp
  nodesToRemove : List ChecksumAddress

namespace FleetSensor

variable {C : Type} (fleetStateChecksum : Option NodeMetadata → List NodeMetadata → C)

/-- {lit}`FleetState.archived`. -/
def archived (state : FleetState) : ArchivedFleetState C where
  checksum := state.checksum fleetStateChecksum
  timestamp := state.timestamp
  population := state.population

/-- {lit}`FleetSensor.__init__`. -/
def new (domain : String) (hasThisNode : Bool) (now : Nat) : FleetSensor C where
  domain := domain
  currentState := FleetState.new hasThisNode now
  archivedStates := [archived fleetStateChecksum (FleetState.new hasThisNode now)]
  remoteStates := Dict.empty
  remoteLastSeen := Dict.empty
  nodesToAdd := KeyedSet.empty
  nodesToRemove := []

/-- The capacity of the archive. -/
def maxArchivedStates : Nat := 5

/-- Append to the archive, dropping the oldest entries beyond its capacity. -/
def appendArchived (states : List (ArchivedFleetState C)) (state : ArchivedFleetState C) :
    List (ArchivedFleetState C) :=
  (states ++ [state]).drop (states.length + 1 - maxArchivedStates)

/-- {lit}`FleetSensor.record_fleet_state`. -/
def recordFleetState (sensor : FleetSensor C) (skipThisNode : Bool) (context : RecordContext) :
    FleetSensor C :=
  let (newState, diff) := sensor.currentState.withUpdatedNodes
    (context.order.apply sensor.nodesToAdd.elems) sensor.nodesToRemove skipThisNode
    context.thisNode context.now
  { sensor with
    nodesToAdd := KeyedSet.empty
    nodesToRemove := []
    currentState := newState
    archivedStates :=
      if diff.empty then sensor.archivedStates
      else appendArchived sensor.archivedStates (archived fleetStateChecksum newState) }

/-- The flag {lit}`_auto_update_state`: the constructor clears it and nothing sets it. -/
def autoUpdateState (_ : FleetSensor C) : Bool := false

/-- {lit}`FleetSensor.record_node`: a node of the sensor's domain replaces the
accumulated node with the same stamp. -/
def recordNode (sensor : FleetSensor C) (node : Node) (context : RecordContext) :
    FleetSensor C :=
  if node.domain = sensor.domain then
    let recorded := { sensor with nodesToAdd := sensor.nodesToAdd.replace node }
    if sensor.autoUpdateState then recorded.recordFleetState fleetStateChecksum false context
    else recorded
  else sensor

/-- {lit}`FleetSensor.mark_as`. -/
def markAs (sensor : FleetSensor C) (node : Node) : FleetSensor C :=
  if node.checksumAddress ∈ sensor.nodesToRemove then sensor
  else { sensor with nodesToRemove := sensor.nodesToRemove ++ [node.checksumAddress] }

/-- {lit}`FleetSensor.record_remote_fleet_state`; {lit}`none` stands for the
{lit}`KeyError` of an address outside the current state. -/
def recordRemoteFleetState (sensor : FleetSensor C) (checksumAddress : ChecksumAddress)
    (stateChecksum : C) (timestamp population now : Nat) : Option (FleetSensor C) :=
  if sensor.currentState.nodes.contains checksumAddress then
    some { sensor with
      remoteLastSeen := sensor.remoteLastSeen.set checksumAddress now
      remoteStates := sensor.remoteStates.set checksumAddress
        { checksum := stateChecksum, timestamp, population } }
  else none

/-! ## Effects on the accumulators and the state -/

theorem recordNode_of_domain {sensor : FleetSensor C} {node : Node} (context : RecordContext)
    (h : node.domain = sensor.domain) :
    sensor.recordNode fleetStateChecksum node context =
      { sensor with nodesToAdd := sensor.nodesToAdd.replace node } := by
  simp [recordNode, h, autoUpdateState]

theorem recordNode_of_foreign {sensor : FleetSensor C} {node : Node} (context : RecordContext)
    (h : node.domain ≠ sensor.domain) :
    sensor.recordNode fleetStateChecksum node context = sensor := by
  simp [recordNode, h]

@[simp]
theorem recordFleetState_nodesToAdd (sensor : FleetSensor C) (skip : Bool)
    (context : RecordContext) :
    (sensor.recordFleetState fleetStateChecksum skip context).nodesToAdd = KeyedSet.empty :=
  rfl

@[simp]
theorem recordFleetState_nodesToRemove (sensor : FleetSensor C) (skip : Bool)
    (context : RecordContext) :
    (sensor.recordFleetState fleetStateChecksum skip context).nodesToRemove = [] :=
  rfl

@[simp]
theorem recordFleetState_domain (sensor : FleetSensor C) (skip : Bool)
    (context : RecordContext) :
    (sensor.recordFleetState fleetStateChecksum skip context).domain = sensor.domain :=
  rfl

theorem recordFleetState_thisNodeMetadata (sensor : FleetSensor C) (skip : Bool)
    (context : RecordContext) :
    (sensor.recordFleetState fleetStateChecksum skip context).currentState.thisNodeMetadata =
      if sensor.currentState.hasThisNode && !skip then some context.thisNode
      else sensor.currentState.thisNodeMetadata :=
  rfl

/-- The lookups of the recorded state in terms of the accumulators. -/
theorem get?_recordFleetState (sensor : FleetSensor C) (skip : Bool) (context : RecordContext)
    (address : ChecksumAddress) :
    (sensor.recordFleetState fleetStateChecksum skip context).currentState.nodes.get? address =
      if address ∈ sensor.nodesToRemove then none
      else if ∃ node ∈ sensor.nodesToAdd.elems,
          sensor.currentState.isUpdate sensor.nodesToRemove node = true ∧
            node.checksumAddress = address then
        (FleetState.nodesToAddDict (context.order.apply sensor.nodesToAdd.elems)).get? address
      else sensor.currentState.nodes.get? address := by
  have h := FleetState.get?_withUpdatedNodes sensor.currentState
    (context.order.apply sensor.nodesToAdd.elems) sensor.nodesToRemove skip context.thisNode
    context.now address
  simpa [recordFleetState] using h

/-- Every node of a recorded state was there before or was accumulated. -/
theorem get?_recordFleetState_some {sensor : FleetSensor C} {skip : Bool}
    {context : RecordContext} {address : ChecksumAddress} {node : Node}
    (h : (sensor.recordFleetState fleetStateChecksum skip context).currentState.nodes.get?
      address = some node) :
    sensor.currentState.nodes.get? address = some node ∨
      (node ∈ sensor.nodesToAdd.elems ∧ node.checksumAddress = address) := by
  rw [get?_recordFleetState] at h
  split at h
  · contradiction
  · split at h
    · rcases FleetState.get?_nodesToAddDict_some h with ⟨hmem, haddr⟩
      exact Or.inr ⟨by simpa using hmem, haddr⟩
    · exact Or.inl h

/-- Without pending removals a recorded state has the old addresses and those of
the accumulated nodes. -/
theorem mem_addresses_recordFleetState {sensor : FleetSensor C} {skip : Bool}
    {context : RecordContext} {address : ChecksumAddress} (hremove : sensor.nodesToRemove = []) :
    address ∈ (sensor.recordFleetState fleetStateChecksum skip context).currentState.addresses ↔
      address ∈ sensor.currentState.addresses ∨
        ∃ node ∈ sensor.nodesToAdd.elems, node.checksumAddress = address := by
  have hdict : address ∈ (FleetState.nodesToAddDict
        (context.order.apply sensor.nodesToAdd.elems)).keys ↔
      ∃ node ∈ sensor.nodesToAdd.elems, node.checksumAddress = address := by
    simp [FleetState.mem_keys_nodesToAddDict]
  simp only [FleetState.addresses, Dict.mem_keys_iff_exists] at hdict ⊢
  rw [get?_recordFleetState, hremove, if_neg List.not_mem_nil]
  split
  · rename_i hupdate
    rcases hupdate with ⟨node, hmem, -, haddr⟩
    constructor
    · intro hfound
      exact Or.inr (hdict.mp hfound)
    · intro _
      exact hdict.mpr ⟨node, hmem, haddr⟩
  · rename_i hnone
    constructor
    · exact Or.inl
    · rintro (hold | ⟨node, hmem, haddr⟩)
      · exact hold
      · -- An accumulated node that is no update is recorded with the same metadata.
        by_contra hmissing
        refine hnone ⟨node, hmem, ?_, haddr⟩
        have hnot : sensor.currentState.nodes.get? node.checksumAddress = none := by
          rw [haddr]
          simpa [Option.eq_none_iff_forall_ne_some] using hmissing
        simp [FleetState.isUpdate, hnot]

/-! ## Whether recorded nodes reach the next state -/

/-- A sequence of {lit}`record_node` calls. -/
def recordNodes (sensor : FleetSensor C) (nodes : List Node) (context : RecordContext) :
    FleetSensor C :=
  nodes.foldl (fun sensor node => sensor.recordNode fleetStateChecksum node context) sensor

/-- Recording nodes of the sensor's domain only touches the accumulator. -/
theorem recordNodes_eq {sensor : FleetSensor C} {nodes : List Node} (context : RecordContext)
    (hdomain : ∀ node ∈ nodes, node.domain = sensor.domain) :
    sensor.recordNodes fleetStateChecksum nodes context =
      { sensor with nodesToAdd := nodes.foldl KeyedSet.replace sensor.nodesToAdd } := by
  induction nodes generalizing sensor with
  | nil => rfl
  | cons node rest ih =>
      have hhead := hdomain node List.mem_cons_self
      simp only [recordNodes, List.foldl_cons] at ih ⊢
      rw [recordNode_of_domain fleetStateChecksum context hhead, ih]
      intro other hother
      exact hdomain other (List.mem_cons_of_mem node hother)

/-- The next recorded state contains the address of every recorded node and every
address that was already present. -/
def KeepsRecorded (sensor : FleetSensor C) (nodes : List Node) (skip : Bool)
    (context : RecordContext) : Prop :=
  let state := ((sensor.recordNodes fleetStateChecksum nodes context).recordFleetState
    fleetStateChecksum skip context).currentState
  (∀ node ∈ nodes, node.checksumAddress ∈ state.addresses) ∧
    ∀ address ∈ sensor.currentState.addresses, address ∈ state.addresses

/-- Some node of the sequence with this address is not followed by a node with
its stamp. -/
def LastOfItsStamp (nodes : List Node) (address : ChecksumAddress) : Prop :=
  ∃ before node after, nodes = before ++ node :: after ∧ node.checksumAddress = address ∧
    ∀ later ∈ after, later.stamp ≠ node.stamp

/-- Some node that was accumulated before the sequence has this address, and no
node of the sequence has its stamp. -/
def StillAccumulated (sensor : FleetSensor C) (nodes : List Node)
    (address : ChecksumAddress) : Prop :=
  ∃ node ∈ sensor.nodesToAdd.elems, node.checksumAddress = address ∧
    ∀ later ∈ nodes, later.stamp ≠ node.stamp

/-- With no removal pending, a sequence of recorded nodes reaches the next state
completely exactly when every address of the sequence is already known, belongs
to the last node recorded with some stamp, or belongs to a node that was
accumulated before under a stamp the sequence does not use. -/
theorem recorded_nodes_kept_iff (sensor : FleetSensor C) (nodes : List Node) (skip : Bool)
    (context : RecordContext) (hremove : sensor.nodesToRemove = [])
    (hdomain : ∀ node ∈ nodes, node.domain = sensor.domain) :
    sensor.KeepsRecorded fleetStateChecksum nodes skip context ↔
      ∀ node ∈ nodes, node.checksumAddress ∈ sensor.currentState.addresses ∨
        LastOfItsStamp nodes node.checksumAddress ∨
          sensor.StillAccumulated nodes node.checksumAddress := by
  have hmem : ∀ address,
      address ∈ ((sensor.recordNodes fleetStateChecksum nodes context).recordFleetState
        fleetStateChecksum skip context).currentState.addresses ↔
      address ∈ sensor.currentState.addresses ∨ LastOfItsStamp nodes address ∨
        sensor.StillAccumulated nodes address := by
    intro address
    have hpending : ({ sensor with
        nodesToAdd := nodes.foldl KeyedSet.replace sensor.nodesToAdd } :
        FleetSensor C).nodesToRemove = [] := hremove
    rw [recordNodes_eq fleetStateChecksum context hdomain,
      mem_addresses_recordFleetState fleetStateChecksum hpending]
    simp only [KeyedSet.mem_foldl_replace, LastOfItsStamp, StillAccumulated]
    constructor
    · rintro (hold | ⟨node, ⟨l₁, l₂, hsplit, hlast⟩ | ⟨hpending, hnone⟩, haddr⟩)
      · exact Or.inl hold
      · exact Or.inr (Or.inl ⟨l₁, node, l₂, hsplit, haddr, hlast⟩)
      · exact Or.inr (Or.inr ⟨node, hpending, haddr, hnone⟩)
    · rintro (hold | ⟨l₁, node, l₂, hsplit, haddr, hlast⟩ | ⟨node, hpending, haddr, hnone⟩)
      · exact Or.inl hold
      · exact Or.inr ⟨node, Or.inl ⟨l₁, l₂, hsplit, hlast⟩, haddr⟩
      · exact Or.inr ⟨node, Or.inr ⟨hpending, hnone⟩, haddr⟩
  constructor
  · rintro ⟨hkept, -⟩ node hnode
    exact (hmem _).mp (hkept node hnode)
  · intro hcond
    refine ⟨fun node hnode => (hmem _).mpr (hcond node hnode), ?_⟩
    intro address hold
    exact (hmem _).mpr (Or.inl hold)

/-- A context that iterates the accumulated set in insertion order. -/
def plainContext : RecordContext where
  now := 100
  thisNode := sampleMetadata "0x9000000000000000000000000000000000000009" [9] 1
  order := Reorder.identity

/-- A digest that keeps what it is given. -/
def plainChecksum (thisNode : Option NodeMetadata) (otherNodes : List NodeMetadata) :
    Option NodeMetadata × List NodeMetadata :=
  (thisNode, otherNodes)

/-- Two providers that share one stamp, recorded one after the other. -/
def sharedStampNodes : List Node :=
  [nodeSprout (sampleMetadata "0x1000000000000000000000000000000000000001" [1] 10),
    nodeSprout (sampleMetadata "0x2000000000000000000000000000000000000002" [1] 20)]

/-- Two providers with different stamps. -/
def distinctStampNodes : List Node :=
  [nodeSprout (sampleMetadata "0x1000000000000000000000000000000000000001" [1] 10),
    nodeSprout (sampleMetadata "0x2000000000000000000000000000000000000002" [2] 20)]

/-- The first of two nodes with one stamp does not reach the next state. -/
theorem recorded_node_lost :
    (new plainChecksum "mainnet" false 0).nodesToRemove = [] ∧
      (∀ node ∈ sharedStampNodes, node.domain = "mainnet") ∧
      ¬ (new plainChecksum "mainnet" false 0).KeepsRecorded plainChecksum sharedStampNodes false
        plainContext := by
  refine ⟨rfl, by decide, ?_⟩
  rintro ⟨hkept, -⟩
  have hfirst := hkept
    (nodeSprout (sampleMetadata "0x1000000000000000000000000000000000000001" [1] 10))
    List.mem_cons_self
  revert hfirst
  decide

theorem recorded_nodes_kept_iff_distinctStamps :
    (new plainChecksum "mainnet" false 0).KeepsRecorded plainChecksum distinctStampNodes false
      plainContext := by
  refine (recorded_nodes_kept_iff plainChecksum (new plainChecksum "mainnet" false 0)
    distinctStampNodes false plainContext rfl (by decide)).mpr ?_
  intro node hnode
  rcases List.mem_cons.mp hnode with rfl | hnode
  · exact Or.inr (Or.inl ⟨[], _, [_], rfl, rfl, by decide⟩)
  · rw [List.mem_singleton.mp hnode]
    exact Or.inr (Or.inl ⟨[_], _, [], rfl, rfl, by simp⟩)

end FleetSensor

end NuLink
