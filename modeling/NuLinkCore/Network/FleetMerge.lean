import NuLinkCore.Network.Learner

/-!
# The fleet after a round

A learner merges the nodes that it is told of into its fleet: nodes that only the learner
knows stay, announced nodes that are not newer than what it knows are refused, and nodes
of other domains are not taken in.

Main results:

- Theorem {lit}`FleetState.checksum_eq_iff`: checksums agree exactly when the fleets do.
- Theorem {lit}`Learner.mem_fleet_merge`: the fleet after the sprouts have been recorded, in
  terms of the learner before the round.
- Theorem {lit}`Learner.fleet_merge_eq_iff`: when that fleet is the one of a teacher.
-/

namespace NuLink

open Collections

/-! ## Fleets -/

namespace FleetState

/-- The metadata that a fleet state is the state of, that of its owner included. -/
def fleet (state : FleetState) : Finset NodeMetadata :=
  (state.thisNodeMetadata.toList ++ state.nodes.values.map Node.metadata).toFinset

theorem mem_fleet {state : FleetState} {x : NodeMetadata} :
    x ∈ state.fleet ↔ state.thisNodeMetadata = some x ∨
      ∃ address node, state.nodes.get? address = some node ∧ node.metadata = x := by
  simp only [fleet, List.mem_toFinset, List.mem_append, Option.mem_toList, List.mem_map,
    Dict.mem_values_iff_exists]
  constructor
  · rintro (hown | ⟨node, ⟨address, hnode⟩, hx⟩)
    · exact Or.inl hown
    · exact Or.inr ⟨address, node, hnode, hx⟩
  · rintro (hown | ⟨address, node, hnode, hx⟩)
    · exact Or.inl hown
    · exact Or.inr ⟨node, ⟨address, hnode⟩, hx⟩

/-- A digest that is an injective function of the set of metadata. -/
def SetDigest {C : Type} (fleetStateChecksum : Option NodeMetadata → List NodeMetadata → C) :
    Prop :=
  ∀ thisNode otherNodes thisNode' otherNodes',
    fleetStateChecksum thisNode otherNodes = fleetStateChecksum thisNode' otherNodes' ↔
      (thisNode.toList ++ otherNodes).toFinset = (thisNode'.toList ++ otherNodes').toFinset

/-- Checksums agree exactly when the fleets do. -/
theorem checksum_eq_iff {C : Type}
    {fleetStateChecksum : Option NodeMetadata → List NodeMetadata → C}
    (hdigest : SetDigest fleetStateChecksum) (state state' : FleetState) :
    state.checksum fleetStateChecksum = state'.checksum fleetStateChecksum ↔
      state.fleet = state'.fleet :=
  hdigest _ _ _ _

end FleetState

/-! ## What a round makes of the learner -/

namespace Learner

variable {C : Type} (fleetStateChecksum : Option NodeMetadata → List NodeMetadata → C)

/-- Whether {lit}`remember_node` without recording returns the node. -/
def Remembers (learner : Learner C) (eager : Bool) (node : Node) (context : RememberContext) :
    Prop :=
  learner.Admits node ∧ (eager = false ∨ learner.verifyEagerly false context = .verified)

/-- What {lit}`remember_node` reads of a learner apart from the accumulated nodes. -/
structure SameView (learner learner' : Learner C) : Prop where
  stamp : learner'.stamp = learner.stamp
  hasRegistry : learner'.hasRegistry = learner.hasRegistry
  verifyNodeBonding : learner'.verifyNodeBonding = learner.verifyNodeBonding
  currentState : learner'.knownNodes.currentState = learner.knownNodes.currentState
  domain : learner'.knownNodes.domain = learner.knownNodes.domain

theorem SameView.admits_iff {learner learner' : Learner C} (h : SameView learner learner')
    (node : Node) : learner'.Admits node ↔ learner.Admits node := by
  simp only [Admits, isOutdated, known?, h.stamp, h.currentState]

theorem SameView.remembers_iff {learner learner' : Learner C} (h : SameView learner learner')
    (eager : Bool) (node : Node) (context : RememberContext) :
    learner'.Remembers eager node context ↔ learner.Remembers eager node context := by
  simp only [Remembers, h.admits_iff, verifyEagerly, h.hasRegistry, h.verifyNodeBonding]

/-- The sprouts of a list that the fleet sensor takes in. -/
def takenIn (learner : Learner C) (sprouts : List Node) : List Node :=
  sprouts.filter fun sprout => learner.Admits sprout ∧ sprout.domain = learner.knownNodes.domain

/-- The nodes accumulated when the sprouts have been remembered. -/
def accumulated (learner : Learner C) (sprouts : List Node) : KeyedSet Node.stamp :=
  (learner.takenIn sprouts).foldl KeyedSet.replace learner.knownNodes.nodesToAdd

theorem accumulated_cons (learner : Learner C) (sprout : Node) (sprouts : List Node) :
    learner.accumulated (sprout :: sprouts) =
      (learner.takenIn sprouts).foldl KeyedSet.replace (learner.accumulated [sprout]) := by
  have htaken : learner.takenIn (sprout :: sprouts) =
      learner.takenIn [sprout] ++ learner.takenIn sprouts := by
    simp only [takenIn, List.filter_cons, List.filter_nil]
    split <;> rfl
  rw [accumulated, htaken, List.foldl_append]
  rfl

theorem SameView.takenIn_eq {learner learner' : Learner C} (h : SameView learner learner')
    (sprouts : List Node) : learner'.takenIn sprouts = learner.takenIn sprouts := by
  simp only [takenIn, h.admits_iff, h.domain]

/-- Remembering a sprout without recording accumulates it if it is taken in, and nothing else. -/
theorem rememberNode_takenIn (learner : Learner C) (sprout : Node) (eager : Bool)
    (context : RememberContext) :
    (learner.rememberNode fleetStateChecksum sprout false false eager context).1.knownNodes =
      { learner.knownNodes with nodesToAdd := learner.accumulated [sprout] } := by
  rw [rememberNode_lazy_knownNodes]
  by_cases hadmits : learner.Admits sprout
  · rw [if_pos hadmits]
    by_cases hdomain : sprout.domain = learner.knownNodes.domain
    · rw [FleetSensor.recordNode_of_domain fleetStateChecksum context.record hdomain]
      simp [accumulated, takenIn, hadmits, hdomain]
    · rw [FleetSensor.recordNode_of_foreign fleetStateChecksum context.record hdomain]
      simp [accumulated, takenIn, hdomain]
  · rw [if_neg hadmits]
    simp [accumulated, takenIn, hadmits]

theorem accumulate_hasRegistry (learner : Learner C) (sprout : Node) (context : RememberContext) :
    (learner.accumulate fleetStateChecksum sprout context).hasRegistry = learner.hasRegistry := by
  unfold accumulate
  split <;> rfl

theorem accumulate_verifyNodeBonding (learner : Learner C) (sprout : Node)
    (context : RememberContext) :
    (learner.accumulate fleetStateChecksum sprout context).verifyNodeBonding =
      learner.verifyNodeBonding := by
  unfold accumulate
  split <;> rfl

theorem rememberNode_sameView (learner : Learner C) (sprout : Node) (eager : Bool)
    (context : RememberContext) :
    SameView learner
      (learner.rememberNode fleetStateChecksum sprout false false eager context).1 := by
  have hknown := rememberNode_takenIn fleetStateChecksum learner sprout eager context
  have hfields : ∀ learner' : Learner C, learner' = learner ∨
      learner' = learner.accumulate fleetStateChecksum sprout context →
      learner'.hasRegistry = learner.hasRegistry ∧
        learner'.verifyNodeBonding = learner.verifyNodeBonding := by
    rintro learner' (rfl | rfl)
    · exact ⟨rfl, rfl⟩
    · exact ⟨accumulate_hasRegistry .., accumulate_verifyNodeBonding ..⟩
  have hlearner : (learner.rememberNode fleetStateChecksum sprout false false eager context).1 =
        learner ∨
      (learner.rememberNode fleetStateChecksum sprout false false eager context).1 =
        learner.accumulate fleetStateChecksum sprout context := by
    by_cases hadmits : learner.Admits sprout
    · right
      simp only [rememberNode, if_neg hadmits.1, hadmits.2, Bool.false_eq_true, if_false,
        finishRemembering]
      split
      · split <;> rfl
      · rfl
    · left
      rw [rememberNode_of_not_admits fleetStateChecksum hadmits]
  rcases hfields _ hlearner with ⟨hregistry, hbonding⟩
  exact ⟨rememberNode_stamp fleetStateChecksum .., hregistry, hbonding, by rw [hknown],
    by rw [hknown]⟩

theorem rememberNode_remembered_iff (learner : Learner C) (sprout : Node) (eager : Bool)
    (context : RememberContext) :
    (∃ node, (learner.rememberNode fleetStateChecksum sprout false false eager context).2 =
        .remembered node) ↔ learner.Remembers eager sprout context := by
  by_cases hadmits : learner.Admits sprout
  · have hverify : (learner.accumulate fleetStateChecksum sprout context).verifyEagerly false
        context = learner.verifyEagerly false context := by
      simp only [verifyEagerly, accumulate_hasRegistry, accumulate_verifyNodeBonding]
    simp only [rememberNode, if_neg hadmits.1, hadmits.2, Bool.false_eq_true, if_false,
      finishRemembering, Remembers, hadmits, true_and, hverify]
    cases eager with
    | false => simp
    | true => cases learner.verifyEagerly false context <;> simp
  · rw [rememberNode_of_not_admits fleetStateChecksum hadmits]
    simp [Remembers, hadmits]

/-! ## The merged fleet -/

/-- The metadata of the learner itself after the fleet state has been recorded. -/
def ownMetadata (learner : Learner C) (context : RecordContext) : Option NodeMetadata :=
  if learner.knownNodes.currentState.hasThisNode then some context.thisNode
  else learner.knownNodes.currentState.thisNodeMetadata

/-- Some accumulated node, not marked, is unknown or differs from what is known under its
address. -/
def Supersedes (learner : Learner C) (sprouts : List Node) (address : ChecksumAddress) : Prop :=
  ∃ node ∈ (learner.accumulated sprouts).elems,
    learner.knownNodes.currentState.isUpdate learner.knownNodes.nodesToRemove node = true ∧
      node.checksumAddress = address

/-- A known node that is neither marked for removal nor superseded. -/
def Keeps (learner : Learner C) (sprouts : List Node) (address : ChecksumAddress) (node : Node) :
    Prop :=
  learner.known? address = some node ∧ address ∉ learner.knownNodes.nodesToRemove ∧
    ¬ learner.Supersedes sprouts address

/-- An address that is superseded gains the last accumulated node of that address. -/
def Gains (learner : Learner C) (sprouts : List Node) (context : RecordContext)
    (address : ChecksumAddress) (node : Node) : Prop :=
  address ∉ learner.knownNodes.nodesToRemove ∧ learner.Supersedes sprouts address ∧
    (FleetState.nodesToAddDict (context.order.apply (learner.accumulated sprouts).elems)).get?
      address = some node

/-- The fleet after the sprouts have been remembered and recorded. -/
theorem mem_fleet_merge (learner : Learner C) (sprouts : List Node) (context : RecordContext)
    {x : NodeMetadata} :
    x ∈ ({ learner.knownNodes with nodesToAdd := learner.accumulated sprouts }.recordFleetState
        fleetStateChecksum false context).currentState.fleet ↔
      learner.ownMetadata context = some x ∨
        ∃ address node, (learner.Keeps sprouts address node ∨
          learner.Gains sprouts context address node) ∧ node.metadata = x := by
  rw [FleetState.mem_fleet, FleetSensor.recordFleetState_thisNodeMetadata]
  have hown : (if learner.knownNodes.currentState.hasThisNode && !false
      then some context.thisNode else learner.knownNodes.currentState.thisNodeMetadata) =
        learner.ownMetadata context := by
    simp [ownMetadata]
  have hlookup : ∀ address node,
      ({ learner.knownNodes with nodesToAdd := learner.accumulated sprouts }.recordFleetState
        fleetStateChecksum false context).currentState.nodes.get? address = some node ↔
      learner.Keeps sprouts address node ∨ learner.Gains sprouts context address node := by
    intro address node
    rw [FleetSensor.get?_recordFleetState]
    by_cases hremove : address ∈ learner.knownNodes.nodesToRemove
    · simp [Keeps, Gains, hremove]
    · by_cases hsuper : learner.Supersedes sprouts address
      · simp only [hremove, if_false, Keeps, Gains, hsuper, not_true, and_false, false_or,
          not_false_eq_true, true_and]
        unfold Supersedes at hsuper
        rw [if_pos hsuper]
      · simp only [hremove, if_false, Keeps, Gains, hsuper, not_false_eq_true, and_true,
          false_and, and_false, or_false]
        unfold Supersedes at hsuper
        rw [if_neg hsuper]
        rfl
  simp only [hlookup]
  rw [hown]

/-- The merged fleet of a learner is that of a teacher: the learner keeps and gains nothing that
the teacher does not have, and has everything that the teacher has. -/
structure SameFleet (learner : Learner C) (sprouts : List Node) (context : RecordContext)
    (teacher : FleetState) : Prop where
  own : ∀ x, learner.ownMetadata context = some x → x ∈ teacher.fleet
  kept : ∀ address node, learner.Keeps sprouts address node → node.metadata ∈ teacher.fleet
  gained : ∀ address node, learner.Gains sprouts context address node →
    node.metadata ∈ teacher.fleet
  covered : ∀ x ∈ teacher.fleet, learner.ownMetadata context = some x ∨
    (∃ address node, learner.Keeps sprouts address node ∧ node.metadata = x) ∨
      ∃ address node, learner.Gains sprouts context address node ∧ node.metadata = x

theorem fleet_merge_eq_iff (learner : Learner C) (sprouts : List Node) (context : RecordContext)
    (teacher : FleetState) :
    ({ learner.knownNodes with nodesToAdd := learner.accumulated sprouts }.recordFleetState
        fleetStateChecksum false context).currentState.fleet = teacher.fleet ↔
      learner.SameFleet sprouts context teacher := by
  rw [Finset.ext_iff]
  simp only [mem_fleet_merge]
  constructor
  · intro h
    refine ⟨fun x hown => (h x).mp (Or.inl hown), ?_, ?_, ?_⟩
    · intro address node hkeeps
      exact (h _).mp (Or.inr ⟨address, node, Or.inl hkeeps, rfl⟩)
    · intro address node hgains
      exact (h _).mp (Or.inr ⟨address, node, Or.inr hgains, rfl⟩)
    · intro x hx
      rcases (h x).mpr hx with hown | ⟨address, node, hkeeps | hgains, hmetadata⟩
      · exact Or.inl hown
      · exact Or.inr (Or.inl ⟨address, node, hkeeps, hmetadata⟩)
      · exact Or.inr (Or.inr ⟨address, node, hgains, hmetadata⟩)
  · intro h x
    constructor
    · rintro (hown | ⟨address, node, hkeeps | hgains, rfl⟩)
      · exact h.own x hown
      · exact h.kept address node hkeeps
      · exact h.gained address node hgains
    · intro hx
      rcases h.covered x hx with hown | ⟨address, node, hkeeps, hmetadata⟩ |
        ⟨address, node, hgains, hmetadata⟩
      · exact Or.inl hown
      · exact Or.inr ⟨address, node, Or.inl hkeeps, hmetadata⟩
      · exact Or.inr ⟨address, node, Or.inr hgains, hmetadata⟩

end Learner

end NuLink
