import NuLinkCore.Network.Refusal

/-!
# When a remembered node is known

{lit}`remember_node` returns the node it was given after recording the fleet state.
Between the two lie the domain filter of {lit}`record_node`, the pending removals, and
the pending additions, which are keyed by stamp while the state is keyed by address:
among several pending nodes of one address the last one iterated is taken.  None of
this shows in the returned value.

Main results:

- Theorem {lit}`FleetState.get?_nodesToAddDict_eq_some_iff`: an address maps to the last
  node of the batch that has it.
- Theorem {lit}`Learner.rememberNode_of_remembered`: what a call that returns a node has
  done to the fleet sensor.
- Theorem {lit}`Learner.recordFleetState_known_iff`: when recording the fleet state makes an
  admitted node known.
- Theorem {lit}`Learner.remembered_known_iff`: exactly when a remembered node is known.
-/

namespace NuLink

open Collections

/-- The last node of a batch with its address. -/
def FleetState.LastOfItsAddress (nodesToAdd : List Node) (node : Node) : Prop :=
  ∃ before after, nodesToAdd = before ++ node :: after ∧
    ∀ later ∈ after, later.checksumAddress ≠ node.checksumAddress

/-- An address maps to the last node of the batch that has it. -/
theorem FleetState.get?_nodesToAddDict_eq_some_iff (nodesToAdd : List Node) (node : Node) :
    (nodesToAddDict nodesToAdd).get? node.checksumAddress = some node ↔
      LastOfItsAddress nodesToAdd node := by
  refine Iff.trans (@Dict.get?_ofList_map_eq_some_iff _ _ _ _ Node.checksumAddress id _ _ _) ?_
  constructor
  · rintro ⟨before, last, after, hsplit, hnone, -, rfl⟩
    exact ⟨before, after, hsplit, hnone⟩
  · rintro ⟨before, after, hsplit, hnone⟩
    exact ⟨before, node, after, hsplit, hnone, rfl, rfl⟩

/-- The pending additions of a sensor that has recorded a node. -/
def FleetSensor.pendingWith {C : Type} (sensor : FleetSensor C) (node : Node) : List Node :=
  if node.domain = sensor.domain then (sensor.nodesToAdd.replace node).elems
  else sensor.nodesToAdd.elems

namespace Learner

variable {C : Type} (fleetStateChecksum : Option NodeMetadata → List NodeMetadata → C)

@[simp]
theorem recordNode_elems (sensor : FleetSensor C) (node : Node) (context : RecordContext) :
    (sensor.recordNode fleetStateChecksum node context).nodesToAdd.elems =
      sensor.pendingWith node := by
  by_cases hdomain : node.domain = sensor.domain
  · rw [FleetSensor.recordNode_of_domain fleetStateChecksum context hdomain,
      FleetSensor.pendingWith, if_pos hdomain]
  · rw [FleetSensor.recordNode_of_foreign fleetStateChecksum context hdomain,
      FleetSensor.pendingWith, if_neg hdomain]

@[simp]
theorem recordNode_nodesToRemove (sensor : FleetSensor C) (node : Node)
    (context : RecordContext) :
    (sensor.recordNode fleetStateChecksum node context).nodesToRemove = sensor.nodesToRemove := by
  by_cases hdomain : node.domain = sensor.domain
  · rw [FleetSensor.recordNode_of_domain fleetStateChecksum context hdomain]
  · rw [FleetSensor.recordNode_of_foreign fleetStateChecksum context hdomain]

/-- No removal of the node's address is pending, and the node comes last among the pending
nodes of its address. -/
structure ReachesFleet (learner : Learner C) (node : Node) (context : RememberContext) :
    Prop where
  notRemoved : node.checksumAddress ∉ learner.knownNodes.nodesToRemove
  last : FleetState.LastOfItsAddress
    (context.record.order.apply (learner.knownNodes.pendingWith node)) node

/-! ## What a call that returns a node has done -/

/-- A call that returns a node returns its argument, which it admitted and accumulated, and it
has recorded the fleet state if asked to. -/
theorem rememberNode_of_remembered {learner : Learner C} {node remembered : Node}
    {force recordFleetState eager : Bool} {context : RememberContext}
    (h : (learner.rememberNode fleetStateChecksum node force recordFleetState eager context).2 =
      .remembered remembered) :
    remembered = node ∧ learner.Admits node ∧
      (learner.rememberNode fleetStateChecksum node force recordFleetState eager context).1 =
        ((learner.accumulate fleetStateChecksum node context).finishRemembering
          fleetStateChecksum node recordFleetState context).1 := by
  by_cases hadmits : learner.Admits node
  · simp only [rememberNode, if_neg hadmits.1, hadmits.2, Bool.false_eq_true, if_false] at h ⊢
    cases eager with
    | false =>
        simp only [Bool.false_eq_true, if_false, finishRemembering_result] at h ⊢
        exact ⟨(RememberResult.remembered.inj h).symm, hadmits, trivial⟩
    | true =>
        simp only [if_true] at h ⊢
        cases hverified : (learner.accumulate fleetStateChecksum node context).verifyEagerly force
          context with
        | verified =>
            simp only [hverified, finishRemembering_result] at h ⊢
            exact ⟨(RememberResult.remembered.inj h).symm, hadmits, trivial⟩
        | sslError => simp only [hverified, reduceCtorEq] at h
        | unreachable => simp only [hverified, reduceCtorEq] at h
        | notStaking => simp only [hverified, reduceCtorEq] at h
        | raised => simp only [hverified, reduceCtorEq] at h
  · rw [rememberNode_of_not_admits fleetStateChecksum hadmits] at h
    cases h

/-- A call returns the node exactly when it gets past the tests at its start and either is not
eager or verifies the node. -/
theorem rememberNode_returns_iff (learner : Learner C) (node : Node)
    (force recordFleetState eager : Bool) (context : RememberContext) :
    (learner.rememberNode fleetStateChecksum node force recordFleetState eager context).2 =
        .remembered node ↔
      learner.Admits node ∧ (eager = true → learner.verifyEagerly force context = .verified) := by
  constructor
  · intro h
    have hadmits := (rememberNode_of_remembered fleetStateChecksum h).2.1
    refine ⟨hadmits, ?_⟩
    rintro rfl
    by_contra hverified
    exact (rememberNode_of_not_verified fleetStateChecksum hadmits hverified
      recordFleetState).2 node h
  · rintro ⟨hadmits, hverified⟩
    cases eager with
    | false =>
        exact rememberNode_result_of_not_eager fleetStateChecksum hadmits force recordFleetState
          context
    | true =>
        exact rememberNode_result_of_verified fleetStateChecksum hadmits (hverified rfl)
          recordFleetState

/-! ## When the node is known -/

/-- A node that is newer than the recorded one is an update unless its address is to be
removed. -/
theorem isUpdate_of_admits {learner : Learner C} {node : Node} (hadmits : learner.Admits node)
    {nodesToRemove : List ChecksumAddress} (hremove : node.checksumAddress ∉ nodesToRemove) :
    learner.knownNodes.currentState.isUpdate nodesToRemove node = true := by
  rw [FleetState.isUpdate, if_neg hremove]
  cases hknown : learner.knownNodes.currentState.nodes.get? node.checksumAddress with
  | none => rfl
  | some old =>
      have hnewer := isOutdated_eq_false_iff.mp hadmits.2 old hknown
      have hmetadata : old.metadata ≠ node.metadata := by
        intro hsame
        have htimestamp : old.timestamp = node.timestamp :=
          congrArg (fun metadata => metadata.payload.timestampEpoch) hsame
        omega
      simpa using hmetadata

/-- Recording the fleet state after an admitted node makes it known exactly when it reaches the
fleet. -/
theorem recordFleetState_known_iff {learner : Learner C} {node : Node}
    (hadmits : learner.Admits node) (context : RememberContext) :
    ((learner.knownNodes.recordNode fleetStateChecksum node context.record).recordFleetState
        fleetStateChecksum false context.record).currentState.nodes.get? node.checksumAddress =
          some node ↔
      learner.ReachesFleet node context := by
  rw [FleetSensor.get?_recordFleetState, recordNode_nodesToRemove, recordNode_elems,
    recordNode_currentState]
  by_cases hremove : node.checksumAddress ∈ learner.knownNodes.nodesToRemove
  · rw [if_pos hremove]
    constructor
    · intro hnone
      cases hnone
    · intro hreaches
      exact absurd hremove hreaches.notRemoved
  · rw [if_neg hremove]
    constructor
    · intro hknown
      split at hknown
      · exact ⟨hremove, (FleetState.get?_nodesToAddDict_eq_some_iff _ node).mp hknown⟩
      · -- Otherwise the address would still map to the node recorded before, which is older.
        exact absurd (isOutdated_eq_false_iff.mp hadmits.2 node hknown) (Nat.lt_irrefl _)
    · rintro ⟨-, hlast⟩
      have hmem : node ∈ learner.knownNodes.pendingWith node := by
        rcases hlast with ⟨before, after, hsplit, -⟩
        rw [← context.record.order.mem_apply, hsplit]
        simp
      rw [if_pos ⟨node, hmem, isUpdate_of_admits hadmits hremove, rfl⟩]
      exact (FleetState.get?_nodesToAddDict_eq_some_iff _ node).mpr hlast

/-- If a recording call returns the node then the node is known, exactly when the call refuses
it or it reaches the fleet. -/
theorem remembered_known_iff (learner : Learner C) (node : Node) (force eager : Bool)
    (context : RememberContext) :
    ((learner.rememberNode fleetStateChecksum node force true eager context).2 =
          .remembered node →
        (learner.rememberNode fleetStateChecksum node force true eager context).1.known?
          node.checksumAddress = some node) ↔
      ¬ learner.Admits node ∨
        (eager = true ∧ learner.verifyEagerly force context ≠ .verified) ∨
          learner.ReachesFleet node context := by
  by_cases hremembered : (learner.rememberNode fleetStateChecksum node force true eager
    context).2 = .remembered node
  · rcases rememberNode_of_remembered fleetStateChecksum hremembered with ⟨-, hadmits, hafter⟩
    have hverified := ((rememberNode_returns_iff fleetStateChecksum learner node force true
      eager context).mp hremembered).2
    have hknown : (learner.rememberNode fleetStateChecksum node force true eager
        context).1.known? node.checksumAddress = some node ↔
          learner.ReachesFleet node context := by
      rw [hafter, known?, finishRemembering_knownNodes, if_pos rfl, accumulate_knownNodes]
      exact recordFleetState_known_iff fleetStateChecksum hadmits context
    rw [hknown]
    constructor
    · intro h
      exact Or.inr (Or.inr (h hremembered))
    · rintro (hnot | ⟨heager, hfailed⟩ | hreaches) _
      · exact absurd hadmits hnot
      · exact absurd (hverified heager) hfailed
      · exact hreaches
  · refine ⟨fun _ => ?_, fun _ h => absurd h hremembered⟩
    rw [rememberNode_returns_iff, not_and_or] at hremembered
    rcases hremembered with hnot | hfailed
    · exact Or.inl hnot
    · exact Or.inr (Or.inl (by simpa using hfailed))

/-- A provider announced under one stamp, and announced later under another one. -/
def rekeyedAt (verifyingKey : Bytes) (timestamp : Nat) : Node :=
  nodeSprout (sampleMetadata "0x1000000000000000000000000000000000000001" verifyingKey timestamp)

/-- A context in which a given node is iterated last. -/
def iteratedLast (node : Node) : RememberContext :=
  { plainRememberContext with
    record := { FleetSensor.plainContext with order := Reorder.moveToEnd node } }

/-- A provider that is pending under its old stamp is remembered under its new one, and its
address maps to the old representation. -/
theorem remembered_node_unknown :
    let learner := (new FleetSensor.plainChecksum none false true true "mainnet" false 0).run
      FleetSensor.plainChecksum
        [.rememberNode (rekeyedAt [1] 10) false false false plainRememberContext]
    let call := learner.rememberNode FleetSensor.plainChecksum (rekeyedAt [2] 20) false true false
      (iteratedLast (rekeyedAt [1] 10))
    call.2 = .remembered (rekeyedAt [2] 20) ∧
      call.1.known? (rekeyedAt [2] 20).checksumAddress = some (rekeyedAt [1] 10) ∧
      call.1.known? (rekeyedAt [2] 20).checksumAddress ≠ some (rekeyedAt [2] 20) := by
  decide

end Learner

end NuLink
