import NuLinkCore.Acumen.FleetSensor

/-!
# Remembering nodes

A learner puts every node it hears about through {lit}`remember_node`.  The call
refuses the learner itself and any representation that is not newer than the
recorded one, accumulates the node in the fleet sensor, stores its metadata when
asked to, verifies it when asked to be eager, and may record the fleet state.
The timestamp is compared when the node is accumulated, while the recorded state
is replaced only later.

Main results:

- Theorem {lit}`Learner.rememberNode_knownNodes`: everything the call can do to
  the fleet sensor.
- Definition {lit}`Learner.PendingNewer` and theorem
  {lit}`Learner.step_pendingNewer`: every accumulated node is newer than the
  recorded node of its address, and every operation keeps this.
- Theorem {lit}`Learner.run_no_rollback`: along every run the recorded timestamp of
  an address never decreases.
-/

namespace NuLink

open Collections

/-- How a call of {lit}`verify_node` can end, as far as {lit}`remember_node`
distinguishes it. -/
inductive VerifyNodeResult where
  | verified
  | sslError
  | unreachable
  | notStaking
  | raised
deriving DecidableEq, Repr

/-- What {lit}`remember_node` returns: {lit}`False`, the node, or an exception. -/
inductive RememberResult where
  | refused
  | remembered (node : Node)
  | raised
deriving DecidableEq, Repr

/-- What {lit}`remember_node` meets outside the learner: the context of recording
the fleet state, whether maturing the node and storing its certificate succeed,
and the outcome of its verification, with or without {lit}`force` and with or
without a registry. -/
structure RememberContext where
  record : RecordContext
  matures : Bool
  storesCertificate : Bool
  verifyNode : (force registry : Bool) → VerifyNodeResult

/-- The part of a learner that remembering nodes reads and writes. -/
structure Learner (C : Type) where
  stamp : Option Bytes
  saveMetadata : Bool
  verifyNodeBonding : Bool
  hasRegistry : Bool
  knownNodes : FleetSensor C
  nodeStorage : Dict Bytes Node

namespace Learner

variable {C : Type} (fleetStateChecksum : Option NodeMetadata → List NodeMetadata → C)

/-- A learner that has not remembered anything yet. -/
def new (stamp : Option Bytes) (saveMetadata verifyNodeBonding hasRegistry : Bool)
    (domain : String) (includeSelfInTheState : Bool) (now : Nat) : Learner C where
  stamp := stamp
  saveMetadata := saveMetadata
  verifyNodeBonding := verifyNodeBonding
  hasRegistry := hasRegistry
  knownNodes := FleetSensor.new fleetStateChecksum domain includeSelfInTheState now
  nodeStorage := Dict.empty

/-- The recorded node of an address. -/
def known? (learner : Learner C) (address : ChecksumAddress) : Option Node :=
  learner.knownNodes.currentState.nodes.get? address

/-- Whether a node is an outdated representation of an already known node. -/
def isOutdated (learner : Learner C) (node : Node) : Bool :=
  match learner.known? node.checksumAddress with
  | none => false
  | some alreadyKnown => !decide (node.timestamp > alreadyKnown.timestamp)

/-- The middle of {lit}`remember_node`: accumulate the node in the fleet sensor, and
store its metadata if the learner saves metadata. -/
def accumulate (learner : Learner C) (node : Node) (context : RememberContext) : Learner C :=
  let recorded := { learner with
    knownNodes := learner.knownNodes.recordNode fleetStateChecksum node context.record }
  if learner.saveMetadata then
    { recorded with nodeStorage := learner.nodeStorage.set node.stamp node }
  else recorded

/-- The eager part of {lit}`remember_node`: mature the node, store its certificate,
verify it. -/
def verifyEagerly (learner : Learner C) (force : Bool) (context : RememberContext) :
    VerifyNodeResult :=
  if !context.matures then .raised
  else if !context.storesCertificate then .raised
  else context.verifyNode force (learner.hasRegistry && learner.verifyNodeBonding)

/-- The end of {lit}`remember_node`: record the fleet state if asked to, and return
the node. -/
def finishRemembering (learner : Learner C) (node : Node) (recordFleetState : Bool)
    (context : RememberContext) : Learner C × RememberResult :=
  if recordFleetState then
    ({ learner with
        knownNodes := learner.knownNodes.recordFleetState fleetStateChecksum false
          context.record },
      .remembered node)
  else (learner, .remembered node)

/-- {lit}`Learner.remember_node`. -/
def rememberNode (learner : Learner C) (node : Node) (force recordFleetState eager : Bool)
    (context : RememberContext) : Learner C × RememberResult :=
  if learner.stamp = some node.stamp then (learner, .refused)
  else if learner.isOutdated node then (learner, .refused)
  else
    let stored := learner.accumulate fleetStateChecksum node context
    if eager then
      match stored.verifyEagerly force context with
      | .verified => stored.finishRemembering fleetStateChecksum node recordFleetState context
      | .sslError => (stored, .refused)
      | .unreachable => (stored, .refused)
      | .notStaking => (stored, .refused)
      | .raised => (stored, .raised)
    else stored.finishRemembering fleetStateChecksum node recordFleetState context

/-! ## What remembering can do to the fleet sensor -/

/-- The node gets past the two tests at the start of {lit}`remember_node`. -/
def Admits (learner : Learner C) (node : Node) : Prop :=
  learner.stamp ≠ some node.stamp ∧ learner.isOutdated node = false

instance (learner : Learner C) (node : Node) : Decidable (learner.Admits node) :=
  inferInstanceAs (Decidable (_ ∧ _))

theorem isOutdated_eq_false_iff {learner : Learner C} {node : Node} :
    learner.isOutdated node = false ↔
      ∀ old, learner.known? node.checksumAddress = some old → old.timestamp < node.timestamp := by
  unfold isOutdated
  cases learner.known? node.checksumAddress with
  | none => simp
  | some old => simp

theorem isOutdated_eq_true_iff {learner : Learner C} {node : Node} :
    learner.isOutdated node = true ↔
      ∃ old, learner.known? node.checksumAddress = some old ∧ node.timestamp ≤ old.timestamp := by
  unfold isOutdated
  cases learner.known? node.checksumAddress with
  | none => simp
  | some old => simp

theorem rememberNode_of_not_admits {learner : Learner C} {node : Node}
    (h : ¬ learner.Admits node) (force recordFleetState eager : Bool)
    (context : RememberContext) :
    learner.rememberNode fleetStateChecksum node force recordFleetState eager context =
      (learner, .refused) := by
  unfold rememberNode
  by_cases hself : learner.stamp = some node.stamp
  · rw [if_pos hself]
  · have hold : learner.isOutdated node = true := by
      by_contra hnew
      exact h ⟨hself, by simpa using hnew⟩
    rw [if_neg hself, if_pos hold]

@[simp]
theorem accumulate_knownNodes (learner : Learner C) (node : Node) (context : RememberContext) :
    (learner.accumulate fleetStateChecksum node context).knownNodes =
      learner.knownNodes.recordNode fleetStateChecksum node context.record := by
  unfold accumulate
  split <;> rfl

/-- Everything the end of {lit}`remember_node` can do to the fleet sensor. -/
theorem finishRemembering_knownNodes (learner : Learner C) (node : Node)
    (recordFleetState : Bool) (context : RememberContext) :
    (learner.finishRemembering fleetStateChecksum node recordFleetState context).1.knownNodes =
      if recordFleetState then
        learner.knownNodes.recordFleetState fleetStateChecksum false context.record
      else learner.knownNodes := by
  unfold finishRemembering
  split <;> rfl

/-- Everything the end of {lit}`remember_node` returns. -/
theorem finishRemembering_result (learner : Learner C) (node : Node) (recordFleetState : Bool)
    (context : RememberContext) :
    (learner.finishRemembering fleetStateChecksum node recordFleetState context).2 =
      .remembered node := by
  unfold finishRemembering
  split <;> rfl

/-- Everything {lit}`remember_node` can do to the fleet sensor: nothing, accumulate an admitted
node, or, when it is asked to and returns the node, also record the fleet state. -/
theorem rememberNode_cases (learner : Learner C) (node : Node)
    (force recordFleetState eager : Bool) (context : RememberContext) :
    let after :=
      learner.rememberNode fleetStateChecksum node force recordFleetState eager context
    let recorded := learner.knownNodes.recordNode fleetStateChecksum node context.record
    after.1.knownNodes = learner.knownNodes ∨
      learner.Admits node ∧
        (after.1.knownNodes = recorded ∨
          recordFleetState = true ∧ after.2 = .remembered node ∧
            after.1.knownNodes =
              recorded.recordFleetState fleetStateChecksum false context.record) := by
  intro after recorded
  by_cases h : learner.Admits node
  · refine Or.inr ⟨h, ?_⟩
    let stored := learner.accumulate fleetStateChecksum node context
    have hstored : stored.knownNodes = recorded :=
      accumulate_knownNodes fleetStateChecksum learner node context
    have hfinish : (stored.finishRemembering fleetStateChecksum node recordFleetState
          context).1.knownNodes = recorded ∨
        recordFleetState = true ∧
          (stored.finishRemembering fleetStateChecksum node recordFleetState context).2 =
            .remembered node ∧
          (stored.finishRemembering fleetStateChecksum node recordFleetState
            context).1.knownNodes =
              recorded.recordFleetState fleetStateChecksum false context.record := by
      rw [finishRemembering_knownNodes, finishRemembering_result, hstored]
      cases recordFleetState with
      | false => exact Or.inl rfl
      | true => exact Or.inr ⟨rfl, rfl, rfl⟩
    simp only [after, rememberNode, if_neg h.1, h.2, Bool.false_eq_true, if_false]
    split
    · split
      · exact hfinish
      all_goals exact Or.inl hstored
    · exact hfinish
  · left
    simp only [after]
    rw [rememberNode_of_not_admits fleetStateChecksum h]

/-- The same, without what {lit}`remember_node` returns. -/
theorem rememberNode_knownNodes (learner : Learner C) (node : Node)
    (force recordFleetState eager : Bool) (context : RememberContext) :
    let after :=
      (learner.rememberNode fleetStateChecksum node force recordFleetState eager context).1
    let recorded := learner.knownNodes.recordNode fleetStateChecksum node context.record
    after.knownNodes = learner.knownNodes ∨
      learner.Admits node ∧
        (after.knownNodes = recorded ∨
          after.knownNodes = recorded.recordFleetState fleetStateChecksum false
            context.record) := by
  intro after recorded
  rcases rememberNode_cases fleetStateChecksum learner node force recordFleetState eager context
    with hsame | ⟨hadmits, hrecorded | ⟨-, -, hflushed⟩⟩
  · exact Or.inl hsame
  · exact Or.inr ⟨hadmits, Or.inl hrecorded⟩
  · exact Or.inr ⟨hadmits, Or.inr hflushed⟩

/-- Without recording, an admitted node is accumulated, whatever its verification says. -/
theorem rememberNode_lazy_knownNodes (learner : Learner C) (node : Node) (force eager : Bool)
    (context : RememberContext) :
    (learner.rememberNode fleetStateChecksum node force false eager context).1.knownNodes =
      if learner.Admits node then
        learner.knownNodes.recordNode fleetStateChecksum node context.record
      else learner.knownNodes := by
  by_cases h : learner.Admits node
  · have hstored := accumulate_knownNodes fleetStateChecksum learner node context
    have hfinish : ((learner.accumulate fleetStateChecksum node context).finishRemembering
        fleetStateChecksum node false context).1.knownNodes =
          learner.knownNodes.recordNode fleetStateChecksum node context.record := by
      rw [finishRemembering_knownNodes, hstored]
      rfl
    simp only [rememberNode, if_neg h.1, h.2, Bool.false_eq_true, if_false, if_pos h]
    split
    · split
      · exact hfinish
      all_goals exact hstored
    · exact hfinish
  · rw [rememberNode_of_not_admits fleetStateChecksum h, if_neg h]

/-- Remembering a node never changes the learner's own stamp. -/
@[simp]
theorem rememberNode_stamp (learner : Learner C) (node : Node)
    (force recordFleetState eager : Bool) (context : RememberContext) :
    (learner.rememberNode fleetStateChecksum node force recordFleetState eager
      context).1.stamp = learner.stamp := by
  have hstored : (learner.accumulate fleetStateChecksum node context).stamp = learner.stamp := by
    unfold accumulate
    split <;> rfl
  have hfinish : ((learner.accumulate fleetStateChecksum node context).finishRemembering
      fleetStateChecksum node recordFleetState context).1.stamp = learner.stamp := by
    unfold finishRemembering
    split <;> exact hstored
  by_cases h : learner.Admits node
  · simp only [rememberNode, if_neg h.1, h.2, Bool.false_eq_true, if_false]
    split
    · split
      · exact hfinish
      all_goals exact hstored
    · exact hfinish
  · rw [rememberNode_of_not_admits fleetStateChecksum h]

/-! ## Runs of a learner -/

/-- The operations that reach the fleet sensor of a learner. -/
inductive Op where
  | rememberNode (node : Node) (force recordFleetState eager : Bool) (context : RememberContext)
  | recordFleetState (skipThisNode : Bool) (context : RecordContext)
  | markAs (node : Node)

/-- Perform one operation. -/
def step (learner : Learner C) : Op → Learner C
  | .rememberNode node force recordFleetState eager context =>
      (learner.rememberNode fleetStateChecksum node force recordFleetState eager context).1
  | .recordFleetState skipThisNode context =>
      { learner with
        knownNodes := learner.knownNodes.recordFleetState fleetStateChecksum skipThisNode context }
  | .markAs node => { learner with knownNodes := learner.knownNodes.markAs node }

/-- Perform a sequence of operations. -/
def run (learner : Learner C) (ops : List Op) : Learner C :=
  ops.foldl (step fleetStateChecksum) learner

/-- Every accumulated node is newer than the recorded node of its address. -/
def PendingNewer (sensor : FleetSensor C) : Prop :=
  ∀ node ∈ sensor.nodesToAdd.elems, ∀ old,
    sensor.currentState.nodes.get? node.checksumAddress = some old →
      old.timestamp < node.timestamp

theorem recordNode_pendingNewer {sensor : FleetSensor C} {node : Node}
    (hpending : PendingNewer sensor)
    (hnewer : ∀ old, sensor.currentState.nodes.get? node.checksumAddress = some old →
      old.timestamp < node.timestamp) (context : RecordContext) :
    PendingNewer (sensor.recordNode fleetStateChecksum node context) := by
  by_cases hdomain : node.domain = sensor.domain
  · rw [FleetSensor.recordNode_of_domain fleetStateChecksum context hdomain]
    intro other hother old hold
    rcases KeyedSet.mem_replace.mp hother with rfl | ⟨hother, -⟩
    · exact hnewer old hold
    · exact hpending other hother old hold
  · rw [FleetSensor.recordNode_of_foreign fleetStateChecksum context hdomain]
    exact hpending

theorem recordFleetState_pendingNewer (sensor : FleetSensor C) (skip : Bool)
    (context : RecordContext) :
    PendingNewer (sensor.recordFleetState fleetStateChecksum skip context) := by
  intro node hnode
  simp at hnode

theorem recordNode_currentState (sensor : FleetSensor C) (node : Node)
    (context : RecordContext) :
    (sensor.recordNode fleetStateChecksum node context).currentState = sensor.currentState := by
  by_cases hdomain : node.domain = sensor.domain
  · rw [FleetSensor.recordNode_of_domain fleetStateChecksum context hdomain]
  · rw [FleetSensor.recordNode_of_foreign fleetStateChecksum context hdomain]

theorem markAs_nodesToAdd (sensor : FleetSensor C) (node : Node) :
    (sensor.markAs node).nodesToAdd = sensor.nodesToAdd := by
  unfold FleetSensor.markAs
  split <;> rfl

theorem markAs_currentState (sensor : FleetSensor C) (node : Node) :
    (sensor.markAs node).currentState = sensor.currentState := by
  unfold FleetSensor.markAs
  split <;> rfl

/-- Every operation keeps the accumulated nodes newer than the recorded ones. -/
theorem step_pendingNewer {learner : Learner C} (hpending : PendingNewer learner.knownNodes)
    (op : Op) : PendingNewer (learner.step fleetStateChecksum op).knownNodes := by
  cases op with
  | rememberNode node force recordFleetState eager context =>
      rcases rememberNode_knownNodes fleetStateChecksum learner node force recordFleetState
        eager context with hsame | ⟨hadmits, hrecorded | hflushed⟩
      · simp only [step, hsame]
        exact hpending
      · simp only [step, hrecorded]
        exact recordNode_pendingNewer fleetStateChecksum hpending
          (isOutdated_eq_false_iff.mp hadmits.2) context.record
      · simp only [step, hflushed]
        exact recordFleetState_pendingNewer fleetStateChecksum _ false context.record
  | recordFleetState skip context =>
      exact recordFleetState_pendingNewer fleetStateChecksum _ skip context
  | markAs node =>
      intro other hother old hold
      simp only [step] at hother hold
      rw [markAs_nodesToAdd] at hother
      rw [markAs_currentState] at hold
      exact hpending other hother old hold

/-- From a learner that has not remembered anything, every run keeps the
accumulated nodes newer than the recorded ones. -/
theorem run_pendingNewer {learner : Learner C} (hpending : PendingNewer learner.knownNodes)
    (ops : List Op) : PendingNewer (learner.run fleetStateChecksum ops).knownNodes := by
  induction ops generalizing learner with
  | nil => exact hpending
  | cons op ops ih => exact ih (step_pendingNewer fleetStateChecksum hpending op)

theorem new_pendingNewer (stamp : Option Bytes) (saveMetadata verifyNodeBonding hasRegistry : Bool)
    (domain : String) (includeSelf : Bool) (now : Nat) :
    PendingNewer (new fleetStateChecksum stamp saveMetadata verifyNodeBonding hasRegistry domain
      includeSelf now).knownNodes := by
  intro node hnode
  simp [new, FleetSensor.new] at hnode

/-- Recording the fleet state never replaces a node by an older one. -/
theorem recordFleetState_timestamp_le {sensor : FleetSensor C} (hpending : PendingNewer sensor)
    {skip : Bool} {context : RecordContext} {address : ChecksumAddress} {old new : Node}
    (hold : sensor.currentState.nodes.get? address = some old)
    (hnew : (sensor.recordFleetState fleetStateChecksum skip
      context).currentState.nodes.get? address = some new) :
    old.timestamp ≤ new.timestamp := by
  rcases FleetSensor.get?_recordFleetState_some fleetStateChecksum hnew with hsame | ⟨hmem, haddr⟩
  · rw [hold] at hsame
    rw [Option.some.inj hsame]
  · exact Nat.le_of_lt (hpending new hmem old (haddr ▸ hold))

/-- One operation never replaces a recorded node by an older one. -/
theorem step_timestamp_le {learner : Learner C} (hpending : PendingNewer learner.knownNodes)
    (op : Op) {address : ChecksumAddress} {old new : Node}
    (hold : learner.known? address = some old)
    (hnew : (learner.step fleetStateChecksum op).known? address = some new) :
    old.timestamp ≤ new.timestamp := by
  have hunchanged : (learner.step fleetStateChecksum op).knownNodes.currentState =
      learner.knownNodes.currentState → old.timestamp ≤ new.timestamp := by
    intro hstate
    rw [known?, hstate] at hnew
    exact Nat.le_of_eq (congrArg Node.timestamp (Option.some.inj (hold.symm.trans hnew)))
  cases op with
  | rememberNode node force recordFleetState eager context =>
      rcases rememberNode_knownNodes fleetStateChecksum learner node force recordFleetState
        eager context with hsame | ⟨hadmits, hrecorded | hflushed⟩
      · exact hunchanged (by simp only [step, hsame])
      · exact hunchanged (by simp only [step, hrecorded, recordNode_currentState])
      · have hrecorded := recordNode_pendingNewer fleetStateChecksum hpending
          (isOutdated_eq_false_iff.mp hadmits.2) context.record
        simp only [known?, step, hflushed] at hnew
        refine recordFleetState_timestamp_le fleetStateChecksum hrecorded ?_ hnew
        rw [recordNode_currentState]
        exact hold
  | recordFleetState skip context =>
      exact recordFleetState_timestamp_le fleetStateChecksum hpending hold hnew
  | markAs node => exact hunchanged (markAs_currentState learner.knownNodes node)

/-- Along every run of a learner, an address that is present before and after an
operation has after it a node that is at least as recent. -/
theorem run_no_rollback (stamp : Option Bytes)
    (saveMetadata verifyNodeBonding hasRegistry : Bool) (domain : String) (includeSelf : Bool)
    (now : Nat) (ops : List Op) (op : Op) (address : ChecksumAddress) (old new : Node)
    (hold : ((Learner.new fleetStateChecksum stamp saveMetadata verifyNodeBonding hasRegistry
      domain includeSelf now).run fleetStateChecksum ops).known? address = some old)
    (hnew : (((Learner.new fleetStateChecksum stamp saveMetadata verifyNodeBonding hasRegistry
      domain includeSelf now).run fleetStateChecksum ops).step fleetStateChecksum op).known?
        address = some new) :
    old.timestamp ≤ new.timestamp :=
  step_timestamp_le fleetStateChecksum
    (run_pendingNewer fleetStateChecksum (new_pendingNewer fleetStateChecksum stamp saveMetadata
      verifyNodeBonding hasRegistry domain includeSelf now) ops) op hold hnew

/-- A context in which every eager step succeeds. -/
def plainRememberContext : RememberContext where
  record := FleetSensor.plainContext
  matures := true
  storesCertificate := true
  verifyNode _ _ := .verified

/-- A node announced at one time and announced again later. -/
def announcedAt (timestamp : Nat) : Node :=
  nodeSprout (sampleMetadata "0x1000000000000000000000000000000000000001" [1] timestamp)

theorem run_no_rollback_reannounced :
    ((new FleetSensor.plainChecksum none false true true "mainnet" false 0).run
        FleetSensor.plainChecksum
        [.rememberNode (announcedAt 10) false true false plainRememberContext]).known?
          "0x1000000000000000000000000000000000000001" = some (announcedAt 10) ∧
      (announcedAt 10).timestamp ≤ (announcedAt 20).timestamp :=
  ⟨by decide,
    run_no_rollback FleetSensor.plainChecksum none false true true "mainnet" false 0
      [.rememberNode (announcedAt 10) false true false plainRememberContext]
      (.rememberNode (announcedAt 20) false true true plainRememberContext)
      "0x1000000000000000000000000000000000000001" (announcedAt 10) (announcedAt 20)
      (by decide) (by decide)⟩

end Learner

end NuLink
