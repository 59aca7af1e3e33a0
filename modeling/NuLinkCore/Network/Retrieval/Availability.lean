import NuLinkCore.Network.Waiting
import NuLinkCore.Network.Retrieval.Plan

/-!
# Waiting for the nodes of a treasure map

Before a retrieval the client makes sure that a threshold of the destinations is known.  If
too few are, it waits on its own thread for those that were unknown, and allows as many of
them to be missing as the map has destinations beyond its threshold.  Destinations that were
known when the wait began are not looked at again, and a learner that has crashed ends every
wait at once.

Main results:

- Theorem {lit}`blockUntilKnown_eq`: the wait is decided by the first turn that ends it.
- Theorem {lit}`ensureUrsulaAvailability_isSome`: the wait ends once the timeout has passed.
- Theorem {lit}`enoughKnown_iff`: enough destinations are known exactly when the missing and the
  forgotten ones are within the slack of the map.
- Theorem {lit}`availability_iff`: exactly when a wait that returns has found enough
  destinations.
-/

namespace NuLink

open Collections

variable {ν E EncryptedKeyFrag : Type}

/-- What the wait meets on one turn: whether the learner has crashed, the fleet it looks at,
what {lit}`learn_from_teacher_node` makes of the fleet or raises, and the time since the wait
began. -/
structure LearningTurn (ν E : Type) where
  crashed : Bool
  knownNodes : Dict ChecksumAddress ν
  learnFromTeacherNode : Except E (Dict ChecksumAddress ν)
  seconds : Nat

/-- Why the wait raises. -/
inductive AvailabilityError (E : Type) where
  | learning (raised : E)
  | notEnoughTeachers (stillUnknown : Finset ChecksumAddress)
deriving DecidableEq

/-- {lit}`block_until_specific_nodes_are_known` with {lit}`learn_on_this_thread`, with the fleet
at the moment it returns.  There is no result while it blocks. -/
def blockUntilKnown (addresses : Finset ChecksumAddress) (timeout : Nat) (allowMissing : Int) :
    List (LearningTurn ν E) →
      Option (Except (AvailabilityError E) (Dict ChecksumAddress ν))
  | [] => none
  | turn :: turns =>
      if turn.crashed then some (.ok turn.knownNodes)
      else if addresses ⊆ turn.knownNodes.keys.toFinset then some (.ok turn.knownNodes)
      else
        match turn.learnFromTeacherNode with
        | .error raised => some (.error (.learning raised))
        | .ok knownNodes =>
            if turn.seconds > timeout then
              if ((stillUnknown addresses knownNodes).card : Int) ≤ allowMissing then
                some (.ok knownNodes)
              else some (.error (.notEnoughTeachers (stillUnknown addresses knownNodes)))
            else blockUntilKnown addresses timeout allowMissing turns

/-- What a retrieval meets of its learner: whether it is done seeding, the fleet it knows, the
fleet after it has learned first, and the turns of a wait. -/
structure LearnerHistory (ν E : Type) where
  doneSeeding : Bool
  knownNodes : Dict ChecksumAddress ν
  learnFromTeacherNode : Except E (Dict ChecksumAddress ν)
  turns : List (LearningTurn ν E)

/-- The fleet once the learner is done seeding. -/
def LearnerHistory.seeded (history : LearnerHistory ν E) :
    Except E (Dict ChecksumAddress ν) :=
  if !history.doneSeeding then history.learnFromTeacherNode else .ok history.knownNodes

namespace TreasureMap

variable (codec : AddressCodec) (treasureMap : TreasureMap EncryptedKeyFrag)

/-- {lit}`ursulas_in_map`. -/
def ursulasInMap : Finset ChecksumAddress :=
  (treasureMap.destinations.keys.map codec.toChecksumAddress).toFinset

/-- {lit}`known_ursulas`. -/
def knownUrsulas (knownNodes : Dict ChecksumAddress ν) : Finset ChecksumAddress :=
  treasureMap.ursulasInMap codec ∩ knownNodes.keys.toFinset

/-- {lit}`unknown_ursulas`. -/
def unknownUrsulas (knownNodes : Dict ChecksumAddress ν) : Finset ChecksumAddress :=
  treasureMap.ursulasInMap codec \ knownNodes.keys.toFinset

/-- {lit}`allow_missing`. -/
def allowMissing : Int := (treasureMap.destinations.len : Int) - treasureMap.threshold

/-- {lit}`_ensure_ursula_availability`, with the fleet at the moment it returns. -/
def ensureUrsulaAvailability (timeout : Nat) (history : LearnerHistory ν E) :
    Option (Except (AvailabilityError E) (Dict ChecksumAddress ν)) :=
  match history.seeded with
  | .error raised => some (.error (.learning raised))
  | .ok knownNodes =>
      if treasureMap.threshold ≤ (treasureMap.knownUrsulas codec knownNodes).card then
        some (.ok knownNodes)
      else
        blockUntilKnown (treasureMap.unknownUrsulas codec knownNodes) timeout
          treasureMap.allowMissing history.turns

end TreasureMap

/-! ## The turn that ends the wait -/

namespace LearningTurn

variable {addresses : Finset ChecksumAddress} {timeout : Nat} {allowMissing : Int}

/-- The wait does not go on after this turn. -/
def endsWait (addresses : Finset ChecksumAddress) (timeout : Nat) (turn : LearningTurn ν E) :
    Bool :=
  turn.crashed || decide (addresses ⊆ turn.knownNodes.keys.toFinset) ||
    match turn.learnFromTeacherNode with
    | .error _ => true
    | .ok _ => decide (turn.seconds > timeout)

/-- What the wait returns or raises on a turn that ends it. -/
def outcome (addresses : Finset ChecksumAddress) (allowMissing : Int)
    (turn : LearningTurn ν E) : Except (AvailabilityError E) (Dict ChecksumAddress ν) :=
  if turn.crashed then .ok turn.knownNodes
  else if addresses ⊆ turn.knownNodes.keys.toFinset then .ok turn.knownNodes
  else
    match turn.learnFromTeacherNode with
    | .error raised => .error (.learning raised)
    | .ok knownNodes =>
        if ((stillUnknown addresses knownNodes).card : Int) ≤ allowMissing then .ok knownNodes
        else .error (.notEnoughTeachers (stillUnknown addresses knownNodes))

end LearningTurn

/-- The wait is decided by the first turn that ends it. -/
theorem blockUntilKnown_eq (addresses : Finset ChecksumAddress) (timeout : Nat)
    (allowMissing : Int) (turns : List (LearningTurn ν E)) :
    blockUntilKnown addresses timeout allowMissing turns =
      (turns.find? (LearningTurn.endsWait addresses timeout)).map
        (LearningTurn.outcome addresses allowMissing) := by
  induction turns with
  | nil => rfl
  | cons turn turns ih =>
      rw [blockUntilKnown, ih, List.find?_cons]
      by_cases hcrashed : turn.crashed = true
      · simp [LearningTurn.endsWait, LearningTurn.outcome, hcrashed]
      by_cases hknown : addresses ⊆ turn.knownNodes.keys.toFinset
      · simp [LearningTurn.endsWait, LearningTurn.outcome, hknown]
      cases hlearning : turn.learnFromTeacherNode with
      | error raised =>
          simp [LearningTurn.endsWait, LearningTurn.outcome, hcrashed, hknown, hlearning]
      | ok knownNodes =>
          by_cases htimeout : turn.seconds > timeout
          · simp only [LearningTurn.endsWait, LearningTurn.outcome, hcrashed, hknown, hlearning,
              htimeout, Bool.false_or, decide_false, decide_true, if_true, Option.map_some,
              Bool.false_eq_true, if_false]
            split <;> rfl
          · simp [LearningTurn.endsWait, hcrashed, hknown, hlearning, htimeout]

/-- The wait ends once the timeout has passed. -/
theorem TreasureMap.ensureUrsulaAvailability_isSome (codec : AddressCodec)
    (treasureMap : TreasureMap EncryptedKeyFrag) (timeout : Nat) (history : LearnerHistory ν E)
    (h : ∃ turn ∈ history.turns, turn.seconds > timeout) :
    (treasureMap.ensureUrsulaAvailability codec timeout history).isSome = true := by
  rcases h with ⟨turn, hmem, hseconds⟩
  unfold ensureUrsulaAvailability
  cases history.seeded with
  | error raised => rfl
  | ok knownNodes =>
      simp only
      split_ifs with henough
      · rfl
      · rw [blockUntilKnown_eq, Option.isSome_map, List.find?_isSome]
        refine ⟨turn, hmem, ?_⟩
        unfold LearningTurn.endsWait
        cases turn.learnFromTeacherNode with
        | error raised => simp
        | ok learned => simp [hseconds]

/-! ## Missing and forgotten destinations -/

namespace TreasureMap

variable (codec : AddressCodec) (treasureMap : TreasureMap EncryptedKeyFrag)

/-- A threshold of the destinations is known. -/
def EnoughKnown (knownNodes : Dict ChecksumAddress ν) : Prop :=
  treasureMap.threshold ≤ (treasureMap.knownUrsulas codec knownNodes).card

/-- The destinations that were known in the first fleet and are not in the second one. -/
def forgotten (before after : Dict ChecksumAddress ν) : Finset ChecksumAddress :=
  stillUnknown (treasureMap.knownUrsulas codec before) after

/-- The destinations that were unknown in the first fleet and still are in the second one. -/
def missing (before after : Dict ChecksumAddress ν) : Finset ChecksumAddress :=
  stillUnknown (treasureMap.unknownUrsulas codec before) after

theorem card_ursulasInMap :
    (treasureMap.ursulasInMap codec).card = treasureMap.destinations.len := by
  have hnodup : (treasureMap.destinations.keys.map codec.toChecksumAddress).Nodup :=
    treasureMap.destinations.keys_nodup.map codec.toChecksumAddress_injective
  rw [ursulasInMap, List.toFinset_card_of_nodup hnodup, List.length_map, Dict.length_keys]

/-- Every destination is known, missing or forgotten. -/
theorem card_known_add_missing_add_forgotten (before after : Dict ChecksumAddress ν) :
    (treasureMap.knownUrsulas codec after).card + (treasureMap.missing codec before after).card +
        (treasureMap.forgotten codec before after).card = treasureMap.destinations.len := by
  have hsplit : treasureMap.missing codec before after ∪ treasureMap.forgotten codec before after =
      treasureMap.unknownUrsulas codec after := by
    ext address
    simp only [missing, forgotten, stillUnknown, unknownUrsulas, knownUrsulas, Finset.mem_union,
      Finset.mem_sdiff, Finset.mem_inter]
    tauto
  have hdisjoint : Disjoint (treasureMap.missing codec before after)
      (treasureMap.forgotten codec before after) := by
    rw [Finset.disjoint_left]
    intro address hmissing hforgotten
    simp only [missing, forgotten, stillUnknown, unknownUrsulas, knownUrsulas, Finset.mem_sdiff,
      Finset.mem_inter] at hmissing hforgotten
    exact hmissing.1.2 hforgotten.1.2
  have hcard := Finset.card_inter_add_card_sdiff (treasureMap.ursulasInMap codec)
    after.keys.toFinset
  rw [add_assoc, ← Finset.card_union_of_disjoint hdisjoint, hsplit, ← card_ursulasInMap codec]
  exact hcard

/-- Enough destinations are known exactly when the missing and the forgotten ones are within the
slack of the map. -/
theorem enoughKnown_iff (before after : Dict ChecksumAddress ν) :
    treasureMap.EnoughKnown codec after ↔
      ((treasureMap.missing codec before after).card : Int) +
        (treasureMap.forgotten codec before after).card ≤ treasureMap.allowMissing := by
  have hcard := treasureMap.card_known_add_missing_add_forgotten codec before after
  unfold EnoughKnown allowMissing
  omega

theorem missing_eq_empty {before after : Dict ChecksumAddress ν}
    (h : treasureMap.unknownUrsulas codec before ⊆ after.keys.toFinset) :
    treasureMap.missing codec before after = ∅ :=
  Finset.sdiff_eq_empty_iff_subset.mpr h

/-! ## When a wait that returns has found enough destinations -/

/-- The turn that ends a wait does no harm: the learner has not crashed while too few
destinations are known, and those forgotten since the wait began fit into the slack beside those
still missing. -/
structure Harmless (before : Dict ChecksumAddress ν) (turn : LearningTurn ν E) : Prop where
  whenCrashed : turn.crashed = true →
    ((treasureMap.missing codec before turn.knownNodes).card : Int) +
      (treasureMap.forgotten codec before turn.knownNodes).card ≤ treasureMap.allowMissing
  whenFound : turn.crashed = false →
    treasureMap.unknownUrsulas codec before ⊆ turn.knownNodes.keys.toFinset →
      ((treasureMap.forgotten codec before turn.knownNodes).card : Int) ≤
        treasureMap.allowMissing
  whenTimedOut : turn.crashed = false →
    ¬ treasureMap.unknownUrsulas codec before ⊆ turn.knownNodes.keys.toFinset →
      ∀ learned, turn.learnFromTeacherNode = .ok learned →
        ((treasureMap.missing codec before learned).card : Int) ≤ treasureMap.allowMissing →
          ((treasureMap.missing codec before learned).card : Int) +
            (treasureMap.forgotten codec before learned).card ≤ treasureMap.allowMissing

/-- What a turn that ends the wait returns has enough destinations exactly when the turn does no
harm. -/
theorem outcome_enoughKnown_iff (before : Dict ChecksumAddress ν) (turn : LearningTurn ν E) :
    (∀ knownNodes, turn.outcome (treasureMap.unknownUrsulas codec before)
        treasureMap.allowMissing = .ok knownNodes → treasureMap.EnoughKnown codec knownNodes) ↔
      treasureMap.Harmless codec before turn := by
  simp only [treasureMap.enoughKnown_iff codec before]
  unfold LearningTurn.outcome
  cases hcrashed : turn.crashed with
  | true =>
      simp only [if_true, Except.ok.injEq, forall_eq']
      exact ⟨fun h => ⟨fun _ => h, by simp [hcrashed], by simp [hcrashed]⟩,
        fun h => h.whenCrashed hcrashed⟩
  | false =>
      simp only [Bool.false_eq_true, if_false]
      by_cases hfound : treasureMap.unknownUrsulas codec before ⊆ turn.knownNodes.keys.toFinset
      · simp only [if_pos hfound, Except.ok.injEq, forall_eq',
          treasureMap.missing_eq_empty codec hfound, Finset.card_empty, Nat.cast_zero, zero_add]
        exact ⟨fun h => ⟨by simp [hcrashed], fun _ _ => h, fun _ hnot => absurd hfound hnot⟩,
          fun h => h.whenFound hcrashed hfound⟩
      · simp only [if_neg hfound]
        cases hlearning : turn.learnFromTeacherNode with
        | error raised =>
            simp only [reduceCtorEq, false_implies, implies_true, true_iff]
            exact ⟨by simp [hcrashed], fun _ h => absurd h hfound, by simp [hlearning]⟩
        | ok learned =>
            simp only
            constructor
            · intro h
              refine ⟨by simp [hcrashed], fun _ hsub => absurd hsub hfound, ?_⟩
              intro _ _ learned' hlearned hmissing
              rw [hlearning] at hlearned
              cases hlearned
              exact h learned (if_pos hmissing)
            · intro h knownNodes hreturned
              by_cases hmissing : ((stillUnknown (treasureMap.unknownUrsulas codec before)
                  learned).card : Int) ≤ treasureMap.allowMissing
              · rw [if_pos hmissing] at hreturned
                cases hreturned
                exact h.whenTimedOut hcrashed hfound learned hlearning hmissing
              · rw [if_neg hmissing] at hreturned
                cases hreturned

/-- A wait that returns has found enough destinations, exactly when enough are known once the
learner is done seeding, or the first turn that ends the wait does no harm. -/
theorem availability_iff (timeout : Nat) (history : LearnerHistory ν E) :
    (∀ knownNodes, treasureMap.ensureUrsulaAvailability codec timeout history =
        some (.ok knownNodes) → treasureMap.EnoughKnown codec knownNodes) ↔
      ∀ before, history.seeded = .ok before →
        treasureMap.EnoughKnown codec before ∨
          ∀ turn, history.turns.find? (LearningTurn.endsWait
            (treasureMap.unknownUrsulas codec before) timeout) = some turn →
              treasureMap.Harmless codec before turn := by
  unfold ensureUrsulaAvailability
  cases history.seeded with
  | error raised => simp
  | ok before =>
      simp only [Except.ok.injEq, forall_eq']
      by_cases henough : treasureMap.EnoughKnown codec before
      · have hcount : treasureMap.threshold ≤ (treasureMap.knownUrsulas codec before).card :=
          henough
        rw [if_pos hcount]
        constructor
        · intro _
          exact Or.inl henough
        · intro _ knownNodes hreturned
          cases hreturned
          exact henough
      · have hcount : ¬ treasureMap.threshold ≤ (treasureMap.knownUrsulas codec before).card :=
          henough
        rw [if_neg hcount]
        simp only [blockUntilKnown_eq, henough, false_or, ← outcome_enoughKnown_iff]
        constructor
        · intro h turn hturn knownNodes hreturned
          exact h knownNodes (by rw [hturn, Option.map_some, hreturned])
        · intro h knownNodes hreturned
          rcases Option.map_eq_some_iff.mp hreturned with ⟨turn, hturn, houtcome⟩
          exact h turn hturn knownNodes houtcome

/-! ## A map that needs both of its destinations -/

/-- The two destinations. -/
def destinationPair : CanonicalAddress × CanonicalAddress :=
  (⟨List.replicate 20 10, rfl⟩, ⟨List.replicate 20 11, rfl⟩)

/-- A map of two destinations with threshold two. -/
def twoOfTwo : TreasureMap Nat :=
  ⟨2, Dict.ofList [(destinationPair.1, 0), (destinationPair.2, 0)]⟩

/-- A fleet of one node. -/
def fleetOf (address : CanonicalAddress) : Dict ChecksumAddress Unit :=
  Dict.ofList [(hexCodec.toChecksumAddress address, ())]

/-- A learner that knows the first destination when the wait begins. -/
def firstKnown (turns : List (LearningTurn Unit Unit)) : LearnerHistory Unit Unit :=
  ⟨true, fleetOf destinationPair.1, .ok (fleetOf destinationPair.1), turns⟩

/-- A wait for two destinations returns with one of them known: the learner has crashed, or it has
found the second one and forgotten the first one. -/
theorem ensureUrsulaAvailability_tooFew :
    (∃ knownNodes, twoOfTwo.ensureUrsulaAvailability hexCodec 10
        (firstKnown [⟨true, fleetOf destinationPair.1, .ok (fleetOf destinationPair.1), 0⟩]) =
          some (.ok knownNodes) ∧
        (twoOfTwo.knownUrsulas hexCodec knownNodes).card < twoOfTwo.threshold) ∧
      ∃ knownNodes, twoOfTwo.ensureUrsulaAvailability hexCodec 10
        (firstKnown [⟨false, fleetOf destinationPair.1, .ok (fleetOf destinationPair.2), 0⟩,
          ⟨false, fleetOf destinationPair.2, .ok (fleetOf destinationPair.2), 1⟩]) =
            some (.ok knownNodes) ∧
          (twoOfTwo.knownUrsulas hexCodec knownNodes).card < twoOfTwo.threshold :=
  ⟨⟨fleetOf destinationPair.1, rfl, by decide +kernel⟩,
    ⟨fleetOf destinationPair.2, rfl, by decide +kernel⟩⟩

end TreasureMap

end NuLink
