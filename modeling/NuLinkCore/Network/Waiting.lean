import NuLinkCore.Acumen.FleetState

/-!
# Waiting for nodes

A learner blocks until specific nodes are known.  On every turn it looks at its fleet; once the
timeout has passed it gives up, and it then returns if few enough of the nodes are missing.
What it meets on its turns is an input, since another thread is learning meanwhile.

Main results:

- Theorem {lit}`blockUntil_isSome`: the wait ends once the timeout has passed.
- Theorem {lit}`missing_of_blockUntil`: what a wait that returns says about the fleet.
- Theorem {lit}`blockUntil_returns`: a fleet that misses few enough nodes satisfies the wait.
-/

namespace NuLink

open Collections

variable {ν : Type}

/-- What the wait meets on one turn; {lit}`seconds` is the time since it began. -/
structure WaitRound (ν : Type) where
  crashed : Bool
  knownNodes : Dict ChecksumAddress ν
  learningTaskRunning : Bool
  seconds : Nat

inductive WaitError where
  | learningTaskNotRunning
  | notEnoughTeachers (stillUnknown : Finset ChecksumAddress)

def learningTimeout : Nat := 10

/-- The addresses of which no node is known. -/
def stillUnknown (addresses : Finset ChecksumAddress) (knownNodes : Dict ChecksumAddress ν) :
    Finset ChecksumAddress :=
  addresses \ knownNodes.keys.toFinset

/-- {lit}`block_until_specific_nodes_are_known` while learning goes on in another thread, with
the turn on which it returns.  There is no result while it blocks. -/
def blockUntilSpecificNodesAreKnown (addresses : Finset ChecksumAddress) (allowMissing : Int) :
    List (WaitRound ν) → Option (Except WaitError (WaitRound ν))
  | [] => none
  | round :: rounds =>
      if round.crashed then some (.ok round)
      else if addresses ⊆ round.knownNodes.keys.toFinset then some (.ok round)
      else if round.learningTaskRunning = false then some (.error .learningTaskNotRunning)
      else if round.seconds > learningTimeout then
        if ((stillUnknown addresses round.knownNodes).card : Int) ≤ allowMissing then
          some (.ok round)
        else some (.error (.notEnoughTeachers (stillUnknown addresses round.knownNodes)))
      else blockUntilSpecificNodesAreKnown addresses allowMissing rounds

variable {addresses : Finset ChecksumAddress} {allowMissing : Int}

/-- On a turn after the timeout the wait ends, if it has not ended before. -/
theorem blockUntil_isSome (addresses : Finset ChecksumAddress) (allowMissing : Int)
    {rounds : List (WaitRound ν)} (h : ∃ round ∈ rounds, round.seconds > learningTimeout) :
    (blockUntilSpecificNodesAreKnown addresses allowMissing rounds).isSome = true := by
  induction rounds with
  | nil => simp at h
  | cons round rounds ih =>
      rw [blockUntilSpecificNodesAreKnown]
      split_ifs with hcrashed hknown hrunning htimeout hmissing
      · rfl
      · rfl
      · rfl
      · rfl
      · rfl
      · rcases h with ⟨late, hlate, hseconds⟩
        rcases List.mem_cons.mp hlate with rfl | hlate
        · exact absurd hseconds htimeout
        · exact ih ⟨late, hlate, hseconds⟩

/-- A wait returns because the learner has crashed, or because no more nodes are missing than
it allows. -/
theorem missing_of_blockUntil {rounds : List (WaitRound ν)} {round : WaitRound ν}
    (h : blockUntilSpecificNodesAreKnown addresses allowMissing rounds = some (.ok round)) :
    round ∈ rounds ∧ (round.crashed = true ∨ stillUnknown addresses round.knownNodes = ∅ ∨
      ((stillUnknown addresses round.knownNodes).card : Int) ≤ allowMissing) := by
  induction rounds with
  | nil => simp [blockUntilSpecificNodesAreKnown] at h
  | cons first rounds ih =>
      rw [blockUntilSpecificNodesAreKnown] at h
      split_ifs at h with hcrashed hknown hrunning htimeout hmissing
      · cases h
        exact ⟨List.mem_cons_self, .inl hcrashed⟩
      · cases h
        exact ⟨List.mem_cons_self, .inr (.inl (Finset.sdiff_eq_empty_iff_subset.mpr hknown))⟩
      · cases h
      · cases h
        exact ⟨List.mem_cons_self, .inr (.inr hmissing)⟩
      · cases h
      · rcases ih h with ⟨hmem, hreturned⟩
        exact ⟨List.mem_cons_of_mem _ hmem, hreturned⟩

/-- With a running learning task and no more nodes missing than it allows, a wait does not
raise. -/
theorem blockUntil_ne_error {rounds : List (WaitRound ν)} (error : WaitError)
    (hrunning : ∀ round ∈ rounds, round.learningTaskRunning = true)
    (hmissing : ∀ round ∈ rounds,
      ((stillUnknown addresses round.knownNodes).card : Int) ≤ allowMissing) :
    blockUntilSpecificNodesAreKnown addresses allowMissing rounds ≠ some (.error error) := by
  induction rounds with
  | nil => simp [blockUntilSpecificNodesAreKnown]
  | cons round rounds ih =>
      rw [List.forall_mem_cons] at hrunning hmissing
      rw [blockUntilSpecificNodesAreKnown, hrunning.1, if_pos hmissing.1]
      split_ifs with hcrashed hknown hstopped htimeout
      · simp
      · simp
      · exact hstopped.elim
      · simp
      · exact ih hrunning.2 hmissing.2

/-- With a running learning task and no more nodes missing than it allows, a wait returns when
the timeout has passed. -/
theorem blockUntil_returns {rounds : List (WaitRound ν)}
    (hrunning : ∀ round ∈ rounds, round.learningTaskRunning = true)
    (hmissing : ∀ round ∈ rounds,
      ((stillUnknown addresses round.knownNodes).card : Int) ≤ allowMissing)
    (htimeout : ∃ round ∈ rounds, round.seconds > learningTimeout) :
    ∃ round ∈ rounds,
      blockUntilSpecificNodesAreKnown addresses allowMissing rounds = some (.ok round) := by
  rcases Option.isSome_iff_exists.mp (blockUntil_isSome addresses allowMissing htimeout) with
    ⟨result, hwait⟩
  cases result with
  | ok round => exact ⟨round, (missing_of_blockUntil hwait).1, hwait⟩
  | error error => exact absurd hwait (blockUntil_ne_error error hrunning hmissing)

end NuLink
