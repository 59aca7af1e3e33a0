import NuLinkCore.Policy.Kits
import NuLinkCore.Policy.Reservoir
import NuLinkCore.Utilities.WorkerPool.Attempt

/-!
# Sampling the nodes of a policy

A policy pings nodes from its reservoir in a worker pool until there are as many successes as
it has key fragments.  When the pool runs out of addresses or of time, known nodes from a fixed
list of workers fill the gap, unpinged.  The nodes that Alice knows change while she samples,
so every look at them is an input; that a node is known under its own address is part of the
type.

Main results:

- Theorem {lit}`addKnownWorkers_len`: filling the gap never exceeds it.
- Theorem {lit}`sample_spec`: a sample has as many nodes as the policy has shares, with
  different addresses.
-/

namespace NuLink

open Collections Execution

/-! ## Known nodes -/

/-- A node that Alice knows.  It is a {lit}`NodeSprout` until it has matured into an
{lit}`Ursula`. -/
structure KnownNode (PublicKey : Type) where
  canonicalAddress : CanonicalAddress
  encryptingKey : PublicKey
  isMature : Bool
deriving DecidableEq

namespace KnownNode

variable {PublicKey : Type}

def checksumAddress (codec : AddressCodec) (node : KnownNode PublicKey) : ChecksumAddress :=
  codec.toChecksumAddress node.canonicalAddress

def mature (node : KnownNode PublicKey) : KnownNode PublicKey := { node with isMature := true }

/-- {lit}`public_keys(DecryptingPower)`, which a {lit}`NodeSprout` does not have. -/
def decryptingKey (node : KnownNode PublicKey) : Option PublicKey :=
  if node.isMature then some node.encryptingKey else none

end KnownNode

/-- The nodes that Alice knows at some moment, each under its own address. -/
structure KnownNodes (codec : AddressCodec) (PublicKey : Type) where
  nodes : Dict ChecksumAddress (KnownNode PublicKey)
  keyed : ∀ address node, nodes.get? address = some node → node.checksumAddress codec = address

/-! ## Pinging -/

/-- Why a ping fails. -/
inductive PingError where
  | notKnown (address : ChecksumAddress)
  | keyError (address : ChecksumAddress)
  | middleware
  | unavailable (statusCode : Nat)
deriving DecidableEq

/-- What a ping meets: the known nodes when it looks for the address and when it reads the
node, and the status code unless the middleware raises. -/
structure PingInput (codec : AddressCodec) (PublicKey : Type) where
  atCheck : KnownNodes codec PublicKey
  atLookup : KnownNodes codec PublicKey
  statusCode : Option Nat

/-- {lit}`Policy._ping_node`.  The middleware lets the node mature before it asks it. -/
def pingNode {codec : AddressCodec} {PublicKey : Type} (address : ChecksumAddress)
    (input : PingInput codec PublicKey) : WorkerOutcome (KnownNode PublicKey) PingError :=
  if input.atCheck.nodes.contains address then
    match input.atLookup.nodes.get? address with
    | none => .raised (.keyError address)
    | some ursula =>
        match input.statusCode with
        | none => .raised .middleware
        | some statusCode =>
            if statusCode = 200 then .returned ursula.mature else .raised (.unavailable statusCode)
  else
    .raised (.notKnown address)

theorem pingNode_returned {codec : AddressCodec} {PublicKey : Type} {address : ChecksumAddress}
    {input : PingInput codec PublicKey} {node : KnownNode PublicKey}
    (h : pingNode address input = .returned node) :
    node.checksumAddress codec = address ∧ node.isMature = true := by
  unfold pingNode at h
  split at h
  · split at h
    · simp at h
    · rename_i ursula hget
      split at h
      · simp at h
      · split at h
        · have heq : ursula.mature = node := by simpa using h
          subst heq
          exact ⟨input.atLookup.keyed address ursula hget, rfl⟩
        · simp at h
  · simp at h

/-- The pool of {lit}`Policy._sample`. -/
def samplingPool (codec : AddressCodec) (PublicKey : Type) (shares : Nat) :
    WorkerPool ChecksumAddress (KnownNode PublicKey) PingError PrefetchStrategy
      (PingInput codec PublicKey) where
  worker := pingNode
  valueFactory := fun strategy successes =>
    (.batch (strategy.draw successes).1, (strategy.draw successes).2)
  targetSuccesses := shares

/-! ## Filling the gap -/

/-- The addresses of {lit}`Porter.get_nulink_worker_addresses`. -/
def nulinkWorkerAddresses : List ChecksumAddress :=
  ["0x8a4471142f0d635D29BFd2634E1cD8f439677072", "0x5058339Ca16a2ef04aFE34aaE507209A67B0c067",
    "0xC5FD9Ca4Ce6C8BBf0dA3355D8941E411638786C4"]

/-- One round of the loop over the workers: the address, and the known nodes when the loop
looks for it and when it reads the node. -/
structure FallbackRound (codec : AddressCodec) (PublicKey : Type) where
  address : ChecksumAddress
  atCheck : KnownNodes codec PublicKey
  atLookup : KnownNodes codec PublicKey

/-- The loop of {lit}`Policy.get_enough_ursulas`; it raises when a node is forgotten between
the two looks. -/
def addKnownWorkers {codec : AddressCodec} {PublicKey : Type} :
    Int → List (FallbackRound codec PublicKey) → Dict ChecksumAddress (KnownNode PublicKey) →
      Option (Dict ChecksumAddress (KnownNode PublicKey))
  | _, [], ursulas => some ursulas
  | needToSuccesses, round :: rounds, ursulas =>
      if needToSuccesses ≤ 0 then
        some ursulas
      else if ursulas.contains round.address then
        addKnownWorkers needToSuccesses rounds ursulas
      else if !round.atCheck.nodes.contains round.address then
        addKnownWorkers needToSuccesses rounds ursulas
      else
        match round.atLookup.nodes.get? round.address with
        | none => none
        | some ursula =>
            addKnownWorkers (needToSuccesses - 1) rounds (ursulas.set round.address ursula)

def getEnoughUrsulas {codec : AddressCodec} {PublicKey : Type} (targetSuccesses : Nat)
    (rounds : List (FallbackRound codec PublicKey))
    (successes : Dict ChecksumAddress (KnownNode PublicKey)) :
    Option (Dict ChecksumAddress (KnownNode PublicKey)) :=
  addKnownWorkers (targetSuccesses - successes.len) rounds successes

/-- Filling the gap never exceeds it. -/
theorem addKnownWorkers_len {codec : AddressCodec} {PublicKey : Type} {need : Int}
    {rounds : List (FallbackRound codec PublicKey)}
    {ursulas filled : Dict ChecksumAddress (KnownNode PublicKey)}
    (h : addKnownWorkers need rounds ursulas = some filled) :
    (filled.len : Int) ≤ ursulas.len + max need 0 := by
  fun_induction addKnownWorkers need rounds ursulas with
  | case1 need ursulas =>
      have heq : ursulas = filled := by simpa using h
      subst heq
      omega
  | case2 need round rounds ursulas hneed =>
      have heq : ursulas = filled := by simpa using h
      subst heq
      omega
  | case3 need round rounds ursulas hneed hin ih => exact ih h
  | case4 need round rounds ursulas hneed hin hunknown ih => exact ih h
  | case5 => simp at h
  | case6 need round rounds ursulas hneed hnot hknown ursula hget ih =>
      have hbound := ih h
      have hnew : round.address ∉ ursulas.keys := by
        rwa [Dict.mem_keys_iff_contains]
      rw [Dict.len_set, if_neg hnew] at hbound
      omega

/-- Every node of the filled gap is known under its own address. -/
theorem addKnownWorkers_keyed {codec : AddressCodec} {PublicKey : Type} {need : Int}
    {rounds : List (FallbackRound codec PublicKey)}
    {ursulas filled : Dict ChecksumAddress (KnownNode PublicKey)}
    (h : addKnownWorkers need rounds ursulas = some filled)
    (hkeyed : ∀ address node, ursulas.get? address = some node →
      node.checksumAddress codec = address) :
    ∀ address node, filled.get? address = some node → node.checksumAddress codec = address := by
  fun_induction addKnownWorkers need rounds ursulas with
  | case1 need ursulas =>
      have heq : ursulas = filled := by simpa using h
      exact heq ▸ hkeyed
  | case2 need round rounds ursulas hneed =>
      have heq : ursulas = filled := by simpa using h
      exact heq ▸ hkeyed
  | case3 need round rounds ursulas hneed hin ih => exact ih h hkeyed
  | case4 need round rounds ursulas hneed hin hunknown ih => exact ih h hkeyed
  | case5 => simp at h
  | case6 need round rounds ursulas hneed hnot hknown ursula hget ih =>
      apply ih h
      intro address node hnode
      rw [Dict.get?_set] at hnode
      by_cases heq : address = round.address
      · rw [if_pos heq, Option.some.injEq] at hnode
        rw [← hnode, heq]
        exact round.atLookup.keyed _ _ hget
      · rw [if_neg heq] at hnode
        exact hkeyed address node hnode

/-! ## Sampling -/

/-- Why {lit}`Policy._sample` raises: not enough nodes are learned of, the reservoir cannot be
made, the producer of the pool failed, a worker was forgotten, or too few nodes are left. -/
inductive SampleError where
  | notEnoughNodes
  | reservoir
  | producerError (error : PingError)
  | keyError
  | notEnoughUrsulas (selected : List ChecksumAddress)
      (unavailable : List (ChecksumAddress × PingError))

/-- Everything that a call of {lit}`Policy._sample` meets. -/
structure Sampling (codec : AddressCodec) (PublicKey : Type) (shares : Nat) where
  handpickedAddresses : List ChecksumAddress
  learnsEnough : Bool
  reservoir : Option (List ChecksumAddress)
  attempt : PoolAttempt (samplingPool codec PublicKey shares)
    ⟨⟨handpickedAddresses, reservoir.getD []⟩, shares⟩
  rounds : List (FallbackRound codec PublicKey)
  rounds_perm : (rounds.map FallbackRound.address).Perm nulinkWorkerAddresses

namespace Sampling

variable {codec : AddressCodec} {PublicKey : Type} {shares : Nat}

/-- The successes of the pool, or the filled gap when it ran out of addresses or time. -/
def successes (sampling : Sampling codec PublicKey shares) :
    Except SampleError (Dict ChecksumAddress (KnownNode PublicKey)) :=
  match PoolState.blockUntilTargetSuccesses sampling.attempt.atCheck sampling.attempt.atGet
      sampling.attempt.atRaise with
  | .producerError error => .error (.producerError error)
  | .returned successes => .ok successes
  | _ =>
      match getEnoughUrsulas shares sampling.rounds sampling.attempt.atSuccesses.successes with
      | none => .error .keyError
      | some ursulas => .ok ursulas

/-- {lit}`Policy._sample`. -/
def sample (sampling : Sampling codec PublicKey shares) :
    Except SampleError (List (KnownNode PublicKey)) :=
  if sampling.learnsEnough then
    if sampling.reservoir.isSome then
      match sampling.successes with
      | .error error => .error error
      | .ok successes =>
          -- Joining the pool raises the error of its producer.
          match sampling.attempt.atEnd.producerError with
          | some error => .error (.producerError error)
          | none =>
              if successes.len < shares then
                .error (.notEnoughUrsulas
                  (successes.values.map (KnownNode.checksumAddress codec))
                  sampling.attempt.atEnd.failures.entries)
              else
                .ok successes.values
    else
      .error .reservoir
  else
    .error .notEnoughNodes

/-- The pool never has more successes than shares; without shares it draws nothing. -/
theorem len_successes_le (sampling : Sampling codec PublicKey shares) :
    sampling.attempt.atSuccesses.successes.len ≤ shares := by
  have hreach := ((sampling.attempt.started.trans sampling.attempt.waited).trans
    sampling.attempt.raised).trans sampling.attempt.read
  rcases Nat.eq_zero_or_pos shares with hzero | hpos
  · subst hzero
    apply le_of_eq
    refine PoolState.successes_eq_empty (fun f => f.needSuccesses = 0) rfl ?_ hreach
    intro f n hdry
    refine ⟨(f.draw n).2, ?_, hdry⟩
    simp only [samplingPool, PrefetchStrategy.draw_of_enough (hdry ▸ Nat.zero_le n)]
  · have hle : _ ≤ (samplingPool codec PublicKey shares).targetSuccesses :=
      PoolState.len_successes_le hpos hreach
    exact hle

theorem keyed_of_ended (sampling : Sampling codec PublicKey shares)
    {state : PoolState ChecksumAddress (KnownNode PublicKey) PingError PrefetchStrategy}
    (hreach : Reaches (PoolState.step (samplingPool codec PublicKey shares))
      (PoolState.start ⟨⟨sampling.handpickedAddresses, sampling.reservoir.getD []⟩, shares⟩) state)
    {address : ChecksumAddress} {node : KnownNode PublicKey}
    (hended : (address, .returned node) ∈ state.ended) : node.checksumAddress codec = address := by
  rcases PoolState.ended_from_worker hreach address (.returned node) hended with ⟨input, houtcome⟩
  exact (pingNode_returned houtcome.symm).1

/-- The successes are at most as many as the shares, each under its own address. -/
theorem successes_spec (sampling : Sampling codec PublicKey shares)
    {successes : Dict ChecksumAddress (KnownNode PublicKey)}
    (h : sampling.successes = .ok successes) :
    successes.len ≤ shares ∧
    ∀ address node, successes.get? address = some node → node.checksumAddress codec = address := by
  have hgetReach := sampling.attempt.started.trans sampling.attempt.waited
  have hreadReach := (hgetReach.trans sampling.attempt.raised).trans sampling.attempt.read
  unfold Sampling.successes at h
  split at h
  · simp at h
  · rename_i results hblock
    have htarget : sampling.attempt.atGet.targetValue = some (.successes results) := by
      unfold PoolState.blockUntilTargetSuccesses at hblock
      split at hblock
      · simp at hblock
      · split at hblock <;> simp_all
    have heq : results = successes := by simpa using h
    subst heq
    have hlogged := (PoolState.logged hgetReach).target results htarget
    exact ⟨le_of_eq hlogged.1, fun address node hget =>
      sampling.keyed_of_ended hgetReach (hlogged.2 address node hget)⟩
  · split at h
    · simp at h
    · rename_i filled hfilled
      have heq : filled = successes := by simpa using h
      subst heq
      have hgap := addKnownWorkers_len hfilled
      have hle := sampling.len_successes_le
      refine ⟨by omega, addKnownWorkers_keyed hfilled ?_⟩
      intro address node hget
      exact sampling.keyed_of_ended hreadReach
        ((PoolState.logged hreadReach).successes address node hget)

end Sampling

/-- A sample has as many nodes as the policy has shares, with different addresses. -/
theorem sample_spec {codec : AddressCodec} {PublicKey : Type} {shares : Nat}
    {sampling : Sampling codec PublicKey shares} {ursulas : List (KnownNode PublicKey)}
    (h : sampling.sample = .ok ursulas) :
    ursulas.length = shares ∧ (ursulas.map (KnownNode.checksumAddress codec)).Nodup := by
  unfold Sampling.sample at h
  split at h
  · split at h
    · split at h
      · simp at h
      · rename_i successes hsuccesses
        split at h
        · simp at h
        · split at h
          · simp at h
          · rename_i henough
            have heq : successes.values = ursulas := by simpa using h
            subst heq
            rcases sampling.successes_spec hsuccesses with ⟨hle, hkeyed⟩
            rw [Dict.map_values_eq_keys hkeyed]
            refine ⟨?_, successes.keys_nodup⟩
            rw [Dict.values, List.length_map]
            exact le_antisymm hle (not_lt.mp henough)
    · simp at h
  · simp at h

end NuLink
