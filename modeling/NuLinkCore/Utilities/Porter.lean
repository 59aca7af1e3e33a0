import NuLinkCore.Policy.ReservoirStream
import NuLinkCore.Policy.Sampling

/-!
# Sampling by Porter

Porter pings staking providers from a reservoir in a worker pool until as many answered as are
asked for.  When the pool runs out of addresses or of time, a fixed table of workers in a random
order fills the gap, and what is too many is taken away from the end.

Main results:

- Theorem {lit}`keys_getEnoughUrsulas`: the successes of the pool come first, then workers fill
  the gap.
- Theorem {lit}`PorterSampling.successes_not_excluded`: the pool pings no excluded address.
- Theorem {lit}`porter_contract_iff`: what is returned has the size that is asked for, different
  addresses and all successes, and it keeps to the excluded addresses exactly when no worker
  that fills the gap is excluded.
-/

namespace NuLink

open Collections Execution

namespace Porter

/-! ## Pinging -/

/-- {lit}`Porter.UrsulaInfo`. -/
structure UrsulaInfo (PublicKey : Type) where
  checksumAddress : ChecksumAddress
  uri : String
  encryptingKey : PublicKey

/-- What Porter reads of a node that it knows. -/
structure PorterNode (PublicKey : Type) where
  formalUri : String
  decryptingKey : PublicKey

/-- Why a node is not taken. -/
inductive UrsulaInfoError where
  | notKnown (address : ChecksumAddress)
  | keyError (address : ChecksumAddress)
  | unreachable (address : ChecksumAddress)
  deriving DecidableEq

/-- What a ping meets: the known nodes when it looks for the address and when it reads the
node, and whether the node answers. -/
structure UrsulaInfoInput (PublicKey : Type) where
  atCheck : Dict ChecksumAddress (PorterNode PublicKey)
  atLookup : Dict ChecksumAddress (PorterNode PublicKey)
  answers : Bool

variable {PublicKey : Type}

/-- {lit}`get_ursula_info`, for a checksum address. -/
def getUrsulaInfo (ursulaAddress : ChecksumAddress) (input : UrsulaInfoInput PublicKey) :
    WorkerOutcome (UrsulaInfo PublicKey) UrsulaInfoError :=
  if input.atCheck.contains ursulaAddress then
    match input.atLookup.get? ursulaAddress with
    | none => .raised (.keyError ursulaAddress)
    | some ursula =>
        if input.answers then
          .returned {
            checksumAddress := ursulaAddress
            uri := ursula.formalUri
            encryptingKey := ursula.decryptingKey }
        else
          .raised (.unreachable ursulaAddress)
  else
    .raised (.notKnown ursulaAddress)

theorem getUrsulaInfo_returned {ursulaAddress : ChecksumAddress}
    {input : UrsulaInfoInput PublicKey} {info : UrsulaInfo PublicKey}
    (h : getUrsulaInfo ursulaAddress input = .returned info) :
    info.checksumAddress = ursulaAddress := by
  unfold getUrsulaInfo at h
  by_cases hknown : input.atCheck.contains ursulaAddress = true
  · rw [if_pos hknown] at h
    cases hnode : input.atLookup.get? ursulaAddress with
    | none =>
        rw [hnode] at h
        cases h
    | some ursula =>
        rw [hnode] at h
        by_cases hanswers : input.answers = true
        · simp only [hanswers, if_true] at h
          cases h
          rfl
        · simp only [hanswers] at h
          cases h
  · rw [if_neg hknown] at h
    cases h

/-- The pool of {lit}`get_ursulas`. -/
def porterPool (PublicKey : Type) (quantity : Nat) :
    WorkerPool ChecksumAddress (UrsulaInfo PublicKey) UrsulaInfoError PrefetchStrategy
      (UrsulaInfoInput PublicKey) where
  worker := getUrsulaInfo
  valueFactory := fun strategy successes =>
    (.batch (strategy.draw successes).1, (strategy.draw successes).2)
  targetSuccesses := quantity

theorem porterPool_drawsFrom (quantity : Nat) :
    PoolState.DrawsFrom (porterPool PublicKey quantity)
      (fun strategy => strategy.reservoir.remaining) := by
  intro strategy successes
  exact ⟨_, _, rfl, strategy.draw_perm successes⟩

/-! ## The table of workers -/

/-- The URI and the encrypting key of a worker in {lit}`nulink_workers`. -/
def nulinkWorkers : List (ChecksumAddress × String × String) :=
  [("0x8a4471142f0d635D29BFd2634E1cD8f439677072", "https://8.222.131.226:9151",
      "037f6e0bb9456a0f7093ac1ca3a46365baf401c9d77807a34ccfc3b21862b89d9b"),
    ("0x5058339Ca16a2ef04aFE34aaE507209A67B0c067", "https://8.222.146.98:9151",
      "023dde62beba5e8cceed29b4e96fb1b9d67da06ff53ad0d3ae3e19eb4c5b5c86ae"),
    ("0xC5FD9Ca4Ce6C8BBf0dA3355D8941E411638786C4", "https://8.222.155.168:9151",
      "02d76fa2b7058f6d8e69cd767c54694493ed6c77ebc9a301741045450834763cbf")]

/-- {lit}`get_nulink_workers`: the table, put in a random order. -/
def getNulinkWorkers (keyFromHex : String → PublicKey)
    (shuffle : Reorder (ChecksumAddress × String × String)) :
    Dict ChecksumAddress (UrsulaInfo PublicKey) :=
  Dict.ofList ((shuffle.apply nulinkWorkers).map fun worker =>
    (worker.1, ⟨worker.1, worker.2.1, keyFromHex worker.2.2⟩))

/-- {lit}`get_enough_ursulas`: add all workers to the successes, and take away what is more
than the target. -/
def getEnoughUrsulas (keyFromHex : String → PublicKey)
    (shuffle : Reorder (ChecksumAddress × String × String)) (targetSuccesses : Nat)
    (successes : Dict ChecksumAddress (UrsulaInfo PublicKey)) :
    Dict ChecksumAddress (UrsulaInfo PublicKey) :=
  let enough := successes.update (getNulinkWorkers keyFromHex shuffle)
  Dict.popitems (enough.len - targetSuccesses) enough

/-- The workers that fill the gap. -/
def fillers (shuffle : Reorder (ChecksumAddress × String × String)) (targetSuccesses : Nat)
    (successes : List ChecksumAddress) : List ChecksumAddress :=
  (((shuffle.apply nulinkWorkers).map Prod.fst).filter
    fun address => decide (address ∉ successes)).take (targetSuccesses - successes.length)

theorem keys_getNulinkWorkers (keyFromHex : String → PublicKey)
    (shuffle : Reorder (ChecksumAddress × String × String)) :
    (getNulinkWorkers keyFromHex shuffle).keys = (shuffle.apply nulinkWorkers).map Prod.fst := by
  have hnodup : ((shuffle.apply nulinkWorkers).map Prod.fst).Nodup := by
    rw [((shuffle.perm nulinkWorkers).map Prod.fst).nodup_iff]
    decide
  have hkeys : (((shuffle.apply nulinkWorkers).map fun worker =>
      (worker.1, (⟨worker.1, worker.2.1, keyFromHex worker.2.2⟩ : UrsulaInfo PublicKey))).map
        Prod.fst) = (shuffle.apply nulinkWorkers).map Prod.fst := by
    rw [List.map_map]
    rfl
  rw [getNulinkWorkers, Dict.keys, Dict.entries_ofList, hkeys]
  rw [hkeys]
  exact hnodup

theorem getNulinkWorkers_keyed {keyFromHex : String → PublicKey}
    {shuffle : Reorder (ChecksumAddress × String × String)} {address : ChecksumAddress}
    {info : UrsulaInfo PublicKey}
    (h : (getNulinkWorkers keyFromHex shuffle).get? address = some info) :
    info.checksumAddress = address := by
  have hmem := Dict.mem_of_get?_ofList h
  rcases List.mem_map.mp hmem with ⟨worker, -, heq⟩
  rw [Prod.mk.injEq] at heq
  rw [← heq.2, ← heq.1]

/-- The successes come first, then workers fill the gap. -/
theorem keys_getEnoughUrsulas (keyFromHex : String → PublicKey)
    (shuffle : Reorder (ChecksumAddress × String × String)) {targetSuccesses : Nat}
    {successes : Dict ChecksumAddress (UrsulaInfo PublicKey)}
    (h : successes.len ≤ targetSuccesses) :
    (getEnoughUrsulas keyFromHex shuffle targetSuccesses successes).keys =
      successes.keys ++ fillers shuffle targetSuccesses successes.keys := by
  have htake : ∀ enough : Dict ChecksumAddress (UrsulaInfo PublicKey),
      (Dict.popitems (enough.len - targetSuccesses) enough).keys =
        enough.keys.take targetSuccesses := by
    intro enough
    have hlength : enough.keys.length = enough.len := Dict.length_keys enough
    rw [Dict.keys, Dict.entries_popitems, List.map_take]
    show enough.keys.take _ = _
    by_cases hle : enough.len ≤ targetSuccesses
    · rw [List.take_of_length_le (by omega), List.take_of_length_le (by omega)]
    · congr 1
      omega
  have hlength := Dict.length_keys successes
  rw [getEnoughUrsulas, htake, Dict.keys_update, List.take_append, keys_getNulinkWorkers,
    List.take_of_length_le (by omega), fillers]

/-- All that is returned instead of the successes is under its own address. -/
theorem getEnoughUrsulas_keyed (keyFromHex : String → PublicKey)
    (shuffle : Reorder (ChecksumAddress × String × String)) (targetSuccesses : Nat)
    {successes : Dict ChecksumAddress (UrsulaInfo PublicKey)}
    (hkeyed : ∀ address info, successes.get? address = some info →
      info.checksumAddress = address) (address : ChecksumAddress) (info : UrsulaInfo PublicKey)
    (h : (getEnoughUrsulas keyFromHex shuffle targetSuccesses successes).get? address =
      some info) :
    info.checksumAddress = address := by
  have hmem :
      (address, info) ∈ (successes.update (getNulinkWorkers keyFromHex shuffle)).entries := by
    rw [← Dict.mem_entries_iff, getEnoughUrsulas, Dict.entries_popitems] at h
    exact List.mem_of_mem_take h
  rw [Dict.mem_entries_iff, Dict.get?_update] at hmem
  cases hworker : (getNulinkWorkers keyFromHex shuffle).get? address with
  | some worker =>
      rw [hworker, Option.some_or, Option.some_inj] at hmem
      rw [← hmem]
      exact getNulinkWorkers_keyed hworker
  | none =>
      rw [hworker, Option.none_or] at hmem
      exact hkeyed address info hmem

/-! ## Sampling -/

/-- Why {lit}`get_ursulas` raises.  It never returns without an outcome of the pool. -/
inductive PorterError where
  | unableToLearn
  | producerError (error : UrsulaInfoError)
  | timedOut (failures : Dict ChecksumAddress UrsulaInfoError)
  | outOfValues (failures : Dict ChecksumAddress UrsulaInfoError)
  | blocked

/-- Everything that a call of {lit}`get_ursulas` meets.  The order is the one in which the
reservoir of the call draws. -/
structure PorterSampling (PublicKey : Type) (quantity : Nat) where
  excludeUrsulas : Option (List ChecksumAddress)
  includeUrsulas : Option (List ChecksumAddress)
  learnsEnough : Bool
  listing : Enumeration ChecksumAddress
  rng : Rng
  population : Staking.Population
  order : List ChecksumAddress
  refines : (Staking.makeReservoir listing rng population excludeUrsulas includeUrsulas).Refines
    ⟨includeUrsulas.getD [], order⟩
  attempt : PoolAttempt (porterPool PublicKey quantity)
    ⟨⟨includeUrsulas.getD [], order⟩, quantity⟩
  keyFromHex : String → PublicKey
  shuffle : Reorder (ChecksumAddress × String × String)

namespace PorterSampling

variable {quantity : Nat} (sampling : PorterSampling PublicKey quantity)

/-- {lit}`_make_reservoir` gives up when a federated Porter does not learn of enough nodes. -/
def reservoirMade : Bool :=
  match sampling.population with
  | .federated _ => sampling.learnsEnough
  | .decentralized _ _ => true

/-- The workers that are returned in place of the successes, or the exception. -/
def fallback (raised : PorterError) : Except PorterError (List (UrsulaInfo PublicKey)) :=
  let workers := getEnoughUrsulas sampling.keyFromHex sampling.shuffle quantity
    sampling.attempt.atSuccesses.successes
  if quantity ≤ workers.len then .ok workers.values else .error raised

/-- {lit}`get_ursulas`. -/
def getUrsulas : Except PorterError (List (UrsulaInfo PublicKey)) :=
  if sampling.reservoirMade then
    match PoolState.blockUntilTargetSuccesses sampling.attempt.atCheck sampling.attempt.atGet
        sampling.attempt.atRaise with
    | .producerError error => .error (.producerError error)
    | .returned successes => .ok successes.values
    | .timedOut failures => sampling.fallback (.timedOut failures)
    | .outOfValues failures => sampling.fallback (.outOfValues failures)
    | .blocked => .error .blocked
  else
    .error .unableToLearn

/-- Whether the outcome of the pool is that it reached its target. -/
def reachedTarget : Bool :=
  match sampling.attempt.atGet.targetValue with
  | some (.successes _) => true
  | _ => false

/-- The successes that the fallback finds. -/
def recorded : List ChecksumAddress := sampling.attempt.atSuccesses.successes.keys

/-! ### What the pool records -/

theorem reaches_atGet :
    Reaches (PoolState.step (porterPool PublicKey quantity))
      (PoolState.start ⟨⟨sampling.includeUrsulas.getD [], sampling.order⟩, quantity⟩)
      sampling.attempt.atGet :=
  sampling.attempt.started.trans sampling.attempt.waited

theorem reaches_atSuccesses :
    Reaches (PoolState.step (porterPool PublicKey quantity))
      (PoolState.start ⟨⟨sampling.includeUrsulas.getD [], sampling.order⟩, quantity⟩)
      sampling.attempt.atSuccesses :=
  (sampling.reaches_atGet.trans sampling.attempt.raised).trans sampling.attempt.read

/-- What the reservoir lists is neither included nor excluded by hand. -/
theorem order_not_excluded {address : ChecksumAddress} (h : address ∈ sampling.order) :
    address ∉ sampling.excludeUrsulas.getD [] := by
  rcases Staking.make_holds sampling.listing sampling.rng sampling.population
    sampling.excludeUrsulas sampling.includeUrsulas with ⟨rest, hholds, -, hrest⟩
  have hmem := (sampling.refines.2.perm hholds).mem_iff.mp h
  exact ((hrest address).mp hmem).2.2

/-- A call of the worker that returned is of an address that is not excluded, and gives its
own address. -/
theorem spec_of_ended {state : PoolState ChecksumAddress (UrsulaInfo PublicKey) UrsulaInfoError
      PrefetchStrategy}
    (hreach : Reaches (PoolState.step (porterPool PublicKey quantity))
      (PoolState.start ⟨⟨sampling.includeUrsulas.getD [], sampling.order⟩, quantity⟩) state)
    (hdisjoint : ∀ address ∈ sampling.includeUrsulas.getD [],
      address ∉ sampling.excludeUrsulas.getD [])
    {address : ChecksumAddress} {info : UrsulaInfo PublicKey}
    (hended : (address, .returned info) ∈ state.ended) :
    info.checksumAddress = address ∧ address ∉ sampling.excludeUrsulas.getD [] := by
  constructor
  · rcases PoolState.ended_from_worker hreach address (.returned info) hended with
      ⟨input, houtcome⟩
    exact getUrsulaInfo_returned houtcome.symm
  · -- The address was drawn from what the reservoir lists.
    have hdrawn := PoolState.count_ended_add_remaining_le (porterPool_drawsFrom quantity) hreach
      address
    have hpos : 0 < (state.ended.map Prod.fst).count address :=
      List.count_pos_iff.mpr (List.mem_map.mpr ⟨(address, .returned info), hended, rfl⟩)
    have hmem : address ∈ sampling.includeUrsulas.getD [] ++ sampling.order :=
      List.count_pos_iff.mp (lt_of_lt_of_le hpos (le_trans (Nat.le_add_right _ _) hdrawn))
    rcases List.mem_append.mp hmem with hincluded | hordered
    · exact hdisjoint address hincluded
    · exact sampling.order_not_excluded hordered

/-- What the pool recorded is under its own address. -/
theorem recorded_keyed (address : ChecksumAddress) (info : UrsulaInfo PublicKey)
    (h : sampling.attempt.atSuccesses.successes.get? address = some info) :
    info.checksumAddress = address := by
  have hended := (PoolState.logged sampling.reaches_atSuccesses).successes address info h
  rcases PoolState.ended_from_worker sampling.reaches_atSuccesses address (.returned info)
    hended with ⟨input, houtcome⟩
  exact getUrsulaInfo_returned houtcome.symm

/-- A recorded success is not excluded. -/
theorem successes_not_excluded
    (hdisjoint : ∀ address ∈ sampling.includeUrsulas.getD [],
      address ∉ sampling.excludeUrsulas.getD [])
    {address : ChecksumAddress} (haddress : address ∈ sampling.recorded) :
    address ∉ sampling.excludeUrsulas.getD [] := by
  rcases Dict.mem_keys_iff_exists.mp haddress with ⟨info, hget⟩
  exact (sampling.spec_of_ended sampling.reaches_atSuccesses hdisjoint
    ((PoolState.logged sampling.reaches_atSuccesses).successes address info hget)).2

/-! ### What is returned -/

/-- What a call returns is either the dictionary of a pool that reached its target or what the
fallback finds. -/
theorem getUrsulas_eq_ok {infos : List (UrsulaInfo PublicKey)}
    (h : sampling.getUrsulas = .ok infos) :
    (∃ results, sampling.attempt.atGet.targetValue = some (.successes results) ∧
      infos = results.values) ∨
    (sampling.reachedTarget = false ∧ ∃ raised, sampling.fallback raised = .ok infos) := by
  unfold getUrsulas PoolState.blockUntilTargetSuccesses at h
  by_cases hmade : sampling.reservoirMade = true
  · rw [if_pos hmade] at h
    cases hcheck : sampling.attempt.atCheck.producerError with
    | some error =>
        rw [hcheck] at h
        cases h
    | none =>
        rw [hcheck] at h
        cases htarget : sampling.attempt.atGet.targetValue with
        | none =>
            rw [htarget] at h
            cases h
        | some target =>
            rw [htarget] at h
            cases target with
            | successes results =>
                cases h
                exact Or.inl ⟨results, rfl, rfl⟩
            | timeoutTriggered => exact Or.inr ⟨by rw [reachedTarget, htarget], _, h⟩
            | producerStopped => exact Or.inr ⟨by rw [reachedTarget, htarget], _, h⟩
  · rw [if_neg hmade] at h
    cases h

/-- When the target was reached, the dictionary of the pool is returned. -/
theorem getUrsulas_of_reached (hreached : sampling.reachedTarget = true)
    {infos : List (UrsulaInfo PublicKey)} (h : sampling.getUrsulas = .ok infos) :
    ∃ results, sampling.attempt.atGet.targetValue = some (.successes results) ∧
      infos = results.values := by
  rcases sampling.getUrsulas_eq_ok h with hresults | ⟨hnot, -⟩
  · exact hresults
  · rw [hnot] at hreached
    cases hreached

theorem fallback_eq_ok {raised : PorterError} {infos : List (UrsulaInfo PublicKey)}
    (h : sampling.fallback raised = .ok infos) :
    infos = (getEnoughUrsulas sampling.keyFromHex sampling.shuffle quantity
        sampling.attempt.atSuccesses.successes).values ∧
      quantity ≤ infos.length := by
  unfold fallback at h
  simp only at h
  by_cases henough : quantity ≤ (getEnoughUrsulas sampling.keyFromHex sampling.shuffle quantity
      sampling.attempt.atSuccesses.successes).len
  · rw [if_pos henough] at h
    cases h
    refine ⟨rfl, ?_⟩
    rw [Dict.values, List.length_map]
    exact henough
  · rw [if_neg henough] at h
    cases h

/-- Otherwise the successes and the workers that fill the gap are returned. -/
theorem getUrsulas_of_not_reached (hreached : sampling.reachedTarget = false)
    {infos : List (UrsulaInfo PublicKey)} (h : sampling.getUrsulas = .ok infos) :
    infos = (getEnoughUrsulas sampling.keyFromHex sampling.shuffle quantity
        sampling.attempt.atSuccesses.successes).values ∧
      quantity ≤ infos.length := by
  rcases sampling.getUrsulas_eq_ok h with ⟨results, htarget, -⟩ | ⟨-, raised, hfallback⟩
  · rw [reachedTarget, htarget] at hreached
    cases hreached
  · exact sampling.fallback_eq_ok hfallback

/-- The pool never records more successes than are asked for. -/
theorem length_recorded_le (hquantity : 1 ≤ quantity) :
    sampling.attempt.atSuccesses.successes.len ≤ quantity :=
  PoolState.len_successes_le hquantity sampling.reaches_atSuccesses

end PorterSampling

/-- What a caller of {lit}`get_ursulas` may rely on. -/
structure Contract {quantity : Nat} (sampling : PorterSampling PublicKey quantity)
    (infos : List (UrsulaInfo PublicKey)) : Prop where
  length_eq : infos.length = quantity
  nodup : (infos.map UrsulaInfo.checksumAddress).Nodup
  not_excluded : ∀ address ∈ infos.map UrsulaInfo.checksumAddress,
    address ∉ sampling.excludeUrsulas.getD []
  recorded : sampling.reachedTarget = false → ∀ address ∈ sampling.recorded,
    address ∈ infos.map UrsulaInfo.checksumAddress

section Paths

variable {quantity : Nat} {sampling : PorterSampling PublicKey quantity}
  {infos : List (UrsulaInfo PublicKey)} (h : sampling.getUrsulas = .ok infos)

include h

/-- The successes of a pool that reached its target keep the contract. -/
theorem contract_of_reached
    (hdisjoint : ∀ address ∈ sampling.includeUrsulas.getD [],
      address ∉ sampling.excludeUrsulas.getD [])
    (hreached : sampling.reachedTarget = true) :
    Contract sampling infos := by
  rcases sampling.getUrsulas_of_reached hreached h with ⟨results, htarget, rfl⟩
  rcases (PoolState.logged sampling.reaches_atGet).target results htarget with ⟨hlen, hended⟩
  have hspec : ∀ address info, results.get? address = some info →
      info.checksumAddress = address ∧ address ∉ sampling.excludeUrsulas.getD [] := by
    intro address info hget
    exact sampling.spec_of_ended sampling.reaches_atGet hdisjoint (hended address info hget)
  have hkeys : results.values.map UrsulaInfo.checksumAddress = results.keys :=
    Dict.map_values_eq_keys fun address info hget => (hspec address info hget).1
  constructor
  · rw [Dict.values, List.length_map]
    exact hlen
  · rw [hkeys]
    exact results.keys_nodup
  · rw [hkeys]
    intro address haddress
    rcases Dict.mem_keys_iff_exists.mp haddress with ⟨info, hget⟩
    exact (hspec address info hget).2
  · intro hnot
    rw [hreached] at hnot
    cases hnot

/-- Without the target, the addresses are those of the successes and then of the workers that
fill the gap, and they are all different. -/
theorem addresses_of_not_reached (hquantity : 1 ≤ quantity)
    (hreached : sampling.reachedTarget = false) :
    infos.map UrsulaInfo.checksumAddress =
        sampling.recorded ++ fillers sampling.shuffle quantity sampling.recorded ∧
      (infos.map UrsulaInfo.checksumAddress).Nodup := by
  rcases sampling.getUrsulas_of_not_reached hreached h with ⟨rfl, -⟩
  rw [Dict.map_values_eq_keys (getEnoughUrsulas_keyed sampling.keyFromHex sampling.shuffle quantity
    sampling.recorded_keyed)]
  refine ⟨?_, Dict.keys_nodup _⟩
  exact keys_getEnoughUrsulas _ _ (sampling.length_recorded_le hquantity)

/-- Without the target, the contract is kept exactly when no worker that fills the gap is
excluded. -/
theorem contract_iff_of_not_reached
    (hdisjoint : ∀ address ∈ sampling.includeUrsulas.getD [],
      address ∉ sampling.excludeUrsulas.getD [])
    (hquantity : 1 ≤ quantity) (hreached : sampling.reachedTarget = false) :
    Contract sampling infos ↔
      ∀ address ∈ fillers sampling.shuffle quantity sampling.recorded,
        address ∉ sampling.excludeUrsulas.getD [] := by
  rcases addresses_of_not_reached h hquantity hreached with ⟨haddresses, hnodup⟩
  rcases sampling.getUrsulas_of_not_reached hreached h with ⟨-, henough⟩
  constructor
  · intro hcontract address haddress
    apply hcontract.not_excluded
    rw [haddresses]
    exact List.mem_append_right _ haddress
  · intro hfillers
    constructor
    · have hrecorded : sampling.recorded.length ≤ quantity := by
        rw [PorterSampling.recorded, Dict.length_keys]
        exact sampling.length_recorded_le hquantity
      have hlength := congrArg List.length haddresses
      rw [List.length_map, List.length_append, fillers, List.length_take] at hlength
      omega
    · exact hnodup
    · rw [haddresses]
      intro address haddress
      rcases List.mem_append.mp haddress with hrecorded | hfiller
      · exact sampling.successes_not_excluded hdisjoint hrecorded
      · exact hfillers address hfiller
    · intro _ address haddress
      rw [haddresses]
      exact List.mem_append_left _ haddress

end Paths

/-- What is returned keeps the contract exactly when the pool reached its target, or no worker
that fills the gap is excluded. -/
theorem porter_contract_iff {quantity : Nat} (sampling : PorterSampling PublicKey quantity)
    (hquantity : 1 ≤ quantity)
    (hdisjoint : ∀ address ∈ sampling.includeUrsulas.getD [],
      address ∉ sampling.excludeUrsulas.getD [])
    {infos : List (UrsulaInfo PublicKey)} (h : sampling.getUrsulas = .ok infos) :
    Contract sampling infos ↔
      sampling.reachedTarget = true ∨
        ∀ address ∈ fillers sampling.shuffle quantity sampling.recorded,
          address ∉ sampling.excludeUrsulas.getD [] := by
  cases hreached : sampling.reachedTarget with
  | true =>
      have hcontract := contract_of_reached h hdisjoint hreached
      simp [hcontract]
  | false =>
      rw [contract_iff_of_not_reached h hdisjoint hquantity hreached]
      simp

/-! ## A gap filled with an excluded worker -/

/-- No staking provider is active. -/
def sampleProviders : Staking.ActiveProviders where
  nTokens := 0
  stakes := Dict.empty

theorem sampleProviders_consistent : sampleProviders.Consistent where
  positive := by decide
  total := by decide

/-- A pool that has no values ends at once. -/
def idleActions : List (PoolAction (UrsulaInfoInput Nat)) :=
  List.replicate 3 .producer ++ List.replicate 6 .processor ++ [.timeout, .timeout]

/-- One node is asked for, and none is active. -/
def sampleSampling (excludeUrsulas : Option (List ChecksumAddress)) :
    PorterSampling Nat 1 where
  excludeUrsulas := excludeUrsulas
  includeUrsulas := none
  learnsEnough := true
  listing := Enumeration.sorted _
  rng := Staking.sampleRng
  population := .decentralized sampleProviders sampleProviders_consistent
  order := []
  refines := by
    rcases Staking.make_holds (Enumeration.sorted _) Staking.sampleRng
      (.decentralized sampleProviders sampleProviders_consistent) excludeUrsulas none with
      ⟨rest, ⟨-, -, -, hlength⟩, -, hrest⟩
    have hnil : rest = [] := by
      apply List.eq_nil_iff_forall_not_mem.mpr
      intro address haddress
      have hactive := ((hrest address).mp haddress).1
      simp [Staking.Population.addresses, sampleProviders] at hactive
    rw [hnil] at hlength
    exact ⟨rfl, hlength⟩
  attempt := PoolAttempt.ofRun _ _ idleActions rfl
  keyFromHex := String.length
  shuffle := Reorder.identity

theorem porter_contract_iff_sample :
    ∃ infos, (sampleSampling none).getUrsulas = .ok infos ∧
      (Contract (sampleSampling none) infos ↔
        (sampleSampling none).reachedTarget = true ∨
          ∀ address ∈ fillers (sampleSampling none).shuffle 1 (sampleSampling none).recorded,
            address ∉ (sampleSampling none).excludeUrsulas.getD []) := by
  refine ⟨_, rfl, porter_contract_iff (sampleSampling none) (le_refl 1) ?_ rfl⟩
  intro address haddress
  cases haddress

/-- Without an active provider, a worker is returned although all workers are excluded. -/
theorem excluded_worker_returned :
    ∃ infos, (sampleSampling (some (nulinkWorkers.map Prod.fst))).getUrsulas = .ok infos ∧
      infos.map UrsulaInfo.checksumAddress = ["0x8a4471142f0d635D29BFd2634E1cD8f439677072"] ∧
      ¬ Contract (sampleSampling (some (nulinkWorkers.map Prod.fst))) infos := by
  refine ⟨_, rfl, rfl, ?_⟩
  intro hcontract
  have hexcluded := hcontract.not_excluded "0x8a4471142f0d635D29BFd2634E1cD8f439677072"
    List.mem_cons_self
  apply hexcluded
  exact List.mem_cons_self

end Porter

end NuLink
