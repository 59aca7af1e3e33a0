import Mathlib.Data.String.Basic
import NuLinkCore.Blockchain.Agents.WeightedSampler
import NuLinkCore.Lib.KeyedSet
import NuLinkCore.Policy.Reservoir

/-!
# The stream of a reservoir

The reservoir of a policy is filled with the staking providers that are neither included nor
excluded by hand, and draws them with a weighted sampler.  Its draws are those of a reservoir
that lists the providers in some order beforehand.

Main results:

- Theorem {lit}`StakingProvidersReservoir.exists_order`: the order in which a reservoir draws.
- Theorem {lit}`MergedReservoir.call_refines` and {lit}`PrefetchStrategy.call_refines`: draws and
  batches are those of the listed reservoir.
- Theorem {lit}`make_holds`: the reservoirs of both kinds hold the population without the
  included and excluded addresses.
- Theorem {lit}`reservoir_stream`: what any sequence of batches draws.
-/

namespace NuLink

open Collections

namespace Staking

/-! ## The reservoirs -/

/-- {lit}`StakingProvidersReservoir`, with the number of requests to its random source. -/
structure StakingProvidersReservoir where
  sampler : WeightedSampler ChecksumAddress
  rng : Rng
  requests : Nat

namespace StakingProvidersReservoir

/-- The constructor. -/
def init (rng : Rng) (stakingProviderMap : Dict ChecksumAddress Nat) :
    StakingProvidersReservoir where
  sampler := WeightedSampler.init stakingProviderMap
  rng := rng
  requests := 0

def len (reservoir : StakingProvidersReservoir) : Nat := reservoir.sampler.length

/-- {lit}`draw`. -/
def draw (reservoir : StakingProvidersReservoir) (quantity : Nat) :
    Except SamplingError (List ChecksumAddress × StakingProvidersReservoir) :=
  if quantity > reservoir.len then
    .error (.notEnoughStakingProviders quantity reservoir.len)
  else
    match reservoir.sampler.sampleNoReplacement reservoir.rng reservoir.requests quantity with
    | .error raised => .error raised
    | .ok (samples, sampler) =>
        .ok (samples,
          { reservoir with sampler := sampler, requests := reservoir.requests + quantity })

/-- What a reservoir draws one by one, until it is empty. -/
def Draws (reservoir : StakingProvidersReservoir) : List ChecksumAddress → Prop
  | [] => reservoir.len = 0
  | address :: order =>
      0 < reservoir.len ∧
        ∃ after, reservoir.draw 1 = .ok ([address], after) ∧ after.Draws order

theorem draw_one {reservoir : StakingProvidersReservoir} {rest : List ChecksumAddress}
    (h : reservoir.sampler.Holds rest) (hne : rest ≠ []) :
    ∃ address after rest', reservoir.draw 1 = .ok ([address], after) ∧
      after.sampler.Holds rest' ∧ rest.Perm (address :: rest') := by
  have hpos : 0 < rest.length := List.length_pos_iff.mpr hne
  rcases WeightedSampler.sampleNoReplacement_eq reservoir.rng reservoir.requests 1 h hpos with
    ⟨samples, sampler, rest', hsample, hholds, hcount, hperm⟩
  rcases List.length_eq_one_iff.mp hcount with ⟨address, rfl⟩
  refine ⟨address, { reservoir with sampler := sampler, requests := reservoir.requests + 1 },
    rest', ?_, hholds, hperm⟩
  have hlength : reservoir.len = rest.length := by
    rcases h with ⟨-, -, -, hlength⟩
    exact hlength
  rw [draw, if_neg (by omega), hsample]

/-- The order in which a reservoir draws what it holds. -/
theorem exists_order (reservoir : StakingProvidersReservoir) {rest : List ChecksumAddress}
    (h : reservoir.sampler.Holds rest) : ∃ order, order.Perm rest ∧ reservoir.Draws order := by
  induction hlength : rest.length generalizing reservoir rest with
  | zero =>
      have hnil : rest = [] := List.length_eq_zero_iff.mp hlength
      rcases h with ⟨-, -, -, hlen⟩
      refine ⟨[], by rw [hnil], ?_⟩
      show reservoir.sampler.length = 0
      omega
  | succ n ih =>
      have hne : rest ≠ [] := by
        intro hnil
        rw [hnil] at hlength
        cases hlength
      rcases draw_one h hne with ⟨address, after, rest', hdraw, hafter, hperm⟩
      have hrest : rest'.length = n := by
        have := hperm.length_eq
        rw [List.length_cons] at this
        omega
      rcases ih after hafter hrest with ⟨order, horder, hdraws⟩
      refine ⟨address :: order, (horder.cons address).trans hperm.symm, ?_, after, hdraw, hdraws⟩
      rcases h with ⟨-, -, -, hlen⟩
      show 0 < reservoir.sampler.length
      omega

/-- A reservoir draws in one order only. -/
theorem Draws.unique {reservoir : StakingProvidersReservoir} {first second : List ChecksumAddress}
    (hfirst : reservoir.Draws first) (hsecond : reservoir.Draws second) : first = second := by
  induction first generalizing reservoir second with
  | nil =>
      cases second with
      | nil => rfl
      | cons address second =>
          have hempty : reservoir.len = 0 := hfirst
          have hpos := hsecond.1
          omega
  | cons address first ih =>
      rcases hfirst with ⟨hpos, after, hdraw, hrest⟩
      cases second with
      | nil =>
          have hempty : reservoir.len = 0 := hsecond
          omega
      | cons other second =>
          rcases hsecond with ⟨-, after', hdraw', hrest'⟩
          rw [hdraw, Except.ok.injEq, Prod.mk.injEq, List.cons.injEq] at hdraw'
          rcases hdraw' with ⟨⟨haddress, -⟩, hafter⟩
          rw [← hafter] at hrest'
          rw [haddress, ih hrest hrest']

/-- What a reservoir draws is what it holds. -/
theorem Draws.perm {reservoir : StakingProvidersReservoir} {order rest : List ChecksumAddress}
    (h : reservoir.Draws order) (hholds : reservoir.sampler.Holds rest) : order.Perm rest := by
  rcases exists_order reservoir hholds with ⟨other, hperm, hdraws⟩
  rw [h.unique hdraws]
  exact hperm

end StakingProvidersReservoir

/-- {lit}`MergedReservoir`. -/
structure MergedReservoir where
  values : List ChecksumAddress
  reservoir : StakingProvidersReservoir

namespace MergedReservoir

/-- {lit}`MergedReservoir.__call__`. -/
def call (merged : MergedReservoir) :
    Except SamplingError (Option ChecksumAddress × MergedReservoir) :=
  match merged.values with
  | value :: values => .ok (some value, { merged with values := values })
  | [] =>
      if 0 < merged.reservoir.len then
        match merged.reservoir.draw 1 with
        | .error raised => .error raised
        | .ok ([], _) => .error .indexError
        | .ok (address :: _, reservoir) => .ok (some address, { merged with reservoir := reservoir })
      else
        .ok (none, merged)

/-- A reservoir draws like one that lists its providers beforehand. -/
def Refines (merged : MergedReservoir) (listed : NuLink.MergedReservoir) : Prop :=
  merged.values = listed.values ∧ merged.reservoir.Draws listed.reservoir

theorem call_refines {merged : MergedReservoir} {listed : NuLink.MergedReservoir}
    (h : merged.Refines listed) :
    match listed.draw with
    | none => merged.call = .ok (none, merged)
    | some (address, listed') =>
        ∃ merged', merged.call = .ok (some address, merged') ∧ merged'.Refines listed' := by
  rcases merged with ⟨values, reservoir⟩
  rcases listed with ⟨listedValues, order⟩
  rcases h with ⟨hvalues, hdraws⟩
  cases hvalues
  cases values with
  | cons value values => exact ⟨_, rfl, rfl, hdraws⟩
  | nil =>
      cases order with
      | nil =>
          have hempty : reservoir.len = 0 := hdraws
          simp [NuLink.MergedReservoir.draw, call, hempty]
      | cons address order =>
          rcases hdraws with ⟨hpos, after, hdraw, hafter⟩
          refine ⟨⟨[], after⟩, ?_, rfl, hafter⟩
          simp [call, hpos, hdraw]

end MergedReservoir

/-- {lit}`PrefetchStrategy`. -/
structure PrefetchStrategy where
  reservoir : MergedReservoir
  needSuccesses : Nat

namespace PrefetchStrategy

/-- The loop of {lit}`PrefetchStrategy.__call__`. -/
def drawBatch : Nat → MergedReservoir →
    Except SamplingError (List ChecksumAddress × MergedReservoir)
  | 0, merged => .ok ([], merged)
  | n + 1, merged =>
      match merged.call with
      | .error raised => .error raised
      | .ok (none, merged) => .ok ([], merged)
      | .ok (some value, merged) =>
          match drawBatch n merged with
          | .error raised => .error raised
          | .ok (batch, merged) => .ok (value :: batch, merged)

/-- {lit}`PrefetchStrategy.__call__`. -/
def call (strategy : PrefetchStrategy) (successes : Nat) :
    Except SamplingError (Option (List ChecksumAddress) × PrefetchStrategy) :=
  match drawBatch (strategy.needSuccesses - successes) strategy.reservoir with
  | .error raised => .error raised
  | .ok (batch, reservoir) =>
      .ok (if batch = [] then none else some batch, { strategy with reservoir := reservoir })

/-- A sequence of batches, for the success counts that are passed in. -/
def batches (strategy : PrefetchStrategy) :
    List Nat → Except SamplingError (List (Option (List ChecksumAddress)))
  | [] => .ok []
  | successes :: rest =>
      match strategy.call successes with
      | .error raised => .error raised
      | .ok (batch, strategy) =>
          match strategy.batches rest with
          | .error raised => .error raised
          | .ok results => .ok (batch :: results)

theorem drawBatch_refines (n : Nat) {merged : MergedReservoir} {listed : NuLink.MergedReservoir}
    (h : merged.Refines listed) :
    ∃ merged', drawBatch n merged =
        .ok ((NuLink.PrefetchStrategy.drawBatch n listed).1, merged') ∧
      merged'.Refines (NuLink.PrefetchStrategy.drawBatch n listed).2 := by
  induction n generalizing merged listed with
  | zero => exact ⟨merged, rfl, h⟩
  | succ n ih =>
      have hcall := MergedReservoir.call_refines h
      unfold drawBatch NuLink.PrefetchStrategy.drawBatch
      cases hdraw : listed.draw with
      | none =>
          rw [hdraw] at hcall
          simp only at hcall
          rw [hcall]
          exact ⟨merged, rfl, h⟩
      | some drawn =>
          rcases drawn with ⟨address, listed'⟩
          rw [hdraw] at hcall
          rcases hcall with ⟨merged', hcall, hrefines⟩
          rcases ih hrefines with ⟨merged'', hbatch, hlast⟩
          rw [hcall]
          simp only [hbatch]
          exact ⟨merged'', rfl, hlast⟩

theorem call_refines {strategy : PrefetchStrategy} {listed : NuLink.MergedReservoir}
    (h : strategy.reservoir.Refines listed) (successes : Nat) :
    ∃ strategy', strategy'.needSuccesses = strategy.needSuccesses ∧
      strategy'.reservoir.Refines
        (NuLink.PrefetchStrategy.drawBatch (strategy.needSuccesses - successes) listed).2 ∧
      strategy.call successes = .ok (
        if (NuLink.PrefetchStrategy.drawBatch (strategy.needSuccesses - successes) listed).1 = []
        then none
        else some (NuLink.PrefetchStrategy.drawBatch
          (strategy.needSuccesses - successes) listed).1, strategy') := by
  rcases drawBatch_refines (strategy.needSuccesses - successes) h with ⟨after, hbatch, hafter⟩
  refine ⟨{ strategy with reservoir := after }, rfl, hafter, ?_⟩
  rw [call, hbatch]

end PrefetchStrategy

/-! ## The stream -/

/-- Everything that batches have drawn. -/
def drawn (results : List (Option (List ChecksumAddress))) : List ChecksumAddress :=
  results.flatMap (fun batch => batch.getD [])

/-- Batches draw a stream of addresses from its start, and there is no batch for missing
successes only after all of it was drawn. -/
structure DrawsFrom (stream : List ChecksumAddress) (needSuccesses : Nat) (counts : List Nat)
    (results : List (Option (List ChecksumAddress))) : Prop where
  length_eq : results.length = counts.length
  drawn_prefix : drawn results <+: stream
  exhausted : ∀ (i successes : Nat), counts[i]? = some successes → successes < needSuccesses →
    results[i]? = some none → drawn (results.take i) = stream

theorem remaining_of_draw_none {listed : NuLink.MergedReservoir} (h : listed.draw = none) :
    listed.remaining = [] := by
  rcases listed with ⟨values, order⟩
  cases values with
  | cons value values => simp [NuLink.MergedReservoir.draw] at h
  | nil =>
      cases order with
      | cons address order => simp [NuLink.MergedReservoir.draw] at h
      | nil => rfl

/-- A batch for missing successes is empty only when nothing is left. -/
theorem remaining_of_drawBatch_nil {n : Nat} (hn : 0 < n) {listed : NuLink.MergedReservoir}
    (h : (NuLink.PrefetchStrategy.drawBatch n listed).1 = []) : listed.remaining = [] := by
  cases n with
  | zero => omega
  | succ n =>
      rw [NuLink.PrefetchStrategy.drawBatch] at h
      cases hdraw : listed.draw with
      | none => exact remaining_of_draw_none hdraw
      | some drawn =>
          rw [hdraw] at h
          cases h

theorem PrefetchStrategy.batches_drawsFrom (counts : List Nat) {strategy : PrefetchStrategy}
    {listed : NuLink.MergedReservoir} (h : strategy.reservoir.Refines listed) :
    ∃ results, strategy.batches counts = .ok results ∧
      DrawsFrom listed.remaining strategy.needSuccesses counts results := by
  induction counts generalizing strategy listed with
  | nil =>
      refine ⟨[], rfl, rfl, List.nil_prefix, ?_⟩
      intro i successes hcount
      simp at hcount
  | cons successes counts ih =>
      rcases call_refines h successes with ⟨strategy', hneed, hrefines, hcall⟩
      rcases ih hrefines with ⟨results, hbatches, hrest⟩
      have happend := NuLink.PrefetchStrategy.drawBatch_append
        (strategy.needSuccesses - successes) listed
      set batch := (NuLink.PrefetchStrategy.drawBatch
        (strategy.needSuccesses - successes) listed).1 with hbatch
      have hfirst : (if batch = [] then none else some batch).getD [] = batch := by
        by_cases hnil : batch = []
        · rw [if_pos hnil, hnil]
          rfl
        · rw [if_neg hnil]
          rfl
      refine ⟨(if batch = [] then none else some batch) :: results, ?_, ?_, ?_, ?_⟩
      · rw [batches, hcall]
        simp only [hbatches]
      · rw [List.length_cons, List.length_cons, hrest.length_eq]
      · rw [drawn, List.flatMap_cons, hfirst, ← happend]
        exact (List.prefix_append_right_inj batch).mpr hrest.drawn_prefix
      · intro i count hcount hmissing hnone
        cases i with
        | zero =>
            -- The first batch is empty although successes are missing.
            have hsuccesses : successes = count := by simpa using hcount
            have hnil : batch = [] := by
              by_contra hne
              simp [hne] at hnone
            rw [remaining_of_drawBatch_nil (by omega) hnil]
            rfl
        | succ i =>
            have hlater := hrest.exhausted i count (by simpa using hcount) (by omega)
              (by simpa using hnone)
            rw [List.take_succ_cons, drawn, List.flatMap_cons, hfirst, ← happend]
            exact congrArg (batch ++ ·) hlater

/-! ## Making a reservoir -/

/-- What the contract reports: the total of the tokens, and the stakes of the active
providers. -/
structure ActiveProviders where
  nTokens : Int
  stakes : Dict ChecksumAddress Nat

namespace ActiveProviders

/-- Filter out one address. -/
def remove (active : ActiveProviders) (address : ChecksumAddress) : ActiveProviders :=
  match active.stakes.get? address with
  | none => active
  | some stake => { nTokens := active.nTokens - stake, stakes := active.stakes.erase address }

/-- The stakes are positive, and the total is their sum. -/
structure Consistent (active : ActiveProviders) : Prop where
  positive : ∀ stake ∈ active.stakes.values, 0 < stake
  total : active.nTokens = active.stakes.values.sum

theorem stakes_remove (active : ActiveProviders) (address other : ChecksumAddress) :
    (active.remove address).stakes.get? other =
      if other = address then none else active.stakes.get? other := by
  unfold remove
  cases hstake : active.stakes.get? address with
  | none =>
      by_cases hother : other = address
      · rw [if_pos hother, hother, hstake]
      · rw [if_neg hother]
  | some stake => exact Dict.get?_erase _ _ _

theorem Consistent.remove {active : ActiveProviders} (h : active.Consistent)
    (address : ChecksumAddress) : (active.remove address).Consistent := by
  unfold ActiveProviders.remove
  cases hstake : active.stakes.get? address with
  | none => exact h
  | some stake =>
      have hperm := Dict.values_perm_erase hstake
      constructor
      · intro other hother
        exact h.positive other (hperm.mem_iff.mpr (List.mem_cons_of_mem _ hother))
      · have hsum := hperm.sum_eq
        rw [List.sum_cons] at hsum
        have htotal := h.total
        show active.nTokens - stake = ((active.stakes.erase address).values.sum : Int)
        omega

/-- Filtering out a list of addresses. -/
theorem Consistent.foldl_remove (addresses : List ChecksumAddress) {active : ActiveProviders}
    (h : active.Consistent) :
    (addresses.foldl ActiveProviders.remove active).Consistent ∧
      ∀ other, (addresses.foldl ActiveProviders.remove active).stakes.get? other =
        if other ∈ addresses then none else active.stakes.get? other := by
  induction addresses generalizing active with
  | nil => exact ⟨h, fun other => by simp⟩
  | cons address addresses ih =>
      rcases ih (h.remove address) with ⟨hconsistent, hget⟩
      refine ⟨hconsistent, ?_⟩
      intro other
      rw [List.foldl_cons, hget, stakes_remove]
      by_cases hother : other = address
      · simp [hother]
      · simp [hother]

/-- There are no tokens only when there are no providers. -/
theorem Consistent.nTokens_eq_zero {active : ActiveProviders} (h : active.Consistent)
    (hzero : active.nTokens = 0) : active.stakes = Dict.empty := by
  have hsum : active.stakes.values.sum = 0 := by
    have := h.total
    omega
  have hvalues : active.stakes.values = [] := by
    apply List.eq_nil_iff_forall_not_mem.mpr
    intro stake hstake
    have hpos := h.positive stake hstake
    have hle := List.le_sum_of_mem hstake
    omega
  apply Dict.eq_empty_of_len
  rw [Dict.len, List.length_eq_zero_iff]
  exact List.map_eq_nil_iff.mp hvalues

end ActiveProviders

section Make

variable (listing : Enumeration ChecksumAddress) (rng : Rng)

/-- {lit}`get_staking_provider_reservoir`. -/
def getStakingProviderReservoir (active : ActiveProviders) (without : Finset ChecksumAddress) :
    Except String StakingProvidersReservoir :=
  let filtered := (listing.toList without).foldl ActiveProviders.remove active
  if filtered.nTokens = 0 then
    .error "There are no locked tokens."
  else
    .ok (StakingProvidersReservoir.init rng filtered.stakes)

/-- {lit}`make_decentralized_staking_provider_reservoir`. -/
def makeDecentralizedStakingProviderReservoir (active : ActiveProviders)
    (excludeAddresses includeAddresses : Option (List ChecksumAddress)) : MergedReservoir :=
  let includeAddresses := includeAddresses.getD []
  let withoutSet := includeAddresses.toFinset ∪ (excludeAddresses.getD []).toFinset
  let reservoir :=
    match getStakingProviderReservoir listing rng active withoutSet with
    | .ok reservoir => reservoir
    | .error _ => StakingProvidersReservoir.init rng Dict.empty
  { values := includeAddresses, reservoir := reservoir }

/-- {lit}`make_federated_staker_reservoir`. -/
def makeFederatedStakerReservoir (knownNodes : List ChecksumAddress)
    (excludeAddresses includeAddresses : Option (List ChecksumAddress)) : MergedReservoir :=
  let includeAddresses := includeAddresses.getD []
  let exclusionSet := includeAddresses.toFinset ∪ (excludeAddresses.getD []).toFinset
  let addresses := knownNodes.foldl
    (fun addresses address =>
      if address ∈ exclusionSet then addresses else addresses.set address 1) Dict.empty
  { values := includeAddresses, reservoir := StakingProvidersReservoir.init rng addresses }

/-- Whom a reservoir is made from. -/
inductive Population where
  | federated (knownNodes : List ChecksumAddress)
  | decentralized (active : ActiveProviders) (consistent : active.Consistent)

def Population.addresses : Population → Finset ChecksumAddress
  | .federated knownNodes => knownNodes.toFinset
  | .decentralized active _ => active.stakes.keys.toFinset

/-- The reservoir of a policy. -/
def makeReservoir (population : Population)
    (excludeAddresses includeAddresses : Option (List ChecksumAddress)) : MergedReservoir :=
  match population with
  | .federated knownNodes =>
      makeFederatedStakerReservoir rng knownNodes excludeAddresses includeAddresses
  | .decentralized active _ =>
      makeDecentralizedStakingProviderReservoir listing rng active excludeAddresses
        includeAddresses

end Make

/-- The federated nodes that are not left out have the weight 1. -/
theorem get?_foldl_weights {left : Finset ChecksumAddress} (knownNodes : List ChecksumAddress)
    (addresses : Dict ChecksumAddress Nat) (address : ChecksumAddress) :
    (knownNodes.foldl (fun addresses address =>
        if address ∈ left then addresses else addresses.set address 1) addresses).get? address =
      if address ∈ knownNodes ∧ address ∉ left then some 1 else addresses.get? address := by
  induction knownNodes generalizing addresses with
  | nil => simp
  | cons node knownNodes ih =>
      rw [List.foldl_cons, ih]
      by_cases hnode : address = node
      · by_cases hleft : node ∈ left
        · simp [hnode, hleft]
        · simp [hnode, hleft]
      · by_cases hleft : node ∈ left
        · simp [hnode, hleft]
        · simp [hnode, hleft]

theorem makeFederatedStakerReservoir_holds (rng : Rng) (knownNodes : List ChecksumAddress)
    (excludeAddresses includeAddresses : Option (List ChecksumAddress)) :
    ∃ rest, (makeFederatedStakerReservoir rng knownNodes excludeAddresses
        includeAddresses).reservoir.sampler.Holds rest ∧
      rest.Nodup ∧ ∀ address, address ∈ rest ↔ address ∈ knownNodes ∧
        address ∉ includeAddresses.getD [] ∧ address ∉ excludeAddresses.getD [] := by
  refine ⟨_, WeightedSampler.init_holds ?_, Dict.keys_nodup _, ?_⟩
  · intro weight hweight
    rcases Dict.mem_values_iff_exists.mp hweight with ⟨address, haddress⟩
    rw [get?_foldl_weights] at haddress
    by_cases hmem : address ∈ knownNodes ∧ address ∉
        (includeAddresses.getD []).toFinset ∪ (excludeAddresses.getD []).toFinset
    · rw [if_pos hmem] at haddress
      cases haddress
      exact Nat.one_pos
    · rw [if_neg hmem, Dict.get?_empty] at haddress
      cases haddress
  · intro address
    rw [Dict.mem_keys_iff_contains, Dict.contains, get?_foldl_weights, Dict.get?_empty]
    by_cases hmem : address ∈ knownNodes ∧ address ∉
        (includeAddresses.getD []).toFinset ∪ (excludeAddresses.getD []).toFinset
    · rw [if_pos hmem]
      simpa using hmem
    · rw [if_neg hmem]
      simpa using hmem

/-- Without tokens the reservoir is empty, and so is what it is made from. -/
theorem makeDecentralizedStakingProviderReservoir_eq (listing : Enumeration ChecksumAddress)
    (rng : Rng) {active : ActiveProviders} (h : active.Consistent)
    (excludeAddresses includeAddresses : Option (List ChecksumAddress)) :
    (makeDecentralizedStakingProviderReservoir listing rng active excludeAddresses
        includeAddresses).reservoir =
      StakingProvidersReservoir.init rng ((listing.toList ((includeAddresses.getD []).toFinset ∪
        (excludeAddresses.getD []).toFinset)).foldl ActiveProviders.remove active).stakes := by
  rcases h.foldl_remove (listing.toList ((includeAddresses.getD []).toFinset ∪
    (excludeAddresses.getD []).toFinset)) with ⟨hconsistent, -⟩
  unfold makeDecentralizedStakingProviderReservoir getStakingProviderReservoir
  simp only
  by_cases hzero : ((listing.toList ((includeAddresses.getD []).toFinset ∪
      (excludeAddresses.getD []).toFinset)).foldl ActiveProviders.remove active).nTokens = 0
  · rw [if_pos hzero, hconsistent.nTokens_eq_zero hzero]
  · rw [if_neg hzero]

theorem makeDecentralizedStakingProviderReservoir_holds (listing : Enumeration ChecksumAddress)
    (rng : Rng) {active : ActiveProviders} (h : active.Consistent)
    (excludeAddresses includeAddresses : Option (List ChecksumAddress)) :
    ∃ rest, (makeDecentralizedStakingProviderReservoir listing rng active excludeAddresses
        includeAddresses).reservoir.sampler.Holds rest ∧
      rest.Nodup ∧ ∀ address, address ∈ rest ↔ address ∈ active.stakes.keys ∧
        address ∉ includeAddresses.getD [] ∧ address ∉ excludeAddresses.getD [] := by
  rcases h.foldl_remove (listing.toList ((includeAddresses.getD []).toFinset ∪
    (excludeAddresses.getD []).toFinset)) with ⟨hconsistent, hget⟩
  rw [makeDecentralizedStakingProviderReservoir_eq listing rng h]
  refine ⟨_, WeightedSampler.init_holds hconsistent.positive, Dict.keys_nodup _, ?_⟩
  intro address
  rw [Dict.mem_keys_iff_contains, Dict.contains, hget, Dict.mem_keys_iff_contains, Dict.contains]
  have hlisted : address ∈ listing.toList ((includeAddresses.getD []).toFinset ∪
      (excludeAddresses.getD []).toFinset) ↔
        address ∈ includeAddresses.getD [] ∨ address ∈ excludeAddresses.getD [] := by
    rw [listing.mem_toList, Finset.mem_union, List.mem_toFinset, List.mem_toFinset]
  by_cases hmem : address ∈ listing.toList ((includeAddresses.getD []).toFinset ∪
      (excludeAddresses.getD []).toFinset)
  · rw [if_pos hmem]
    rw [hlisted] at hmem
    simp only [Option.isSome_none, Bool.false_eq_true, false_iff]
    tauto
  · rw [if_neg hmem]
    rw [hlisted] at hmem
    tauto

/-- The reservoirs of both kinds hold the population without the included and excluded
addresses. -/
theorem make_holds (listing : Enumeration ChecksumAddress) (rng : Rng) (population : Population)
    (excludeAddresses includeAddresses : Option (List ChecksumAddress)) :
    ∃ rest, (makeReservoir listing rng population excludeAddresses
        includeAddresses).reservoir.sampler.Holds rest ∧
      rest.Nodup ∧ ∀ address, address ∈ rest ↔ address ∈ population.addresses ∧
        address ∉ includeAddresses.getD [] ∧ address ∉ excludeAddresses.getD [] := by
  cases population with
  | federated knownNodes =>
      simp only [Population.addresses, List.mem_toFinset]
      exact makeFederatedStakerReservoir_holds rng knownNodes excludeAddresses includeAddresses
  | decentralized active consistent =>
      simp only [Population.addresses, List.mem_toFinset]
      exact makeDecentralizedStakingProviderReservoir_holds listing rng consistent
        excludeAddresses includeAddresses

theorem values_makeReservoir (listing : Enumeration ChecksumAddress) (rng : Rng)
    (population : Population) (excludeAddresses includeAddresses : Option (List ChecksumAddress)) :
    (makeReservoir listing rng population excludeAddresses includeAddresses).values =
      includeAddresses.getD [] := by
  cases population with
  | federated knownNodes => rfl
  | decentralized active consistent => rfl

/-- What any sequence of batches draws: the included addresses in their order, and then the
others of the population in some order.  There is no batch for missing successes only after all
of them were drawn. -/
theorem reservoir_stream (listing : Enumeration ChecksumAddress) (rng : Rng)
    (population : Population) (excludeAddresses includeAddresses : Option (List ChecksumAddress))
    (hinclude : (includeAddresses.getD []).Nodup) :
    ∃ order : List ChecksumAddress,
      (order.Nodup ∧ ∀ address, address ∈ order ↔ address ∈ population.addresses ∧
        address ∉ includeAddresses.getD [] ∧ address ∉ excludeAddresses.getD []) ∧
      ∀ (needSuccesses : Nat) (counts : List Nat), ∃ results,
        PrefetchStrategy.batches
            ⟨makeReservoir listing rng population excludeAddresses includeAddresses, needSuccesses⟩
            counts = .ok results ∧
          DrawsFrom (includeAddresses.getD [] ++ order) needSuccesses counts results ∧
          (drawn results).Nodup ∧
          ∀ address ∈ drawn results, address ∈ excludeAddresses.getD [] →
            address ∈ includeAddresses.getD [] := by
  rcases make_holds listing rng population excludeAddresses includeAddresses with
    ⟨rest, hholds, hnodup, hrest⟩
  rcases StakingProvidersReservoir.exists_order _ hholds with ⟨order, hperm, hdraws⟩
  have horder : ∀ address, address ∈ order ↔ address ∈ population.addresses ∧
      address ∉ includeAddresses.getD [] ∧ address ∉ excludeAddresses.getD [] := by
    intro address
    rw [hperm.mem_iff, hrest]
  refine ⟨order, ⟨hperm.nodup_iff.mpr hnodup, horder⟩, ?_⟩
  intro needSuccesses counts
  have hrefines : (PrefetchStrategy.mk (makeReservoir listing rng population excludeAddresses
      includeAddresses) needSuccesses).reservoir.Refines ⟨includeAddresses.getD [], order⟩ :=
    ⟨values_makeReservoir listing rng population excludeAddresses includeAddresses, hdraws⟩
  rcases PrefetchStrategy.batches_drawsFrom counts hrefines with ⟨results, hbatches, hstream⟩
  have hall : (includeAddresses.getD [] ++ order).Nodup := by
    rw [List.nodup_append']
    refine ⟨hinclude, hperm.nodup_iff.mpr hnodup, ?_⟩
    intro address hincluded hordered
    exact ((horder address).mp hordered).2.1 hincluded
  refine ⟨results, hbatches, hstream, hstream.drawn_prefix.sublist.nodup hall, ?_⟩
  intro address haddress hexcluded
  have hmem := hstream.drawn_prefix.subset haddress
  rcases List.mem_append.mp hmem with hincluded | hordered
  · exact hincluded
  · exact absurd hexcluded ((horder address).mp hordered).2.2

/-- Two providers with a stake. -/
def sampleProviders : ActiveProviders where
  nTokens := 70
  stakes := Dict.ofList [("0xA", 30), ("0xB", 40)]

theorem sampleProviders_consistent : sampleProviders.Consistent where
  positive := by decide
  total := by decide

def sampleRng : Rng where
  randint := fun request bound => min request bound
  randint_le := by
    intro request bound
    exact Nat.min_le_right _ _

theorem reservoir_stream_sample :
    ∃ order : List ChecksumAddress,
      (order.Nodup ∧ ∀ address, address ∈ order ↔
        address ∈ (Population.decentralized sampleProviders sampleProviders_consistent).addresses ∧
          address ∉ ["0xC"] ∧ address ∉ ["0xA"]) ∧
      ∀ (needSuccesses : Nat) (counts : List Nat), ∃ results,
        PrefetchStrategy.batches ⟨makeReservoir (Enumeration.sorted _) sampleRng
            (.decentralized sampleProviders sampleProviders_consistent) (some ["0xA"])
            (some ["0xC"]), needSuccesses⟩ counts = .ok results ∧
          DrawsFrom (["0xC"] ++ order) needSuccesses counts results ∧
          (drawn results).Nodup ∧
          ∀ address ∈ drawn results, address ∈ ["0xA"] → address ∈ ["0xC"] :=
  reservoir_stream (Enumeration.sorted _) sampleRng
    (.decentralized sampleProviders sampleProviders_consistent) (some ["0xA"]) (some ["0xC"])
    (by decide)

end Staking

end NuLink
