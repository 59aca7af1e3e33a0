import NuLinkCore.Lib.Dict
import NuLinkCore.Network.NodeMetadata

/-!
# Enumerating the staking providers

The agent asks the contract for its active staking providers page by page.  A page that times
out is asked for again with half the size, and the next page starts where the last one that was
answered ended.

Main results:

- Theorem {lit}`collect_append`: what two parts of the list report is what they report together.
- Theorem {lit}`enumerate_eq`: the loop over the pages collects the whole list.
- Theorem {lit}`paginated_eq_unpaginated`: whenever the enumeration by pages returns, it returns
  what a single request for all providers does.
-/

namespace NuLink

open Collections

namespace Agents

/-- An entry of the list of staking providers on chain. -/
structure StakingProvider where
  address : Nat
  authorizedTokens : Nat
  active : Bool
  deriving DecidableEq

/-- What is collected of the active providers. -/
structure Collected where
  nTokens : Nat
  stakingProviders : Dict Nat Nat

/-- What the agent raises. -/
inductive AgentError where
  | invalidPaginationSize
  | requestFailed (message : String)
  | addressTooBig
  deriving DecidableEq

/-! ## The requests -/

/-- The active entries of a part of the list, as the contract lists them. -/
def activeEntries (providers : List StakingProvider) : List (Nat × Nat) :=
  (providers.filter StakingProvider.active).map
    fun provider => (provider.address, provider.authorizedTokens)

/-- The answer of {lit}`getActiveStakingProviders`, where no maximum means all. -/
def getActiveStakingProviders (chain : List StakingProvider) (startIndex maxResults : Nat) :
    Nat × List (Nat × Nat) :=
  let listed :=
    if maxResults = 0 then chain.drop startIndex else (chain.drop startIndex).take maxResults
  (((activeEntries listed).map Prod.snd).sum, activeEntries listed)

/-- Whether {lit}`'timeout'` is in the message. -/
def mentionsTimeout (message : String) : Bool :=
  decide (['t', 'i', 'm', 'e', 'o', 'u', 't'] <:+: message.toList)

/-- Add the answer to a request to what was collected before. -/
def Collected.add (collected : Collected) (answer : Nat × List (Nat × Nat)) : Collected where
  nTokens := collected.nTokens + answer.1
  stakingProviders := collected.stakingProviders.update (Dict.ofList answer.2)

/-! ## The enumeration -/

section Enumerate

variable (chain : List StakingProvider) (failures : Nat → Option String)

/-- The loop over the pages.  The requests are counted, and may each fail with a message. -/
def enumerate (paginationSize : Nat) (hsize : 0 < paginationSize) (startIndex attempts : Nat)
    (collected : Collected) : Except AgentError Collected :=
  if startIndex < chain.length then
    match failures (attempts + 1) with
    | some message =>
        if mentionsTimeout message = false then
          .error (.requestFailed message)
        else if hretry : paginationSize = 1 ∨ 3 ≤ attempts + 1 then
          .error (.requestFailed message)
        else
          enumerate (paginationSize / 2) (by omega) startIndex (attempts + 1) collected
    | none =>
        enumerate paginationSize hsize (startIndex + paginationSize) (attempts + 1)
          (collected.add (getActiveStakingProviders chain startIndex paginationSize))
  else
    .ok collected
termination_by chain.length - startIndex + paginationSize

/-- The providers before they are typed: by pages of a positive size, and at once otherwise.
Request 0 asks how many providers there are. -/
def collectStakingProviders (paginationSize : Int) : Except AgentError Collected :=
  if hsize : 0 < paginationSize then
    match failures 0 with
    | some message => .error (.requestFailed message)
    | none => enumerate chain failures paginationSize.toNat (by omega) 0 0 ⟨0, Dict.empty⟩
  else
    match failures 1 with
    | some message => .error (.requestFailed message)
    | none =>
        .ok ⟨(getActiveStakingProviders chain 0 0).1,
          Dict.ofList (getActiveStakingProviders chain 0 0).2⟩

/-- An address of 20 bytes as a checksum address. -/
def checksumAddress (toChecksumAddress : Nat → ChecksumAddress) (address : Nat) :
    Except AgentError ChecksumAddress :=
  if address < 2 ^ 160 then .ok (toChecksumAddress address) else .error .addressTooBig

/-- The typed providers, one after the other. -/
def typedStakingProviders (toChecksumAddress : Nat → ChecksumAddress) :
    List (Nat × Nat) → Dict ChecksumAddress Nat → Except AgentError (Dict ChecksumAddress Nat)
  | [], typed => .ok typed
  | (address, tokens) :: rest, typed =>
      match checksumAddress toChecksumAddress address with
      | .error raised => .error raised
      | .ok checksum => typedStakingProviders toChecksumAddress rest (typed.set checksum tokens)

/-- {lit}`get_all_active_staking_providers`. -/
def getAllActiveStakingProviders (toChecksumAddress : Nat → ChecksumAddress)
    (defaultPaginationSize : Int) (paginationSize : Option Int) :
    Except AgentError (Nat × Dict ChecksumAddress Nat) :=
  if ∃ size ∈ paginationSize, size < 0 then
    .error .invalidPaginationSize
  else
    match collectStakingProviders chain failures (paginationSize.getD defaultPaginationSize) with
    | .error raised => .error raised
    | .ok collected =>
        match typedStakingProviders toChecksumAddress collected.stakingProviders.entries
            Dict.empty with
        | .error raised => .error raised
        | .ok typed => .ok (collected.nTokens, typed)

end Enumerate

/-! ## What is collected -/

/-- What a part of the list reports. -/
def collect (providers : List StakingProvider) : Collected where
  nTokens := ((activeEntries providers).map Prod.snd).sum
  stakingProviders := Dict.ofList (activeEntries providers)

theorem activeEntries_append (first second : List StakingProvider) :
    activeEntries (first ++ second) = activeEntries first ++ activeEntries second := by
  simp [activeEntries]

/-- Two parts of the list report together what they report one after the other. -/
theorem collect_append (first second : List StakingProvider) :
    (collect first).add (((activeEntries second).map Prod.snd).sum, activeEntries second) =
      collect (first ++ second) := by
  simp [collect, Collected.add, activeEntries_append, Dict.update_ofList_ofList]

/-- A page extends what was collected of the entries before it. -/
theorem collect_page (chain : List StakingProvider) {startIndex maxResults : Nat}
    (hmax : 0 < maxResults) :
    (collect (chain.take startIndex)).add
        (getActiveStakingProviders chain startIndex maxResults) =
      collect (chain.take (startIndex + maxResults)) := by
  have hpage : getActiveStakingProviders chain startIndex maxResults =
      (((activeEntries ((chain.drop startIndex).take maxResults)).map Prod.snd).sum,
        activeEntries ((chain.drop startIndex).take maxResults)) := by
    simp only [getActiveStakingProviders, if_neg (Nat.ne_of_gt hmax)]
  rw [hpage, collect_append, List.take_add]

/-- From any page on, the loop collects the whole list, whatever the sizes of the pages. -/
theorem enumerate_eq {chain : List StakingProvider} {failures : Nat → Option String}
    {paginationSize : Nat} {hsize : 0 < paginationSize} {startIndex attempts : Nat}
    {collected result : Collected} (hcollected : collected = collect (chain.take startIndex))
    (h : enumerate chain failures paginationSize hsize startIndex attempts collected =
      .ok result) :
    result = collect chain := by
  fun_induction enumerate chain failures paginationSize hsize startIndex attempts collected with
  | case1 => cases h
  | case2 => cases h
  | case3 paginationSize hsize startIndex attempts collected hlt message hmessage _ _ ih =>
      exact ih hcollected h
  | case4 paginationSize hsize startIndex attempts collected hlt hanswered ih =>
      apply ih _ h
      rw [hcollected, collect_page chain hsize]
  | case5 paginationSize hsize startIndex attempts collected hdone =>
      cases h
      rw [hcollected, List.take_of_length_le (Nat.not_lt.mp hdone)]

theorem collectStakingProviders_eq {chain : List StakingProvider}
    {failures : Nat → Option String} {paginationSize : Int} {result : Collected}
    (h : collectStakingProviders chain failures paginationSize = .ok result) :
    result = collect chain := by
  unfold collectStakingProviders at h
  by_cases hsize : 0 < paginationSize
  · rw [dif_pos hsize] at h
    cases hfirst : failures 0 with
    | some message =>
        rw [hfirst] at h
        cases h
    | none =>
        rw [hfirst] at h
        exact enumerate_eq rfl h
  · rw [dif_neg hsize] at h
    cases hfirst : failures 1 with
    | some message =>
        rw [hfirst] at h
        cases h
    | none =>
        rw [hfirst] at h
        cases h
        rfl

/-- A single request for all providers collects the whole list. -/
theorem collectStakingProviders_zero (chain : List StakingProvider) :
    collectStakingProviders chain (fun _ => none) 0 = .ok (collect chain) :=
  rfl

/-- Whenever the enumeration by pages returns, whichever requests timed out, it returns what a
single request for all providers does. -/
theorem paginated_eq_unpaginated (chain : List StakingProvider)
    (failures : Nat → Option String) (toChecksumAddress : Nat → ChecksumAddress)
    (defaultPaginationSize : Int) {paginationSize : Int} (hsize : 1 ≤ paginationSize)
    {result : Nat × Dict ChecksumAddress Nat}
    (h : getAllActiveStakingProviders chain failures toChecksumAddress defaultPaginationSize
      (some paginationSize) = .ok result) :
    getAllActiveStakingProviders chain (fun _ => none) toChecksumAddress defaultPaginationSize
      (some 0) = .ok result := by
  have hvalid : ¬ ∃ size ∈ some paginationSize, size < 0 := by
    simp only [Option.mem_def, Option.some.injEq, exists_eq_left', not_lt]
    omega
  have hzero : ¬ ∃ size ∈ some (0 : Int), size < 0 := by simp
  unfold getAllActiveStakingProviders at h ⊢
  rw [if_neg hvalid, Option.getD_some] at h
  rw [if_neg hzero, Option.getD_some, collectStakingProviders_zero]
  cases hcollected : collectStakingProviders chain failures paginationSize with
  | error raised =>
      rw [hcollected] at h
      cases h
  | ok collected =>
      rw [hcollected, collectStakingProviders_eq hcollected] at h
      exact h

/-! ## A page that times out -/

def sampleChain : List StakingProvider :=
  [⟨1, 30, true⟩, ⟨2, 50, false⟩, ⟨3, 40, true⟩]

/-- The first page of two times out. -/
theorem paginated_eq_unpaginated_sample :
    ∃ result, getAllActiveStakingProviders sampleChain
        (fun request => if request = 1 then some "Read timeout" else none)
        (fun address => toString address) 1000 (some 2) = .ok result ∧
      getAllActiveStakingProviders sampleChain (fun _ => none) (fun address => toString address)
        1000 (some 0) = .ok result := by
  obtain ⟨result, hresult⟩ : ∃ result, getAllActiveStakingProviders sampleChain
      (fun request => if request = 1 then some "Read timeout" else none)
      (fun address => toString address) 1000 (some 2) = .ok result := by
    have hok : (getAllActiveStakingProviders sampleChain
        (fun request => if request = 1 then some "Read timeout" else none)
        (fun address => toString address) 1000 (some 2)).isOk = true := by decide +kernel
    cases hresult : getAllActiveStakingProviders sampleChain
        (fun request => if request = 1 then some "Read timeout" else none)
        (fun address => toString address) 1000 (some 2) with
    | ok result => exact ⟨result, rfl⟩
    | error raised =>
        rw [hresult] at hok
        cases hok
  exact ⟨result, hresult, paginated_eq_unpaginated _ _ _ _ (by decide) hresult⟩

end Agents

end NuLink
