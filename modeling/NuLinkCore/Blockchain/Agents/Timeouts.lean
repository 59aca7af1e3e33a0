import NuLinkCore.Blockchain.Agents.Pagination

/-!
# A single timeout

The loop over the pages counts its requests, those that were answered among them, and raises
the first timeout from the third request on.  A timeout of an earlier request makes it halve
the size of the pages and go on.

Main results:

- Theorem {lit}`enumerate_answered`: with all further requests answered the loop collects the
  whole list.
- Theorem {lit}`enumerate_singleTimeout_iff`: when the loop survives a single timeout.
- Theorem {lit}`single_timeout_returns_iff`: exactly when the enumeration returns although one
  of its requests timed out.
-/

namespace NuLink

open Collections

namespace Agents

/-- One request fails with a message, and all others are answered. -/
def singleTimeout (position : Nat) (message : String) (request : Nat) : Option String :=
  if request = position then some message else none

/-! ## The loop -/

/-- With all further requests answered the loop collects the whole list. -/
theorem enumerate_answered {chain : List StakingProvider} {failures : Nat → Option String}
    {paginationSize : Nat} {hsize : 0 < paginationSize} {startIndex attempts : Nat}
    {collected : Collected} (hanswered : ∀ request, attempts < request → failures request = none) :
    ∃ result, enumerate chain failures paginationSize hsize startIndex attempts collected =
      .ok result := by
  fun_induction enumerate chain failures paginationSize hsize startIndex attempts collected with
  | case1 paginationSize hsize startIndex attempts collected hlt message hmessage =>
      rw [hanswered _ (Nat.lt_succ_self attempts)] at hmessage
      cases hmessage
  | case2 paginationSize hsize startIndex attempts collected hlt message hmessage =>
      rw [hanswered _ (Nat.lt_succ_self attempts)] at hmessage
      cases hmessage
  | case3 paginationSize hsize startIndex attempts collected hlt message hmessage =>
      rw [hanswered _ (Nat.lt_succ_self attempts)] at hmessage
      cases hmessage
  | case4 paginationSize hsize startIndex attempts collected hlt hnone ih =>
      exact ih fun request hrequest => hanswered request (by omega)
  | case5 paginationSize hsize startIndex attempts collected hdone => exact ⟨collected, rfl⟩

/-- Before the request that times out, the loop survives exactly if that request is one of the
first two, or the list ends before it. -/
theorem enumerate_singleTimeout_iff {chain : List StakingProvider} {position : Nat}
    {message : String} (hmessage : mentionsTimeout message = true) {paginationSize : Nat}
    {hsize : 0 < paginationSize} (hmany : 1 < paginationSize) {startIndex attempts : Nat}
    {collected : Collected} (hbefore : attempts < position) :
    (∃ result, enumerate chain (singleTimeout position message) paginationSize hsize startIndex
        attempts collected = .ok result) ↔
      position ≤ 2 ∨
        chain.length ≤ startIndex + (position - attempts - 1) * paginationSize := by
  induction hdistance : position - attempts - 1 generalizing startIndex attempts collected with
  | zero =>
      have hposition : attempts + 1 = position := by omega
      rw [enumerate, Nat.zero_mul, Nat.add_zero startIndex]
      by_cases hlt : startIndex < chain.length
      · have hfailed : singleTimeout position message (attempts + 1) = some message :=
          if_pos hposition
        simp only [if_pos hlt, hfailed, hmessage, Bool.true_eq_false, if_false]
        by_cases hretry : paginationSize = 1 ∨ 3 ≤ attempts + 1
        · rw [dif_pos hretry]
          constructor
          · rintro ⟨result, hresult⟩
            cases hresult
          · rintro (hearly | hdone)
            · omega
            · omega
        · rw [dif_neg hretry]
          constructor
          · intro _
            omega
          · intro _
            refine enumerate_answered ?_
            intro request hrequest
            rw [singleTimeout, if_neg (by omega)]
      · rw [if_neg hlt]
        exact ⟨fun _ => Or.inr (Nat.not_lt.mp hlt), fun _ => ⟨collected, rfl⟩⟩
  | succ distance ih =>
      have hother : attempts + 1 ≠ position := by omega
      rw [enumerate]
      by_cases hlt : startIndex < chain.length
      · have hanswered : singleTimeout position message (attempts + 1) = none := if_neg hother
        simp only [if_pos hlt, hanswered]
        rw [ih (by omega) (by omega), Nat.succ_mul]
        constructor
        · rintro (hearly | hdone)
          · exact Or.inl hearly
          · exact Or.inr (by omega)
        · rintro (hearly | hdone)
          · exact Or.inl hearly
          · exact Or.inr (by omega)
      · rw [if_neg hlt]
        refine ⟨fun _ => Or.inr ?_, fun _ => ⟨collected, rfl⟩⟩
        exact (Nat.not_lt.mp hlt).trans (Nat.le_add_right _ _)

/-! ## The enumeration -/

/-- Addresses of 20 bytes can be typed. -/
theorem typedStakingProviders_isOk (toChecksumAddress : Nat → ChecksumAddress)
    {entries : List (Nat × Nat)} (haddresses : ∀ entry ∈ entries, entry.1 < 2 ^ 160)
    (typed : Dict ChecksumAddress Nat) :
    ∃ result, typedStakingProviders toChecksumAddress entries typed = .ok result := by
  induction entries generalizing typed with
  | nil => exact ⟨typed, rfl⟩
  | cons entry entries ih =>
      rw [List.forall_mem_cons] at haddresses
      rw [typedStakingProviders, checksumAddress, if_pos haddresses.1]
      exact ih haddresses.2 _

/-- What is collected has addresses of the list. -/
theorem exists_of_mem_collect {chain : List StakingProvider} {entry : Nat × Nat}
    (h : entry ∈ (collect chain).stakingProviders.entries) :
    ∃ provider ∈ chain, provider.address = entry.1 := by
  have hkey : entry.1 ∈ (collect chain).stakingProviders.keys := List.mem_map_of_mem h
  rw [collect, Dict.mem_keys_ofList] at hkey
  rcases List.mem_map.mp hkey with ⟨active, hactive, haddress⟩
  rcases List.mem_map.mp hactive with ⟨provider, hprovider, rfl⟩
  exact ⟨provider, (List.mem_filter.mp hprovider).1, haddress⟩

/-- When one request times out and all others are answered, the enumeration returns exactly if
that request is the first or second one for a page, or is not made at all. -/
theorem single_timeout_returns_iff (chain : List StakingProvider)
    (haddresses : ∀ provider ∈ chain, provider.address < 2 ^ 160)
    (toChecksumAddress : Nat → ChecksumAddress) (defaultPaginationSize : Int)
    (paginationSize : Option Int) (hsize : 1 < paginationSize.getD defaultPaginationSize)
    (position : Nat) (hposition : 1 ≤ position) (message : String)
    (hmessage : mentionsTimeout message = true) :
    (∃ result, getAllActiveStakingProviders chain (singleTimeout position message)
        toChecksumAddress defaultPaginationSize paginationSize = .ok result) ↔
      position ≤ 2 ∨ chain.length ≤
        (position - 1) * (paginationSize.getD defaultPaginationSize).toNat := by
  have hvalid : ¬ ∃ size ∈ paginationSize, size < 0 := by
    rintro ⟨size, hmem, hnegative⟩
    rw [Option.mem_def.mp hmem, Option.getD_some] at hsize
    omega
  have hfirst : singleTimeout position message 0 = none := if_neg (by omega)
  have hpositive : 0 < paginationSize.getD defaultPaginationSize := by omega
  have hloop := @enumerate_singleTimeout_iff chain position message hmessage
    (paginationSize.getD defaultPaginationSize).toNat (by omega) (by omega) 0 0
    ⟨0, Dict.empty⟩ (by omega)
  rw [Nat.zero_add, Nat.sub_zero] at hloop
  rw [← hloop, getAllActiveStakingProviders, if_neg hvalid, collectStakingProviders,
    dif_pos hpositive]
  simp only [hfirst]
  cases hcollected : enumerate chain (singleTimeout position message)
      (paginationSize.getD defaultPaginationSize).toNat (by omega) 0 0 ⟨0, Dict.empty⟩ with
  | error raised => simp
  | ok collected =>
      have hentries : ∀ entry ∈ collected.stakingProviders.entries, entry.1 < 2 ^ 160 := by
        intro entry hentry
        rw [enumerate_eq rfl hcollected] at hentry
        rcases exists_of_mem_collect hentry with ⟨provider, hprovider, haddress⟩
        exact haddress ▸ haddresses provider hprovider
      rcases typedStakingProviders_isOk toChecksumAddress hentries Dict.empty with
        ⟨typed, htyped⟩
      simp [htyped]

/-- Five providers, in pages of two. -/
def fiveProviders : List StakingProvider :=
  [⟨1, 10, true⟩, ⟨2, 10, true⟩, ⟨3, 10, true⟩, ⟨4, 10, true⟩, ⟨5, 10, true⟩]

/-- The timeout of the last page is raised. -/
theorem third_timeout_raised :
    (getAllActiveStakingProviders fiveProviders (singleTimeout 3 "Read timeout")
        (fun address => toString address) 1000 (some 2)).isOk = false ∧
      (getAllActiveStakingProviders fiveProviders (fun _ => none)
        (fun address => toString address) 1000 (some 2)).isOk = true := by
  decide +kernel

/-- The timeout of the second page is not. -/
theorem single_timeout_returns_iff_second :
    ∃ result, getAllActiveStakingProviders fiveProviders (singleTimeout 2 "Read timeout")
      (fun address => toString address) 1000 (some 2) = .ok result :=
  (single_timeout_returns_iff fiveProviders (by decide) (fun address => toString address) 1000
    (some 2) (by decide) 2 (by decide) "Read timeout" (by decide)).mpr (Or.inl (Nat.le_refl 2))

end Agents

end NuLink
