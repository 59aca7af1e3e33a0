import NuLinkCore.Lib.Dict
import NuLinkCore.Lib.PrefixSums

/-!
# Weighted sampling without replacement

A sampler keeps the running sums of the weights of its elements.  It draws an element with a
random position below the last sum, and takes the weight of that element out of the sums.
Drawn elements stay in the list, with no weight.

Main results:

- Theorem {lit}`WeightedSampler.sampleOne_eq`: a draw finds an element with a weight and sets
  the weight to zero.
- Theorem {lit}`WeightedSampler.sampleNoReplacement_eq`: as long as there are enough elements,
  sampling succeeds and takes what it returns out of them.
- Theorem {lit}`WeightedSampler.init_holds`: a new sampler has all elements with a weight.
-/

namespace NuLink

open Collections PrefixSums

/-- A source of random integers: the answer to a request is at most the bound. -/
structure Rng where
  randint : Nat → Nat → Nat
  randint_le : ∀ request bound, randint request bound ≤ bound

/-- What sampling may raise. -/
inductive SamplingError where
  | notEnoughElements
  | emptyRange
  | indexError
  | notEnoughStakingProviders (quantity available : Nat)
  deriving DecidableEq

/-- {lit}`WeightedSampler`. -/
structure WeightedSampler (α : Type) where
  totals : List Nat
  elements : List α
  length : Nat

namespace WeightedSampler

variable {α : Type}

/-- The constructor. -/
def init (weightedElements : Dict α Nat) : WeightedSampler α where
  totals := accumulate weightedElements.values
  elements := weightedElements.keys
  length := (accumulate weightedElements.values).length

/-- One round of the loop of {lit}`sample_no_replacement`. -/
def sampleOne (rng : Rng) (request : Nat) (sampler : WeightedSampler α) :
    Except SamplingError (α × WeightedSampler α) :=
  match sampler.totals.getLast? with
  | none => .error .indexError
  | some 0 => .error .emptyRange
  | some (bound + 1) =>
      let position := rng.randint request bound
      let idx := bisectRight sampler.totals position
      match sampler.elements[idx]?, sampler.totals[idx]? with
      | some element, some total =>
          let prevTotal := if 0 < idx then sampler.totals.getD (idx - 1) 0 else 0
          let weight := total - prevTotal
          .ok (element, { sampler with totals := subtractFrom idx weight sampler.totals })
      | _, _ => .error .indexError

/-- The loop of {lit}`sample_no_replacement`. -/
def sampleLoop (rng : Rng) :
    Nat → Nat → WeightedSampler α → Except SamplingError (List α × WeightedSampler α)
  | 0, _, sampler => .ok ([], sampler)
  | quantity + 1, request, sampler => do
      let (element, sampler) ← sampleOne rng request sampler
      let (samples, sampler) ← sampleLoop rng quantity (request + 1) sampler
      pure (element :: samples, sampler)

/-- {lit}`sample_no_replacement`. -/
def sampleNoReplacement (rng : Rng) (request quantity : Nat) (sampler : WeightedSampler α) :
    Except SamplingError (List α × WeightedSampler α) :=
  if quantity = 0 then
    .ok ([], sampler)
  else if quantity > sampler.length then
    .error .notEnoughElements
  else
    match sampleLoop rng quantity request sampler with
    | .error raised => .error raised
    | .ok (samples, after) => .ok (samples, { after with length := after.length - quantity })

/-! ## Weights -/

/-- The elements with a weight. -/
def live (elements : List α) (weights : List Nat) : List α :=
  ((elements.zip weights).filter (fun entry => decide (0 < entry.2))).map Prod.fst

theorem live_cons (element : α) (elements : List α) (weight : Nat) (weights : List Nat) :
    live (element :: elements) (weight :: weights) =
      if 0 < weight then element :: live elements weights else live elements weights := by
  by_cases h : 0 < weight
  · simp [live, h]
  · simp [live, h]

/-- Without its weight, an element is taken out of those with a weight. -/
theorem live_set_zero {elements : List α} {weights : List Nat} {index weight : Nat} {element : α}
    (helement : elements[index]? = some element) (hweight : weights[index]? = some weight)
    (hpos : 0 < weight) :
    (live elements weights).Perm (element :: live elements (weights.set index 0)) := by
  induction elements generalizing weights index with
  | nil => simp at helement
  | cons first elements ih =>
      cases weights with
      | nil => simp at hweight
      | cons firstWeight weights =>
          cases index with
          | zero =>
              have hfirst : first = element := by simpa using helement
              have hfirstWeight : firstWeight = weight := by simpa using hweight
              rw [List.set_cons_zero, live_cons, live_cons, if_neg (Nat.lt_irrefl 0), hfirst,
                if_pos (by omega)]
          | succ index =>
              have hperm := ih (by simpa using helement) (by simpa using hweight)
              rw [List.set_cons_succ, live_cons, live_cons]
              by_cases hlive : 0 < firstWeight
              · rw [if_pos hlive, if_pos hlive]
                exact (hperm.cons first).trans (List.Perm.swap element first _)
              · rw [if_neg hlive, if_neg hlive]
                exact hperm

/-- As long as an element has a weight, the total is not zero. -/
theorem sum_pos_of_live {elements : List α} {weights : List Nat}
    (h : live elements weights ≠ []) : 0 < weights.sum := by
  induction elements generalizing weights with
  | nil => simp [live] at h
  | cons element elements ih =>
      cases weights with
      | nil => simp [live] at h
      | cons weight weights =>
          rw [List.sum_cons]
          by_cases hlive : 0 < weight
          · omega
          · rw [live_cons, if_neg hlive] at h
            have := ih h
            omega

/-- When all weights are positive, all elements have one. -/
theorem live_of_pos {elements : List α} {weights : List Nat}
    (hlength : elements.length = weights.length) (hpos : ∀ weight ∈ weights, 0 < weight) :
    live elements weights = elements := by
  induction elements generalizing weights with
  | nil => rfl
  | cons element elements ih =>
      cases weights with
      | nil => simp at hlength
      | cons weight weights =>
          rw [live_cons, if_pos (hpos weight List.mem_cons_self), ih]
          · simpa using hlength
          · intro other hother
            exact hpos other (List.mem_cons_of_mem _ hother)

/-! ## Draws -/

/-- The sums of a sampler are those of the weights of its elements. -/
structure HasWeights (sampler : WeightedSampler α) (weights : List Nat) : Prop where
  totals_eq : sampler.totals = accumulate weights
  length_elements : sampler.elements.length = weights.length

/-- The width that a draw computes from the sums is the weight. -/
theorem width_eq {weights : List Nat} {index weight : Nat}
    (hweight : weights[index]? = some weight) :
    ∃ total, (accumulate weights)[index]? = some total ∧
      total - (if 0 < index then (accumulate weights).getD (index - 1) 0 else 0) = weight := by
  have hindex : index < weights.length := by
    rcases List.getElem?_eq_some_iff.mp hweight with ⟨hindex, -⟩
    exact hindex
  refine ⟨0 + (weights.take (index + 1)).sum, ?_, ?_⟩
  · rw [accumulate, getElem?_accumulateFrom, if_pos hindex]
  · rw [sum_take_succ_sub hweight]
    cases index with
    | zero => simp
    | succ index =>
        rw [if_pos (Nat.succ_pos index), List.getD_eq_getElem?_getD, accumulate,
          getElem?_accumulateFrom, Nat.add_sub_cancel, if_pos (by omega), Option.getD_some]
        omega

/-- A draw finds an element with a weight and sets the weight to zero. -/
theorem sampleOne_eq (rng : Rng) (request : Nat) {sampler : WeightedSampler α}
    {weights : List Nat} (h : sampler.HasWeights weights) (hsum : 0 < weights.sum) :
    ∃ index weight element, weights[index]? = some weight ∧ 0 < weight ∧
      sampler.elements[index]? = some element ∧
      sampleOne rng request sampler =
        .ok (element, { sampler with totals := accumulate (weights.set index 0) }) := by
  have hne : weights ≠ [] := by
    intro hnil
    rw [hnil, List.sum_nil] at hsum
    omega
  obtain ⟨bound, hbound⟩ : ∃ bound, weights.sum = bound + 1 := ⟨weights.sum - 1, by omega⟩
  have hlast : (accumulate weights).getLast? = some (bound + 1) := by
    rw [accumulate, getLast?_accumulateFrom hne, Nat.zero_add, hbound]
  have hposition : rng.randint request bound < weights.sum := by
    have := rng.randint_le request bound
    omega
  rcases exists_weight_bisectRight hposition with ⟨weight, hweight, hpos⟩
  rcases width_eq hweight with ⟨total, htotal, hwidth⟩
  obtain ⟨element, helement⟩ : ∃ element, sampler.elements[bisectRight (accumulate weights)
      (rng.randint request bound)]? = some element := by
    rcases List.getElem?_eq_some_iff.mp hweight with ⟨hindex, -⟩
    exact ⟨_, List.getElem?_eq_getElem (by rw [h.length_elements]; exact hindex)⟩
  refine ⟨_, weight, element, hweight, hpos, helement, ?_⟩
  have hset : subtractFrom (bisectRight (accumulate weights) (rng.randint request bound)) weight
      (accumulate weights) = accumulate (weights.set
        (bisectRight (accumulate weights) (rng.randint request bound)) 0) :=
    subtractFrom_accumulateFrom hweight
  simp only [sampleOne, h.totals_eq, hlast, helement, htotal, hwidth, hset]

theorem sampleLoop_eq (rng : Rng) (quantity request : Nat) {sampler : WeightedSampler α}
    {weights : List Nat} (h : sampler.HasWeights weights)
    (henough : quantity ≤ (live sampler.elements weights).length) :
    ∃ samples after weights', sampleLoop rng quantity request sampler =
        .ok (samples, { sampler with totals := after }) ∧
      { sampler with totals := after }.HasWeights weights' ∧ samples.length = quantity ∧
      (live sampler.elements weights).Perm (samples ++ live sampler.elements weights') := by
  induction quantity generalizing request sampler weights with
  | zero => exact ⟨[], sampler.totals, weights, rfl, h, rfl, List.Perm.refl _⟩
  | succ quantity ih =>
      have hne : live sampler.elements weights ≠ [] := by
        intro hnil
        rw [hnil] at henough
        simp at henough
      rcases sampleOne_eq rng request h (sum_pos_of_live hne) with
        ⟨index, weight, element, hweight, hpos, helement, hone⟩
      have hperm := live_set_zero helement hweight hpos
      have hafter : { sampler with
          totals := accumulate (weights.set index 0) }.HasWeights (weights.set index 0) := by
        constructor
        · rfl
        · rw [List.length_set]
          exact h.length_elements
      have hrest : quantity ≤ (live sampler.elements (weights.set index 0)).length := by
        have hlength := hperm.length_eq
        rw [List.length_cons] at hlength
        omega
      rcases ih (request + 1) hafter hrest with
        ⟨samples, after, weights', hloop, hlast, hcount, hsamples⟩
      refine ⟨element :: samples, after, weights', ?_, hlast, ?_, ?_⟩
      · simp only [sampleLoop, hone, bind, Except.bind]
        rw [hloop]
        rfl
      · rw [List.length_cons, hcount]
      · rw [List.cons_append]
        exact hperm.trans (hsamples.cons element)

/-- What a sampler can still draw. -/
def Holds (sampler : WeightedSampler α) (rest : List α) : Prop :=
  ∃ weights, sampler.HasWeights weights ∧ live sampler.elements weights = rest ∧
    sampler.length = rest.length

/-- As long as there are enough elements, sampling succeeds and takes the samples out of
them. -/
theorem sampleNoReplacement_eq (rng : Rng) (request quantity : Nat)
    {sampler : WeightedSampler α} {rest : List α} (h : sampler.Holds rest)
    (henough : quantity ≤ rest.length) :
    ∃ samples after rest', sampleNoReplacement rng request quantity sampler =
        .ok (samples, after) ∧
      after.Holds rest' ∧ samples.length = quantity ∧ rest.Perm (samples ++ rest') := by
  rcases h with ⟨weights, hweights, hlive, hlength⟩
  unfold sampleNoReplacement
  by_cases hzero : quantity = 0
  · rw [if_pos hzero]
    exact ⟨[], sampler, rest, rfl, ⟨weights, hweights, hlive, hlength⟩, hzero.symm,
      List.Perm.refl _⟩
  · rw [if_neg hzero, if_neg (by omega)]
    rcases sampleLoop_eq rng quantity request hweights (by rw [hlive]; exact henough) with
      ⟨samples, after, weights', hloop, hafter, hcount, hperm⟩
    rw [hloop]
    refine ⟨samples, _, live sampler.elements weights', rfl, ⟨weights', ?_, rfl, ?_⟩, hcount, ?_⟩
    · exact ⟨hafter.totals_eq, hafter.length_elements⟩
    · have hsum := hperm.length_eq
      rw [List.length_append, hcount, hlive] at hsum
      show sampler.length - quantity = _
      omega
    · rw [← hlive]
      exact hperm

/-- A new sampler can draw all its elements when all weights are positive. -/
theorem init_holds {weightedElements : Dict α Nat}
    (h : ∀ weight ∈ weightedElements.values, 0 < weight) :
    (init weightedElements).Holds weightedElements.keys := by
  have hlength : weightedElements.keys.length = weightedElements.values.length := by
    simp [Dict.keys, Dict.values]
  refine ⟨weightedElements.values, ⟨rfl, hlength⟩, live_of_pos hlength h, ?_⟩
  show (accumulate weightedElements.values).length = _
  rw [length_accumulate, hlength]

end WeightedSampler

end NuLink
