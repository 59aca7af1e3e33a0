import NuLinkCore.Blockchain.Agents.WeightedSampler

/-!
# Runs of a sampler

The calls of a sampler share its running sums.  Whatever the calls and whatever they have drawn,
an element that is left is selected by as many positions as its weight is large, and a drawn
element by none.

Main results:

- Theorem {lit}`WeightedSampler.sampleLoop_eq_drawUpTo` and
  {lit}`WeightedSampler.SamplingRun.call_natCast`: the draws and the calls of a run are those of
  {lit}`sample_no_replacement`.
- Theorem {lit}`WeightedSampler.Drew.sampleOne_drew`: what a draw does to the weights.
- Theorem {lit}`WeightedSampler.sampling_exact`: sampling is exact in every run.
-/

namespace NuLink

open Collections PrefixSums

namespace WeightedSampler

variable {α : Type}

/-! ## Calls -/

/-- What draws one after the other have drawn, up to the first that raises. -/
structure Drawing (α : Type) where
  samples : List α
  raised : Option SamplingError
  after : WeightedSampler α

/-- The loop of {lit}`sample_no_replacement`, with the sampler that it leaves. -/
def drawUpTo (rng : Rng) : Nat → Nat → WeightedSampler α → Drawing α
  | 0, _, sampler => ⟨[], none, sampler⟩
  | quantity + 1, request, sampler =>
      match sampleOne rng request sampler with
      | .error raised => ⟨[], some raised, sampler⟩
      | .ok (element, after) =>
          let rest := drawUpTo rng quantity (request + 1) after
          { rest with samples := element :: rest.samples }

/-- The loop raises what its draws raise, and returns what they draw. -/
theorem sampleLoop_eq_drawUpTo (rng : Rng) (quantity request : Nat) (sampler : WeightedSampler α) :
    sampleLoop rng quantity request sampler =
      match (drawUpTo rng quantity request sampler).raised with
      | some raised => .error raised
      | none => .ok ((drawUpTo rng quantity request sampler).samples,
          (drawUpTo rng quantity request sampler).after) := by
  induction quantity generalizing request sampler with
  | zero => rfl
  | succ quantity ih =>
      rw [sampleLoop, drawUpTo]
      cases hone : sampleOne rng request sampler with
      | error raised => rfl
      | ok drawn =>
          rcases drawn with ⟨element, after⟩
          simp only [bind, Except.bind, ih]
          cases (drawUpTo rng quantity (request + 1) after).raised with
          | none => rfl
          | some raised => rfl

theorem length_samples_drawUpTo {rng : Rng} {quantity request : Nat} {sampler : WeightedSampler α}
    (h : (drawUpTo rng quantity request sampler).raised = none) :
    (drawUpTo rng quantity request sampler).samples.length = quantity := by
  induction quantity generalizing request sampler with
  | zero => rfl
  | succ quantity ih =>
      rw [drawUpTo] at h ⊢
      cases hone : sampleOne rng request sampler with
      | error raised =>
          rw [hone] at h
          cases h
      | ok one =>
          rcases one with ⟨element, after⟩
          rw [hone] at h
          exact congrArg (· + 1) (ih h)

/-- A sampler after some calls: the requests to its random source, all that the calls have
drawn, and what each call returned or raised. -/
structure SamplingRun (α : Type) where
  sampler : WeightedSampler α
  requests : Nat
  drawn : List α
  outcomes : List (Except SamplingError (List α))

namespace SamplingRun

/-- Before the first call. -/
def start (sampler : WeightedSampler α) : SamplingRun α where
  sampler := sampler
  requests := 0
  drawn := []
  outcomes := []

/-- {lit}`sample_no_replacement` with any integer.  A negative quantity draws nothing, and a call
that raises in its loop leaves the sums as its draws have left them. -/
def call (rng : Rng) (run : SamplingRun α) (quantity : Int) : SamplingRun α :=
  if quantity = 0 then
    { run with outcomes := run.outcomes ++ [.ok []] }
  else if quantity > run.sampler.length then
    { run with outcomes := run.outcomes ++ [.error .notEnoughElements] }
  else
    let drawing := drawUpTo rng quantity.toNat run.requests run.sampler
    match drawing.raised with
    | some raised =>
        { sampler := drawing.after
          requests := run.requests + drawing.samples.length
          drawn := run.drawn ++ drawing.samples
          outcomes := run.outcomes ++ [.error raised] }
    | none =>
        { sampler :=
            { drawing.after with length := ((drawing.after.length : Int) - quantity).toNat }
          requests := run.requests + drawing.samples.length
          drawn := run.drawn ++ drawing.samples
          outcomes := run.outcomes ++ [.ok drawing.samples] }

/-- Any calls, from a new sampler on. -/
def calls (rng : Rng) (weightedElements : Dict α Nat) (quantities : List Int) : SamplingRun α :=
  quantities.foldl (call rng) (start (init weightedElements))

/-- What a call has returned, which is nothing when it has raised. -/
def samplesOf : Except SamplingError (List α) → List α
  | .ok samples => samples
  | .error _ => []

/-- All that the calls have returned. -/
def samples (run : SamplingRun α) : List α := run.outcomes.flatMap samplesOf

/-- With a natural quantity, a call is {lit}`sample_no_replacement`. -/
theorem call_natCast (rng : Rng) (run : SamplingRun α) (quantity : Nat) :
    (run.call rng quantity).outcomes = run.outcomes ++
        [(sampleNoReplacement rng run.requests quantity run.sampler).map Prod.fst] ∧
      ∀ samples after, sampleNoReplacement rng run.requests quantity run.sampler =
        .ok (samples, after) → (run.call rng quantity).sampler = after := by
  unfold call sampleNoReplacement
  by_cases hzero : quantity = 0
  · rw [if_pos (by omega), if_pos hzero]
    refine ⟨rfl, ?_⟩
    intro samples after h
    rw [Except.ok.injEq, Prod.mk.injEq] at h
    exact h.2
  · rw [if_neg (by omega), if_neg hzero]
    by_cases hmany : quantity > run.sampler.length
    · rw [if_pos (by omega), if_pos hmany]
      exact ⟨rfl, by intro samples after h; cases h⟩
    · rw [if_neg (by omega), if_neg hmany, sampleLoop_eq_drawUpTo, Int.toNat_natCast]
      cases hraised : (drawUpTo rng quantity run.requests run.sampler).raised with
      | some raised =>
          simp only [hraised]
          exact ⟨rfl, by intro samples after h; cases h⟩
      | none =>
          simp only [hraised]
          refine ⟨rfl, ?_⟩
          intro samples after h
          rw [Except.ok.injEq, Prod.mk.injEq] at h
          rw [← h.2]
          have hlength : (((drawUpTo rng quantity run.requests run.sampler).after.length : Int) -
              quantity).toNat =
                (drawUpTo rng quantity run.requests run.sampler).after.length - quantity := by
            omega
          simp only [hlength]

end SamplingRun

/-! ## Weights that are left -/

/-- The position of an element in the keys is its only one. -/
theorem keys_getElem?_inj {weightedElements : Dict α Nat} {first second : Nat} {element : α}
    (hfirst : weightedElements.keys[first]? = some element)
    (hsecond : weightedElements.keys[second]? = some element) : first = second := by
  rcases List.getElem?_eq_some_iff.mp hfirst with ⟨hlt, -⟩
  exact (List.getElem?_inj hlt weightedElements.keys_nodup).mp (hfirst.trans hsecond.symm)

variable [DecidableEq α]

/-- The sum of the weights that are left. -/
def remaining (weightedElements : Dict α Nat) (drawn : List α) : Nat :=
  ((weightedElements.entries.filter (fun entry => decide (entry.1 ∉ drawn))).map Prod.snd).sum

/-- The weights, with those of the drawn elements set to zero. -/
def weightsAfter (weightedElements : Dict α Nat) (drawn : List α) : List Nat :=
  weightedElements.entries.map fun entry => if entry.1 ∈ drawn then 0 else entry.2

@[simp]
theorem length_weightsAfter (weightedElements : Dict α Nat) (drawn : List α) :
    (weightsAfter weightedElements drawn).length = weightedElements.len := by
  rw [weightsAfter, List.length_map, Dict.len]

theorem sum_weightsAfter (weightedElements : Dict α Nat) (drawn : List α) :
    (weightsAfter weightedElements drawn).sum = remaining weightedElements drawn := by
  unfold weightsAfter remaining
  induction weightedElements.entries with
  | nil => rfl
  | cons entry entries ih =>
      rw [List.map_cons, List.sum_cons, ih]
      by_cases hdrawn : entry.1 ∈ drawn
      · rw [if_pos hdrawn, List.filter_cons_of_neg (by simpa using hdrawn), Nat.zero_add]
      · rw [if_neg hdrawn, List.filter_cons_of_pos (by simpa using hdrawn), List.map_cons,
          List.sum_cons]

@[simp]
theorem weightsAfter_nil (weightedElements : Dict α Nat) :
    weightsAfter weightedElements [] = weightedElements.values := by
  simp [weightsAfter, Dict.values]

theorem getElem?_weightsAfter {weightedElements : Dict α Nat} {index weight : Nat} {element : α}
    (h : weightedElements.entries[index]? = some (element, weight)) (drawn : List α) :
    (weightsAfter weightedElements drawn)[index]? =
      some (if element ∈ drawn then 0 else weight) := by
  rw [weightsAfter, List.getElem?_map, h, Option.map_some]

/-- Setting the weight of an element to zero is drawing it. -/
theorem weightsAfter_set {weightedElements : Dict α Nat} {index : Nat} {element : α}
    (h : weightedElements.keys[index]? = some element) (drawn : List α) :
    (weightsAfter weightedElements drawn).set index 0 =
      weightsAfter weightedElements (drawn ++ [element]) := by
  apply List.ext_getElem?
  intro other
  rw [List.getElem?_set]
  cases hentry : weightedElements.entries[other]? with
  | none =>
      have hlength := List.getElem?_eq_none_iff.mp hentry
      have hout : ∀ drawn, (weightsAfter weightedElements drawn)[other]? = none := by
        intro drawn
        rw [weightsAfter, List.getElem?_map, hentry, Option.map_none]
      rw [hout, hout, length_weightsAfter, Dict.len]
      by_cases hother : index = other
      · rw [if_pos hother, if_neg (by omega)]
      · rw [if_neg hother]
  | some entry =>
      rcases entry with ⟨key, weight⟩
      have hkey : weightedElements.keys[other]? = some key := by
        rw [Dict.keys, List.getElem?_map, hentry, Option.map_some]
      have hlt : other < weightedElements.entries.length := by
        rcases List.getElem?_eq_some_iff.mp hentry with ⟨hlt, -⟩
        exact hlt
      rw [getElem?_weightsAfter hentry, getElem?_weightsAfter hentry, length_weightsAfter, Dict.len]
      by_cases hother : index = other
      · rw [hother, hkey, Option.some.injEq] at h
        rw [if_pos hother, if_pos (by omega), h,
          if_pos (List.mem_append_right drawn List.mem_cons_self)]
      · have hne : key ≠ element := by
          intro heq
          rw [heq] at hkey
          exact hother (keys_getElem?_inj h hkey)
        have hmem : key ∈ drawn ++ [element] ↔ key ∈ drawn := by simp [hne]
        rw [if_neg hother]
        simp only [hmem]

/-- As long as not all elements are drawn, there is weight left. -/
theorem sum_weightsAfter_pos {weightedElements : Dict α Nat} {drawn : List α}
    (hpos : ∀ weight ∈ weightedElements.values, 0 < weight)
    (h : drawn.length < weightedElements.len) : 0 < (weightsAfter weightedElements drawn).sum := by
  obtain ⟨element, hkey, hleft⟩ : ∃ element ∈ weightedElements.keys, element ∉ drawn := by
    by_contra hall
    push Not at hall
    have hle := (List.subperm_of_subset weightedElements.keys_nodup hall).length_le
    rw [Dict.length_keys] at hle
    omega
  rcases List.mem_map.mp hkey with ⟨entry, hentry, rfl⟩
  have hmem : entry.2 ∈ weightsAfter weightedElements drawn :=
    List.mem_map.mpr ⟨entry, hentry, if_neg hleft⟩
  have hweight := hpos entry.2 (List.mem_map_of_mem hentry)
  have hle := List.le_sum_of_mem hmem
  omega

/-- The element that a position selects. -/
def selected (sampler : WeightedSampler α) (position : Nat) : Option α :=
  sampler.elements[bisectRight sampler.totals position]?

/-- The positions below the last sum that select an element. -/
def positionsOf (sampler : WeightedSampler α) (element : α) : Finset Nat :=
  (Finset.range (sampler.totals.getLast?.getD 0)).filter
    (fun position => sampler.selected position = some element)

omit [DecidableEq α] in
theorem sampleOne_selected {rng : Rng} {request : Nat} {sampler after : WeightedSampler α}
    {element : α} (h : sampleOne rng request sampler = .ok (element, after)) :
    ∃ bound, sampler.totals.getLast? = some (bound + 1) ∧
      sampler.selected (rng.randint request bound) = some element := by
  unfold sampleOne at h
  split at h
  · cases h
  · cases h
  · rename_i bound hlast
    refine ⟨bound, hlast, ?_⟩
    rw [selected]
    dsimp only at h
    split at h
    · rename_i helement htotal
      rw [Except.ok.injEq, Prod.mk.injEq] at h
      rw [helement, h.1]
    · cases h

/-! ## Draws -/

/-- A sampler after the draws of some elements. -/
structure Drew (weightedElements : Dict α Nat) (drawn : List α) (sampler : WeightedSampler α) :
    Prop where
  elements_eq : sampler.elements = weightedElements.keys
  totals_eq : sampler.totals = accumulate (weightsAfter weightedElements drawn)
  drawn_keys : ∀ element ∈ drawn, element ∈ weightedElements.keys
  nodup : drawn.Nodup

namespace Drew

variable {weightedElements : Dict α Nat} {drawn : List α} {sampler : WeightedSampler α}

theorem init_drew (weightedElements : Dict α Nat) : Drew weightedElements [] (init weightedElements)
    where
  elements_eq := rfl
  totals_eq := by rw [weightsAfter_nil]; rfl
  drawn_keys := by simp
  nodup := List.nodup_nil

theorem hasWeights (h : Drew weightedElements drawn sampler) :
    sampler.HasWeights (weightsAfter weightedElements drawn) where
  totals_eq := h.totals_eq
  length_elements := by rw [h.elements_eq, Dict.length_keys, length_weightsAfter]

/-- The last sum is that of the weights that are left. -/
theorem getLast?_totals (h : Drew weightedElements drawn sampler) :
    sampler.totals.getLast? =
      if weightedElements.len = 0 then none else some (remaining weightedElements drawn) := by
  by_cases hlen : weightedElements.len = 0
  · rw [if_pos hlen, h.totals_eq, List.getLast?_eq_none_iff, ← List.length_eq_zero_iff,
      length_accumulate, length_weightsAfter, hlen]
  · have hne : weightsAfter weightedElements drawn ≠ [] := by
      rw [← List.length_pos_iff, length_weightsAfter]
      omega
    rw [if_neg hlen, h.totals_eq, accumulate, getLast?_accumulateFrom hne, Nat.zero_add,
      sum_weightsAfter]

/-- A draw takes an element that was left. -/
theorem sampleOne_drew (h : Drew weightedElements drawn sampler) {rng : Rng} {request : Nat}
    {element : α} {after : WeightedSampler α}
    (hone : sampleOne rng request sampler = .ok (element, after)) :
    Drew weightedElements (drawn ++ [element]) after ∧ after.length = sampler.length := by
  by_cases hsum : 0 < (weightsAfter weightedElements drawn).sum
  · rcases sampleOne_eq rng request h.hasWeights hsum with
      ⟨index, weight, other, hweight, hpos, helement, heq⟩
    rw [heq, Except.ok.injEq, Prod.mk.injEq] at hone
    rcases hone with ⟨rfl, rfl⟩
    rw [h.elements_eq] at helement
    have hleft : other ∉ drawn := by
      intro hmem
      rw [Dict.keys, List.getElem?_map] at helement
      rcases Option.map_eq_some_iff.mp helement with ⟨⟨key, original⟩, hentry, rfl⟩
      rw [getElem?_weightsAfter hentry, if_pos hmem, Option.some.injEq] at hweight
      omega
    refine ⟨⟨h.elements_eq, ?_, ?_, ?_⟩, rfl⟩
    · show accumulate _ = _
      rw [weightsAfter_set helement]
    · intro some hsome
      rcases List.mem_append.mp hsome with hsome | hsome
      · exact h.drawn_keys some hsome
      · rw [List.mem_singleton.mp hsome]
        exact List.mem_of_getElem? helement
    · rw [List.nodup_append_comm]
      exact List.nodup_cons.mpr ⟨hleft, h.nodup⟩
  · have hlast := h.getLast?_totals
    rw [← sum_weightsAfter] at hlast
    have hzero : (weightsAfter weightedElements drawn).sum = 0 := by omega
    rw [hzero] at hlast
    by_cases hlen : weightedElements.len = 0
    · rw [if_pos hlen] at hlast
      simp [sampleOne, hlast] at hone
    · rw [if_neg hlen] at hlast
      simp [sampleOne, hlast] at hone

/-- As long as not all elements are drawn, a draw returns. -/
theorem exists_sampleOne (h : Drew weightedElements drawn sampler)
    (hpos : ∀ weight ∈ weightedElements.values, 0 < weight)
    (hleft : drawn.length < weightedElements.len) (rng : Rng) (request : Nat) :
    ∃ element after, sampleOne rng request sampler = .ok (element, after) := by
  rcases sampleOne_eq rng request h.hasWeights (sum_weightsAfter_pos hpos hleft) with
    ⟨index, weight, element, -, -, -, heq⟩
  exact ⟨element, _, heq⟩

/-- An element is selected by as many positions as the weight that it still has. -/
theorem card_positionsOf (h : Drew weightedElements drawn sampler) {element : α} {weight : Nat}
    (helement : weightedElements.get? element = some weight) :
    (sampler.positionsOf element).card = if element ∈ drawn then 0 else weight := by
  rcases List.getElem?_of_mem (Dict.mem_entries_iff.mpr helement) with ⟨index, hentry⟩
  have hkey : weightedElements.keys[index]? = some element := by
    rw [Dict.keys, List.getElem?_map, hentry, Option.map_some]
  have htotal : sampler.totals.getLast?.getD 0 = (weightsAfter weightedElements drawn).sum := by
    have hlen : weightedElements.len ≠ 0 := by
      rcases List.getElem?_eq_some_iff.mp hentry with ⟨hlt, -⟩
      rw [Dict.len]
      omega
    rw [h.getLast?_totals, if_neg hlen, sum_weightsAfter, Option.getD_some]
  have hselected : ∀ position, sampler.selected position = some element ↔
      bisectRight (accumulate (weightsAfter weightedElements drawn)) position = index := by
    intro position
    rw [selected, h.elements_eq, h.totals_eq]
    constructor
    · intro hsome
      exact keys_getElem?_inj hsome hkey
    · intro heq
      rw [heq, hkey]
  rw [positionsOf, htotal, Finset.filter_congr (fun position _ => hselected position),
    card_positions (getElem?_weightsAfter hentry drawn)]

/-- What draws one after the other draw is new. -/
theorem drawUpTo_drew (h : Drew weightedElements drawn sampler) (rng : Rng)
    (quantity request : Nat) :
    Drew weightedElements (drawn ++ (drawUpTo rng quantity request sampler).samples)
        (drawUpTo rng quantity request sampler).after ∧
      (drawUpTo rng quantity request sampler).after.length = sampler.length := by
  induction quantity generalizing request sampler drawn with
  | zero =>
      rw [drawUpTo, List.append_nil]
      exact ⟨h, rfl⟩
  | succ quantity ih =>
      rw [drawUpTo]
      cases hone : sampleOne rng request sampler with
      | error raised =>
          simp only [List.append_nil]
          exact ⟨h, trivial⟩
      | ok one =>
          rcases one with ⟨element, after⟩
          rcases h.sampleOne_drew hone with ⟨hafter, hlength⟩
          have hrest := ih hafter (request + 1)
          rw [List.append_assoc, List.singleton_append, hlength] at hrest
          exact hrest

/-- As long as there are enough elements left, draws do not raise. -/
theorem drawUpTo_returns (h : Drew weightedElements drawn sampler)
    (hpos : ∀ weight ∈ weightedElements.values, 0 < weight) (rng : Rng) (quantity request : Nat)
    (hleft : drawn.length + quantity ≤ weightedElements.len) :
    (drawUpTo rng quantity request sampler).raised = none := by
  induction quantity generalizing request sampler drawn with
  | zero => rfl
  | succ quantity ih =>
      rcases h.exists_sampleOne hpos (by omega) rng request with ⟨element, after, hone⟩
      rcases h.sampleOne_drew hone with ⟨hafter, -⟩
      rw [drawUpTo, hone]
      apply ih hafter
      rw [List.length_append, List.length_singleton]
      omega

end Drew

/-- After some draws, a draw selects by a position below the last sum, which is the sum of the
weights that are left.  An element that is left has as many positions as its weight is large, and
a drawn element has none. -/
structure ExactAfter (weightedElements : Dict α Nat) (drawn : List α)
    (sampler : WeightedSampler α) : Prop where
  draws : ∀ rng request element after, sampleOne rng request sampler = .ok (element, after) →
    ∃ bound, sampler.totals.getLast? = some (bound + 1) ∧
      sampler.selected (rng.randint request bound) = some element
  total : weightedElements.len ≠ 0 →
    sampler.totals.getLast? = some (remaining weightedElements drawn)
  left : ∀ element weight, weightedElements.get? element = some weight → element ∉ drawn →
    (sampler.positionsOf element).card = weight
  drawn : ∀ element ∈ drawn, sampler.positionsOf element = ∅

theorem Drew.exactAfter {weightedElements : Dict α Nat} {drawn : List α}
    {sampler : WeightedSampler α} (h : Drew weightedElements drawn sampler) :
    ExactAfter weightedElements drawn sampler where
  draws := by
    intro rng request element after hone
    exact sampleOne_selected hone
  total := by
    intro hlen
    rw [h.getLast?_totals, if_neg hlen]
  left := by
    intro element weight helement hleft
    rw [h.card_positionsOf helement, if_neg hleft]
  drawn := by
    intro element hdrawn
    rcases Dict.mem_keys_iff_exists.mp (h.drawn_keys element hdrawn) with ⟨weight, helement⟩
    rw [← Finset.card_eq_zero, h.card_positionsOf helement, if_pos hdrawn]

/-! ## Runs -/

namespace SamplingRun

/-- What holds of a run: only drawn elements are returned, and the sampler does not count fewer
elements than are left. -/
structure Sound (weightedElements : Dict α Nat) (run : SamplingRun α) : Prop where
  drew : Drew weightedElements run.drawn run.sampler
  samples_sublist : run.samples.Sublist run.drawn
  enough : weightedElements.len ≤ run.sampler.length + run.drawn.length

variable {weightedElements : Dict α Nat}

theorem start_sound (weightedElements : Dict α Nat) :
    Sound weightedElements (start (init weightedElements)) where
  drew := Drew.init_drew weightedElements
  samples_sublist := List.Sublist.refl []
  enough := by
    show _ ≤ (accumulate weightedElements.values).length + 0
    rw [length_accumulate, Nat.add_zero, Dict.values, List.length_map, Dict.len]

omit [DecidableEq α] in
theorem samples_append {run after : SamplingRun α} {outcome : Except SamplingError (List α)}
    (h : after.outcomes = run.outcomes ++ [outcome]) :
    after.samples = run.samples ++ samplesOf outcome := by
  rw [samples, h, List.flatMap_append, List.flatMap_singleton, samples]

/-- A call keeps what holds of a run. -/
theorem Sound.call {run : SamplingRun α} (h : run.Sound weightedElements) (rng : Rng)
    (quantity : Int) : (run.call rng quantity).Sound weightedElements := by
  unfold SamplingRun.call
  by_cases hzero : quantity = 0
  · rw [if_pos hzero]
    refine ⟨h.drew, ?_, h.enough⟩
    rw [samples_append rfl, samplesOf, List.append_nil]
    exact h.samples_sublist
  · rw [if_neg hzero]
    by_cases hmany : quantity > run.sampler.length
    · rw [if_pos hmany]
      refine ⟨h.drew, ?_, h.enough⟩
      rw [samples_append rfl, samplesOf, List.append_nil]
      exact h.samples_sublist
    · rw [if_neg hmany]
      rcases h.drew.drawUpTo_drew rng quantity.toNat run.requests with ⟨hdrew, hlength⟩
      have henough := h.enough
      cases hraised : (drawUpTo rng quantity.toNat run.requests run.sampler).raised with
      | some raised =>
          simp only [hraised]
          refine ⟨hdrew, ?_, ?_⟩
          · rw [samples_append rfl, samplesOf, List.append_nil]
            exact h.samples_sublist.trans (List.sublist_append_left run.drawn _)
          · rw [hlength, List.length_append]
            omega
      | none =>
          have hcount := length_samples_drawUpTo hraised
          simp only [hraised]
          refine ⟨⟨hdrew.elements_eq, hdrew.totals_eq, hdrew.drawn_keys, hdrew.nodup⟩, ?_, ?_⟩
          · rw [samples_append rfl, samplesOf]
            exact h.samples_sublist.append (List.Sublist.refl _)
          · rw [List.length_append, hcount, hlength]
            show _ ≤ ((run.sampler.length : Int) - quantity).toNat + _
            omega

/-- Any calls keep what holds of a run. -/
theorem Sound.foldl_call {run : SamplingRun α} (h : run.Sound weightedElements) (rng : Rng)
    (quantities : List Int) :
    (quantities.foldl (SamplingRun.call rng) run).Sound weightedElements := by
  induction quantities generalizing run with
  | nil => exact h
  | cons quantity quantities ih => exact ih (h.call rng quantity)

/-- As long as there are enough elements left, a call returns as many as it is asked for. -/
theorem Sound.call_returns {run : SamplingRun α} (h : run.Sound weightedElements)
    (hpos : ∀ weight ∈ weightedElements.values, 0 < weight) (rng : Rng) {quantity : Int}
    (hleft : run.drawn.length + quantity.toNat ≤ weightedElements.len) :
    ∃ samples, samples.length = quantity.toNat ∧
      (run.call rng quantity).outcomes = run.outcomes ++ [.ok samples] ∧
      (run.call rng quantity).drawn = run.drawn ++ samples := by
  have henough := h.enough
  unfold SamplingRun.call
  by_cases hzero : quantity = 0
  · rw [if_pos hzero]
    exact ⟨[], by rw [hzero]; rfl, rfl, (List.append_nil _).symm⟩
  · rw [if_neg hzero, if_neg (by omega)]
    have hraised := h.drew.drawUpTo_returns hpos rng quantity.toNat run.requests hleft
    simp only [hraised]
    exact ⟨_, length_samples_drawUpTo hraised, rfl, rfl⟩

/-- As long as there are enough elements, no call raises. -/
theorem foldl_call_returns (hpos : ∀ weight ∈ weightedElements.values, 0 < weight) (rng : Rng)
    (quantities : List Int) {run : SamplingRun α} (h : run.Sound weightedElements)
    (hleft : run.drawn.length + (quantities.map Int.toNat).sum ≤ weightedElements.len) :
    ∃ returned, List.Forall₂ (fun quantity samples => samples.length = quantity.toNat)
        quantities returned ∧
      (quantities.foldl (SamplingRun.call rng) run).outcomes =
        run.outcomes ++ returned.map .ok ∧
      (quantities.foldl (SamplingRun.call rng) run).drawn = run.drawn ++ returned.flatten := by
  induction quantities generalizing run with
  | nil => exact ⟨[], List.Forall₂.nil, (List.append_nil _).symm, (List.append_nil _).symm⟩
  | cons quantity quantities ih =>
      rw [List.map_cons, List.sum_cons] at hleft
      rcases h.call_returns hpos rng (by omega : _ + quantity.toNat ≤ _) with
        ⟨samples, hcount, houtcomes, hdrawn⟩
      have hrest : (run.call rng quantity).drawn.length + (quantities.map Int.toNat).sum ≤
          weightedElements.len := by
        rw [hdrawn, List.length_append, hcount]
        omega
      rcases ih (h.call rng quantity) hrest with ⟨returned, hcounts, hreturned, hall⟩
      refine ⟨samples :: returned, List.Forall₂.cons hcount hcounts, ?_, ?_⟩
      · rw [List.foldl_cons, hreturned, houtcomes, List.append_assoc, List.singleton_append,
          List.map_cons]
      · rw [List.foldl_cons, hall, hdrawn, List.append_assoc, List.flatten_cons]

end SamplingRun

/-- Sampling is exact after any calls and any further draws, samples do not repeat, and as long
as no more is asked for than there are elements, every call returns what it is asked for. -/
theorem sampling_exact (rng : Rng) {weightedElements : Dict α Nat}
    (hpos : ∀ weight ∈ weightedElements.values, 0 < weight) (quantities : List Int) :
    let run := SamplingRun.calls rng weightedElements quantities
    (∀ quantity, ExactAfter weightedElements
      (run.drawn ++ (drawUpTo rng quantity run.requests run.sampler).samples)
      (drawUpTo rng quantity run.requests run.sampler).after) ∧
    run.samples.Nodup ∧
    ((quantities.map Int.toNat).sum ≤ weightedElements.len →
      ∃ returned, List.Forall₂ (fun quantity samples => samples.length = quantity.toNat)
          quantities returned ∧
        run.outcomes = returned.map .ok ∧ run.drawn = returned.flatten) := by
  intro run
  have hstart := SamplingRun.start_sound weightedElements
  have hsound : run.Sound weightedElements := hstart.foldl_call rng quantities
  refine ⟨?_, hsound.drew.nodup.sublist hsound.samples_sublist, ?_⟩
  · intro quantity
    exact (hsound.drew.drawUpTo_drew rng quantity run.requests).1.exactAfter
  · intro henough
    exact SamplingRun.foldl_call_returns hpos rng quantities hstart
      (by rw [SamplingRun.start, List.length_nil, Nat.zero_add]; exact henough)

/-- Two calls that ask for the two elements with weights three and five. -/
theorem sampling_exact_two :
    let rng : Rng := ⟨fun _ bound => bound, fun _ _ => Nat.le_refl _⟩
    let weightedElements := Dict.ofList [("first", 3), ("second", 5)]
    (∀ weight ∈ weightedElements.values, 0 < weight) ∧
      (SamplingRun.calls rng weightedElements [1, 1]).samples.Nodup ∧
      ∃ returned : List (List String),
        (SamplingRun.calls rng weightedElements [1, 1]).outcomes = returned.map .ok := by
  intro rng weightedElements
  have hpos : ∀ weight ∈ weightedElements.values, 0 < weight := by decide
  rcases sampling_exact rng hpos [1, 1] with ⟨-, hnodup, hreturns⟩
  rcases hreturns (by decide) with ⟨returned, -, houtcomes, -⟩
  exact ⟨hpos, hnodup, returned, houtcomes⟩

end WeightedSampler

end NuLink
