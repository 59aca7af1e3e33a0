import NuLinkCore.Network.Learner

/-!
# One learning round

A learning round remembers every sprout a teacher announced, without verifying
them eagerly and without recording the fleet state in between, and then records
the fleet state once.  The purpose of the round is stated abstractly: every
address ends up with its most recent representation, whatever the order of the
announcement.

The timestamp test compares a sprout with the recorded state only.  Two new
sprouts that share an address or a stamp therefore meet in the accumulator,
where their timestamps play no part.

Main results:

- Theorem {lit}`Learner.known?_learningRound`: the recorded state after a round in
  terms of the sprouts that were newer than the state before it.
- Theorem {lit}`Learner.freshest_wins_iff`: the round meets its purpose in every
  order exactly when no two new sprouts share an address or a stamp.
-/

namespace NuLink

open Collections

namespace Learner

variable {C : Type} (fleetStateChecksum : Option NodeMetadata → List NodeMetadata → C)

/-- The sprout loop of {lit}`learn_from_teacher_node`. -/
def rememberSprouts (learner : Learner C) (sprouts : List Node) (context : RememberContext) :
    Learner C :=
  sprouts.foldl
    (fun learner sprout =>
      (learner.rememberNode fleetStateChecksum sprout false false false context).1)
    learner

/-- The sprout loop followed by {lit}`record_fleet_state()`. -/
def learningRound (learner : Learner C) (sprouts : List Node) (context : RememberContext)
    (final : RecordContext) : Learner C :=
  let remembered := learner.rememberSprouts fleetStateChecksum sprouts context
  { remembered with
    knownNodes := remembered.knownNodes.recordFleetState fleetStateChecksum false final }

/-! ## The purpose of a round -/

/-- The known node and the announced sprouts of one address. -/
def candidates (learner : Learner C) (sprouts : List Node) (address : ChecksumAddress) :
    List Node :=
  (learner.known? address).toList ++
    sprouts.filter (fun sprout => sprout.checksumAddress = address)

/-- A choice among candidates is freshest when none of them is more recent; there
is no choice exactly when there are no candidates. -/
def IsFreshest (nodes : List Node) : Option Node → Prop
  | none => nodes = []
  | some chosen => chosen ∈ nodes ∧ ∀ node ∈ nodes, node.timestamp ≤ chosen.timestamp

/-- Whatever the order of the announcement and of the accumulated set, every
address gets its freshest candidate, and the nodes and the checksum of the
recorded state are the same. -/
def FreshestWins (learner : Learner C) (sprouts : List Node) : Prop :=
  (∀ announced : List Node, announced.Perm sprouts → ∀ context final address,
    IsFreshest (learner.candidates sprouts address)
      ((learner.learningRound fleetStateChecksum announced context final).known? address)) ∧
  ∀ announced announced' : List Node, announced.Perm sprouts → announced'.Perm sprouts →
    ∀ context context' final final', final.thisNode = final'.thisNode →
      let state := (learner.learningRound fleetStateChecksum announced context
        final).knownNodes.currentState
      let state' := (learner.learningRound fleetStateChecksum announced' context'
        final').knownNodes.currentState
      (∀ address, state.nodes.get? address = state'.nodes.get? address) ∧
        state.checksum fleetStateChecksum = state'.checksum fleetStateChecksum

/-- No two different sprouts that are newer than the recorded state share an
address or a stamp. -/
def NewSproutsApart (learner : Learner C) (sprouts : List Node) : Prop :=
  ∀ s ∈ sprouts, ∀ t ∈ sprouts, learner.isOutdated s = false → learner.isOutdated t = false →
    s ≠ t → s.checksumAddress ≠ t.checksumAddress ∧ s.stamp ≠ t.stamp

/-! ## The state after a round -/

/-- The loop only accumulates the sprouts that are newer than the recorded state. -/
theorem rememberSprouts_knownNodes {learner : Learner C} {sprouts : List Node}
    (context : RememberContext) (hself : ∀ s ∈ sprouts, learner.stamp ≠ some s.stamp)
    (hdomain : ∀ s ∈ sprouts, s.domain = learner.knownNodes.domain) :
    (learner.rememberSprouts fleetStateChecksum sprouts context).knownNodes =
      { learner.knownNodes with
        nodesToAdd := (sprouts.filter fun s => !learner.isOutdated s).foldl KeyedSet.replace
          learner.knownNodes.nodesToAdd } := by
  induction sprouts generalizing learner with
  | nil => rfl
  | cons s rest ih =>
      let next := (learner.rememberNode fleetStateChecksum s false false false context).1
      have hstamp : next.stamp = learner.stamp := rememberNode_stamp fleetStateChecksum ..
      have hknown : next.knownNodes =
          if learner.Admits s then
            { learner.knownNodes with nodesToAdd := learner.knownNodes.nodesToAdd.replace s }
          else learner.knownNodes := by
        rw [← FleetSensor.recordNode_of_domain fleetStateChecksum context.record
          (hdomain s List.mem_cons_self)]
        exact rememberNode_lazy_knownNodes fleetStateChecksum learner s false false context
      have hstate : next.knownNodes.currentState = learner.knownNodes.currentState := by
        rw [hknown]
        split <;> rfl
      have hnext : next.knownNodes.domain = learner.knownNodes.domain := by
        rw [hknown]
        split <;> rfl
      have houtdated : ∀ t, next.isOutdated t = learner.isOutdated t := by
        intro t
        simp only [isOutdated, known?, hstate]
      have htail := @ih next
        (fun t ht => hstamp ▸ hself t (List.mem_cons_of_mem s ht))
        (fun t ht => hnext ▸ hdomain t (List.mem_cons_of_mem s ht))
      have hstep : learner.rememberSprouts fleetStateChecksum (s :: rest) context =
          next.rememberSprouts fleetStateChecksum rest context := rfl
      rw [hstep, htail]
      simp only [houtdated, hknown]
      cases hold : learner.isOutdated s with
      | false =>
          have hadmits : learner.Admits s := ⟨hself s List.mem_cons_self, hold⟩
          simp [hadmits, hold]
      | true =>
          have hrefused : ¬ learner.Admits s := fun h => by simp [h.2] at hold
          simp [hrefused, hold]

/-- The nodes a round accumulates: the last new sprout of every stamp. -/
def accumulatedSprouts (learner : Learner C) (sprouts : List Node) : KeyedSet Node.stamp :=
  (sprouts.filter fun s => !learner.isOutdated s).foldl KeyedSet.replace KeyedSet.empty

theorem mem_accumulatedSprouts {learner : Learner C} {sprouts : List Node} {node : Node}
    (h : node ∈ (learner.accumulatedSprouts sprouts).elems) :
    node ∈ sprouts ∧ learner.isOutdated node = false := by
  rcases KeyedSet.mem_foldl_replace.mp h with ⟨l₁, l₂, hsplit, -⟩ | ⟨hmem, -⟩
  · have hmem : node ∈ sprouts.filter fun s => !learner.isOutdated s := by
      rw [hsplit]
      simp
    simpa using hmem
  · simp at hmem

/-- A new sprout that no new sprout with its stamp follows is accumulated. -/
theorem mem_accumulatedSprouts_of_last {learner : Learner C} {before after : List Node}
    {node : Node} (hnew : learner.isOutdated node = false)
    (hlast : ∀ s ∈ after, learner.isOutdated s = false → s.stamp ≠ node.stamp) :
    node ∈ (learner.accumulatedSprouts (before ++ node :: after)).elems := by
  refine KeyedSet.mem_foldl_replace.mpr (Or.inl
    ⟨before.filter fun s => !learner.isOutdated s, after.filter fun s => !learner.isOutdated s,
      by simp [hnew], ?_⟩)
  intro s hs
  have hs' : s ∈ after ∧ learner.isOutdated s = false := by simpa using hs
  exact hlast s hs'.1 hs'.2

/-- A new sprout differs from what is recorded under its address. -/
theorem isUpdate_of_new {learner : Learner C} {node : Node}
    (hnew : learner.isOutdated node = false) :
    learner.knownNodes.currentState.isUpdate [] node = true := by
  have hnewer := isOutdated_eq_false_iff.mp hnew
  unfold FleetState.isUpdate
  rw [if_neg List.not_mem_nil]
  split
  · rfl
  · rename_i old hold
    have hlt := hnewer old hold
    have hne : old.metadata ≠ node.metadata := by
      intro heq
      have hts : old.timestamp = node.timestamp := by simp only [Node.timestamp, heq]
      omega
    simp [hne]

variable {learner : Learner C} {sprouts : List Node}

/-- The recorded state after a round: an address with an accumulated sprout maps
to one of them, chosen by the iteration order; any other keeps its node. -/
theorem known?_learningRound (hadd : learner.knownNodes.nodesToAdd = KeyedSet.empty)
    (hremove : learner.knownNodes.nodesToRemove = [])
    (hself : ∀ s ∈ sprouts, learner.stamp ≠ some s.stamp)
    (hdomain : ∀ s ∈ sprouts, s.domain = learner.knownNodes.domain)
    (context : RememberContext) (final : RecordContext) (address : ChecksumAddress) :
    (learner.learningRound fleetStateChecksum sprouts context final).known? address =
      if ∃ node ∈ (learner.accumulatedSprouts sprouts).elems, node.checksumAddress = address then
        (FleetState.nodesToAddDict
          (final.order.apply (learner.accumulatedSprouts sprouts).elems)).get? address
      else learner.known? address := by
  have hround : (learner.learningRound fleetStateChecksum sprouts context final).knownNodes =
      ({ learner.knownNodes with
        nodesToAdd := learner.accumulatedSprouts sprouts } : FleetSensor C).recordFleetState
          fleetStateChecksum false final := by
    simp only [learningRound, rememberSprouts_knownNodes fleetStateChecksum context hself hdomain,
      hadd, accumulatedSprouts]
  have hupdate : (∃ node ∈ (learner.accumulatedSprouts sprouts).elems,
        learner.knownNodes.currentState.isUpdate [] node = true ∧
          node.checksumAddress = address) ↔
      ∃ node ∈ (learner.accumulatedSprouts sprouts).elems, node.checksumAddress = address := by
    constructor
    · rintro ⟨node, hmem, -, haddr⟩
      exact ⟨node, hmem, haddr⟩
    · rintro ⟨node, hmem, haddr⟩
      exact ⟨node, hmem, isUpdate_of_new (mem_accumulatedSprouts hmem).2, haddr⟩
  rw [known?, hround, FleetSensor.get?_recordFleetState]
  simp only [hremove, List.not_mem_nil, if_false, hupdate]
  rfl

/-! ## New sprouts that are apart -/

/-- When the new sprouts are apart, all of them are accumulated in every order. -/
theorem mem_accumulatedSprouts_iff {announced : List Node}
    (hapart : learner.NewSproutsApart sprouts) (hperm : announced.Perm sprouts) {node : Node} :
    node ∈ (learner.accumulatedSprouts announced).elems ↔
      node ∈ sprouts ∧ learner.isOutdated node = false := by
  constructor
  · intro hmem
    rcases mem_accumulatedSprouts hmem with ⟨hannounced, hnew⟩
    exact ⟨hperm.mem_iff.mp hannounced, hnew⟩
  · rintro ⟨hmem, hnew⟩
    have hfilter : node ∈ announced.filter fun s => !learner.isOutdated s := by
      simpa [hnew] using hperm.mem_iff.mpr hmem
    have hkey : ∃ other ∈ (learner.accumulatedSprouts announced).elems,
        other.stamp = node.stamp := KeyedSet.exists_mem_foldl_replace hfilter
    rcases hkey with ⟨other, hother, hstamp⟩
    rcases mem_accumulatedSprouts hother with ⟨hannounced, hothernew⟩
    by_cases heq : other = node
    · exact heq ▸ hother
    · exact absurd hstamp
        (hapart other (hperm.mem_iff.mp hannounced) node hmem hothernew hnew heq).2

/-- A new sprout is the freshest candidate of its address when the new sprouts are apart. -/
theorem isFreshest_new (hapart : learner.NewSproutsApart sprouts) {node : Node}
    (hmem : node ∈ sprouts) (hnew : learner.isOutdated node = false) :
    IsFreshest (learner.candidates sprouts node.checksumAddress) (some node) := by
  have hnewer := isOutdated_eq_false_iff.mp hnew
  refine ⟨by simp [candidates, hmem], ?_⟩
  intro other hother
  rcases List.mem_append.mp hother with hold | hsprout
  · exact Nat.le_of_lt (hnewer other (by simpa using hold))
  · rw [List.mem_filter, decide_eq_true_eq] at hsprout
    cases hout : learner.isOutdated other with
    | false =>
        by_contra hlt
        have hne : other ≠ node := by
          rintro rfl
          exact hlt (Nat.le_refl _)
        exact (hapart other hsprout.1 node hmem hout hnew hne).1 hsprout.2
    | true =>
        -- An outdated sprout is no newer than the recorded node of its address.
        rcases isOutdated_eq_true_iff.mp hout with ⟨old, hold, hle⟩
        have hlt := hnewer old (hsprout.2 ▸ hold)
        omega

/-- The recorded node is the freshest candidate of an address without new sprouts. -/
theorem isFreshest_known {address : ChecksumAddress}
    (hall : ∀ s ∈ sprouts, s.checksumAddress = address → learner.isOutdated s = true) :
    IsFreshest (learner.candidates sprouts address) (learner.known? address) := by
  have hle : ∀ s ∈ sprouts, s.checksumAddress = address →
      ∃ old, learner.known? address = some old ∧ s.timestamp ≤ old.timestamp := by
    intro s hs haddr
    simpa [haddr] using isOutdated_eq_true_iff.mp (hall s hs haddr)
  cases hknown : learner.known? address with
  | none =>
      have hnil : sprouts.filter (fun s => s.checksumAddress = address) = [] := by
        rw [List.filter_eq_nil_iff]
        intro s hs haddr
        rcases hle s hs (by simpa using haddr) with ⟨old, hold, -⟩
        simp [hknown] at hold
      simp [IsFreshest, candidates, hknown, hnil]
  | some old =>
      refine ⟨by simp [candidates, hknown], ?_⟩
      intro other hother
      rcases List.mem_append.mp hother with hold | hsprout
      · simp only [hknown, Option.toList_some, List.mem_singleton] at hold
        rw [hold]
      · rw [List.mem_filter, decide_eq_true_eq] at hsprout
        rcases hle other hsprout.1 hsprout.2 with ⟨old', hold', hts⟩
        rw [hknown] at hold'
        exact Option.some.inj hold' ▸ hts

section Round

variable (hadd : learner.knownNodes.nodesToAdd = KeyedSet.empty)
  (hremove : learner.knownNodes.nodesToRemove = [])
  (hself : ∀ s ∈ sprouts, learner.stamp ≠ some s.stamp)
  (hdomain : ∀ s ∈ sprouts, s.domain = learner.knownNodes.domain)

include hadd hremove hself hdomain

/-- {lit}`known?_learningRound` for an announcement in another order. -/
theorem known?_learningRound_perm {announced : List Node} (hperm : announced.Perm sprouts)
    (context : RememberContext) (final : RecordContext) (address : ChecksumAddress) :
    (learner.learningRound fleetStateChecksum announced context final).known? address =
      if ∃ node ∈ (learner.accumulatedSprouts announced).elems,
          node.checksumAddress = address then
        (FleetState.nodesToAddDict
          (final.order.apply (learner.accumulatedSprouts announced).elems)).get? address
      else learner.known? address :=
  known?_learningRound fleetStateChecksum hadd hremove
    (fun s hs => hself s (hperm.mem_iff.mp hs)) (fun s hs => hdomain s (hperm.mem_iff.mp hs))
    context final address

/-- When the new sprouts are apart, an address with a new sprout maps to it. -/
theorem known?_learningRound_of_new (hapart : learner.NewSproutsApart sprouts)
    {announced : List Node} (hperm : announced.Perm sprouts) (context : RememberContext)
    (final : RecordContext) {node : Node} (hmem : node ∈ sprouts)
    (hnew : learner.isOutdated node = false) :
    (learner.learningRound fleetStateChecksum announced context final).known?
      node.checksumAddress = some node := by
  have hacc : node ∈ (learner.accumulatedSprouts announced).elems :=
    (mem_accumulatedSprouts_iff hapart hperm).mpr ⟨hmem, hnew⟩
  rw [known?_learningRound_perm fleetStateChecksum hadd hremove hself hdomain hperm,
    if_pos ⟨node, hacc, rfl⟩]
  apply FleetState.get?_nodesToAddDict_of_unique
  · simpa using hacc
  · intro other hother haddr
    rcases (mem_accumulatedSprouts_iff hapart hperm).mp (by simpa using hother) with
      ⟨hothermem, hothernew⟩
    by_contra hne
    exact (hapart other hothermem node hmem hothernew hnew hne).1 haddr

/-- When the new sprouts are apart, an address without a new sprout keeps its node. -/
theorem known?_learningRound_of_no_new (hapart : learner.NewSproutsApart sprouts)
    {announced : List Node} (hperm : announced.Perm sprouts) (context : RememberContext)
    (final : RecordContext) {address : ChecksumAddress}
    (hnone : ∀ s ∈ sprouts, s.checksumAddress = address → learner.isOutdated s = true) :
    (learner.learningRound fleetStateChecksum announced context final).known? address =
      learner.known? address := by
  rw [known?_learningRound_perm fleetStateChecksum hadd hremove hself hdomain hperm, if_neg]
  rintro ⟨node, hacc, haddr⟩
  rcases (mem_accumulatedSprouts_iff hapart hperm).mp hacc with ⟨hmem, hnew⟩
  simp [hnone node hmem haddr] at hnew

omit hadd hremove hself hdomain in
/-- An address without a new sprout has only outdated ones. -/
theorem outdated_of_no_new {address : ChecksumAddress}
    (h : ¬ ∃ s ∈ sprouts, s.checksumAddress = address ∧ learner.isOutdated s = false) :
    ∀ s ∈ sprouts, s.checksumAddress = address → learner.isOutdated s = true := by
  intro s hs haddr
  by_contra hout
  exact h ⟨s, hs, haddr, by simpa using hout⟩

/-- New sprouts that are apart give every address its freshest candidate. -/
theorem isFreshest_of_apart (hapart : learner.NewSproutsApart sprouts)
    {announced : List Node} (hperm : announced.Perm sprouts) (context : RememberContext)
    (final : RecordContext) (address : ChecksumAddress) :
    IsFreshest (learner.candidates sprouts address)
      ((learner.learningRound fleetStateChecksum announced context final).known? address) := by
  by_cases hnew : ∃ s ∈ sprouts, s.checksumAddress = address ∧ learner.isOutdated s = false
  · rcases hnew with ⟨node, hmem, rfl, hnew⟩
    rw [known?_learningRound_of_new fleetStateChecksum hadd hremove hself hdomain hapart hperm
      context final hmem hnew]
    exact isFreshest_new hapart hmem hnew
  · have hall := outdated_of_no_new hnew
    rw [known?_learningRound_of_no_new fleetStateChecksum hadd hremove hself hdomain hapart hperm
      context final hall]
    exact isFreshest_known hall

/-- New sprouts that are apart give the same nodes in every order. -/
theorem known?_learningRound_eq_of_apart (hapart : learner.NewSproutsApart sprouts)
    {announced announced' : List Node} (hperm : announced.Perm sprouts)
    (hperm' : announced'.Perm sprouts) (context context' : RememberContext)
    (final final' : RecordContext) (address : ChecksumAddress) :
    (learner.learningRound fleetStateChecksum announced context final).known? address =
      (learner.learningRound fleetStateChecksum announced' context' final').known? address := by
  by_cases hnew : ∃ s ∈ sprouts, s.checksumAddress = address ∧ learner.isOutdated s = false
  · rcases hnew with ⟨node, hmem, rfl, hnew⟩
    rw [known?_learningRound_of_new fleetStateChecksum hadd hremove hself hdomain hapart hperm
        context final hmem hnew,
      known?_learningRound_of_new fleetStateChecksum hadd hremove hself hdomain hapart hperm'
        context' final' hmem hnew]
  · have hall := outdated_of_no_new hnew
    rw [known?_learningRound_of_no_new fleetStateChecksum hadd hremove hself hdomain hapart hperm
        context final hall,
      known?_learningRound_of_no_new fleetStateChecksum hadd hremove hself hdomain hapart hperm'
        context' final' hall]

/-- A round after which every address has its freshest candidate in every order
leaves no two new sprouts with one address: of two such sprouts, the older one
wins when it is announced and iterated last. -/
theorem addresses_apart_of_freshest
    (htimes : ∀ s ∈ sprouts, ∀ t ∈ sprouts, s ≠ t → s.checksumAddress = t.checksumAddress →
      s.timestamp ≠ t.timestamp)
    (hfreshest : ∀ announced : List Node, announced.Perm sprouts → ∀ context final address,
      IsFreshest (learner.candidates sprouts address)
        ((learner.learningRound fleetStateChecksum announced context final).known? address))
    {s t : Node} (hs : s ∈ sprouts) (ht : t ∈ sprouts) (hsnew : learner.isOutdated s = false)
    (htnew : learner.isOutdated t = false) (hne : s ≠ t) :
    s.checksumAddress ≠ t.checksumAddress := by
  intro haddr
  -- An older sprout that is announced last is not the freshest one of its address.
  have hlast : ∀ older ∈ sprouts, ∀ newer ∈ sprouts, learner.isOutdated older = false →
      newer.checksumAddress = older.checksumAddress → newer.timestamp ≤ older.timestamp := by
    intro older holder newer hnewer hnew hsame
    have hperm : (sprouts.erase older ++ [older]).Perm sprouts :=
      List.perm_append_comm.trans (List.perm_cons_erase holder).symm
    have hacc : older ∈ (learner.accumulatedSprouts (sprouts.erase older ++ [older])).elems :=
      mem_accumulatedSprouts_of_last hnew (by simp)
    have hwins := hfreshest _ hperm plainRememberContext
      { FleetSensor.plainContext with order := Reorder.moveToEnd older } older.checksumAddress
    rw [known?_learningRound_perm fleetStateChecksum hadd hremove hself hdomain hperm,
      if_pos ⟨older, hacc, rfl⟩, Reorder.moveToEnd_apply_of_mem hacc,
      FleetState.get?_nodesToAddDict_append_self] at hwins
    exact hwins.2 newer (by simp [candidates, hnewer, hsame])
  have hle := hlast s hs t ht hsnew haddr.symm
  have hge := hlast t ht s hs htnew haddr
  exact htimes s hs t ht hne haddr (by omega)

/-- A round after which every address has its freshest candidate in every order
leaves no two new sprouts with one stamp: the one announced last pushes the
other out of the accumulator. -/
theorem stamps_apart_of_freshest
    (haddresses : ∀ s ∈ sprouts, ∀ t ∈ sprouts, learner.isOutdated s = false →
      learner.isOutdated t = false → s ≠ t → s.checksumAddress ≠ t.checksumAddress)
    (hfreshest : ∀ announced : List Node, announced.Perm sprouts → ∀ context final address,
      IsFreshest (learner.candidates sprouts address)
        ((learner.learningRound fleetStateChecksum announced context final).known? address))
    {s t : Node} (hs : s ∈ sprouts) (ht : t ∈ sprouts) (hsnew : learner.isOutdated s = false)
    (htnew : learner.isOutdated t = false) (hne : s ≠ t) : s.stamp ≠ t.stamp := by
  intro hstamp
  have hperm : (sprouts.erase t ++ [t]).Perm sprouts :=
    List.perm_append_comm.trans (List.perm_cons_erase ht).symm
  have hacc : t ∈ (learner.accumulatedSprouts (sprouts.erase t ++ [t])).elems :=
    mem_accumulatedSprouts_of_last htnew (by simp)
  have hout : s ∉ (learner.accumulatedSprouts (sprouts.erase t ++ [t])).elems := by
    intro hsacc
    exact hne (KeyedSet.eq_of_key_eq _ hsacc hacc hstamp)
  have hnone : ¬ ∃ node ∈ (learner.accumulatedSprouts (sprouts.erase t ++ [t])).elems,
      node.checksumAddress = s.checksumAddress := by
    rintro ⟨node, hnode, haddr⟩
    rcases mem_accumulatedSprouts hnode with ⟨hmem, hnew⟩
    by_cases heq : node = s
    · exact hout (heq ▸ hnode)
    · exact haddresses node (hperm.mem_iff.mp hmem) s hs hnew hsnew heq haddr
  have hwins := hfreshest _ hperm plainRememberContext FleetSensor.plainContext s.checksumAddress
  rw [known?_learningRound_perm fleetStateChecksum hadd hremove hself hdomain hperm,
    if_neg hnone] at hwins
  have hcandidate : s ∈ learner.candidates sprouts s.checksumAddress := by
    simp [candidates, hs]
  cases hknown : learner.known? s.checksumAddress with
  | none =>
      rw [hknown] at hwins
      have hnil : learner.candidates sprouts s.checksumAddress = [] := hwins
      simp [hnil] at hcandidate
  | some old =>
      rw [hknown] at hwins
      have hle := hwins.2 s hcandidate
      have hlt := isOutdated_eq_false_iff.mp hsnew old hknown
      omega

/-- For a learner with empty accumulators, in-domain sprouts other than itself with
distinct timestamps per address, and a checksum that does not depend on the order
of the nodes: every address gets its freshest candidate and the recorded state is
the same in every order exactly when no two new sprouts share an address or a
stamp. -/
theorem freshest_wins_iff
    (hdigest : ∀ thisNode (xs ys : List NodeMetadata), xs.Perm ys →
      fleetStateChecksum thisNode xs = fleetStateChecksum thisNode ys)
    (htimes : ∀ s ∈ sprouts, ∀ t ∈ sprouts, s ≠ t → s.checksumAddress = t.checksumAddress →
      s.timestamp ≠ t.timestamp) :
    learner.FreshestWins fleetStateChecksum sprouts ↔ learner.NewSproutsApart sprouts := by
  constructor
  · rintro ⟨hfreshest, -⟩ s hs t ht hsnew htnew hne
    have haddresses : ∀ s ∈ sprouts, ∀ t ∈ sprouts, learner.isOutdated s = false →
        learner.isOutdated t = false → s ≠ t → s.checksumAddress ≠ t.checksumAddress :=
      fun s hs t ht hsnew htnew hne =>
        addresses_apart_of_freshest fleetStateChecksum hadd hremove hself hdomain htimes hfreshest
          hs ht hsnew htnew hne
    exact ⟨haddresses s hs t ht hsnew htnew hne,
      stamps_apart_of_freshest fleetStateChecksum hadd hremove hself hdomain haddresses hfreshest
        hs ht hsnew htnew hne⟩
  · intro hapart
    constructor
    · intro announced hperm context final address
      exact isFreshest_of_apart fleetStateChecksum hadd hremove hself hdomain hapart hperm context
        final address
    · intro announced announced' hperm hperm' context context' final final' hthis state state'
      have hnodes : ∀ address, state.nodes.get? address = state'.nodes.get? address :=
        known?_learningRound_eq_of_apart fleetStateChecksum hadd hremove hself hdomain hapart
          hperm hperm' context context' final final'
      refine ⟨hnodes, ?_⟩
      have howner : state.thisNodeMetadata = state'.thisNodeMetadata := by
        simp only [state, state', learningRound, FleetSensor.recordFleetState_thisNodeMetadata,
          rememberSprouts_knownNodes fleetStateChecksum context
            (fun s hs => hself s (hperm.mem_iff.mp hs))
            (fun s hs => hdomain s (hperm.mem_iff.mp hs)),
          rememberSprouts_knownNodes fleetStateChecksum context'
            (fun s hs => hself s (hperm'.mem_iff.mp hs))
            (fun s hs => hdomain s (hperm'.mem_iff.mp hs)), hthis]
      rw [FleetState.checksum, FleetState.checksum, howner]
      exact hdigest _ _ _ ((Dict.values_perm_of_get?_eq hnodes).map _)

end Round

/-! ## Rounds of two sprouts -/

/-- A digest of the unordered collection of nodes. -/
def unorderedChecksum (thisNode : Option NodeMetadata) (otherNodes : List NodeMetadata) :
    Option NodeMetadata × Multiset NodeMetadata :=
  (thisNode, otherNodes)

/-- A learner of the main network that knows no nodes. -/
def freshLearner : Learner (Option NodeMetadata × Multiset NodeMetadata) :=
  new unorderedChecksum none false true true "mainnet" false 0

/-- Two sprouts of two providers. -/
def apartSprouts : List Node :=
  [announcedAt 10,
    nodeSprout (sampleMetadata "0x2000000000000000000000000000000000000002" [2] 20)]

/-- Of two announcements of one node, the older one wins when it comes last. -/
theorem older_sprout_wins :
    (∀ s ∈ [announcedAt 20, announcedAt 10], s.domain = "mainnet") ∧
      (∀ s ∈ [announcedAt 20, announcedAt 10], freshLearner.stamp ≠ some s.stamp) ∧
      (freshLearner.learningRound unorderedChecksum [announcedAt 20, announcedAt 10]
        plainRememberContext FleetSensor.plainContext).known?
          "0x1000000000000000000000000000000000000001" = some (announcedAt 10) ∧
      ¬ freshLearner.FreshestWins unorderedChecksum [announcedAt 20, announcedAt 10] := by
  have hround : (freshLearner.learningRound unorderedChecksum [announcedAt 20, announcedAt 10]
      plainRememberContext FleetSensor.plainContext).known?
        "0x1000000000000000000000000000000000000001" = some (announcedAt 10) := by
    decide
  refine ⟨by decide, by decide, hround, ?_⟩
  intro hwins
  have hfreshest := hwins.1 _ (List.Perm.refl _) plainRememberContext FleetSensor.plainContext
    "0x1000000000000000000000000000000000000001"
  rw [hround] at hfreshest
  have hle := hfreshest.2 (announcedAt 20) (by decide)
  exact absurd hle (by decide)

theorem freshest_wins_iff_apartSprouts :
    freshLearner.FreshestWins unorderedChecksum apartSprouts ∧
      freshLearner.NewSproutsApart apartSprouts := by
  have hapart : freshLearner.NewSproutsApart apartSprouts := by
    unfold NewSproutsApart
    decide
  refine ⟨(freshest_wins_iff unorderedChecksum rfl rfl (by decide) (by decide) ?_
    (by decide)).mpr hapart, hapart⟩
  intro thisNode xs ys hperm
  simp [unorderedChecksum, Multiset.coe_eq_coe.mpr hperm]

end Learner

end NuLink
