import NuLinkCore.Network.Gossip.Model

/-!
# The network as a replicated directory

Whatever the parties do and in whatever order, a party learns only of nodes that some
party knew at the start, that were brought in from outside, or that teach in the
network; it keeps every address that it does not mark, and never goes back to an older
representation of it.

Main results:

- Theorem {lit}`Network.step_sourced`: what one step of the network makes of the nodes
  that each party knows.
- Theorem {lit}`Network.run_directory`: along every run every party is a sound replica of
  the directory of published nodes.
-/

namespace NuLink

open Collections Replication

/-- The sprouts that a round has still to remember. -/
def Phase.sprouts : Phase → List Node
  | .learning _ _ _ sprouts _ => sprouts
  | _ => []

/-- The nodes that seeding may remember. -/
def Seeding.nodes : Seeding → List Node
  | .failsAtSeeds seeds => seeds
  | .failsAtStorage seeds stored => seeds ++ stored
  | .completes seeds stored => seeds ++ stored

/-- The nodes that a step brings in from outside: those of other code, and those of the seeding. -/
def LoopAction.brings : LoopAction → List Node
  | .other op => op.remembered?.toList
  | .seed seeding _ _ => seeding.nodes
  | _ => []

namespace Loop

variable {C : Type} (fleetStateChecksum : Option NodeMetadata → List NodeMetadata → C)

theorem mem_seedNodes {loop : Loop C} {seeding : Seeding} {node : Node}
    (h : node ∈ loop.seedNodes seeding) : node ∈ seeding.nodes := by
  cases seeding with
  | failsAtSeeds seeds => exact h
  | failsAtStorage seeds stored =>
      rcases List.mem_append.mp h with hseed | hstored
      · exact List.mem_append_left _ hseed
      · exact List.mem_append_right _ (List.mem_filter.mp hstored).1
  | completes seeds stored =>
      rcases List.mem_append.mp h with hseed | hstored
      · exact List.mem_append_left _ hseed
      · exact List.mem_append_right _ (List.mem_filter.mp hstored).1

/-- A step remembers only what it brings in, and the next sprout of the round. -/
theorem ops_remembered {loop : Loop C} {action : LoopAction} {op : Learner.Op} {node : Node}
    (hop : op ∈ loop.ops action) (hnode : op.remembered? = some node) :
    node ∈ action.brings ∨ node ∈ loop.phase.sprouts := by
  cases action with
  | other op' =>
      rw [List.mem_singleton.mp hop] at hnode
      exact Or.inl (by simp [LoopAction.brings, hnode])
  | seed seeding remember context =>
      left
      rcases List.mem_append.mp hop with hseed | hrecord
      · rcases List.mem_map.mp hseed with ⟨seed, hmem, rfl⟩
        cases hnode
        exact mem_seedNodes hmem
      · split at hrecord
        · split at hrecord
          · cases hrecord
          · rw [List.mem_singleton.mp hrecord] at hnode
            cases hnode
        · cases hrecord
  | ask cancelled shuffle => cases hop
  | reply reply shuffle =>
      cases reply with
      | invalidNode =>
          simp only [ops] at hop
          split at hop
          · rw [List.mem_singleton.mp hop] at hnode
            cases hnode
          · cases hop
      | nodeSeemsToBeDown => cases hop
      | raised => cases hop
      | response code payload => cases hop
  | sprout eager caught context =>
      simp only [ops] at hop
      split at hop
      · next hphase =>
          rw [List.mem_singleton.mp hop] at hnode
          cases hnode
          exact Or.inr (by simp [hphase, Phase.sprouts])
      · cases hop
  | record context =>
      simp only [ops] at hop
      split at hop
      · rw [List.mem_singleton.mp hop] at hnode
        cases hnode
      · cases hop
  | report now => cases hop

/-- The sprouts of a round come from the response to it. -/
theorem step_sprouts {loop loop' : Loop C} {action : LoopAction}
    (h : loop.step fleetStateChecksum action = some loop') {sprout : Node}
    (hsprout : sprout ∈ loop'.phase.sprouts) :
    sprout ∈ loop.phase.sprouts ∨
      ∃ code updated nodes shuffle metadata,
        action = .reply (.response code (some (updated, nodes))) shuffle ∧ metadata ∈ nodes ∧
          sprout = nodeSprout metadata := by
  cases action with
  | other op =>
      cases h
      exact Or.inl hsprout
  | seed seeding remember context =>
      left
      simp only [step] at h
      split at h
      · split at h
        · cases h
        · cases h
          cases seeding <;> simp_all [loadSeednodes, Phase.sprouts]
      · cases h
  | ask cancelled shuffle =>
      left
      have hasked : ∀ remembered,
          (loop.ask remembered cancelled shuffle).phase.sprouts = [] := by
        intro remembered
        simp only [ask]
        cases hchosen : ({ loop with learningRound := loop.learningRound + 1, phase := .idle } :
            Loop C).currentTeacher shuffle with
        | none => rfl
        | some chosen =>
            have hphase : chosen.1.phase = .idle := (currentTeacher_chosen hchosen).1.phase
            cases cancelled with
            | false => rfl
            | true => simp [hphase, Phase.sprouts]
      simp only [step] at h
      split at h
      · split at h
        · cases h
          simp [hasked] at hsprout
        · cases h
      · cases h
        simp [hasked] at hsprout
      · cases h
  | reply reply shuffle =>
      simp only [step] at h
      split at h
      · next teacher remembered hphase =>
          cases h
          by_cases hresponse : ∃ code payload, reply = .response code payload
          · rcases hresponse with ⟨code, payload, rfl⟩
            rcases (handleReply_response loop teacher remembered code payload shuffle).2 with
              hidle | ⟨updated, -, hreporting⟩ | ⟨updated, metadata, nodes, hpayload, hlearning⟩
            · simp [hidle, Phase.sprouts] at hsprout
            · simp [hreporting, Phase.sprouts] at hsprout
            · rw [hlearning, Phase.sprouts] at hsprout
              rcases List.mem_map.mp hsprout with ⟨other, hother, rfl⟩
              exact Or.inr ⟨code, updated, metadata :: nodes, shuffle, other, by rw [hpayload],
                hother, rfl⟩
          · have hidle := handleReply_exception_phase loop teacher remembered
              (fun code payload heq => hresponse ⟨code, payload, heq⟩) shuffle
            simp [hidle, Phase.sprouts] at hsprout
      · cases h
  | sprout eager caught context =>
      left
      simp only [step] at h
      split at h
      · next teacher updated announced next sprouts remembered hphase =>
          cases h
          rw [hphase]
          rcases (learnSprout_cases fleetStateChecksum loop teacher updated announced next sprouts
            remembered eager caught context).2 with hidle | ⟨remembered', hlearning, -⟩
          · simp [hidle, Phase.sprouts] at hsprout
          · rw [hlearning] at hsprout
            exact List.mem_cons_of_mem _ hsprout
      · cases h
  | record context =>
      left
      simp only [step] at h
      split at h
      · cases h
        simp [recordRemembered, Phase.sprouts] at hsprout
      · cases h
  | report now =>
      left
      simp only [step] at h
      split at h
      · split at h
        · cases h
          simp [Phase.sprouts] at hsprout
        · cases h
          simp [Phase.sprouts] at hsprout
      · cases h

end Loop

namespace Network

variable {ι C : Type} [DecidableEq ι] [DecidableEq C] {D : Deployment ι C}

/-- The nodes that a step brings into the network. -/
def brings : NetworkAction ι → List Node
  | .own _ action => action.brings
  | _ => []

/-- The addresses that a step marks at a party. -/
def marks (D : Deployment ι C) (net : Network ι C) (action : NetworkAction ι) (party : ι) :
    List ChecksumAddress :=
  (net.ops D action party).filterMap Learner.Op.marked?

/-- What a connection carries is published. -/
def Supplies (D : Deployment ι C) (published : Set Node) : Connection ι → Prop
  | .closed => True
  | .requested _ data => ∃ checksum announced,
      data = metadataRequestData (D.metadataRequest checksum announced) localVersion ∧
        ∀ metadata ∈ announced, nodeSprout metadata ∈ published
  | .answered answer => ∀ teacher code updated nodes,
      D.reply teacher answer = .response code (some (updated, nodes)) →
        ∀ metadata ∈ nodes, nodeSprout metadata ∈ published

/-- All that the parties know, have accumulated, have still to remember or are sent is
published. -/
structure Sourced (D : Deployment ι C) (published : Set Node) (dropped : ι → Set ChecksumAddress)
    (net : Network ι C) : Prop where
  accounted : ∀ party,
    Learner.Accounted published (dropped party) (net.loops party).learner
  known : ∀ party address node,
    (net.loops party).learner.known? address = some node → node ∈ published
  sprouts : ∀ party, ∀ sprout ∈ (net.loops party).phase.sprouts, sprout ∈ published
  connections : ∀ party, Supplies D published (net.connections party)

variable {published : Set Node} {dropped : ι → Set ChecksumAddress}

omit [DecidableEq ι] in
/-- What a server goes through is what the request announces. -/
theorem announcedNodes_published (hfaithful : D.Faithful) {learner : Learner C} {party teacher : ι}
    {data : Bytes} {contexts : Nat → RememberContext}
    (h : Supplies D published (.requested teacher data)) {metadata : NodeMetadata}
    (hmem : metadata ∈ (D.app party).announcedNodes learner ⟨data, contexts⟩) :
    nodeSprout metadata ∈ published := by
  rcases h with ⟨checksum, announced, rfl, hannounced⟩
  unfold RestApp.announcedNodes at hmem
  split at hmem
  · next request hparsed =>
      split at hmem
      · cases hmem
      · -- The choice of the teacher does not matter for what is written.
        have hwritten := (hfaithful (nodeSprout metadata) party).parseRequest hparsed
        cases hwritten
        exact hannounced metadata hmem
  · cases hmem

/-- The operations of a step remember published nodes and mark addresses to be dropped. -/
theorem ops_within (hfaithful : D.Faithful) {net : Network ι C}
    (hnet : net.Sourced D published dropped) {action : NetworkAction ι}
    (hbrings : ∀ node ∈ brings action, node ∈ published) {party : ι}
    (hmarks : ∀ address ∈ net.marks D action party, address ∈ dropped party) :
    ∀ op ∈ net.ops D action party, op.Within published (dropped party) := by
  intro op hop
  refine ⟨fun node hnode => ?_, fun address haddress => ?_⟩
  · cases action with
    | own mover action =>
        simp only [ops] at hop
        split at hop
        · rcases Loop.ops_remembered hop hnode with hbrought | hsprout
          · exact hbrings node hbrought
          · exact hnet.sprouts mover node hsprout
        · cases hop
    | send mover => cases hop
    | serve mover contexts =>
        simp only [ops] at hop
        split at hop
        · next teacher data hrequested =>
            split at hop
            · rcases ((D.app teacher).announceOps_remembered hop).2 node hnode with
                ⟨metadata, hmetadata, rfl⟩
              have hsupplies := hnet.connections mover
              rw [hrequested] at hsupplies
              exact announcedNodes_published hfaithful hsupplies hmetadata
            · cases hop
        · cases hop
    | receive mover shuffle => cases hop
    | fail mover failure shuffle =>
        simp only [ops] at hop
        split at hop
        · rcases Loop.ops_remembered hop hnode with hbrought | hsprout
          · cases hbrought
          · exact hnet.sprouts mover node hsprout
        · cases hop
  · exact hmarks address (List.mem_filterMap.mpr ⟨op, hop, haddress⟩)

/-- Sprouts come with a response, which is what the connection carries. -/
theorem step_sprouts_published {net net' : Network ι C} (hnet : net.Sourced D published dropped)
    {action : NetworkAction ι} (hstep : net.step D action = some net') (party : ι) :
    ∀ sprout ∈ (net'.loops party).phase.sprouts, sprout ∈ published := by
  intro sprout hsprout
  have hloop : ∀ mover action loop, (net.loops mover).step D.fleetStateChecksum action =
      some loop → (∀ code payload shuffle,
        action = .reply (.response code payload) shuffle → ∃ node answer,
          net.connections mover = .answered answer ∧
            D.reply node answer = .response code payload) →
      sprout ∈ (Function.update net.loops mover loop party).phase.sprouts →
        sprout ∈ published := by
    intro mover action loop hstep' hreply hmem
    by_cases hmover : party = mover
    · subst hmover
      rw [Function.update_self] at hmem
      rcases Loop.step_sprouts D.fleetStateChecksum hstep' hmem with
        hold | ⟨code, updated, nodes, shuffle, metadata, rfl, hmetadata, rfl⟩
      · exact hnet.sprouts party sprout hold
      · rcases hreply code (some (updated, nodes)) shuffle rfl with
          ⟨node, answer, hanswered, hread⟩
        have hsupplies := hnet.connections party
        rw [hanswered] at hsupplies
        exact hsupplies node code updated nodes hread metadata hmetadata
    · rw [Function.update_of_ne hmover] at hmem
      exact hnet.sprouts party sprout hmem
  cases action with
  | own mover action =>
      rcases step_own hstep with ⟨hreply, loop, hstep', rfl⟩
      refine hloop mover action loop hstep' ?_ hsprout
      intro code payload shuffle heq
      simp [heq, LoopAction.isReply] at hreply
  | send mover =>
      rcases step_send hstep with ⟨node, remembered, teacher, -, -, -, rfl⟩
      exact hnet.sprouts party sprout hsprout
  | serve mover contexts =>
      rcases step_serve hstep with ⟨teacher, data, thisNode, -, -, rfl⟩
      rw [served_phase] at hsprout
      exact hnet.sprouts party sprout hsprout
  | receive mover shuffle =>
      rcases step_receive hstep with ⟨node, remembered, answer, loop, -, hanswered, hstep', rfl⟩
      refine hloop mover _ loop hstep' ?_ hsprout
      intro code payload shuffle' heq
      exact ⟨node, answer, hanswered, (LoopAction.reply.inj heq).1⟩
  | fail mover failure shuffle =>
      rcases step_fail hstep with ⟨loop, hstep', rfl⟩
      refine hloop mover _ loop hstep' ?_ hsprout
      intro code payload shuffle' heq
      cases failure <;> cases heq

/-- A request announces its party, and an answer is read as what the teacher knows. -/
theorem step_connections_supply (hfaithful : D.Faithful)
    (hown : ∀ party metadata, D.metadata party = some metadata → nodeSprout metadata ∈ published)
    {net net' : Network ι C} (hnet : net.Sourced D published dropped) {action : NetworkAction ι}
    (hstep : net.step D action = some net')
    (hknown : ∀ party address node,
      (net'.loops party).learner.known? address = some node → node ∈ published) (party : ι) :
    Supplies D published (net'.connections party) := by
  have hupdate : ∀ mover connection, Supplies D published connection →
      Supplies D published (Function.update net.connections mover connection party) := by
    intro mover connection hconnection
    by_cases hmover : party = mover
    · subst hmover
      rw [Function.update_self]
      exact hconnection
    · rw [Function.update_of_ne hmover]
      exact hnet.connections party
  cases action with
  | own mover action =>
      rcases step_own hstep with ⟨-, loop, -, rfl⟩
      exact hnet.connections party
  | send mover =>
      rcases step_send hstep with ⟨node, remembered, teacher, -, -, -, rfl⟩
      refine hupdate mover _ ⟨_, (D.metadata mover).toList, rfl, ?_⟩
      intro metadata hmetadata
      exact hown mover metadata (by simpa using hmetadata)
  | serve mover contexts =>
      rcases step_serve hstep with ⟨teacher, data, thisNode, hrequested, hmetadata, rfl⟩
      refine hupdate mover _ ?_
      intro node code updated nodes hread metadata hmem
      rcases Deployment.reply_exchange hfaithful hread with ⟨rfl, -⟩ | hnodes
      · cases hmem
      · rw [hnodes] at hmem
        rcases List.mem_cons.mp hmem with rfl | hvalue
        · exact hown teacher metadata hmetadata
        · rcases List.mem_map.mp hvalue with ⟨value, hstored, rfl⟩
          rcases Dict.mem_values_iff_exists.mp hstored with ⟨address, haddress⟩
          have hpublished := hknown teacher address value
          simp only [served, withConnection_loops, withLoop_loops, Function.update_self]
            at hpublished
          exact hpublished haddress
  | receive mover shuffle =>
      rcases step_receive hstep with ⟨node, remembered, answer, loop, -, -, -, rfl⟩
      exact hupdate mover _ trivial
  | fail mover failure shuffle =>
      rcases step_fail hstep with ⟨loop, -, rfl⟩
      exact hupdate mover _ trivial

/-- What one step of the network makes of the nodes that each party knows. -/
theorem step_sourced (hfaithful : D.Faithful)
    (hown : ∀ party metadata, D.metadata party = some metadata → nodeSprout metadata ∈ published)
    {net net' : Network ι C} (hnet : net.Sourced D published dropped) {action : NetworkAction ι}
    (hbrings : ∀ node ∈ brings action, node ∈ published)
    (hmarks : ∀ party, ∀ address ∈ net.marks D action party, address ∈ dropped party)
    (hstep : net.step D action = some net') :
    net'.Sourced D published dropped ∧
      ∀ party, Advances Node.timestamp published (dropped party)
        (net.loops party).learner.known? (net'.loops party).learner.known? := by
  have hlearners : ∀ party,
      Learner.Accounted published (dropped party) (net'.loops party).learner ∧
        Advances Node.timestamp published (dropped party)
          (net.loops party).learner.known? (net'.loops party).learner.known? := by
    intro party
    have hsame := step_learner hstep party
    rcases Learner.run_accounted D.fleetStateChecksum (hnet.accounted party)
      (ops_within hfaithful hnet hbrings (hmarks party)) with ⟨haccounted, hadvances⟩
    rw [← hsame.known?_eq] at hadvances
    exact ⟨hsame.accounted haccounted, hadvances⟩
  have hknown : ∀ party address node,
      (net'.loops party).learner.known? address = some node → node ∈ published := by
    intro party address node hnode
    rcases (hlearners party).2.sourced address node hnode with hold | hnew
    · exact hnet.known party address node hold
    · exact hnew
  exact ⟨⟨fun party => (hlearners party).1, hknown, step_sprouts_published hnet hstep,
    step_connections_supply hfaithful hown hnet hstep hknown⟩, fun party => (hlearners party).2⟩

/-! ## Runs -/

/-- The addresses that the steps of a run mark at a party. -/
def marksAlong (D : Deployment ι C) (net : Network ι C) (party : ι) :
    List (NetworkAction ι) → List ChecksumAddress
  | [] => []
  | action :: actions =>
      net.marks D action party ++
        match net.step D action with
        | none => []
        | some next => marksAlong D next party actions

/-- The nodes that were there at the start, that teach, or that the steps of a run bring in. -/
def sources (D : Deployment ι C) (net : Network ι C) (actions : List (NetworkAction ι)) :
    Set Node :=
  {node | (∃ party address, (net.loops party).learner.known? address = some node) ∨
    (∃ party, node ∈ (net.loops party).learner.knownNodes.nodesToAdd.elems) ∨
    (∃ party metadata, D.metadata party = some metadata ∧ node = nodeSprout metadata) ∨
    ∃ action ∈ actions, node ∈ brings action}

/-- The addresses that were marked at a party at the start, or are marked during a run. -/
def droppedAlong (D : Deployment ι C) (net : Network ι C) (actions : List (NetworkAction ι))
    (party : ι) : Set ChecksumAddress :=
  {address | address ∈ (net.loops party).learner.knownNodes.nodesToRemove ∨
    address ∈ net.marksAlong D party actions}

/-- No round is under way, and what is accumulated is newer than what is recorded. -/
structure AtRest (net : Network ι C) : Prop where
  idle : ∀ party, (net.loops party).phase = .idle
  closed : ∀ party, net.connections party = .closed
  newer : ∀ party, Learner.PendingNewer (net.loops party).learner.knownNodes

/-- A run whose steps all keep to the published nodes and the addresses to be dropped. -/
theorem run_sourced (hfaithful : D.Faithful)
    (hown : ∀ party metadata, D.metadata party = some metadata → nodeSprout metadata ∈ published)
    {net net' : Network ι C} (hnet : net.Sourced D published dropped)
    {actions : List (NetworkAction ι)}
    (hbrings : ∀ action ∈ actions, ∀ node ∈ brings action, node ∈ published)
    (hmarks : ∀ party, ∀ address ∈ net.marksAlong D party actions, address ∈ dropped party)
    (hrun : Execution.run (step D) net actions = some net') :
    net'.Sourced D published dropped ∧
      ∀ party, Advances Node.timestamp published (dropped party)
        (net.loops party).learner.known? (net'.loops party).learner.known? := by
  induction actions generalizing net with
  | nil =>
      have heq : net = net' := by simpa [Execution.run] using hrun
      subst heq
      exact ⟨hnet, fun party => Advances.refl ..⟩
  | cons action actions ih =>
      rw [Execution.run, List.foldlM_cons] at hrun
      cases hstep : step D net action with
      | none => simp [hstep] at hrun
      | some next =>
          rw [hstep] at hrun
          simp only [marksAlong, hstep, List.mem_append] at hmarks
          rcases step_sourced hfaithful hown hnet (hbrings action List.mem_cons_self)
            (fun party address haddress => hmarks party address (Or.inl haddress)) hstep with
            ⟨hnext, hadvances⟩
          rcases ih hnext (fun other hmem => hbrings other (List.mem_cons_of_mem _ hmem))
            (fun party address haddress => hmarks party address (Or.inr haddress)) hrun with
            ⟨hlast, hrest⟩
          exact ⟨hlast, fun party => (hadvances party).trans (hrest party)⟩

/-- Along every run every party is a sound replica of the directory of published nodes: whatever
it knows in the end it knew before, or was known to some party, was brought in or teaches; and
every address that it does not mark keeps its node or gets a newer one. -/
theorem run_directory (hfaithful : D.Faithful) {net net' : Network ι C}
    {actions : List (NetworkAction ι)} (hrest : net.AtRest)
    (hrun : Execution.run (step D) net actions = some net') (party : ι) :
    Advances Node.timestamp (net.sources D actions) (net.droppedAlong D actions party)
      (net.loops party).learner.known? (net'.loops party).learner.known? := by
  have hnet : net.Sourced D (net.sources D actions) (net.droppedAlong D actions) := by
    constructor
    · intro party
      exact ⟨fun node hnode => Or.inr (Or.inl ⟨party, hnode⟩),
        fun address haddress => Or.inl haddress, hrest.newer party⟩
    · intro party address node hnode
      exact Or.inl ⟨party, address, hnode⟩
    · intro party sprout hsprout
      rw [hrest.idle party] at hsprout
      cases hsprout
    · intro party
      rw [hrest.closed party]
      trivial
  refine (run_sourced hfaithful ?_ hnet ?_ ?_ hrun).2 party
  · intro party metadata hmetadata
    exact Or.inr (Or.inr (Or.inl ⟨party, metadata, hmetadata, rfl⟩))
  · intro action haction node hnode
    exact Or.inr (Or.inr (Or.inr ⟨action, haction, hnode⟩))
  · intro party address haddress
    exact Or.inr haddress

end Network

/-! ## A learner and its teacher -/

/-- A learner that asks one teacher, with messages that stand for one request and one response. -/
def lessonDeployment : Deployment Bool (Finset NodeMetadata) where
  partyAt _ _ := some true
  metadata party := if party then some oldTeacher.metadata else none
  fleetStateChecksum := setChecksum
  verify := (appWith []).verify
  metadataRequest := (wireWith []).metadataRequest
  requestFromBytes := (appWith []).requestFromBytes
  metadataResponse _ := (appWith []).metadataResponse
  readMetadataResponse _ := (wireWith []).readMetadataResponse

theorem lessonDeployment_faithful : lessonDeployment.Faithful :=
  fun _ _ => singleWire_faithful _ _ _ _

/-- Both parties at the start. -/
def lessonStart : Network Bool (Finset NodeMetadata) where
  loops party :=
    if party then
      Loop.new setChecksum (some oldTeacher.stamp) false true true "mainnet" true 0
    else Loop.new setChecksum none false true true "mainnet" false 0
  connections _ := .closed

/-- The teacher remembers the newcomer, and the learner remembers the teacher and asks it. -/
def lessonOpening : List (NetworkAction Bool) :=
  [.own true (.other (.rememberNode newcomer false true false teacherContext)),
    .own false (.other (.rememberNode oldTeacher false true false Learner.plainRememberContext)),
    .own false (.seed (.completes [] []) Learner.plainRememberContext FleetSensor.plainContext),
    .own false (.ask false Reorder.identity), .send false]

/-- What the learner does with the answer. -/
def lessonRound : List (NetworkAction Bool) :=
  [.receive false Reorder.identity,
    .own false (.sprout false false Learner.plainRememberContext),
    .own false (.sprout false false Learner.plainRememberContext),
    .own false (.record FleetSensor.plainContext)]

theorem lessonStart_atRest : lessonStart.AtRest where
  idle party := by cases party <;> rfl
  closed _ := rfl
  newer party := by
    cases party
    · exact Learner.new_pendingNewer setChecksum none false true true "mainnet" false 0
    · exact Learner.new_pendingNewer setChecksum (some oldTeacher.stamp) false true true "mainnet"
        true 0

/-- The learner gets to know the newcomer. -/
theorem run_directory_lesson :
    ∃ net, Execution.run (Network.step lessonDeployment) lessonStart
        (lessonOpening ++ .serve false (fun _ => teacherContext) :: lessonRound) = some net ∧
      (net.loops false).learner.known? newcomer.checksumAddress = some newcomer ∧
      Advances Node.timestamp
        (lessonStart.sources lessonDeployment
          (lessonOpening ++ .serve false (fun _ => teacherContext) :: lessonRound))
        (lessonStart.droppedAlong lessonDeployment
          (lessonOpening ++ .serve false (fun _ => teacherContext) :: lessonRound) false)
        (lessonStart.loops false).learner.known? (net.loops false).learner.known? := by
  have hend : (Execution.run (Network.step lessonDeployment) lessonStart
      (lessonOpening ++ .serve false (fun _ => teacherContext) :: lessonRound)).map
        (fun net => (net.loops false).learner.known? newcomer.checksumAddress) =
      some (some newcomer) := by
    decide
  rcases Option.map_eq_some_iff.mp hend with ⟨net, hrun, hknown⟩
  exact ⟨net, hrun, hknown,
    Network.run_directory lessonDeployment_faithful lessonStart_atRest hrun false⟩

end NuLink
