import NuLinkCore.Lib.Replication
import NuLinkCore.Network.FleetExchange

/-!
# What the loop and the server do to a learner

Every step of the learning loop and every request to the REST server acts on the learner
by a list of operations.  Seen as a replica of a directory of nodes, a learner takes up
remembered nodes when it records its fleet state, and drops the addresses that were marked.

Main results:

- Theorem {lit}`Learner.step_cases`: everything an operation can do to the fleet sensor.
- Theorem {lit}`Learner.run_accounted`: what a run of operations makes of the known nodes.
- Theorem {lit}`Loop.step_learner`: the operations of a step of the loop.
- Theorem {lit}`RestApp.nodeMetadataExchange_eq_run`: the operations of a request.
-/

namespace NuLink

open Collections Replication

namespace Learner

variable {C : Type} (fleetStateChecksum : Option NodeMetadata → List NodeMetadata → C)

/-- The node that an operation remembers. -/
def Op.remembered? : Op → Option Node
  | .rememberNode node _ _ _ _ => some node
  | .recordFleetState _ _ => none
  | .markAs _ => none

/-- The address that an operation marks. -/
def Op.marked? : Op → Option ChecksumAddress
  | .rememberNode _ _ _ _ _ => none
  | .recordFleetState _ _ => none
  | .markAs node => some node.checksumAddress

/-- What an operation meets if it records the fleet state. -/
def Op.context? : Op → Option RecordContext
  | .rememberNode _ _ _ _ context => some context.record
  | .recordFleetState _ context => some context
  | .markAs _ => none

/-! ## What an operation does to the fleet sensor -/

/-- The fleet sensor with the node that an operation accumulates, if any. -/
inductive Accumulates (learner : Learner C) (op : Op) : FleetSensor C → Prop where
  | nothing : Accumulates learner op learner.knownNodes
  | node (node : Node) (context : RecordContext) (hop : op.remembered? = some node)
      (hadmits : learner.Admits node) :
      Accumulates learner op (learner.knownNodes.recordNode fleetStateChecksum node context)

/-- Everything an operation can do to the fleet sensor: mark a node, accumulate one, record the
fleet state. -/
theorem step_cases (learner : Learner C) (op : Op) :
    (∃ node, op = .markAs node) ∨
      ∃ sensor, Accumulates fleetStateChecksum learner op sensor ∧
        ((learner.step fleetStateChecksum op).knownNodes = sensor ∨
          ∃ skip context, op.context? = some context ∧
            (learner.step fleetStateChecksum op).knownNodes =
              sensor.recordFleetState fleetStateChecksum skip context) := by
  cases op with
  | rememberNode node force recordFleetState eager context =>
      right
      rcases rememberNode_knownNodes fleetStateChecksum learner node force recordFleetState eager
        context with hsame | ⟨hadmits, hrecorded | hflushed⟩
      · exact ⟨_, .nothing, Or.inl hsame⟩
      · exact ⟨_, .node node context.record rfl hadmits, Or.inl hrecorded⟩
      · exact ⟨_, .node node context.record rfl hadmits,
          Or.inr ⟨false, context.record, rfl, hflushed⟩⟩
  | recordFleetState skip context =>
      exact Or.inr ⟨_, .nothing, Or.inr ⟨skip, context, rfl, rfl⟩⟩
  | markAs node => exact Or.inl ⟨node, rfl⟩

section Accumulates

variable {fleetStateChecksum : Option NodeMetadata → List NodeMetadata → C}
  {learner : Learner C} {op : Op} {sensor : FleetSensor C}

theorem Accumulates.currentState (h : Accumulates fleetStateChecksum learner op sensor) :
    sensor.currentState = learner.knownNodes.currentState := by
  cases h with
  | nothing => rfl
  | node node context => exact recordNode_currentState fleetStateChecksum _ node context

theorem Accumulates.nodesToRemove (h : Accumulates fleetStateChecksum learner op sensor) :
    sensor.nodesToRemove = learner.knownNodes.nodesToRemove := by
  cases h with
  | nothing => rfl
  | node node context => exact Loop.recordNode_nodesToRemove fleetStateChecksum _ node context

/-- What is accumulated was before, or is an admitted node. -/
theorem Accumulates.pending (h : Accumulates fleetStateChecksum learner op sensor) :
    ∀ other ∈ sensor.nodesToAdd.elems, other ∈ learner.knownNodes.nodesToAdd.elems ∨
      op.remembered? = some other ∧ learner.Admits other := by
  cases h with
  | nothing => exact fun other hother => Or.inl hother
  | node node context hop hadmits =>
      by_cases hdomain : node.domain = learner.knownNodes.domain
      · rw [FleetSensor.recordNode_of_domain fleetStateChecksum context hdomain]
        intro other hother
        rcases KeyedSet.mem_replace.mp hother with rfl | ⟨hold, -⟩
        · exact Or.inr ⟨hop, hadmits⟩
        · exact Or.inl hold
      · rw [FleetSensor.recordNode_of_foreign fleetStateChecksum context hdomain]
        exact fun other hother => Or.inl hother

theorem Accumulates.newer (h : Accumulates fleetStateChecksum learner op sensor)
    (hnewer : PendingNewer learner.knownNodes) : PendingNewer sensor := by
  cases h with
  | nothing => exact hnewer
  | node node context hop hadmits =>
      exact recordNode_pendingNewer fleetStateChecksum hnewer
        (isOutdated_eq_false_iff.mp hadmits.2) context

end Accumulates

/-! ## Operations as changes of a directory -/

/-- The operation remembers only published nodes, and marks only addresses to be dropped. -/
def Op.Within (published : Set Node) (dropped : Set ChecksumAddress) (op : Op) : Prop :=
  (∀ node, op.remembered? = some node → node ∈ published) ∧
    ∀ address, op.marked? = some address → address ∈ dropped

/-- The accumulated nodes are published ones, each newer than what is recorded, and only addresses
to be dropped are marked. -/
structure Accounted (published : Set Node) (dropped : Set ChecksumAddress) (learner : Learner C) :
    Prop where
  pending : ∀ node ∈ learner.knownNodes.nodesToAdd.elems, node ∈ published
  marked : ∀ address ∈ learner.knownNodes.nodesToRemove, address ∈ dropped
  newer : PendingNewer learner.knownNodes

variable {published : Set Node} {dropped : Set ChecksumAddress}

/-- Recording the fleet state takes up the accumulated nodes and drops the marked addresses. -/
theorem recordFleetState_advances {sensor : FleetSensor C}
    (hpending : ∀ node ∈ sensor.nodesToAdd.elems, node ∈ published)
    (hmarked : ∀ address ∈ sensor.nodesToRemove, address ∈ dropped)
    (hnewer : PendingNewer sensor) (skip : Bool) (context : RecordContext) :
    Advances Node.timestamp published dropped sensor.currentState.nodes.get?
      (sensor.recordFleetState fleetStateChecksum skip context).currentState.nodes.get? where
  sourced := by
    intro address node hnode
    rcases FleetSensor.get?_recordFleetState_some fleetStateChecksum hnode with hold | ⟨hmem, -⟩
    · exact Or.inl hold
    · exact Or.inr (hpending node hmem)
  kept := by
    intro address old haddress hold
    have hunmarked : address ∉ sensor.nodesToRemove := fun hmem => haddress (hmarked address hmem)
    have hlookup := FleetSensor.get?_recordFleetState fleetStateChecksum sensor skip context address
    rw [if_neg hunmarked] at hlookup
    split at hlookup
    · next hupdate =>
        rcases hupdate with ⟨update, hupdate, -, haddr⟩
        have hkey : address ∈ (FleetState.nodesToAddDict
            (context.order.apply sensor.nodesToAdd.elems)).keys :=
          FleetState.mem_keys_nodesToAddDict.mpr ⟨update, by simpa using hupdate, haddr⟩
        rcases Dict.mem_keys_iff_exists.mp hkey with ⟨node, hnode⟩
        rcases FleetState.get?_nodesToAddDict_some hnode with ⟨hmem, hnodeAddr⟩
        refine ⟨node, hlookup.trans hnode, Or.inr ?_⟩
        exact hnewer node (by simpa using hmem) old (hnodeAddr ▸ hold)
    · exact ⟨old, hlookup.trans hold, Or.inl rfl⟩

/-- One operation keeps the account and advances the known nodes. -/
theorem step_accounted {learner : Learner C} (h : Accounted published dropped learner) {op : Op}
    (hop : op.Within published dropped) :
    Accounted published dropped (learner.step fleetStateChecksum op) ∧
      Advances Node.timestamp published dropped learner.known?
        (learner.step fleetStateChecksum op).known? := by
  have hnewer := step_pendingNewer fleetStateChecksum h.newer op
  have hunchanged : (learner.step fleetStateChecksum op).knownNodes.currentState =
      learner.knownNodes.currentState →
      Advances Node.timestamp published dropped learner.known?
        (learner.step fleetStateChecksum op).known? := by
    intro hstate
    have hview : (learner.step fleetStateChecksum op).known? = learner.known? := by
      funext address
      rw [known?, known?, hstate]
    rw [hview]
    exact Advances.refl ..
  rcases step_cases fleetStateChecksum learner op with
    ⟨node, rfl⟩ | ⟨sensor, haccumulates, hsensor | ⟨skip, context, -, hflushed⟩⟩
  · refine ⟨⟨?_, ?_, hnewer⟩, hunchanged (markAs_currentState learner.knownNodes node)⟩
    · simp only [step, markAs_nodesToAdd]
      exact h.pending
    · intro address haddress
      simp only [step, FleetSensor.markAs] at haddress
      split at haddress
      · exact h.marked address haddress
      · rcases List.mem_append.mp haddress with hold | hnew
        · exact h.marked address hold
        · rw [List.mem_singleton.mp hnew]
          exact hop.2 _ rfl
  all_goals
    have hpending : ∀ other ∈ sensor.nodesToAdd.elems, other ∈ published := by
      intro other hother
      rcases haccumulates.pending other hother with hold | ⟨hremembered, -⟩
      · exact h.pending other hold
      · exact hop.1 other hremembered
  · refine ⟨⟨?_, ?_, hnewer⟩, hunchanged ?_⟩
    · rw [hsensor]
      exact hpending
    · rw [hsensor, haccumulates.nodesToRemove]
      exact h.marked
    · rw [hsensor, haccumulates.currentState]
  · refine ⟨⟨?_, ?_, hnewer⟩, ?_⟩
    · rw [hflushed, FleetSensor.recordFleetState_nodesToAdd]
      simp
    · rw [hflushed, FleetSensor.recordFleetState_nodesToRemove]
      simp
    · have hadvances := recordFleetState_advances fleetStateChecksum hpending
        (haccumulates.nodesToRemove ▸ h.marked) (haccumulates.newer h.newer) skip context
      rw [haccumulates.currentState] at hadvances
      have hview : (learner.step fleetStateChecksum op).known? =
          (sensor.recordFleetState fleetStateChecksum skip context).currentState.nodes.get? := by
        funext address
        rw [known?, hflushed]
      rw [hview]
      exact hadvances

/-- What a run of operations makes of the known nodes. -/
theorem run_accounted {learner : Learner C} (h : Accounted published dropped learner)
    {ops : List Op} (hops : ∀ op ∈ ops, op.Within published dropped) :
    Accounted published dropped (learner.run fleetStateChecksum ops) ∧
      Advances Node.timestamp published dropped learner.known?
        (learner.run fleetStateChecksum ops).known? := by
  induction ops generalizing learner with
  | nil => exact ⟨h, Advances.refl ..⟩
  | cons op ops ih =>
      rcases step_accounted fleetStateChecksum h (hops op List.mem_cons_self) with
        ⟨hstep, hadvances⟩
      rcases ih hstep (fun other hmem => hops other (List.mem_cons_of_mem _ hmem)) with
        ⟨hrun, hrest⟩
      exact ⟨hrun, hadvances.trans hrest⟩

/-- Two learners that differ at most in what they store and in what they know of the fleet states
of others. -/
structure SameNodes (learner learner' : Learner C) : Prop where
  stamp : learner'.stamp = learner.stamp
  domain : learner'.knownNodes.domain = learner.knownNodes.domain
  currentState : learner'.knownNodes.currentState = learner.knownNodes.currentState
  nodesToAdd : learner'.knownNodes.nodesToAdd = learner.knownNodes.nodesToAdd
  nodesToRemove : learner'.knownNodes.nodesToRemove = learner.knownNodes.nodesToRemove

theorem SameNodes.refl (learner : Learner C) : SameNodes learner learner :=
  ⟨rfl, rfl, rfl, rfl, rfl⟩

theorem SameNodes.known?_eq {learner learner' : Learner C} (h : SameNodes learner learner') :
    learner'.known? = learner.known? := by
  funext address
  rw [known?, known?, h.currentState]

theorem SameNodes.accounted {learner learner' : Learner C} (h : SameNodes learner learner')
    (haccounted : Accounted published dropped learner) : Accounted published dropped learner' where
  pending := by
    rw [h.nodesToAdd]
    exact haccounted.pending
  marked := by
    rw [h.nodesToRemove]
    exact haccounted.marked
  newer := by
    intro node hnode old hold
    rw [h.nodesToAdd] at hnode
    rw [h.currentState] at hold
    exact haccounted.newer node hnode old hold

end Learner

/-! ## The operations of the loop -/

namespace Loop

variable {C : Type} (fleetStateChecksum : Option NodeMetadata → List NodeMetadata → C)

/-- The nodes that {lit}`load_seednodes` remembers. -/
def seedNodes (loop : Loop C) : Seeding → List Node
  | .failsAtSeeds seeds => seeds
  | .failsAtStorage seeds stored =>
      seeds ++ stored.filter (fun node => node.domain = loop.learner.knownNodes.domain)
  | .completes seeds stored =>
      seeds ++ stored.filter (fun node => node.domain = loop.learner.knownNodes.domain)

/-- The operations of {lit}`load_seednodes`. -/
def seedOps (loop : Loop C) (seeding : Seeding) (remember : RememberContext)
    (context : RecordContext) : List Learner.Op :=
  (loop.seedNodes seeding).map (fun node => .rememberNode node false false false remember) ++
    match seeding with
    | .completes _ _ =>
        if loop.seedNodes seeding = [] then [] else [.recordFleetState false context]
    | _ => []

/-- The operations that a step performs on the learner. -/
def ops (loop : Loop C) : LoopAction → List Learner.Op
  | .other op => [op]
  | .seed seeding remember context => loop.seedOps seeding remember context
  | .ask _ _ => []
  | .reply .invalidNode _ =>
      match loop.phase with
      | .asking teacher _ => [.markAs teacher]
      | _ => []
  | .reply _ _ => []
  | .sprout eager _ context =>
      match loop.phase with
      | .learning _ _ _ (sprout :: _) _ => [.rememberNode sprout false false eager context]
      | _ => []
  | .record context =>
      match loop.phase with
      | .learning _ _ _ [] true => [.recordFleetState false context]
      | _ => []
  | .report _ => []

theorem rememberAll_eq_run (learner : Learner C) (nodes : List Node) (context : RememberContext) :
    rememberAll fleetStateChecksum learner nodes context =
      learner.run fleetStateChecksum
        (nodes.map fun node => .rememberNode node false false false context) := by
  rw [rememberAll, Learner.run, List.foldl_map]
  rfl

theorem loadSeednodes_learner (loop : Loop C) (seeding : Seeding) (remember : RememberContext)
    (context : RecordContext) :
    (loop.loadSeednodes fleetStateChecksum seeding remember context).learner =
      loop.learner.run fleetStateChecksum (loop.seedOps seeding remember context) := by
  cases seeding with
  | failsAtSeeds seeds =>
      simp only [loadSeednodes, seedOps, seedNodes, List.append_nil, rememberAll_eq_run]
  | failsAtStorage seeds stored =>
      simp only [loadSeednodes, seedOps, seedNodes, List.append_nil, rememberAll_eq_run]
  | completes seeds stored =>
      by_cases hnone : loop.seedNodes (.completes seeds stored) = []
      · simp only [loadSeednodes, seedOps, rememberAll_eq_run, if_pos hnone, List.append_nil]
        exact if_pos hnone
      · simp only [loadSeednodes, seedOps, rememberAll_eq_run, if_neg hnone]
        rw [Learner.run, Learner.run, List.foldl_append]
        exact if_neg hnone

theorem cycle_getD_learner (loop : Loop C) (shuffle : Reorder Node) :
    ((loop.cycleTeacherNode shuffle).getD loop).learner = loop.learner := by
  cases hcycle : loop.cycleTeacherNode shuffle with
  | none => rfl
  | some cycled => exact (cycleTeacherNode_chosen hcycle).learner

theorem ask_learner (loop : Loop C) (remembered cancelled : Bool) (shuffle : Reorder Node) :
    (loop.ask remembered cancelled shuffle).learner = loop.learner := by
  simp only [ask]
  cases hchosen : ({ loop with learningRound := loop.learningRound + 1, phase := .idle } :
      Loop C).currentTeacher shuffle with
  | none => rfl
  | some chosen =>
      have hlearner := (currentTeacher_chosen hchosen).1.learner
      cases cancelled with
      | false => exact hlearner
      | true => exact hlearner

theorem recordRemote_sameNodes {loop : Loop C} {teacher : Node} {updated : Nat}
    {announced : Option Nat} {now : Nat} {knownNodes : FleetSensor C}
    (h : loop.recordRemote fleetStateChecksum teacher updated announced now = some knownNodes) :
    Learner.SameNodes loop.learner { loop.learner with knownNodes } := by
  simp only [recordRemote, FleetSensor.recordRemoteFleetState] at h
  split at h
  · cases h
    exact ⟨rfl, rfl, rfl, rfl, rfl⟩
  · cases h

/-- A step of the loop performs its operations on the learner. -/
theorem step_learner {loop loop' : Loop C} {action : LoopAction}
    (h : loop.step fleetStateChecksum action = some loop') :
    Learner.SameNodes (loop.learner.run fleetStateChecksum (loop.ops action)) loop'.learner := by
  have hsame : ∀ learner : Learner C,
      learner = loop.learner.run fleetStateChecksum (loop.ops action) →
      Learner.SameNodes (loop.learner.run fleetStateChecksum (loop.ops action)) learner := by
    intro learner hlearner
    rw [hlearner]
    exact Learner.SameNodes.refl _
  cases action with
  | other op =>
      cases h
      exact hsame _ rfl
  | seed seeding remember context =>
      simp only [step] at h
      split at h
      · split at h
        · cases h
        · cases h
          exact hsame _ (loadSeednodes_learner fleetStateChecksum loop seeding remember context)
      · cases h
  | ask cancelled shuffle =>
      simp only [step] at h
      split at h
      · split at h
        · cases h
          exact hsame _ (ask_learner loop _ _ _)
        · cases h
      · cases h
        exact hsame _ (ask_learner loop _ _ _)
      · cases h
  | reply reply shuffle =>
      simp only [step] at h
      split at h
      · next teacher remembered hphase =>
          cases h
          cases reply with
          | nodeSeemsToBeDown => exact hsame _ (cycle_getD_learner _ shuffle)
          | invalidNode =>
              refine hsame _ ((cycle_getD_learner _ shuffle).trans ?_)
              simp only [ops, hphase]
              rfl
          | raised => exact hsame _ (cycle_getD_learner _ shuffle)
          | response code payload =>
              exact hsame _ (handleReply_response loop teacher remembered code payload shuffle).1
      · cases h
  | sprout eager caught context =>
      simp only [step] at h
      split at h
      · next teacher updated announced sprout sprouts remembered hphase =>
          cases h
          refine hsame _ ?_
          rw [(learnSprout_cases fleetStateChecksum loop teacher updated announced sprout sprouts
            remembered eager caught context).1]
          simp only [ops, hphase]
          rfl
      · cases h
  | record context =>
      simp only [step] at h
      split at h
      · next teacher updated announced remembered hphase =>
          cases h
          refine hsame _ ?_
          simp only [ops, hphase, recordRemembered]
          cases remembered with
          | false => rfl
          | true => rfl
      · cases h
  | report now =>
      simp only [step] at h
      split at h
      · split at h
        · next knownNodes hknown =>
            cases h
            exact recordRemote_sameNodes fleetStateChecksum hknown
        · cases h
          exact hsame _ rfl
      · cases h

end Loop

/-! ## The operations of the server -/

namespace RestApp

variable {C : Type} (app : RestApp C)

/-- The operations of the loop over the announced nodes. -/
def announceOps (contexts : Nat → RememberContext) : List NodeMetadata → List Learner.Op
  | [] => []
  | metadata :: rest =>
      match app.verify metadata with
      | .error _ => announceOps (fun n => contexts (n + 1)) rest
      | .ok _ =>
          .rememberNode (nodeSprout metadata) false true false (contexts 0) ::
            announceOps (fun n => contexts (n + 1)) rest

theorem announceAll_eq_run (learner : Learner C) (contexts : Nat → RememberContext)
    (announced : List NodeMetadata) :
    app.announceAll learner contexts announced =
      learner.run app.fleetStateChecksum (app.announceOps contexts announced) := by
  induction announced generalizing learner contexts with
  | nil => rfl
  | cons metadata rest ih =>
      rw [announceAll, ih, announceOps, announce]
      cases app.verify metadata with
      | error message => rfl
      | ok valid => rfl

/-- Only announced nodes are remembered, and nothing is marked. -/
theorem announceOps_remembered {op : Learner.Op} {contexts : Nat → RememberContext}
    {announced : List NodeMetadata} (hop : op ∈ app.announceOps contexts announced) :
    op.marked? = none ∧
      ∀ node, op.remembered? = some node → ∃ metadata ∈ announced, node = nodeSprout metadata := by
  induction announced generalizing contexts with
  | nil => simp [announceOps] at hop
  | cons metadata rest ih =>
      have hrest : op ∈ app.announceOps (fun n => contexts (n + 1)) rest →
          op.marked? = none ∧ ∀ node, op.remembered? = some node →
            ∃ other ∈ metadata :: rest, node = nodeSprout other := by
        intro hmem
        rcases ih hmem with ⟨hmarked, hremembered⟩
        refine ⟨hmarked, fun node hnode => ?_⟩
        rcases hremembered node hnode with ⟨other, hother, hsprout⟩
        exact ⟨other, List.mem_cons_of_mem _ hother, hsprout⟩
      simp only [announceOps] at hop
      split at hop
      · exact hrest hop
      · rcases List.mem_cons.mp hop with rfl | hop
        · refine ⟨rfl, fun node hnode => ⟨metadata, List.mem_cons_self, ?_⟩⟩
          exact (Option.some.inj hnode).symm
        · exact hrest hop

variable [DecidableEq C]

/-- A request performs the operations for the nodes that it announces. -/
theorem nodeMetadataExchange_eq_run (thisNode : NodeMetadata) (learner : Learner C)
    (request : PostedMetadata) :
    (app.nodeMetadataExchange thisNode learner request).1 =
      learner.run app.fleetStateChecksum
        (app.announceOps request.contexts (app.announcedNodes learner request)) := by
  rw [nodeMetadataExchange_learner, announceAll_eq_run]

end RestApp

end NuLink
