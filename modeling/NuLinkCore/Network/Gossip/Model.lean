import NuLinkCore.Network.Gossip.Effects

/-!
# A network of learners

Every party runs a learning loop, and those with metadata of their own also serve the REST
interface.  The request that a loop makes to its teacher is a connection: it is opened
with the checksum of that moment, served at another, and answered or lost before the
round goes on.  Between any two of these steps every party may do anything else.

Main results:

- Theorem {lit}`Deployment.reply_exchange`: what a learner can read of an answer.
- Theorem {lit}`Network.step_learner`: a step performs its operations on the learner of each
  party.
-/

namespace NuLink

open Collections Replication

/-- The text {lit}`host:port` of a node. -/
def Node.restUrl (node : Node) : String :=
  node.metadata.payload.host ++ ":" ++ toString node.metadata.payload.port

/-- What the parties of a network are and share: who listens at an address, the metadata of those
that teach, and the messages that are written and read outside this repository.  A response is
signed by its party, and read with the check of the teacher's signature. -/
structure Deployment (ι C : Type) where
  partyAt : (host : String) → (port : Nat) → Option ι
  metadata : ι → Option NodeMetadata
  fleetStateChecksum : Option NodeMetadata → List NodeMetadata → C
  verify : NodeMetadata → Except String Bool
  metadataRequest : (fleetStateChecksum : C) → (announceNodes : List NodeMetadata) → Bytes
  requestFromBytes : Bytes → Except String (MetadataRequest C)
  metadataResponse : ι → (timestampEpoch : Nat) → (announceNodes : List NodeMetadata) → Bytes
  readMetadataResponse : (stamp : Bytes) → Bytes → Option (Nat × List NodeMetadata)

namespace Deployment

variable {ι C : Type} (D : Deployment ι C)

/-- The REST interface of a party. -/
def app (party : ι) : RestApp C where
  requestFromBytes := D.requestFromBytes
  verify := D.verify
  metadataResponse := D.metadataResponse party
  fleetStateChecksum := D.fleetStateChecksum

/-- The messages of a learner that asks a teacher. -/
def wire (teacher : Node) : Wire C where
  metadataRequest := D.metadataRequest
  readMetadataResponse := D.readMetadataResponse teacher.stamp

/-- What is read, if anything, is what some party wrote. -/
def Faithful : Prop := ∀ teacher party, (D.wire teacher).Faithful (D.app party)

/-- The request of a party with a fleet state: a teacher announces its own metadata. -/
def request (party : ι) (state : FleetState) : Bytes :=
  metadataRequestData
    (D.metadataRequest (state.checksum D.fleetStateChecksum) (D.metadata party).toList) localVersion

/-- What the round of a learner gets to see of an answer. -/
def reply (teacher : Node) : Except ServerError Response → TeacherReply
  | .error _ => .raised
  | .ok response =>
      match getNodesViaRest teacher.restUrl response with
      | .error _ => .raised
      | .ok received =>
          .response received.statusCode (D.readMetadataResponse teacher.stamp received.content)

variable {D}

/-- A response of the local version is read as what was written or not at all. -/
theorem reply_metadataResponse (h : D.Faithful) {teacher : Node} {party : ι} {timestamp code : Nat}
    {nodes : List NodeMetadata} {payload : Nat × List NodeMetadata}
    (hreply : D.reply teacher
      (.ok ⟨200, withVersion (D.metadataResponse party timestamp nodes) localVersion⟩) =
        .response code (some payload)) : payload = (timestamp, nodes) := by
  simp only [reply] at hreply
  split at hreply
  · cases hreply
  · next received hreceived =>
      cases getNodesViaRest_localVersion hreceived
      simp only [TeacherReply.response.injEq] at hreply
      exact (h teacher party).response timestamp nodes payload hreply.2

variable [DecidableEq C]

/-- What a learner reads of an answer: nothing, if its request was of another version or for the
same fleet state, and otherwise the teacher and all nodes that it knows then. -/
theorem reply_exchange (h : D.Faithful) {party : ι} {thisNode : NodeMetadata}
    {learner : Learner C} {request : PostedMetadata} {teacher : Node} {code updated : Nat}
    {nodes : List NodeMetadata}
    (hreply : D.reply teacher ((D.app party).nodeMetadataExchange thisNode learner request).2 =
      .response code (some (updated, nodes))) :
    (nodes = [] ∧ ((D.app party).parseRequest request.data = .ok none ∨
        ∃ parsed, (D.app party).parseRequest request.data = .ok (some parsed) ∧
          parsed.fleetStateChecksum =
            learner.knownNodes.currentState.checksum D.fleetStateChecksum)) ∨
      nodes = thisNode ::
        ((D.app party).nodeMetadataExchange thisNode learner
          request).1.knownNodes.currentState.nodes.values.map Node.metadata := by
  unfold RestApp.nodeMetadataExchange at hreply ⊢
  cases hparse : (D.app party).parseRequest request.data with
  | error e =>
      rw [hparse] at hreply
      cases hreply
  | ok parsed =>
      cases parsed with
      | none =>
          rw [hparse] at hreply
          have hread := reply_metadataResponse h hreply
          exact Or.inl ⟨(Prod.mk.inj hread).2, Or.inl rfl⟩
      | some parsed =>
          rw [hparse] at hreply
          by_cases hsame : parsed.fleetStateChecksum =
              learner.knownNodes.currentState.checksum (D.app party).fleetStateChecksum
          · simp only [if_pos hsame] at hreply
            have hread := reply_metadataResponse h hreply
            exact Or.inl ⟨(Prod.mk.inj hread).2, Or.inr ⟨parsed, rfl, hsame⟩⟩
          · simp only [if_neg hsame] at hreply ⊢
            have hread := reply_metadataResponse h hreply
            exact Or.inr (Prod.mk.inj hread).2

end Deployment

/-! ## The steps of a network -/

/-- The request of a round: not made, on its way to a teacher, or answered. -/
inductive Connection (ι : Type) where
  | closed
  | requested (teacher : ι) (data : Bytes)
  | answered (answer : Except ServerError Response)

/-- The loops of all parties, and the request that each of them has made. -/
structure Network (ι C : Type) where
  loops : ι → Loop C
  connections : ι → Connection ι

/-- What a learner meets instead of a response. -/
inductive RequestFailure where
  | nodeSeemsToBeDown
  | invalidNode
  | raised

/-- The exception clause of a failed request. -/
def RequestFailure.reply : RequestFailure → TeacherReply
  | .nodeSeemsToBeDown => .nodeSeemsToBeDown
  | .invalidNode => .invalidNode
  | .raised => .raised

/-- Whether a step of a loop is the handling of a reply, which comes by the connection. -/
def LoopAction.isReply : LoopAction → Bool
  | .reply _ _ => true
  | _ => false

/-- The steps of a network; each carries what is decided outside. -/
inductive NetworkAction (ι : Type) where
  /-- A step of the loop or of other code of a party. -/
  | own (party : ι) (action : LoopAction)
  /-- The request of a round leaves for its teacher. -/
  | send (party : ι)
  /-- The teacher serves the request of a party. -/
  | serve (party : ι) (contexts : Nat → RememberContext)
  | receive (party : ι) (shuffle : Reorder Node)
  | fail (party : ι) (failure : RequestFailure) (shuffle : Reorder Node)

/-- The party whose round or request a step is about. -/
def NetworkAction.mover {ι : Type} : NetworkAction ι → ι
  | .own party _ => party
  | .send party => party
  | .serve party _ => party
  | .receive party _ => party
  | .fail party _ _ => party

namespace Network

variable {ι C : Type} [DecidableEq ι]

/-- Replace the loop of a party. -/
def withLoop (net : Network ι C) (party : ι) (loop : Loop C) : Network ι C :=
  { net with loops := Function.update net.loops party loop }

/-- Replace the connection of a party. -/
def withConnection (net : Network ι C) (party : ι) (connection : Connection ι) : Network ι C :=
  { net with connections := Function.update net.connections party connection }

@[simp]
theorem withLoop_loops (net : Network ι C) (party : ι) (loop : Loop C) :
    (net.withLoop party loop).loops = Function.update net.loops party loop :=
  rfl

@[simp]
theorem withLoop_connections (net : Network ι C) (party : ι) (loop : Loop C) :
    (net.withLoop party loop).connections = net.connections :=
  rfl

@[simp]
theorem withConnection_loops (net : Network ι C) (party : ι) (connection : Connection ι) :
    (net.withConnection party connection).loops = net.loops :=
  rfl

@[simp]
theorem withConnection_connections (net : Network ι C) (party : ι) (connection : Connection ι) :
    (net.withConnection party connection).connections =
      Function.update net.connections party connection :=
  rfl

variable [DecidableEq C] (D : Deployment ι C)

/-- The teacher serves the request of a party. -/
def served (net : Network ι C) (party teacher : ι) (thisNode : NodeMetadata)
    (request : PostedMetadata) : Network ι C :=
  let (learner, answer) :=
    (D.app teacher).nodeMetadataExchange thisNode (net.loops teacher).learner request
  (net.withLoop teacher { net.loops teacher with learner }).withConnection party (.answered answer)

/-- One step; {lit}`none` where it is not possible. -/
def step (net : Network ι C) : NetworkAction ι → Option (Network ι C)
  | .own party action =>
      if action.isReply then none
      else ((net.loops party).step D.fleetStateChecksum action).map (net.withLoop party)
  | .send party =>
      match (net.loops party).phase, net.connections party with
      | .asking teacher _, .closed =>
          (D.partyAt teacher.metadata.payload.host teacher.metadata.payload.port).map
            fun teacher => net.withConnection party (.requested teacher
              (D.request party (net.loops party).learner.knownNodes.currentState))
      | _, _ => none
  | .serve party contexts =>
      match net.connections party with
      | .requested teacher data =>
          (D.metadata teacher).map fun thisNode =>
            net.served D party teacher thisNode ⟨data, contexts⟩
      | _ => none
  | .receive party shuffle =>
      match (net.loops party).phase, net.connections party with
      | .asking teacher _, .answered answer =>
          ((net.loops party).step D.fleetStateChecksum
            (.reply (D.reply teacher answer) shuffle)).map
              fun loop => (net.withLoop party loop).withConnection party .closed
      | _, _ => none
  | .fail party failure shuffle =>
      ((net.loops party).step D.fleetStateChecksum (.reply failure.reply shuffle)).map
        fun loop => (net.withLoop party loop).withConnection party .closed

variable {D}

/-! ## What a step can do -/

theorem step_own {net net' : Network ι C} {party : ι} {action : LoopAction}
    (h : net.step D (.own party action) = some net') :
    action.isReply = false ∧ ∃ loop, (net.loops party).step D.fleetStateChecksum action =
      some loop ∧ net' = net.withLoop party loop := by
  simp only [step] at h
  split at h
  · cases h
  · next hreply =>
      rcases Option.map_eq_some_iff.mp h with ⟨loop, hloop, rfl⟩
      exact ⟨by simpa using hreply, loop, hloop, rfl⟩

theorem step_send {net net' : Network ι C} {party : ι} (h : net.step D (.send party) = some net') :
    ∃ node remembered teacher, (net.loops party).phase = .asking node remembered ∧
      net.connections party = .closed ∧
      D.partyAt node.metadata.payload.host node.metadata.payload.port = some teacher ∧
      net' = net.withConnection party (.requested teacher
        (D.request party (net.loops party).learner.knownNodes.currentState)) := by
  simp only [step] at h
  split at h
  · next node remembered hphase hclosed =>
      rcases Option.map_eq_some_iff.mp h with ⟨teacher, hteacher, rfl⟩
      exact ⟨node, remembered, teacher, hphase, hclosed, hteacher, rfl⟩
  · cases h

theorem step_serve {net net' : Network ι C} {party : ι} {contexts : Nat → RememberContext}
    (h : net.step D (.serve party contexts) = some net') :
    ∃ teacher data thisNode, net.connections party = .requested teacher data ∧
      D.metadata teacher = some thisNode ∧
      net' = net.served D party teacher thisNode ⟨data, contexts⟩ := by
  simp only [step] at h
  split at h
  · next teacher data hrequested =>
      rcases Option.map_eq_some_iff.mp h with ⟨thisNode, hmetadata, rfl⟩
      exact ⟨teacher, data, thisNode, hrequested, hmetadata, rfl⟩
  · cases h

theorem step_receive {net net' : Network ι C} {party : ι} {shuffle : Reorder Node}
    (h : net.step D (.receive party shuffle) = some net') :
    ∃ node remembered answer loop, (net.loops party).phase = .asking node remembered ∧
      net.connections party = .answered answer ∧
      (net.loops party).step D.fleetStateChecksum (.reply (D.reply node answer) shuffle) =
        some loop ∧ net' = (net.withLoop party loop).withConnection party .closed := by
  simp only [step] at h
  split at h
  · next node remembered answer hphase hanswered =>
      rcases Option.map_eq_some_iff.mp h with ⟨loop, hloop, rfl⟩
      exact ⟨node, remembered, answer, loop, hphase, hanswered, hloop, rfl⟩
  · cases h

theorem step_fail {net net' : Network ι C} {party : ι} {failure : RequestFailure}
    {shuffle : Reorder Node} (h : net.step D (.fail party failure shuffle) = some net') :
    ∃ loop, (net.loops party).step D.fleetStateChecksum (.reply failure.reply shuffle) =
        some loop ∧ net' = (net.withLoop party loop).withConnection party .closed := by
  simp only [step] at h
  rcases Option.map_eq_some_iff.mp h with ⟨loop, hloop, rfl⟩
  exact ⟨loop, hloop, rfl⟩

theorem served_phase (net : Network ι C) (mover teacher : ι)
    (thisNode : NodeMetadata) (request : PostedMetadata) (party : ι) :
    ((net.served D mover teacher thisNode request).loops party).phase =
      (net.loops party).phase := by
  by_cases hteacher : party = teacher
  · subst hteacher
    simp [served]
  · simp [served, hteacher]

/-- A step opens and closes no other connection than that of its mover. -/
theorem step_connections {net net' : Network ι C} {action : NetworkAction ι}
    (h : net.step D action = some net') {party : ι} (hparty : party ≠ action.mover) :
    net'.connections party = net.connections party := by
  cases action with
  | own mover action =>
      rcases step_own h with ⟨-, loop, -, rfl⟩
      rfl
  | send mover =>
      rcases step_send h with ⟨node, remembered, teacher, -, -, -, rfl⟩
      exact Function.update_of_ne hparty _ _
  | serve mover contexts =>
      rcases step_serve h with ⟨teacher, data, thisNode, -, -, rfl⟩
      exact Function.update_of_ne hparty _ _
  | receive mover shuffle =>
      rcases step_receive h with ⟨node, remembered, answer, loop, -, -, -, rfl⟩
      exact Function.update_of_ne hparty _ _
  | fail mover failure shuffle =>
      rcases step_fail h with ⟨loop, -, rfl⟩
      exact Function.update_of_ne hparty _ _

/-- A step moves no other round than that of its mover. -/
theorem step_phase {net net' : Network ι C} {action : NetworkAction ι}
    (h : net.step D action = some net') {party : ι} (hparty : party ≠ action.mover) :
    (net'.loops party).phase = (net.loops party).phase := by
  cases action with
  | own mover action =>
      rcases step_own h with ⟨-, loop, -, rfl⟩
      exact congrArg Loop.phase (Function.update_of_ne hparty _ _)
  | send mover =>
      rcases step_send h with ⟨node, remembered, teacher, -, -, -, rfl⟩
      rfl
  | serve mover contexts =>
      rcases step_serve h with ⟨teacher, data, thisNode, -, -, rfl⟩
      exact served_phase net mover teacher thisNode ⟨data, contexts⟩ party
  | receive mover shuffle =>
      rcases step_receive h with ⟨node, remembered, answer, loop, -, -, -, rfl⟩
      exact congrArg Loop.phase (Function.update_of_ne hparty _ _)
  | fail mover failure shuffle =>
      rcases step_fail h with ⟨loop, -, rfl⟩
      exact congrArg Loop.phase (Function.update_of_ne hparty _ _)

/-- The operations that a step performs on the learner of a party. -/
def ops (D : Deployment ι C) (net : Network ι C) : NetworkAction ι → ι → List Learner.Op
  | .own mover action, party => if party = mover then (net.loops mover).ops action else []
  | .send _, _ => []
  | .serve mover contexts, party =>
      match net.connections mover with
      | .requested teacher data =>
          if party = teacher then
            (D.app teacher).announceOps contexts
              ((D.app teacher).announcedNodes (net.loops teacher).learner ⟨data, contexts⟩)
          else []
      | _ => []
  | .receive _ _, _ => []
  | .fail mover failure shuffle, party =>
      if party = mover then (net.loops mover).ops (.reply failure.reply shuffle) else []

/-- A step performs its operations on the learner of each party. -/
theorem step_learner {net net' : Network ι C} {action : NetworkAction ι}
    (h : net.step D action = some net') (party : ι) :
    Learner.SameNodes ((net.loops party).learner.run D.fleetStateChecksum (net.ops D action party))
      (net'.loops party).learner := by
  have hstill : ∀ learner : Learner C,
      Learner.SameNodes (learner.run D.fleetStateChecksum []) learner :=
    fun learner => Learner.SameNodes.refl learner
  cases action with
  | own mover action =>
      rcases step_own h with ⟨-, loop, hloop, rfl⟩
      by_cases hmover : party = mover
      · subst hmover
        simpa [ops] using Loop.step_learner D.fleetStateChecksum hloop
      · simpa [ops, hmover] using hstill _
  | send mover =>
      rcases step_send h with ⟨node, remembered, teacher, -, -, -, rfl⟩
      exact Learner.SameNodes.refl _
  | serve mover contexts =>
      rcases step_serve h with ⟨teacher, data, thisNode, hrequested, -, rfl⟩
      by_cases hteacher : party = teacher
      · subst hteacher
        simp only [ops, hrequested, if_pos, served, withConnection_loops, withLoop_loops,
          Function.update_self]
        rw [RestApp.nodeMetadataExchange_eq_run]
        exact Learner.SameNodes.refl _
      · simpa [ops, hrequested, hteacher, served] using hstill _
  | receive mover shuffle =>
      rcases step_receive h with ⟨node, remembered, answer, loop, -, -, hloop, rfl⟩
      by_cases hmover : party = mover
      · subst hmover
        have hsame := Loop.step_learner D.fleetStateChecksum hloop
        have hops : (net.loops party).ops (.reply (D.reply node answer) shuffle) = [] := by
          unfold Deployment.reply
          split
          · rfl
          · split <;> rfl
        rw [hops] at hsame
        simpa [ops] using hsame
      · simpa [ops, hmover] using hstill _
  | fail mover failure shuffle =>
      rcases step_fail h with ⟨loop, hloop, rfl⟩
      by_cases hmover : party = mover
      · subst hmover
        simpa [ops] using Loop.step_learner D.fleetStateChecksum hloop
      · simpa [ops, hmover] using hstill _

end Network

end NuLink
