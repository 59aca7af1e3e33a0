import NuLinkCore.Network.FleetMerge
import NuLinkCore.Network.LearningLoop
import NuLinkCore.Network.Server

/-!
# The fleet state attributed to a teacher

A learner sends the checksum of its fleet state to a teacher, remembers the nodes of the
answer and stores its own new checksum as that of the teacher.  Remembering merges, so the
two checksums agree exactly when the merged fleet is the teacher's.

Main results:

- Theorem {lit}`Loop.run_answerSteps`: what the steps from the announced nodes to the report
  make of the learner.
- Theorem {lit}`Round.run_cases`: a round of request, answer and steps that gets to the report.
- Theorem {lit}`Round.attributed_checksum_iff`: when the stored checksum is the teacher's.
-/

namespace NuLink

open Collections

/-! ## A round, from the reply on -/

/-- What is decided outside while the learner handles the reply: the order of the teachers, what
remembering each sprout meets (with whether its exception would be caught), and what recording
the fleet state meets. -/
structure RoundContext where
  shuffle : Reorder Node
  eager : Bool
  sprouts : List (Bool × RememberContext)
  record : RecordContext

namespace Loop

variable {C : Type} (fleetStateChecksum : Option NodeMetadata → List NodeMetadata → C)

/-- The steps after announced nodes have arrived. -/
def answerSteps (context : RoundContext) : List LoopAction :=
  context.sprouts.map (fun sprout => .sprout context.eager sprout.1 sprout.2) ++
    [.record context.record]

/-- The fleet sensor when the sprouts have been remembered and, if any node was, recorded. -/
def taught (learner : Learner C) (sprouts : List Node) (remembered : Bool)
    (context : RecordContext) : FleetSensor C :=
  if remembered then
    { learner.knownNodes with nodesToAdd := learner.accumulated sprouts }.recordFleetState
      fleetStateChecksum false context
  else { learner.knownNodes with nodesToAdd := learner.accumulated sprouts }

/-- Some sprout is remembered, or a node was while seeding. -/
def AnyRemembered (learner : Learner C) (remembered : Bool) (eager : Bool) (sprouts : List Node)
    (contexts : List (Bool × RememberContext)) : Prop :=
  remembered = true ∨ ∃ pair ∈ sprouts.zip contexts, learner.Remembers eager pair.1 pair.2.2

/-- One sprout, in a round that goes on. -/
theorem learnSprout_cases (loop : Loop C) (teacher : Node) (updated announced : Nat)
    (sprout : Node) (sprouts : List Node) (remembered eager caught : Bool)
    (context : RememberContext) :
    let next := loop.learnSprout fleetStateChecksum teacher updated announced sprout sprouts
      remembered eager caught context
    next.learner =
        (loop.learner.rememberNode fleetStateChecksum sprout false false eager context).1 ∧
      (next.phase = .idle ∨ ∃ remembered',
        next.phase = .learning teacher updated announced sprouts remembered' ∧
          (remembered' = true ↔
            remembered = true ∨ loop.learner.Remembers eager sprout context)) := by
  intro next
  have hiff := Learner.rememberNode_remembered_iff fleetStateChecksum loop.learner sprout eager
    context
  simp only [next, learnSprout]
  cases hresult :
      (loop.learner.rememberNode fleetStateChecksum sprout false false eager context).2 with
  | refused =>
      have hnot : ¬ loop.learner.Remembers eager sprout context := by
        simpa [hresult] using hiff
      exact ⟨rfl, Or.inr ⟨remembered, rfl, by simp [hnot]⟩⟩
  | remembered node =>
      have hremembers := hiff.mp ⟨node, hresult⟩
      exact ⟨rfl, Or.inr ⟨true, rfl, by simp [hremembers]⟩⟩
  | raised =>
      have hnot : ¬ loop.learner.Remembers eager sprout context := by
        simpa [hresult] using hiff
      cases caught with
      | false => exact ⟨rfl, Or.inl rfl⟩
      | true => exact ⟨rfl, Or.inr ⟨remembered, rfl, by simp [hnot]⟩⟩

/-- No step of the answer is possible once the round has ended. -/
theorem run_answerSteps_idle {loop : Loop C} (hphase : loop.phase = .idle)
    (context : RoundContext) :
    Execution.run (Loop.step fleetStateChecksum) loop (answerSteps context) = none := by
  cases hsprouts : context.sprouts with
  | nil => simp [Execution.run, answerSteps, hsprouts, Loop.step, hphase]
  | cons sprout sprouts => simp [Execution.run, answerSteps, hsprouts, Loop.step, hphase]

/-- From the announced nodes to the report: the sprouts are remembered, each against the same
fleet state, and recorded together. -/
theorem run_answerSteps {loop loop' : Loop C} {teacher : Node} {updated announced : Nat}
    {sprouts : List Node} {remembered : Bool} (context : RoundContext)
    (hphase : loop.phase = .learning teacher updated announced sprouts remembered)
    (hrun : Execution.run (Loop.step fleetStateChecksum) loop (answerSteps context) =
      some loop') :
    loop'.phase = .reporting teacher updated (some announced) ∧
      ∃ any, (any = true ↔
          AnyRemembered loop.learner remembered context.eager sprouts context.sprouts) ∧
        loop'.learner.knownNodes = taught fleetStateChecksum loop.learner sprouts any
          context.record := by
  rcases context with ⟨shuffle, eager, contexts, record⟩
  induction contexts generalizing loop sprouts remembered with
  | nil =>
      cases sprouts with
      | nil =>
          have hloop' : loop.recordRemembered fleetStateChecksum teacher updated announced
              remembered record = loop' := by
            simpa [Execution.run, answerSteps, Loop.step, hphase] using hrun
          subst hloop'
          refine ⟨rfl, remembered, by simp [AnyRemembered], ?_⟩
          cases remembered <;> rfl
      | cons sprout sprouts => simp [Execution.run, answerSteps, Loop.step, hphase] at hrun
  | cons first contexts ih =>
      cases sprouts with
      | nil => simp [Execution.run, answerSteps, Loop.step, hphase] at hrun
      | cons sprout sprouts =>
          rcases learnSprout_cases fleetStateChecksum loop teacher updated announced sprout sprouts
            remembered eager first.1 first.2 with ⟨hlearner, hnext⟩
          have hrest : Execution.run (Loop.step fleetStateChecksum)
              (loop.learnSprout fleetStateChecksum teacher updated announced sprout sprouts
                remembered eager first.1 first.2)
              (answerSteps ⟨shuffle, eager, contexts, record⟩) = some loop' := by
            simpa [Execution.run, answerSteps, Loop.step, hphase] using hrun
          rcases hnext with hidle | ⟨remembered', hphase', hremembered'⟩
          · rw [run_answerSteps_idle fleetStateChecksum hidle] at hrest
            cases hrest
          · have hview := Learner.rememberNode_sameView fleetStateChecksum loop.learner sprout
              eager first.2
            have hknown := Learner.rememberNode_takenIn fleetStateChecksum loop.learner sprout
              eager first.2
            rcases ih hphase' hrest with ⟨hreporting, any, hany, htaught⟩
            rw [hlearner] at hany htaught
            refine ⟨hreporting, any, ?_, ?_⟩
            · rw [hany]
              simp only [AnyRemembered, hremembered', hview.remembers_iff, List.zip_cons_cons,
                List.mem_cons, exists_eq_or_imp, or_assoc]
            · have haccumulated : (loop.learner.rememberNode fleetStateChecksum sprout false false
                  eager first.2).1.accumulated sprouts =
                    loop.learner.accumulated (sprout :: sprouts) := by
                rw [Learner.accumulated_cons, Learner.accumulated, hview.takenIn_eq, hknown]
              rw [htaught]
              simp only [taught, haccumulated, hknown]

/-- What a response makes of a round: it ends, or the fleet states match, or there are nodes to
remember. -/
theorem handleReply_response (loop : Loop C) (teacher : Node) (remembered : Bool) (code : Nat)
    (payload : Option (Nat × List NodeMetadata)) (shuffle : Reorder Node) :
    let next := loop.handleReply teacher remembered (.response code payload) shuffle
    next.learner = loop.learner ∧
      (next.phase = .idle ∨
        (∃ updated, payload = some (updated, []) ∧ next.phase = .reporting teacher updated none) ∨
        ∃ updated metadata nodes, payload = some (updated, metadata :: nodes) ∧
          next.phase = .learning teacher updated (nodes.length + 1)
            ((metadata :: nodes).map nodeSprout) remembered) := by
  intro next
  simp only [next, handleReply]
  cases hcycle : ({ loop with phase := .idle } : Loop C).cycleTeacherNode shuffle with
  | none => exact ⟨rfl, Or.inl rfl⟩
  | some cycled =>
      have hchosen := cycleTeacherNode_chosen hcycle
      have hlearner : cycled.learner = loop.learner := hchosen.learner
      have hidle : cycled.phase = .idle := hchosen.phase
      simp only
      split
      · exact ⟨hlearner, Or.inl hidle⟩
      · split
        · exact ⟨hlearner, Or.inl hidle⟩
        · split
          · exact ⟨hlearner, Or.inl hidle⟩
          · next updated => exact ⟨hlearner, Or.inr (Or.inl ⟨updated, rfl, rfl⟩)⟩
          · next updated announceNodes hnonempty =>
              cases announceNodes with
              | nil => exact absurd rfl hnonempty
              | cons metadata nodes =>
                  exact ⟨hlearner, Or.inr (Or.inr ⟨updated, metadata, nodes, rfl, rfl⟩)⟩

/-- Without a response the round ends. -/
theorem handleReply_exception_phase (loop : Loop C) (teacher : Node) (remembered : Bool)
    {reply : TeacherReply} (hreply : ∀ code payload, reply ≠ .response code payload)
    (shuffle : Reorder Node) :
    (loop.handleReply teacher remembered reply shuffle).phase = .idle := by
  have hcycle : ∀ ended : Loop C, ended.phase = .idle →
      ((ended.cycleTeacherNode shuffle).getD ended).phase = .idle := by
    intro ended hended
    cases hcycle : ended.cycleTeacherNode shuffle with
    | none => exact hended
    | some cycled => exact (cycleTeacherNode_chosen hcycle).phase.trans hended
  cases reply with
  | nodeSeemsToBeDown => exact hcycle _ rfl
  | invalidNode => exact hcycle _ rfl
  | raised => exact hcycle _ rfl
  | response code payload => exact absurd rfl (hreply code payload)

end Loop

/-! ## The exchange -/

/-- The messages of the exchange, written and read outside this repository.  Reading a response
includes the check of the teacher's signature. -/
structure Wire (C : Type) where
  metadataRequest : (fleetStateChecksum : C) → (announceNodes : List NodeMetadata) → Bytes
  readMetadataResponse : Bytes → Option (Nat × List NodeMetadata)

/-- What is read, if anything, is what was written; the version suffix of a request may or may
not keep it from being read. -/
structure Wire.Faithful {C : Type} (wire : Wire C) (app : RestApp C) : Prop where
  request : ∀ checksum nodes parsed,
    app.requestFromBytes (wire.metadataRequest checksum nodes) = .ok parsed →
      parsed = ⟨checksum, nodes⟩
  versionedRequest : ∀ checksum nodes parsed,
    app.requestFromBytes (metadataRequestData (wire.metadataRequest checksum nodes)
      localVersion) = .ok parsed → parsed = ⟨checksum, nodes⟩
  response : ∀ timestamp nodes payload,
    wire.readMetadataResponse (app.metadataResponse timestamp nodes) = some payload →
      payload = (timestamp, nodes)

section Exchange

variable {C : Type} {wire : Wire C} {app : RestApp C}

theorem Wire.Faithful.parseRequest (h : wire.Faithful app) {checksum : C}
    {nodes : List NodeMetadata} {parsed : Option (MetadataRequest C)}
    (hparsed : app.parseRequest
      (metadataRequestData (wire.metadataRequest checksum nodes) localVersion) = .ok parsed) :
    parsed = some ⟨checksum, nodes⟩ := by
  unfold RestApp.parseRequest at hparsed
  split at hparsed
  · next request hrequest =>
      cases hparsed
      rw [h.versionedRequest checksum nodes request hrequest]
  · split at hparsed
    · cases hparsed
    · next hframe => cases readFrame_localVersion hframe
    · next hframe => cases readFrame_localVersion hframe
    · next bytes hframe =>
        cases readFrame_localVersion hframe
        split at hparsed
        · cases hparsed
        · next request hrequest =>
            cases hparsed
            rw [h.request checksum nodes request hrequest]

/-- A response of a node of the local version is received as it was sent or not at all. -/
theorem getNodesViaRest_localVersion {url : String} {bytes : Bytes} {received : Response}
    (h : getNodesViaRest url ⟨200, withVersion bytes localVersion⟩ = .ok received) :
    received = ⟨200, bytes⟩ := by
  simp only [getNodesViaRest, Response.isSuccess_ok, Bool.not_true, Bool.false_eq_true,
    if_false] at h
  split at h
  · cases h
  · next content hcontent =>
      cases h
      cases readFrame_localVersion (readTeacherFrame_eq_ok_iff.mp hcontent)
      rfl

/-- What is decided outside during a round: the address of the teacher, the nodes that the learner
announces, what the teacher meets when it remembers them, and what the learner meets. -/
structure Round where
  url : String
  announceNodes : List NodeMetadata
  remember : Nat → RememberContext
  context : RoundContext

namespace Round

variable (round : Round) (wire) (app)

/-- The request of the learner. -/
def posted (learner : Learner C) : PostedMetadata where
  data := metadataRequestData (wire.metadataRequest
    (learner.knownNodes.currentState.checksum app.fleetStateChecksum) round.announceNodes)
      localVersion
  contexts := round.remember

/-- The answer of the teacher as the learner sees it. -/
def received (response : Response) : TeacherReply :=
  match getNodesViaRest round.url response with
  | .error _ => .raised
  | .ok response => .response response.statusCode (wire.readMetadataResponse response.content)

/-- The steps of the learner from the reply to the report. -/
def steps (reply : TeacherReply) : List LoopAction :=
  .reply reply round.context.shuffle ::
    match reply with
    | .response _ (some (_, _ :: _)) => Loop.answerSteps round.context
    | _ => []

section

variable [DecidableEq C]

/-- The request, the answer and the steps of the learner, with no other code in between; the
teacher and the learner afterwards. -/
def run (thisNode : NodeMetadata) (loop : Loop C) (teacher : Learner C) :
    Option (Learner C × Loop C) :=
  match app.nodeMetadataExchange thisNode teacher (round.posted wire app loop.learner) with
  | (_, .error _) => none
  | (teacher', .ok response) =>
      (Execution.run (Loop.step app.fleetStateChecksum) loop
        (round.steps (round.received wire response))).map (teacher', ·)

end

/-- The sprouts that a teacher announces. -/
def sprouts (thisNode : NodeMetadata) (teacher : Learner C) : List Node :=
  (thisNode :: teacher.knownNodes.currentState.nodes.values.map Node.metadata).map nodeSprout

variable {round} {wire} {app}

/-- What the learner reads of an answer. -/
theorem received_nodes (h : wire.Faithful app) {bytes : Bytes} {code : Nat}
    {payload : Option (Nat × List NodeMetadata)} {timestamp : Nat} {nodes : List NodeMetadata}
    (hbytes : bytes = app.metadataResponse timestamp nodes)
    (hreceived : round.received wire ⟨200, withVersion bytes localVersion⟩ =
      .response code payload) : payload = none ∨ payload = some (timestamp, nodes) := by
  unfold received at hreceived
  split at hreceived
  · cases hreceived
  · next response hresponse =>
      cases getNodesViaRest_localVersion hresponse
      cases hreceived
      cases hread : wire.readMetadataResponse bytes with
      | none => exact Or.inl rfl
      | some payload =>
          right
          rw [hbytes] at hread
          rw [h.response timestamp nodes payload hread]

/-- The steps of a round that gets to the report: the fleet states match and the learner is as
before, or it has remembered what was announced. -/
theorem steps_cases {fleetStateChecksum : Option NodeMetadata → List NodeMetadata → C}
    {loop loop' : Loop C} {node : Node} {remembered : Bool} {updated : Nat}
    {announced : Option Nat} {reply : TeacherReply} (hphase : loop.phase = .asking node remembered)
    (hsteps : Execution.run (Loop.step fleetStateChecksum) loop (round.steps reply) = some loop')
    (hreport : loop'.phase = .reporting node updated announced) :
    (∃ code timestamp, reply = .response code (some (timestamp, [])) ∧
        loop'.learner = loop.learner) ∨
      ∃ code timestamp nodes any, reply = .response code (some (timestamp, nodes)) ∧ nodes ≠ [] ∧
        (any = true ↔ Loop.AnyRemembered loop.learner remembered round.context.eager
          (nodes.map nodeSprout) round.context.sprouts) ∧
        loop'.learner.knownNodes = Loop.taught fleetStateChecksum loop.learner
          (nodes.map nodeSprout) any round.context.record := by
  by_cases hreply : ∀ code payload, reply ≠ .response code payload
  · have hloop' : loop.handleReply node remembered reply round.context.shuffle = loop' := by
      cases reply with
      | response code payload => exact absurd rfl (hreply code payload)
      | _ => simpa [steps, Execution.run, Loop.step, hphase] using hsteps
    rw [← hloop', Loop.handleReply_exception_phase loop node remembered hreply] at hreport
    cases hreport
  · push Not at hreply
    rcases hreply with ⟨code, payload, rfl⟩
    rcases Loop.handleReply_response loop node remembered code payload round.context.shuffle
      with ⟨hlearner, hidle | ⟨timestamp, rfl, hnext⟩ | ⟨timestamp, metadata, nodes, rfl, hnext⟩⟩
    · have hrest : Execution.run (Loop.step fleetStateChecksum)
          (loop.handleReply node remembered (.response code payload) round.context.shuffle)
          (round.steps (.response code payload)).tail = some loop' := by
        simpa [steps, Execution.run, Loop.step, hphase] using hsteps
      simp only [steps, List.tail_cons] at hrest
      split at hrest
      · rw [Loop.run_answerSteps_idle fleetStateChecksum hidle] at hrest
        cases hrest
      · cases hrest
        rw [hidle] at hreport
        cases hreport
    · have hloop' : loop.handleReply node remembered (.response code (some (timestamp, [])))
          round.context.shuffle = loop' := by
        simpa [steps, Execution.run, Loop.step, hphase] using hsteps
      exact Or.inl ⟨code, timestamp, rfl, hloop' ▸ hlearner⟩
    · have hanswer : Execution.run (Loop.step fleetStateChecksum)
          (loop.handleReply node remembered (.response code (some (timestamp, metadata :: nodes)))
            round.context.shuffle) (Loop.answerSteps round.context) = some loop' := by
        simpa [steps, Execution.run, Loop.step, hphase] using hsteps
      rcases Loop.run_answerSteps fleetStateChecksum round.context hnext hanswer with
        ⟨-, any, hany, htaught⟩
      rw [hlearner] at hany htaught
      exact Or.inr ⟨code, timestamp, metadata :: nodes, any, rfl, List.cons_ne_nil _ _, hany,
        htaught⟩

variable [DecidableEq C]

/-- What the teacher answers: nothing when the checksums agree, everything it knows
otherwise. -/
theorem exchange_cases (h : wire.Faithful app) {thisNode : NodeMetadata}
    {learner teacher teacher' : Learner C} {response : Response}
    (hexchange : app.nodeMetadataExchange thisNode teacher (round.posted wire app learner) =
      (teacher', .ok response)) :
    let same := learner.knownNodes.currentState.checksum app.fleetStateChecksum =
      teacher.knownNodes.currentState.checksum app.fleetStateChecksum
    same ∧ teacher' = teacher ∧ response = app.bytestringOfEmptyKnownNodes teacher' ∨
      ¬ same ∧ teacher' = app.announceAll teacher round.remember round.announceNodes ∧
        response = app.allKnownNodes thisNode teacher' := by
  intro same
  unfold RestApp.nodeMetadataExchange at hexchange
  split at hexchange
  · cases hexchange
  · next hparsed => cases h.parseRequest hparsed
  · next request hparsed =>
      cases h.parseRequest hparsed
      split at hexchange
      · next hsame =>
          cases hexchange
          exact Or.inl ⟨hsame, rfl, rfl⟩
      · next hdiffer =>
          cases hexchange
          exact Or.inr ⟨hdiffer, rfl, rfl⟩

/-- A round that gets to the report: the learner is as before when the checksums agree, and has
remembered what the teacher announced otherwise. -/
theorem run_cases (h : wire.Faithful app) {thisNode : NodeMetadata} {loop loop' : Loop C}
    {teacher teacher' : Learner C} {node : Node} {remembered : Bool} {updated : Nat}
    {announced : Option Nat} (hphase : loop.phase = .asking node remembered)
    (hrun : round.run wire app thisNode loop teacher = some (teacher', loop'))
    (hreport : loop'.phase = .reporting node updated announced) :
    let same := loop.learner.knownNodes.currentState.checksum app.fleetStateChecksum =
      teacher.knownNodes.currentState.checksum app.fleetStateChecksum
    same ∧ teacher' = teacher ∧ loop'.learner = loop.learner ∨
      ¬ same ∧ ∃ any,
        (any = true ↔ Loop.AnyRemembered loop.learner remembered round.context.eager
          (sprouts thisNode teacher') round.context.sprouts) ∧
        loop'.learner.knownNodes = Loop.taught app.fleetStateChecksum loop.learner
          (sprouts thisNode teacher') any round.context.record := by
  intro same
  unfold run at hrun
  split at hrun
  · cases hrun
  · next taught response hexchange =>
      rcases Option.map_eq_some_iff.mp hrun with ⟨reached, hsteps, hpair⟩
      rcases Prod.mk.inj hpair with ⟨rfl, rfl⟩
      rcases exchange_cases h hexchange with ⟨hsame, hteacher, rfl⟩ | ⟨hdiffer, -, rfl⟩
      · rcases steps_cases hphase hsteps hreport with ⟨code, timestamp, hreply, hlearner⟩ |
          ⟨code, timestamp, nodes, any, hreply, hne, -⟩
        · exact Or.inl ⟨hsame, hteacher, hlearner⟩
        · rcases received_nodes h rfl hreply with hnone | hnodes
          · cases hnone
          · cases hnodes
            exact absurd rfl hne
      · rcases steps_cases hphase hsteps hreport with ⟨code, timestamp, hreply, -⟩ |
          ⟨code, timestamp, nodes, any, hreply, -, hany, htaught⟩
        · rcases received_nodes h rfl hreply with hnone | hnodes
          · cases hnone
          · cases hnodes
        · rcases received_nodes h rfl hreply with hnone | hnodes
          · cases hnone
          · cases hnodes
            exact Or.inr ⟨hdiffer, any, hany, htaught⟩

/-- The fleets of the learner and the teacher agree before the exchange, or else those that the
learner keeps and gains make up the teacher's; a learner that remembers nothing keeps its fleet
as it is. -/
def Agrees (round : Round) (thisNode : NodeMetadata) (learner : Learner C) (remembered : Bool)
    (teacher teacher' : Learner C) : Prop :=
  let any := Loop.AnyRemembered learner remembered round.context.eager (sprouts thisNode teacher')
    round.context.sprouts
  learner.knownNodes.currentState.fleet = teacher.knownNodes.currentState.fleet ∨
    any ∧ learner.SameFleet (sprouts thisNode teacher') round.context.record
      teacher'.knownNodes.currentState ∨
    ¬ any ∧ learner.knownNodes.currentState.fleet = teacher'.knownNodes.currentState.fleet

/-- The fleet of the learner at the report. -/
theorem fleet_eq_iff_agrees (h : wire.Faithful app)
    (hdigest : FleetState.SetDigest app.fleetStateChecksum) {thisNode : NodeMetadata}
    {loop loop' : Loop C} {teacher teacher' : Learner C} {node : Node} {remembered : Bool}
    {updated : Nat} {announced : Option Nat} (hphase : loop.phase = .asking node remembered)
    (hrun : round.run wire app thisNode loop teacher = some (teacher', loop'))
    (hreport : loop'.phase = .reporting node updated announced) :
    loop'.learner.knownNodes.currentState.fleet = teacher'.knownNodes.currentState.fleet ↔
      round.Agrees thisNode loop.learner remembered teacher teacher' := by
  rcases run_cases h hphase hrun hreport with ⟨hsame, rfl, hlearner⟩ | ⟨hdiffer, any, hany, htaught⟩
  · rw [FleetState.checksum_eq_iff hdigest] at hsame
    rw [hlearner]
    exact ⟨fun _ => Or.inl hsame, fun _ => hsame⟩
  · rw [FleetState.checksum_eq_iff hdigest] at hdiffer
    rw [htaught]
    simp only [Agrees, hdiffer, false_or, ← hany]
    cases any with
    | false => simp [Loop.taught]
    | true => simp [Loop.taught, Learner.fleet_merge_eq_iff]

/-- Along a round of the learner with a teacher, the checksum that the learner stores for the
teacher is the teacher's checksum at the time of its response exactly when the fleet that the
learner ends up with is the teacher's. -/
theorem attributed_checksum_iff (h : wire.Faithful app)
    (hdigest : FleetState.SetDigest app.fleetStateChecksum) {thisNode : NodeMetadata}
    {loop loop' : Loop C} {teacher teacher' : Learner C} {node : Node} {remembered : Bool}
    {updated now : Nat} {announced : Option Nat} {knownNodes : FleetSensor C}
    (hphase : loop.phase = .asking node remembered)
    (hrun : round.run wire app thisNode loop teacher = some (teacher', loop'))
    (hreport : loop'.phase = .reporting node updated announced)
    (hstored : loop'.recordRemote app.fleetStateChecksum node updated announced now =
      some knownNodes) :
    (knownNodes.remoteStates.get? node.checksumAddress).map ArchivedFleetState.checksum =
        some (teacher'.knownNodes.currentState.checksum app.fleetStateChecksum) ↔
      round.Agrees thisNode loop.learner remembered teacher teacher' := by
  rw [← fleet_eq_iff_agrees h hdigest hphase hrun hreport,
    ← FleetState.checksum_eq_iff hdigest]
  simp only [Loop.recordRemote, FleetSensor.recordRemoteFleetState] at hstored
  split at hstored
  · cases hstored
    simp
  · cases hstored

end Round

end Exchange

/-! ## A learner that knows more than its teacher -/

/-- The set of metadata as its own digest. -/
def setChecksum (thisNode : Option NodeMetadata) (otherNodes : List NodeMetadata) :
    Finset NodeMetadata :=
  (thisNode.toList ++ otherNodes).toFinset

theorem setChecksum_setDigest : FleetState.SetDigest setChecksum :=
  fun _ _ _ _ => Iff.rfl

/-- Messages that stand for one request and one response. -/
def singleWire (checksum : Finset NodeMetadata) (announced : List NodeMetadata)
    (timestamp : Nat) (nodes : List NodeMetadata) : Wire (Finset NodeMetadata) where
  metadataRequest checksum' announced' :=
    if checksum' = checksum ∧ announced' = announced then [1] else [2]
  readMetadataResponse bytes := if bytes = [3] then some (timestamp, nodes) else none

/-- The server that reads that request and writes that response. -/
def singleApp (checksum : Finset NodeMetadata) (announced : List NodeMetadata)
    (timestamp : Nat) (nodes : List NodeMetadata) : RestApp (Finset NodeMetadata) where
  requestFromBytes bytes := if bytes = [1] then .ok ⟨checksum, announced⟩ else .error "malformed"
  verify _ := .ok true
  metadataResponse timestamp' nodes' :=
    if timestamp' = timestamp ∧ nodes' = nodes then [3] else [4]
  fleetStateChecksum := setChecksum

/-- The version suffix alone is longer than one byte. -/
theorem metadataRequestData_ne_singleton (bytes : Bytes) (version : String) (byte : UInt8) :
    metadataRequestData bytes version ≠ [byte] := by
  intro hbytes
  have hlength := congrArg List.length hbytes
  have hsymbol : checkVersionPickleSymbol.length = 24 := by decide
  simp only [metadataRequestData, withVersion, List.length_append, hsymbol,
    List.length_singleton] at hlength
  omega

theorem singleWire_faithful (checksum : Finset NodeMetadata) (announced : List NodeMetadata)
    (timestamp : Nat) (nodes : List NodeMetadata) :
    (singleWire checksum announced timestamp nodes).Faithful
      (singleApp checksum announced timestamp nodes) where
  request checksum' announced' parsed h := by
    simp only [singleWire, singleApp] at h
    split at h
    · next hsame =>
        cases h
        rw [hsame.1, hsame.2]
    · cases h
  versionedRequest checksum' announced' parsed h := by
    simp only [singleApp, metadataRequestData_ne_singleton, if_false] at h
    cases h
  response timestamp' nodes' payload h := by
    simp only [singleWire, singleApp] at h
    split at h
    · next hsame =>
        cases h
        rw [hsame.1, hsame.2]
    · cases h

/-- What the teacher meets when it records its fleet state. -/
def teacherContext : RememberContext :=
  { Learner.plainRememberContext with
    record := { FleetSensor.plainContext with thisNode := oldTeacher.metadata } }

/-- The teacher, which knows itself and the newcomer. -/
def newcomersTeacher : Learner (Finset NodeMetadata) :=
  ((Learner.new setChecksum (some oldTeacher.stamp) false true true "mainnet" true 0).rememberNode
    setChecksum newcomer false true false teacherContext).1

/-- A node that the teacher does not know. -/
def bystander : Node :=
  nodeSprout (sampleMetadata "0x3000000000000000000000000000000000000003" [3] 20)

/-- A learner that remembers some nodes and the teacher, and asks the teacher. -/
def askingLoop (nodes : List Node) : Option (Loop (Finset NodeMetadata)) :=
  Execution.run (Loop.step setChecksum)
    (Loop.new setChecksum none false true true "mainnet" false 0)
    ((nodes ++ [oldTeacher]).map
        (fun node => .other (.rememberNode node false true false Learner.plainRememberContext)) ++
      [.seed (.completes [] []) Learner.plainRememberContext FleetSensor.plainContext,
        .ask false Reorder.identity])

/-- A round in which nothing outside fails and two nodes are announced. -/
def plainRound : Round where
  url := "https://127.0.0.1:9151"
  announceNodes := []
  remember _ := Learner.plainRememberContext
  context := ⟨Reorder.identity, false,
    [(false, Learner.plainRememberContext), (false, Learner.plainRememberContext)],
    FleetSensor.plainContext⟩

/-- The fleet of a learner that knows the given nodes. -/
def fleetOf (nodes : List Node) : Finset NodeMetadata := (nodes.map Node.metadata).toFinset

/-- The messages of the learner that knows the given nodes, and of the teacher. -/
def wireWith (nodes : List Node) : Wire (Finset NodeMetadata) :=
  singleWire (fleetOf (nodes ++ [oldTeacher])) [] 100 [oldTeacher.metadata, newcomer.metadata]

def appWith (nodes : List Node) : RestApp (Finset NodeMetadata) :=
  singleApp (fleetOf (nodes ++ [oldTeacher])) [] 100 [oldTeacher.metadata, newcomer.metadata]

/-- The round of that learner with the teacher. -/
def roundWith (nodes : List Node) :
    Option (Learner (Finset NodeMetadata) × Loop (Finset NodeMetadata)) :=
  (askingLoop nodes).bind fun loop =>
    plainRound.run (wireWith nodes) (appWith nodes) oldTeacher.metadata loop newcomersTeacher

/-- What the learner stores for the teacher, and the teacher's own checksum. -/
def storedAndOwn (nodes : List Node) : Option (Option (Finset NodeMetadata) × Finset NodeMetadata) :=
  (roundWith nodes).bind fun after =>
    (after.2.recordRemote setChecksum oldTeacher 100 (some 2) 200).map fun knownNodes =>
      ((knownNodes.remoteStates.get? oldTeacher.checksumAddress).map ArchivedFleetState.checksum,
        after.1.knownNodes.currentState.checksum setChecksum)

/-- A round that runs to its end, with the checksum it stores and the teacher's. -/
structure Completed (nodes : List Node) (stored : Option (Finset NodeMetadata))
    (own : Finset NodeMetadata) (loop loop' : Loop (Finset NodeMetadata))
    (teacher' : Learner (Finset NodeMetadata)) (knownNodes : FleetSensor (Finset NodeMetadata)) :
    Prop where
  asks : loop.phase = .asking oldTeacher false
  runs : plainRound.run (wireWith nodes) (appWith nodes) oldTeacher.metadata loop
    newcomersTeacher = some (teacher', loop')
  reports : loop'.phase = .reporting oldTeacher 100 (some 2)
  records : loop'.recordRemote setChecksum oldTeacher 100 (some 2) 200 = some knownNodes
  stored_eq : (knownNodes.remoteStates.get? oldTeacher.checksumAddress).map
    ArchivedFleetState.checksum = stored
  own_eq : teacher'.knownNodes.currentState.checksum setChecksum = own

theorem exists_completed {nodes : List Node} {stored : Option (Finset NodeMetadata)}
    {own : Finset NodeMetadata}
    (hasks : (askingLoop nodes).map Loop.phase = some (.asking oldTeacher false))
    (hreports : (roundWith nodes).map (fun after => after.2.phase) =
      some (.reporting oldTeacher 100 (some 2)))
    (hstored : storedAndOwn nodes = some (stored, own)) :
    ∃ loop loop' teacher' knownNodes, Completed nodes stored own loop loop' teacher' knownNodes := by
  rcases Option.map_eq_some_iff.mp hasks with ⟨loop, hloop, hphase⟩
  rcases Option.map_eq_some_iff.mp hreports with ⟨⟨teacher', loop'⟩, hround, hreport⟩
  rw [storedAndOwn, hround, Option.bind_some] at hstored
  rcases Option.map_eq_some_iff.mp hstored with ⟨knownNodes, hrecords, hpair⟩
  rcases Prod.mk.inj hpair with ⟨hstored', hown⟩
  rw [roundWith, hloop, Option.bind_some] at hround
  exact ⟨loop, loop', teacher', knownNodes, hphase, hround, hreport, hrecords, hstored', hown⟩

/-- A learner that knows a bystander stores the checksum of a fleet with the bystander for a
teacher that does not know it. -/
theorem attributed_checksum_differs :
    ∃ loop loop' teacher' knownNodes, ∃ own stored : Finset NodeMetadata,
      Completed [bystander] (some stored) own loop loop' teacher' knownNodes ∧ stored ≠ own := by
  have hasks : (askingLoop [bystander]).map Loop.phase = some (.asking oldTeacher false) := by
    decide
  have hreports : (roundWith [bystander]).map (fun after => after.2.phase) =
      some (.reporting oldTeacher 100 (some 2)) := by
    decide
  have hstored : storedAndOwn [bystander] = some (some (fleetOf [oldTeacher, newcomer, bystander]),
      fleetOf [oldTeacher, newcomer]) := by
    decide
  rcases exists_completed hasks hreports hstored with
    ⟨loop, loop', teacher', knownNodes, hcompleted⟩
  exact ⟨loop, loop', teacher', knownNodes, _, _, hcompleted, by decide⟩

theorem attributed_checksum_newcomersTeacher :
    ∃ loop loop' teacher' knownNodes, ∃ own : Finset NodeMetadata,
      Completed [] (some own) own loop loop' teacher' knownNodes ∧
        plainRound.Agrees oldTeacher.metadata loop.learner false newcomersTeacher teacher' := by
  have hasks : (askingLoop []).map Loop.phase = some (.asking oldTeacher false) := by
    decide
  have hreports : (roundWith []).map (fun after => after.2.phase) =
      some (.reporting oldTeacher 100 (some 2)) := by
    decide
  have hstored : storedAndOwn [] = some (some (fleetOf [oldTeacher, newcomer]),
      fleetOf [oldTeacher, newcomer]) := by
    decide
  rcases exists_completed hasks hreports hstored with
    ⟨loop, loop', teacher', knownNodes, hcompleted⟩
  refine ⟨loop, loop', teacher', knownNodes, _, hcompleted, ?_⟩
  apply (Round.attributed_checksum_iff (singleWire_faithful _ _ _ _) setChecksum_setDigest
    hcompleted.asks hcompleted.runs hcompleted.reports hcompleted.records).mp
  exact hcompleted.stored_eq.trans (congrArg some hcompleted.own_eq.symm)

end NuLink
