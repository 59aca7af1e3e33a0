import NuLinkCore.Network.Gossip.Latest

/-!
# How news spreads

A party that asks a teacher gets to know what the teacher knows, and a party that teaches
announces itself with each of its requests.  When an address has news and nothing newer
comes up, nobody marks it, and no party remembers an older representation of it in the
middle of a round, the news reaches every party to which a chain of such messages leads
from one that has it, whatever else happens on the way.

Main results:

- Theorem {lit}`Network.step_sound`: a steady step keeps what the parties have in order, and
  the news in the fleet of whoever has it.
- Theorem {lit}`Network.step_expects`: news on its way stays on its way until the round ends.
- Theorem {lit}`Network.news_spreads`: the news reaches whom a chain of messages leads to.
-/

namespace NuLink

open Collections Replication

/-- The sprouts bring the news, and nothing else of its address after it. -/
def Node.CarriedBy (news : Node) (sprouts : List Node) : Prop :=
  ∃ earlier later, sprouts = earlier ++ news :: later ∧
    ∀ node ∈ later, node.checksumAddress = news.checksumAddress → node = news

/-- The answer of a learner that has the news in its fleet brings it. -/
theorem Learner.carriedBy_answer {C : Type} {learner : Learner C} {news : Node}
    {thisNode : NodeMetadata} (hproper : learner.Proper (some thisNode))
    (hknown : ∀ address node, learner.known? address = some node → node ∈ news.upTo)
    (hholds : learner.Holds news) :
    news.CarriedBy ((thisNode ::
      learner.knownNodes.currentState.nodes.values.map Node.metadata).map nodeSprout) := by
  have hvalues : ((learner.knownNodes.currentState.nodes.values.map Node.metadata).map nodeSprout) =
      learner.knownNodes.currentState.nodes.values := by
    rw [List.map_map]
    exact List.map_id'' (fun _ => rfl) _
  have hsame : ∀ node ∈ learner.knownNodes.currentState.nodes.values,
      node.checksumAddress = news.checksumAddress →
        learner.known? news.checksumAddress = some node := by
    intro node hnode haddress
    rcases Dict.mem_values_iff_exists.mp hnode with ⟨address, hstored⟩
    rw [← haddress, hproper.keyed.address_eq address node hstored]
    exact hstored
  rw [List.map_cons, hvalues]
  rcases hproper.holds_iff.mp hholds with hown | hnews
  · -- The teacher is the subject of the news, and has no record of itself.
    have hthis : thisNode = news.metadata := Option.some.inj (hproper.reports _ hown)
    refine ⟨[], learner.knownNodes.currentState.nodes.values, by rw [hthis]; rfl, ?_⟩
    intro node hnode haddress
    have hstored := hsame node hnode haddress
    have hstamp := (hknown _ node hstored).1.mpr haddress
    have hself := hproper.stamp thisNode rfl
    rw [hthis] at hself
    exact absurd (hself.trans (congrArg some hstamp.symm)) (hproper.notKnown _ node hstored)
  · rcases List.append_of_mem (Dict.mem_values_iff_exists.mpr ⟨_, hnews⟩) with
      ⟨earlier, later, hsplit⟩
    refine ⟨nodeSprout thisNode :: earlier, later, by rw [hsplit]; rfl, ?_⟩
    intro node hnode haddress
    have hmem : node ∈ learner.knownNodes.currentState.nodes.values := by
      rw [hsplit]
      exact List.mem_append_right _ (List.mem_cons_of_mem _ hnode)
    exact Option.some.inj ((hsame node hmem haddress).symm.trans hnews)

/-- Other code, and nothing else, can move while a round waits for its answer. -/
theorem Loop.step_asking {C : Type}
    {fleetStateChecksum : Option NodeMetadata → List NodeMetadata → C} {loop loop' : Loop C}
    {node : Node} {remembered : Bool} {action : LoopAction}
    (hphase : loop.phase = .asking node remembered) (hreply : action.isReply = false)
    (h : loop.step fleetStateChecksum action = some loop') : loop'.phase = loop.phase := by
  cases action with
  | other op =>
      cases h
      rfl
  | seed seeding remember context => simp [step, hphase] at h
  | ask cancelled shuffle => simp [step, hphase] at h
  | reply reply shuffle => cases hreply
  | sprout eager caught context => simp [step, hphase] at h
  | record context => simp [step, hphase] at h
  | report now => simp [step, hphase] at h

/-- Whether a step verifies a sprout at once. -/
def NetworkAction.eager {ι : Type} : NetworkAction ι → Bool
  | .own _ (.sprout eager _ _) => eager
  | _ => false

instance (news node : Node) : Decidable (node ∈ news.upTo) :=
  inferInstanceAs (Decidable (_ ∧ _))

namespace Network

variable {ι C : Type} [DecidableEq ι] [DecidableEq C]

/-- The news is in the fleet of a party. -/
def Holds (net : Network ι C) (party : ι) (news : Node) : Prop :=
  (net.loops party).learner.Holds news

/-- What holds of a network while the news is the latest of its address: all nodes about are
consistent with it, the parties are proper learners of its domain, a connection belongs to a round
that waits, and a party that had the news when it made its request still has it. -/
structure Sound (D : Deployment ι C) (news : Node) (net : Network ι C) : Prop where
  sourced : net.Sourced D news.upTo (fun _ => news.others)
  proper : ∀ party, (net.loops party).learner.Proper (D.metadata party)
  domains : ∀ party, (net.loops party).learner.knownNodes.domain = news.domain
  asking : ∀ party, net.connections party ≠ .closed →
    ∃ node remembered, (net.loops party).phase = .asking node remembered
  requests : ∀ party teacher data, net.connections party = .requested teacher data →
    ∃ state, data = D.request party state ∧
      (news.metadata ∈ state.fleet → net.Holds party news)

/-- A step that brings in nothing newer than the news, does not mark its address, reports the
parties as they are, lets nothing older of that address disturb a round, and does not refuse the
news for its verification. -/
structure Steady (D : Deployment ι C) (news : Node) (net : Network ι C)
    (action : NetworkAction ι) : Prop where
  brings : ∀ node ∈ brings action, node ∈ news.upTo
  unmarked : ∀ party, news.checksumAddress ∉ net.marks D action party
  reports : ∀ party, ∀ op ∈ net.ops D action party,
    Learner.Reports (D.metadata party) (net.loops party).learner op
  undisturbed : ∀ party teacher updated announced sprouts remembered,
    (net.loops party).phase = .learning teacher updated announced sprouts remembered →
    (∀ eager caught context, action ≠ .own party (.sprout eager caught context)) →
    ∀ op ∈ net.ops D action party, ∀ node, op.remembered? = some node →
      node.checksumAddress = news.checksumAddress → node = news
  verified : ∀ party eager caught context, action = .own party (.sprout eager caught context) →
    eager = false ∨ (net.loops party).learner.verifyEagerly false context = .verified

/-- Some steady step leads from one network to the other. -/
def SteadyStep (D : Deployment ι C) (news : Node) (net net' : Network ι C) : Prop :=
  ∃ action, net.Steady D news action ∧ net.step D action = some net'

variable {D : Deployment ι C} {news : Node} {net net' : Network ι C}

theorem Steady.within {action : NetworkAction ι} (h : net.Steady D news action)
    (hsound : net.Sound D news) (hfaithful : D.Faithful) (party : ι) :
    ∀ op ∈ net.ops D action party, op.Within news.upTo news.others := by
  refine ops_within hfaithful hsound.sourced h.brings ?_
  intro address haddress heq
  exact h.unmarked party (heq ▸ haddress)

/-! ## What a steady step keeps -/

/-- A connection that is open after a step belongs to a round that waits. -/
theorem step_asking (hsound : net.Sound D news) {action : NetworkAction ι}
    (hstep : net.step D action = some net') (party : ι) (hopen : net'.connections party ≠ .closed) :
    ∃ node remembered, (net'.loops party).phase = .asking node remembered := by
  by_cases hmover : party = action.mover
  · subst hmover
    cases action with
    | own mover action =>
        rcases step_own hstep with ⟨hreply, loop, hloop, rfl⟩
        rcases hsound.asking mover hopen with ⟨node, remembered, hphase⟩
        refine ⟨node, remembered, ?_⟩
        simp only [NetworkAction.mover, withLoop_loops, Function.update_self]
        rw [Loop.step_asking hphase hreply hloop, hphase]
    | send mover =>
        rcases step_send hstep with ⟨node, remembered, teacher, hphase, -, -, rfl⟩
        exact ⟨node, remembered, hphase⟩
    | serve mover contexts =>
        rcases step_serve hstep with ⟨teacher, data, thisNode, hrequested, -, rfl⟩
        rw [served_phase]
        exact hsound.asking mover (by simp [hrequested])
    | receive mover shuffle =>
        rcases step_receive hstep with ⟨node, remembered, answer, loop, -, -, -, rfl⟩
        simp [NetworkAction.mover] at hopen
    | fail mover failure shuffle =>
        rcases step_fail hstep with ⟨loop, -, rfl⟩
        simp [NetworkAction.mover] at hopen
  · rw [step_connections hstep hmover] at hopen
    rw [step_phase hstep hmover]
    exact hsound.asking party hopen

/-- A request that is open after a step was there before, or is sent with the present fleet. -/
theorem step_requested {action : NetworkAction ι} (hstep : net.step D action = some net')
    {party teacher : ι} {data : Bytes}
    (hrequested : net'.connections party = .requested teacher data) :
    net.connections party = .requested teacher data ∨
      data = D.request party (net.loops party).learner.knownNodes.currentState := by
  by_cases hmover : party = action.mover
  · subst hmover
    cases action with
    | own mover action =>
        rcases step_own hstep with ⟨-, loop, -, rfl⟩
        exact Or.inl hrequested
    | send mover =>
        rcases step_send hstep with ⟨node, remembered, asked, -, -, -, rfl⟩
        simp only [NetworkAction.mover, withConnection_connections,
          Function.update_self] at hrequested
        cases hrequested
        exact Or.inr rfl
    | serve mover contexts =>
        rcases step_serve hstep with ⟨server, posted, thisNode, -, -, rfl⟩
        simp [served, NetworkAction.mover] at hrequested
    | receive mover shuffle =>
        rcases step_receive hstep with ⟨node, remembered, answer, loop, -, -, -, rfl⟩
        simp [NetworkAction.mover] at hrequested
    | fail mover failure shuffle =>
        rcases step_fail hstep with ⟨loop, -, rfl⟩
        simp [NetworkAction.mover] at hrequested
  · rw [step_connections hstep hmover] at hrequested
    exact Or.inl hrequested

/-- A steady step keeps what the parties have in order, and the news in the fleet of whoever has
it. -/
theorem step_sound (hfaithful : D.Faithful)
    (hown : ∀ party metadata, D.metadata party = some metadata → nodeSprout metadata ∈ news.upTo)
    (hsound : net.Sound D news) {action : NetworkAction ι} (hsteady : net.Steady D news action)
    (hstep : net.step D action = some net') :
    net'.Sound D news ∧ ∀ party, net.Holds party news → net'.Holds party news := by
  have hholds : ∀ party, net.Holds party news → net'.Holds party news := by
    intro party hbefore
    have hrun := Learner.run_holds D.fleetStateChecksum (hsound.sourced.accounted party)
      (hsound.proper party) (hsteady.within hsound hfaithful party) (hsteady.reports party) hbefore
    rw [Holds, Learner.Holds, (step_learner hstep party).currentState]
    exact hrun
  have hsourced := (step_sourced hfaithful hown hsound.sourced hsteady.brings
    (fun party address haddress heq => hsteady.unmarked party (heq ▸ haddress)) hstep).1
  refine ⟨⟨hsourced, ?_, ?_, step_asking hsound hstep, ?_⟩, hholds⟩
  · intro party
    have hsame := step_learner hstep party
    exact (Learner.run_proper D.fleetStateChecksum (hsound.proper party)
      (hsteady.reports party)).congr hsame.stamp hsame.domain hsame.currentState hsame.nodesToAdd
  · intro party
    rw [(step_learner hstep party).domain, Learner.run_domain]
    exact hsound.domains party
  · intro party teacher data hrequested
    rcases step_requested hstep hrequested with hold | rfl
    · rcases hsound.requests party teacher data hold with ⟨state, rfl, hstate⟩
      exact ⟨state, rfl, fun hmem => hholds party (hstate hmem)⟩
    · exact ⟨_, rfl, hholds party⟩

theorem step_stamp {action : NetworkAction ι} (hstep : net.step D action = some net') (party : ι) :
    (net'.loops party).learner.stamp = (net.loops party).learner.stamp := by
  rw [(step_learner hstep party).stamp, Learner.run_stamp]

/-! ## News on its way -/

/-- A round that learns is about to be told the news, or has accumulated it and is not told of
anything else of its address. -/
inductive Underway (net : Network ι C) (party : ι) (news : Node) (sprouts : List Node) :
    (remembered : Bool) → Prop where
  | told {remembered : Bool} (hcarried : news.CarriedBy sprouts) :
      Underway net party news sprouts remembered
  | accumulated (hpending : news ∈ (net.loops party).learner.knownNodes.nodesToAdd.elems)
      (hlater : ∀ node ∈ sprouts, node.checksumAddress = news.checksumAddress → node = news) :
      Underway net party news sprouts true

/-- The news is in the fleet of a party or on its way there: in the answer that the party is
about to receive, or in its round. -/
inductive Expects (D : Deployment ι C) (net : Network ι C) (party : ι) (news : Node) : Prop where
  | holds (h : net.Holds party news)
  | answered (answer : Except ServerError Response)
      (hconnection : net.connections party = .answered answer)
      (hcarried : ∀ node code updated nodes,
        D.reply node answer = .response code (some (updated, nodes)) →
          news.CarriedBy (nodes.map nodeSprout))
  | learning (teacher : Node) (updated announced : Nat) (sprouts : List Node) (remembered : Bool)
      (hphase : (net.loops party).phase = .learning teacher updated announced sprouts remembered)
      (hunderway : net.Underway party news sprouts remembered)

/-- What a step remembers at a party that keeps accumulated news. -/
theorem step_pending (hfaithful : D.Faithful) (hsound : net.Sound D news)
    {action : NetworkAction ι} (hsteady : net.Steady D news action)
    (hstep : net.step D action = some net') {party : ι}
    (hundisturbed : ∀ op ∈ net.ops D action party, ∀ node, op.remembered? = some node →
      node.checksumAddress = news.checksumAddress → node = news)
    (hpending : news ∈ (net.loops party).learner.knownNodes.nodesToAdd.elems) :
    news ∈ (net'.loops party).learner.knownNodes.nodesToAdd.elems ∨ net'.Holds party news := by
  have hsame := step_learner hstep party
  rw [hsame.nodesToAdd, Holds, Learner.Holds, hsame.currentState]
  exact Learner.run_pending D.fleetStateChecksum (hsound.sourced.accounted party)
    (hsound.proper party) (hsteady.within hsound hfaithful party) (hsteady.reports party)
    hundisturbed hpending

/-- While a party is learning, what leaves its round alone leaves the news on its way. -/
theorem expects_of_phase (hfaithful : D.Faithful) (hsound : net.Sound D news)
    {action : NetworkAction ι} (hsteady : net.Steady D news action)
    (hstep : net.step D action = some net') {party : ι} {teacher : Node} {updated announced : Nat}
    {sprouts : List Node} {remembered : Bool}
    (hphase : (net.loops party).phase = .learning teacher updated announced sprouts remembered)
    (hsame : (net'.loops party).phase = (net.loops party).phase)
    (hother : ∀ eager caught context, action ≠ .own party (.sprout eager caught context))
    (hunderway : net.Underway party news sprouts remembered) :
    net'.Expects D party news := by
  rw [hphase] at hsame
  cases hunderway with
  | told hcarried =>
      exact .learning teacher updated announced sprouts remembered hsame (.told hcarried)
  | accumulated hpending hlater =>
      have hundisturbed := hsteady.undisturbed party teacher updated announced sprouts true hphase
        hother
      rcases step_pending hfaithful hsound hsteady hstep hundisturbed hpending with
        hpending' | hholds
      · exact .learning teacher updated announced sprouts true hsame
          (.accumulated hpending' hlater)
      · exact .holds hholds

/-- The next sprout of a round that the news is on its way to. -/
theorem expects_of_sprout (hfaithful : D.Faithful) (hsound : net.Sound D news) {party : ι}
    {eager caught : Bool} {context : RememberContext}
    (hsteady : net.Steady D news (.own party (.sprout eager caught context)))
    (hstep : net.step D (.own party (.sprout eager caught context)) = some net')
    {teacher : Node} {updated announced : Nat} {sprouts : List Node} {remembered : Bool}
    (hphase : (net.loops party).phase = .learning teacher updated announced sprouts remembered)
    (hstranger : (net.loops party).learner.stamp ≠ some news.stamp)
    (hnot : ¬ net.Holds party news) (hgoes : (net'.loops party).phase ≠ .idle)
    (hunderway : net.Underway party news sprouts remembered) :
    net'.Expects D party news := by
  rcases step_own hstep with ⟨-, loop, hloop, hnet'⟩
  cases sprouts with
  | nil => simp [Loop.step, hphase] at hloop
  | cons sprout sprouts =>
      have hlearns : (net.loops party).learnSprout D.fleetStateChecksum teacher updated announced
          sprout sprouts remembered eager caught context = loop := by
        simpa [Loop.step, hphase] using hloop
      have hloops : net'.loops party = loop := by rw [hnet', withLoop_loops, Function.update_self]
      rcases Loop.learnSprout_cases D.fleetStateChecksum (net.loops party) teacher updated
        announced sprout sprouts remembered eager caught context with ⟨hlearner, hnext⟩
      rw [hlearns] at hlearner hnext
      rcases hnext with hidle | ⟨remembered', hphase', hremembered'⟩
      · exact absurd (hloops ▸ hidle) hgoes
      · rw [← hloops] at hlearner hphase'
        have hops : net.ops D (.own party (.sprout eager caught context)) party =
            [.rememberNode sprout false false eager context] := by
          simp [ops, Loop.ops, hphase]
        cases hunderway with
        | told hcarried =>
            rcases hcarried with ⟨earlier, later, hsplit, hlater⟩
            cases earlier with
            | nil =>
                -- The news itself is remembered.
                rw [List.nil_append] at hsplit
                rcases List.cons.inj hsplit with ⟨rfl, rfl⟩
                have hadmits := Learner.admits_news (hsound.proper party)
                  (hsound.sourced.known party) hstranger hnot
                have hremembers : remembered' = true := hremembered'.mpr
                  (Or.inr ⟨hadmits, hsteady.verified party eager caught context rfl⟩)
                rw [hremembers] at hphase'
                have hpending := Learner.rememberNode_news D.fleetStateChecksum hadmits
                  (hsound.domains party).symm eager context
                rw [← hlearner] at hpending
                exact .learning teacher updated announced sprouts true hphase'
                  (.accumulated hpending hlater)
            | cons first earlier =>
                rcases List.cons.inj hsplit with ⟨-, rfl⟩
                exact .learning teacher updated announced _ remembered' hphase'
                  (.told ⟨earlier, later, rfl, hlater⟩)
        | accumulated hpending hlater =>
            have hremembers : remembered' = true := hremembered'.mpr (Or.inl rfl)
            rw [hremembers] at hphase'
            have hundisturbed : ∀ op ∈ net.ops D (.own party (.sprout eager caught context)) party,
                ∀ node, op.remembered? = some node →
                  node.checksumAddress = news.checksumAddress → node = news := by
              intro op hop node hnode haddress
              rw [hops, List.mem_singleton] at hop
              rw [hop] at hnode
              cases hnode
              exact hlater sprout List.mem_cons_self haddress
            rcases step_pending hfaithful hsound hsteady hstep hundisturbed hpending with
              hpending' | hholds
            · exact .learning teacher updated announced sprouts true hphase'
                (.accumulated hpending'
                  fun node hnode => hlater node (List.mem_cons_of_mem _ hnode))
            · exact .holds hholds

/-- The end of a round that the news is on its way to. -/
theorem holds_of_record (hsound : net.Sound D news) {party : ι} {context : RecordContext}
    (hstep : net.step D (.own party (.record context)) = some net') {teacher : Node}
    {updated announced : Nat} {sprouts : List Node} {remembered : Bool}
    (hphase : (net.loops party).phase = .learning teacher updated announced sprouts remembered)
    (hunderway : net.Underway party news sprouts remembered) :
    net'.Holds party news := by
  rcases step_own hstep with ⟨-, loop, hloop, hnet'⟩
  cases sprouts with
  | cons sprout sprouts => simp [Loop.step, hphase] at hloop
  | nil =>
      cases hunderway with
      | told hcarried =>
          rcases hcarried with ⟨earlier, later, hsplit, -⟩
          simp at hsplit
      | accumulated hpending hlater =>
          have hloop' : (net.loops party).recordRemembered D.fleetStateChecksum teacher updated
              announced true context = loop := by
            simpa [Loop.step, hphase] using hloop
          have haccounted := hsound.sourced.accounted party
          have hnews := Learner.recordFleetState_news D.fleetStateChecksum haccounted.pending
            haccounted.marked hpending false context
          apply Learner.holds_of_known
          rw [hnet', withLoop_loops, Function.update_self, ← hloop']
          exact hnews

/-- While a party is learning, the news stays on its way as long as its round goes on. -/
theorem expects_of_learning (hfaithful : D.Faithful) (hsound : net.Sound D news)
    {action : NetworkAction ι} (hsteady : net.Steady D news action)
    (hstep : net.step D action = some net') {party : ι} {teacher : Node} {updated announced : Nat}
    {sprouts : List Node} {remembered : Bool}
    (hphase : (net.loops party).phase = .learning teacher updated announced sprouts remembered)
    (hstranger : (net.loops party).learner.stamp ≠ some news.stamp)
    (hnot : ¬ net.Holds party news) (hgoes : (net'.loops party).phase ≠ .idle)
    (hunderway : net.Underway party news sprouts remembered) :
    net'.Expects D party news := by
  have hstays : (net'.loops party).phase = (net.loops party).phase →
      (∀ eager caught context, action ≠ .own party (.sprout eager caught context)) →
      net'.Expects D party news := fun hsame hother =>
    expects_of_phase hfaithful hsound hsteady hstep hphase hsame hother hunderway
  by_cases hmover : party = action.mover
  · subst hmover
    cases action with
    | own mover action =>
        rcases step_own hstep with ⟨hreply, loop, hloop, hnet'⟩
        change (net.loops mover).phase = _ at hphase
        cases action with
        | other op =>
            refine hstays ?_ (fun eager caught context heq => by cases heq)
            cases hloop
            simp [hnet', NetworkAction.mover]
        | seed seeding remember context => simp [Loop.step, hphase] at hloop
        | ask cancelled shuffle => simp [Loop.step, hphase] at hloop
        | reply reply shuffle => cases hreply
        | sprout eager caught context =>
            exact expects_of_sprout hfaithful hsound hsteady hstep hphase hstranger hnot hgoes
              hunderway
        | record context => exact .holds (holds_of_record hsound hstep hphase hunderway)
        | report now => simp [Loop.step, hphase] at hloop
    | send mover =>
        refine hstays ?_ (fun eager caught context heq => by cases heq)
        rcases step_send hstep with ⟨node, remembered, asked, -, -, -, rfl⟩
        rfl
    | serve mover contexts =>
        refine hstays ?_ (fun eager caught context heq => by cases heq)
        rcases step_serve hstep with ⟨server, data, thisNode, -, -, rfl⟩
        exact served_phase net mover server thisNode ⟨data, contexts⟩ mover
    | receive mover shuffle =>
        rcases step_receive hstep with ⟨node, waiting, answer, loop, hasking, -, -, -⟩
        cases hasking.symm.trans hphase
    | fail mover failure shuffle =>
        rcases step_fail hstep with ⟨loop, hloop, -⟩
        change (net.loops mover).phase = _ at hphase
        simp [Loop.step, hphase] at hloop
  · refine hstays (step_phase hstep hmover) ?_
    rintro eager caught context rfl
    exact hmover rfl

/-- News in an answer that is received. -/
theorem expects_of_receive {party : ι} {shuffle : Reorder Node}
    (hstep : net.step D (.receive party shuffle) = some net') {answer : Except ServerError Response}
    (hconnection : net.connections party = .answered answer)
    (hcarried : ∀ node code updated nodes,
      D.reply node answer = .response code (some (updated, nodes)) →
        news.CarriedBy (nodes.map nodeSprout))
    (hgoes : (net'.loops party).phase ≠ .idle) : net'.Expects D party news := by
  rcases step_receive hstep with ⟨node, remembered, answer', loop, hphase, hconnection', hloop,
    hnet'⟩
  rw [hconnection] at hconnection'
  cases hconnection'
  have hloops : net'.loops party = loop := by
    rw [hnet', withConnection_loops, withLoop_loops, Function.update_self]
  have hhandled : (net.loops party).handleReply node remembered (D.reply node answer) shuffle =
      loop := by
    simpa [Loop.step, hphase] using hloop
  by_cases hresponse : ∃ code payload, D.reply node answer = .response code payload
  · rcases hresponse with ⟨code, payload, hread⟩
    rw [hread] at hhandled
    rcases (Loop.handleReply_response (net.loops party) node remembered code payload shuffle).2 with
      hidle | ⟨updated, hpayload, -⟩ | ⟨updated, metadata, nodes, hpayload, hlearning⟩
    · rw [hhandled, ← hloops] at hidle
      exact absurd hidle hgoes
    · rcases hcarried node code updated [] (by rw [hread, hpayload]) with
        ⟨earlier, later, hsplit, -⟩
      simp at hsplit
    · rw [hhandled, ← hloops] at hlearning
      exact .learning node updated (nodes.length + 1) _ remembered hlearning
        (.told (hcarried node code updated (metadata :: nodes) (by rw [hread, hpayload])))
  · have hidle := Loop.handleReply_exception_phase (net.loops party) node remembered
      (fun code payload heq => hresponse ⟨code, payload, heq⟩) shuffle
    rw [hhandled, ← hloops] at hidle
    exact absurd hidle hgoes

/-- A failed request ends its round. -/
theorem step_fail_phase (hsound : net.Sound D news) {party : ι} {failure : RequestFailure}
    {shuffle : Reorder Node} (hstep : net.step D (.fail party failure shuffle) = some net')
    (hopen : net.connections party ≠ .closed) : (net'.loops party).phase = .idle := by
  rcases step_fail hstep with ⟨loop, hloop, rfl⟩
  rcases hsound.asking party hopen with ⟨node, remembered, hphase⟩
  have hhandled : (net.loops party).handleReply node remembered failure.reply shuffle = loop := by
    simpa [Loop.step, hphase] using hloop
  have hfailed : ∀ code payload, failure.reply ≠ .response code payload := by
    intro code payload heq
    cases failure <;> cases heq
  rw [withConnection_loops, withLoop_loops, Function.update_self, ← hhandled]
  exact Loop.handleReply_exception_phase (net.loops party) node remembered hfailed shuffle

/-- News on its way stays on its way until the round ends. -/
theorem step_expects (hfaithful : D.Faithful)
    (hown : ∀ party metadata, D.metadata party = some metadata → nodeSprout metadata ∈ news.upTo)
    (hsound : net.Sound D news) {action : NetworkAction ι} (hsteady : net.Steady D news action)
    (hstep : net.step D action = some net') {party : ι}
    (hstranger : (net.loops party).learner.stamp ≠ some news.stamp)
    (hexpects : net.Expects D party news) (hgoes : (net'.loops party).phase ≠ .idle) :
    net'.Expects D party news := by
  have hkeeps := (step_sound hfaithful hown hsound hsteady hstep).2 party
  by_cases hnot : net.Holds party news
  · exact .holds (hkeeps hnot)
  cases hexpects with
  | holds h => exact absurd h hnot
  | learning teacher updated announced sprouts remembered hphase hunderway =>
      exact expects_of_learning hfaithful hsound hsteady hstep hphase hstranger hnot hgoes
        hunderway
  | answered answer hconnection hcarried =>
      have hstays : net'.connections party = net.connections party → net'.Expects D party news :=
        fun hsame => .answered answer (hsame.trans hconnection) hcarried
      by_cases hmover : party = action.mover
      · subst hmover
        cases action with
        | own mover action =>
            rcases step_own hstep with ⟨-, loop, -, rfl⟩
            exact hstays rfl
        | send mover =>
            rcases step_send hstep with ⟨node, remembered, asked, -, hclosed, -, -⟩
            cases hclosed.symm.trans hconnection
        | serve mover contexts =>
            rcases step_serve hstep with ⟨server, data, thisNode, hrequested, -, -⟩
            cases hrequested.symm.trans hconnection
        | receive mover shuffle => exact expects_of_receive hstep hconnection hcarried hgoes
        | fail mover failure shuffle =>
            have hopen : net.connections mover ≠ .closed := fun h => by
              cases h.symm.trans hconnection
            exact absurd (step_fail_phase hsound hstep hopen) hgoes
      · exact hstays (step_connections hstep hmover)

/-! ## Messages that carry the news -/

/-- A teacher that has the news serves a party: the party has it too, or is about to. -/
theorem serve_expects (hfaithful : D.Faithful)
    (hdigest : FleetState.SetDigest D.fleetStateChecksum)
    (hown : ∀ party metadata, D.metadata party = some metadata → nodeSprout metadata ∈ news.upTo)
    (hsound : net.Sound D news) {party teacher : ι} {contexts : Nat → RememberContext}
    {data : Bytes} (hsteady : net.Steady D news (.serve party contexts))
    (hstep : net.step D (.serve party contexts) = some net')
    (hrequested : net.connections party = .requested teacher data)
    (hholds : net.Holds teacher news) : net'.Expects D party news := by
  rcases step_sound hfaithful hown hsound hsteady hstep with ⟨hsound', hkeeps⟩
  by_cases hp : net'.Holds party news
  · exact .holds hp
  rcases step_serve hstep with ⟨server, posted, thisNode, hrequested', hmetadata, hnet'⟩
  rw [hrequested] at hrequested'
  cases hrequested'
  have hconnection : net'.connections party = .answered ((D.app teacher).nodeMetadataExchange
      thisNode (net.loops teacher).learner ⟨data, contexts⟩).2 := by
    simp [hnet', served]
  have hlearner : (net'.loops teacher).learner = ((D.app teacher).nodeMetadataExchange
      thisNode (net.loops teacher).learner ⟨data, contexts⟩).1 := by
    simp [hnet', served]
  refine .answered _ hconnection ?_
  intro node code updated nodes hread
  rcases Deployment.reply_exchange hfaithful hread with ⟨-, hparsed⟩ | hnodes
  · -- The fleets agree, so the party had the news when it made its request.
    rcases hsound.requests party teacher data hrequested with ⟨state, rfl, hstate⟩
    rcases hparsed with hnone | ⟨parsed, hparsed, hsame⟩
    · have hwritten := (hfaithful node teacher).parseRequest hnone
      cases hwritten
    · have hwritten := (hfaithful node teacher).parseRequest hparsed
      cases hwritten
      have hfleet := (FleetState.checksum_eq_iff hdigest _ _).mp hsame
      have hmem : news.metadata ∈ state.fleet := by
        rw [hfleet]
        exact hholds
      exact absurd (hkeeps party (hstate hmem)) hp
  · rw [hnodes, ← hlearner]
    have hproper := hsound'.proper teacher
    rw [hmetadata] at hproper
    exact Learner.carriedBy_answer hproper (hsound'.sourced.known teacher) (hkeeps teacher hholds)

/-- A request that announces the news is served. -/
theorem serve_announced (hfaithful : D.Faithful)
    (hdigest : FleetState.SetDigest D.fleetStateChecksum)
    (hown : ∀ party metadata, D.metadata party = some metadata → nodeSprout metadata ∈ news.upTo)
    (hsound : net.Sound D news) {party teacher : ι} {contexts : Nat → RememberContext}
    {state : FleetState} (hsteady : net.Steady D news (.serve party contexts))
    (hstep : net.step D (.serve party contexts) = some net')
    (hrequested : net.connections party = .requested teacher (D.request party state))
    (hstate : news.metadata ∈ state.fleet) (hself : D.metadata party = some news.metadata)
    (hverify : ∃ valid, D.verify news.metadata = .ok valid)
    (hstranger : (net.loops teacher).learner.stamp ≠ some news.stamp)
    (hanswer : ∃ response, net'.connections party = .answered (.ok response)) :
    net'.Holds teacher news := by
  have hkeeps := (step_sound hfaithful hown hsound hsteady hstep).2 teacher
  by_cases hbefore : net.Holds teacher news
  · exact hkeeps hbefore
  rcases step_serve hstep with ⟨server, posted, thisNode, hrequested', -, hnet'⟩
  rw [hrequested] at hrequested'
  cases hrequested'
  rcases hanswer with ⟨response, hanswer⟩
  have hconnection : ((D.app teacher).nodeMetadataExchange thisNode (net.loops teacher).learner
      ⟨D.request party state, contexts⟩).2 = .ok response := by
    simpa [hnet', served] using hanswer
  have hlearner : (net'.loops teacher).learner = ((D.app teacher).nodeMetadataExchange
      thisNode (net.loops teacher).learner ⟨D.request party state, contexts⟩).1 := by
    simp [hnet', served]
  rw [Holds, hlearner]
  unfold RestApp.nodeMetadataExchange at hconnection ⊢
  cases hparse : (D.app teacher).parseRequest (D.request party state) with
  | error e =>
      rw [hparse] at hconnection
      cases hconnection
  | ok parsed =>
      have hwritten := (hfaithful news teacher).parseRequest hparse
      subst hwritten
      by_cases hsame : state.checksum D.fleetStateChecksum =
          (net.loops teacher).learner.knownNodes.currentState.checksum D.fleetStateChecksum
      · have hfleet := (FleetState.checksum_eq_iff hdigest _ _).mp hsame
        rw [hfleet] at hstate
        exact absurd hstate hbefore
      · rcases hverify with ⟨valid, hverify⟩
        have hadmits := Learner.admits_news (hsound.proper teacher)
          (hsound.sourced.known teacher) hstranger hbefore
        have hrecorded := Learner.rememberNode_news_recorded D.fleetStateChecksum
          (hsound.sourced.accounted teacher) (hown party news.metadata hself) hadmits
          (hsound.domains teacher).symm (contexts 0)
        have hannounce : (D.app teacher).announceAll (net.loops teacher).learner contexts
            [news.metadata] = ((net.loops teacher).learner.rememberNode D.fleetStateChecksum news
              false true false (contexts 0)).1 := by
          have hverify' : (D.app teacher).verify news.metadata = .ok valid := hverify
          simp only [RestApp.announceAll, RestApp.announce, hverify']
          rfl
        have hbranch : ¬ state.checksum D.fleetStateChecksum =
            (net.loops teacher).learner.knownNodes.currentState.checksum
              (D.app teacher).fleetStateChecksum := hsame
        simp only [if_neg hbranch, hself, Option.toList_some, hannounce]
        exact hrecorded

/-- A message of one party that carries the news to another, with the steps that it takes. -/
inductive Informs (D : Deployment ι C) (news : Node) (p q : ι) (net net' : Network ι C) : Prop where
  /-- The first party serves the request of the second, whose round goes on to its report. -/
  | taught {served : Network ι C} {contexts : Nat → RememberContext} {data : Bytes}
      {teacher : Node} {updated : Nat} {announced : Option Nat}
      (hrequested : net.connections q = .requested p data)
      (hsteady : net.Steady D news (.serve q contexts))
      (hserve : net.step D (.serve q contexts) = some served)
      (hround : Relation.ReflTransGen
        (fun s s' => SteadyStep D news s s' ∧ (s'.loops q).phase ≠ .idle) served net')
      (hreport : (net'.loops q).phase = .reporting teacher updated announced)
      (hstranger : (net.loops q).learner.stamp ≠ some news.stamp)
  /-- The first party is the subject of the news, and the second serves its request. -/
  | announced {sent waiting : Network ι C} {contexts : Nat → RememberContext} {data : Bytes}
      {response : Response} (hself : D.metadata p = some news.metadata)
      (hsend : net.step D (.send p) = some sent)
      (hsent : sent.connections p = .requested q data)
      (hwaiting : Relation.ReflTransGen
        (fun s s' => SteadyStep D news s s' ∧ s'.connections p = .requested q data) sent waiting)
      (hsteady : waiting.Steady D news (.serve p contexts))
      (hserve : waiting.step D (.serve p contexts) = some net')
      (hanswer : net'.connections p = .answered (.ok response))
      (hverify : ∃ valid, D.verify news.metadata = .ok valid)
      (hstranger : (net.loops q).learner.stamp ≠ some news.stamp)

/-- Sending a request does nothing to any learner. -/
theorem steady_send (net : Network ι C) (party : ι) : net.Steady D news (.send party) where
  brings := fun node hnode => by cases hnode
  unmarked := fun other hmem => by cases hmem
  reports := fun other op hop => by cases hop
  undisturbed := fun other _ _ _ _ _ _ _ op hop => by cases hop
  verified := fun other eager caught context heq => by cases heq

omit [DecidableEq ι] [DecidableEq C] in
/-- The news is in the fleet of a party whose round has got to its report. -/
theorem holds_of_reporting (hsound : net.Sound D news) {party : ι} {teacher : Node} {updated : Nat}
    {announced : Option Nat}
    (hreport : (net.loops party).phase = .reporting teacher updated announced)
    (hexpects : net.Expects D party news) : net.Holds party news := by
  cases hexpects with
  | holds h => exact h
  | answered answer hconnection hcarried =>
      rcases hsound.asking party (by simp [hconnection]) with ⟨node, remembered, hphase⟩
      rw [hreport] at hphase
      cases hphase
  | learning teacher' updated' announced' sprouts remembered hphase hunderway =>
      rw [hreport] at hphase
      cases hphase

/-- A message carries the news. -/
theorem informs_holds (hfaithful : D.Faithful)
    (hdigest : FleetState.SetDigest D.fleetStateChecksum)
    (hown : ∀ party metadata, D.metadata party = some metadata → nodeSprout metadata ∈ news.upTo)
    {p q : ι} (hsound : net.Sound D news) (hinforms : Informs D news p q net net')
    (hholds : net.Holds p news) : net'.Sound D news ∧ net'.Holds q news := by
  cases hinforms with
  | @taught served _ _ _ _ _ hrequested hsteady hserve hround hreport hstranger =>
      have hround' : net'.Sound D news ∧ net'.Expects D q news ∧
          (net'.loops q).learner.stamp ≠ some news.stamp := by
        clear hreport
        induction hround with
        | refl =>
            refine ⟨(step_sound hfaithful hown hsound hsteady hserve).1,
              serve_expects hfaithful hdigest hown hsound hsteady hserve hrequested hholds, ?_⟩
            rw [step_stamp hserve]
            exact hstranger
        | tail _ hlast ih =>
            rcases ih with ⟨hmid, hexpects, hstranger'⟩
            rcases hlast with ⟨⟨action, haction, hstep⟩, hgoes⟩
            refine ⟨(step_sound hfaithful hown hmid haction hstep).1,
              step_expects hfaithful hown hmid haction hstep hstranger' hexpects hgoes, ?_⟩
            rw [step_stamp hstep]
            exact hstranger'
      exact ⟨hround'.1, holds_of_reporting hround'.1 hreport hround'.2.1⟩
  | @announced sent waiting _ data _ hself hsend hsent hwaiting hsteady hserve hanswer hverify
      hstranger =>
      have hdata : data =
          D.request p (net.loops p).learner.knownNodes.currentState := by
        rcases step_send hsend with ⟨node, remembered, asked, -, -, -, rfl⟩
        rw [withConnection_connections, Function.update_self] at hsent
        cases hsent
        rfl
      have hwaits : waiting.Sound D news ∧ waiting.connections p = .requested q data ∧
          (waiting.loops q).learner.stamp ≠ some news.stamp := by
        clear hsteady hserve
        induction hwaiting with
        | refl =>
            refine ⟨(step_sound hfaithful hown hsound (steady_send net p) hsend).1, hsent, ?_⟩
            rw [step_stamp hsend]
            exact hstranger
        | tail _ hlast ih =>
            rcases ih with ⟨hmid, -, hstranger'⟩
            rcases hlast with ⟨⟨action, haction, hstep⟩, hconnection⟩
            refine ⟨(step_sound hfaithful hown hmid haction hstep).1, hconnection, ?_⟩
            rw [step_stamp hstep]
            exact hstranger'
      rcases hwaits with ⟨hmid, hrequested, hstranger'⟩
      rw [hdata] at hrequested
      exact ⟨(step_sound hfaithful hown hmid hsteady hserve).1,
        serve_announced hfaithful hdigest hown hmid hsteady hserve hrequested hholds hself hverify
          hstranger' ⟨_, hanswer⟩⟩

/-! ## The network from its start -/

/-- The learners of one domain that have not remembered anything yet, each with the stamp of its
metadata. -/
structure Fresh (D : Deployment ι C) (domain : String) (net : Network ι C) : Prop where
  loops : ∀ party, ∃ stamp saveMetadata verifyNodeBonding hasRegistry includeSelf now,
    net.loops party = Loop.new D.fleetStateChecksum stamp saveMetadata verifyNodeBonding
      hasRegistry domain includeSelf now ∧
    ∀ metadata, D.metadata party = some metadata → stamp = some metadata.payload.verifyingKey
  closed : ∀ party, net.connections party = .closed

omit [DecidableEq ι] [DecidableEq C] in
theorem Fresh.sound {start : Network ι C} (h : start.Fresh D news.domain) :
    start.Sound D news := by
  constructor
  · constructor
    · intro party
      rcases h.loops party with ⟨stamp, save, bonding, registry, self, now, hloop, -⟩
      rw [hloop]
      refine ⟨?_, ?_, Learner.new_pendingNewer D.fleetStateChecksum stamp save bonding registry
        news.domain self now⟩
      · intro node hnode
        cases hnode
      · intro address haddress
        cases haddress
    · intro party address node hnode
      rcases h.loops party with ⟨stamp, save, bonding, registry, self, now, hloop, -⟩
      rw [hloop] at hnode
      cases hnode
    · intro party sprout hsprout
      rcases h.loops party with ⟨stamp, save, bonding, registry, self, now, hloop, -⟩
      rw [hloop] at hsprout
      cases hsprout
    · intro party
      rw [h.closed party]
      trivial
  · intro party
    rcases h.loops party with ⟨stamp, save, bonding, registry, self, now, hloop, hstamp⟩
    rw [hloop]
    refine ⟨FleetSensor.new_wellKeyed D.fleetStateChecksum news.domain self now, ?_, hstamp, ?_, ?_⟩
    · intro metadata hmetadata
      cases hmetadata
    · intro address node hnode
      cases hnode
    · intro node hnode
      cases hnode
  · intro party
    rcases h.loops party with ⟨stamp, save, bonding, registry, self, now, hloop, -⟩
    rw [hloop]
    rfl
  · intro party hopen
    exact absurd (h.closed party) hopen
  · intro party teacher data hrequested
    rw [h.closed party] at hrequested
    cases hrequested

/-- What can be evaluated of a step to see that it is steady: it remembers nothing of the address
but the news, and verifies nothing at once. -/
def Settled [Fintype ι] (D : Deployment ι C) (news : Node) (net : Network ι C)
    (action : NetworkAction ι) : Prop :=
  (∀ node ∈ brings action, node ∈ news.upTo) ∧
    (∀ party, news.checksumAddress ∉ net.marks D action party) ∧
    (∀ party, ∀ op ∈ net.ops D action party,
      (∀ context ∈ op.context?,
        (net.loops party).learner.knownNodes.currentState.hasThisNode = true →
          D.metadata party = some context.thisNode) ∧
      ∀ node ∈ op.remembered?, node.checksumAddress = news.checksumAddress → node = news) ∧
    action.eager = false

instance [Fintype ι] (D : Deployment ι C) (news : Node) (net : Network ι C)
    (action : NetworkAction ι) : Decidable (net.Settled D news action) :=
  inferInstanceAs (Decidable (_ ∧ _))

theorem Settled.steady [Fintype ι] {action : NetworkAction ι} (h : net.Settled D news action) :
    net.Steady D news action where
  brings := h.1
  unmarked := h.2.1
  reports := fun party op hop => (h.2.2.1 party op hop).1
  undisturbed := fun party _ _ _ _ _ _ _ op hop => (h.2.2.1 party op hop).2
  verified := by
    intro party eager caught context haction
    subst haction
    exact Or.inl h.2.2.2

/-- A settled step to a network of which something holds. -/
def settledStep [Fintype ι] (D : Deployment ι C) (news : Node) (keeps : Network ι C → Bool)
    (net : Network ι C) (action : NetworkAction ι) : Option (Network ι C) :=
  if net.Settled D news action then (net.step D action).filter keeps else none

theorem settledStep_eq_some [Fintype ι] {keeps : Network ι C → Bool} {action : NetworkAction ι}
    (h : settledStep D news keeps net action = some net') :
    net.Steady D news action ∧ net.step D action = some net' ∧ keeps net' = true := by
  unfold settledStep at h
  split at h
  · next hsettled => exact ⟨hsettled.steady, Option.filter_eq_some_iff.mp h⟩
  · cases h

/-- A run of settled steps is one of steady steps. -/
theorem steps_of_settled [Fintype ι] {keeps : Network ι C → Bool}
    {actions : List (NetworkAction ι)}
    (h : Execution.run (settledStep D news keeps) net actions = some net') :
    Relation.ReflTransGen (fun s s' => SteadyStep D news s s' ∧ keeps s' = true) net net' := by
  refine Relation.ReflTransGen.mono ?_ _ _ (Execution.reaches_of_run h)
  rintro s s' ⟨action, hstep⟩
  rcases settledStep_eq_some hstep with ⟨hsteady, hstep', hkeeps⟩
  exact ⟨⟨action, hsteady, hstep'⟩, hkeeps⟩

end Network

/-! ## A newcomer, a teacher and a learner -/

/-- The teacher that a request is on its way to. -/
def Connection.teacher? {ι : Type} : Connection ι → Option ι
  | .requested teacher _ => some teacher
  | _ => none

/-- Whether a request was answered with a response. -/
def Connection.isOk {ι : Type} : Connection ι → Bool
  | .answered (.ok _) => true
  | _ => false

theorem Connection.requested_of_teacher? {ι : Type} {connection : Connection ι} {teacher : ι}
    (h : connection.teacher? = some teacher) : ∃ data, connection = .requested teacher data := by
  cases connection with
  | closed => cases h
  | requested asked data => exact ⟨data, congrArg (Connection.requested · data) (Option.some.inj h)⟩
  | answered answer => cases h

theorem Connection.answered_of_isOk {ι : Type} {connection : Connection ι}
    (h : connection.isOk = true) : ∃ response, connection = .answered (.ok response) := by
  cases connection with
  | closed => cases h
  | requested teacher data => cases h
  | answered answer =>
      cases answer with
      | error e => cases h
      | ok response => exact ⟨response, rfl⟩

/-- The parties of a meeting. -/
inductive MeetingParty where
  | learner
  | teacher
  | newcomer
deriving DecidableEq, Repr

instance : Fintype MeetingParty where
  elems := {.learner, .teacher, .newcomer}
  complete party := by cases party <;> decide

/-- Both others ask the teacher, with messages that stand for their two requests and for one
response. -/
def meetingDeployment : Deployment MeetingParty (Finset NodeMetadata) where
  partyAt _ _ := some .teacher
  metadata
    | .learner => none
    | .teacher => some oldTeacher.metadata
    | .newcomer => some newcomer.metadata
  fleetStateChecksum := setChecksum
  verify _ := .ok true
  metadataRequest checksum announced :=
    if checksum = fleetOf [oldTeacher] ∧ announced = [] then [1]
    else if checksum = fleetOf [newcomer, oldTeacher] ∧ announced = [newcomer.metadata] then [2]
    else [0]
  requestFromBytes bytes :=
    if bytes = [1] then .ok ⟨fleetOf [oldTeacher], []⟩
    else if bytes = [2] then .ok ⟨fleetOf [newcomer, oldTeacher], [newcomer.metadata]⟩
    else .error "malformed"
  metadataResponse _ := (appWith []).metadataResponse
  readMetadataResponse _ := (wireWith []).readMetadataResponse

theorem meetingDeployment_faithful : meetingDeployment.Faithful := by
  intro teacher party
  refine ⟨?_, ?_, (singleWire_faithful (fleetOf [oldTeacher]) [] _ _).response⟩
  · intro checksum nodes parsed h
    simp only [Deployment.app, Deployment.wire, meetingDeployment] at h
    split at h
    · next hlearner =>
        cases h
        rw [hlearner.1, hlearner.2]
    · split at h
      · next hnewcomer =>
          cases h
          rw [hnewcomer.1, hnewcomer.2]
      · cases h
  · intro checksum nodes parsed h
    simp only [Deployment.app, meetingDeployment, metadataRequestData_ne_singleton, if_false] at h
    cases h

/-- What the newcomer meets when it records its fleet state. -/
def newcomerContext : RememberContext :=
  { Learner.plainRememberContext with
    record := { FleetSensor.plainContext with thisNode := newcomer.metadata } }

/-- All parties at the start. -/
def meetingStart : Network MeetingParty (Finset NodeMetadata) where
  loops
    | .learner => Loop.new setChecksum none false true true "mainnet" false 0
    | .teacher => Loop.new setChecksum (some oldTeacher.stamp) false true true "mainnet" true 0
    | .newcomer => Loop.new setChecksum (some newcomer.stamp) false true true "mainnet" true 0
  connections _ := .closed

theorem meetingStart_fresh : meetingStart.Fresh meetingDeployment newcomer.domain where
  loops party := by
    cases party
    · exact ⟨none, false, true, true, false, 0, rfl, fun metadata h => by cases h⟩
    · refine ⟨some oldTeacher.stamp, false, true, true, true, 0, rfl, ?_⟩
      intro metadata h
      cases h
      rfl
    · refine ⟨some newcomer.stamp, false, true, true, true, 0, rfl, ?_⟩
      intro metadata h
      cases h
      rfl
  closed _ := rfl

/-- The learner sends its request, and the newcomer is about to send its own. -/
def meetingOpening : List (NetworkAction MeetingParty) :=
  [.own .learner (.other (.rememberNode oldTeacher false true false Learner.plainRememberContext)),
    .own .learner
      (.seed (.completes [] []) Learner.plainRememberContext FleetSensor.plainContext),
    .own .learner (.ask false Reorder.identity), .send .learner,
    .own .newcomer (.other (.rememberNode oldTeacher false true false newcomerContext)),
    .own .newcomer (.seed (.completes [] []) newcomerContext newcomerContext.record),
    .own .newcomer (.ask false Reorder.identity)]

/-- What the learner does with the answer. -/
def meetingRound : List (NetworkAction MeetingParty) :=
  [.receive .learner Reorder.identity,
    .own .learner (.sprout false false Learner.plainRememberContext),
    .own .learner (.sprout false false Learner.plainRememberContext),
    .own .learner (.record FleetSensor.plainContext)]

/-- Whether the round of the learner has not ended. -/
def learnerBusy (net : Network MeetingParty (Finset NodeMetadata)) : Bool :=
  (net.loops .learner).phase ≠ .idle

end NuLink
