import NuLinkCore.Lib.Execution
import NuLinkCore.Network.Learner

/-!
# The learning loop

A round of {lit}`learn_from_teacher_node`, split into the steps that it makes on the
state of the learner: seeding, choosing the teacher and sending the request, handling the
reply, remembering the announced sprouts one by one, recording the fleet state, and
attributing a fleet state to the teacher.  Between any two of them other code may
remember nodes, mark them or record the fleet state.

Teachers wait in a queue that is filled from the current fleet state.  A teacher that
turns out to be invalid is only marked; the next recording of the fleet state removes it,
whether or not it is waiting, chosen or being listened to again.

Main results:

- Theorem {lit}`Loop.step_teachersKnown`: a step keeps every teacher known, unless it
  records the fleet state while one of them is marked for removal.
- Theorem {lit}`Loop.CleanRun.teacher_known`: in every run without such a step the
  teacher of a round is known when a fleet state is attributed to it.
-/

namespace NuLink

open Collections

/-- Where the round of the loop stands, with the local variables of the call.
{lit}`remembered` says whether the list of that name is nonempty. -/
inductive Phase where
  | idle
  | seeded (remembered : Bool)
  | asking (teacher : Node) (remembered : Bool)
  | learning (teacher : Node) (fleetStateUpdated announced : Nat) (sprouts : List Node)
      (remembered : Bool)
  /-- About to call {lit}`record_remote_fleet_state`; the population is that of the learner
  itself, or the number of announced nodes. -/
  | reporting (teacher : Node) (fleetStateUpdated : Nat) (announced : Option Nat)
deriving DecidableEq, Repr

/-- The teacher that the round has asked. -/
def Phase.teacher? : Phase → Option Node
  | .idle => none
  | .seeded _ => none
  | .asking teacher _ => some teacher
  | .learning teacher _ _ _ _ => some teacher
  | .reporting teacher _ _ => some teacher

/-- A learner with the state of its learning loop. -/
structure Loop (C : Type) where
  learner : Learner C
  teacherNodes : List Node := []
  currentTeacherNode : Option Node := none
  doneSeeding : Bool := false
  learningRound : Nat := 0
  phase : Phase := .idle

/-- How {lit}`load_seednodes` ends, with the seed nodes and stored nodes it got to. -/
inductive Seeding where
  | failsAtSeeds (seeds : List Node)
  | failsAtStorage (seeds stored : List Node)
  | completes (seeds stored : List Node)

/-- What the request to the teacher brings: an exception, or a response with its status code
and the payload that was deserialized and verified, if any. -/
inductive TeacherReply where
  | nodeSeemsToBeDown
  | invalidNode
  | raised
  | response (statusCode : Nat) (payload : Option (Nat × List NodeMetadata))

/-- The steps of the loop and of other code; each carries what is decided outside. -/
inductive LoopAction where
  /-- Other code remembers or marks a node, or records the fleet state. -/
  | other (op : Learner.Op)
  | seed (seeding : Seeding) (remember : RememberContext) (context : RecordContext)
  | ask (cancelled : Bool) (shuffle : Reorder Node)
  | reply (reply : TeacherReply) (shuffle : Reorder Node)
  | sprout (eager caught : Bool) (context : RememberContext)
  | record (context : RecordContext)
  | report (now : Nat)

namespace Loop

variable {C : Type} (fleetStateChecksum : Option NodeMetadata → List NodeMetadata → C)

/-! ## Teachers -/

/-- {lit}`select_teacher_nodes`; {lit}`none` is {lit}`NotEnoughTeachers`. -/
def selectTeacherNodes (loop : Loop C) (shuffle : Reorder Node) : Option (Loop C) :=
  match shuffle.apply loop.learner.knownNodes.currentState.nodes.values with
  | [] => none
  | nodesWeKnowAbout => some { loop with teacherNodes := loop.teacherNodes ++ nodesWeKnowAbout }

/-- {lit}`self._current_teacher_node = self.teacher_nodes.pop()`. -/
def popTeacherNode (loop : Loop C) : Option (Loop C) :=
  match loop.teacherNodes.getLast? with
  | none => none
  | some teacher =>
      some { loop with
        teacherNodes := loop.teacherNodes.dropLast, currentTeacherNode := some teacher }

/-- {lit}`cycle_teacher_node`; {lit}`none` is {lit}`NotEnoughTeachers`. -/
def cycleTeacherNode (loop : Loop C) (shuffle : Reorder Node) : Option (Loop C) :=
  match loop.teacherNodes with
  | [] => (loop.selectTeacherNodes shuffle).bind popTeacherNode
  | _ => loop.popTeacherNode

/-- {lit}`current_teacher_node()`; {lit}`none` is {lit}`NotEnoughTeachers`. -/
def currentTeacher (loop : Loop C) (shuffle : Reorder Node) : Option (Loop C × Node) :=
  match loop.currentTeacherNode with
  | some teacher => some (loop, teacher)
  | none =>
      (loop.cycleTeacherNode shuffle).bind fun cycled =>
        cycled.currentTeacherNode.map fun teacher => (cycled, teacher)

/-! ## The steps of a round -/

/-- {lit}`remember_node(node, record_fleet_state=False)` for several nodes. -/
def rememberAll (learner : Learner C) (nodes : List Node) (context : RememberContext) :
    Learner C :=
  nodes.foldl
    (fun learner node =>
      (learner.rememberNode fleetStateChecksum node false false false context).1)
    learner

/-- {lit}`load_seednodes(record_fleet_state=True)`.  Whatever {lit}`remember_node` returns is
appended to the discovered nodes. -/
def loadSeednodes (loop : Loop C) (seeding : Seeding) (remember : RememberContext)
    (context : RecordContext) : Loop C :=
  let ours (stored : List Node) :=
    stored.filter (fun node => node.domain = loop.learner.knownNodes.domain)
  match seeding with
  | .failsAtSeeds seeds =>
      { loop with learner := rememberAll fleetStateChecksum loop.learner seeds remember }
  | .failsAtStorage seeds stored =>
      { loop with
        learner := rememberAll fleetStateChecksum loop.learner (seeds ++ ours stored) remember
        doneSeeding := true }
  | .completes seeds stored =>
      let discovered := seeds ++ ours stored
      let learner := rememberAll fleetStateChecksum loop.learner discovered remember
      { loop with
        learner := if discovered = [] then learner else { learner with
          knownNodes := learner.knownNodes.recordFleetState fleetStateChecksum false context }
        doneSeeding := true
        phase := .seeded (discovered ≠ []) }

/-- From the seeding to the request: the choice of the teacher, then the test of the
canceller. -/
def ask (loop : Loop C) (remembered cancelled : Bool) (shuffle : Reorder Node) : Loop C :=
  let started := { loop with learningRound := loop.learningRound + 1, phase := .idle }
  match started.currentTeacher shuffle with
  | none => started
  | some (chosen, teacher) =>
      if cancelled then chosen else { chosen with phase := .asking teacher remembered }

/-- The {lit}`except` clauses of the request with their {lit}`finally`, and the handling of a
response up to the announced nodes. -/
def handleReply (loop : Loop C) (teacher : Node) (remembered : Bool) (reply : TeacherReply)
    (shuffle : Reorder Node) : Loop C :=
  let ended := { loop with phase := .idle }
  match reply with
  | .nodeSeemsToBeDown => (ended.cycleTeacherNode shuffle).getD ended
  | .invalidNode =>
      let marked := { ended with
        learner := { ended.learner with knownNodes := ended.learner.knownNodes.markAs teacher } }
      (marked.cycleTeacherNode shuffle).getD marked
  | .raised => (ended.cycleTeacherNode shuffle).getD ended
  | .response statusCode payload =>
      match ended.cycleTeacherNode shuffle with
      | none => ended
      | some cycled =>
          if statusCode ≠ 200 then cycled
          else if loop.learner.knownNodes.domain ≠ teacher.domain then cycled
          else
            match payload with
            | none => cycled
            | some (fleetStateUpdated, []) =>
                { cycled with phase := .reporting teacher fleetStateUpdated none }
            | some (fleetStateUpdated, announceNodes) =>
                { cycled with
                  phase := .learning teacher fleetStateUpdated announceNodes.length
                    (announceNodes.map nodeSprout) remembered }

/-- The next sprout of the loop.  Some exceptions of {lit}`remember_node` are caught, the others
end the round. -/
def learnSprout (loop : Loop C) (teacher : Node) (fleetStateUpdated announced : Nat)
    (sprout : Node) (sprouts : List Node) (remembered eager caught : Bool)
    (context : RememberContext) : Loop C :=
  let (learner, result) :=
    loop.learner.rememberNode fleetStateChecksum sprout false false eager context
  let goOn (remembered : Bool) : Phase :=
    .learning teacher fleetStateUpdated announced sprouts remembered
  match result with
  | .refused => { loop with learner, phase := goOn remembered }
  | .remembered _ => { loop with learner, phase := goOn true }
  | .raised => { loop with learner, phase := if caught then goOn remembered else .idle }

/-- {lit}`if remembered: self.known_nodes.record_fleet_state()`. -/
def recordRemembered (loop : Loop C) (teacher : Node) (fleetStateUpdated announced : Nat)
    (remembered : Bool) (context : RecordContext) : Loop C :=
  { loop with
    learner := if remembered then { loop.learner with
        knownNodes := loop.learner.knownNodes.recordFleetState fleetStateChecksum false context }
      else loop.learner
    phase := .reporting teacher fleetStateUpdated (some announced) }

/-- The call of {lit}`record_remote_fleet_state` for the teacher; {lit}`none` is its
{lit}`KeyError`. -/
def recordRemote (loop : Loop C) (teacher : Node) (fleetStateUpdated : Nat)
    (announced : Option Nat) (now : Nat) : Option (FleetSensor C) :=
  let knownNodes := loop.learner.knownNodes
  knownNodes.recordRemoteFleetState teacher.checksumAddress
    (knownNodes.currentState.checksum fleetStateChecksum) fleetStateUpdated
    (announced.getD knownNodes.currentState.population) now

/-- One step; {lit}`none` where the round does not stand at that step. -/
def step (loop : Loop C) : LoopAction → Option (Loop C)
  | .other op => some { loop with learner := loop.learner.step fleetStateChecksum op }
  | .seed seeding remember context =>
      match loop.phase with
      | .idle =>
          if loop.doneSeeding then none
          else some (loop.loadSeednodes fleetStateChecksum seeding remember context)
      | _ => none
  | .ask cancelled shuffle =>
      match loop.phase with
      | .idle => if loop.doneSeeding then some (loop.ask false cancelled shuffle) else none
      | .seeded remembered => some (loop.ask remembered cancelled shuffle)
      | _ => none
  | .reply reply shuffle =>
      match loop.phase with
      | .asking teacher remembered => some (loop.handleReply teacher remembered reply shuffle)
      | _ => none
  | .sprout eager caught context =>
      match loop.phase with
      | .learning teacher updated announced (sprout :: sprouts) remembered =>
          some (loop.learnSprout fleetStateChecksum teacher updated announced sprout sprouts
            remembered eager caught context)
      | _ => none
  | .record context =>
      match loop.phase with
      | .learning teacher updated announced [] remembered =>
          some (loop.recordRemembered fleetStateChecksum teacher updated announced remembered
            context)
      | _ => none
  | .report now =>
      match loop.phase with
      | .reporting teacher updated announced =>
          match loop.recordRemote fleetStateChecksum teacher updated announced now with
          | some knownNodes =>
              some { loop with learner := { loop.learner with knownNodes }, phase := .idle }
          | none => some { loop with phase := .idle }
      | _ => none

/-! ## Teachers stay known -/

/-- The nodes that the loop may still learn from: those waiting, the current one, and the one
that the running round has asked. -/
def teachers (loop : Loop C) : List Node :=
  loop.teacherNodes ++ loop.currentTeacherNode.toList ++ loop.phase.teacher?.toList

/-- A sensor that keeps nodes under their own addresses and has those of some teachers. -/
structure Knows (sensor : FleetSensor C) (teachers : List Node) : Prop where
  keyed : ∀ address node, sensor.currentState.nodes.get? address = some node →
    node.checksumAddress = address
  known : ∀ teacher ∈ teachers, teacher.checksumAddress ∈ sensor.currentState.addresses

/-- The invariant of the loop: the addresses of all teachers are in the current fleet state. -/
def TeachersKnown (loop : Loop C) : Prop := Knows loop.learner.knownNodes loop.teachers

/-- None of the teachers is marked for removal. -/
def NoTeacherMarked (loop : Loop C) : Prop :=
  ∀ teacher ∈ loop.teachers, teacher.checksumAddress ∉ loop.learner.knownNodes.nodesToRemove

/-- The operations of other code that record the fleet state. -/
def OpRecords (learner : Learner C) : Learner.Op → Prop
  | .rememberNode node force recordFleetState eager context =>
      recordFleetState = true ∧
        (learner.rememberNode fleetStateChecksum node force recordFleetState eager context).2 =
          .remembered node
  | .recordFleetState _ _ => True
  | .markAs _ => False

/-- The steps that record the fleet state. -/
def Records (loop : Loop C) : LoopAction → Prop
  | .other op => OpRecords fleetStateChecksum loop.learner op
  | .seed (.completes seeds stored) _ _ =>
      seeds ++ stored.filter (fun node => node.domain = loop.learner.knownNodes.domain) ≠ []
  | .record _ =>
      ∃ teacher updated announced, loop.phase = .learning teacher updated announced [] true
  | _ => False

/-- A step that does not record the fleet state while a teacher is marked for removal. -/
def Clean (loop : Loop C) (action : LoopAction) : Prop :=
  loop.Records fleetStateChecksum action → loop.NoTeacherMarked

/-- An address that is not to be removed stays in the fleet state. -/
theorem mem_addresses_of_not_removed {sensor : FleetSensor C} {skip : Bool}
    {context : RecordContext} {address : ChecksumAddress}
    (hknown : address ∈ sensor.currentState.addresses) (hkept : address ∉ sensor.nodesToRemove) :
    address ∈ (sensor.recordFleetState fleetStateChecksum skip context).currentState.addresses := by
  rw [FleetState.addresses, Dict.mem_keys_iff_exists] at hknown ⊢
  rw [FleetSensor.get?_recordFleetState, if_neg hkept]
  split
  · rename_i hupdate
    rcases hupdate with ⟨node, hmem, -, haddr⟩
    apply Dict.mem_keys_iff_exists.mp
    rw [FleetState.mem_keys_nodesToAddDict]
    exact ⟨node, by simpa using hmem, haddr⟩
  · exact hknown

theorem Knows.of_currentState {sensor sensor' : FleetSensor C} {teachers : List Node}
    (h : Knows sensor teachers) (hstate : sensor'.currentState = sensor.currentState) :
    Knows sensor' teachers := by
  constructor
  · rw [hstate]
    exact h.keyed
  · rw [hstate]
    exact h.known

theorem Knows.mono {sensor : FleetSensor C} {teachers teachers' : List Node}
    (h : Knows sensor teachers) (hsub : ∀ teacher ∈ teachers', teacher ∈ teachers ∨
      teacher ∈ sensor.currentState.nodes.values) : Knows sensor teachers' := by
  refine ⟨h.keyed, fun teacher hteacher => ?_⟩
  rcases hsub teacher hteacher with hold | hvalue
  · exact h.known teacher hold
  · rcases Dict.mem_values_iff_exists.mp hvalue with ⟨address, haddress⟩
    rw [FleetState.addresses, Dict.mem_keys_iff_exists, h.keyed address teacher haddress]
    exact ⟨teacher, haddress⟩

/-- Recording the fleet state keeps the teachers that are not marked. -/
theorem Knows.recordFleetState {sensor : FleetSensor C} {teachers : List Node}
    (h : Knows sensor teachers)
    (hmarked : ∀ teacher ∈ teachers, teacher.checksumAddress ∉ sensor.nodesToRemove)
    (skip : Bool) (context : RecordContext) :
    Knows (sensor.recordFleetState fleetStateChecksum skip context) teachers := by
  constructor
  · intro address node hnode
    rcases FleetSensor.get?_recordFleetState_some fleetStateChecksum hnode with hold | ⟨-, haddr⟩
    · exact h.keyed address node hold
    · exact haddr
  · intro teacher hteacher
    exact mem_addresses_of_not_removed fleetStateChecksum (h.known teacher hteacher)
      (hmarked teacher hteacher)

theorem recordNode_nodesToRemove (sensor : FleetSensor C) (node : Node) (context : RecordContext) :
    (sensor.recordNode fleetStateChecksum node context).nodesToRemove = sensor.nodesToRemove := by
  by_cases hdomain : node.domain = sensor.domain
  · rw [FleetSensor.recordNode_of_domain fleetStateChecksum context hdomain]
  · rw [FleetSensor.recordNode_of_foreign fleetStateChecksum context hdomain]

/-- Remembering without recording leaves the current state and the marks. -/
theorem rememberNode_quiet (learner : Learner C) (node : Node) (force eager : Bool)
    (context : RememberContext) :
    let after := (learner.rememberNode fleetStateChecksum node force false eager context).1
    after.knownNodes.currentState = learner.knownNodes.currentState ∧
      after.knownNodes.nodesToRemove = learner.knownNodes.nodesToRemove := by
  intro after
  rcases Learner.rememberNode_cases fleetStateChecksum learner node force false eager context with
    hsame | ⟨-, hrecorded | ⟨hflag, -⟩⟩
  · have hafter : after.knownNodes = learner.knownNodes := hsame
    rw [hafter]
    exact ⟨rfl, rfl⟩
  · have hafter : after.knownNodes = _ := hrecorded
    rw [hafter]
    exact ⟨Learner.recordNode_currentState fleetStateChecksum _ node _,
      recordNode_nodesToRemove fleetStateChecksum _ node _⟩
  · cases hflag

theorem rememberAll_quiet (learner : Learner C) (nodes : List Node) (context : RememberContext) :
    (rememberAll fleetStateChecksum learner nodes context).knownNodes.currentState =
        learner.knownNodes.currentState ∧
      (rememberAll fleetStateChecksum learner nodes context).knownNodes.nodesToRemove =
        learner.knownNodes.nodesToRemove := by
  induction nodes generalizing learner with
  | nil => exact ⟨rfl, rfl⟩
  | cons node rest ih =>
      rcases rememberNode_quiet fleetStateChecksum learner node false false context with
        ⟨hstate, hremove⟩
      rcases ih (learner.rememberNode fleetStateChecksum node false false false context).1 with
        ⟨hstate', hremove'⟩
      exact ⟨hstate'.trans hstate, hremove'.trans hremove⟩

/-- What other code does keeps the teachers known, unless it records the fleet state while one
of them is marked. -/
theorem Knows.step {learner : Learner C} {teachers : List Node}
    (h : Knows learner.knownNodes teachers) (op : Learner.Op)
    (hclean : OpRecords fleetStateChecksum learner op →
      ∀ teacher ∈ teachers, teacher.checksumAddress ∉ learner.knownNodes.nodesToRemove) :
    Knows (learner.step fleetStateChecksum op).knownNodes teachers := by
  cases op with
  | rememberNode node force recordFleetState eager context =>
      rcases Learner.rememberNode_cases fleetStateChecksum learner node force recordFleetState
        eager context with hsame | ⟨-, hrecorded | ⟨hflag, hresult, hflushed⟩⟩
      · simp only [Learner.step, hsame]
        exact h
      · simp only [Learner.step, hrecorded]
        exact h.of_currentState (Learner.recordNode_currentState fleetStateChecksum _ node _)
      · have hmarked := hclean ⟨hflag, hresult⟩
        simp only [Learner.step, hflushed]
        apply Knows.recordFleetState
        · exact h.of_currentState (Learner.recordNode_currentState fleetStateChecksum _ node _)
        · rw [recordNode_nodesToRemove]
          exact hmarked
  | recordFleetState skip context =>
      exact h.recordFleetState fleetStateChecksum (hclean trivial) skip context
  | markAs node => exact h.of_currentState (Learner.markAs_currentState learner.knownNodes node)

/-! ## Choosing a teacher -/

/-- What choosing the next teacher does. -/
structure Chosen (loop loop' : Loop C) : Prop where
  learner : loop'.learner = loop.learner
  phase : loop'.phase = loop.phase
  teachers : ∀ teacher ∈ loop'.teachers, teacher ∈ loop.teachers ∨
    teacher ∈ loop.learner.knownNodes.currentState.nodes.values

theorem popTeacherNode_chosen {loop loop' : Loop C} (h : loop.popTeacherNode = some loop') :
    Chosen loop loop' := by
  unfold popTeacherNode at h
  cases hlast : loop.teacherNodes.getLast? with
  | none => simp [hlast] at h
  | some teacher =>
      simp only [hlast, Option.some.injEq] at h
      subst h
      have hmem : teacher ∈ loop.teacherNodes := List.mem_of_getLast? hlast
      refine ⟨rfl, rfl, fun other hother => Or.inl ?_⟩
      simp only [teachers, List.mem_append, Option.mem_toList] at hother ⊢
      rcases hother with (hwaiting | hcurrent) | hround
      · exact Or.inl (Or.inl (List.mem_of_mem_dropLast hwaiting))
      · rw [Option.some.injEq] at hcurrent
        exact Or.inl (Or.inl (hcurrent ▸ hmem))
      · exact Or.inr hround

theorem cycleTeacherNode_chosen {loop loop' : Loop C} {shuffle : Reorder Node}
    (h : loop.cycleTeacherNode shuffle = some loop') : Chosen loop loop' := by
  unfold cycleTeacherNode at h
  split at h
  · rcases Option.bind_eq_some_iff.mp h with ⟨selected, hselected, hpop⟩
    have hchosen := popTeacherNode_chosen hpop
    unfold selectTeacherNodes at hselected
    split at hselected
    · cases hselected
    · cases hselected
      refine ⟨hchosen.learner, hchosen.phase, fun teacher hteacher => ?_⟩
      rcases hchosen.teachers teacher hteacher with hold | hvalue
      · simp only [teachers, List.mem_append] at hold ⊢
        rcases hold with ((hwaiting | hselected) | hcurrent) | hround
        · exact Or.inl (Or.inl (Or.inl hwaiting))
        · exact Or.inr (by simpa using hselected)
        · exact Or.inl (Or.inl (Or.inr hcurrent))
        · exact Or.inl (Or.inr hround)
      · exact Or.inr hvalue
  · exact popTeacherNode_chosen h

theorem Chosen.teachersKnown {loop loop' : Loop C} (hchosen : Chosen loop loop')
    (h : loop.TeachersKnown) : loop'.TeachersKnown := by
  rw [TeachersKnown, hchosen.learner]
  exact Knows.mono h hchosen.teachers

/-- A round that ends, or moves on with its teacher, keeps the teachers known. -/
theorem TeachersKnown.of_phase {loop : Loop C} (h : loop.TeachersKnown) {phase : Phase}
    (hphase : ∀ teacher ∈ phase.teacher?, teacher ∈ loop.teachers) :
    TeachersKnown { loop with phase } := by
  apply Knows.mono h
  intro teacher hteacher
  simp only [teachers, List.mem_append, Option.mem_toList] at hteacher hphase ⊢
  rcases hteacher with (hwaiting | hcurrent) | hround
  · exact Or.inl (Or.inl (Or.inl hwaiting))
  · exact Or.inl (Or.inl (Or.inr hcurrent))
  · exact Or.inl (hphase teacher hround)

/-! ## The invariant -/

theorem loadSeednodes_teachersKnown {loop : Loop C} (h : loop.TeachersKnown)
    (hidle : loop.phase = .idle) {seeding : Seeding} {remember : RememberContext}
    {context : RecordContext}
    (hclean : loop.Clean fleetStateChecksum (.seed seeding remember context)) :
    (loop.loadSeednodes fleetStateChecksum seeding remember context).TeachersKnown := by
  cases seeding with
  | failsAtSeeds seeds =>
      exact Knows.of_currentState h
        (rememberAll_quiet fleetStateChecksum loop.learner seeds remember).1
  | failsAtStorage seeds stored =>
      exact Knows.of_currentState h
        (rememberAll_quiet fleetStateChecksum loop.learner _ remember).1
  | completes seeds stored =>
      let discovered := seeds ++
        stored.filter (fun node => node.domain = loop.learner.knownNodes.domain)
      rcases rememberAll_quiet fleetStateChecksum loop.learner discovered remember with
        ⟨hstate, hremove⟩
      have hseeded : Phase.teacher? (.seeded (discovered ≠ [])) = loop.phase.teacher? := by
        rw [hidle]
        rfl
      have hknown : Knows (rememberAll fleetStateChecksum loop.learner discovered
          remember).knownNodes loop.teachers := Knows.of_currentState h hstate
      simp only [TeachersKnown, loadSeednodes, teachers]
      rw [hseeded]
      split
      · exact hknown
      · next hne =>
          apply hknown.recordFleetState
          rw [hremove]
          exact hclean hne

theorem currentTeacher_chosen {loop chosen : Loop C} {teacher : Node} {shuffle : Reorder Node}
    (h : loop.currentTeacher shuffle = some (chosen, teacher)) :
    Chosen loop chosen ∧ chosen.currentTeacherNode = some teacher := by
  unfold currentTeacher at h
  split at h
  · next hcurrent =>
      cases h
      exact ⟨⟨rfl, rfl, fun other hother => Or.inl hother⟩, hcurrent⟩
  · rcases Option.bind_eq_some_iff.mp h with ⟨cycled, hcycle, hteacher⟩
    rcases Option.map_eq_some_iff.mp hteacher with ⟨current, hcurrent, hpair⟩
    cases hpair
    exact ⟨cycleTeacherNode_chosen hcycle, hcurrent⟩

theorem ask_teachersKnown {loop : Loop C} (h : loop.TeachersKnown) (remembered cancelled : Bool)
    (shuffle : Reorder Node) : (loop.ask remembered cancelled shuffle).TeachersKnown := by
  have hcounted : TeachersKnown { loop with learningRound := loop.learningRound + 1 } := h
  have hstarted : TeachersKnown
      { loop with learningRound := loop.learningRound + 1, phase := .idle } :=
    hcounted.of_phase (fun teacher hteacher => by cases hteacher)
  unfold ask
  simp only
  split
  · exact hstarted
  · next chosen teacher hcurrent =>
      rcases currentTeacher_chosen hcurrent with ⟨hchosen, hteacher⟩
      have hknown := hchosen.teachersKnown hstarted
      split
      · exact hknown
      · apply hknown.of_phase
        intro other hother
        cases hother
        simp [teachers, hteacher]

/-- The {lit}`finally` clause keeps the teachers known, whether or not it raises. -/
theorem cycle_getD_teachersKnown {loop : Loop C} (h : loop.TeachersKnown)
    (shuffle : Reorder Node) : ((loop.cycleTeacherNode shuffle).getD loop).TeachersKnown := by
  cases hcycle : loop.cycleTeacherNode shuffle with
  | none => exact h
  | some cycled => exact (cycleTeacherNode_chosen hcycle).teachersKnown h

theorem handleReply_teachersKnown {loop : Loop C} (h : loop.TeachersKnown) {teacher : Node}
    {remembered : Bool} (hphase : loop.phase = .asking teacher remembered) (reply : TeacherReply)
    (shuffle : Reorder Node) :
    (loop.handleReply teacher remembered reply shuffle).TeachersKnown := by
  have hended : TeachersKnown { loop with phase := .idle } :=
    h.of_phase (fun other hother => by cases hother)
  cases reply with
  | nodeSeemsToBeDown => exact cycle_getD_teachersKnown hended shuffle
  | raised => exact cycle_getD_teachersKnown hended shuffle
  | invalidNode =>
      apply cycle_getD_teachersKnown
      exact Knows.of_currentState hended
        (Learner.markAs_currentState loop.learner.knownNodes teacher)
  | response statusCode payload =>
      -- the teacher that answered is still known when the next one has been chosen
      have hknown : ∀ cycled, cycleTeacherNode { loop with phase := .idle } shuffle = some cycled →
          ∀ phase : Phase, phase.teacher? = some teacher ∨ phase.teacher? = none →
            TeachersKnown { cycled with phase } := by
        intro cycled hcycle phase hteacher
        have hchosen := cycleTeacherNode_chosen hcycle
        have hcycled := hchosen.teachersKnown hended
        have hasked : teacher.checksumAddress ∈
            cycled.learner.knownNodes.currentState.addresses := by
          rw [hchosen.learner]
          exact h.known teacher (by simp [teachers, hphase, Phase.teacher?])
        refine ⟨hcycled.keyed, fun other hother => ?_⟩
        simp only [teachers, List.mem_append, Option.mem_toList] at hother
        rcases hother with (hwaiting | hcurrent) | hround
        · exact hcycled.known other (by simp [teachers, hwaiting])
        · exact hcycled.known other (by simp [teachers, hcurrent])
        · rcases hteacher with hsame | hnone
          · rw [hsame, Option.some.injEq] at hround
            exact hround ▸ hasked
          · rw [hnone] at hround
            cases hround
      unfold handleReply
      simp only
      cases hcycle : cycleTeacherNode { loop with phase := .idle } shuffle with
      | none => exact hended
      | some cycled =>
          have hcycled := (cycleTeacherNode_chosen hcycle).teachersKnown hended
          simp only
          split
          · exact hcycled
          · split
            · exact hcycled
            · split
              · exact hcycled
              · exact hknown cycled hcycle _ (Or.inl rfl)
              · exact hknown cycled hcycle _ (Or.inl rfl)

/-- Remembering an announced sprout leaves the current state alone. -/
theorem learnSprout_teachersKnown {loop : Loop C} (h : loop.TeachersKnown) {teacher : Node}
    {updated announced : Nat} {sprout : Node} {sprouts : List Node} {remembered : Bool}
    (hphase : loop.phase = .learning teacher updated announced (sprout :: sprouts) remembered)
    (eager caught : Bool) (context : RememberContext) :
    (loop.learnSprout fleetStateChecksum teacher updated announced sprout sprouts remembered
      eager caught context).TeachersKnown := by
  have hquiet := (rememberNode_quiet fleetStateChecksum loop.learner sprout false eager
    context).1
  have hlearned : TeachersKnown { loop with learner :=
      (loop.learner.rememberNode fleetStateChecksum sprout false false eager context).1 } :=
    Knows.of_currentState h hquiet
  have hgoOn : ∀ phase : Phase, phase.teacher? = some teacher ∨ phase.teacher? = none →
      TeachersKnown { loop with
        learner := (loop.learner.rememberNode fleetStateChecksum sprout false false eager
          context).1
        phase := phase } := by
    intro phase hteacher
    apply hlearned.of_phase
    intro other hother
    rcases hteacher with hsame | hnone
    · rw [hsame] at hother
      cases hother
      simp [teachers, hphase, Phase.teacher?]
    · rw [hnone] at hother
      cases hother
  unfold learnSprout
  simp only
  split
  · exact hgoOn _ (Or.inl rfl)
  · exact hgoOn _ (Or.inl rfl)
  · cases caught with
    | true => exact hgoOn _ (Or.inl rfl)
    | false => exact hgoOn _ (Or.inr rfl)

/-- Recording the fleet state keeps the teachers known unless one of them is marked. -/
theorem recordRemembered_teachersKnown {loop : Loop C} (h : loop.TeachersKnown) {teacher : Node}
    {updated announced : Nat} {remembered : Bool}
    (hphase : loop.phase = .learning teacher updated announced [] remembered)
    (context : RecordContext) (hclean : loop.Clean fleetStateChecksum (.record context)) :
    (loop.recordRemembered fleetStateChecksum teacher updated announced remembered
      context).TeachersKnown := by
  have hteachers : (loop.recordRemembered fleetStateChecksum teacher updated announced
      remembered context).teachers = loop.teachers := by
    simp [teachers, recordRemembered, hphase, Phase.teacher?]
  rw [TeachersKnown, hteachers]
  cases remembered with
  | false => exact h
  | true =>
      exact h.recordFleetState fleetStateChecksum (hclean ⟨teacher, updated, announced, hphase⟩)
        false context

/-- Attributing a fleet state to a teacher leaves the nodes of the current state alone. -/
theorem recordRemote_currentState {loop : Loop C} {teacher : Node} {updated : Nat}
    {announced : Option Nat} {now : Nat} {knownNodes : FleetSensor C}
    (h : loop.recordRemote fleetStateChecksum teacher updated announced now = some knownNodes) :
    knownNodes.currentState = loop.learner.knownNodes.currentState := by
  unfold recordRemote FleetSensor.recordRemoteFleetState at h
  simp only at h
  split at h
  · cases h
    rfl
  · cases h

/-- Every clean step keeps the teachers known. -/
theorem step_teachersKnown {loop loop' : Loop C} (h : loop.TeachersKnown) {action : LoopAction}
    (hclean : loop.Clean fleetStateChecksum action)
    (hstep : loop.step fleetStateChecksum action = some loop') : loop'.TeachersKnown := by
  cases action with
  | other op =>
      cases hstep
      exact Knows.step fleetStateChecksum h op hclean
  | seed seeding remember context =>
      simp only [step] at hstep
      split at hstep
      · next hidle =>
          split at hstep
          · cases hstep
          · cases hstep
            exact loadSeednodes_teachersKnown fleetStateChecksum h hidle hclean
      · cases hstep
  | ask cancelled shuffle =>
      simp only [step] at hstep
      split at hstep
      · split at hstep
        · cases hstep
          exact ask_teachersKnown h false cancelled shuffle
        · cases hstep
      · cases hstep
        exact ask_teachersKnown h _ cancelled shuffle
      · cases hstep
  | reply reply shuffle =>
      simp only [step] at hstep
      split at hstep
      · next hphase =>
          cases hstep
          exact handleReply_teachersKnown h hphase reply shuffle
      · cases hstep
  | sprout eager caught context =>
      simp only [step] at hstep
      split at hstep
      · next teacher updated announced sprout sprouts remembered hphase =>
          cases hstep
          exact learnSprout_teachersKnown fleetStateChecksum h hphase eager caught context
      · cases hstep
  | record context =>
      simp only [step] at hstep
      split at hstep
      · next teacher updated announced remembered hphase =>
          cases hstep
          exact recordRemembered_teachersKnown fleetStateChecksum h hphase context hclean
      · cases hstep
  | report now =>
      simp only [step] at hstep
      split at hstep
      · next teacher updated announced hphase =>
          have hended : TeachersKnown { loop with phase := .idle } :=
            h.of_phase (fun other hother => by cases hother)
          split at hstep
          · next knownNodes hreport =>
              cases hstep
              exact Knows.of_currentState hended (recordRemote_currentState _ hreport)
          · cases hstep
            exact hended
      · cases hstep

/-! ## Runs -/

/-- The loop of a learner that has not remembered anything yet. -/
def new (stamp : Option Bytes) (saveMetadata verifyNodeBonding hasRegistry : Bool)
    (domain : String) (includeSelfInTheState : Bool) (now : Nat) : Loop C where
  learner := Learner.new fleetStateChecksum stamp saveMetadata verifyNodeBonding hasRegistry domain
    includeSelfInTheState now

/-- The states that clean steps reach from a given one. -/
inductive CleanRun (initial : Loop C) : Loop C → Prop where
  | start : CleanRun initial initial
  | step {loop loop' : Loop C} (h : CleanRun initial loop) (action : LoopAction)
      (hclean : loop.Clean fleetStateChecksum action)
      (hstep : loop.step fleetStateChecksum action = some loop') : CleanRun initial loop'

theorem new_teachersKnown (stamp : Option Bytes)
    (saveMetadata verifyNodeBonding hasRegistry : Bool) (domain : String) (includeSelf : Bool)
    (now : Nat) :
    (new fleetStateChecksum stamp saveMetadata verifyNodeBonding hasRegistry domain includeSelf
      now).TeachersKnown := by
  constructor
  · intro address node hnode
    cases hnode
  · intro teacher hteacher
    cases hteacher

theorem CleanRun.teachersKnown {initial loop : Loop C} (h : CleanRun fleetStateChecksum initial loop)
    (hinitial : initial.TeachersKnown) : loop.TeachersKnown := by
  induction h with
  | start => exact hinitial
  | step _ action hclean hstep ih => exact step_teachersKnown fleetStateChecksum ih hclean hstep

/-- In a state that is about to attribute a fleet state to a teacher, the address of the teacher
is in the current fleet state and the call does not raise {lit}`KeyError`. -/
def NeverLosesTeacher (loop : Loop C) : Prop :=
  ∀ teacher updated announced, loop.phase = .reporting teacher updated announced →
    teacher.checksumAddress ∈ loop.learner.knownNodes.currentState.addresses ∧
      ∀ now, loop.recordRemote fleetStateChecksum teacher updated announced now ≠ none

theorem TeachersKnown.neverLosesTeacher {loop : Loop C} (h : loop.TeachersKnown) :
    loop.NeverLosesTeacher fleetStateChecksum := by
  intro teacher updated announced hphase
  have hknown := h.known teacher (by simp [teachers, hphase, Phase.teacher?])
  refine ⟨hknown, fun now => ?_⟩
  have hcontains := Dict.mem_keys_iff_contains.mp hknown
  simp [recordRemote, FleetSensor.recordRemoteFleetState, hcontains]

/-- In every run from a new learner in which the fleet state is never recorded while a teacher
is marked for removal, the loop never loses its teacher. -/
theorem CleanRun.teacher_known (stamp : Option Bytes)
    (saveMetadata verifyNodeBonding hasRegistry : Bool) (domain : String) (includeSelf : Bool)
    (now : Nat) {loop : Loop C}
    (h : CleanRun fleetStateChecksum (new fleetStateChecksum stamp saveMetadata verifyNodeBonding
      hasRegistry domain includeSelf now) loop) :
    loop.NeverLosesTeacher fleetStateChecksum :=
  (h.teachersKnown fleetStateChecksum (new_teachersKnown fleetStateChecksum stamp saveMetadata
    verifyNodeBonding hasRegistry domain includeSelf now)).neverLosesTeacher fleetStateChecksum

/-! ## A lost teacher -/

/-- A step taken while no node at all is marked for removal. -/
def unmarkedStep (loop : Loop C) (action : LoopAction) : Option (Loop C) :=
  if loop.learner.knownNodes.nodesToRemove = [] then loop.step fleetStateChecksum action else none

theorem CleanRun.of_unmarked {initial loop loop' : Loop C} {actions : List LoopAction}
    (h : CleanRun fleetStateChecksum initial loop)
    (hrun : Execution.run (unmarkedStep fleetStateChecksum) loop actions = some loop') :
    CleanRun fleetStateChecksum initial loop' := by
  induction actions generalizing loop with
  | nil =>
      cases hrun
      exact h
  | cons action actions ih =>
      rw [Execution.run, List.foldlM_cons] at hrun
      rcases Option.bind_eq_some_iff.mp hrun with ⟨next, hnext, hrest⟩
      unfold unmarkedStep at hnext
      split at hnext
      · next hunmarked =>
          have hclean : loop.Clean fleetStateChecksum action := by
            intro _ teacher _
            rw [hunmarked]
            exact List.not_mem_nil
          exact ih (h.step action hclean hnext) hrest
      · cases hnext

end Loop

/-- A teacher of the main network and a node that it announces. -/
def oldTeacher : Node :=
  nodeSprout (sampleMetadata "0x1000000000000000000000000000000000000001" [1] 10)

def newcomer : Node :=
  nodeSprout (sampleMetadata "0x2000000000000000000000000000000000000002" [2] 20)

/-- The loop of a learner of the main network. -/
def freshLoop : Loop (Option NodeMetadata × List NodeMetadata) :=
  Loop.new FleetSensor.plainChecksum none false true true "mainnet" false 0

/-- The learner remembers the teacher, and the first round begins. -/
def openingActions : List LoopAction :=
  [.other (.rememberNode oldTeacher false true false Learner.plainRememberContext),
    .seed (.completes [] []) Learner.plainRememberContext FleetSensor.plainContext,
    .ask false Reorder.identity]

/-- The teacher answers with the newcomer, which is remembered and recorded. -/
def answerActions : List LoopAction :=
  [.reply (.response 200 (some (30, [newcomer.metadata]))) Reorder.identity,
    .sprout false false Learner.plainRememberContext, .record FleetSensor.plainContext]

/-- The teacher is invalid in the first round and answers in the second one. -/
def lostTeacherActions : List LoopAction :=
  openingActions ++
    [.reply .invalidNode Reorder.identity, .ask false Reorder.identity] ++ answerActions

theorem teacher_known_openingActions :
    ∃ loop, Loop.CleanRun FleetSensor.plainChecksum freshLoop loop ∧
      loop.phase = .reporting oldTeacher 30 (some 1) ∧
      loop.NeverLosesTeacher FleetSensor.plainChecksum := by
  have hphase : (Execution.run (Loop.unmarkedStep FleetSensor.plainChecksum) freshLoop
      (openingActions ++ answerActions)).map Loop.phase =
        some (.reporting oldTeacher 30 (some 1)) := by
    decide
  rcases Option.map_eq_some_iff.mp hphase with ⟨loop, hrun, hreporting⟩
  have hclean : Loop.CleanRun FleetSensor.plainChecksum freshLoop loop :=
    Loop.CleanRun.start.of_unmarked FleetSensor.plainChecksum hrun
  exact ⟨loop, hclean, hreporting,
    Loop.CleanRun.teacher_known FleetSensor.plainChecksum none false true true "mainnet" false 0
      hclean⟩

/-- The marked teacher is chosen again; when it announces a new node, recording the fleet state
removes the teacher just before a fleet state is attributed to it. -/
theorem teacher_lost :
    ∃ loop, Execution.run (Loop.step FleetSensor.plainChecksum) freshLoop lostTeacherActions =
        some loop ∧
      loop.phase = .reporting oldTeacher 30 (some 1) ∧
      oldTeacher.checksumAddress ∉ loop.learner.knownNodes.currentState.addresses ∧
      loop.recordRemote FleetSensor.plainChecksum oldTeacher 30 (some 1) 100 = none ∧
      ¬ loop.NeverLosesTeacher FleetSensor.plainChecksum := by
  have hend : (Execution.run (Loop.step FleetSensor.plainChecksum) freshLoop
      lostTeacherActions).map (fun loop =>
        (loop.phase, loop.learner.knownNodes.currentState.addresses)) =
      some (.reporting oldTeacher 30 (some 1), [newcomer.checksumAddress]) := by
    decide
  rcases Option.map_eq_some_iff.mp hend with ⟨loop, hrun, hpair⟩
  rcases Prod.mk.inj hpair with ⟨hphase, haddresses⟩
  have hlost : oldTeacher.checksumAddress ∉ loop.learner.knownNodes.currentState.addresses := by
    rw [haddresses]
    decide
  have hcontains : loop.learner.knownNodes.currentState.nodes.contains
      oldTeacher.checksumAddress = false := by
    apply Bool.eq_false_iff.mpr
    exact fun h => hlost (Dict.mem_keys_iff_contains.mpr h)
  refine ⟨loop, hrun, hphase, hlost, ?_, ?_⟩
  · simp [Loop.recordRemote, FleetSensor.recordRemoteFleetState, hcontains]
  · intro hnever
    exact hlost (hnever oldTeacher 30 (some 1) hphase).1

end NuLink
