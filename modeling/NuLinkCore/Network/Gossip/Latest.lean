import NuLinkCore.Acumen.SensorRuns
import NuLinkCore.Network.Gossip.Directory

/-!
# The latest representation of a node

When an address goes with one key and nothing as recent as the news is about, a learner
that has the news in its fleet keeps it, one that has accumulated it records it with the
next fleet state unless an older representation is remembered in between, and one that
is told of it accumulates it.

Main results:

- Theorem {lit}`Learner.run_holds`: the news stays in the fleet.
- Theorem {lit}`Learner.run_pending`: accumulated news stays accumulated until it is in the
  fleet.
- Theorem {lit}`Learner.rememberNode_news`: what becomes of news that is remembered.
-/

namespace NuLink

open Collections Replication

/-- The nodes that may be about while the news is the latest of its address: keys go with
addresses, and at the address there is otherwise only what is older. -/
def Node.upTo (news : Node) : Set Node :=
  {node | (node.stamp = news.stamp ↔ node.checksumAddress = news.checksumAddress) ∧
    (node.checksumAddress = news.checksumAddress → node = news ∨ node.timestamp < news.timestamp)}

/-- A node is its metadata. -/
theorem Node.eq_of_metadata {node news : Node} (h : node.metadata = news.metadata) :
    node = news := by
  cases node
  cases news
  exact congrArg Node.mk h

/-- Every address but that of the news. -/
def Node.others (news : Node) : Set ChecksumAddress := {address | address ≠ news.checksumAddress}

theorem Node.eq_of_upTo {news node : Node} (h : node ∈ news.upTo)
    (haddress : node.checksumAddress = news.checksumAddress)
    (hrecent : news.timestamp ≤ node.timestamp) : node = news := by
  rcases h.2 haddress with heq | hlt
  · exact heq
  · omega

namespace Learner

variable {C : Type} (fleetStateChecksum : Option NodeMetadata → List NodeMetadata → C)

/-- A learner that reports its own metadata, has the stamp of it, and has no record of itself. -/
structure Proper (own : Option NodeMetadata) (learner : Learner C) : Prop where
  keyed : learner.knownNodes.WellKeyed
  reports : ∀ metadata, learner.knownNodes.currentState.thisNodeMetadata = some metadata →
    own = some metadata
  stamp : ∀ metadata, own = some metadata → learner.stamp = some metadata.payload.verifyingKey
  notKnown : ∀ address node, learner.known? address = some node → learner.stamp ≠ some node.stamp
  notPending : ∀ node ∈ learner.knownNodes.nodesToAdd.elems, learner.stamp ≠ some node.stamp

/-- Where an operation records the fleet state, the owner reports its own metadata. -/
def Reports (own : Option NodeMetadata) (learner : Learner C) (op : Op) : Prop :=
  ∀ context, op.context? = some context → learner.knownNodes.currentState.hasThisNode = true →
    own = some context.thisNode

/-- The news is in the fleet of the learner. -/
def Holds (learner : Learner C) (news : Node) : Prop :=
  news.metadata ∈ learner.knownNodes.currentState.fleet

variable {own : Option NodeMetadata} {news : Node}

theorem holds_of_known {learner : Learner C}
    (h : learner.known? news.checksumAddress = some news) : learner.Holds news :=
  FleetState.mem_fleet.mpr (Or.inr ⟨_, news, h, rfl⟩)

/-- What is in the fleet is the learner itself or known. -/
theorem Proper.holds_iff {learner : Learner C} (h : learner.Proper own) :
    learner.Holds news ↔
      learner.knownNodes.currentState.thisNodeMetadata = some news.metadata ∨
        learner.known? news.checksumAddress = some news := by
  rw [Holds, FleetState.mem_fleet]
  constructor
  · rintro (hown | ⟨address, node, hnode, hmetadata⟩)
    · exact Or.inl hown
    · have heq := Node.eq_of_metadata hmetadata
      subst heq
      rw [h.keyed.address_eq address node hnode]
      exact Or.inr hnode
  · rintro (hown | hknown)
    · exact Or.inl hown
    · exact Or.inr ⟨_, news, hknown, rfl⟩

/-- A learner other than the subject of the news knows it when it has it in the fleet. -/
theorem Proper.known_of_holds {learner : Learner C} (h : learner.Proper own)
    (hother : learner.stamp ≠ some news.stamp) (hholds : learner.Holds news) :
    learner.known? news.checksumAddress = some news := by
  rcases h.holds_iff.mp hholds with hown | hknown
  · exact absurd (h.stamp _ (h.reports _ hown)) hother
  · exact hknown

/-! ## One operation -/

theorem step_stamp (learner : Learner C) (op : Op) :
    (learner.step fleetStateChecksum op).stamp = learner.stamp := by
  cases op with
  | rememberNode node force recordFleetState eager context =>
      exact rememberNode_stamp fleetStateChecksum learner node force recordFleetState eager context
  | recordFleetState skip context => rfl
  | markAs node => rfl

theorem markAs_domain (sensor : FleetSensor C) (node : Node) :
    (sensor.markAs node).domain = sensor.domain := by
  unfold FleetSensor.markAs
  split <;> rfl

theorem Accumulates.domain
    {fleetStateChecksum : Option NodeMetadata → List NodeMetadata → C} {learner : Learner C}
    {op : Op} {sensor : FleetSensor C} (h : Accumulates fleetStateChecksum learner op sensor) :
    sensor.domain = learner.knownNodes.domain := by
  cases h with
  | nothing => rfl
  | node node context =>
      unfold FleetSensor.recordNode
      split <;> rfl

theorem step_domain (learner : Learner C) (op : Op) :
    (learner.step fleetStateChecksum op).knownNodes.domain = learner.knownNodes.domain := by
  rcases step_cases fleetStateChecksum learner op with
    ⟨node, rfl⟩ | ⟨sensor, haccumulates, hsensor | ⟨skip, context, -, hflushed⟩⟩
  · exact markAs_domain learner.knownNodes node
  · rw [hsensor, haccumulates.domain]
  · rw [hflushed, FleetSensor.recordFleetState_domain, haccumulates.domain]

/-- Operations that leave the recorded state and the accumulated nodes alone. -/
theorem Proper.congr {learner learner' : Learner C} (h : learner.Proper own)
    (hstamp : learner'.stamp = learner.stamp)
    (hdomain : learner'.knownNodes.domain = learner.knownNodes.domain)
    (hstate : learner'.knownNodes.currentState = learner.knownNodes.currentState)
    (hadd : learner'.knownNodes.nodesToAdd = learner.knownNodes.nodesToAdd) :
    learner'.Proper own where
  keyed := h.keyed.congr hstate hdomain hadd
  reports := by
    rw [hstate]
    exact h.reports
  stamp := by
    rw [hstamp]
    exact h.stamp
  notKnown := by
    intro address node hnode
    rw [known?, hstate] at hnode
    rw [hstamp]
    exact h.notKnown address node hnode
  notPending := by
    rw [hadd, hstamp]
    exact h.notPending

section Accumulates

variable {fleetStateChecksum : Option NodeMetadata → List NodeMetadata → C}
  {learner learner' : Learner C} {op : Op} {sensor : FleetSensor C}

theorem Accumulates.wellKeyed (h : Accumulates fleetStateChecksum learner op sensor)
    (hkeyed : learner.knownNodes.WellKeyed) : sensor.WellKeyed := by
  cases h with
  | nothing => exact hkeyed
  | node node context =>
      exact FleetSensor.recordNode_wellKeyed fleetStateChecksum hkeyed node context

theorem Accumulates.notPending (h : Accumulates fleetStateChecksum learner op sensor)
    (hproper : learner.Proper own) :
    ∀ node ∈ sensor.nodesToAdd.elems, learner.stamp ≠ some node.stamp := by
  intro node hnode
  rcases h.pending node hnode with hold | ⟨-, hadmits⟩
  · exact hproper.notPending node hold
  · exact hadmits.1

/-- What accumulating makes of a proper learner. -/
theorem Accumulates.proper (h : Accumulates fleetStateChecksum learner op sensor)
    (hproper : learner.Proper own) (hstamp : learner'.stamp = learner.stamp)
    (hlearner' : learner'.knownNodes = sensor) : learner'.Proper own where
  keyed := by
    rw [hlearner']
    exact h.wellKeyed hproper.keyed
  reports := by
    rw [hlearner', h.currentState]
    exact hproper.reports
  stamp := by
    rw [hstamp]
    exact hproper.stamp
  notKnown := by
    intro address node hnode
    rw [known?, hlearner', h.currentState] at hnode
    rw [hstamp]
    exact hproper.notKnown address node hnode
  notPending := by
    rw [hlearner', hstamp]
    exact h.notPending hproper

/-- What recording the fleet state makes of a proper learner. -/
theorem Accumulates.recorded_proper (h : Accumulates fleetStateChecksum learner op sensor)
    (hproper : learner.Proper own) {skip : Bool} {context : RecordContext}
    (hreports : learner.knownNodes.currentState.hasThisNode = true → own = some context.thisNode)
    (hstamp : learner'.stamp = learner.stamp)
    (hlearner' : learner'.knownNodes = sensor.recordFleetState fleetStateChecksum skip context) :
    learner'.Proper own where
  keyed := by
    rw [hlearner']
    exact FleetSensor.recordFleetState_wellKeyed fleetStateChecksum (h.wellKeyed hproper.keyed)
      skip context
  reports := by
    intro metadata hmetadata
    rw [hlearner', FleetSensor.recordFleetState_thisNodeMetadata, h.currentState] at hmetadata
    split at hmetadata
    · next hown =>
        rw [← hmetadata]
        exact hreports (Bool.and_eq_true_iff.mp hown).1
    · exact hproper.reports metadata hmetadata
  stamp := by
    rw [hstamp]
    exact hproper.stamp
  notKnown := by
    intro address node hnode
    rw [known?, hlearner'] at hnode
    rw [hstamp]
    rcases FleetSensor.get?_recordFleetState_some fleetStateChecksum hnode with hold | ⟨hmem, -⟩
    · rw [h.currentState] at hold
      exact hproper.notKnown address node hold
    · exact h.notPending hproper node hmem
  notPending := by
    rw [hlearner', FleetSensor.recordFleetState_nodesToAdd]
    simp

end Accumulates

/-- One operation keeps a learner proper. -/
theorem step_proper {learner : Learner C} (h : learner.Proper own) {op : Op}
    (hreports : Reports own learner op) : (learner.step fleetStateChecksum op).Proper own := by
  have hstamp := step_stamp fleetStateChecksum learner op
  rcases step_cases fleetStateChecksum learner op with
    ⟨node, rfl⟩ | ⟨sensor, haccumulates, hsensor | ⟨skip, context, hcontext, hflushed⟩⟩
  · exact h.congr hstamp (markAs_domain learner.knownNodes node)
      (markAs_currentState learner.knownNodes node) (markAs_nodesToAdd learner.knownNodes node)
  · exact haccumulates.proper h hstamp hsensor
  · exact haccumulates.recorded_proper h (hreports context hcontext) hstamp hflushed

/-- The owner's metadata in the fleet state is left or replaced by what the owner reports. -/
theorem step_thisNode (learner : Learner C) (op : Op) :
    let before := learner.knownNodes.currentState
    let after := (learner.step fleetStateChecksum op).knownNodes.currentState
    after.hasThisNode = before.hasThisNode ∧
      (after.thisNodeMetadata = before.thisNodeMetadata ∨
        ∃ context, op.context? = some context ∧ before.hasThisNode = true ∧
          after.thisNodeMetadata = some context.thisNode) := by
  intro before after
  rcases step_cases fleetStateChecksum learner op with
    ⟨node, rfl⟩ | ⟨sensor, haccumulates, hsensor | ⟨skip, context, hcontext, hflushed⟩⟩
  · have hafter : after = before := markAs_currentState learner.knownNodes node
    rw [hafter]
    exact ⟨rfl, Or.inl rfl⟩
  · have hafter : after = before :=
      (congrArg FleetSensor.currentState hsensor).trans haccumulates.currentState
    rw [hafter]
    exact ⟨rfl, Or.inl rfl⟩
  · have hself : after.hasThisNode = before.hasThisNode := by
      have hrecorded := congrArg (fun sensor => sensor.currentState.hasThisNode) hflushed
      have hsensor : sensor.currentState.hasThisNode = before.hasThisNode :=
        congrArg FleetState.hasThisNode haccumulates.currentState
      exact hrecorded.trans hsensor
    have hthis : after.thisNodeMetadata =
        if before.hasThisNode && !skip then some context.thisNode else before.thisNodeMetadata := by
      have hrecorded := congrArg (fun sensor => sensor.currentState.thisNodeMetadata) hflushed
      simp only [FleetSensor.recordFleetState_thisNodeMetadata, haccumulates.currentState]
        at hrecorded
      exact hrecorded
    refine ⟨hself, ?_⟩
    rw [hthis]
    split
    · next hown => exact Or.inr ⟨context, hcontext, (Bool.and_eq_true_iff.mp hown).1, rfl⟩
    · exact Or.inl rfl

/-- One operation keeps the news in the fleet. -/
theorem step_holds {learner : Learner C} {op : Op}
    (haccounted : Accounted news.upTo news.others learner) (hproper : learner.Proper own)
    (hop : op.Within news.upTo news.others) (hreports : Reports own learner op)
    (hholds : learner.Holds news) : (learner.step fleetStateChecksum op).Holds news := by
  have hproper' := step_proper fleetStateChecksum hproper hreports
  rcases hproper.holds_iff.mp hholds with hown | hknown
  · refine hproper'.holds_iff.mpr (Or.inl ?_)
    rcases (step_thisNode fleetStateChecksum learner op).2 with hsame | ⟨context, hcontext, hself,
      hnew⟩
    · exact hsame.trans hown
    · rw [hnew, ← hreports context hcontext hself, hproper.reports _ hown]
  · refine holds_of_known ?_
    refine (step_accounted fleetStateChecksum haccounted hop).2.eq_some_of_newest
      (fun hmem => hmem rfl) hknown ?_
    intro node hnode hnew hlt
    have heq := Node.eq_of_upTo hnode (hproper'.keyed.address_eq _ node hnew) (Nat.le_of_lt hlt)
    rw [heq] at hlt
    exact lt_irrefl _ hlt

/-- Accumulated news is in the fleet once the fleet state is recorded. -/
theorem recordFleetState_news {sensor : FleetSensor C}
    (hpending : ∀ node ∈ sensor.nodesToAdd.elems, node ∈ news.upTo)
    (hmarked : ∀ address ∈ sensor.nodesToRemove, address ∈ news.others)
    (hmem : news ∈ sensor.nodesToAdd.elems) (skip : Bool) (context : RecordContext) :
    (sensor.recordFleetState fleetStateChecksum skip context).currentState.nodes.get?
      news.checksumAddress = some news := by
  have hunmarked : news.checksumAddress ∉ sensor.nodesToRemove :=
    fun haddress => hmarked _ haddress rfl
  rw [FleetSensor.get?_recordFleetState, if_neg hunmarked]
  split
  · -- Of the accumulated nodes only the news has its address.
    have hkey : news.checksumAddress ∈ (FleetState.nodesToAddDict
        (context.order.apply sensor.nodesToAdd.elems)).keys :=
      FleetState.mem_keys_nodesToAddDict.mpr ⟨news, by simpa using hmem, rfl⟩
    rcases Dict.mem_keys_iff_exists.mp hkey with ⟨node, hnode⟩
    rcases FleetState.get?_nodesToAddDict_some hnode with ⟨hnodeMem, haddress⟩
    have hnodeMem' : node ∈ sensor.nodesToAdd.elems := by simpa using hnodeMem
    rw [hnode, sensor.nodesToAdd.eq_of_key_eq hnodeMem' hmem
      ((hpending node hnodeMem').1.mpr haddress)]
  · next hnone =>
      -- News that is no update is recorded already.
      have hnot : ¬ sensor.currentState.isUpdate sensor.nodesToRemove news = true :=
        fun hupdate => hnone ⟨news, hmem, hupdate, rfl⟩
      rw [FleetState.isUpdate, if_neg hunmarked] at hnot
      cases hknown : sensor.currentState.nodes.get? news.checksumAddress with
      | none => simp [hknown] at hnot
      | some known =>
          rw [hknown] at hnot
          have hmetadata : known.metadata = news.metadata := by simpa using hnot
          rw [Node.eq_of_metadata hmetadata]

/-- An operation that records the fleet state brings accumulated news into the fleet. -/
theorem Accumulates.recorded_news
    {fleetStateChecksum : Option NodeMetadata → List NodeMetadata → C}
    {learner learner' : Learner C} {op : Op} {sensor : FleetSensor C}
    (h : Accumulates fleetStateChecksum learner op sensor)
    (haccounted : Accounted news.upTo news.others learner)
    (hop : op.Within news.upTo news.others) (hmem : news ∈ sensor.nodesToAdd.elems)
    {skip : Bool} {context : RecordContext}
    (hlearner' : learner'.knownNodes = sensor.recordFleetState fleetStateChecksum skip context) :
    learner'.Holds news := by
  apply holds_of_known
  rw [known?, hlearner']
  refine recordFleetState_news fleetStateChecksum ?_ ?_ hmem skip context
  · intro other hother
    rcases h.pending other hother with hold | ⟨hremembered, -⟩
    · exact haccounted.pending other hold
    · exact hop.1 other hremembered
  · rw [h.nodesToRemove]
    exact haccounted.marked

/-- Accumulated news stays accumulated until it is in the fleet, when nothing older of its address
is remembered. -/
theorem step_pending {learner : Learner C} {op : Op}
    (haccounted : Accounted news.upTo news.others learner)
    (hop : op.Within news.upTo news.others)
    (hundisturbed : ∀ node, op.remembered? = some node →
      node.checksumAddress = news.checksumAddress → node = news)
    (hmem : news ∈ learner.knownNodes.nodesToAdd.elems) :
    news ∈ (learner.step fleetStateChecksum op).knownNodes.nodesToAdd.elems ∨
      (learner.step fleetStateChecksum op).Holds news := by
  rcases step_cases fleetStateChecksum learner op with
    ⟨node, rfl⟩ | ⟨sensor, haccumulates, hsensor | ⟨skip, context, -, hflushed⟩⟩
  · left
    simp only [step, markAs_nodesToAdd]
    exact hmem
  all_goals
    have hkeep : news ∈ sensor.nodesToAdd.elems := by
      cases haccumulates with
      | nothing => exact hmem
      | node node context hremembered hadmits =>
          by_cases hdomain : node.domain = learner.knownNodes.domain
          · rw [FleetSensor.recordNode_of_domain fleetStateChecksum context hdomain]
            apply KeyedSet.mem_replace.mpr
            by_cases hstamp : news.stamp = node.stamp
            · have haddress := (hop.1 node hremembered).1.mp hstamp.symm
              exact Or.inl (hundisturbed node hremembered haddress).symm
            · exact Or.inr ⟨hmem, hstamp⟩
          · rw [FleetSensor.recordNode_of_foreign fleetStateChecksum context hdomain]
            exact hmem
  · left
    rw [hsensor]
    exact hkeep
  · exact Or.inr (haccumulates.recorded_news haccounted hop hkeep hflushed)

/-! ## Runs -/

theorem run_stamp (learner : Learner C) (ops : List Op) :
    (learner.run fleetStateChecksum ops).stamp = learner.stamp := by
  induction ops generalizing learner with
  | nil => rfl
  | cons op ops ih => exact (ih _).trans (step_stamp fleetStateChecksum learner op)

theorem run_domain (learner : Learner C) (ops : List Op) :
    (learner.run fleetStateChecksum ops).knownNodes.domain = learner.knownNodes.domain := by
  induction ops generalizing learner with
  | nil => rfl
  | cons op ops ih => exact (ih _).trans (step_domain fleetStateChecksum learner op)

theorem Reports.congr {learner learner' : Learner C} {op : Op} (h : Reports own learner op)
    (hself : learner'.knownNodes.currentState.hasThisNode =
      learner.knownNodes.currentState.hasThisNode) : Reports own learner' op := by
  intro context hcontext hown
  exact h context hcontext (hself ▸ hown)

/-- A run keeps a learner proper. -/
theorem run_proper {learner : Learner C} (h : learner.Proper own) {ops : List Op}
    (hreports : ∀ op ∈ ops, Reports own learner op) :
    (learner.run fleetStateChecksum ops).Proper own := by
  induction ops generalizing learner with
  | nil => exact h
  | cons op ops ih =>
      refine ih (step_proper fleetStateChecksum h (hreports op List.mem_cons_self)) ?_
      intro other hmem
      exact (hreports other (List.mem_cons_of_mem _ hmem)).congr
        (step_thisNode fleetStateChecksum learner op).1

/-- The news stays in the fleet. -/
theorem run_holds {learner : Learner C} (haccounted : Accounted news.upTo news.others learner)
    (hproper : learner.Proper own) {ops : List Op}
    (hops : ∀ op ∈ ops, op.Within news.upTo news.others)
    (hreports : ∀ op ∈ ops, Reports own learner op) (hholds : learner.Holds news) :
    (learner.run fleetStateChecksum ops).Holds news := by
  induction ops generalizing learner with
  | nil => exact hholds
  | cons op ops ih =>
      have hop := hops op List.mem_cons_self
      have hreport := hreports op List.mem_cons_self
      refine ih (step_accounted fleetStateChecksum haccounted hop).1
        (step_proper fleetStateChecksum hproper hreport)
        (fun other hmem => hops other (List.mem_cons_of_mem _ hmem)) ?_
        (step_holds fleetStateChecksum haccounted hproper hop hreport hholds)
      intro other hmem
      exact (hreports other (List.mem_cons_of_mem _ hmem)).congr
        (step_thisNode fleetStateChecksum learner op).1

/-- Accumulated news stays accumulated until it is in the fleet. -/
theorem run_pending {learner : Learner C} (haccounted : Accounted news.upTo news.others learner)
    (hproper : learner.Proper own) {ops : List Op}
    (hops : ∀ op ∈ ops, op.Within news.upTo news.others)
    (hreports : ∀ op ∈ ops, Reports own learner op)
    (hundisturbed : ∀ op ∈ ops, ∀ node, op.remembered? = some node →
      node.checksumAddress = news.checksumAddress → node = news)
    (hmem : news ∈ learner.knownNodes.nodesToAdd.elems) :
    news ∈ (learner.run fleetStateChecksum ops).knownNodes.nodesToAdd.elems ∨
      (learner.run fleetStateChecksum ops).Holds news := by
  induction ops generalizing learner with
  | nil => exact Or.inl hmem
  | cons op ops ih =>
      have hop := hops op List.mem_cons_self
      have haccounted' := (step_accounted fleetStateChecksum haccounted hop).1
      have hproper' := step_proper fleetStateChecksum hproper (hreports op List.mem_cons_self)
      have hops' : ∀ other ∈ ops, other.Within news.upTo news.others :=
        fun other hother => hops other (List.mem_cons_of_mem _ hother)
      have hreports' : ∀ other ∈ ops,
          Reports own (learner.step fleetStateChecksum op) other := by
        intro other hother
        exact (hreports other (List.mem_cons_of_mem _ hother)).congr
          (step_thisNode fleetStateChecksum learner op).1
      rcases step_pending fleetStateChecksum haccounted hop (hundisturbed op List.mem_cons_self)
        hmem with hpending | hholds
      · exact ih haccounted' hproper' hops' hreports'
          (fun other hother => hundisturbed other (List.mem_cons_of_mem _ hother)) hpending
      · exact Or.inr (run_holds fleetStateChecksum haccounted' hproper' hops' hreports' hholds)

/-! ## News that is remembered -/

/-- A learner that is told of the news knows it already or admits it. -/
theorem admits_news {learner : Learner C} (hproper : learner.Proper own)
    (hknown : ∀ address node, learner.known? address = some node → node ∈ news.upTo)
    (hother : learner.stamp ≠ some news.stamp) (hnot : ¬ learner.Holds news) :
    learner.Admits news := by
  refine ⟨hother, isOutdated_eq_false_iff.mpr ?_⟩
  intro old hold
  by_contra hrecent
  have heq := Node.eq_of_upTo (hknown _ old hold) (hproper.keyed.address_eq _ old hold)
    (Nat.le_of_not_lt hrecent)
  exact hnot (holds_of_known (heq ▸ hold))

/-- News that is remembered without recording is accumulated. -/
theorem rememberNode_news {learner : Learner C} (hadmits : learner.Admits news)
    (hdomain : news.domain = learner.knownNodes.domain) (eager : Bool)
    (context : RememberContext) :
    news ∈ (learner.rememberNode fleetStateChecksum news false false eager
      context).1.knownNodes.nodesToAdd.elems := by
  rw [rememberNode_takenIn]
  have htaken : learner.takenIn [news] = [news] := by simp [takenIn, hadmits, hdomain]
  simp only [accumulated, htaken, List.foldl_cons, List.foldl_nil]
  exact KeyedSet.mem_replace.mpr (Or.inl rfl)

/-- News that is remembered with recording is in the fleet. -/
theorem rememberNode_news_recorded {learner : Learner C}
    (haccounted : Accounted news.upTo news.others learner) (hnews : news ∈ news.upTo)
    (hadmits : learner.Admits news) (hdomain : news.domain = learner.knownNodes.domain)
    (context : RememberContext) :
    (learner.rememberNode fleetStateChecksum news false true false context).1.Holds news := by
  have hflushed : (learner.rememberNode fleetStateChecksum news false true false
      context).1.knownNodes = (learner.knownNodes.recordNode fleetStateChecksum news
        context.record).recordFleetState fleetStateChecksum false context.record := by
    simp only [rememberNode, if_neg hadmits.1, hadmits.2, Bool.false_eq_true, if_false]
    rw [finishRemembering_knownNodes, if_pos rfl, accumulate_knownNodes]
  have haccumulates : Accumulates fleetStateChecksum learner
      (.rememberNode news false true false context)
      (learner.knownNodes.recordNode fleetStateChecksum news context.record) :=
    .node news context.record rfl hadmits
  have hwithin : Op.Within news.upTo news.others (.rememberNode news false true false context) := by
    constructor
    · rintro node ⟨⟩
      exact hnews
    · intro address haddress
      cases haddress
  refine haccumulates.recorded_news haccounted hwithin ?_ hflushed
  rw [FleetSensor.recordNode_of_domain fleetStateChecksum context.record hdomain]
  exact KeyedSet.mem_replace.mpr (Or.inl rfl)

end Learner

end NuLink
