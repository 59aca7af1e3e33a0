import NuLinkCore.Lib.Window
import NuLinkCore.Acumen.SensorRuns

/-!
# The archive of fleet states

A sensor keeps a bounded queue of archived states.  Recording the fleet state
replaces the current state at every call, but appends to the archive only when
the difference is not empty.  The full history, with one entry for the initial
state and one for every record that changed something, is not kept by the code:
it is what the archive is compared with.

Main results:

- Theorem {lit}`FleetState.withUpdatedNodes_of_empty`: an update with an empty difference
  keeps the nodes and the owner's metadata.
- Theorem {lit}`FleetSensor.run_archives`: the invariant {lit}`FleetSensor.Archives` along
  every run.
- Theorem {lit}`FleetSensor.archive_agrees`: the latest state describes the current one, and the
  previous states followed by it are the newest entries of the full history.
-/

namespace NuLink

open Collections

/-- An update with an empty difference keeps the nodes and the owner's metadata. -/
theorem FleetState.withUpdatedNodes_of_empty {state : FleetState} {nodesToAdd : List Node}
    {nodesToRemove : List ChecksumAddress} {skipThisNode : Bool} {thisNode : NodeMetadata}
    {now : Nat}
    (hempty : (state.withUpdatedNodes nodesToAdd nodesToRemove skipThisNode thisNode
      now).2.empty = true) :
    (state.withUpdatedNodes nodesToAdd nodesToRemove skipThisNode thisNode now).1.nodes =
        state.nodes ∧
      (state.withUpdatedNodes nodesToAdd nodesToRemove skipThisNode thisNode
        now).1.thisNodeMetadata = state.thisNodeMetadata := by
  constructor
  · exact (withUpdatedNodes_mergesBatch state nodesToAdd nodesToRemove skipThisNode thisNode
      now).unchanged_of_empty hempty
  · by_cases hrefresh : (state.hasThisNode && !skipThisNode) = true
    · -- The owner was asked, and what it reported was already known.
      have hsame : state.thisNodeMetadata = some thisNode := by
        simp only [withUpdatedNodes, calculateDiff, StateDiff.empty, hrefresh,
          Bool.and_eq_true] at hempty
        simpa using hempty.1.1
      simp only [withUpdatedNodes, if_pos hrefresh, hsame]
    · simp only [withUpdatedNodes, if_neg hrefresh]

namespace FleetSensor

variable {C : Type} (fleetStateChecksum : Option NodeMetadata → List NodeMetadata → C)

/-! ## Reading the archive -/

/-- {lit}`FleetSensor.latest_state`; {lit}`none` stands for the {lit}`IndexError` of an empty
archive. -/
def latestState (sensor : FleetSensor C) : Option (ArchivedFleetState C) :=
  sensor.archivedStates.getLast?

/-- {lit}`FleetSensor.previous_states`. -/
def previousStates (sensor : FleetSensor C) (quantity : Int) : List (ArchivedFleetState C) :=
  let previousStatesNum := min ((sensor.archivedStates.length : Int) - 1) quantity
  slice sensor.archivedStates (-previousStatesNum - 1) (-1)

/-- The difference that {lit}`record_fleet_state` returns. -/
def recordedDiff (sensor : FleetSensor C) (skipThisNode : Bool) (context : RecordContext) :
    StateDiff :=
  (sensor.currentState.withUpdatedNodes (context.order.apply sensor.nodesToAdd.elems)
    sensor.nodesToRemove skipThisNode context.thisNode context.now).2

/-! ## The full history -/

/-- The entry an operation adds to the history: one for every record with a difference. -/
def historyEntry (sensor : FleetSensor C) : Op C → List (ArchivedFleetState C)
  | .recordFleetState skipThisNode context =>
      if (sensor.recordedDiff skipThisNode context).empty then []
      else
        [archived fleetStateChecksum
          (sensor.recordFleetState fleetStateChecksum skipThisNode context).currentState]
  | _ => []

/-- The entries that a sequence of operations adds to the history, in order. -/
def historyOf (sensor : FleetSensor C) : List (Op C) → List (ArchivedFleetState C)
  | [] => []
  | op :: ops =>
      sensor.historyEntry fleetStateChecksum op ++
        historyOf (sensor.step fleetStateChecksum op) ops

/-- The initial state and one entry for every record with a difference. -/
def fullHistory (domain : String) (hasThisNode : Bool) (now : Nat) (ops : List (Op C)) :
    List (ArchivedFleetState C) :=
  archived fleetStateChecksum (FleetState.new hasThisNode now) ::
    (new fleetStateChecksum domain hasThisNode now).historyOf fleetStateChecksum ops

/-! ## The archive holds the newest entries of the history -/

/-- An entry has the checksum and the population of a state. -/
def Describes (entry : ArchivedFleetState C) (state : FleetState) : Prop :=
  entry.checksum = state.checksum fleetStateChecksum ∧ entry.population = state.population

/-- The archive of a sensor holds the newest entries of a history, and the last entry of
the history describes the current state. -/
structure Archives (sensor : FleetSensor C) (history : List (ArchivedFleetState C)) : Prop where
  archivedStates_eq : sensor.archivedStates = newest maxArchivedStates history
  last_describes : ∃ older latest, history = older ++ [latest] ∧
    Describes fleetStateChecksum latest sensor.currentState

theorem appendArchived_eq (states : List (ArchivedFleetState C))
    (state : ArchivedFleetState C) :
    appendArchived states state = newest maxArchivedStates (states ++ [state]) := by
  simp [appendArchived, newest]

/-- A state with the same nodes and the same owner's metadata has the same description. -/
theorem Describes.congr {entry : ArchivedFleetState C} {state state' : FleetState}
    (h : Describes fleetStateChecksum entry state) (hnodes : state'.nodes = state.nodes)
    (hthis : state'.thisNodeMetadata = state.thisNodeMetadata) :
    Describes fleetStateChecksum entry state' := by
  rcases h with ⟨hchecksum, hpopulation⟩
  constructor
  · rw [hchecksum, FleetState.checksum, FleetState.checksum, hnodes, hthis]
  · rw [hpopulation, FleetState.population, FleetState.population, hnodes, hthis]

/-- The operations that leave the archive and the current state alone. -/
theorem Archives.congr {sensor sensor' : FleetSensor C}
    {history : List (ArchivedFleetState C)} (h : sensor.Archives fleetStateChecksum history)
    (harchive : sensor'.archivedStates = sensor.archivedStates)
    (hstate : sensor'.currentState = sensor.currentState) :
    sensor'.Archives fleetStateChecksum history where
  archivedStates_eq := by rw [harchive, h.archivedStates_eq]
  last_describes := by rw [hstate]; exact h.last_describes

theorem new_archives (domain : String) (hasThisNode : Bool) (now : Nat) :
    (new fleetStateChecksum domain hasThisNode now).Archives fleetStateChecksum
      [archived fleetStateChecksum (FleetState.new hasThisNode now)] where
  archivedStates_eq := rfl
  last_describes := ⟨[], _, rfl, rfl, rfl⟩

theorem recordFleetState_archives {sensor : FleetSensor C}
    {history : List (ArchivedFleetState C)} (h : sensor.Archives fleetStateChecksum history)
    (skip : Bool) (context : RecordContext) :
    (sensor.recordFleetState fleetStateChecksum skip context).Archives fleetStateChecksum
      (history ++ sensor.historyEntry fleetStateChecksum (.recordFleetState skip context)) := by
  by_cases hempty : (sensor.recordedDiff skip context).empty = true
  · -- Nothing is archived, and the new state has the content of the old one.
    have hcontent := FleetState.withUpdatedNodes_of_empty hempty
    have harchive : (sensor.recordFleetState fleetStateChecksum skip context).archivedStates =
        sensor.archivedStates := if_pos hempty
    rw [historyEntry, if_pos hempty, List.append_nil]
    rcases h.last_describes with ⟨older, latest, hhistory, hdescribes⟩
    refine ⟨harchive.trans h.archivedStates_eq, older, latest, hhistory, ?_⟩
    exact hdescribes.congr fleetStateChecksum hcontent.1 hcontent.2
  · have harchive : (sensor.recordFleetState fleetStateChecksum skip context).archivedStates =
        appendArchived sensor.archivedStates (archived fleetStateChecksum
          (sensor.recordFleetState fleetStateChecksum skip context).currentState) :=
      if_neg hempty
    rw [historyEntry, if_neg hempty]
    refine ⟨?_, history, _, rfl, rfl, rfl⟩
    rw [harchive, appendArchived_eq, h.archivedStates_eq, newest_newest_append]

/-- Every operation keeps the archive in step with the history. -/
theorem step_archives {sensor : FleetSensor C} {history : List (ArchivedFleetState C)}
    (h : sensor.Archives fleetStateChecksum history) (op : Op C) :
    (sensor.step fleetStateChecksum op).Archives fleetStateChecksum
      (history ++ sensor.historyEntry fleetStateChecksum op) := by
  cases op with
  | recordNode node context =>
      simp only [historyEntry, List.append_nil]
      by_cases hdomain : node.domain = sensor.domain
      · rw [step, recordNode_of_domain fleetStateChecksum context hdomain]
        exact h.congr fleetStateChecksum rfl rfl
      · rw [step, recordNode_of_foreign fleetStateChecksum context hdomain]
        exact h
  | markAs node =>
      simp only [historyEntry, List.append_nil]
      simp only [step, markAs]
      split
      · exact h
      · exact h.congr fleetStateChecksum rfl rfl
  | recordFleetState skip context =>
      exact recordFleetState_archives fleetStateChecksum h skip context
  | recordRemoteFleetState address stateChecksum timestamp population now =>
      simp only [historyEntry, List.append_nil]
      simp only [step, recordRemoteFleetState]
      split
      · exact h.congr fleetStateChecksum rfl rfl
      · exact h

/-- Every run keeps the archive in step with the history. -/
theorem run_archives {sensor : FleetSensor C} {history : List (ArchivedFleetState C)}
    (h : sensor.Archives fleetStateChecksum history) (ops : List (Op C)) :
    (sensor.run fleetStateChecksum ops).Archives fleetStateChecksum
      (history ++ sensor.historyOf fleetStateChecksum ops) := by
  induction ops generalizing sensor history with
  | nil =>
      rw [historyOf, List.append_nil]
      exact h
  | cons op ops ih =>
      rw [historyOf, ← List.append_assoc]
      exact ih (step_archives fleetStateChecksum h op)

/-! ## What the archive says -/

/-- The previous states of an archive that ends with a given entry are the newest entries
before it. -/
theorem previousStates_eq {sensor : FleetSensor C} {older : List (ArchivedFleetState C)}
    {latest : ArchivedFleetState C} (h : sensor.archivedStates = older ++ [latest])
    (quantity : Nat) :
    sensor.previousStates quantity = newest (min older.length quantity) older := by
  have hcount : min ((sensor.archivedStates.length : Int) - 1) quantity =
      (min older.length quantity : Nat) := by
    rw [h, List.length_append, List.length_singleton]
    omega
  rw [previousStates, hcount, h, slice_append_singleton]

/-- Along every run the latest state has the checksum and the population of the current state,
and the previous states followed by it are the newest entries of the full history. -/
theorem archive_agrees (domain : String) (hasThisNode : Bool) (now : Nat) (ops : List (Op C)) :
    let sensor := (new fleetStateChecksum domain hasThisNode now).run fleetStateChecksum ops
    let history := fullHistory fleetStateChecksum domain hasThisNode now ops
    ∃ latest, sensor.latestState = some latest ∧
      latest.checksum = sensor.currentState.checksum fleetStateChecksum ∧
      latest.population = sensor.currentState.population ∧
      ∀ quantity : Nat, sensor.previousStates quantity ++ [latest] =
        newest (min (quantity + 1) (min maxArchivedStates history.length)) history := by
  intro sensor history
  have harchives : sensor.Archives fleetStateChecksum history :=
    run_archives fleetStateChecksum (new_archives fleetStateChecksum domain hasThisNode now) ops
  rcases harchives.last_describes with ⟨older, latest, hhistory, hchecksum, hpopulation⟩
  have harchived : sensor.archivedStates = newest 4 older ++ [latest] := by
    rw [harchives.archivedStates_eq, hhistory]
    exact newest_append_singleton 4 older latest
  refine ⟨latest, ?_, hchecksum, hpopulation, ?_⟩
  · rw [latestState, harchived, List.getLast?_concat]
  · intro quantity
    have hcount : min (quantity + 1) (min maxArchivedStates history.length) =
        min (min (min 4 older.length) quantity) 4 + 1 := by
      rw [hhistory, List.length_append, List.length_singleton, maxArchivedStates]
      omega
    rw [previousStates_eq harchived, newest_newest, length_newest, hcount, hhistory,
      newest_append_singleton]

/-- Six records, each with a new node, leave the last five of seven states in the archive. -/
example :
    ((new plainChecksum "mainnet" false 0).run plainChecksum
      ((List.range 6).flatMap fun i =>
        [.recordNode (nodeSprout (sampleMetadata (toString i) [i.toUInt8] i)) plainContext,
          .recordFleetState false plainContext])).archivedStates.map
        ArchivedFleetState.population = [2, 3, 4, 5, 6] := by
  decide +kernel

end FleetSensor

end NuLink
