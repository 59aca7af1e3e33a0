import NuLinkCore.Blockchain.WorkTracker.Model
import NuLinkCore.Lib.Guarded

/-!
# Retries of the work tracker

A work tracker runs its cycles in a looping task, which ends when a cycle raises.  The handler of
the error counts it and starts the task again, at once for the first failure of a streak.  The
counter is meant to go back to zero with the next success, and the code has a method for that,
but no cycle calls it.

Main results:

- Theorem {lit}`TrackerRun.consecutiveFails_eq_count`: the counter is the number of all failures.
- Theorem {lit}`TrackerRun.step_meets_iff`: when one step treats a failure by its streak.
- Theorem {lit}`TrackerRun.consecutive_iff`: when all steps of a run do.
-/

namespace NuLink

open Collections Execution

universe u

variable {Tx : Type u}

/-! ## The looping task -/

/-- {lit}`LoopingCall`, with the time of the call that it has scheduled. -/
structure LoopingCall where
  running : Bool
  starttime : Nat
  interval : Nat
  dueAt : Option Nat

namespace LoopingCall

/-- A task before its first start. -/
def new : LoopingCall where
  running := false
  starttime := 0
  interval := 0
  dueAt := none

/-- {lit}`_scheduleFrom`: the next call is at the end of the current interval. -/
def scheduleFrom (task : LoopingCall) (time : Nat) : LoopingCall :=
  { task with
    dueAt := some (time +
      if task.interval = 0 then 0 else task.interval - (time - task.starttime) % task.interval) }

/-- {lit}`LoopingCall.start` of a task that is not running. -/
def start (task : LoopingCall) (time interval : Nat) (now : Bool) : LoopingCall :=
  let started := { task with running := true, starttime := time, interval := interval }
  if now then { started with dueAt := some time } else started.scheduleFrom time

/-- {lit}`LoopingCall.stop`, which is also what an error of the function leaves. -/
def stop (task : LoopingCall) : LoopingCall := { task with running := false, dueAt := none }

theorem start_dueAt (task : LoopingCall) (time interval : Nat) (now : Bool) :
    (task.start time interval now).dueAt = some (time + if now then 0 else interval) := by
  cases now with
  | true => rfl
  | false =>
      by_cases hinterval : interval = 0
      · simp [start, scheduleFrom, hinterval]
      · simp [start, scheduleFrom, hinterval]

theorem start_interval (task : LoopingCall) (time interval : Nat) (now : Bool) :
    (task.start time interval now).interval = interval := by
  cases now with
  | true => rfl
  | false => rfl

end LoopingCall

/-! ## The tracker -/

/-- {lit}`INTERVAL_FLOOR` and {lit}`INTERVAL_CEIL` of a class. -/
structure Intervals where
  floor : Nat
  ceil : Nat

/-- The intervals of {lit}`WorkTrackerBase`. -/
def Intervals.workTrackerBase : Intervals := ⟨60 * 15, 60 * 180⟩

/-- The intervals of {lit}`WorkTracker`. -/
def Intervals.workTracker : Intervals := ⟨1, 2⟩

/-- {lit}`random.randint` between the bounds; any natural number stands for a draw. -/
def Intervals.randint (intervals : Intervals) (draw : Nat) : Nat :=
  intervals.floor + draw % (intervals.ceil - intervals.floor + 1)

/-- {lit}`random_interval`. -/
def Intervals.randomInterval (intervals : Intervals) (fails : Option Nat) (draw : Nat) : Nat :=
  match fails with
  | some fails => if fails > 0 then intervals.floor else intervals.randint draw
  | none => intervals.randint draw

theorem Intervals.randomInterval_some (intervals : Intervals) (fails draw : Nat) :
    intervals.randomInterval (some fails) draw =
      if fails = 0 then intervals.randint draw else intervals.floor := by
  by_cases hzero : fails = 0
  · rw [randomInterval, if_pos hzero, if_neg (by omega)]
  · rw [randomInterval, if_neg hzero, if_pos (by omega)]

/-- What a cycle observes when the tracker was started with a requirement function or without
one; a reply that is missing counts as raised. -/
def Observation.under (requirement : Bool) (obs : Observation Tx) : Observation Tx :=
  { obs with
    requirement := if requirement then some obs.requirement.join else none
    requirementAgain := if requirement then some obs.requirementAgain.join else none }

/-- {lit}`WorkTracker`, with the time of its clock. -/
structure WorkTracker (Tx : Type u) where
  intervals : Intervals
  gasStrategy : GasStrategy
  pending : PendingTransactions Tx
  requirement : Bool
  abortOnError : Bool
  consecutiveFails : Nat
  trackingTask : LoopingCall
  clock : Nat

namespace WorkTracker

/-- The constructor. -/
def new (intervals : Intervals) (gasStrategy : GasStrategy) (clock : Nat) : WorkTracker Tx where
  intervals := intervals
  gasStrategy := gasStrategy
  pending := Dict.empty
  requirement := false
  abortOnError := false
  consecutiveFails := 0
  trackingTask := .new
  clock := clock

/-- {lit}`stop`. -/
def stop (tracker : WorkTracker Tx) : WorkTracker Tx :=
  if tracker.trackingTask.running then
    { tracker with trackingTask := tracker.trackingTask.stop }
  else tracker

/-- {lit}`start`. -/
def start (tracker : WorkTracker Tx) (commitNow requirement : Bool) (draw : Nat) :
    WorkTracker Tx :=
  if tracker.trackingTask.running then tracker
  else
    { tracker with
      requirement := requirement
      trackingTask := tracker.trackingTask.start tracker.clock
        (tracker.intervals.randomInterval (some tracker.consecutiveFails) draw) commitNow }

/-- {lit}`handle_working_errors`.  The new start has no requirement function. -/
def handleWorkingErrors (tracker : WorkTracker Tx) (draw : Nat) : WorkTracker Tx :=
  if tracker.abortOnError then tracker.stop
  else
    let commitNow := decide (tracker.consecutiveFails < 1)
    { tracker with consecutiveFails := tracker.consecutiveFails + 1 }.start commitNow false draw

/-- The cycle that {lit}`_do_work` runs. -/
def cycleOf (tracker : WorkTracker Tx) (obs : Observation Tx) : Cycle Tx :=
  doWork tracker.gasStrategy tracker.pending (obs.under tracker.requirement)

/-- The interval that a cycle leaves: the shortest one after a replacement was handled, and that of
{lit}`random_interval` when nothing was pending. -/
def intervalAfter (tracker : WorkTracker Tx) (cycle : Cycle Tx) (draw : Nat) : Nat :=
  match cycle.tracking with
  | none => tracker.trackingTask.interval
  | some tracking =>
      if tracking.result then
        if cycle.work.ending = .raised then tracker.trackingTask.interval
        else tracker.intervals.floor
      else tracker.intervals.randomInterval (some tracker.consecutiveFails) draw

/-- What a cycle leaves before its task goes on: its pending transactions, its interval, and the
time, which has a delay and the duration of the work on top of when the call was due. -/
def worked (tracker : WorkTracker Tx) (due : Nat) (obs : Observation Tx)
    (draw late duration : Nat) : WorkTracker Tx :=
  { tracker with
    pending := (tracker.cycleOf obs).work.pending
    clock := max tracker.clock due + late + duration
    trackingTask :=
      { tracker.trackingTask with
        interval := tracker.intervalAfter (tracker.cycleOf obs) draw
        dueAt := none } }

/-- {lit}`LoopingCall.__call__` with {lit}`_do_work`, for a call that was due. -/
def runCycle (tracker : WorkTracker Tx) (due : Nat) (obs : Observation Tx)
    (draw late duration : Nat) : WorkTracker Tx :=
  let worked := tracker.worked due obs draw late duration
  match (tracker.cycleOf obs).work.ending with
  | .finished => { worked with trackingTask := worked.trackingTask.scheduleFrom worked.clock }
  | .stopped => { worked with trackingTask := worked.trackingTask.stop }
  | .raised => { worked with trackingTask := worked.trackingTask.stop }.handleWorkingErrors draw

@[simp]
theorem start_consecutiveFails (tracker : WorkTracker Tx) (commitNow requirement : Bool)
    (draw : Nat) :
    (tracker.start commitNow requirement draw).consecutiveFails = tracker.consecutiveFails := by
  unfold start
  split <;> rfl

@[simp]
theorem start_abortOnError (tracker : WorkTracker Tx) (commitNow requirement : Bool)
    (draw : Nat) :
    (tracker.start commitNow requirement draw).abortOnError = tracker.abortOnError := by
  unfold start
  split <;> rfl

@[simp]
theorem stop_consecutiveFails (tracker : WorkTracker Tx) :
    tracker.stop.consecutiveFails = tracker.consecutiveFails := by
  unfold stop
  split <;> rfl

@[simp]
theorem stop_abortOnError (tracker : WorkTracker Tx) :
    tracker.stop.abortOnError = tracker.abortOnError := by
  unfold stop
  split <;> rfl

/-- The interval of a start goes by the counter. -/
theorem start_of_idle {tracker : WorkTracker Tx} (h : tracker.trackingTask.running = false)
    (commitNow requirement : Bool) (draw : Nat) :
    tracker.start commitNow requirement draw =
      { tracker with
        requirement := requirement
        trackingTask := tracker.trackingTask.start tracker.clock
          (if tracker.consecutiveFails = 0 then tracker.intervals.randint draw
            else tracker.intervals.floor) commitNow } := by
  rw [start, if_neg (by simp [h]), Intervals.randomInterval_some]

/-- After an error the task runs again, at once when the counter was zero and after the shortest
interval otherwise. -/
theorem handleWorkingErrors_eq {tracker : WorkTracker Tx} (habort : tracker.abortOnError = false)
    (hrunning : tracker.trackingTask.running = false) (draw : Nat) :
    tracker.handleWorkingErrors draw =
      { tracker with
        consecutiveFails := tracker.consecutiveFails + 1
        requirement := false
        trackingTask := tracker.trackingTask.start tracker.clock tracker.intervals.floor
          (decide (tracker.consecutiveFails < 1)) } := by
  rw [handleWorkingErrors, if_neg (by simp [habort])]
  have hidle : { tracker with
      consecutiveFails := tracker.consecutiveFails + 1 }.trackingTask.running = false := hrunning
  have hpos : tracker.consecutiveFails + 1 ≠ 0 := by omega
  simp only [start_of_idle hidle, if_neg hpos]

/-- A cycle that raises is counted, and runs again at once when the counter was zero. -/
theorem runCycle_of_raised {tracker : WorkTracker Tx} (habort : tracker.abortOnError = false)
    {due : Nat} {obs : Observation Tx} {draw late duration : Nat}
    (hraised : (tracker.cycleOf obs).work.ending = .raised) :
    tracker.runCycle due obs draw late duration =
      { tracker.worked due obs draw late duration with
        consecutiveFails := tracker.consecutiveFails + 1
        requirement := false
        trackingTask := (tracker.worked due obs draw late duration).trackingTask.stop.start
          (tracker.worked due obs draw late duration).clock tracker.intervals.floor
          (decide (tracker.consecutiveFails < 1)) } := by
  rw [runCycle, hraised]
  exact handleWorkingErrors_eq (by exact habort) (by rfl) draw

theorem runCycle_dueAt {tracker : WorkTracker Tx} (habort : tracker.abortOnError = false)
    {due : Nat} {obs : Observation Tx} {draw late duration : Nat}
    (hraised : (tracker.cycleOf obs).work.ending = .raised) :
    (tracker.runCycle due obs draw late duration).trackingTask.dueAt =
      some ((tracker.runCycle due obs draw late duration).clock +
        if tracker.consecutiveFails = 0 then 0 else tracker.intervals.floor) := by
  rw [runCycle_of_raised habort hraised, LoopingCall.start_dueAt]
  simp only [decide_eq_true_eq, Nat.lt_one_iff]

/-- A cycle that does not raise leaves the counter alone. -/
theorem runCycle_consecutiveFails {tracker : WorkTracker Tx}
    (habort : tracker.abortOnError = false) (due : Nat) (obs : Observation Tx)
    (draw late duration : Nat) :
    (tracker.runCycle due obs draw late duration).consecutiveFails =
        tracker.consecutiveFails +
          (if (tracker.cycleOf obs).work.ending = .raised then 1 else 0) ∧
      (tracker.runCycle due obs draw late duration).abortOnError = false := by
  by_cases hraised : (tracker.cycleOf obs).work.ending = .raised
  · rw [runCycle_of_raised habort hraised, if_pos hraised]
    exact ⟨rfl, habort⟩
  · rw [if_neg hraised, runCycle]
    cases hending : (tracker.cycleOf obs).work.ending with
    | stopped => exact ⟨rfl, habort⟩
    | finished => exact ⟨rfl, habort⟩
    | raised => exact absurd hending hraised

/-- A cycle that does not raise leaves the interval that it has set. -/
theorem runCycle_interval {tracker : WorkTracker Tx} {due : Nat} {obs : Observation Tx}
    {draw late duration : Nat} (hraised : (tracker.cycleOf obs).work.ending ≠ .raised) :
    (tracker.runCycle due obs draw late duration).trackingTask.interval =
      tracker.intervalAfter (tracker.cycleOf obs) draw := by
  unfold runCycle
  cases hending : (tracker.cycleOf obs).work.ending with
  | stopped => rfl
  | finished => rfl
  | raised => exact absurd hending hraised

end WorkTracker

/-! ## Runs -/

/-- What happens to a tracker: starts and stops from outside, time, and calls of its task. -/
inductive TrackerOp (Tx : Type u) where
  | start (commitNow requirement : Bool) (draw : Nat)
  | stop
  | elapse (seconds : Nat)
  | cycle (obs : Observation Tx) (draw late duration : Nat)

/-- A tracker and how its cycles have ended, the last one first. -/
structure TrackerRun (Tx : Type u) where
  tracker : WorkTracker Tx
  endings : List Ending

/-- The number of failures after the last success. -/
def failuresSinceSuccess (endings : List Ending) : Nat :=
  (endings.takeWhile (fun ending => decide (ending = .raised))).length

namespace TrackerRun

/-- A new tracker. -/
def new (intervals : Intervals) (gasStrategy : GasStrategy) (clock : Nat) : TrackerRun Tx where
  tracker := .new intervals gasStrategy clock
  endings := []

/-- One operation.  A task that has no call scheduled runs no cycle. -/
def step (run : TrackerRun Tx) : TrackerOp Tx → TrackerRun Tx
  | .start commitNow requirement draw =>
      { run with tracker := run.tracker.start commitNow requirement draw }
  | .stop => { run with tracker := run.tracker.stop }
  | .elapse seconds =>
      { run with tracker := { run.tracker with clock := run.tracker.clock + seconds } }
  | .cycle obs draw late duration =>
      match run.tracker.trackingTask.dueAt with
      | none => run
      | some due =>
          { tracker := run.tracker.runCycle due obs draw late duration
            endings := (run.tracker.cycleOf obs).work.ending :: run.endings }

/-! ## The counter -/

/-- The counter is that of all failures, and errors do not abort. -/
structure Counted (run : TrackerRun Tx) : Prop where
  abortOnError : run.tracker.abortOnError = false
  consecutiveFails : run.tracker.consecutiveFails = run.endings.count .raised

theorem new_counted (intervals : Intervals) (gasStrategy : GasStrategy) (clock : Nat) :
    (new intervals gasStrategy clock : TrackerRun Tx).Counted where
  abortOnError := rfl
  consecutiveFails := rfl

theorem Counted.step {run : TrackerRun Tx} (h : run.Counted) (op : TrackerOp Tx) :
    (run.step op).Counted := by
  cases op with
  | start commitNow requirement draw =>
      constructor
      · rw [TrackerRun.step, WorkTracker.start_abortOnError, h.abortOnError]
      · rw [TrackerRun.step, WorkTracker.start_consecutiveFails, h.consecutiveFails]
  | stop =>
      constructor
      · rw [TrackerRun.step, WorkTracker.stop_abortOnError, h.abortOnError]
      · rw [TrackerRun.step, WorkTracker.stop_consecutiveFails, h.consecutiveFails]
  | elapse seconds => exact ⟨h.abortOnError, h.consecutiveFails⟩
  | cycle obs draw late duration =>
      rw [TrackerRun.step]
      cases run.tracker.trackingTask.dueAt with
      | none => exact h
      | some due =>
          rcases WorkTracker.runCycle_consecutiveFails h.abortOnError due obs draw late duration
            with ⟨hfails, habort⟩
          refine ⟨habort, ?_⟩
          rw [hfails, h.consecutiveFails, List.count_cons]
          simp

theorem Counted.foldl_step {run : TrackerRun Tx} (h : run.Counted) (ops : List (TrackerOp Tx)) :
    (ops.foldl TrackerRun.step run).Counted := by
  induction ops generalizing run with
  | nil => exact h
  | cons op ops ih => exact ih (h.step op)

/-- In every run, the counter is the number of all failures, not only of the last ones. -/
theorem consecutiveFails_eq_count (intervals : Intervals) (gasStrategy : GasStrategy)
    (clock : Nat) (ops : List (TrackerOp Tx)) :
    (ops.foldl step (new intervals gasStrategy clock)).tracker.consecutiveFails =
      (ops.foldl step (new intervals gasStrategy clock)).endings.count .raised :=
  ((new_counted intervals gasStrategy clock).foldl_step ops).consecutiveFails

/-! ## Streaks -/

@[simp]
theorem failuresSinceSuccess_raised (endings : List Ending) :
    failuresSinceSuccess (.raised :: endings) = failuresSinceSuccess endings + 1 := by
  simp [failuresSinceSuccess]

theorem failuresSinceSuccess_success {ending : Ending} (h : ending ≠ .raised)
    (endings : List Ending) : failuresSinceSuccess (ending :: endings) = 0 := by
  simp [failuresSinceSuccess, h]

/-- A cycle that raises runs again at once when it is the first of its streak, and otherwise after
the shortest interval. -/
def Retries (run : TrackerRun Tx) : TrackerOp Tx → Prop
  | .cycle obs draw late duration =>
      run.tracker.trackingTask.dueAt ≠ none →
      (run.tracker.cycleOf obs).work.ending = .raised →
      (run.step (.cycle obs draw late duration)).tracker.trackingTask.dueAt =
        some ((run.step (.cycle obs draw late duration)).tracker.clock +
          if failuresSinceSuccess run.endings = 0 then 0 else run.tracker.intervals.floor)
  | _ => True

/-- Without a failure since the last success, the interval of a start, and of a cycle with nothing
pending, is drawn. -/
def Draws (run : TrackerRun Tx) : TrackerOp Tx → Prop
  | .cycle obs draw late duration =>
      run.tracker.trackingTask.dueAt ≠ none →
      (run.tracker.cycleOf obs).work.ending ≠ .raised →
      (∃ tracking, (run.tracker.cycleOf obs).tracking = some tracking ∧
        tracking.result = false) →
      (run.step (.cycle obs draw late duration)).tracker.trackingTask.interval =
        if failuresSinceSuccess run.endings = 0 then run.tracker.intervals.randint draw
        else run.tracker.intervals.floor
  | .start commitNow requirement draw =>
      run.tracker.trackingTask.running = false →
      (run.step (.start commitNow requirement draw)).tracker.trackingTask.interval =
        if failuresSinceSuccess run.endings = 0 then run.tracker.intervals.randint draw
        else run.tracker.intervals.floor
  | _ => True

/-- A step that treats failures by their streak, and leaves the counter at its length. -/
structure Meets (run : TrackerRun Tx) (op : TrackerOp Tx) : Prop where
  counted : (run.step op).tracker.consecutiveFails = failuresSinceSuccess (run.step op).endings
  retries : run.Retries op
  draws : run.Draws op

/-- No cycle has failed before one that succeeds. -/
def NoFailureBefore (run : TrackerRun Tx) : TrackerOp Tx → Prop
  | .cycle obs _ _ _ =>
      run.tracker.trackingTask.dueAt ≠ none →
      (run.tracker.cycleOf obs).work.ending ≠ .raised → .raised ∉ run.endings
  | _ => True

theorem retries_of_counted {run : TrackerRun Tx} (h : run.Counted)
    (hstreak : run.tracker.consecutiveFails = failuresSinceSuccess run.endings)
    (op : TrackerOp Tx) : run.Retries op := by
  cases op with
  | cycle obs draw late duration =>
      intro hdue hraised
      obtain ⟨due, hdue⟩ := Option.ne_none_iff_exists'.mp hdue
      simp only [step, hdue]
      rw [WorkTracker.runCycle_dueAt h.abortOnError hraised, hstreak]
  | _ => trivial

theorem draws_of_counted {run : TrackerRun Tx}
    (hstreak : run.tracker.consecutiveFails = failuresSinceSuccess run.endings)
    (op : TrackerOp Tx) : run.Draws op := by
  cases op with
  | cycle obs draw late duration =>
      intro hdue hraised htracking
      obtain ⟨due, hdue⟩ := Option.ne_none_iff_exists'.mp hdue
      rcases htracking with ⟨tracking, htracking, hresult⟩
      simp only [step, hdue]
      rw [WorkTracker.runCycle_interval hraised, WorkTracker.intervalAfter, htracking]
      simp only [hresult, Bool.false_eq_true, if_false, Intervals.randomInterval_some, hstreak]
  | start commitNow requirement draw =>
      intro hidle
      rw [step, WorkTracker.start_of_idle hidle, LoopingCall.start_interval, hstreak]
  | stop => trivial
  | elapse seconds => trivial

/-- As long as the counter is the length of the streak, a step meets the rules exactly when it is
no success after a failure. -/
theorem step_meets_iff {run : TrackerRun Tx} (h : run.Counted)
    (hstreak : run.tracker.consecutiveFails = failuresSinceSuccess run.endings)
    (op : TrackerOp Tx) : run.Meets op ↔ run.NoFailureBefore op := by
  have hmeets : run.Meets op ↔ (run.step op).tracker.consecutiveFails =
      failuresSinceSuccess (run.step op).endings := by
    constructor
    · exact Meets.counted
    · intro hcounted
      exact ⟨hcounted, retries_of_counted h hstreak op, draws_of_counted hstreak op⟩
  rw [hmeets]
  cases op with
  | start commitNow requirement draw =>
      rw [step, WorkTracker.start_consecutiveFails]
      exact ⟨fun _ => trivial, fun _ => hstreak⟩
  | stop =>
      rw [step, WorkTracker.stop_consecutiveFails]
      exact ⟨fun _ => trivial, fun _ => hstreak⟩
  | elapse seconds => exact ⟨fun _ => trivial, fun _ => hstreak⟩
  | cycle obs draw late duration =>
      cases hdue : run.tracker.trackingTask.dueAt with
      | none =>
          simp only [step, hdue]
          exact ⟨fun _ hne => absurd hdue hne, fun _ => hstreak⟩
      | some due =>
          have hfails := (WorkTracker.runCycle_consecutiveFails h.abortOnError due obs draw late
            duration).1
          simp only [step, hdue]
          rw [hfails]
          by_cases hraised : (run.tracker.cycleOf obs).work.ending = .raised
          · rw [if_pos hraised, hraised, failuresSinceSuccess_raised, hstreak]
            exact ⟨fun _ _ hne => absurd hraised hne, fun _ => rfl⟩
          · rw [if_neg hraised, failuresSinceSuccess_success hraised, Nat.add_zero,
              h.consecutiveFails, List.count_eq_zero]
            constructor
            · intro hnone _ _
              exact hnone
            · intro hguard
              exact hguard (by simp [hdue]) hraised

/-- Every step of a run treats failures by their streak, and the counter is always the length of
the last streak, exactly when no cycle of the run succeeds after one has failed. -/
theorem consecutive_iff (intervals : Intervals) (gasStrategy : GasStrategy) (clock : Nat)
    (ops : List (TrackerOp Tx)) :
    Guarded step Meets (new intervals gasStrategy clock : TrackerRun Tx) ops ↔
      Guarded step NoFailureBefore (new intervals gasStrategy clock) ops := by
  apply guarded_iff_guarded (I := fun run : TrackerRun Tx => run.Counted ∧
    run.tracker.consecutiveFails = failuresSinceSuccess run.endings)
  · intro run op hrun
    exact step_meets_iff hrun.1 hrun.2 op
  · intro run op hrun hmeets
    exact ⟨hrun.1.step op, hmeets.counted⟩
  · exact ⟨new_counted intervals gasStrategy clock, rfl⟩

/-! ## A success between two failures -/

/-- What a cycle observes of an operator that is not bonded, with a number for the block or none. -/
def unbonded (blockNumber : Option Nat) : Observation Nat where
  requirement := none
  blockNumber := blockNumber
  receipt := fun _ => .notFound
  txCountPending := some 0
  txCountLatest := some 0
  requirementAgain := none
  bonded := some false
  firing := .raised

/-- A start, a cycle that cannot read the block number, one that ends normally, and one that fails
again. -/
def interruptedOps : List (TrackerOp Nat) :=
  [.start true false 0, .cycle (unbonded none) 0 0 0, .cycle (unbonded (some 5)) 1 0 0,
    .cycle (unbonded none) 0 0 0]

/-- The failure right after the success is not retried at once. -/
theorem failure_after_success_waits :
    let run := interruptedOps.foldl step (new .workTracker .fast 0)
    run.endings = [.raised, .finished, .raised] ∧ failuresSinceSuccess run.endings = 1 ∧
      run.tracker.consecutiveFails = 2 ∧
      run.tracker.trackingTask.dueAt = some (run.tracker.clock + 1) ∧
      ¬ Guarded step Meets (new .workTracker .fast 0) interruptedOps := by
  intro run
  refine ⟨by decide, by decide, by decide, by decide, ?_⟩
  rintro ⟨-, -, hsuccess, -⟩
  exact absurd hsuccess.counted (by decide)

end TrackerRun

end NuLink
