import NuLinkCore.Lib.Guarded
import NuLinkCore.Characters.Ursula.Services

/-!
# The bonded tracker

The bonded tracker is a looping task that reads from the chain whether the operator
is bonded.  When it is and the node was not restarted since, the tracker stops the
services of its Ursula, its own task among them, and then runs the command that
makes a new one.  Everything that is raised on the way is swallowed, and only the
task that was stopped would have tried again.

Main results:

- Theorem {lit}`BondedTracker.step_alive_iff`: when one operation leaves a tracker that is still
  going to try.
- Theorem {lit}`BondedTracker.run_no_repeated_restart`: while the operator stays bonded after a
  completed restart there is no other one.
- Theorem {lit}`BondedTracker.tracker_alive_iff`: when a whole run leaves the tracker running or
  about to try again.
-/

namespace NuLink

open Execution

/-- What a tick reads from the chain. -/
inductive BondedRead where
  | raises
  | unbonded
  | bonded
deriving DecidableEq, Repr

/-- The tracker with the services of its Ursula, of which {lit}`operatorBondedTracker` is its own
task.  Arguments that are no list are {lit}`none`.  {lit}`restartPending` is no attribute of the
code: it says that the tracker has shut the services down and the restart has not completed. -/
structure BondedTracker where
  services : UrsulaServices
  restarted : Bool
  restartRunArgs : Option (List String)
  restartPending : Bool

namespace BondedTracker

/-- A tracker of a constructed Ursula. -/
def new (federatedOnly operatorReady : Bool) : BondedTracker where
  services := UrsulaServices.new federatedOnly operatorReady
  restarted := false
  restartRunArgs := some []
  restartPending := false

/-- Whether the looping task of the tracker is running. -/
def taskRunning (tracker : BondedTracker) : Bool :=
  tracker.services.operatorBondedTracker == some true

/-! ## A restart -/

/-- {lit}`restart_run_arg_add`: remove an option and its value, then append it. -/
def restartRunArgAdd (args : List String) (option : String) (value : Option String) :
    List String :=
  let removed :=
    match args.idxOf? option with
    | none => args
    | some index =>
        let rest := args.eraseIdx index
        match rest[index]? with
        | none => rest
        | some next => if next.toLower.startsWith "--" then rest else rest.eraseIdx index
  removed ++ option :: value.toList

/-- The arguments of the command that restarts the node. -/
def restartArgs (args : List String) : List String :=
  restartRunArgAdd (restartRunArgAdd args "--start-service" (some "False")) "--restart-finished"
    none

/-- {lit}`OperatorBondedTracker._start_ursula` under the handler of {lit}`run`; {lit}`ursulaRun` says
whether the command completes with the given arguments. -/
def startUrsula (tracker : BondedTracker) (ursulaRun : List String → Bool) : BondedTracker :=
  match tracker.services.stop false true with
  | (stopped, some _) => { tracker with services := stopped, restartPending := true }
  | (stopped, none) =>
      match tracker.restartRunArgs with
      | none => { tracker with services := stopped, restartPending := true }
      | some args =>
          let edited :=
            { tracker with
              services := stopped
              restartRunArgs := some (restartArgs args)
              restartPending := true }
          if ursulaRun (restartArgs args) then
            { edited with restarted := true, restartPending := false }
          else edited

/-- Whether a tick with this answer of the chain attempts a restart. -/
def attempts (tracker : BondedTracker) (chain : BondedRead) : Bool :=
  tracker.taskRunning && decide (chain = .bonded) && !tracker.restarted

/-- One tick of the looping task, {lit}`OperatorBondedTracker.run`; a task that is not running has
none. -/
def tick (tracker : BondedTracker) (chain : BondedRead) (ursulaRun : List String → Bool) :
    BondedTracker :=
  if tracker.taskRunning then
    match chain with
    | .raises => tracker
    | .unbonded => { tracker with restarted := false }
    | .bonded => if tracker.restarted then tracker else tracker.startUrsula ursulaRun
  else tracker

/-- {lit}`OperatorBondedTracker.start_run`. -/
def startRun (tracker : BondedTracker) (restartRunArgs : Option (List String))
    (restartFinished : Bool) : BondedTracker :=
  { tracker with
    services := tracker.services.startBondedTracker
    restartRunArgs := restartRunArgs
    restarted := restartFinished }

/-- The operations of a run: those of the tracker, and what happens to the other services. -/
inductive Op where
  | startRun (restartRunArgs : Option (List String)) (restartFinished : Bool)
  | tick (chain : BondedRead) (ursulaRun : List String → Bool)
  | service (op : UrsulaServices.ServiceOp)

/-- Perform one operation. -/
def step (tracker : BondedTracker) : Op → BondedTracker
  | .startRun restartRunArgs restartFinished => tracker.startRun restartRunArgs restartFinished
  | .tick chain ursulaRun => tracker.tick chain ursulaRun
  | .service op => { tracker with services := tracker.services.serviceStep op }

/-- Perform a sequence of operations. -/
def run (tracker : BondedTracker) (ops : List Op) : BondedTracker := ops.foldl step tracker

/-! ## Still going to try -/

/-- A tracker that has shut the services down and not completed the restart is still running. -/
def Alive (tracker : BondedTracker) : Prop :=
  tracker.restartPending = true → tracker.taskRunning = true

/-- The arguments are a list and the command completes with them. -/
def Completes (tracker : BondedTracker) (ursulaRun : List String → Bool) : Prop :=
  ∃ args, tracker.restartRunArgs = some args ∧ ursulaRun (restartArgs args) = true

/-- The condition on one operation: a restart that is attempted completes, unless stopping the
services raises before the task of the tracker is reached. -/
def Restarts (tracker : BondedTracker) : Op → Prop
  | .tick chain ursulaRun => tracker.attempts chain = true →
      tracker.Completes ursulaRun ∨ ¬ tracker.services.CanCancel
  | _ => True

theorem taskRunning_iff {tracker : BondedTracker} :
    tracker.taskRunning = true ↔ tracker.services.operatorBondedTracker = some true := by
  simp [taskRunning]

/-- An attempt leaves the tracker alive exactly when it completes or does not get to the task of
the tracker. -/
theorem startUrsula_alive_iff {tracker : BondedTracker} (h : tracker.services.Coherent)
    (hrunning : tracker.taskRunning = true) (ursulaRun : List String → Bool) :
    (tracker.startUrsula ursulaRun).Alive ↔
      tracker.Completes ursulaRun ∨ ¬ tracker.services.CanCancel := by
  by_cases hcancel : tracker.services.CanCancel
  · rcases UrsulaServices.stop_of_canCancel h hcancel false true with ⟨hall, hresult⟩
    have hnone : (tracker.services.stop false true).2 = none :=
      hresult.mpr (fun hreactor => by cases hreactor)
    -- The task that drives the restart is stopped before the command runs.
    have hstopped : ¬ (tracker.services.stop false true).1.operatorBondedTracker = some true :=
      hall.bonded rfl
    unfold startUrsula
    cases hstop : tracker.services.stop false true with
    | mk stopped result =>
        rw [hstop] at hnone hstopped
        cases hnone
        simp only [Completes, hcancel, not_true_eq_false, or_false]
        cases hargs : tracker.restartRunArgs with
        | none => simp [Alive, taskRunning, hstopped]
        | some args =>
            simp only [Option.some.injEq, exists_eq_left']
            cases hrun : ursulaRun (restartArgs args) with
            | false => simp [Alive, taskRunning, hstopped]
            | true => simp [Alive]
  · have hstop := UrsulaServices.stop_of_not_canCancel h hcancel false true
    have halive : (tracker.startUrsula ursulaRun).Alive := by
      unfold startUrsula
      rw [hstop]
      intro _
      exact hrunning
    exact ⟨fun _ => Or.inr hcancel, fun _ => halive⟩

/-- Events of the other services do not touch the task of the tracker. -/
theorem serviceStep_operatorBondedTracker (services : UrsulaServices)
    (op : UrsulaServices.ServiceOp) :
    (services.serviceStep op).operatorBondedTracker = services.operatorBondedTracker := by
  cases op with
  | startLearningLoop now learns =>
      simp only [UrsulaServices.serviceStep]
      split_ifs <;> rfl
  | learningRound =>
      simp only [UrsulaServices.serviceStep]
      split <;> rfl
  | learnAboutNodesNow force =>
      simp only [UrsulaServices.serviceStep]
      split_ifs <;> rfl
  | _ => rfl

/-- Starting the tracker does not stop its task. -/
theorem startBondedTracker_running {services : UrsulaServices}
    (h : services.operatorBondedTracker = some true) :
    services.startBondedTracker.operatorBondedTracker = some true := by
  unfold UrsulaServices.startBondedTracker
  split
  · simp [h]
  · exact h

/-- When one operation leaves a tracker that is still going to try. -/
theorem step_alive_iff {tracker : BondedTracker} (h : tracker.services.Coherent)
    (halive : tracker.Alive) (op : Op) : (tracker.step op).Alive ↔ tracker.Restarts op := by
  cases op with
  | startRun restartRunArgs restartFinished =>
      simp only [Restarts, iff_true]
      intro hpending
      rw [taskRunning_iff]
      exact startBondedTracker_running (taskRunning_iff.mp (halive hpending))
  | tick chain ursulaRun =>
      simp only [step, tick, Restarts, attempts]
      by_cases hrunning : tracker.taskRunning = true
      · simp only [hrunning, if_true, Bool.true_and, Bool.and_eq_true, decide_eq_true_eq,
          Bool.not_eq_true']
        cases chain with
        | raises => simpa using halive
        | unbonded =>
            simp only [reduceCtorEq, false_and, false_implies, iff_true]
            intro _
            exact hrunning
        | bonded =>
            cases hrestarted : tracker.restarted with
            | true => simpa using halive
            | false => simpa using startUrsula_alive_iff h hrunning ursulaRun
      · simpa [hrunning] using halive
  | service op =>
      simp only [Restarts, iff_true]
      intro hpending
      rw [taskRunning_iff]
      exact (serviceStep_operatorBondedTracker tracker.services op).trans
        (taskRunning_iff.mp (halive hpending))

theorem startUrsula_coherent {tracker : BondedTracker} (h : tracker.services.Coherent)
    (ursulaRun : List String → Bool) : (tracker.startUrsula ursulaRun).services.Coherent := by
  have hstop := UrsulaServices.stop_coherent h false true
  unfold startUrsula
  cases hresult : tracker.services.stop false true with
  | mk stopped result =>
      rw [hresult] at hstop
      cases result with
      | some error => exact hstop
      | none =>
          cases tracker.restartRunArgs with
          | none => exact hstop
          | some args =>
              simp only
              split <;> exact hstop

/-- Every operation keeps the invariant of the services. -/
theorem step_coherent {tracker : BondedTracker} (h : tracker.services.Coherent) (op : Op) :
    (tracker.step op).services.Coherent := by
  cases op with
  | startRun restartRunArgs restartFinished => exact UrsulaServices.startBondedTracker_coherent h
  | tick chain ursulaRun =>
      simp only [step, tick]
      split
      · cases chain with
        | raises => exact h
        | unbonded => exact h
        | bonded =>
            simp only
            split
            · exact h
            · exact startUrsula_coherent h ursulaRun
      · exact h
  | service op => exact UrsulaServices.serviceStep_coherent h op

/-! ## No repeated restart -/

/-- An operation in which the operator is not seen unbonded and the tracker is not started for a
node that was not restarted. -/
def StaysBonded : Op → Prop
  | .startRun _ restartFinished => restartFinished = true
  | .tick chain _ => chain ≠ .unbonded
  | .service _ => True

/-- The operation attempts no restart. -/
def NoAttempt (tracker : BondedTracker) : Op → Prop
  | .tick chain _ => tracker.attempts chain = false
  | _ => True

theorem step_restarted {tracker : BondedTracker} (h : tracker.restarted = true) {op : Op}
    (hbonded : StaysBonded op) : tracker.NoAttempt op ∧ (tracker.step op).restarted = true := by
  cases op with
  | startRun restartRunArgs restartFinished => exact ⟨trivial, hbonded⟩
  | tick chain ursulaRun =>
      refine ⟨by simp [NoAttempt, attempts, h], ?_⟩
      simp only [step, tick]
      split
      · cases chain with
        | raises => exact h
        | unbonded => exact absurd rfl hbonded
        | bonded => simp [h]
      · exact h
  | service op => exact ⟨trivial, h⟩

/-- While the operator stays bonded after a completed restart there is no other one. -/
theorem run_no_repeated_restart {tracker : BondedTracker} (h : tracker.restarted = true)
    {ops : List Op} (hbonded : ∀ op ∈ ops, StaysBonded op) :
    Guarded step NoAttempt tracker ops := by
  induction ops generalizing tracker with
  | nil => trivial
  | cons op ops ih =>
      have hstep := step_restarted h (hbonded op List.mem_cons_self)
      exact ⟨hstep.1, ih hstep.2 fun other hother =>
        hbonded other (List.mem_cons_of_mem op hother)⟩

/-- In every state of the run, a tracker with a pending restart is running, and from every
completed restart on, as long as the operator stays bonded, there is no other one. -/
structure Dependable (tracker : BondedTracker) (ops : List Op) : Prop where
  alive : Throughout step Alive tracker ops
  no_repeat : ∀ before after, ops = before ++ after → (tracker.run before).restarted = true →
    (∀ op ∈ after, StaysBonded op) → Guarded step NoAttempt (tracker.run before) after

/-- A run of a tracker is dependable exactly when every restart it attempts completes, unless
stopping the services raises before the task of the tracker is reached. -/
theorem tracker_alive_iff (federatedOnly operatorReady : Bool) (ops : List Op) :
    (new federatedOnly operatorReady).Dependable ops ↔
      Guarded step Restarts (new federatedOnly operatorReady) ops := by
  have hcoherent : (new federatedOnly operatorReady).services.Coherent :=
    UrsulaServices.new_coherent federatedOnly operatorReady
  have hstart : (new federatedOnly operatorReady).Alive := by
    intro hpending
    cases hpending
  have hiff := throughout_iff_guarded (P := Alive) (I := fun tracker => tracker.services.Coherent)
    (fun _ op h => step_coherent h op) (fun _ op h halive => step_alive_iff h halive op)
    hcoherent hstart ops
  constructor
  · intro h
    exact hiff.mp h.alive
  · intro h
    exact ⟨hiff.mpr h, fun before after _ hrestarted hbonded =>
      run_no_repeated_restart hrestarted hbonded⟩

/-- The command that restarts the node fails once: the services are down, the restart is pending,
and the tracker that would have tried again is not running. -/
theorem failed_restart_not_retried :
    let tracker := (new false true).run
      [.startRun (some []) false, .tick .bonded (fun _ => false)]
    tracker.restartPending = true ∧ tracker.taskRunning = false ∧ ¬ tracker.Alive ∧
      ∀ chain ursulaRun, tracker.step (.tick chain ursulaRun) = tracker := by
  have hstopped : ((new false true).run
      [.startRun (some []) false, .tick .bonded (fun _ => false)]).taskRunning = false := by
    rfl
  refine ⟨rfl, hstopped, ?_, ?_⟩
  · intro halive
    rw [halive rfl] at hstopped
    cases hstopped
  · intro chain ursulaRun
    simp only [step, tick, hstopped, Bool.false_eq_true, if_false]

end BondedTracker

end NuLink
