import NuLinkCore.Utilities.WorkerPool.Counting

/-!
# Progress of a worker pool

A thread that waits is the timeout thread until it expires, the processor for a
result, or the processor for the tasks of the thread pool.  When nothing else can
move, the balance of tasks says that the processor is not waiting for a result that
will never come.

Main results:

- Theorem {lit}`PoolState.ended_of_stuck`: when no thread can move, all of them have ended.
- Theorem {lit}`PoolState.no_stuck_state`: until the processor leaves its loop every
  started task is accounted for, and when no thread can move, all of them have ended
  and the outcome is set.
-/

namespace NuLink

open Collections Execution

namespace PoolState

variable {V R E F I : Type} {pool : WorkerPool V R E F I} {s : PoolState V R E F}

/-- The actions of the pool's own threads. -/
def internal : PoolAction I → Prop
  | .cancel => False
  | _ => True

theorem stepProducer_eq_none (h : s.stepProducer pool = none) : s.producer.isDone = true := by
  unfold stepProducer at h
  split at h
  · simp at h
  · split at h <;> simp at h
  · simp at h
  · simp at h
  · split at h <;> simp at h
  · split at h <;> simp at h
  · simp at h
  · simp at h
  · simp at h
  · rename_i reason hpc
    rw [hpc]
    rfl

theorem stepTimeout_eq_none (h : s.stepTimeout = none) : s.timeout = .done := by
  unfold stepTimeout at h
  split at h
  · split at h <;> simp at h
  · simp at h
  · simp at h
  · rename_i hpc
    exact hpc

theorem queuedTasks_eq_nil (h : s.stepStartTask 0 = none) : s.queuedTasks = [] := by
  unfold stepStartTask at h
  split at h
  · rename_i hnone
    simpa using hnone
  · split at h <;> simp at h

theorem runningTasks_eq_nil (input : I) (h : s.stepEndWorker pool 0 input = none) :
    s.runningTasks = [] := by
  unfold stepEndWorker at h
  split at h
  · rename_i hnone
    simpa using hnone
  · simp at h

theorem reportingTasks_eq_nil (h : s.stepReportTask 0 = none) : s.reportingTasks = [] := by
  unfold stepReportTask at h
  split at h
  · rename_i hnone
    simpa using hnone
  · simp at h

/-- A processor that waits for a result of a pool in which nothing else happens would
have to have missed the end of the values. -/
theorem not_waiting (hcount : s.Counting) (hcontrol : s.Control pool)
    (hproducer : s.producer.isDone = true) (hqueued : s.queuedTasks = [])
    (hrunning : s.runningTasks = []) (hreporting : s.reportingTasks = [])
    (hqueue : s.resultQueue = []) : s.processor ≠ .getting := by
  intro hgetting
  have hpool : s.threadpoolStopped = false :=
    hcontrol.threadpool_running (by simp [hgetting]) (by simp [hgetting])
  have htokens := hcount.tokens
  have htasks := hcount.tasks hpool
  have hpc : s.producer.unsubmitted = [] := by
    revert hproducer
    cases s.producer with
    | submitting values => simp [ProducerPc.isDone]
    | _ => simp [ProducerPc.unsubmitted]
  have hread : s.producerStopped = true := by
    simpa [PoolState.tokens, hqueue, hproducer] using htokens
  have hall : s.finishedTasks = s.startedTasks := by
    simp [results, accepted, hqueue, hqueued, hrunning, hreporting, hpc] at htasks
    omega
  exact (hcontrol.waiting hgetting).2 hread hall

variable [DecidableEq V]

/-- The processor waits only for a result or for the tasks of the thread pool. -/
theorem stepProcessor_eq_none (hqueued : s.queuedTasks = []) (hrunning : s.runningTasks = [])
    (hreporting : s.reportingTasks = []) (h : s.stepProcessor pool = none) :
    s.processor = .done ∨ s.processor = .getting ∧ s.resultQueue = [] := by
  unfold stepProcessor at h
  split at h
  · rename_i hpc
    split at h
    · rename_i hqueue
      exact Or.inr ⟨hpc, hqueue⟩
    all_goals simp at h
  · simp only at h
    split at h <;> simp at h
  · simp at h
  · simp at h
  · split at h
    · simp at h
    · split at h <;> simp at h
  · simp at h
  · simp at h
  · simp at h
  · simp at h
  · simp [hqueued, hrunning, hreporting] at h
  · rename_i hpc
    exact Or.inl hpc

/-- When no thread of a pool can move, all threads have ended and the outcome is set. -/
theorem ended_of_stuck [Inhabited I] {factory : F} (h : Reaches (step pool) (start factory) s)
    (hstuck : Stuck (step pool) internal s) :
    s.targetValue.isSome = true ∧ s.producer.isDone = true ∧ s.processor = .done ∧
      s.timeout = .done ∧ s.accepted = 0 := by
  have hproducer := stepProducer_eq_none (hstuck .producer trivial)
  have htimeout := stepTimeout_eq_none (hstuck .timeout trivial)
  have hqueued := queuedTasks_eq_nil (hstuck (.startTask 0) trivial)
  have hrunning := runningTasks_eq_nil default (hstuck (.endWorker 0 default) trivial)
  have hreporting := reportingTasks_eq_nil (hstuck (.reportTask 0) trivial)
  have hdone : s.processor = .done := by
    rcases stepProcessor_eq_none hqueued hrunning hreporting (hstuck .processor trivial) with
      hdone | ⟨hgetting, hqueue⟩
    · exact hdone
    · exact absurd hgetting
        (not_waiting (counting h) (control h) hproducer hqueued hrunning hreporting hqueue)
  have hset : s.targetValue.isSome = true := by
    refine (control h).left ?_
    rw [hdone]
    rfl
  exact ⟨hset, hproducer, hdone, htimeout, by simp [accepted, hqueued, hrunning, hreporting]⟩

/-- In every reachable state, until the processor leaves its loop, every started task is
finished, in the queue, in the thread pool or not yet submitted; and when no thread of
the pool can move, the outcome is set, the producer has put its token, and all threads
have ended. -/
theorem no_stuck_state [Inhabited I] (pool : WorkerPool V R E F I) (factory : F)
    (s : PoolState V R E F) (h : Reaches (step pool) (start factory) s) :
    (s.processor.inLoop = true →
      s.startedTasks =
        s.finishedTasks + s.results + s.accepted + s.producer.unsubmitted.length) ∧
    (Stuck (step pool) internal s →
      s.targetValue.isSome = true ∧ s.producer.isDone = true ∧ s.processor.inLoop = false ∧
        s.processor = .done ∧ s.timeout = .done ∧ s.accepted = 0) := by
  constructor
  · intro hloop
    refine (counting h).tasks ((control h).threadpool_running ?_ ?_)
    · intro hpc
      simp [hpc, ProcessorPc.inLoop] at hloop
    · intro hpc
      simp [hpc, ProcessorPc.inLoop] at hloop
  · intro hstuck
    rcases ended_of_stuck h hstuck with ⟨hset, hproducer, hdone, htimeout, htasks⟩
    have hleft : s.processor.inLoop = false := by
      rw [hdone]
      rfl
    exact ⟨hset, hproducer, hleft, hdone, htimeout, htasks⟩

/-! ## A pool that reaches its target -/

/-- A pool that draws one value and whose worker returns its input. -/
def onePool (targetSuccesses : Nat) : WorkerPool Nat Nat Unit Bool (WorkerOutcome Nat Unit) where
  worker _ input := input
  valueFactory fresh _ := (.batch (if fresh then [7] else []), false)
  targetSuccesses := targetSuccesses

instance : Inhabited (WorkerOutcome Nat Unit) := ⟨.raisedCancelled⟩

/-- The producer submits the value, the worker returns, the processor reaches the target,
and all threads end. -/
def oneRun : List (PoolAction (WorkerOutcome Nat Unit)) :=
  [.producer, .producer, .producer, .producer, .startTask 0, .endWorker 0 (.returned 3),
    .reportTask 0, .processor, .processor, .processor, .processor, .processor, .processor,
    .processor, .timeout, .timeout, .producer, .producer, .producer]

theorem no_stuck_state_oneRun :
    ∃ s, run (step (onePool 1)) (start true) oneRun = some s ∧
      Stuck (step (onePool 1)) internal s ∧ s.targetValue.isSome = true ∧
        s.producer.isDone = true ∧ s.processor.inLoop = false := by
  have hrun : ∃ s, run (step (onePool 1)) (start true) oneRun = some s ∧
      Stuck (step (onePool 1)) internal s := by
    refine ⟨_, rfl, ?_⟩
    intro action haction
    cases action with
    | cancel => exact absurd haction id
    | _ => rfl
  rcases hrun with ⟨s, hrun, hstuck⟩
  have hend := (no_stuck_state (onePool 1) true s (reaches_of_run hrun)).2 hstuck
  exact ⟨s, hrun, hstuck, hend.1, hend.2.1, hend.2.2.1⟩

end PoolState

end NuLink
