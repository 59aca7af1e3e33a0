import NuLinkCore.Utilities.WorkerPool.Attempt
import NuLinkCore.Utilities.WorkerPool.Progress

/-!
# Termination of a worker pool

A pool whose factory draws from a finite collection has a bounded amount of work: every
value passes through the hands of the producer, a task, the queue and the processor, and
every thread has a bounded number of accesses left besides.  Each access of a thread
uses up some of it, whatever the other threads do.

Main results:

- Theorem {lit}`PoolState.Move.work_lt`: every access of the pool's own threads uses up work.
- Theorem {lit}`PoolState.countP_internal_le_work`: a bound on the accesses in any run.
- Theorem {lit}`PoolAttempt.exists_of_reaches`: from every state that a pool reaches it
  can be brought to its end.
-/

namespace NuLink

open Collections Execution

variable {V R E F I : Type}

/-- The work of the producer; a value that is not submitted yet counts eight. -/
def ProducerPc.work : ProducerPc V E → Nat
  | .readingSuccesses => 9
  | .callingFactory _ => 8
  | .countingBatch batch => 12 + 8 * batch.length
  | .submitting values => 11 + 8 * values.length
  | .sleeping => 10
  | .settingError _ => 7
  | .cancelling => 6
  | .stopping _ => 5
  | .done _ => 0

/-- The work of the processor besides reading the queue. -/
def ProcessorPc.work : ProcessorPc V R E → Nat
  | .getting => 4
  | .recordingSuccess _ _ => 7
  | .settingSuccesses => 6
  | .recordingFailure _ _ => 6
  | .checking => 5
  | .cancellingReached => 3
  | .cancellingStopped => 4
  | .settingStopped => 3
  | .stoppingThreadpool => 2
  | .joiningThreadpool => 1
  | .done => 0

/-- The work of the timeout thread. -/
def TimeoutPc.work : TimeoutPc → Nat
  | .waiting => 3
  | .settingTimeout => 2
  | .cancelling => 1
  | .done => 0

namespace PoolState

/-- The work that is left: a value counts less the further it has come. -/
def work (remaining : F → List V) (s : PoolState V R E F) : Nat :=
  13 * (remaining s.factory).length + s.producer.work + 7 * s.queuedTasks.length +
    6 * s.runningTasks.length + 5 * s.reportingTasks.length + 4 * s.resultQueue.length +
    s.processor.work + s.timeout.work

theorem work_start (remaining : F → List V) (factory : F) :
    (start factory : PoolState V R E F).work remaining =
      13 * (remaining factory).length + 16 := by
  simp [work, start, ProducerPc.work, ProcessorPc.work, TimeoutPc.work]

instance : DecidablePred (internal : PoolAction I → Prop) := fun action =>
  match action with
  | .cancel => isFalse id
  | .producer => isTrue trivial
  | .processor => isTrue trivial
  | .timeout => isTrue trivial
  | .startTask _ => isTrue trivial
  | .endWorker _ _ => isTrue trivial
  | .reportTask _ => isTrue trivial

variable {pool : WorkerPool V R E F I} {s s' : PoolState V R E F} {action : PoolAction I}
  {remaining : F → List V}

/-- What a call of the factory returns is no longer in its collection. -/
theorem DrawsFrom.length_eq (hdraws : DrawsFrom pool remaining) {factory factory' : F} {n : Nat}
    {values : List V} (hcall : pool.valueFactory factory n = (.batch values, factory')) :
    values.length + (remaining factory').length = (remaining factory).length := by
  rcases hdraws factory n with ⟨batch, next, hbatch, hperm⟩
  rw [hcall] at hbatch
  simp only [Prod.mk.injEq, FactoryOutcome.batch.injEq] at hbatch
  rw [← hbatch.1, ← hbatch.2] at hperm
  rw [← List.length_append, hperm.length_eq]

variable [DecidableEq V]

/-- Every access of the pool's own threads uses up work. -/
theorem Move.work_lt (hdraws : DrawsFrom pool remaining) (h : Move pool s action s')
    (hinternal : internal action) : s'.work remaining < s.work remaining := by
  cases h with
  | cancel => exact absurd hinternal id
  | factoryExhausted hpc hcall =>
      have hlength := hdraws.length_eq hcall
      simp only [work, hpc, ProducerPc.work, List.length_nil] at hlength ⊢
      omega
  | factoryBatch hpc hcall =>
      have hlength := hdraws.length_eq hcall
      simp only [work, hpc, ProducerPc.work, List.length_cons] at hlength ⊢
      omega
  | @factoryCancelled n _ hpc hcall | @factoryRaised n _ _ hpc hcall =>
      rcases hdraws s.factory n with ⟨batch, factory, hbatch, -⟩
      simp [hcall] at hbatch
  | readSuccesses hpc | countBatch hpc | batchSubmitted hpc | sleepCancelled hpc
  | sleepElapsed hpc | setError hpc | producerCancel hpc =>
      simp only [work, hpc, ProducerPc.work, List.length_nil]
      omega
  | dropTask hpc | submitTask hpc | putToken hpc =>
      simp only [work, hpc, ProducerPc.work, List.length_cons, List.length_append,
        List.length_nil]
      omega
  | getToken hpc hqueue | getSuccess hpc hqueue | getFailure hpc hqueue
  | getCancelled hpc hqueue =>
      simp only [work, hpc, hqueue, ProcessorPc.work, List.length_cons]
      omega
  | recordLastSuccess hpc | recordSuccess hpc | setSuccesses hpc | recordFailure hpc
  | checkReached hpc | checkStopped hpc | checkContinue hpc | cancelReached hpc
  | cancelStopped hpc | setStopped hpc | stopThreadpool hpc | joinThreadpool hpc =>
      simp only [work, hpc, ProcessorPc.work]
      omega
  | timeoutCancelled hpc | timeoutExpired hpc | setTimeout hpc | timeoutCancel hpc =>
      simp only [work, hpc, TimeoutPc.work]
      omega
  | interruptTask htask | startTask htask | endWorker input htask | reportTask htask =>
      have hlength := length_eraseIdx_add_one htask
      simp only [work, List.length_append, List.length_cons, List.length_nil]
      omega

theorem Move.work_le (hdraws : DrawsFrom pool remaining) (h : Move pool s action s') :
    s'.work remaining ≤ s.work remaining := by
  by_cases hinternal : internal action
  · exact Nat.le_of_lt (h.work_lt hdraws hinternal)
  · cases h with
    | cancel => exact Nat.le_refl _
    | _ => exact absurd trivial hinternal

/-- The accesses of the pool's own threads in any run are bounded by the number of values
that there are. -/
theorem countP_internal_le_work (hdraws : DrawsFrom pool remaining) {factory : F}
    {actions : List (PoolAction I)} (h : run (step pool) (start factory) actions = some s) :
    actions.countP (fun action => internal action) ≤ 13 * (remaining factory).length + 16 := by
  have hcount := countP_internal_le (m := work remaining)
    (fun _ _ _ hinternal hstep => (move_of_step hstep).work_lt hdraws hinternal)
    (fun _ _ _ hstep => (move_of_step hstep).work_le hdraws) h
  rw [work_start] at hcount
  omega

end PoolState

/-- From every state that a pool reaches it can be brought to its end. -/
theorem PoolAttempt.exists_of_reaches [DecidableEq V] [Inhabited I]
    {pool : WorkerPool V R E F I} {remaining : F → List V}
    (hdraws : PoolState.DrawsFrom pool remaining) {factory : F} {s : PoolState V R E F}
    (h : Reaches (PoolState.step pool) (PoolState.start factory) s) :
    ∃ attempt : PoolAttempt pool factory, Reaches (PoolState.step pool) s attempt.atEnd := by
  rcases exists_reaches_stuck (m := PoolState.work remaining)
    (fun _ _ _ hinternal hstep => (PoolState.move_of_step hstep).work_lt hdraws hinternal) s with
    ⟨last, hlast, hstuck⟩
  have hreach := h.trans hlast
  rcases PoolState.ended_of_stuck hreach hstuck with ⟨hset, hproducer, hprocessor, htimeout, -⟩
  exact ⟨PoolAttempt.ofReaches hreach
    (PoolState.hasEnded_iff.mpr ⟨hset, hproducer, hprocessor, htimeout⟩), hlast⟩

end NuLink
