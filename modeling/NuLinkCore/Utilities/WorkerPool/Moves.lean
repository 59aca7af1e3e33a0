import NuLinkCore.Utilities.WorkerPool.Model

/-!
# The moves of a worker pool

Everything that one action can do to a pool, one constructor for each access to the
shared state, with the condition under which it happens and the exact state it
leaves.  Invariants are proved by a case analysis over these moves.

Main results:

- Theorem {lit}`PoolState.move_of_step`: every step is one of the moves.
- Theorem {lit}`PoolState.targetValue_stable`: the outcome never changes once it is set.
-/

namespace NuLink

open Collections Execution

namespace PoolState

variable {V R E F I : Type} [DecidableEq V]

/-- One access of one thread to the shared state. -/
inductive Move (pool : WorkerPool V R E F I) (s : PoolState V R E F) :
    PoolAction I → PoolState V R E F → Prop where
  | readSuccesses (hpc : s.producer = .readingSuccesses) :
      Move pool s .producer { s with producer := .callingFactory s.successes.len }
  | factoryExhausted {n : Nat} {factory : F} (hpc : s.producer = .callingFactory n)
      (hcall : pool.valueFactory s.factory n = (.batch [], factory)) :
      Move pool s .producer { s with factory, producer := .stopping .exhausted }
  | factoryBatch {n : Nat} {factory : F} {value : V} {values : List V}
      (hpc : s.producer = .callingFactory n)
      (hcall : pool.valueFactory s.factory n = (.batch (value :: values), factory)) :
      Move pool s .producer { s with
        factory
        producer := .countingBatch (value :: values)
        emitted := s.emitted ++ value :: values }
  | factoryCancelled {n : Nat} {factory : F} (hpc : s.producer = .callingFactory n)
      (hcall : pool.valueFactory s.factory n = (.raisedCancelled, factory)) :
      Move pool s .producer { s with factory, producer := .stopping .factoryRaisedCancelled }
  | factoryRaised {n : Nat} {factory : F} {excInfo : E} (hpc : s.producer = .callingFactory n)
      (hcall : pool.valueFactory s.factory n = (.raised excInfo, factory)) :
      Move pool s .producer { s with factory, producer := .settingError excInfo }
  | countBatch {batch : List V} (hpc : s.producer = .countingBatch batch) :
      Move pool s .producer { s with
        startedTasks := s.startedTasks + batch.length
        producer := .submitting batch }
  | batchSubmitted (hpc : s.producer = .submitting []) :
      Move pool s .producer { s with producer := .sleeping }
  | dropTask {value : V} {values : List V} (hpc : s.producer = .submitting (value :: values))
      (hstopped : s.threadpoolStopped = true) :
      Move pool s .producer { s with producer := .submitting values, dropped := s.dropped ++ [value] }
  | submitTask {value : V} {values : List V} (hpc : s.producer = .submitting (value :: values))
      (hrunning : s.threadpoolStopped = false) :
      Move pool s .producer { s with
        producer := .submitting values
        queuedTasks := s.queuedTasks ++ [value] }
  | sleepCancelled (hpc : s.producer = .sleeping) (hcancel : s.cancelEvent = true) :
      Move pool s .producer { s with producer := .stopping .cancelled }
  | sleepElapsed (hpc : s.producer = .sleeping) (hcancel : s.cancelEvent = false) :
      Move pool s .producer { s with producer := .readingSuccesses }
  | setError {excInfo : E} (hpc : s.producer = .settingError excInfo) :
      Move pool s .producer { s with
        producerError := futureSet s.producerError excInfo
        producer := .cancelling }
  | producerCancel (hpc : s.producer = .cancelling) :
      Move pool s .producer { s with cancelEvent := true, producer := .stopping .factoryRaised }
  | putToken {reason : StopReason} (hpc : s.producer = .stopping reason) :
      Move pool s .producer { s with
        resultQueue := s.resultQueue ++ [.producerStopped]
        producer := .done reason }
  | getToken {rest : List (QueueItem V R E)} (hpc : s.processor = .getting)
      (hqueue : s.resultQueue = .producerStopped :: rest) :
      Move pool s .processor { s with resultQueue := rest, producerStopped := true, processor := .checking }
  | getSuccess {value : V} {result : R} {rest : List (QueueItem V R E)}
      (hpc : s.processor = .getting) (hqueue : s.resultQueue = .success value result :: rest) :
      Move pool s .processor { s with
        resultQueue := rest
        finishedTasks := s.finishedTasks + 1
        processor := .recordingSuccess value result }
  | getFailure {value : V} {excInfo : E} {rest : List (QueueItem V R E)}
      (hpc : s.processor = .getting) (hqueue : s.resultQueue = .failure value excInfo :: rest) :
      Move pool s .processor { s with
        resultQueue := rest
        finishedTasks := s.finishedTasks + 1
        processor := .recordingFailure value excInfo }
  | getCancelled {rest : List (QueueItem V R E)} (hpc : s.processor = .getting)
      (hqueue : s.resultQueue = .cancelled :: rest) :
      Move pool s .processor { s with
        resultQueue := rest
        finishedTasks := s.finishedTasks + 1
        processor := .checking }
  | recordLastSuccess {value : V} {result : R}
      (hpc : s.processor = .recordingSuccess value result) (hreached : s.successEventReached = false)
      (hlen : (s.successes.set value result).len = pool.targetSuccesses) :
      Move pool s .processor { s with
        successes := s.successes.set value result
        successEventReached := true
        processor := .settingSuccesses }
  | recordSuccess {value : V} {result : R} (hpc : s.processor = .recordingSuccess value result)
      (hlen : s.successEventReached = false →
        (s.successes.set value result).len ≠ pool.targetSuccesses) :
      Move pool s .processor { s with successes := s.successes.set value result, processor := .checking }
  | setSuccesses (hpc : s.processor = .settingSuccesses) :
      Move pool s .processor { s with
        targetValue := futureSet s.targetValue (.successes s.successes)
        processor := .checking }
  | recordFailure {value : V} {excInfo : E} (hpc : s.processor = .recordingFailure value excInfo) :
      Move pool s .processor { s with failures := s.failures.set value excInfo, processor := .checking }
  | checkReached (hpc : s.processor = .checking) (hreached : s.successEventReached = true) :
      Move pool s .processor { s with processor := .cancellingReached }
  | checkStopped (hpc : s.processor = .checking) (hreached : s.successEventReached = false)
      (hstopped : s.producerStopped = true) (hall : s.finishedTasks = s.startedTasks) :
      Move pool s .processor { s with processor := .cancellingStopped }
  | checkContinue (hpc : s.processor = .checking) (hreached : s.successEventReached = false)
      (hmore : s.producerStopped = true → s.finishedTasks ≠ s.startedTasks) :
      Move pool s .processor { s with processor := .getting }
  | cancelReached (hpc : s.processor = .cancellingReached) :
      Move pool s .processor { s with cancelEvent := true, processor := .stoppingThreadpool }
  | cancelStopped (hpc : s.processor = .cancellingStopped) :
      Move pool s .processor { s with cancelEvent := true, processor := .settingStopped }
  | setStopped (hpc : s.processor = .settingStopped) :
      Move pool s .processor { s with
        targetValue := futureSet s.targetValue .producerStopped
        processor := .stoppingThreadpool }
  | stopThreadpool (hpc : s.processor = .stoppingThreadpool) :
      Move pool s .processor { s with threadpoolStopped := true, processor := .joiningThreadpool }
  | joinThreadpool (hpc : s.processor = .joiningThreadpool) (hqueued : s.queuedTasks = [])
      (hrunning : s.runningTasks = []) (hreporting : s.reportingTasks = []) :
      Move pool s .processor { s with processor := .done }
  | timeoutCancelled (hpc : s.timeout = .waiting) (hcancel : s.cancelEvent = true) :
      Move pool s .timeout { s with timeout := .cancelling }
  | timeoutExpired (hpc : s.timeout = .waiting) (hcancel : s.cancelEvent = false) :
      Move pool s .timeout { s with timeout := .settingTimeout, timedOut := true }
  | setTimeout (hpc : s.timeout = .settingTimeout) :
      Move pool s .timeout { s with
        targetValue := futureSet s.targetValue .timeoutTriggered
        timeout := .cancelling }
  | timeoutCancel (hpc : s.timeout = .cancelling) :
      Move pool s .timeout { s with cancelEvent := true, timeout := .done }
  | interruptTask {i : Nat} {value : V} (htask : s.queuedTasks[i]? = some value)
      (hcancel : s.cancelEvent = true) :
      Move pool s (.startTask i) { s with
        queuedTasks := s.queuedTasks.eraseIdx i
        reportingTasks := s.reportingTasks ++ [.cancelled]
        interrupted := s.interrupted ++ [value] }
  | startTask {i : Nat} {value : V} (htask : s.queuedTasks[i]? = some value)
      (hcancel : s.cancelEvent = false) :
      Move pool s (.startTask i) { s with
        queuedTasks := s.queuedTasks.eraseIdx i
        runningTasks := s.runningTasks ++ [value] }
  | endWorker {i : Nat} {value : V} (input : I) (htask : s.runningTasks[i]? = some value) :
      Move pool s (.endWorker i input) { s with
        runningTasks := s.runningTasks.eraseIdx i
        reportingTasks := s.reportingTasks ++ [(pool.worker value input).item value]
        ended := s.ended ++ [(value, pool.worker value input)] }
  | reportTask {i : Nat} {item : QueueItem V R E} (htask : s.reportingTasks[i]? = some item) :
      Move pool s (.reportTask i) { s with
        reportingTasks := s.reportingTasks.eraseIdx i
        resultQueue := s.resultQueue ++ [item] }
  | cancel : Move pool s .cancel { s with cancelEvent := true, cancelledOutside := true }

variable {pool : WorkerPool V R E F I} {s s' : PoolState V R E F} {action : PoolAction I}

theorem move_of_stepProducer (h : s.stepProducer pool = some s') : Move pool s .producer s' := by
  unfold stepProducer at h
  split at h
  · rename_i hpc
    cases h
    exact .readSuccesses hpc
  · rename_i n hpc
    split at h
    · rename_i factory hcall
      cases h
      exact .factoryExhausted hpc hcall
    · rename_i value values factory hcall
      cases h
      exact .factoryBatch hpc hcall
    · rename_i factory hcall
      cases h
      exact .factoryCancelled hpc hcall
    · rename_i excInfo factory hcall
      cases h
      exact .factoryRaised hpc hcall
  · rename_i batch hpc
    cases h
    exact .countBatch hpc
  · rename_i hpc
    cases h
    exact .batchSubmitted hpc
  · rename_i value values hpc
    split at h
    · rename_i hstopped
      cases h
      exact .dropTask hpc hstopped
    · rename_i hrunning
      cases h
      exact .submitTask hpc (by simpa using hrunning)
  · rename_i hpc
    split at h
    · rename_i hcancel
      cases h
      exact .sleepCancelled hpc hcancel
    · rename_i hcancel
      cases h
      exact .sleepElapsed hpc (by simpa using hcancel)
  · rename_i excInfo hpc
    cases h
    exact .setError hpc
  · rename_i hpc
    cases h
    exact .producerCancel hpc
  · rename_i reason hpc
    cases h
    exact .putToken hpc
  · simp at h

theorem move_of_stepProcessor (h : s.stepProcessor pool = some s') : Move pool s .processor s' := by
  unfold stepProcessor at h
  split at h
  · rename_i hpc
    split at h
    · simp at h
    · rename_i rest hqueue
      cases h
      exact .getToken hpc hqueue
    · rename_i value result rest hqueue
      cases h
      exact .getSuccess hpc hqueue
    · rename_i value excInfo rest hqueue
      cases h
      exact .getFailure hpc hqueue
    · rename_i rest hqueue
      cases h
      exact .getCancelled hpc hqueue
  · rename_i value result hpc
    simp only at h
    split at h
    · rename_i hlast
      rw [Bool.and_eq_true, Bool.not_eq_true', decide_eq_true_eq] at hlast
      cases h
      exact .recordLastSuccess hpc hlast.1 hlast.2
    · rename_i hlast
      cases h
      refine .recordSuccess hpc ?_
      intro hreached hlen
      exact hlast (by simp [hreached, hlen])
  · rename_i hpc
    cases h
    exact .setSuccesses hpc
  · rename_i value excInfo hpc
    cases h
    exact .recordFailure hpc
  · rename_i hpc
    split at h
    · rename_i hreached
      cases h
      exact .checkReached hpc hreached
    · rename_i hreached
      have hnot : s.successEventReached = false := by simpa using hreached
      split at h
      · rename_i hstopped
        rw [Bool.and_eq_true, decide_eq_true_eq] at hstopped
        cases h
        exact .checkStopped hpc hnot hstopped.1 hstopped.2
      · rename_i hstopped
        cases h
        refine .checkContinue hpc hnot ?_
        intro hproducer hall
        exact hstopped (by simp [hproducer, hall])
  · rename_i hpc
    cases h
    exact .cancelReached hpc
  · rename_i hpc
    cases h
    exact .cancelStopped hpc
  · rename_i hpc
    cases h
    exact .setStopped hpc
  · rename_i hpc
    cases h
    exact .stopThreadpool hpc
  · rename_i hpc
    split at h
    · rename_i hidle
      rw [Bool.and_eq_true, Bool.and_eq_true, List.isEmpty_iff, List.isEmpty_iff,
        List.isEmpty_iff] at hidle
      cases h
      exact .joinThreadpool hpc hidle.1.1 hidle.1.2 hidle.2
    · simp at h
  · simp at h

theorem move_of_stepTimeout (h : s.stepTimeout = some s') : Move pool s .timeout s' := by
  unfold stepTimeout at h
  split at h
  · rename_i hpc
    split at h
    · rename_i hcancel
      cases h
      exact .timeoutCancelled hpc hcancel
    · rename_i hcancel
      cases h
      exact .timeoutExpired hpc (by simpa using hcancel)
  · rename_i hpc
    cases h
    exact .setTimeout hpc
  · rename_i hpc
    cases h
    exact .timeoutCancel hpc
  · simp at h

theorem move_of_stepStartTask {i : Nat} (h : s.stepStartTask i = some s') :
    Move pool s (.startTask i) s' := by
  unfold stepStartTask at h
  split at h
  · simp at h
  · rename_i value htask
    split at h
    · rename_i hcancel
      cases h
      exact .interruptTask htask hcancel
    · rename_i hcancel
      cases h
      exact .startTask htask (by simpa using hcancel)

/-- Every step is one of the moves. -/
theorem move_of_step (h : s.step pool action = some s') : Move pool s action s' := by
  cases action with
  | producer => exact move_of_stepProducer h
  | processor => exact move_of_stepProcessor h
  | timeout => exact move_of_stepTimeout h
  | startTask i => exact move_of_stepStartTask h
  | endWorker i input =>
      simp only [step, stepEndWorker] at h
      split at h
      · simp at h
      · rename_i value htask
        cases h
        exact .endWorker input htask
  | reportTask i =>
      simp only [step, stepReportTask] at h
      split at h
      · simp at h
      · rename_i item htask
        cases h
        exact .reportTask htask
  | cancel =>
      cases h
      exact .cancel

/-! ## The outcome is written once -/

theorem futureSet_of_some {α : Type} {future : Option α} {value : α} (h : future = some value)
    (other : α) : futureSet future other = some value := by
  rw [h]
  rfl

theorem Move.targetValue_stable (h : Move pool s action s') {value : TargetValue V R}
    (hset : s.targetValue = some value) : s'.targetValue = some value := by
  cases h with
  | setSuccesses hpc => exact futureSet_of_some hset _
  | setStopped hpc => exact futureSet_of_some hset _
  | setTimeout hpc => exact futureSet_of_some hset _
  | _ => exact hset

/-- The outcome never changes once it is set. -/
theorem targetValue_stable {value : TargetValue V R} (hset : s.targetValue = some value)
    (h : Reaches (step pool) s s') : s'.targetValue = some value :=
  Reaches.invariant (fun _ _ _ hold hstep => (move_of_step hstep).targetValue_stable hold) h hset

end PoolState

end NuLink
