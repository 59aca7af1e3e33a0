import NuLinkCore.Lib.Dict
import NuLinkCore.Lib.Execution

/-!
# The worker pool

A pool runs a worker on values drawn from a value factory until a given number of
values succeeded.  Four kinds of threads share its state: the producer draws
batches and submits them to the thread pool, worker tasks run in the thread pool
and put their results in a queue, the processor reads the queue and decides when
to stop, and the timeout thread bails out.  Anyone may cancel the pool.

Each thread is a program counter; one action moves one thread by one access to the
shared state.  Besides the state of the source, the model keeps a log: the values
drawn so far, the worker calls that ended, and the values whose task was cut short
or dropped.

Main definitions:

- {lit}`WorkerPool`, {lit}`PoolState`: the parameters and the state of a pool.
- {lit}`PoolState.step`: one action of one thread.
- {lit}`PoolState.blockUntilTargetSuccesses`: what a caller observes.
-/

namespace NuLink

open Collections

/-- How a call of the worker ends.  {lit}`Cancelled` is the exception that the pool
itself uses. -/
inductive WorkerOutcome (R E : Type) where
  | returned (result : R)
  | raisedCancelled
  | raised (excInfo : E)

/-- How a call of the value factory ends.  An empty batch stands for {lit}`None` as
well. -/
inductive FactoryOutcome (V E : Type) where
  | batch (values : List V)
  | raisedCancelled
  | raised (excInfo : E)

/-- The parameters of a pool.  The worker depends on an input from outside, so that
the same value may end in any way; the value factory has a state of its own and is
told the number of successes. -/
structure WorkerPool (V R E F I : Type) where
  worker : V → I → WorkerOutcome R E
  valueFactory : F → Nat → FactoryOutcome V E × F
  targetSuccesses : Nat

/-- What is put in the result queue. -/
inductive QueueItem (V R E : Type) where
  | success (value : V) (result : R)
  | failure (value : V) (excInfo : E)
  | cancelled
  | producerStopped

/-- Whether an item is the token of the producer. -/
def QueueItem.isToken {V R E : Type} : QueueItem V R E → Bool
  | .producerStopped => true
  | _ => false

/-- What {lit}`_worker_wrapper` puts in the queue. -/
def WorkerOutcome.item {V R E : Type} (value : V) : WorkerOutcome R E → QueueItem V R E
  | .returned result => .success value result
  | .raisedCancelled => .cancelled
  | .raised excInfo => .failure value excInfo

/-- The value of the future {lit}`_target_value`. -/
inductive TargetValue (V R : Type) where
  | successes (results : Dict V R)
  | timeoutTriggered
  | producerStopped

/-- Why the producer left its loop. -/
inductive StopReason where
  /-- The factory returned an empty batch. -/
  | exhausted
  /-- The pool was cancelled while the producer slept. -/
  | cancelled
  | factoryRaisedCancelled
  | factoryRaised
deriving DecidableEq, Repr

/-- Where the producer is in {lit}`_produce_values`. -/
inductive ProducerPc (V E : Type) where
  | readingSuccesses
  | callingFactory (lenSuccesses : Nat)
  | countingBatch (batch : List V)
  | submitting (values : List V)
  | sleeping
  | settingError (excInfo : E)
  | cancelling
  | stopping (reason : StopReason)
  | done (reason : StopReason)

/-- Where the processor is in {lit}`_process_results`. -/
inductive ProcessorPc (V R E : Type) where
  | getting
  | recordingSuccess (value : V) (result : R)
  | settingSuccesses
  | recordingFailure (value : V) (excInfo : E)
  | checking
  | cancellingReached
  | cancellingStopped
  | settingStopped
  | stoppingThreadpool
  | joiningThreadpool
  | done

/-- Where the timeout thread is in {lit}`_bail_on_timeout`. -/
inductive TimeoutPc where
  | waiting
  | settingTimeout
  | cancelling
  | done
deriving DecidableEq, Repr

/-- The state of a pool.  Tasks of the thread pool wait, run the worker, or are about
to report; the last four fields are the log. -/
structure PoolState (V R E F : Type) where
  factory : F
  successes : Dict V R
  failures : Dict V E
  startedTasks : Nat
  finishedTasks : Nat
  cancelEvent : Bool
  resultQueue : List (QueueItem V R E)
  targetValue : Option (TargetValue V R)
  producerError : Option E
  threadpoolStopped : Bool
  queuedTasks : List V
  runningTasks : List V
  reportingTasks : List (QueueItem V R E)
  producer : ProducerPc V E
  processor : ProcessorPc V R E
  producerStopped : Bool
  successEventReached : Bool
  timeout : TimeoutPc
  cancelledOutside : Bool
  timedOut : Bool
  emitted : List V
  ended : List (V × WorkerOutcome R E)
  interrupted : List V
  dropped : List V

/-- An action of one thread.  A task is named by its position; {lit}`endWorker` brings
the input that decides how the worker ends. -/
inductive PoolAction (I : Type) where
  | producer
  | processor
  | timeout
  | startTask (i : Nat)
  | endWorker (i : Nat) (input : I)
  | reportTask (i : Nat)
  | cancel

namespace PoolState

variable {V R E F I : Type}

/-- The state after {lit}`start()`. -/
def start (factory : F) : PoolState V R E F where
  factory := factory
  successes := Dict.empty
  failures := Dict.empty
  startedTasks := 0
  finishedTasks := 0
  cancelEvent := false
  resultQueue := []
  targetValue := none
  producerError := none
  threadpoolStopped := false
  queuedTasks := []
  runningTasks := []
  reportingTasks := []
  producer := .readingSuccesses
  processor := .getting
  producerStopped := false
  successEventReached := false
  timeout := .waiting
  cancelledOutside := false
  timedOut := false
  emitted := []
  ended := []
  interrupted := []
  dropped := []

/-- {lit}`Future.set`: all sets but the first are ignored. -/
def futureSet {α : Type} (future : Option α) (value : α) : Option α := future <|> some value

/-- {lit}`_produce_values`. -/
def stepProducer (pool : WorkerPool V R E F I) (s : PoolState V R E F) :
    Option (PoolState V R E F) :=
  match s.producer with
  | .readingSuccesses => some { s with producer := .callingFactory s.successes.len }
  | .callingFactory lenSuccesses =>
      match pool.valueFactory s.factory lenSuccesses with
      | (.batch [], factory) => some { s with factory, producer := .stopping .exhausted }
      | (.batch (value :: values), factory) =>
          some { s with
            factory
            producer := .countingBatch (value :: values)
            emitted := s.emitted ++ value :: values }
      | (.raisedCancelled, factory) =>
          some { s with factory, producer := .stopping .factoryRaisedCancelled }
      | (.raised excInfo, factory) => some { s with factory, producer := .settingError excInfo }
  | .countingBatch batch =>
      some { s with
        startedTasks := s.startedTasks + batch.length
        producer := .submitting batch }
  | .submitting [] => some { s with producer := .sleeping }
  | .submitting (value :: values) =>
      -- The thread pool drops what is submitted after it was stopped.
      if s.threadpoolStopped then
        some { s with producer := .submitting values, dropped := s.dropped ++ [value] }
      else
        some { s with producer := .submitting values, queuedTasks := s.queuedTasks ++ [value] }
  | .sleeping =>
      if s.cancelEvent then some { s with producer := .stopping .cancelled }
      else some { s with producer := .readingSuccesses }
  | .settingError excInfo =>
      some { s with producerError := futureSet s.producerError excInfo, producer := .cancelling }
  | .cancelling => some { s with cancelEvent := true, producer := .stopping .factoryRaised }
  | .stopping reason =>
      some { s with resultQueue := s.resultQueue ++ [.producerStopped], producer := .done reason }
  | .done _ => none

/-- {lit}`_bail_on_timeout`.  While the pool is not cancelled the timeout may expire at
any moment. -/
def stepTimeout (s : PoolState V R E F) : Option (PoolState V R E F) :=
  match s.timeout with
  | .waiting =>
      if s.cancelEvent then some { s with timeout := .cancelling }
      else some { s with timeout := .settingTimeout, timedOut := true }
  | .settingTimeout =>
      some { s with
        targetValue := futureSet s.targetValue .timeoutTriggered
        timeout := .cancelling }
  | .cancelling => some { s with cancelEvent := true, timeout := .done }
  | .done => none

/-- The first half of {lit}`_worker_wrapper`: a task of a cancelled pool ends before the
worker is called. -/
def stepStartTask (s : PoolState V R E F) (i : Nat) : Option (PoolState V R E F) :=
  match s.queuedTasks[i]? with
  | none => none
  | some value =>
      if s.cancelEvent then
        some { s with
          queuedTasks := s.queuedTasks.eraseIdx i
          reportingTasks := s.reportingTasks ++ [.cancelled]
          interrupted := s.interrupted ++ [value] }
      else
        some { s with
          queuedTasks := s.queuedTasks.eraseIdx i
          runningTasks := s.runningTasks ++ [value] }

/-- A call of the worker ends. -/
def stepEndWorker (pool : WorkerPool V R E F I) (s : PoolState V R E F) (i : Nat) (input : I) :
    Option (PoolState V R E F) :=
  match s.runningTasks[i]? with
  | none => none
  | some value =>
      some { s with
        runningTasks := s.runningTasks.eraseIdx i
        reportingTasks := s.reportingTasks ++ [(pool.worker value input).item value]
        ended := s.ended ++ [(value, pool.worker value input)] }

/-- The second half of {lit}`_worker_wrapper`. -/
def stepReportTask (s : PoolState V R E F) (i : Nat) : Option (PoolState V R E F) :=
  match s.reportingTasks[i]? with
  | none => none
  | some item =>
      some { s with
        reportingTasks := s.reportingTasks.eraseIdx i
        resultQueue := s.resultQueue ++ [item] }

variable [DecidableEq V]

/-- {lit}`_process_results`.  Stopping the thread pool waits for all tasks that it
accepted. -/
def stepProcessor (pool : WorkerPool V R E F I) (s : PoolState V R E F) :
    Option (PoolState V R E F) :=
  match s.processor with
  | .getting =>
      match s.resultQueue with
      | [] => none
      | .producerStopped :: rest =>
          some { s with resultQueue := rest, producerStopped := true, processor := .checking }
      | .success value result :: rest =>
          some { s with
            resultQueue := rest
            finishedTasks := s.finishedTasks + 1
            processor := .recordingSuccess value result }
      | .failure value excInfo :: rest =>
          some { s with
            resultQueue := rest
            finishedTasks := s.finishedTasks + 1
            processor := .recordingFailure value excInfo }
      | .cancelled :: rest =>
          some { s with
            resultQueue := rest
            finishedTasks := s.finishedTasks + 1
            processor := .checking }
  | .recordingSuccess value result =>
      let successes := s.successes.set value result
      if !s.successEventReached && decide (successes.len = pool.targetSuccesses) then
        some { s with successes, successEventReached := true, processor := .settingSuccesses }
      else some { s with successes, processor := .checking }
  | .settingSuccesses =>
      some { s with
        targetValue := futureSet s.targetValue (.successes s.successes)
        processor := .checking }
  | .recordingFailure value excInfo =>
      some { s with failures := s.failures.set value excInfo, processor := .checking }
  | .checking =>
      if s.successEventReached then some { s with processor := .cancellingReached }
      else if s.producerStopped && decide (s.finishedTasks = s.startedTasks) then
        some { s with processor := .cancellingStopped }
      else some { s with processor := .getting }
  | .cancellingReached =>
      some { s with cancelEvent := true, processor := .stoppingThreadpool }
  | .cancellingStopped => some { s with cancelEvent := true, processor := .settingStopped }
  | .settingStopped =>
      some { s with
        targetValue := futureSet s.targetValue .producerStopped
        processor := .stoppingThreadpool }
  | .stoppingThreadpool =>
      some { s with threadpoolStopped := true, processor := .joiningThreadpool }
  | .joiningThreadpool =>
      if s.queuedTasks.isEmpty && s.runningTasks.isEmpty && s.reportingTasks.isEmpty then
        some { s with processor := .done }
      else none
  | .done => none

/-- One action of one thread. -/
def step (pool : WorkerPool V R E F I) (s : PoolState V R E F) :
    PoolAction I → Option (PoolState V R E F)
  | .producer => s.stepProducer pool
  | .processor => s.stepProcessor pool
  | .timeout => s.stepTimeout
  | .startTask i => s.stepStartTask i
  | .endWorker i input => s.stepEndWorker pool i input
  | .reportTask i => s.stepReportTask i
  | .cancel => some { s with cancelEvent := true, cancelledOutside := true }

end PoolState

/-! ## What callers observe -/

/-- How {lit}`block_until_target_successes` ends. -/
inductive BlockResult (V R E : Type) where
  | blocked
  | returned (successes : Dict V R)
  | timedOut (failures : Dict V E)
  | outOfValues (failures : Dict V E)
  | producerError (excInfo : E)

namespace PoolState

variable {V R E F I : Type}

/-- {lit}`block_until_target_successes`: it looks for an error of the producer in one
state, reads the future in a later one and the failures in a still later one. -/
def blockUntilTargetSuccesses (atCheck atGet atRaise : PoolState V R E F) : BlockResult V R E :=
  match atCheck.producerError with
  | some excInfo => .producerError excInfo
  | none =>
      match atGet.targetValue with
      | none => .blocked
      | some .timeoutTriggered => .timedOut atRaise.failures
      | some .producerStopped => .outOfValues atRaise.failures
      | some (.successes results) => .returned results

end PoolState

end NuLink
