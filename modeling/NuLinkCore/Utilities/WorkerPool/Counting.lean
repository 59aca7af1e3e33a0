import NuLinkCore.Utilities.WorkerPool.Moves

/-!
# The counters of a worker pool

The processor ends the run when the producer has stopped and as many tasks have
finished as were started.  Two balances make this work: the producer's token is in
the queue or was read exactly when the producer is done, and every started task is
finished, in the queue, in the thread pool, or not yet submitted.

Main results:

- Theorem {lit}`PoolState.counting`: both balances hold in every reachable state, the
  second until the thread pool is stopped.
- Theorem {lit}`PoolState.control`: what holds at each point of the processor.
-/

namespace NuLink

open Collections Execution

@[simp]
theorem QueueItem.isToken_producerStopped {V R E : Type} :
    (QueueItem.producerStopped : QueueItem V R E).isToken = true :=
  rfl

@[simp]
theorem QueueItem.isToken_success {V R E : Type} (value : V) (result : R) :
    (QueueItem.success value result : QueueItem V R E).isToken = false :=
  rfl

@[simp]
theorem QueueItem.isToken_failure {V R E : Type} (value : V) (excInfo : E) :
    (QueueItem.failure value excInfo : QueueItem V R E).isToken = false :=
  rfl

@[simp]
theorem QueueItem.isToken_cancelled {V R E : Type} :
    (QueueItem.cancelled : QueueItem V R E).isToken = false :=
  rfl

/-- Whether the producer has put its token. -/
def ProducerPc.isDone {V E : Type} : ProducerPc V E → Bool
  | .done _ => true
  | _ => false

/-- The values of the current batch that are counted as started and not yet submitted. -/
def ProducerPc.unsubmitted {V E : Type} : ProducerPc V E → List V
  | .submitting values => values
  | _ => []

/-- Whether the processor is in its loop. -/
def ProcessorPc.inLoop {V R E : Type} : ProcessorPc V R E → Bool
  | .getting => true
  | .recordingSuccess _ _ => true
  | .settingSuccesses => true
  | .recordingFailure _ _ => true
  | .checking => true
  | .cancellingReached => true
  | .cancellingStopped => true
  | .settingStopped => true
  | _ => false

/-- Whether the processor still reads results. -/
def ProcessorPc.reads {V R E : Type} : ProcessorPc V R E → Bool
  | .getting => true
  | .recordingSuccess _ _ => true
  | .settingSuccesses => true
  | .recordingFailure _ _ => true
  | .checking => true
  | _ => false

/-- Whether the processor handles a result that it has read. -/
def ProcessorPc.handles {V R E : Type} : ProcessorPc V R E → Bool
  | .recordingSuccess _ _ => true
  | .recordingFailure _ _ => true
  | .checking => true
  | _ => false

namespace PoolState

variable {V R E F I : Type}

/-- The tokens of the producer in the result queue. -/
def tokens (s : PoolState V R E F) : Nat := s.resultQueue.countP QueueItem.isToken

/-- The task results in the result queue. -/
def results (s : PoolState V R E F) : Nat := s.resultQueue.countP fun item => !item.isToken

/-- The tasks that the thread pool accepted and that have not reported. -/
def accepted (s : PoolState V R E F) : Nat :=
  s.queuedTasks.length + s.runningTasks.length + s.reportingTasks.length

/-- The two balances, and that tasks only report results. -/
structure Counting (s : PoolState V R E F) : Prop where
  tokens : s.tokens + s.producerStopped.toNat = s.producer.isDone.toNat
  tasks : s.threadpoolStopped = false →
    s.startedTasks = s.finishedTasks + s.results + s.accepted + s.producer.unsubmitted.length
  reporting : ∀ item ∈ s.reportingTasks, item.isToken = false

theorem start_counting (factory : F) : (start factory : PoolState V R E F).Counting :=
  ⟨rfl, fun _ => rfl, by simp [start]⟩

/-- The producer is done, and no task and no result is left. -/
structure Drained (s : PoolState V R E F) : Prop where
  producer : s.producer.isDone = true
  queued : s.queuedTasks = []
  running : s.runningTasks = []
  reporting : s.reportingTasks = []
  queue : s.resultQueue = []

/-- The producer is done when its token was read. -/
theorem Counting.isDone_of_producerStopped {s : PoolState V R E F} (hs : s.Counting)
    (hstopped : s.producerStopped = true) : s.producer.isDone = true := by
  have htokens := hs.tokens
  rw [hstopped, Bool.toNat_true] at htokens
  cases hpc : s.producer.isDone with
  | true => rfl
  | false =>
      rw [hpc, Bool.toNat_false] at htokens
      omega

/-- When the producer's token was read and the counters agree, no work is left. -/
theorem Counting.drained {s : PoolState V R E F} (hs : s.Counting)
    (hrunning : s.threadpoolStopped = false) (hstopped : s.producerStopped = true)
    (hall : s.finishedTasks = s.startedTasks) : s.Drained := by
  have hdone := hs.isDone_of_producerStopped hstopped
  have htokens := hs.tokens
  have htasks := hs.tasks hrunning
  rw [hstopped, hdone, Bool.toNat_true] at htokens
  have hqueue : s.resultQueue.length = s.tokens + s.results := by
    unfold PoolState.tokens results
    simpa using List.length_eq_countP_add_countP QueueItem.isToken
  unfold accepted at htasks
  exact ⟨hdone, List.length_eq_zero_iff.mp (by omega), List.length_eq_zero_iff.mp (by omega),
    List.length_eq_zero_iff.mp (by omega), List.length_eq_zero_iff.mp (by omega)⟩

theorem item_isToken (value : V) (outcome : WorkerOutcome R E) :
    (outcome.item value).isToken = false := by
  cases outcome with
  | returned result => rfl
  | raisedCancelled => rfl
  | raised excInfo => rfl

theorem futureSet_eq_some_iff {α : Type} {future : Option α} {value other : α} :
    futureSet future other = some value ↔ future = some value ∨ future = none ∧ other = value := by
  cases future <;> simp [futureSet]

theorem futureSet_isSome {α : Type} (future : Option α) (value : α) :
    (futureSet future value).isSome = true := by
  cases future <;> rfl

/-! ## The points of the processor -/

variable {pool : WorkerPool V R E F I} {s s' : PoolState V R E F}

/-- What holds at the points of the processor. -/
structure Control (pool : WorkerPool V R E F I) (s : PoolState V R E F) : Prop where
  threadpool : s.threadpoolStopped = true →
    s.processor = .joiningThreadpool ∨ s.processor = .done
  waiting : s.processor = .getting →
    s.successEventReached = false ∧ (s.producerStopped = true → s.finishedTasks ≠ s.startedTasks)
  cancelling : s.processor = .cancellingReached → s.successEventReached = true
  setting : s.processor = .settingSuccesses →
    s.successEventReached = true ∧ s.successes.len = pool.targetSuccesses
  reached : s.successEventReached = true →
    s.processor = .settingSuccesses ∨ s.targetValue.isSome = true
  left : s.processor.inLoop = false → s.targetValue.isSome = true
  leftBy : s.processor.inLoop = false → s.successEventReached = true ∨ s.Drained
  stopped : s.processor = .cancellingStopped ∨ s.processor = .settingStopped ∨
      s.targetValue = some .producerStopped →
    s.Drained ∧ s.successEventReached = false ∧ s.processor.reads = false
  few : 1 ≤ pool.targetSuccesses → s.successEventReached = false →
    s.successes.len < pool.targetSuccesses
  dropped : s.dropped ≠ [] → s.successEventReached = true

theorem start_control (pool : WorkerPool V R E F I) (factory : F) :
    (start factory : PoolState V R E F).Control pool :=
  ⟨by simp [start], by simp [start], by simp [start], by simp [start], by simp [start],
    by simp [start, ProcessorPc.inLoop], by simp [start, ProcessorPc.inLoop], by simp [start],
    fun h _ => h, by simp [start]⟩

/-- While a result is handled there is little to keep. -/
theorem Control.ofHandling (hhandles : s.processor.handles = true)
    (hrunning : s.threadpoolStopped = false)
    (hopen : s.targetValue ≠ some .producerStopped)
    (hreached : s.successEventReached = true → s.targetValue.isSome = true)
    (hfew : 1 ≤ pool.targetSuccesses → s.successEventReached = false →
      s.successes.len < pool.targetSuccesses)
    (hdropped : s.dropped ≠ [] → s.successEventReached = true) : s.Control pool := by
  have hpc : ∀ {pc : ProcessorPc V R E}, s.processor = pc → pc.handles = true := by
    intro pc heq
    rw [← heq]
    exact hhandles
  have hloop : s.processor.inLoop = true := by
    revert hhandles
    cases s.processor with
    | recordingSuccess value result => exact id
    | recordingFailure value excInfo => exact id
    | checking => exact id
    | _ => simp [ProcessorPc.handles]
  refine {
    threadpool := fun hstopped => by simp [hrunning] at hstopped
    waiting := fun heq => by simpa [ProcessorPc.handles] using hpc heq
    cancelling := fun heq => by simpa [ProcessorPc.handles] using hpc heq
    setting := fun heq => by simpa [ProcessorPc.handles] using hpc heq
    reached := fun hset => Or.inr (hreached hset)
    left := fun hleft => by simp [hloop] at hleft
    leftBy := fun hleft => by simp [hloop] at hleft
    stopped := ?_
    few := hfew
    dropped := hdropped }
  rintro (heq | heq | htarget)
  · simpa [ProcessorPc.handles] using hpc heq
  · simpa [ProcessorPc.handles] using hpc heq
  · exact absurd htarget hopen

/-- What there is to keep when the processor has left its loop. -/
theorem Control.ofLeft (hleft : s.processor.inLoop = false)
    (hthreadpool : s.threadpoolStopped = true →
      s.processor = .joiningThreadpool ∨ s.processor = .done)
    (htarget : s.targetValue.isSome = true)
    (hleftBy : s.successEventReached = true ∨ s.Drained)
    (hstopped : s.targetValue = some .producerStopped →
      s.Drained ∧ s.successEventReached = false)
    (hfew : 1 ≤ pool.targetSuccesses → s.successEventReached = false →
      s.successes.len < pool.targetSuccesses)
    (hdropped : s.dropped ≠ [] → s.successEventReached = true) : s.Control pool := by
  have hpc : ∀ {pc : ProcessorPc V R E}, s.processor = pc → pc.inLoop = false := by
    intro pc heq
    rw [← heq]
    exact hleft
  have hreads : s.processor.reads = false := by
    revert hleft
    cases s.processor with
    | stoppingThreadpool => exact id
    | joiningThreadpool => exact id
    | done => exact id
    | _ => simp [ProcessorPc.inLoop]
  refine {
    threadpool := hthreadpool
    waiting := fun heq => by simpa [ProcessorPc.inLoop] using hpc heq
    cancelling := fun heq => by simpa [ProcessorPc.inLoop] using hpc heq
    setting := fun heq => by simpa [ProcessorPc.inLoop] using hpc heq
    reached := fun _ => Or.inr htarget
    left := fun _ => htarget
    leftBy := fun _ => hleftBy
    stopped := ?_
    few := hfew
    dropped := hdropped }
  rintro (heq | heq | hended)
  · simpa [ProcessorPc.inLoop] using hpc heq
  · simpa [ProcessorPc.inLoop] using hpc heq
  · exact ⟨(hstopped hended).1, (hstopped hended).2, hreads⟩

/-- Before the thread pool is stopped the processor is not yet there. -/
theorem Control.threadpool_running (hs : s.Control pool)
    (hjoining : s.processor ≠ .joiningThreadpool) (hdone : s.processor ≠ .done) :
    s.threadpoolStopped = false := by
  cases hstopped : s.threadpoolStopped with
  | false => rfl
  | true =>
      rcases hs.threadpool hstopped with hpc | hpc
      · exact absurd hpc hjoining
      · exact absurd hpc hdone

/-- A processor that reads results has not seen the end of the values. -/
theorem Control.targetValue_ne (hs : s.Control pool) (hreads : s.processor.reads = true) :
    s.targetValue ≠ some .producerStopped := by
  intro htarget
  have hstopped := (hs.stopped (Or.inr (Or.inr htarget))).2.2
  simp [hreads] at hstopped

/-! ## Every move keeps the invariants -/

variable [DecidableEq V] {action : PoolAction I}

/-- Tasks only report results. -/
theorem Move.reporting (h : Move pool s action s')
    (hs : ∀ item ∈ s.reportingTasks, item.isToken = false) :
    ∀ item ∈ s'.reportingTasks, item.isToken = false := by
  intro item hitem
  cases h with
  | interruptTask htask hcancel =>
      rcases List.mem_append.mp hitem with hold | hnew
      · exact hs item hold
      · rw [List.mem_singleton.mp hnew]
        rfl
  | endWorker input htask =>
      rcases List.mem_append.mp hitem with hold | hnew
      · exact hs item hold
      · rw [List.mem_singleton.mp hnew]
        exact item_isToken _ _
  | reportTask htask => exact hs item (List.mem_of_mem_eraseIdx hitem)
  | _ => exact hs item hitem

/-- Every move keeps both balances. -/
theorem Move.counting (h : Move pool s action s') (hs : s.Counting) : s'.Counting := by
  have htokens := hs.tokens
  have htasks := hs.tasks
  have hreporting := h.reporting hs.reporting
  unfold PoolState.tokens at htokens
  unfold PoolState.results PoolState.accepted at htasks
  cases h with
  | readSuccesses hpc | factoryExhausted hpc | factoryBatch hpc | factoryCancelled hpc
    | factoryRaised hpc | batchSubmitted hpc | sleepCancelled hpc | sleepElapsed hpc
    | setError hpc | producerCancel hpc =>
      rw [hpc] at htokens htasks
      exact ⟨htokens, htasks, hreporting⟩
  | countBatch hpc =>
      rw [hpc] at htokens htasks
      refine ⟨htokens, fun hrunning => ?_, hreporting⟩
      have hbefore := htasks hrunning
      simp only [ProducerPc.unsubmitted, List.length_nil] at hbefore
      simp only [results, accepted, ProducerPc.unsubmitted]
      omega
  | dropTask hpc hstopped =>
      rw [hpc] at htokens
      exact ⟨htokens, fun hrunning => by simp [hstopped] at hrunning, hreporting⟩
  | submitTask hpc hrunning =>
      rw [hpc] at htokens htasks
      refine ⟨htokens, fun _ => ?_, hreporting⟩
      have hbefore := htasks hrunning
      simp only [ProducerPc.unsubmitted, List.length_cons] at hbefore
      simp only [results, accepted, ProducerPc.unsubmitted, List.length_append,
        List.length_singleton]
      omega
  | putToken hpc =>
      rw [hpc] at htokens htasks
      simp only [ProducerPc.isDone, Bool.toNat_false] at htokens
      refine ⟨?_, fun hrunning => ?_, hreporting⟩
      · simp only [PoolState.tokens, List.countP_append, List.countP_singleton,
          QueueItem.isToken_producerStopped, ProducerPc.isDone, Bool.toNat_true, if_true]
        omega
      · simpa [results, accepted, ProducerPc.unsubmitted] using htasks hrunning
  | getToken hpc hqueue =>
      rw [hqueue] at htokens htasks
      simp only [List.countP_cons, QueueItem.isToken_producerStopped, if_true] at htokens
      have hbound : s.producer.isDone.toNat ≤ 1 := Bool.toNat_le _
      refine ⟨?_, fun hrunning => ?_, hreporting⟩
      · simp only [PoolState.tokens, Bool.toNat_true]
        omega
      · simpa [results, accepted] using htasks hrunning
  | getSuccess hpc hqueue | getFailure hpc hqueue | getCancelled hpc hqueue =>
      rw [hqueue] at htokens htasks
      refine ⟨by simpa [PoolState.tokens] using htokens, fun hrunning => ?_,
        hreporting⟩
      have hbefore := htasks hrunning
      simp only [List.countP_cons, QueueItem.isToken_success, QueueItem.isToken_failure,
        QueueItem.isToken_cancelled, Bool.not_false, if_true] at hbefore
      simp only [results, accepted]
      omega
  | stopThreadpool hpc =>
      exact ⟨htokens, fun hrunning => by simp at hrunning, hreporting⟩
  | interruptTask htask hcancel | startTask htask hcancel | endWorker input htask =>
      have hlen := length_eraseIdx_add_one htask
      refine ⟨htokens, fun hrunning => ?_, hreporting⟩
      have hbefore := htasks hrunning
      simp only [results, accepted, List.length_append, List.length_singleton]
      omega
  | @reportTask i item htask =>
      have hlen := length_eraseIdx_add_one htask
      have hitem : item.isToken = false := hs.reporting item (List.mem_of_getElem? htask)
      refine ⟨by simpa [PoolState.tokens, hitem] using htokens, fun hrunning => ?_, hreporting⟩
      have hbefore := htasks hrunning
      simp only [results, accepted, List.countP_append, List.countP_singleton, hitem,
        Bool.not_false, if_true]
      omega
  | _ => exact ⟨htokens, htasks, hreporting⟩

/-- Both balances hold in every reachable state. -/
theorem counting {factory : F} (h : Reaches (step pool) (start factory) s) : s.Counting :=
  Reaches.invariant (fun _ _ _ hs hstep => (move_of_step hstep).counting hs) h
    (start_counting factory)

/-- A pool without work stays without work. -/
theorem Move.drained (h : Move pool s action s') (hs : s.Drained) : s'.Drained := by
  have hproducer := hs.producer
  cases h with
  | readSuccesses hpc | factoryExhausted hpc | factoryBatch hpc | factoryCancelled hpc
    | factoryRaised hpc | countBatch hpc | batchSubmitted hpc | dropTask hpc | submitTask hpc
    | sleepCancelled hpc | sleepElapsed hpc | setError hpc | producerCancel hpc | putToken hpc =>
      rw [hpc] at hproducer
      simp [ProducerPc.isDone] at hproducer
  | getToken hpc hqueue | getSuccess hpc hqueue | getFailure hpc hqueue | getCancelled hpc hqueue =>
      rw [hs.queue] at hqueue
      simp at hqueue
  | interruptTask htask | startTask htask =>
      rw [hs.queued] at htask
      simp at htask
  | endWorker input htask =>
      rw [hs.running] at htask
      simp at htask
  | reportTask htask =>
      rw [hs.reporting] at htask
      simp at htask
  | _ => exact ⟨hproducer, hs.queued, hs.running, hs.reporting, hs.queue⟩

/-- The moves of the processor keep what holds at its points. -/
theorem Move.control_of_processor (h : Move pool s .processor s') (hcount : s.Counting)
    (hs : s.Control pool) : s'.Control pool := by
  have hdrained := h.drained
  have hrunning := hs.threadpool_running
  have hopen := hs.targetValue_ne
  have htarget := hs.reached
  cases h with
  | getToken hpc hqueue | getSuccess hpc hqueue | getFailure hpc hqueue | getCancelled hpc hqueue =>
      have hreached := (hs.waiting hpc).1
      rw [hpc] at hrunning hopen
      exact Control.ofHandling rfl (hrunning (by simp) (by simp)) (hopen rfl)
        (fun hset => by simp [hreached] at hset) hs.few hs.dropped
  | @recordLastSuccess value result hpc hreached hlen =>
      rw [hpc] at hrunning hopen
      exact {
        threadpool := fun hstopped => by simp [hrunning] at hstopped
        waiting := by simp
        cancelling := by simp
        setting := fun _ => ⟨rfl, hlen⟩
        reached := fun _ => Or.inl rfl
        left := by simp [ProcessorPc.inLoop]
        leftBy := by simp [ProcessorPc.inLoop]
        stopped := fun hc => absurd hc (by simpa using hopen rfl)
        few := fun _ hnot => by simp at hnot
        dropped := fun _ => rfl }
  | @recordSuccess value result hpc hlen =>
      rw [hpc] at hrunning hopen htarget
      refine Control.ofHandling rfl (hrunning (by simp) (by simp)) (hopen rfl)
        (fun hset => by simpa using htarget hset) ?_ hs.dropped
      intro hpos hreached
      have hbefore := hs.few hpos hreached
      have hne := hlen hreached
      rw [Dict.len_set] at hne ⊢
      split at hne <;> split <;> omega
  | setSuccesses hpc =>
      rw [hpc] at hrunning hopen
      refine Control.ofHandling rfl (hrunning (by simp) (by simp)) ?_
        (fun _ => futureSet_isSome _ _) hs.few hs.dropped
      intro hset
      rcases futureSet_eq_some_iff.mp hset with hold | ⟨-, hnew⟩
      · exact hopen rfl hold
      · simp at hnew
  | recordFailure hpc =>
      rw [hpc] at hrunning hopen htarget
      exact Control.ofHandling rfl (hrunning (by simp) (by simp)) (hopen rfl)
        (fun hset => by simpa using htarget hset) hs.few hs.dropped
  | checkReached hpc hreached =>
      rw [hpc] at hrunning hopen htarget
      exact { hs with
        threadpool := fun hstopped => by simp [hrunning] at hstopped
        waiting := by simp
        cancelling := fun _ => hreached
        setting := by simp
        reached := fun hset => Or.inr (by simpa using htarget hset)
        left := by simp [ProcessorPc.inLoop]
        leftBy := by simp [ProcessorPc.inLoop]
        stopped := fun hc => absurd hc (by simpa using hopen rfl) }
  | checkStopped hpc hreached hstopped hall =>
      rw [hpc] at hrunning
      -- The counters say that no work is left.
      have hwork := hcount.drained (hrunning (by simp) (by simp)) hstopped hall
      exact { hs with
        threadpool := fun hset => by simp [hrunning] at hset
        waiting := by simp
        cancelling := by simp
        setting := by simp
        reached := fun hset => by simp [hreached] at hset
        left := by simp [ProcessorPc.inLoop]
        leftBy := by simp [ProcessorPc.inLoop]
        stopped := fun _ => ⟨hdrained hwork, hreached, rfl⟩ }
  | checkContinue hpc hreached hmore =>
      rw [hpc] at hrunning hopen
      exact { hs with
        threadpool := fun hset => by simp [hrunning] at hset
        waiting := fun _ => ⟨hreached, hmore⟩
        cancelling := by simp
        setting := by simp
        reached := fun hset => by simp [hreached] at hset
        left := by simp [ProcessorPc.inLoop]
        leftBy := by simp [ProcessorPc.inLoop]
        stopped := fun hc => absurd hc (by simpa using hopen rfl) }
  | cancelReached hpc =>
      have hreached := hs.cancelling hpc
      rw [hpc] at hrunning htarget
      refine Control.ofLeft rfl (fun hset => by simp [hrunning] at hset)
        (by simpa using htarget hreached) (Or.inl hreached) ?_ hs.few hs.dropped
      intro hended
      have hnot := (hs.stopped (Or.inr (Or.inr hended))).2.1
      simp [hreached] at hnot
  | cancelStopped hpc =>
      have hended := hs.stopped (Or.inl hpc)
      rw [hpc] at hrunning
      exact { hs with
        threadpool := fun hset => by simp [hrunning] at hset
        waiting := by simp
        cancelling := by simp
        setting := by simp
        reached := fun hset => by simp [hended.2.1] at hset
        left := by simp [ProcessorPc.inLoop]
        leftBy := by simp [ProcessorPc.inLoop]
        stopped := fun _ => ⟨hdrained hended.1, hended.2.1, rfl⟩ }
  | setStopped hpc =>
      have hended := hs.stopped (Or.inr (Or.inl hpc))
      rw [hpc] at hrunning
      exact Control.ofLeft rfl (fun hset => by simp [hrunning] at hset) (futureSet_isSome _ _)
        (Or.inr (hdrained hended.1)) (fun _ => ⟨hdrained hended.1, hended.2.1⟩) hs.few hs.dropped
  | stopThreadpool hpc | joinThreadpool hpc =>
      have hleft : s.processor.inLoop = false := by
        rw [hpc]
        rfl
      refine Control.ofLeft rfl (fun _ => by simp) (hs.left hleft)
        ((hs.leftBy hleft).imp_right hdrained) ?_ hs.few hs.dropped
      intro hset
      have hended := hs.stopped (Or.inr (Or.inr hset))
      exact ⟨hdrained hended.1, hended.2.1⟩

/-- Every move keeps what holds at the points of the processor. -/
theorem Move.control (h : Move pool s action s') (hcount : s.Counting) (hs : s.Control pool) :
    s'.Control pool := by
  have hstill : s.processor = .cancellingStopped ∨ s.processor = .settingStopped ∨
      s.targetValue = some .producerStopped → s'.Drained :=
    fun hstopped => h.drained (hs.stopped hstopped).1
  have hleftBy : s.processor.inLoop = false → s.successEventReached = true ∨ s'.Drained :=
    fun hleft => (hs.leftBy hleft).imp_right h.drained
  by_cases hprocessor : action = .processor
  · subst hprocessor
    exact h.control_of_processor hcount hs
  cases h with
  | countBatch hpc =>
      refine { hs with
        waiting := ?_
        leftBy := hleftBy
        stopped := fun hc => ⟨hstill hc, (hs.stopped hc).2⟩ }
      intro hgetting
      refine ⟨(hs.waiting hgetting).1, ?_⟩
      intro hstopped
      have hdone := hcount.isDone_of_producerStopped hstopped
      simp [hpc, ProducerPc.isDone] at hdone
  | dropTask hpc hstopped =>
      refine { hs with
        leftBy := hleftBy
        stopped := fun hc => ⟨hstill hc, (hs.stopped hc).2⟩
        dropped := fun _ => ?_ }
      -- A producer that still submits has not drained the pool.
      have hleft : s.processor.inLoop = false := by
        rcases hs.threadpool hstopped with h | h
        · rw [h]
          rfl
        · rw [h]
          rfl
      rcases hs.leftBy hleft with hreached | hdrained
      · exact hreached
      · have hdone := hdrained.producer
        simp [hpc, ProducerPc.isDone] at hdone
  | setTimeout hpc =>
      refine { hs with
        reached := fun _ => Or.inr (futureSet_isSome _ _)
        left := fun _ => futureSet_isSome _ _
        leftBy := hleftBy
        stopped := ?_ }
      have hold : s.processor = .cancellingStopped ∨ s.processor = .settingStopped ∨
          futureSet s.targetValue .timeoutTriggered = some .producerStopped →
          s.processor = .cancellingStopped ∨ s.processor = .settingStopped ∨
            s.targetValue = some .producerStopped := by
        rintro (h | h | h)
        · exact Or.inl h
        · exact Or.inr (Or.inl h)
        · rcases futureSet_eq_some_iff.mp h with hold | ⟨-, hnew⟩
          · exact Or.inr (Or.inr hold)
          · simp at hnew
      exact fun hc => ⟨hstill (hold hc), (hs.stopped (hold hc)).2⟩
  | _ =>
      first
        | exact absurd rfl hprocessor
        | exact { hs with
            leftBy := hleftBy
            stopped := fun hc => ⟨hstill hc, (hs.stopped hc).2⟩ }

/-- What holds at the points of the processor, in every reachable state. -/
theorem control {factory : F} (h : Reaches (step pool) (start factory) s) : s.Control pool := by
  have hboth := Reaches.invariant (P := fun s => s.Counting ∧ s.Control pool)
    (fun _ _ _ hs hstep =>
      ⟨(move_of_step hstep).counting hs.1, (move_of_step hstep).control hs.1 hs.2⟩)
    h ⟨start_counting factory, start_control pool factory⟩
  exact hboth.2

end PoolState

end NuLink
