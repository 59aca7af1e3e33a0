import NuLinkCore.Utilities.WorkerPool.Progress

/-!
# The results of a worker pool

Every result that the pool hands out goes back to a worker call that ended, every
value of a call to a value that was drawn, and every ended call is recorded or on its
way.  In a run that nobody cancels, that does not time out and whose factory does not
raise, the pool is cancelled only by its own processor, after the target was reached or
all work was done.

Main results:

- Theorem {lit}`PoolState.logged`: the log explains the state in every reachable state.
- Theorem {lit}`PoolState.quietly`: what cancels a pool that is left alone.
- Theorem {lit}`PoolState.block_until_target_successes_correct`: what a caller of
  {lit}`block_until_target_successes` may rely on under every interleaving.
-/

namespace NuLink

open Collections Execution

/-- The values of the current batch that are drawn and not yet submitted. -/
def ProducerPc.drawn {V E : Type} : ProducerPc V E → List V
  | .countingBatch batch => batch
  | .submitting values => values
  | _ => []

/-- Whether a call of the factory raised. -/
def ProducerPc.failed {V E : Type} : ProducerPc V E → Bool
  | .settingError _ => true
  | .cancelling => true
  | .stopping .factoryRaised => true
  | .stopping .factoryRaisedCancelled => true
  | .done .factoryRaised => true
  | .done .factoryRaisedCancelled => true
  | _ => false

/-- Whether the producer stopped because the pool was cancelled. -/
def ProducerPc.wasCancelled {V E : Type} : ProducerPc V E → Bool
  | .stopping .cancelled => true
  | .done .cancelled => true
  | _ => false

/-- The result that the processor has taken from the queue and not yet recorded. -/
def ProcessorPc.held {V R E : Type} : ProcessorPc V R E → Option (QueueItem V R E)
  | .recordingSuccess value result => some (.success value result)
  | .recordingFailure value excInfo => some (.failure value excInfo)
  | _ => none

namespace PoolState

variable {V R E F I : Type}

/-- A result is on its way from a task to the dictionaries. -/
def Pending (s : PoolState V R E F) (item : QueueItem V R E) : Prop :=
  item ∈ s.reportingTasks ∨ item ∈ s.resultQueue ∨ s.processor.held = some item

/-- Nobody cancelled the pool from outside, it did not time out and its factory did not
raise. -/
def Quiet (s : PoolState V R E F) : Prop :=
  s.cancelledOutside = false ∧ s.timedOut = false ∧ s.producer.failed = false

/-- What cancels a pool that is left alone: its processor, after the target was reached
or all work was done. -/
structure Quietly (s : PoolState V R E F) : Prop where
  cancel : s.Quiet → s.cancelEvent = true → s.successEventReached = true ∨ s.Drained
  interrupted : s.Quiet → s.interrupted ≠ [] → s.successEventReached = true
  producer : s.Quiet → s.producer.wasCancelled = true → s.successEventReached = true
  setting : s.timeout = .settingTimeout → s.timedOut = true
  cancelling : s.Quiet → s.timeout = .cancelling → s.cancelEvent = true

theorem start_quietly (factory : F) : (start factory : PoolState V R E F).Quietly :=
  ⟨by simp [start], by simp [start], by simp [start, ProducerPc.wasCancelled], by simp [start],
    by simp [start]⟩

variable [DecidableEq V]

/-- The log explains the state. -/
structure Logged (pool : WorkerPool V R E F I) (s : PoolState V R E F) : Prop where
  successes : ∀ value result, s.successes.get? value = some result →
    (value, .returned result) ∈ s.ended
  pending : ∀ value result, s.Pending (.success value result) →
    (value, .returned result) ∈ s.ended
  target : ∀ results, s.targetValue = some (.successes results) →
    results.len = pool.targetSuccesses ∧
      ∀ value result, results.get? value = some result → (value, .returned result) ∈ s.ended
  returned : ∀ value result, (value, .returned result) ∈ s.ended →
    value ∈ s.successes.keys ∨ s.Pending (.success value result)
  raised : ∀ value excInfo, (value, .raised excInfo) ∈ s.ended →
    value ∈ s.failures.keys ∨ s.Pending (.failure value excInfo)
  balance : ∀ value, s.emitted.count value =
    (s.ended.map Prod.fst).count value + s.interrupted.count value +
      s.queuedTasks.count value + s.runningTasks.count value + s.producer.drawn.count value +
      s.dropped.count value

theorem start_logged (pool : WorkerPool V R E F I) (factory : F) :
    (start factory : PoolState V R E F).Logged pool :=
  ⟨by simp [start], by simp [start, Pending, ProcessorPc.held], by simp [start],
    by simp [start], by simp [start], by simp [start, ProducerPc.drawn]⟩

variable {pool : WorkerPool V R E F I} {s s' : PoolState V R E F} {action : PoolAction I}

/-! ## The way of a result -/

theorem Move.ended_subset (h : Move pool s action s') : s.ended ⊆ s'.ended := by
  cases h with
  | endWorker input htask => exact List.subset_append_left _ _
  | _ => exact fun _ hmem => hmem

theorem Move.mem_successes_keys (h : Move pool s action s') {value : V}
    (hmem : value ∈ s.successes.keys) : value ∈ s'.successes.keys := by
  cases h with
  | recordLastSuccess hpc | recordSuccess hpc => exact Dict.mem_keys_set.mpr (Or.inr hmem)
  | _ => exact hmem

theorem Move.mem_failures_keys (h : Move pool s action s') {value : V}
    (hmem : value ∈ s.failures.keys) : value ∈ s'.failures.keys := by
  cases h with
  | recordFailure hpc => exact Dict.mem_keys_set.mpr (Or.inr hmem)
  | _ => exact hmem

/-- A success on its way was so before, or its worker call has just ended. -/
theorem Move.pending_success (h : Move pool s action s') {value : V} {result : R}
    (hpending : s'.Pending (.success value result)) :
    s.Pending (.success value result) ∨ (value, .returned result) ∈ s'.ended := by
  unfold Pending at hpending ⊢
  cases h with
  | @endWorker i task input htask =>
      rw [List.mem_append, List.mem_singleton] at hpending
      rcases hpending with (hold | hnew) | hrest
      · exact Or.inl (Or.inl hold)
      · right
        cases houtcome : pool.worker task input with
        | returned other =>
            rw [houtcome] at hnew
            simp only [WorkerOutcome.item, QueueItem.success.injEq] at hnew
            simp [hnew.1, hnew.2]
        | raisedCancelled => simp [houtcome, WorkerOutcome.item] at hnew
        | raised excInfo => simp [houtcome, WorkerOutcome.item] at hnew
      · exact Or.inl (Or.inr hrest)
  | reportTask htask =>
      have hperm := perm_cons_eraseIdx htask
      left
      rw [List.mem_append, List.mem_singleton] at hpending
      rcases hpending with hold | (hold | hnew) | hheld
      · exact Or.inl (List.mem_of_mem_eraseIdx hold)
      · exact Or.inr (Or.inl hold)
      · exact Or.inl (hnew ▸ hperm.mem_iff.mpr List.mem_cons_self)
      · exact Or.inr (Or.inr hheld)
  | getSuccess hpc hqueue =>
      rw [hpc, hqueue]
      simp only [ProcessorPc.held, Option.some.injEq] at hpending
      rcases hpending with hold | hold | hheld
      · exact Or.inl (Or.inl hold)
      · exact Or.inl (Or.inr (Or.inl (List.mem_cons_of_mem _ hold)))
      · exact Or.inl (Or.inr (Or.inl (hheld ▸ List.mem_cons_self)))
  | recordLastSuccess hpc | recordSuccess hpc =>
      rcases hpending with hold | hold | hheld
      · exact Or.inl (Or.inl hold)
      · exact Or.inl (Or.inr (Or.inl hold))
      · simp [ProcessorPc.held] at hheld
  | _ => simp_all [ProcessorPc.held]

/-- A result on its way stays so until it is recorded. -/
theorem Move.pending_kept (h : Move pool s action s') {item : QueueItem V R E}
    (hpending : s.Pending item) :
    s'.Pending item ∨ item = .cancelled ∨ item = .producerStopped ∨
      (∃ value result, item = .success value result ∧ value ∈ s'.successes.keys) ∨
      ∃ value excInfo, item = .failure value excInfo ∧ value ∈ s'.failures.keys := by
  unfold Pending at hpending ⊢
  cases h with
  | getToken hpc hqueue | getSuccess hpc hqueue | getFailure hpc hqueue | getCancelled hpc hqueue =>
      rw [hpc, hqueue, List.mem_cons] at hpending
      rcases hpending with hold | (hfirst | hold) | hheld
      · exact Or.inl (Or.inl hold)
      · simp [hfirst, ProcessorPc.held]
      · exact Or.inl (Or.inr (Or.inl hold))
      · simp [ProcessorPc.held] at hheld
  | recordLastSuccess hpc | recordSuccess hpc | recordFailure hpc =>
      rw [hpc] at hpending
      rcases hpending with hold | hold | hheld
      · exact Or.inl (Or.inl hold)
      · exact Or.inl (Or.inr (Or.inl hold))
      · rw [ProcessorPc.held, Option.some.injEq] at hheld
        subst hheld
        simp [Dict.mem_keys_set]
  | interruptTask htask | endWorker input htask =>
      rcases hpending with hold | hrest
      · exact Or.inl (Or.inl (List.mem_append_left _ hold))
      · exact Or.inl (Or.inr hrest)
  | putToken hpc =>
      rcases hpending with hold | hold | hheld
      · exact Or.inl (Or.inl hold)
      · exact Or.inl (Or.inr (Or.inl (List.mem_append_left _ hold)))
      · exact Or.inl (Or.inr (Or.inr hheld))
  | reportTask htask =>
      left
      rcases hpending with hold | hold | hheld
      · rcases List.mem_cons.mp ((perm_cons_eraseIdx htask).mem_iff.mp hold) with rfl | hold
        · exact Or.inr (Or.inl (List.mem_append_right _ List.mem_cons_self))
        · exact Or.inl hold
      · exact Or.inr (Or.inl (List.mem_append_left _ hold))
      · exact Or.inr (Or.inr hheld)
  | _ => simp_all [ProcessorPc.held]

/-- A call that has just ended is on its way. -/
theorem Move.ended_cases (h : Move pool s action s') {value : V} {outcome : WorkerOutcome R E}
    (hmem : (value, outcome) ∈ s'.ended) :
    (value, outcome) ∈ s.ended ∨ s'.Pending (outcome.item value) := by
  cases h with
  | endWorker input htask =>
      rcases List.mem_append.mp hmem with hold | hnew
      · exact Or.inl hold
      · rw [List.mem_singleton, Prod.mk.injEq] at hnew
        rw [hnew.1, hnew.2]
        exact Or.inr (Or.inl (List.mem_append_right _ List.mem_cons_self))
  | _ => exact Or.inl hmem

/-- A recorded success was on its way. -/
theorem Move.successes_cases (h : Move pool s action s') {value : V} {result : R}
    (hget : s'.successes.get? value = some result) :
    s.successes.get? value = some result ∨ s.Pending (.success value result) := by
  cases h with
  | recordLastSuccess hpc | recordSuccess hpc =>
      rw [Dict.get?_set] at hget
      split at hget
      · rename_i heq
        right
        simp only [Option.some.injEq] at hget
        simp [Pending, hpc, ProcessorPc.held, heq, hget]
      · exact Or.inl hget
  | _ => exact Or.inl hget

/-- The outcome is the dictionary of successes only when it was so before or the
processor has just set it. -/
theorem Move.targetValue_cases (h : Move pool s action s') {results : Dict V R}
    (htarget : s'.targetValue = some (.successes results)) :
    s.targetValue = some (.successes results) ∨
      s.processor = .settingSuccesses ∧ results = s.successes := by
  cases h with
  | setSuccesses hpc =>
      rcases futureSet_eq_some_iff.mp htarget with hold | ⟨-, hnew⟩
      · exact Or.inl hold
      · exact Or.inr ⟨hpc, (TargetValue.successes.inj hnew).symm⟩
  | setStopped hpc | setTimeout hpc =>
      rcases futureSet_eq_some_iff.mp htarget with hold | ⟨-, hnew⟩
      · exact Or.inl hold
      · simp at hnew
  | _ => exact Or.inl htarget

/-- Every move keeps the balance of the drawn values. -/
theorem Move.balance (h : Move pool s action s')
    (hs : ∀ value, s.emitted.count value =
      (s.ended.map Prod.fst).count value + s.interrupted.count value +
        s.queuedTasks.count value + s.runningTasks.count value + s.producer.drawn.count value +
        s.dropped.count value) (value : V) :
    s'.emitted.count value =
      (s'.ended.map Prod.fst).count value + s'.interrupted.count value +
        s'.queuedTasks.count value + s'.runningTasks.count value +
        s'.producer.drawn.count value + s'.dropped.count value := by
  have hbefore := hs value
  cases h with
  | readSuccesses hpc | factoryExhausted hpc | factoryCancelled hpc | factoryRaised hpc
    | countBatch hpc | batchSubmitted hpc | sleepCancelled hpc | sleepElapsed hpc
    | setError hpc | producerCancel hpc | putToken hpc =>
      rw [hpc] at hbefore
      exact hbefore
  | factoryBatch hpc | dropTask hpc | submitTask hpc =>
      rw [hpc] at hbefore
      simp only [ProducerPc.drawn, List.count_append, List.count_cons, List.count_nil]
        at hbefore ⊢
      omega
  | interruptTask htask | startTask htask | endWorker input htask =>
      have hcount := (perm_cons_eraseIdx htask).count_eq value
      simp only [List.map_append, List.map_cons, List.map_nil, List.count_append, List.count_cons,
        List.count_nil] at hcount ⊢
      omega
  | _ => exact hbefore

/-- Every move keeps the state explained by the log. -/
theorem Move.logged (h : Move pool s action s') (hcontrol : s.Control pool) (hs : s.Logged pool) :
    s'.Logged pool where
  successes := by
    intro value result hget
    rcases h.successes_cases hget with hold | hpending
    · exact h.ended_subset (hs.successes value result hold)
    · exact h.ended_subset (hs.pending value result hpending)
  pending := by
    intro value result hpending
    rcases h.pending_success hpending with hold | hnew
    · exact h.ended_subset (hs.pending value result hold)
    · exact hnew
  target := by
    intro results htarget
    rcases h.targetValue_cases htarget with hold | ⟨hpc, rfl⟩
    · exact ⟨(hs.target results hold).1,
        fun value result hget => h.ended_subset ((hs.target results hold).2 value result hget)⟩
    · exact ⟨(hcontrol.setting hpc).2,
        fun value result hget => h.ended_subset (hs.successes value result hget)⟩
  returned := by
    intro value result hmem
    rcases h.ended_cases hmem with hold | hnew
    · rcases hs.returned value result hold with hkey | hpending
      · exact Or.inl (h.mem_successes_keys hkey)
      · rcases h.pending_kept hpending with hstill | hitem | hitem | ⟨v, r, hitem, hkey⟩ |
          ⟨v, e, hitem, -⟩
        · exact Or.inr hstill
        · simp at hitem
        · simp at hitem
        · rw [QueueItem.success.injEq] at hitem
          exact Or.inl (hitem.1 ▸ hkey)
        · simp at hitem
    · exact Or.inr hnew
  raised := by
    intro value excInfo hmem
    rcases h.ended_cases hmem with hold | hnew
    · rcases hs.raised value excInfo hold with hkey | hpending
      · exact Or.inl (h.mem_failures_keys hkey)
      · rcases h.pending_kept hpending with hstill | hitem | hitem | ⟨v, r, hitem, -⟩ |
          ⟨v, e, hitem, hkey⟩
        · exact Or.inr hstill
        · simp at hitem
        · simp at hitem
        · simp at hitem
        · rw [QueueItem.failure.injEq] at hitem
          exact Or.inl (hitem.1 ▸ hkey)
    · exact Or.inr hnew
  balance := h.balance hs.balance

/-- The log explains the state in every reachable state. -/
theorem logged {factory : F} (h : Reaches (step pool) (start factory) s) : s.Logged pool := by
  have hall := Reaches.invariant
    (P := fun s => s.Counting ∧ s.Control pool ∧ s.Logged pool)
    (fun _ _ _ hs hstep =>
      ⟨(move_of_step hstep).counting hs.1, (move_of_step hstep).control hs.1 hs.2.1,
        (move_of_step hstep).logged hs.2.1 hs.2.2⟩)
    h ⟨start_counting factory, start_control pool factory, start_logged pool factory⟩
  exact hall.2.2

/-! ## A pool that is left alone -/

/-- A pool that is left alone now was left alone before. -/
theorem Move.quiet (h : Move pool s action s') (hs : s'.Quiet) : s.Quiet := by
  unfold Quiet at hs ⊢
  cases h with
  | @putToken reason hpc => cases reason <;> simp_all [ProducerPc.failed]
  | _ => simp_all [ProducerPc.failed]

theorem Move.reached_mono (h : Move pool s action s') (hs : s.successEventReached = true) :
    s'.successEventReached = true := by
  cases h with
  | recordLastSuccess hpc => rfl
  | _ => exact hs

/-- Every move keeps what cancels a pool that is left alone. -/
theorem Move.quietly (h : Move pool s action s') (hcontrol : s.Control pool) (hs : s.Quietly) :
    s'.Quietly := by
  have hbefore := h.quiet
  have hdrained := h.drained
  have hcancel : s'.Quiet → s.cancelEvent = true →
      s'.successEventReached = true ∨ s'.Drained := fun hquiet hset =>
    (hs.cancel (h.quiet hquiet) hset).imp h.reached_mono h.drained
  have hinterrupted : s'.Quiet → s.interrupted ≠ [] → s'.successEventReached = true :=
    fun hquiet hne => h.reached_mono (hs.interrupted (h.quiet hquiet) hne)
  have hproducer : s'.Quiet → s.producer.wasCancelled = true → s'.successEventReached = true :=
    fun hquiet hset => h.reached_mono (hs.producer (h.quiet hquiet) hset)
  have hcancelling : s'.Quiet → s.timeout = .cancelling → s.cancelEvent = true :=
    fun hquiet => hs.cancelling (h.quiet hquiet)
  cases h with
  | readSuccesses | factoryExhausted | factoryBatch | factoryCancelled | factoryRaised
    | countBatch | batchSubmitted | dropTask | submitTask | sleepElapsed | setError =>
      exact ⟨hcancel, hinterrupted, by simp [ProducerPc.wasCancelled], hs.setting, hcancelling⟩
  | sleepCancelled hpc hset =>
      refine ⟨hcancel, hinterrupted, ?_, hs.setting, hcancelling⟩
      intro hquiet _
      rcases hcancel hquiet hset with hreached | hwork
      · exact hreached
      · have hdone := hwork.producer
        simp [ProducerPc.isDone] at hdone
  | producerCancel hpc =>
      refine ⟨fun hquiet => ?_, hinterrupted, by simp [ProducerPc.wasCancelled], hs.setting,
        fun _ _ => rfl⟩
      simp [Quiet, ProducerPc.failed] at hquiet
  | @putToken reason hpc =>
      rw [hpc] at hproducer
      refine ⟨hcancel, hinterrupted, fun hquiet hset => hproducer hquiet ?_, hs.setting,
        hcancelling⟩
      cases reason with
      | cancelled => rfl
      | _ => simp [ProducerPc.wasCancelled] at hset
  | cancelReached hpc =>
      exact ⟨fun _ _ => Or.inl (hcontrol.cancelling hpc), hinterrupted, hproducer, hs.setting,
        fun _ _ => rfl⟩
  | cancelStopped hpc =>
      exact ⟨fun _ _ => Or.inr (hdrained (hcontrol.stopped (Or.inl hpc)).1), hinterrupted,
        hproducer, hs.setting, fun _ _ => rfl⟩
  | timeoutCancelled hpc hset =>
      exact ⟨hcancel, hinterrupted, hproducer, by simp, fun _ _ => hset⟩
  | timeoutExpired hpc hset =>
      exact ⟨hcancel, hinterrupted, hproducer, fun _ => rfl, by simp⟩
  | setTimeout hpc =>
      have hexpired := hs.setting hpc
      refine ⟨hcancel, hinterrupted, hproducer, by simp, fun hquiet => ?_⟩
      simp [Quiet, hexpired] at hquiet
  | timeoutCancel hpc =>
      exact ⟨fun hquiet _ => hcancel hquiet (hcancelling hquiet hpc), hinterrupted, hproducer,
        by simp, by simp⟩
  | interruptTask htask hset =>
      refine ⟨hcancel, fun hquiet _ => ?_, hproducer, hs.setting, hcancelling⟩
      rcases hs.cancel (hbefore hquiet) hset with hreached | hwork
      · exact hreached
      · rw [hwork.queued] at htask
        simp at htask
  | cancel =>
      refine ⟨fun hquiet => ?_, hinterrupted, hproducer, hs.setting, fun _ _ => rfl⟩
      simp [Quiet] at hquiet
  | _ => exact ⟨hcancel, hinterrupted, hproducer, hs.setting, hcancelling⟩

theorem quietly {factory : F} (h : Reaches (step pool) (start factory) s) : s.Quietly := by
  have hall := Reaches.invariant
    (P := fun s => s.Counting ∧ s.Control pool ∧ s.Quietly)
    (fun _ _ _ hs hstep =>
      ⟨(move_of_step hstep).counting hs.1, (move_of_step hstep).control hs.1 hs.2.1,
        (move_of_step hstep).quietly hs.2.1 hs.2.2⟩)
    h ⟨start_counting factory, start_control pool factory, start_quietly factory⟩
  exact hall.2.2

/-! ## What callers may rely on -/

/-- A value with a result in the log was drawn. -/
theorem Logged.mem_emitted (hs : s.Logged pool) {value : V} {outcome : WorkerOutcome R E}
    (hmem : (value, outcome) ∈ s.ended) : value ∈ s.emitted := by
  have hcount := hs.balance value
  have hpos : 0 < (s.ended.map Prod.fst).count value :=
    List.count_pos_iff.mpr (List.mem_map.mpr ⟨(value, outcome), hmem, rfl⟩)
  exact List.count_pos_iff.mp (by omega)

/-- When a pool that is left alone runs out of values, its factory returned an empty
batch, the worker calls that ended are those of the drawn values, every one of them is
recorded unless it raised {lit}`Cancelled`, and the target was not reached. -/
theorem out_of_values {factory : F} (hpos : 1 ≤ pool.targetSuccesses)
    (h : Reaches (step pool) (start factory) s) (htarget : s.targetValue = some .producerStopped)
    (hquiet : s.Quiet) :
    s.producer = .done .exhausted ∧ (s.ended.map Prod.fst).Perm s.emitted ∧
      (∀ value result, (value, .returned result) ∈ s.ended → value ∈ s.successes.keys) ∧
      (∀ value excInfo, (value, .raised excInfo) ∈ s.ended → value ∈ s.failures.keys) ∧
      s.successes.len < pool.targetSuccesses := by
  have hcontrol := control h
  have hlogged := logged h
  have hquietly := quietly h
  rcases hcontrol.stopped (Or.inr (Or.inr htarget)) with ⟨hdrained, hreached, hreads⟩
  have hnot : ¬ s.successEventReached = true := by simp [hreached]
  have hdone : s.producer = .done .exhausted := by
    have hisDone := hdrained.producer
    have hfailed := hquiet.2.2
    have hcancelled : s.producer.wasCancelled ≠ true :=
      fun hset => hnot (hquietly.producer hquiet hset)
    cases hpc : s.producer with
    | done reason =>
        rw [hpc] at hfailed hcancelled
        cases reason with
        | exhausted => rfl
        | cancelled => exact absurd rfl hcancelled
        | factoryRaisedCancelled => simp [ProducerPc.failed] at hfailed
        | factoryRaised => simp [ProducerPc.failed] at hfailed
    | _ => simp [hpc, ProducerPc.isDone] at hisDone
  have hidle : ∀ item, ¬ s.Pending item := by
    intro item hpending
    have hheld : s.processor.held = none := by
      revert hreads
      cases s.processor with
      | recordingSuccess value result => simp [ProcessorPc.reads]
      | recordingFailure value excInfo => simp [ProcessorPc.reads]
      | _ => simp [ProcessorPc.held]
    simp [Pending, hdrained.reporting, hdrained.queue, hheld] at hpending
  refine ⟨hdone, ?_, ?_, ?_, hcontrol.few hpos hreached⟩
  · have hinterrupted : s.interrupted = [] := by
      by_contra hne
      exact hnot (hquietly.interrupted hquiet hne)
    have hdropped : s.dropped = [] := by
      by_contra hne
      exact hnot (hcontrol.dropped hne)
    rw [List.perm_iff_count]
    intro value
    have hbalance := hlogged.balance value
    rw [hinterrupted, hdropped, hdrained.queued, hdrained.running, hdone] at hbalance
    simp only [List.count_nil, ProducerPc.drawn] at hbalance
    omega
  · intro value result hmem
    exact (hlogged.returned value result hmem).resolve_right (hidle _)
  · intro value excInfo hmem
    exact (hlogged.raised value excInfo hmem).resolve_right (hidle _)

/-- Under every interleaving: the outcome never changes once it is set; a returned
dictionary has exactly the target number of keys, each of them drawn and mapped to a
result that the worker returned for it; and when a pool that is left alone raises
{lit}`OutOfValues`, the factory returned an empty batch, the worker ended for every drawn
value, every drawn value whose calls did not raise {lit}`Cancelled` is among the successes
or the failures, and there are fewer successes than the target. -/
theorem block_until_target_successes_correct (pool : WorkerPool V R E F I) (factory : F)
    (hpos : 1 ≤ pool.targetSuccesses) (atCheck atGet atRaise : PoolState V R E F)
    (hcheck : Reaches (step pool) (start factory) atCheck)
    (hget : Reaches (step pool) atCheck atGet) (hraise : Reaches (step pool) atGet atRaise) :
    (∀ value, atGet.targetValue = some value → atRaise.targetValue = some value) ∧
    (∀ results, blockUntilTargetSuccesses atCheck atGet atRaise = .returned results →
      results.len = pool.targetSuccesses ∧
        ∀ value result, results.get? value = some result →
          value ∈ atGet.emitted ∧ (value, .returned result) ∈ atGet.ended) ∧
    (∀ failures, blockUntilTargetSuccesses atCheck atGet atRaise = .outOfValues failures →
      atRaise.Quiet →
      atRaise.producer = .done .exhausted ∧
        (atRaise.ended.map Prod.fst).Perm atRaise.emitted ∧
        (∀ value ∈ atRaise.emitted, (value, .raisedCancelled) ∉ atRaise.ended →
          value ∈ atRaise.successes.keys ∨ value ∈ failures.keys) ∧
        atRaise.successes.len < pool.targetSuccesses) := by
  refine ⟨fun value hset => targetValue_stable hset hraise, ?_, ?_⟩
  · intro results hblock
    have hlogged := logged (hcheck.trans hget)
    have htarget : atGet.targetValue = some (.successes results) := by
      unfold blockUntilTargetSuccesses at hblock
      split at hblock
      · simp at hblock
      · split at hblock <;> simp_all
    refine ⟨(hlogged.target results htarget).1, ?_⟩
    intro value result hresult
    have hended := (hlogged.target results htarget).2 value result hresult
    exact ⟨hlogged.mem_emitted hended, hended⟩
  · intro failures hblock hquiet
    have hboth : atGet.targetValue = some .producerStopped ∧ failures = atRaise.failures := by
      unfold blockUntilTargetSuccesses at hblock
      split at hblock
      · simp at hblock
      · split at hblock <;> simp_all
    have htarget := targetValue_stable hboth.1 hraise
    rcases out_of_values hpos ((hcheck.trans hget).trans hraise) htarget hquiet with
      ⟨hdone, hperm, hreturned, hraised, hfew⟩
    refine ⟨hdone, hperm, ?_, hfew⟩
    intro value hmem hcancelled
    rcases List.mem_map.mp (hperm.mem_iff.mpr hmem) with ⟨⟨ended, outcome⟩, hended, rfl⟩
    cases outcome with
    | returned result => exact Or.inl (hreturned _ result hended)
    | raisedCancelled => exact absurd hended hcancelled
    | raised excInfo => exact Or.inr (hboth.2 ▸ hraised _ excInfo hended)

/-- A value is drawn, its worker raises {lit}`Cancelled`, and the values run out. -/
def cancelledRun : List (PoolAction (WorkerOutcome Nat Unit)) :=
  [.producer, .producer, .producer, .producer, .startTask 0, .endWorker 0 .raisedCancelled,
    .reportTask 0, .producer, .producer, .producer, .producer, .producer, .processor,
    .processor, .processor, .processor, .processor, .processor]

/-- A value whose worker raises {lit}`Cancelled` is neither a success nor a failure. -/
theorem cancelled_value_unaccounted :
    ∃ s, run (step (onePool 1)) (start true) cancelledRun = some s ∧
      blockUntilTargetSuccesses s s s = .outOfValues s.failures ∧ s.Quiet ∧
      7 ∈ s.emitted ∧ 7 ∉ s.successes.keys ∧ 7 ∉ s.failures.keys :=
  ⟨_, rfl, rfl, ⟨rfl, rfl, rfl⟩, by decide, by decide, by decide⟩

theorem block_until_target_successes_correct_oneRun :
    ∃ s results, run (step (onePool 1)) (start true) oneRun = some s ∧
      blockUntilTargetSuccesses s s s = .returned results ∧ results.len = 1 ∧
        ∀ value result, results.get? value = some result →
          value ∈ s.emitted ∧ (value, .returned result) ∈ s.ended := by
  have hrun : ∃ s results, run (step (onePool 1)) (start true) oneRun = some s ∧
      blockUntilTargetSuccesses s s s = .returned results :=
    ⟨_, _, rfl, rfl⟩
  rcases hrun with ⟨s, results, hrun, hblock⟩
  have hcorrect := (block_until_target_successes_correct (onePool 1) true (by decide) s s s
    (reaches_of_run hrun) (Reaches.refl s) (Reaches.refl s)).2.1 results hblock
  exact ⟨s, results, hrun, hblock, hcorrect.1, hcorrect.2⟩

end PoolState

end NuLink
