import NuLinkCore.Utilities.WorkerPool.Results

/-!
# Using a worker pool once

A caller starts a pool, blocks until the outcome is set, takes the successes that are
there if the target was not reached, and joins the pool.  The states at which it looks
at the pool are those of one execution; when it joins, all threads have ended.

Several pools may share one value factory, one after the other.  A factory that draws
from a collection without putting anything back hands out every value at most once over
all of them.

Main results:

- Theorem {lit}`PoolState.ended_from_worker`: every ended call is a call of the worker.
- Theorem {lit}`PoolState.len_successes_le`: the successes never outnumber a positive target.
- Theorem {lit}`PoolState.count_ended_add_remaining_le`: what a pool ran its worker on is
  gone from the collection.
- Theorem {lit}`PoolAttempt.result_eq_ok`: with such a factory the attempt does not raise.
-/

namespace NuLink

open Collections Execution

namespace PoolState

variable {V R E F I : Type} [DecidableEq V] {pool : WorkerPool V R E F I}
  {s s' : PoolState V R E F}

/-- Every ended call is a call of the worker on some input. -/
theorem ended_from_worker {factory : F} (h : Reaches (step pool) (start factory) s) :
    ∀ value outcome, (value, outcome) ∈ s.ended → ∃ input, outcome = pool.worker value input := by
  refine Reaches.invariant
    (P := fun s => ∀ value outcome, (value, outcome) ∈ s.ended →
      ∃ input, outcome = pool.worker value input) ?_ h (by simp [start])
  intro s action s' hs hstep value outcome hmem
  cases move_of_step hstep with
  | endWorker input htask =>
      rcases List.mem_append.mp hmem with hold | hnew
      · exact hs value outcome hold
      · rw [List.mem_singleton, Prod.mk.injEq] at hnew
        exact ⟨input, by rw [hnew.1, hnew.2]⟩
  | _ => exact hs value outcome hmem

/-- Ended calls stay in the log. -/
theorem ended_subset_of_reaches (h : Reaches (step pool) s s') : s.ended ⊆ s'.ended := by
  refine Reaches.invariant (P := fun t => s.ended ⊆ t.ended) ?_ h (List.Subset.refl _)
  intro t action t' hsubset hstep
  exact List.Subset.trans hsubset (move_of_step hstep).ended_subset

/-- The processor records nothing after the target was reached. -/
structure Exact (pool : WorkerPool V R E F I) (s : PoolState V R E F) : Prop where
  reached : s.successEventReached = true → s.successes.len = pool.targetSuccesses
  getting : s.processor = .getting → s.successEventReached = false
  recording : ∀ value result, s.processor = .recordingSuccess value result →
    s.successEventReached = false

theorem exact {factory : F} (h : Reaches (step pool) (start factory) s) : s.Exact pool := by
  refine Reaches.invariant (P := Exact pool) ?_ h
    ⟨by simp [start], by simp [start], by simp [start]⟩
  intro s action s' hs hstep
  cases move_of_step hstep with
  | getSuccess hpc => exact ⟨hs.reached, by simp, fun _ _ _ => hs.getting hpc⟩
  | recordLastSuccess hpc hreached hlen => exact ⟨fun _ => hlen, by simp, by simp⟩
  | recordSuccess hpc hlen =>
      have hfalse := hs.recording _ _ hpc
      exact ⟨by simp [hfalse], by simp, by simp⟩
  | checkContinue hpc hreached => exact ⟨hs.reached, fun _ => hreached, by simp⟩
  | _ =>
      exact ⟨hs.reached, by first | exact hs.getting | simp, by first | exact hs.recording | simp⟩

/-- A pool with a positive target never records more successes than that. -/
theorem len_successes_le {factory : F} (hpos : 1 ≤ pool.targetSuccesses)
    (h : Reaches (step pool) (start factory) s) : s.successes.len ≤ pool.targetSuccesses := by
  cases hreached : s.successEventReached with
  | true => exact le_of_eq ((exact h).reached hreached)
  | false => exact le_of_lt ((control h).few hpos hreached)

/-- A pool whose factory has nothing records no success. -/
theorem successes_eq_empty {factory : F} (dry : F → Prop) (hfactory : dry factory)
    (hnothing : ∀ f n, dry f → ∃ f', pool.valueFactory f n = (.batch [], f') ∧ dry f')
    (h : Reaches (step pool) (start factory) s) : s.successes.len = 0 := by
  have hemitted : dry s.factory ∧ s.emitted = [] := by
    refine Reaches.invariant (P := fun s => dry s.factory ∧ s.emitted = []) ?_ h ⟨hfactory, rfl⟩
    intro s action s' hs hstep
    cases move_of_step hstep with
    | @factoryExhausted n _ _ hcall | @factoryBatch n _ _ _ _ hcall
      | @factoryCancelled n _ _ hcall | @factoryRaised n _ _ _ hcall =>
        rcases hnothing s.factory n hs.1 with ⟨f', hbatch, hdry⟩
        rw [hcall] at hbatch
        first
          | exact ⟨(Prod.mk.inj hbatch).2 ▸ hdry, hs.2⟩
          | simp at hbatch
    | _ => exact hs
  have hkeys : s.successes.keys = [] := by
    rw [List.eq_nil_iff_forall_not_mem]
    intro value hmem
    rcases Dict.mem_keys_iff_exists.mp hmem with ⟨result, hget⟩
    have hended := (logged h).mem_emitted ((logged h).successes value result hget)
    simp [hemitted.2] at hended
  rw [← Dict.length_keys, hkeys, List.length_nil]

/-- What the factory returns together with what it still has is related to what it had, for a
relation that appending on the left keeps.  Then so is what a pool has drawn. -/
theorem emitted_append_remaining_rel {remaining : F → List V} {r : List V → List V → Prop}
    (hrefl : ∀ l, r l l) (htrans : ∀ {l₁ l₂ l₃}, r l₁ l₂ → r l₂ l₃ → r l₁ l₃)
    (happend : ∀ l {l₁ l₂}, r l₁ l₂ → r (l ++ l₁) (l ++ l₂))
    (hdraws : ∀ factory n, ∃ batch factory', pool.valueFactory factory n =
      (.batch batch, factory') ∧ r (batch ++ remaining factory') (remaining factory))
    {factory : F} (h : Reaches (step pool) (start factory) s) :
    r (s.emitted ++ remaining s.factory) (remaining factory) := by
  refine Reaches.invariant
    (P := fun s => r (s.emitted ++ remaining s.factory) (remaining factory)) ?_ h (hrefl _)
  intro s action s' hs hstep
  cases move_of_step hstep with
  | @factoryExhausted n _ _ hcall =>
      rcases hdraws s.factory n with ⟨batch, factory', hbatch, hdrawn⟩
      rw [hcall] at hbatch
      simp only [Prod.mk.injEq, FactoryOutcome.batch.injEq] at hbatch
      rw [← hbatch.1, ← hbatch.2, List.nil_append] at hdrawn
      exact htrans (happend s.emitted hdrawn) hs
  | @factoryBatch n _ _ _ _ hcall =>
      rcases hdraws s.factory n with ⟨batch, factory', hbatch, hdrawn⟩
      rw [hcall] at hbatch
      simp only [Prod.mk.injEq, FactoryOutcome.batch.injEq] at hbatch
      rw [← hbatch.1, ← hbatch.2] at hdrawn
      simp only [List.append_assoc]
      exact htrans (happend s.emitted hdrawn) hs
  | @factoryCancelled n _ _ hcall | @factoryRaised n _ _ _ hcall =>
      rcases hdraws s.factory n with ⟨batch, factory', hbatch, -⟩
      simp [hcall] at hbatch
  | _ => exact hs

/-- The factory never raises, and what it returns is taken out of a collection. -/
def DrawsFrom (pool : WorkerPool V R E F I) (remaining : F → List V) : Prop :=
  ∀ factory n, ∃ batch factory', pool.valueFactory factory n = (.batch batch, factory') ∧
    (batch ++ remaining factory').Perm (remaining factory)

section Drawing

variable {remaining : F → List V} (hdraws : DrawsFrom pool remaining)

include hdraws

/-- What was drawn and what remains is what there was. -/
theorem emitted_append_remaining_perm {factory : F}
    (h : Reaches (step pool) (start factory) s) :
    (s.emitted ++ remaining s.factory).Perm (remaining factory) :=
  emitted_append_remaining_rel (r := List.Perm) List.Perm.refl List.Perm.trans
    (fun l _ _ h => h.append_left l) hdraws h

/-- What a pool ran its worker on is gone from the collection. -/
theorem count_ended_add_remaining_le {factory : F} (h : Reaches (step pool) (start factory) s)
    (value : V) :
    (s.ended.map Prod.fst).count value + (remaining s.factory).count value ≤
      (remaining factory).count value := by
  have hperm := (emitted_append_remaining_perm hdraws h).count_eq value
  have hbalance := (logged h).balance value
  rw [List.count_append] at hperm
  omega

theorem producerError_eq_none {factory : F} (h : Reaches (step pool) (start factory) s) :
    s.producerError = none := by
  have hboth := Reaches.invariant
    (P := fun s => s.producerError = none ∧ ∀ excInfo, s.producer ≠ .settingError excInfo) ?_ h
    (by simp [start])
  · exact hboth.1
  · intro s action s' hs hstep
    cases move_of_step hstep with
    | @factoryRaised n _ _ _ hcall =>
        rcases hdraws s.factory n with ⟨batch, factory', hbatch, -⟩
        simp [hcall] at hbatch
    | setError hpc => exact absurd hpc (hs.2 _)
    | _ => exact ⟨hs.1, by first | exact hs.2 | simp⟩

end Drawing

end PoolState

/-- Whether the processor has ended. -/
def ProcessorPc.isDone {V R E : Type} : ProcessorPc V R E → Bool
  | .done => true
  | _ => false

/-- Whether the outcome of a pool is set and all its threads have ended. -/
def PoolState.hasEnded {V R E F : Type} (s : PoolState V R E F) : Bool :=
  s.targetValue.isSome && s.producer.isDone && s.processor.isDone &&
    decide (s.timeout = .done)

theorem PoolState.hasEnded_iff {V R E F : Type} {s : PoolState V R E F} :
    s.hasEnded = true ↔ s.targetValue.isSome = true ∧ s.producer.isDone = true ∧
      s.processor = .done ∧ s.timeout = .done := by
  have hprocessor : s.processor.isDone = true ↔ s.processor = .done := by
    cases s.processor <;> simp [ProcessorPc.isDone]
  simp only [hasEnded, Bool.and_eq_true, decide_eq_true_eq, hprocessor, and_assoc]

/-- One use of a pool: the states in which the caller looks for an error, reads the
outcome, reads the failures and the successes, and has joined all threads. -/
structure PoolAttempt {V R E F I : Type} [DecidableEq V] (pool : WorkerPool V R E F I)
    (factory : F) where
  atCheck : PoolState V R E F
  atGet : PoolState V R E F
  atRaise : PoolState V R E F
  atSuccesses : PoolState V R E F
  atEnd : PoolState V R E F
  started : Reaches (PoolState.step pool) (PoolState.start factory) atCheck
  waited : Reaches (PoolState.step pool) atCheck atGet
  raised : Reaches (PoolState.step pool) atGet atRaise
  read : Reaches (PoolState.step pool) atRaise atSuccesses
  joined : Reaches (PoolState.step pool) atSuccesses atEnd
  settled : atGet.targetValue.isSome = true
  producerEnded : atEnd.producer.isDone = true
  processorEnded : atEnd.processor = .done
  timeoutEnded : atEnd.timeout = .done

namespace PoolAttempt

variable {V R E F I : Type} [DecidableEq V] {pool : WorkerPool V R E F I} {factory : F}

/-- An attempt whose caller looks at the pool only when it has ended. -/
def ofReaches {last : PoolState V R E F}
    (h : Reaches (PoolState.step pool) (PoolState.start factory) last)
    (hended : last.hasEnded = true) : PoolAttempt pool factory where
  atCheck := last
  atGet := last
  atRaise := last
  atSuccesses := last
  atEnd := last
  started := h
  waited := Reaches.refl last
  raised := Reaches.refl last
  read := Reaches.refl last
  joined := Reaches.refl last
  settled := (PoolState.hasEnded_iff.mp hended).1
  producerEnded := (PoolState.hasEnded_iff.mp hended).2.1
  processorEnded := (PoolState.hasEnded_iff.mp hended).2.2.1
  timeoutEnded := (PoolState.hasEnded_iff.mp hended).2.2.2

/-- The attempt of a concrete sequence of actions. -/
def ofRun (pool : WorkerPool V R E F I) (factory : F) (actions : List (PoolAction I))
    (h : (run (PoolState.step pool) (PoolState.start factory) actions).any
      PoolState.hasEnded = true) : PoolAttempt pool factory :=
  ofReaches (reaches_of_run (Option.some_get (Option.isSome_of_any h)).symm)
    (Option.get_of_any_eq_true _ _ h)

/-- The result of the attempt: the dictionary that reached the target, or else the
successes so far; an error of the producer is raised instead. -/
def result (attempt : PoolAttempt pool factory) : Except E (Dict V R) :=
  match PoolState.blockUntilTargetSuccesses attempt.atCheck attempt.atGet attempt.atRaise with
  | .producerError excInfo => .error excInfo
  | .returned successes =>
      match attempt.atEnd.producerError with
      | some excInfo => .error excInfo
      | none => .ok successes
  | _ =>
      match attempt.atEnd.producerError with
      | some excInfo => .error excInfo
      | none => .ok attempt.atSuccesses.successes

/-- The number of successes that the caller gets. -/
def reported (attempt : PoolAttempt pool factory) : Nat :=
  match attempt.result with
  | .ok successes => successes.len
  | .error _ => 0

theorem reported_of_result {attempt : PoolAttempt pool factory} {successes : Dict V R}
    (hresult : attempt.result = .ok successes) : attempt.reported = successes.len := by
  rw [reported, hresult]

theorem reaches_atEnd (attempt : PoolAttempt pool factory) :
    Reaches (PoolState.step pool) (PoolState.start factory) attempt.atEnd :=
  (((attempt.started.trans attempt.waited).trans attempt.raised).trans attempt.read).trans
    attempt.joined

/-- Every success that the attempt reports is a call that returned. -/
theorem returned_of_result {attempt : PoolAttempt pool factory} {successes : Dict V R}
    (hresult : attempt.result = .ok successes) {value : V} {returned : R}
    (hget : successes.get? value = some returned) :
    (value, .returned returned) ∈ attempt.atEnd.ended := by
  have hgetReach := attempt.started.trans attempt.waited
  have hreadReach := (hgetReach.trans attempt.raised).trans attempt.read
  unfold result at hresult
  split at hresult
  · simp at hresult
  · rename_i results hblock
    -- The outcome was set to a dictionary of the processor.
    have htarget : attempt.atGet.targetValue = some (.successes results) := by
      unfold PoolState.blockUntilTargetSuccesses at hblock
      split at hblock
      · simp at hblock
      · split at hblock <;> simp_all
    have heq : results = successes := by
      split at hresult <;> simp at hresult
      exact hresult
    have hlogged := (PoolState.logged hgetReach).target results htarget
    exact PoolState.ended_subset_of_reaches
      ((attempt.raised.trans attempt.read).trans attempt.joined)
      (hlogged.2 value returned (heq ▸ hget))
  · have heq : attempt.atSuccesses.successes = successes := by
      split at hresult <;> simp at hresult
      exact hresult
    have hlogged := (PoolState.logged hreadReach).successes value returned (heq ▸ hget)
    exact PoolState.ended_subset_of_reaches attempt.joined hlogged

/-- With a factory that draws from a collection the attempt does not raise. -/
theorem result_eq_ok {remaining : F → List V} (hdraws : PoolState.DrawsFrom pool remaining)
    (attempt : PoolAttempt pool factory) : ∃ successes, attempt.result = .ok successes := by
  have hcheck := PoolState.producerError_eq_none hdraws attempt.started
  have hend := PoolState.producerError_eq_none hdraws attempt.reaches_atEnd
  unfold result
  rw [hend]
  split
  · rename_i excInfo hblock
    unfold PoolState.blockUntilTargetSuccesses at hblock
    rw [hcheck] at hblock
    simp only at hblock
    split at hblock <;> simp at hblock
  · exact ⟨_, rfl⟩
  · exact ⟨_, rfl⟩

end PoolAttempt

end NuLink
