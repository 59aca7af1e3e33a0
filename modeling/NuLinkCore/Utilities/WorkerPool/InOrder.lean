import NuLinkCore.Utilities.WorkerPool.Attempt

/-!
# Values handed out in order

A value factory may hand out a list from its front, in batches of any size.  A pool then draws
the values in the order of the list, and a producer that is left alone draws all of them.

Main results:

- Theorem {lit}`PoolState.emitted_append_remaining_eq`: what a pool has drawn is a front part of
  the list.
- Theorem {lit}`PoolState.exists_reaches_drained`: a pool can draw the whole list.
-/

namespace NuLink

open Collections Execution

namespace PoolState

variable {V R E F I : Type} [DecidableEq V] {pool : WorkerPool V R E F I}
  {s : PoolState V R E F} {remaining : F → List V}

/-- The factory never raises, and hands out a list from its front. -/
def DrawsInOrder (pool : WorkerPool V R E F I) (remaining : F → List V) : Prop :=
  ∀ factory n, ∃ batch factory', pool.valueFactory factory n = (.batch batch, factory') ∧
    batch ++ remaining factory' = remaining factory

/-- What a pool has drawn is a front part of the list. -/
theorem emitted_append_remaining_eq (hdraws : DrawsInOrder pool remaining) {factory : F}
    (h : Reaches (step pool) (start factory) s) :
    s.emitted ++ remaining s.factory = remaining factory :=
  emitted_append_remaining_rel (r := Eq) (fun _ => rfl) Eq.trans
    (fun l _ _ h => congrArg (l ++ ·) h) hdraws h

/-! ## A producer that is left alone -/

/-- The second state is the first one with the producer elsewhere and further tasks submitted:
nothing that decides about later batches has changed. -/
structure Undisturbed (s s' : PoolState V R E F) : Prop where
  factory : s'.factory = s.factory
  successes : s'.successes = s.successes
  cancelEvent : s'.cancelEvent = s.cancelEvent

theorem reaches_of_producer {s' : PoolState V R E F} (h : s.stepProducer pool = some s') :
    Reaches (step pool) s s' :=
  Relation.ReflTransGen.single ⟨.producer, h⟩

/-- The producer submits a batch and goes to sleep. -/
theorem exists_reaches_sleeping {values : List V} (hpc : s.producer = .submitting values) :
    ∃ s', Reaches (step pool) s s' ∧ s'.producer = .sleeping ∧ s.Undisturbed s' := by
  induction values generalizing s with
  | nil =>
      refine ⟨{ s with producer := .sleeping }, reaches_of_producer ?_, rfl, rfl, rfl, rfl⟩
      simp only [stepProducer, hpc]
  | cons value values ih =>
      have hsubmit : ∃ s', s.stepProducer pool = some s' ∧
          s'.producer = .submitting values ∧ s.Undisturbed s' := by
        simp only [stepProducer, hpc]
        split
        · exact ⟨_, rfl, rfl, rfl, rfl, rfl⟩
        · exact ⟨_, rfl, rfl, rfl, rfl, rfl⟩
      rcases hsubmit with ⟨s', hstep, hpc', hsame⟩
      rcases ih hpc' with ⟨last, hlast, hsleeping, hsame'⟩
      exact ⟨last, (reaches_of_producer hstep).trans hlast, hsleeping,
        hsame'.factory.trans hsame.factory, hsame'.successes.trans hsame.successes,
        hsame'.cancelEvent.trans hsame.cancelEvent⟩

/-- The producer draws a batch and comes back to the start of its loop. -/
theorem exists_reaches_nextRound (hpc : s.producer = .readingSuccesses)
    (hcancel : s.cancelEvent = false) {value : V} {values : List V} {factory : F}
    (hcall : pool.valueFactory s.factory s.successes.len = (.batch (value :: values), factory)) :
    ∃ s', Reaches (step pool) s s' ∧ s'.producer = .readingSuccesses ∧ s'.cancelEvent = false ∧
      s'.successes = s.successes ∧ s'.factory = factory := by
  let called : PoolState V R E F := { s with producer := .callingFactory s.successes.len }
  let counting : PoolState V R E F :=
    { s with
      factory
      producer := .countingBatch (value :: values)
      emitted := s.emitted ++ value :: values }
  let submitting : PoolState V R E F :=
    { counting with
      startedTasks := s.startedTasks + (value :: values).length
      producer := .submitting (value :: values) }
  have hcalled : Reaches (step pool) s called :=
    reaches_of_producer (by simp only [stepProducer, hpc, called])
  have hcounting : Reaches (step pool) called counting :=
    reaches_of_producer (by simp only [stepProducer, called, counting, hcall])
  have hsubmitting : Reaches (step pool) counting submitting :=
    reaches_of_producer (by simp only [stepProducer, counting, submitting])
  obtain ⟨asleep, hasleep, hsleeping, hsame⟩ : ∃ asleep, Reaches (step pool) submitting asleep ∧
      asleep.producer = .sleeping ∧ submitting.Undisturbed asleep :=
    exists_reaches_sleeping rfl
  have hawake : asleep.cancelEvent = false := hsame.cancelEvent.trans hcancel
  refine ⟨{ asleep with producer := .readingSuccesses },
    (((hcalled.trans hcounting).trans hsubmitting).trans hasleep).trans
      (reaches_of_producer (by simp only [stepProducer, hsleeping, hawake, Bool.false_eq_true,
        if_false])), rfl, hawake, hsame.successes, hsame.factory⟩

/-- A pool whose factory hands out something as long as it has something can draw the whole
list. -/
theorem exists_reaches_drained (hdraws : DrawsInOrder pool remaining) {ready : F → Prop}
    (hkeep : ∀ factory n, ready factory → ready (pool.valueFactory factory n).2)
    (hsome : ∀ factory batch factory', ready factory → remaining factory ≠ [] →
      pool.valueFactory factory s.successes.len = (.batch batch, factory') → batch ≠ [])
    (hready : ready s.factory) (hpc : s.producer = .readingSuccesses)
    (hcancel : s.cancelEvent = false) :
    ∃ s', Reaches (step pool) s s' ∧ remaining s'.factory = [] := by
  induction hlength : (remaining s.factory).length using Nat.strong_induction_on
    generalizing s with
  | _ n ih =>
      by_cases hempty : remaining s.factory = []
      · exact ⟨s, Reaches.refl s, hempty⟩
      · rcases hdraws s.factory s.successes.len with ⟨batch, factory', hcall, hsplit⟩
        cases batch with
        | nil => exact absurd rfl (hsome _ _ _ hready hempty hcall)
        | cons value values =>
            rcases exists_reaches_nextRound hpc hcancel hcall with
              ⟨next, hnext, hpc', hcancel', hsuccesses, hfactory⟩
            have hshorter : (remaining next.factory).length < n := by
              rw [hfactory, ← hlength, ← hsplit, List.length_append, List.length_cons]
              omega
            have hready' : ready next.factory := by
              have hnextReady := hkeep s.factory s.successes.len hready
              rw [hcall] at hnextReady
              rw [hfactory]
              exact hnextReady
            rcases ih _ hshorter (hsuccesses ▸ hsome) hready' hpc' hcancel' rfl with
              ⟨last, hlast, hdrained⟩
            exact ⟨last, hnext.trans hlast, hdrained⟩

/-- A list that is drawn to its end stays so. -/
theorem drained_of_reaches (hdraws : DrawsInOrder pool remaining) {s' : PoolState V R E F}
    (h : Reaches (step pool) s s') (hdrained : remaining s.factory = []) :
    remaining s'.factory = [] := by
  have hcalled : ∀ {f f' : F} {n : Nat} {outcome : FactoryOutcome V E}, remaining f = [] →
      pool.valueFactory f n = (outcome, f') → remaining f' = [] := by
    intro f f' n outcome hempty hcall
    rcases hdraws f n with ⟨batch, f'', hbatch, hsplit⟩
    rw [hcall] at hbatch
    rw [← (Prod.mk.inj hbatch).2, hempty] at hsplit
    exact (List.append_eq_nil_iff.mp hsplit).2
  refine Reaches.invariant (P := fun t => remaining t.factory = []) ?_ h hdrained
  intro t action t' ht hstep
  cases move_of_step hstep with
  | factoryExhausted hpc hcall => exact hcalled ht hcall
  | factoryBatch hpc hcall => exact hcalled ht hcall
  | factoryCancelled hpc hcall => exact hcalled ht hcall
  | factoryRaised hpc hcall => exact hcalled ht hcall
  | _ => exact ht

end PoolState

end NuLink
