import NuLinkCore.Blockchain.WorkTracker.Model

/-!
# The firing discipline of the work tracker

Every cycle calls {lit}`_fire_commitment` at most once, and only after the requirement said
that there is work.  As long as the mempool never holds more transactions than the tracker
knows of, the pending transactions are the last one fired, until its receipt is seen; a
second one is fired only after that or after the maximal confirmation time.

Main results:

- Theorem {lit}`attempts_of_doWork`: one call per cycle, under the requirement.
- Theorem {lit}`Last.step`: what one cycle does to the only pending transaction.
- Theorem {lit}`workCycles_discipline`: both, over whole runs.
-/

namespace NuLink

open Collections

universe u

variable {Tx : Type u}

/-! ## One attempt per cycle -/

/-- A cycle fires at most once, after the requirement held; a first firing comes after it
held once more, for a bonded operator. -/
theorem attempts_of_doWork (strategy : GasStrategy) (pending : PendingTransactions Tx)
    (obs : Observation Tx) :
    (doWork strategy pending obs).work.attempts.length ≤ 1 ∧
    ((doWork strategy pending obs).work.attempts ≠ [] →
      shouldDoWorkNow obs.requirement = some true ∧
      ∃ tracking, (doWork strategy pending obs).tracking = some tracking ∧
        (tracking.result = false →
          shouldDoWorkNow obs.requirementAgain = some true ∧ obs.bonded = some true)) := by
  rcases doWork_cases strategy pending obs with
    ⟨ending, heq⟩ | ⟨ending, heq⟩ | ⟨tracking, block, hneeded, -, -, -, heq⟩
  · simp [heq, Work.idle]
  · simp [heq, Work.idle]
  · rw [heq]
    cases hresult : tracking.result with
    | true =>
        have hone : (handleReplacementCommitment strategy obs.firing tracking.tracked
            block).attempts.length ≤ 1 := by
          rcases handleReplacementCommitment_cases strategy obs.firing tracking.tracked block rfl with
            ⟨hone, -⟩ | ⟨oldest, items, txhash, -, -, -, hwork⟩
          · exact hone
          · simp [hwork]
        exact ⟨hone, fun _ => ⟨hneeded, tracking, rfl, fun hfalse => by simp [hresult] at hfalse⟩⟩
    | false =>
        rcases fireFirstCommitment_cases obs tracking.tracked block rfl with
          ⟨hattempts, -⟩ | ⟨hagain, hbonded, hattempts, -⟩
        · simp [hattempts]
        · exact ⟨by simp [hattempts], fun _ => ⟨hneeded, tracking, rfl, fun _ => ⟨hagain, hbonded⟩⟩⟩

/-! ## The only pending transaction -/

/-- The mempool holds no more transactions than are tracked. -/
def Cycle.MempoolWithin (cycle : Cycle Tx) : Prop :=
  ∀ tracking, cycle.tracking = some tracking → tracking.txsInMempool ≤ tracking.unmined.len

/-- Nothing is pending but the given transaction, fired at the given block. -/
def Last (pending : PendingTransactions Tx) (last : Option (Nat × Tx)) : Prop :=
  pending.entries = last.toList.map (fun e => (e.1, .sent e.2))

/-- At least the maximal confirmation time has passed between two firings. -/
def Waited (strategy : GasStrategy) (earlier later : Nat) : Prop :=
  ∃ time, strategy.maxConfirmationTime = some time ∧
    time ≤ ((later : Int) - earlier) * averageBlockTimeInSeconds

theorem Last.empty : Last (Dict.empty : PendingTransactions Tx) none :=
  rfl

theorem Last.len_le {pending : PendingTransactions Tx} {last : Option (Nat × Tx)}
    (h : Last pending last) : pending.len ≤ 1 := by
  cases last with
  | none => simp [Dict.len, show pending.entries = [] from h]
  | some e => simp [Dict.len, show pending.entries = [(e.1, .sent e.2)] from h]

theorem Last.sortedItems_eq {pending : PendingTransactions Tx} {last : Option (Nat × Tx)}
    (h : Last pending last) : sortedItems pending = pending.entries := by
  cases last with
  | none => simp [sortedItems, show pending.entries = [] from h]
  | some e => simp [sortedItems, show pending.entries = [(e.1, .sent e.2)] from h]

/-- The receipts leave the transaction, or confirm it. -/
theorem Last.sweep {pending : PendingTransactions Tx} {last : Option (Nat × Tx)}
    (h : Last pending last) (obs : Observation Tx) :
    Last (sweepReceipts obs pending).pending last ∨
    (Last (sweepReceipts obs pending).pending none ∧
      ∀ e, last = some e → e.2 ∈ (sweepReceipts obs pending).confirmed) := by
  rw [sweepReceipts, h.sortedItems_eq]
  cases last with
  | none =>
      left
      rw [show pending.entries = [] from h]
      exact h
  | some e =>
      have hentries : pending.entries = [(e.1, .sent e.2)] := h
      rw [hentries, dropMined]
      cases hreply : obs.receipt e.2 with
      | notFound => exact Or.inl h
      | raised => exact Or.inl h
      | found =>
          right
          constructor
          · simp [dropMined, Last, Dict.erase, hentries]
          · intro e' he'
            simp [dropMined, Option.some.inj he']

/-- Within the mempool's count no marker is set. -/
theorem trackPendingCommitments_of_le {obs : Observation Tx} {unmined : PendingTransactions Tx}
    {tracking : Tracking Tx} (h : trackPendingCommitments obs unmined = some tracking)
    (hle : tracking.txsInMempool ≤ tracking.unmined.len) :
    tracking.tracked = unmined ∧ tracking.result = decide (unmined.len ≠ 0) := by
  rcases trackPendingCommitments_cases h with ⟨count, -, ⟨-, heq⟩ | ⟨hlt, heq⟩⟩
  · simp [heq]
  · simp only [heq] at hle
    omega

/-- A waiting transaction is replaced after the maximal confirmation time. -/
theorem Last.replacement {pending : PendingTransactions Tx} {e : Nat × Tx}
    (h : Last pending (some e)) (strategy : GasStrategy) (firing : Firing Tx) (block : Nat) :
    ((handleReplacementCommitment strategy firing pending block).fired = none ∧
      (handleReplacementCommitment strategy firing pending block).pending = pending) ∨
    (∃ new,
      (handleReplacementCommitment strategy firing pending block).fired = some new ∧
      Last (handleReplacementCommitment strategy firing pending block).pending (some new) ∧
      Waited strategy e.1 new.1) := by
  have hentries : pending.entries = [(e.1, .sent e.2)] := h
  rcases handleReplacementCommitment_cases strategy firing pending block rfl with
    ⟨-, hfired, -, hpending⟩ | ⟨oldest, items, txhash, hitems, hdue, -, hwork⟩
  · exact Or.inl ⟨hfired, hpending⟩
  · rw [h.sortedItems_eq, hentries] at hitems
    have holdest : oldest = (e.1, .sent e.2) := (List.cons.inj hitems).1.symm
    subst holdest
    simp only [replacementDue, Option.bind_eq_bind, Option.bind_eq_some_iff, Option.pure_def,
      Option.some.injEq, Bool.not_eq_true', decide_eq_false_iff_not, not_lt] at hdue
    rcases hdue with ⟨time, htime, hle⟩
    have hpos := GasStrategy.maxConfirmationTime_pos htime
    -- A positive maximal time keeps the replacement out of the block of the oldest one.
    have hne : e.1 ≠ block := by
      intro heq
      rw [heq, averageBlockTimeInSeconds] at hle
      omega
    rw [hwork]
    refine Or.inr ⟨(block, txhash), rfl, ?_, time, htime, hle⟩
    simp [Last, Dict.erase, Dict.set, hentries, Dict.setEntries, hne, hne.symm]

theorem Last.first {pending : PendingTransactions Tx}
    (h : Last pending none) (obs : Observation Tx) (block : Nat) :
    ((fireFirstCommitment obs pending block).fired = none ∧
      (fireFirstCommitment obs pending block).pending = pending) ∨
    (∃ new, (fireFirstCommitment obs pending block).fired = some new ∧
      Last (fireFirstCommitment obs pending block).pending (some new)) := by
  have hentries : pending.entries = [] := h
  rcases fireFirstCommitment_cases obs pending block rfl with
    ⟨-, hfired, -, hpending⟩ | ⟨-, -, -, -, ⟨hfired, hpending⟩ | ⟨txhash, hfired, hpending⟩⟩
  · exact Or.inl ⟨hfired, hpending⟩
  · exact Or.inl ⟨hfired, hpending⟩
  · refine Or.inr ⟨(block, txhash), hfired, ?_⟩
    simp [hpending, Last, Dict.set, hentries, Dict.setEntries]

/-- What a cycle may do to the last transaction that is not confirmed: leave it, see its
receipt, or fire a new one after its receipt or its time. -/
inductive LastStep (strategy : GasStrategy) (last : Option (Nat × Tx)) (cycle : Cycle Tx) :
    Option (Nat × Tx) → Prop where
  | waits (hfired : cycle.work.fired = none) : LastStep strategy last cycle last
  | confirmed (hfired : cycle.work.fired = none)
      (hseen : ∀ e, last = some e → e.2 ∈ cycle.confirmed) : LastStep strategy last cycle none
  | fires (new : Nat × Tx) (hfired : cycle.work.fired = some new)
      (hbefore : ∀ e, last = some e → e.2 ∈ cycle.confirmed ∨ Waited strategy e.1 new.1) :
      LastStep strategy last cycle (some new)

/-- While the mempool is within its count, every cycle is such a step. -/
theorem Last.step {strategy : GasStrategy} {pending : PendingTransactions Tx}
    {last : Option (Nat × Tx)} (h : Last pending last) (obs : Observation Tx)
    (hwithin : (doWork strategy pending obs).MempoolWithin) :
    ∃ last', LastStep strategy last (doWork strategy pending obs) last' ∧
      Last (doWork strategy pending obs).work.pending last' := by
  rcases doWork_cases strategy pending obs with
    ⟨ending, heq⟩ | ⟨ending, heq⟩ | ⟨tracking, block, -, -, -, htrack, heq⟩
  · exact ⟨last, .waits (by rw [heq]; rfl), by rw [heq]; exact h⟩
  · rcases h.sweep obs with hkept | ⟨hgone, hseen⟩
    · exact ⟨last, .waits (by rw [heq]; rfl), by rw [heq]; exact hkept⟩
    · exact ⟨none, .confirmed (by rw [heq]; rfl) (by rw [heq]; exact hseen),
        by rw [heq]; exact hgone⟩
  · rw [heq] at hwithin ⊢
    rcases trackPendingCommitments_of_le htrack (hwithin tracking rfl) with ⟨htracked, hresult⟩
    rw [htracked, hresult]
    have hfirst : Last (sweepReceipts obs pending).pending none →
        (∀ e, last = some e → e.2 ∈ (sweepReceipts obs pending).confirmed) →
        ∃ last', LastStep strategy last ⟨obs, (sweepReceipts obs pending).confirmed,
            some tracking, fireFirstCommitment obs
              (sweepReceipts obs pending).pending block⟩ last' ∧
          Last (fireFirstCommitment obs
            (sweepReceipts obs pending).pending block).pending last' := by
      intro hnone hseen
      rcases hnone.first obs block with ⟨hfired, hpending⟩ | ⟨new, hfired, hnew⟩
      · exact ⟨none, .confirmed hfired hseen, by rwa [hpending]⟩
      · exact ⟨some new, .fires new hfired (fun e he => Or.inl (hseen e he)), hnew⟩
    have hlen : ∀ l, Last (sweepReceipts obs pending).pending l →
        (sweepReceipts obs pending).pending.len = l.toList.length := by
      intro l hl
      rw [Dict.len, show _ = _ from hl, List.length_map]
    rcases h.sweep obs with hkept | ⟨hgone, hseen⟩
    · cases last with
      | none =>
          rw [hlen _ hkept]
          exact hfirst hkept (by simp)
      | some e =>
          rw [hlen _ hkept]
          rcases hkept.replacement strategy obs.firing block with
            ⟨hfired, hpending⟩ | ⟨new, hfired, hnew, hwaited⟩
          · exact ⟨some e, .waits hfired, by simpa [hpending] using hkept⟩
          · exact ⟨some new, .fires new hfired
              (fun e' he' => Or.inr (Option.some.inj he' ▸ hwaited)), hnew⟩
    · rw [hlen _ hgone]
      exact hfirst hgone hseen

/-! ## Whole runs -/

/-- A firing makes the transaction the last one. -/
theorem LastStep.eq_of_fired {strategy : GasStrategy} {last last' : Option (Nat × Tx)}
    {cycle : Cycle Tx} (h : LastStep strategy last cycle last') {e : Nat × Tx}
    (hfired : cycle.work.fired = some e) : last' = some e := by
  cases h with
  | waits hnone => simp [hnone] at hfired
  | confirmed hnone => simp [hnone] at hfired
  | fires new hnew => exact hnew.symm.trans hfired

section Runs

variable {strategy : GasStrategy} {pending : PendingTransactions Tx} {last : Option (Nat × Tx)}
  {observations : List (Observation Tx)}

theorem attempts_of_mem_workCycles {cycle : Cycle Tx}
    (hmem : cycle ∈ workCycles strategy pending observations) :
    cycle.work.attempts.length ≤ 1 ∧
    (cycle.work.attempts ≠ [] →
      shouldDoWorkNow cycle.observation.requirement = some true ∧
      ∃ tracking, cycle.tracking = some tracking ∧
        (tracking.result = false →
          shouldDoWorkNow cycle.observation.requirementAgain = some true ∧
          cycle.observation.bonded = some true)) := by
  induction observations generalizing pending with
  | nil => simp [workCycles] at hmem
  | cons obs rest ih =>
      rcases List.mem_cons.mp hmem with hself | hrest
      · subst hself
        rw [doWork_observation]
        exact attempts_of_doWork strategy pending obs
      · exact ih hrest

/-- In a run within the mempool's count at most one transaction is pending. -/
theorem Last.len_le_of_mem (h : Last pending last)
    (hwithin : ∀ cycle ∈ workCycles strategy pending observations, cycle.MempoolWithin)
    {cycle : Cycle Tx} (hmem : cycle ∈ workCycles strategy pending observations) :
    cycle.work.pending.len ≤ 1 := by
  induction observations generalizing pending last with
  | nil => simp [workCycles] at hmem
  | cons obs rest ih =>
      rcases h.step obs (hwithin _ List.mem_cons_self) with ⟨last', -, hnext⟩
      rcases List.mem_cons.mp hmem with hself | hrest
      · exact hself ▸ hnext.len_le
      · exact ih hnext (fun c hc => hwithin c (List.mem_cons_of_mem _ hc)) hrest

/-- The first firing of a run comes after the receipt of the pending transaction or after
its time. -/
theorem Last.first_fired {e : Nat × Tx} (h : Last pending (some e))
    (hwithin : ∀ cycle ∈ workCycles strategy pending observations, cycle.MempoolWithin)
    {j : Nat} {later : Cycle Tx} {e' : Nat × Tx}
    (hlater : (workCycles strategy pending observations)[j]? = some later)
    (hfired : later.work.fired = some e')
    (hfirst : ∀ k cycle, k < j → (workCycles strategy pending observations)[k]? = some cycle →
      cycle.work.fired = none) :
    (∃ k cycle, k ≤ j ∧ (workCycles strategy pending observations)[k]? = some cycle ∧
      e.2 ∈ cycle.confirmed) ∨ Waited strategy e.1 e'.1 := by
  induction observations generalizing pending j with
  | nil => simp [workCycles] at hlater
  | cons obs rest ih =>
      rcases h.step obs (hwithin _ List.mem_cons_self) with ⟨last', hstep, hnext⟩
      cases j with
      | zero =>
          have hself : doWork strategy pending obs = later := by
            simpa [workCycles] using hlater
          subst hself
          cases hstep with
          | waits hnone => simp [hnone] at hfired
          | confirmed hnone => simp [hnone] at hfired
          | fires new hnew hbefore =>
              have hsame : new = e' := Option.some.inj (hnew.symm.trans hfired)
              subst hsame
              rcases hbefore e rfl with hseen | hwaited
              · exact Or.inl ⟨0, _, le_rfl, rfl, hseen⟩
              · exact Or.inr hwaited
      | succ j =>
          have hnone : (doWork strategy pending obs).work.fired = none :=
            hfirst 0 _ (Nat.succ_pos j) rfl
          cases hstep with
          | waits =>
              rcases ih hnext (fun c hc => hwithin c (List.mem_cons_of_mem _ hc)) hlater
                  (fun k c hk hc => hfirst (k + 1) c (by omega) hc) with
                ⟨k, cycle, hk, hget, hseen⟩ | hwaited
              · exact Or.inl ⟨k + 1, cycle, by omega, hget, hseen⟩
              · exact Or.inr hwaited
          | confirmed _ hseen => exact Or.inl ⟨0, _, Nat.zero_le _, rfl, hseen e rfl⟩
          | fires new hnew => simp [hnone] at hnew

/-- Between two successive firings the receipt of the earlier transaction is seen, or the
maximal confirmation time passes. -/
theorem Last.successive_fired (h : Last pending last)
    (hwithin : ∀ cycle ∈ workCycles strategy pending observations, cycle.MempoolWithin)
    {i j : Nat} {earlier later : Cycle Tx} {e e' : Nat × Tx} (hij : i < j)
    (hearlier : (workCycles strategy pending observations)[i]? = some earlier)
    (hlater : (workCycles strategy pending observations)[j]? = some later)
    (hfired : earlier.work.fired = some e) (hfired' : later.work.fired = some e')
    (hbetween : ∀ k cycle, i < k → k < j →
      (workCycles strategy pending observations)[k]? = some cycle → cycle.work.fired = none) :
    (∃ k cycle, i < k ∧ k ≤ j ∧ (workCycles strategy pending observations)[k]? = some cycle ∧
      e.2 ∈ cycle.confirmed) ∨ Waited strategy e.1 e'.1 := by
  induction observations generalizing pending last i j with
  | nil => simp [workCycles] at hlater
  | cons obs rest ih =>
      rcases h.step obs (hwithin _ List.mem_cons_self) with ⟨last', hstep, hnext⟩
      have hrest : ∀ c ∈ workCycles strategy (doWork strategy pending obs).work.pending rest,
          c.MempoolWithin := fun c hc => hwithin c (List.mem_cons_of_mem _ hc)
      cases j with
      | zero => omega
      | succ j =>
          cases i with
          | zero =>
              have hself : doWork strategy pending obs = earlier := by
                simpa [workCycles] using hearlier
              subst hself
              have hlast := hstep.eq_of_fired hfired
              subst hlast
              rcases hnext.first_fired hrest hlater hfired'
                  (fun k c hk hc => hbetween (k + 1) c (by omega) (by omega) hc) with
                ⟨k, cycle, hk, hget, hseen⟩ | hwaited
              · exact Or.inl ⟨k + 1, cycle, by omega, by omega, hget, hseen⟩
              · exact Or.inr hwaited
          | succ i =>
              rcases ih hnext hrest (by omega) hearlier hlater
                  (fun k c hk hk' hc => hbetween (k + 1) c (by omega) (by omega) hc) with
                ⟨k, cycle, hk, hk', hget, hseen⟩ | hwaited
              · exact Or.inl ⟨k + 1, cycle, by omega, by omega, hget, hseen⟩
              · exact Or.inr hwaited

end Runs

/-- In every run each cycle fires at most one commitment, only after the requirement held, and
for a first commitment after it held again for a bonded operator.  In every run in which the
mempool never holds more than is tracked, at most one transaction is pending after each
cycle, and between two successive firings the receipt of the earlier transaction is seen or at
least the maximal confirmation time passes. -/
theorem workCycles_discipline (strategy : GasStrategy) (observations : List (Observation Tx)) :
    (∀ cycle ∈ workCycles strategy Dict.empty observations,
      cycle.work.attempts.length ≤ 1 ∧
      (cycle.work.attempts ≠ [] →
        shouldDoWorkNow cycle.observation.requirement = some true ∧
        ∃ tracking, cycle.tracking = some tracking ∧
          (tracking.result = false →
            shouldDoWorkNow cycle.observation.requirementAgain = some true ∧
            cycle.observation.bonded = some true))) ∧
    ((∀ cycle ∈ workCycles strategy Dict.empty observations, cycle.MempoolWithin) →
      (∀ cycle ∈ workCycles strategy Dict.empty observations, cycle.work.pending.len ≤ 1) ∧
      ∀ (i j : Nat) (earlier later : Cycle Tx) (e e' : Nat × Tx), i < j →
        (workCycles strategy Dict.empty observations)[i]? = some earlier →
        (workCycles strategy Dict.empty observations)[j]? = some later →
        earlier.work.fired = some e → later.work.fired = some e' →
        (∀ (k : Nat) (cycle : Cycle Tx), i < k → k < j →
          (workCycles strategy Dict.empty observations)[k]? = some cycle →
          cycle.work.fired = none) →
        (∃ (k : Nat) (cycle : Cycle Tx), i < k ∧ k ≤ j ∧
          (workCycles strategy Dict.empty observations)[k]? = some cycle ∧
          e.2 ∈ cycle.confirmed) ∨ Waited strategy e.1 e'.1) := by
  constructor
  · intro cycle hmem
    exact attempts_of_mem_workCycles hmem
  · intro hwithin
    constructor
    · intro cycle hmem
      exact Last.empty.len_le_of_mem hwithin hmem
    · intro i j earlier later e e' hij hearlier hlater hfired hfired' hbetween
      exact Last.empty.successive_fired hwithin hij hearlier hlater hfired hfired' hbetween

end NuLink
