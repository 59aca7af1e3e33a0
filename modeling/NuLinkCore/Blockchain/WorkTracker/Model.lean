import Mathlib.Data.List.Sort
import Mathlib.Tactic
import NuLinkCore.Lib.Dict

/-!
# The work tracker

A worker confirms its operator address with a transaction, and its work tracker runs a
cycle every few seconds: it drops the transactions that have a receipt, notices when the
mempool holds more than it tracks, replaces the oldest transaction that waits for too long,
and fires a first one when nothing is pending.  Everything a cycle learns from the chain, from
the requirement and from firing is an observation of that cycle, and any call may raise.

Main results:

- Theorem {lit}`dropMined_cases`: the loop over the receipts removes transactions that have
  one, and nothing else.
- Theorems {lit}`trackPendingCommitments_cases`, {lit}`handleReplacementCommitment_cases` and
  {lit}`fireFirstCommitment_cases`: what the parts of a cycle can do.
- Theorem {lit}`doWork_cases`: everything that a cycle can do.
-/

namespace NuLink

open Collections

universe u

variable {Tx : Type u}

/-! ## Constants -/

def averageBlockTimeInSeconds : Int := 14

/-- The gas strategies with an expected confirmation time, and every other one. -/
inductive GasStrategy where
  | slow | medium | fast | other
  deriving DecidableEq

def GasStrategy.expectedConfirmationTimeInSeconds : GasStrategy → Option Int
  | .slow => some 3600
  | .medium => some 300
  | .fast => some 60
  | .other => none

/-- Half as long again as expected; a strategy without an expected time raises. -/
def GasStrategy.maxConfirmationTime (strategy : GasStrategy) : Option Int :=
  strategy.expectedConfirmationTimeInSeconds.map (fun expected => expected + expected / 2)

theorem GasStrategy.maxConfirmationTime_pos {strategy : GasStrategy} {time : Int}
    (h : strategy.maxConfirmationTime = some time) : 0 < time := by
  cases strategy with
  | other => simp [maxConfirmationTime, expectedConfirmationTimeInSeconds] at h
  | _ =>
      simp only [maxConfirmationTime, expectedConfirmationTimeInSeconds, Option.map_some,
        Option.some.injEq] at h
      omega

/-! ## Observations -/

/-- A tracked transaction, or the marker for one that is in the mempool untracked. -/
inductive PendingTransaction (Tx : Type u) where
  | sent (txhash : Tx)
  | untracked
  deriving DecidableEq

/-- The pending transactions, by the block they were fired at. -/
abbrev PendingTransactions (Tx : Type u) := Dict Nat (PendingTransaction Tx)

/-- What a requirement function returns. -/
inductive RequirementValue where
  | boolean (b : Bool)
  | other
  deriving DecidableEq

inductive ReceiptReply where
  | found | notFound | raised
  deriving DecidableEq

/-- How a call of {lit}`_fire_commitment` ends. -/
inductive Firing (Tx : Type u) where
  | sent (txhash : Tx)
  | alreadyConfirmed
  | raised
  deriving DecidableEq

def PendingTransaction.txhash? : PendingTransaction Tx → Option Tx
  | .sent txhash => some txhash
  | .untracked => none

def Firing.txhash? : Firing Tx → Option Tx
  | .sent txhash => some txhash
  | _ => none

/-- What one cycle observes; a reply is missing when the call raises.  The requirement is
missing when the tracker was started without one, and it is asked for twice. -/
structure Observation (Tx : Type u) where
  requirement : Option (Option RequirementValue)
  blockNumber : Option Nat
  receipt : Tx → ReceiptReply
  txCountPending : Option Int
  txCountLatest : Option Int
  requirementAgain : Option (Option RequirementValue)
  bonded : Option Bool
  firing : Firing Tx

/-- Without a requirement there is always work; one that is not a boolean raises. -/
def shouldDoWorkNow : Option (Option RequirementValue) → Option Bool
  | none => some true
  | some none => none
  | some (some (.boolean b)) => some b
  | some (some .other) => none

def allWorkCompleted (requirement : Option (Option RequirementValue)) : Option Bool :=
  (shouldDoWorkNow requirement).map (fun needed => !needed)

/-! ## Tracking -/

/-- The items of a dictionary in the order of their keys. -/
def sortedItems (pending : PendingTransactions Tx) : List (Nat × PendingTransaction Tx) :=
  pending.entries.insertionSort (fun a b => a.1 ≤ b.1)

/-- The state of the loop over the receipts: the pending transactions, those that it reports
as confirmed, and whether it has not been cut short. -/
structure Sweep (Tx : Type u) where
  pending : PendingTransactions Tx
  confirmed : List Tx
  completed : Bool

def dropMined (receipt : Tx → ReceiptReply) :
    List (Nat × PendingTransaction Tx) → Sweep Tx → Sweep Tx
  | [], sweep => sweep
  | (_, .untracked) :: items, sweep => dropMined receipt items sweep
  | (block, .sent txhash) :: items, sweep =>
      match receipt txhash with
      | .notFound => dropMined receipt items sweep
      | .found =>
          dropMined receipt items
            { sweep with
              pending := sweep.pending.erase block
              confirmed := sweep.confirmed ++ [txhash] }
      | .raised => { sweep with completed := false }

/-- The loop over all pending transactions, oldest first. -/
def sweepReceipts (obs : Observation Tx) (pending : PendingTransactions Tx) : Sweep Tx :=
  dropMined obs.receipt (sortedItems pending) ⟨pending, [], true⟩

def Observation.txsInMempool (obs : Observation Tx) : Option Int := do
  let txCountPending ← obs.txCountPending
  let txCountLatest ← obs.txCountLatest
  return txCountPending - txCountLatest

/-- Fewer transactions in the mempool than tracked ones pass as consistent. -/
def commitmentsTrackerIsConsistent (pending : PendingTransactions Tx) (txsInMempool : Int) :
    Bool :=
  if (pending.len : Int) = txsInMempool then true
  else if txsInMempool > pending.len then false
  else true

/-- A tracking step that came to its end: what was left after the receipts, the count of the
mempool, what is tracked then, and the value that is returned. -/
structure Tracking (Tx : Type u) where
  unmined : PendingTransactions Tx
  txsInMempool : Int
  tracked : PendingTransactions Tx
  result : Bool

/-- A mismatch is accounted for by the marker, under the key zero. -/
def trackPendingCommitments (obs : Observation Tx) (unmined : PendingTransactions Tx) :
    Option (Tracking Tx) :=
  obs.txsInMempool.map fun txsInMempool =>
    if commitmentsTrackerIsConsistent unmined txsInMempool then
      ⟨unmined, txsInMempool, unmined, unmined.len ≠ 0⟩
    else
      ⟨unmined, txsInMempool, unmined.set 0 .untracked, true⟩

/-! ## Firing -/

inductive Ending where
  | stopped | finished | raised
  deriving DecidableEq

/-- What a cycle does after tracking: the pending transactions it leaves, its calls of
{lit}`_fire_commitment`, the transaction that was fired with its block, and the entry that a
replacement removed. -/
structure Work (Tx : Type u) where
  pending : PendingTransactions Tx
  attempts : List (Firing Tx)
  fired : Option (Nat × Tx)
  replaced : Option (Nat × PendingTransaction Tx)
  ending : Ending

/-- A cycle that fires nothing. -/
def Work.idle (pending : PendingTransactions Tx) (ending : Ending) : Work Tx :=
  ⟨pending, [], none, none, ending⟩

def fireReplacementCommitment (firing : Firing Tx) (pending : PendingTransactions Tx)
    (currentBlockNumber : Nat) (oldest : Nat × PendingTransaction Tx) : Work Tx :=
  match firing with
  | .sent txhash =>
      ⟨(pending.set currentBlockNumber (.sent txhash)).erase oldest.1, [firing],
        some (currentBlockNumber, txhash), some oldest, .finished⟩
  | _ => ⟨pending, [firing], none, none, .raised⟩

/-- Whether the oldest transaction is to be replaced: the marker at once, a tracked one after
the maximal confirmation time. -/
def replacementDue (strategy : GasStrategy) (currentBlockNumber : Nat) :
    Nat × PendingTransaction Tx → Option Bool
  | (_, .untracked) => some true
  | (block, .sent _) => do
      let waitTimeInBlocks := (currentBlockNumber : Int) - block
      let waitTimeInSeconds := waitTimeInBlocks * averageBlockTimeInSeconds
      let maxConfirmationTime ← strategy.maxConfirmationTime
      return !decide (waitTimeInSeconds < maxConfirmationTime)

def handleReplacementCommitment (strategy : GasStrategy) (firing : Firing Tx)
    (pending : PendingTransactions Tx) (currentBlockNumber : Nat) : Work Tx :=
  match sortedItems pending with
  | [] => .idle pending .raised
  | oldest :: _ =>
      match replacementDue strategy currentBlockNumber oldest with
      | none => .idle pending .raised
      | some false => .idle pending .finished
      | some true => fireReplacementCommitment firing pending currentBlockNumber oldest

/-- The first firing.  That the address is already confirmed is only logged. -/
def fireFirstCommitment (obs : Observation Tx) (pending : PendingTransactions Tx)
    (currentBlockNumber : Nat) : Work Tx :=
  match shouldDoWorkNow obs.requirementAgain with
  | none => .idle pending .raised
  | some false => .idle pending .finished
  | some true =>
      match obs.bonded with
      | none => .idle pending .raised
      | some false => .idle pending .finished
      | some true =>
          match obs.firing with
          | .sent txhash =>
              ⟨pending.set currentBlockNumber (.sent txhash), [obs.firing],
                some (currentBlockNumber, txhash), none, .finished⟩
          | .alreadyConfirmed => ⟨pending, [obs.firing], none, none, .finished⟩
          | .raised => ⟨pending, [obs.firing], none, none, .raised⟩

/-- One cycle: its observation, the transactions it reports as confirmed, its tracking step
when that came to its end, and its work. -/
structure Cycle (Tx : Type u) where
  observation : Observation Tx
  confirmed : List Tx
  tracking : Option (Tracking Tx)
  work : Work Tx

def doWork (strategy : GasStrategy) (pending : PendingTransactions Tx) (obs : Observation Tx) :
    Cycle Tx :=
  match allWorkCompleted obs.requirement with
  | none => ⟨obs, [], none, .idle pending .raised⟩
  | some true => ⟨obs, [], none, .idle pending .stopped⟩
  | some false =>
      match obs.blockNumber with
      | none => ⟨obs, [], none, .idle pending .raised⟩
      | some currentBlockNumber =>
          let sweep := sweepReceipts obs pending
          if sweep.completed then
            match trackPendingCommitments obs sweep.pending with
            | none => ⟨obs, sweep.confirmed, none, .idle sweep.pending .raised⟩
            | some tracking =>
                ⟨obs, sweep.confirmed, some tracking,
                  if tracking.result then
                    handleReplacementCommitment strategy obs.firing tracking.tracked
                      currentBlockNumber
                  else
                    fireFirstCommitment obs tracking.tracked currentBlockNumber⟩
          else
            ⟨obs, sweep.confirmed, none, .idle sweep.pending .raised⟩

/-- The cycles over a sequence of observations. -/
def workCycles (strategy : GasStrategy) (pending : PendingTransactions Tx) :
    List (Observation Tx) → List (Cycle Tx)
  | [] => []
  | obs :: rest =>
      doWork strategy pending obs ::
        workCycles strategy (doWork strategy pending obs).work.pending rest

/-! ## What a cycle can do -/

theorem mem_sortedItems {pending : PendingTransactions Tx} {item : Nat × PendingTransaction Tx} :
    item ∈ sortedItems pending ↔ pending.get? item.1 = some item.2 := by
  rw [sortedItems, List.mem_insertionSort, ← Dict.mem_entries_iff]

/-- The first item has the least key. -/
theorem oldest_le {pending : PendingTransactions Tx} {oldest : Nat × PendingTransaction Tx}
    {items : List (Nat × PendingTransaction Tx)} (h : sortedItems pending = oldest :: items)
    {block : Nat} {entry : PendingTransaction Tx} (hget : pending.get? block = some entry) :
    oldest.1 ≤ block := by
  have hmem : (block, entry) ∈ sortedItems pending := mem_sortedItems.mpr hget
  have : Std.Total (fun a b : Nat × PendingTransaction Tx => a.1 ≤ b.1) :=
    ⟨fun a b => le_total a.1 b.1⟩
  have : IsTrans (Nat × PendingTransaction Tx) (fun a b => a.1 ≤ b.1) :=
    ⟨fun _ _ _ => le_trans⟩
  have hsorted := List.pairwise_insertionSort
    (fun a b : Nat × PendingTransaction Tx => a.1 ≤ b.1) pending.entries
  rw [← sortedItems, h] at hsorted
  rw [h] at hmem
  rcases List.mem_cons.mp hmem with hself | htail
  · exact hself ▸ le_rfl
  · exact (List.pairwise_cons.mp hsorted).1 _ htail

theorem mem_confirmed_dropMined {receipt : Tx → ReceiptReply}
    (items : List (Nat × PendingTransaction Tx)) {sweep : Sweep Tx} {txhash : Tx}
    (h : txhash ∈ sweep.confirmed) : txhash ∈ (dropMined receipt items sweep).confirmed := by
  fun_induction dropMined receipt items sweep with
  | case1 sweep => exact h
  | case2 block items sweep ih => exact ih h
  | case3 block other items sweep hnot ih => exact ih h
  | case4 block other items sweep hfound ih => exact ih (List.mem_append_left _ h)
  | case5 block other items sweep hraised => exact h

/-- The loop over the receipts removes transactions that have one, and nothing else. -/
theorem dropMined_cases (receipt : Tx → ReceiptReply) (items : List (Nat × PendingTransaction Tx))
    (sweep : Sweep Tx) (block : Nat) :
    (dropMined receipt items sweep).pending.get? block = sweep.pending.get? block ∨
    ((dropMined receipt items sweep).pending.get? block = none ∧
      ∃ txhash, (block, .sent txhash) ∈ items ∧ receipt txhash = .found ∧
        txhash ∈ (dropMined receipt items sweep).confirmed) := by
  fun_induction dropMined receipt items sweep with
  | case1 sweep => exact Or.inl rfl
  | case2 other items sweep ih =>
      rcases ih with hkept | ⟨hgone, txhash, hmem, hrest⟩
      · exact Or.inl hkept
      · exact Or.inr ⟨hgone, txhash, List.mem_cons_of_mem _ hmem, hrest⟩
  | case3 other txhash items sweep hnot ih =>
      rcases ih with hkept | ⟨hgone, txhash', hmem, hrest⟩
      · exact Or.inl hkept
      · exact Or.inr ⟨hgone, txhash', List.mem_cons_of_mem _ hmem, hrest⟩
  | case4 other txhash items sweep hfound ih =>
      rcases ih with hkept | ⟨hgone, txhash', hmem, hrest⟩
      · rw [Dict.get?_erase] at hkept
        by_cases hblock : block = other
        · subst hblock
          rw [if_pos rfl] at hkept
          exact Or.inr ⟨hkept, txhash, List.mem_cons_self, hfound,
            mem_confirmed_dropMined items (by simp)⟩
        · rw [if_neg hblock] at hkept
          exact Or.inl hkept
      · exact Or.inr ⟨hgone, txhash', List.mem_cons_of_mem _ hmem, hrest⟩
  | case5 other txhash items sweep hraised => exact Or.inl rfl

/-- The marker is set exactly when the mempool holds more than is left. -/
theorem trackPendingCommitments_cases {obs : Observation Tx} {unmined : PendingTransactions Tx}
    {tracking : Tracking Tx} (h : trackPendingCommitments obs unmined = some tracking) :
    ∃ count, obs.txsInMempool = some count ∧
      ((count ≤ unmined.len ∧ tracking = ⟨unmined, count, unmined, unmined.len ≠ 0⟩) ∨
        (unmined.len < count ∧
          tracking = ⟨unmined, count, unmined.set 0 .untracked, true⟩)) := by
  rw [trackPendingCommitments, Option.map_eq_some_iff] at h
  rcases h with ⟨count, hcount, heq⟩
  refine ⟨count, hcount, ?_⟩
  rcases le_or_gt count unmined.len with hle | hlt
  · have hconsistent : commitmentsTrackerIsConsistent unmined count = true := by
      simp only [commitmentsTrackerIsConsistent, if_neg (not_lt.mpr hle), ite_self]
    rw [if_pos hconsistent] at heq
    exact Or.inl ⟨hle, heq.symm⟩
  · have hinconsistent : ¬ commitmentsTrackerIsConsistent unmined count = true := by
      rw [commitmentsTrackerIsConsistent, if_neg (by omega), if_pos hlt]
      simp
    rw [if_neg hinconsistent] at heq
    exact Or.inr ⟨hlt, heq.symm⟩

/-- A replacement fires nothing, or puts the new transaction in the place of the oldest. -/
theorem handleReplacementCommitment_cases (strategy : GasStrategy) (firing : Firing Tx)
    (pending : PendingTransactions Tx) (block : Nat) {work : Work Tx}
    (hwork : handleReplacementCommitment strategy firing pending block = work) :
    (work.attempts.length ≤ 1 ∧ work.fired = none ∧ work.replaced = none ∧
      work.pending = pending) ∨
    (∃ oldest items txhash, sortedItems pending = oldest :: items ∧
      replacementDue strategy block oldest = some true ∧ firing = .sent txhash ∧
      work = ⟨(pending.set block (.sent txhash)).erase oldest.1, [firing], some (block, txhash),
        some oldest, .finished⟩) := by
  subst hwork
  rw [handleReplacementCommitment]
  cases hitems : sortedItems pending with
  | nil => simp [Work.idle]
  | cons oldest items =>
      cases hdue : replacementDue strategy block oldest with
      | none => simp [Work.idle, hdue]
      | some due =>
          cases due with
          | false => simp [Work.idle, hdue]
          | true =>
              cases firing with
              | sent txhash =>
                  exact Or.inr ⟨oldest, items, txhash, rfl, hdue, rfl, by
                    simp [hdue, fireReplacementCommitment]⟩
              | _ => simp [hdue, fireReplacementCommitment]

/-- A first commitment is tried when there is still work for a bonded operator. -/
theorem fireFirstCommitment_cases (obs : Observation Tx) (pending : PendingTransactions Tx)
    (block : Nat) {work : Work Tx} (hwork : fireFirstCommitment obs pending block = work) :
    (work.attempts = [] ∧ work.fired = none ∧ work.replaced = none ∧ work.pending = pending) ∨
    (shouldDoWorkNow obs.requirementAgain = some true ∧ obs.bonded = some true ∧
      work.attempts = [obs.firing] ∧ work.replaced = none ∧
      ((work.fired = none ∧ work.pending = pending) ∨
        ∃ txhash, work.fired = some (block, txhash) ∧
          work.pending = pending.set block (.sent txhash))) := by
  subst hwork
  rw [fireFirstCommitment]
  cases hneeded : shouldDoWorkNow obs.requirementAgain with
  | none => simp [Work.idle]
  | some needed =>
      cases needed with
      | false => simp [Work.idle]
      | true =>
          cases hbonded : obs.bonded with
          | none => simp [Work.idle]
          | some bonded =>
              cases bonded with
              | false => simp [Work.idle]
              | true => cases hfiring : obs.firing <;> simp

/-- Everything a cycle can do: end before or within its tracking step, or track and then
replace or fire. -/
theorem doWork_cases (strategy : GasStrategy) (pending : PendingTransactions Tx)
    (obs : Observation Tx) :
    (∃ ending, doWork strategy pending obs = ⟨obs, [], none, .idle pending ending⟩) ∨
    (∃ ending, doWork strategy pending obs =
      ⟨obs, (sweepReceipts obs pending).confirmed, none,
        .idle (sweepReceipts obs pending).pending ending⟩) ∨
    (∃ tracking block, shouldDoWorkNow obs.requirement = some true ∧
      obs.blockNumber = some block ∧ (sweepReceipts obs pending).completed = true ∧
      trackPendingCommitments obs (sweepReceipts obs pending).pending = some tracking ∧
      doWork strategy pending obs =
        ⟨obs, (sweepReceipts obs pending).confirmed, some tracking,
          if tracking.result then
            handleReplacementCommitment strategy obs.firing tracking.tracked block
          else
            fireFirstCommitment obs tracking.tracked block⟩) := by
  cases hneeded : shouldDoWorkNow obs.requirement with
  | none => exact Or.inl ⟨.raised, by simp [doWork, allWorkCompleted, hneeded]⟩
  | some needed =>
      cases needed with
      | false => exact Or.inl ⟨.stopped, by simp [doWork, allWorkCompleted, hneeded]⟩
      | true =>
          cases hblock : obs.blockNumber with
          | none => exact Or.inl ⟨.raised, by simp [doWork, allWorkCompleted, hneeded, hblock]⟩
          | some block =>
              right
              by_cases hcompleted : (sweepReceipts obs pending).completed = true
              · cases htrack : trackPendingCommitments obs (sweepReceipts obs pending).pending with
                | none =>
                    exact Or.inl ⟨.raised, by
                      simp [doWork, allWorkCompleted, hneeded, hblock, hcompleted, htrack]⟩
                | some tracking =>
                    exact Or.inr ⟨tracking, block, rfl, rfl, hcompleted, rfl, by
                      simp [doWork, allWorkCompleted, hneeded, hblock, hcompleted, htrack]⟩
              · exact Or.inl ⟨.raised, by
                  simp [doWork, allWorkCompleted, hneeded, hblock, hcompleted]⟩

@[simp]
theorem doWork_observation (strategy : GasStrategy) (pending : PendingTransactions Tx)
    (obs : Observation Tx) : (doWork strategy pending obs).observation = obs := by
  rcases doWork_cases strategy pending obs with
    ⟨_, heq⟩ | ⟨_, heq⟩ | ⟨_, _, _, _, _, _, heq⟩ <;> rw [heq]

end NuLink
