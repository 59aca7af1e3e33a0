import Mathlib.Algebra.Order.Field.Rat
import NuLinkCore.Network.NodeMetadata

/-!
# Waiting for a confirmed receipt

{lit}`wait_for_receipt` runs two polling loops inside each other, and each of them a
loop of the web3 library: it waits until the chain reports a receipt, then polls
until enough blocks were built on top of it, and begins again when the receipt
moved, disappeared or was not confirmed in time.  The client is a machine that
meets a sequence of moments; at each of them it asks for one thing, the time, the
receipt of a transaction or the block number, and nothing relates one moment to
the next.

Main results:

- Theorem {lit}`Polling.step_inv`: the invariant {lit}`Polling.Inv` of one step.
- Theorem {lit}`Polling.run_returned`: how a run comes to return a receipt.
- Theorem {lit}`Polling.waitForReceipt_confirmed`: a returned receipt was confirmed in the last
  polling step, and otherwise the client keeps polling or raises the transaction timeout.
-/

namespace NuLink

namespace Interface

/-- The part of a receipt that the client reads. -/
structure TxReceipt where
  transactionHash : Bytes
  blockHash : Bytes
  blockNumber : Nat
deriving DecidableEq, Repr

/-- What the client meets when it asks the clock or the chain.  A receipt is reported for the
transaction that was asked for; {lit}`none` stands for {lit}`TransactionNotFound`. -/
structure ChainMoment where
  time : ℚ
  getTransactionReceipt : Bytes → Option TxReceipt
  transactionHash_eq : ∀ transactionHash receipt,
    getTransactionReceipt transactionHash = some receipt →
      receipt.transactionHash = transactionHash
  blockNumber : Nat

/-- The web3 timeout context; without seconds it never expires. -/
structure TimeoutContext where
  seconds : Option ℚ
  begunAt : ℚ
deriving DecidableEq

/-- {lit}`Timeout.check`. -/
def TimeoutContext.expired (timeout : TimeoutContext) (now : ℚ) : Bool :=
  match timeout.seconds with
  | none => false
  | some seconds => decide (timeout.begunAt + seconds < now)

/-- The exceptions of waiting for a receipt. -/
inductive ReceiptError where
  | timeExhausted
  | transactionTimeout
deriving DecidableEq, Repr

/-- Where the client is, with the contexts it has entered and the receipt it holds.  Waiting
without confirmations enters no outer context. -/
inductive Polling where
  | startTimeout
  | startWaiting (outer : Option TimeoutContext)
  | requestReceipt (outer : Option TimeoutContext) (waiting : TimeoutContext)
  | sleepWaiting (outer : Option TimeoutContext) (waiting : TimeoutContext)
  | startConfirming (outer : TimeoutContext) (receipt : TxReceipt)
  | sleepConfirming (outer inner : TimeoutContext) (receipt : TxReceipt)
  | checkOnChain (outer inner : TimeoutContext) (receipt : TxReceipt)
  | readBlockNumber (outer inner : TimeoutContext) (receipt : TxReceipt)
  | sleepAgain (outer : TimeoutContext)
  | returned (receipt : TxReceipt)
  | raised (error : ReceiptError)
deriving DecidableEq

namespace Polling

/-- {lit}`AVERAGE_BLOCK_TIME_IN_SECONDS`. -/
def averageBlockTimeInSeconds : ℚ := 14

/-- {lit}`_calculate_confirmations_timeout`. -/
def confirmationsTimeout (confirmations : Int) : ℚ :=
  3 * averageBlockTimeInSeconds * confirmations

/-- The point at which {lit}`wait_for_receipt` asks for something first. -/
def start (confirmations : Int) : Polling :=
  if confirmations ≠ 0 then .startTimeout else .startWaiting none

/-- The loop of {lit}`block_until_enough_confirmations` goes on while there are too few. -/
def confirmOrReturn (confirmations confirmationsSoFar : Int) (outer inner : TimeoutContext)
    (receipt : TxReceipt) : Polling :=
  if confirmationsSoFar < confirmations then .sleepConfirming outer inner receipt
  else .returned receipt

/-- {lit}`check_transaction_is_on_chain`: whether the receipt is still the reported one. -/
def isOnChain (receipt : TxReceipt) (moment : ChainMoment) : Bool :=
  match moment.getTransactionReceipt receipt.transactionHash with
  | none => false
  | some newReceipt => decide (receipt.blockHash = newReceipt.blockHash)

variable (transactionHash : Bytes) (timeout : Option ℚ) (confirmations : Int)

/-- Ask for the next thing and go on with the answer. -/
def step : Polling → ChainMoment → Polling
  | .startTimeout, moment => .startWaiting (some { seconds := timeout, begunAt := moment.time })
  | .startWaiting outer, moment =>
      .requestReceipt outer { seconds := timeout, begunAt := moment.time }
  | .requestReceipt outer waiting, moment =>
      match moment.getTransactionReceipt transactionHash, outer with
      | none, _ => .sleepWaiting outer waiting
      | some receipt, none => .returned receipt
      | some receipt, some context => .startConfirming context receipt
  | .sleepWaiting outer waiting, moment =>
      if waiting.expired moment.time then
        -- The library raises {lit}`TimeExhausted`, which only the outer loop catches.
        match outer with
        | none => .raised .timeExhausted
        | some context => .sleepAgain context
      else .requestReceipt outer waiting
  | .startConfirming outer receipt, moment =>
      confirmOrReturn confirmations 0 outer
        { seconds := some (confirmationsTimeout confirmations), begunAt := moment.time } receipt
  | .sleepConfirming outer inner receipt, moment =>
      if inner.expired moment.time then .sleepAgain outer else .checkOnChain outer inner receipt
  | .checkOnChain outer inner receipt, moment =>
      if isOnChain receipt moment then .readBlockNumber outer inner receipt else .sleepAgain outer
  | .readBlockNumber outer inner receipt, moment =>
      confirmOrReturn confirmations (moment.blockNumber - receipt.blockNumber) outer inner receipt
  | .sleepAgain outer, moment =>
      if outer.expired moment.time then .raised .transactionTimeout
      else .startWaiting (some outer)
  | .returned receipt, _ => .returned receipt
  | .raised error, _ => .raised error

/-- {lit}`wait_for_receipt` against a sequence of moments. -/
def run (moments : List ChainMoment) : Polling :=
  moments.foldl (step transactionHash timeout confirmations) (start confirmations)

/-- Whether the client is still asking. -/
def isPolling : Polling → Bool
  | .returned _ => false
  | .raised _ => false
  | _ => true

/-! ## The invariant of a wait for confirmations -/

/-- A client that waits for confirmations is inside the outer context, holds a receipt of its
own transaction and raises nothing but the transaction timeout. -/
def Inv : Polling → Prop
  | .startTimeout => True
  | .startWaiting outer => outer.isSome = true
  | .requestReceipt outer _ => outer.isSome = true
  | .sleepWaiting outer _ => outer.isSome = true
  | .startConfirming _ receipt => receipt.transactionHash = transactionHash
  | .sleepConfirming _ _ receipt => receipt.transactionHash = transactionHash
  | .checkOnChain _ _ receipt => receipt.transactionHash = transactionHash
  | .readBlockNumber _ _ receipt => receipt.transactionHash = transactionHash
  | .sleepAgain _ => True
  | .returned receipt => receipt.transactionHash = transactionHash
  | .raised error => error = .transactionTimeout

theorem inv_confirmOrReturn {receipt : TxReceipt}
    (h : receipt.transactionHash = transactionHash) (confirmationsSoFar : Int)
    (outer inner : TimeoutContext) :
    Inv transactionHash
      (confirmOrReturn confirmations confirmationsSoFar outer inner receipt) := by
  unfold confirmOrReturn
  split <;> exact h

theorem start_inv (h : 0 < confirmations) : Inv transactionHash (start confirmations) := by
  rw [start, if_pos (Int.ne_of_gt h)]
  trivial

/-- Every step keeps the invariant. -/
theorem step_inv {polling : Polling} (h : Inv transactionHash polling) (moment : ChainMoment) :
    Inv transactionHash (step transactionHash timeout confirmations polling moment) := by
  cases polling with
  | startTimeout => rfl
  | startWaiting outer => exact h
  | requestReceipt outer waiting =>
      rcases Option.isSome_iff_exists.mp h with ⟨context, rfl⟩
      simp only [step]
      cases hreceipt : moment.getTransactionReceipt transactionHash with
      | none => rfl
      | some receipt => exact moment.transactionHash_eq transactionHash receipt hreceipt
  | sleepWaiting outer waiting =>
      rcases Option.isSome_iff_exists.mp h with ⟨context, rfl⟩
      simp only [step]
      split
      · trivial
      · rfl
  | startConfirming outer receipt =>
      exact inv_confirmOrReturn transactionHash confirmations h _ outer _
  | sleepConfirming outer inner receipt =>
      simp only [step]
      split
      · trivial
      · exact h
  | checkOnChain outer inner receipt =>
      simp only [step]
      split
      · exact h
      · trivial
  | readBlockNumber outer inner receipt =>
      exact inv_confirmOrReturn transactionHash confirmations h _ outer inner
  | sleepAgain outer =>
      simp only [step]
      split <;> rfl
  | returned receipt => exact h
  | raised error => exact h

@[simp]
theorem run_append_singleton (moments : List ChainMoment) (moment : ChainMoment) :
    run transactionHash timeout confirmations (moments ++ [moment]) =
      step transactionHash timeout confirmations
        (run transactionHash timeout confirmations moments) moment := by
  simp [run]

/-- Every run keeps the invariant. -/
theorem run_inv (h : 0 < confirmations) (moments : List ChainMoment) :
    Inv transactionHash (run transactionHash timeout confirmations moments) := by
  induction moments using List.reverseRecOn with
  | nil => exact start_inv transactionHash confirmations h
  | append_singleton moments moment ih =>
      rw [run_append_singleton]
      exact step_inv transactionHash timeout confirmations ih moment

/-! ## How a receipt comes to be returned -/

/-- The block number is read only after the receipt was found on the chain. -/
theorem step_eq_readBlockNumber {polling : Polling} {moment : ChainMoment}
    {outer inner : TimeoutContext} {receipt : TxReceipt}
    (h : step transactionHash timeout confirmations polling moment =
      .readBlockNumber outer inner receipt) :
    polling = .checkOnChain outer inner receipt ∧ isOnChain receipt moment = true := by
  cases polling with
  | startTimeout => cases h
  | startWaiting outer' => cases h
  | requestReceipt outer' waiting =>
      simp only [step] at h
      split at h <;> cases h
  | sleepWaiting outer' waiting =>
      simp only [step] at h
      split at h
      · split at h <;> cases h
      · cases h
  | startConfirming outer' receipt' =>
      simp only [step, confirmOrReturn] at h
      split at h <;> cases h
  | sleepConfirming outer' inner' receipt' =>
      simp only [step] at h
      split at h <;> cases h
  | checkOnChain outer' inner' receipt' =>
      simp only [step] at h
      split at h
      · rename_i hchain
        cases h
        exact ⟨rfl, hchain⟩
      · cases h
  | readBlockNumber outer' inner' receipt' =>
      simp only [step, confirmOrReturn] at h
      split at h <;> cases h
  | sleepAgain outer' =>
      simp only [step] at h
      split at h <;> cases h
  | returned receipt' => cases h
  | raised error => cases h

/-- A client that waits for confirmations returns a receipt only at a block number that is far
enough above it. -/
theorem step_eq_returned (hpositive : 0 < confirmations) {polling : Polling}
    (hinv : Inv transactionHash polling) {moment : ChainMoment} {receipt : TxReceipt}
    (h : step transactionHash timeout confirmations polling moment = .returned receipt) :
    polling = .returned receipt ∨
      (∃ outer inner, polling = .readBlockNumber outer inner receipt) ∧
        receipt.blockNumber + confirmations ≤ moment.blockNumber := by
  cases polling with
  | startTimeout => cases h
  | startWaiting outer' => cases h
  | requestReceipt outer' waiting =>
      rcases Option.isSome_iff_exists.mp hinv with ⟨context, rfl⟩
      simp only [step] at h
      split at h
      · cases h
      · -- Without an outer context the invariant does not hold.
        contradiction
      · cases h
  | sleepWaiting outer' waiting =>
      simp only [step] at h
      split at h
      · split at h <;> cases h
      · cases h
  | startConfirming outer' receipt' =>
      simp only [step, confirmOrReturn, if_pos hpositive] at h
      cases h
  | sleepConfirming outer' inner' receipt' =>
      simp only [step] at h
      split at h <;> cases h
  | checkOnChain outer' inner' receipt' =>
      simp only [step] at h
      split at h <;> cases h
  | readBlockNumber outer' inner' receipt' =>
      simp only [step, confirmOrReturn] at h
      split at h
      · cases h
      · rename_i henough
        cases h
        exact Or.inr ⟨⟨outer', inner', rfl⟩, by omega⟩
  | sleepAgain outer' =>
      simp only [step] at h
      split at h <;> cases h
  | returned receipt' => exact Or.inl h
  | raised error => cases h

/-- The receipt was found on the chain, and then a block number far enough above it was read. -/
structure ConfirmedBy (receipt : TxReceipt) (check height : ChainMoment) : Prop where
  reported : ∃ newReceipt, check.getTransactionReceipt transactionHash = some newReceipt ∧
    newReceipt.blockHash = receipt.blockHash
  height_ge : receipt.blockNumber + confirmations ≤ height.blockNumber

/-- A run that returns a receipt has just checked it and then read the block number. -/
theorem run_returned (hpositive : 0 < confirmations) {moments : List ChainMoment}
    {receipt : TxReceipt}
    (hrun : run transactionHash timeout confirmations moments = .returned receipt) :
    ∃ before check height after, moments = before ++ check :: height :: after ∧
      (∃ outer inner, run transactionHash timeout confirmations before =
        .checkOnChain outer inner receipt) ∧
      ConfirmedBy transactionHash confirmations receipt check height := by
  induction moments using List.reverseRecOn with
  | nil =>
      simp only [run, start, List.foldl_nil] at hrun
      split at hrun <;> cases hrun
  | append_singleton moments height ih =>
      rw [run_append_singleton] at hrun
      have hinv := run_inv transactionHash timeout confirmations hpositive moments
      rcases step_eq_returned transactionHash timeout confirmations hpositive hinv hrun with
        hbefore | ⟨⟨outer, inner, hread⟩, hheight⟩
      · rcases ih hbefore with ⟨before, check, height', after, rfl, hpoint, hconfirmed⟩
        exact ⟨before, check, height', after ++ [height], by simp, hpoint, hconfirmed⟩
      · rcases List.eq_nil_or_concat moments with rfl | ⟨before, check, rfl⟩
        · simp only [run, start, List.foldl_nil] at hread
          split at hread <;> cases hread
        · rw [List.concat_eq_append, run_append_singleton] at hread
          rcases step_eq_readBlockNumber transactionHash timeout confirmations hread with
            ⟨hpoint, hchain⟩
          have hhash : receipt.transactionHash = transactionHash := by
            have hbefore := run_inv transactionHash timeout confirmations hpositive before
            rw [hpoint] at hbefore
            exact hbefore
          refine ⟨before, check, height, [], by simp, ⟨outer, inner, hpoint⟩, ?_, hheight⟩
          rw [isOnChain, hhash] at hchain
          split at hchain
          · cases hchain
          · rename_i newReceipt hreported
            exact ⟨newReceipt, hreported, (of_decide_eq_true hchain).symm⟩

/-- A client that waits for confirmations keeps polling, raises the transaction timeout, or
returns a receipt that was confirmed in its last polling step. -/
theorem waitForReceipt_confirmed (hpositive : 0 < confirmations) (moments : List ChainMoment) :
    (run transactionHash timeout confirmations moments).isPolling = true ∨
      run transactionHash timeout confirmations moments = .raised .transactionTimeout ∨
      ∃ receipt, run transactionHash timeout confirmations moments = .returned receipt ∧
        ∃ before check height after, moments = before ++ check :: height :: after ∧
          (∃ outer inner, run transactionHash timeout confirmations before =
            .checkOnChain outer inner receipt) ∧
          ConfirmedBy transactionHash confirmations receipt check height := by
  have hinv := run_inv transactionHash timeout confirmations hpositive moments
  cases hrun : run transactionHash timeout confirmations moments with
  | returned receipt =>
      exact Or.inr (Or.inr ⟨receipt, rfl,
        run_returned transactionHash timeout confirmations hpositive hrun⟩)
  | raised error =>
      rw [hrun] at hinv
      exact Or.inr (Or.inl (congrArg Polling.raised hinv))
  | _ => exact Or.inl rfl

/-- A chain that reports one receipt, at a given height. -/
def momentAt (time : ℚ) (blockHash : Bytes) (height : Nat) : ChainMoment where
  time := time
  getTransactionReceipt transactionHash := some ⟨transactionHash, blockHash, 10⟩
  transactionHash_eq := by
    intro transactionHash receipt h
    rw [← Option.some.inj h]
  blockNumber := height

/-- A chain that is reorganised between the first receipt and its check, and reports the new
receipt until it is confirmed. -/
def reorganisedMoments : List ChainMoment :=
  [momentAt 0 [1] 10, momentAt 0 [1] 10, momentAt 0 [1] 10, momentAt 0 [1] 10, momentAt 3 [1] 10,
    momentAt 3 [2] 11, momentAt 6 [2] 11, momentAt 6 [2] 11, momentAt 6 [2] 11, momentAt 6 [2] 11,
    momentAt 9 [2] 12, momentAt 9 [2] 12, momentAt 9 [2] 12]

theorem waitForReceipt_confirmed_reorganised :
    (0 : Int) < 2 ∧ run [7] none 2 reorganisedMoments = .returned ⟨[7], [2], 10⟩ ∧
      ∃ check height, ConfirmedBy [7] 2 ⟨[7], [2], 10⟩ check height := by
  have hrun : run [7] none 2 reorganisedMoments = .returned ⟨[7], [2], 10⟩ := by decide +kernel
  refine ⟨by decide, hrun, ?_⟩
  rcases waitForReceipt_confirmed [7] none 2 (by decide) reorganisedMoments with
    hpolling | hraised | ⟨receipt, hreturned, before, check, height, after, -, -, hconfirmed⟩
  · rw [hrun] at hpolling
    cases hpolling
  · rw [hrun] at hraised
    cases hraised
  · rw [hrun] at hreturned
    cases hreturned
    exact ⟨check, height, hconfirmed⟩

end Polling

end Interface

end NuLink
