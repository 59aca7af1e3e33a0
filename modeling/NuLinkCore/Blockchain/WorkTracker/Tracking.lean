import NuLinkCore.Blockchain.WorkTracker.Model

/-!
# What the work tracker tracks

The pending transactions are kept by firing block.  A transaction that is fired at a block
that is already a key takes the place of the one before it, the marker for an untracked
transaction takes the place of one fired at block zero, and a marker whose replacement
fails stays until a later one succeeds.  Apart from these three, the tracking step of every
cycle holds exactly what is outstanding.

Main results:

- Theorem {lit}`sweepReceipts_get?`: a completed loop over the receipts leaves the entries
  without one.
- Theorems {lit}`CleanCycle.tracked` and {lit}`CleanCycle.marker_iff`: what the tracking step
  of a clean cycle holds.
- Theorem {lit}`CleanRun.tracksOutstanding`: runs of clean cycles track what is outstanding.
- Theorem {lit}`not_tracksOutstanding`: two firings in one block lose the first of them.
-/

namespace NuLink

open Collections

universe u

variable {Tx : Type u}

/-! ## Outstanding transactions -/

/-- The transaction was fired in an earlier cycle, has had no receipt up to this one, and was
not the oldest entry that a replacement removed. -/
def Outstanding (cycles : List (Cycle Tx)) (k : Nat) (e : Nat × Tx) : Prop :=
  ∃ (i : Nat) (firing : Cycle Tx), i < k ∧ cycles[i]? = some firing ∧
    firing.work.fired = some e ∧
    (∀ (j : Nat) (cycle : Cycle Tx), i < j → j ≤ k → cycles[j]? = some cycle →
      cycle.observation.receipt e.2 ≠ .found) ∧
    (∀ (j : Nat) (cycle : Cycle Tx), i < j → j < k → cycles[j]? = some cycle →
      cycle.work.replaced ≠ some (e.1, .sent e.2))

def PendingTransaction.isSent : PendingTransaction Tx → Bool
  | .sent _ => true
  | .untracked => false

/-- The number of tracked transactions, without the marker. -/
def sentCount (pending : PendingTransactions Tx) : Nat :=
  pending.values.countP PendingTransaction.isSent

/-- The tracking step holds the outstanding transactions, and the marker exactly when the
mempool holds more transactions than are tracked. -/
def TracksOutstanding (cycles : List (Cycle Tx)) : Prop :=
  ∀ (k : Nat) (cycle : Cycle Tx) (tracking : Tracking Tx), cycles[k]? = some cycle →
    cycle.tracking = some tracking →
    (∀ e, Outstanding cycles k e → .sent e.2 ∈ tracking.tracked.values) ∧
    (.untracked ∈ tracking.tracked.values ↔
      tracking.txsInMempool > sentCount tracking.unmined)

/-! ## Clean cycles -/

/-- No receipt is found for the entry. -/
def PendingTransaction.isUnmined (receipt : Tx → ReceiptReply) : PendingTransaction Tx → Bool
  | .sent txhash => receipt txhash ≠ .found
  | .untracked => true

/-- The pending entries without a receipt. -/
def unminedEntries (obs : Observation Tx) (pending : PendingTransactions Tx) :
    PendingTransactions Tx :=
  pending.filter (PendingTransaction.isUnmined obs.receipt)

/-- The cycle comes to the count of the mempool. -/
def ReachesCount (obs : Observation Tx) (pending : PendingTransactions Tx) : Prop :=
  shouldDoWorkNow obs.requirement = some true ∧
  ∀ entry ∈ pending.values, ∀ txhash ∈ entry.txhash?, obs.receipt txhash ≠ .raised

/-- What a count of the mempool may meet: a marker left by an earlier cycle only while the
mempool still holds more than is tracked; a new marker no transaction fired at block zero; and
a replacement that is fired no entry of the same block. -/
def CleanCount (strategy : GasStrategy) (pending unmined : PendingTransactions Tx)
    (firing : Firing Tx) (block : Nat) (count : Int) : Prop :=
  (.untracked ∈ pending.values → sentCount unmined < count) ∧
  (unmined.len < count → ∀ entry ∈ unmined.get? 0, entry = .untracked) ∧
  (firing.txhash?.isSome →
    (unmined.len < count → block ≠ 0 ∧ block ∉ unmined.keys) ∧
    ∀ oldest ∈ unmined.entries, (∀ other ∈ unmined.entries, oldest.1 ≤ other.1) →
      replacementDue strategy block oldest = some true → block ∉ unmined.keys)

/-- A cycle that ends before its count, or counts as it may. -/
def CleanCycle (strategy : GasStrategy) (pending : PendingTransactions Tx)
    (obs : Observation Tx) : Prop :=
  ReachesCount obs pending → ∀ block ∈ obs.blockNumber, ∀ count ∈ obs.txsInMempool,
    CleanCount strategy pending (unminedEntries obs pending) obs.firing block count

/-- Every cycle of the run is clean. -/
def CleanRun (strategy : GasStrategy) (pending : PendingTransactions Tx) :
    List (Observation Tx) → Prop
  | [] => True
  | obs :: rest => CleanCycle strategy pending obs ∧
      CleanRun strategy (doWork strategy pending obs).work.pending rest

instance (obs : Observation Tx) (pending : PendingTransactions Tx) :
    Decidable (ReachesCount obs pending) :=
  inferInstanceAs (Decidable (_ ∧ _))

instance [DecidableEq Tx] (strategy : GasStrategy) (pending unmined : PendingTransactions Tx)
    (firing : Firing Tx) (block : Nat) (count : Int) :
    Decidable (CleanCount strategy pending unmined firing block count) :=
  inferInstanceAs (Decidable (_ ∧ _))

instance [DecidableEq Tx] (strategy : GasStrategy) (pending : PendingTransactions Tx)
    (obs : Observation Tx) : Decidable (CleanCycle strategy pending obs) :=
  inferInstanceAs (Decidable (_ → _))

instance CleanRun.decidable [DecidableEq Tx] (strategy : GasStrategy) :
    (observations : List (Observation Tx)) → (pending : PendingTransactions Tx) →
      Decidable (CleanRun strategy pending observations)
  | [], _ => .isTrue trivial
  | _ :: rest, _ =>
      haveI := CleanRun.decidable strategy rest
      inferInstanceAs (Decidable (_ ∧ _))

/-! ## The loop over the receipts -/

theorem dropMined_completed {receipt : Tx → ReceiptReply}
    {items : List (Nat × PendingTransaction Tx)} {sweep : Sweep Tx}
    (h : (dropMined receipt items sweep).completed = true) {block : Nat} {txhash : Tx}
    (hmem : (block, .sent txhash) ∈ items) :
    receipt txhash ≠ .raised ∧
    (receipt txhash = .found → (dropMined receipt items sweep).pending.get? block = none) := by
  fun_induction dropMined receipt items sweep with
  | case1 sweep => simp at hmem
  | case2 other items sweep ih =>
      rcases List.mem_cons.mp hmem with hself | hrest
      · simp at hself
      · exact ih h hrest
  | case3 other txhash' items sweep hnot ih =>
      rcases List.mem_cons.mp hmem with hself | hrest
      · simp only [Prod.mk.injEq, PendingTransaction.sent.injEq] at hself
        rw [hself.2, hnot]
        simp
      · exact ih h hrest
  | case4 other txhash' items sweep hfound ih =>
      rcases List.mem_cons.mp hmem with hself | hrest
      · simp only [Prod.mk.injEq, PendingTransaction.sent.injEq] at hself
        rw [hself.1, hself.2]
        refine ⟨by simp [hfound], fun _ => ?_⟩
        rcases dropMined_cases receipt items
            { sweep with
              pending := sweep.pending.erase other
              confirmed := sweep.confirmed ++ [txhash'] } other with hkept | ⟨hgone, -⟩
        · simpa using hkept
        · exact hgone
      · exact ih h hrest
  | case5 other txhash' items sweep hraised => simp at h

/-- An entry without a receipt outlives the loop. -/
theorem sweepReceipts_get?_of_isUnmined {obs : Observation Tx} {pending : PendingTransactions Tx}
    {block : Nat} {entry : PendingTransaction Tx} (hget : pending.get? block = some entry)
    (hunmined : entry.isUnmined obs.receipt = true) :
    (sweepReceipts obs pending).pending.get? block = some entry := by
  rcases dropMined_cases obs.receipt (sortedItems pending) ⟨pending, [], true⟩ block with
    hkept | ⟨-, txhash, hmem, hfound, -⟩
  · exact hkept.trans hget
  · rw [mem_sortedItems, hget, Option.some.injEq] at hmem
    rw [hmem] at hunmined
    simp [PendingTransaction.isUnmined, hfound] at hunmined

/-- A completed loop leaves the entries without a receipt. -/
theorem sweepReceipts_get? {obs : Observation Tx} {pending : PendingTransactions Tx}
    (h : (sweepReceipts obs pending).completed = true) (block : Nat) :
    (sweepReceipts obs pending).pending.get? block = (unminedEntries obs pending).get? block := by
  rw [unminedEntries, Dict.get?_filter]
  cases hget : pending.get? block with
  | none =>
      rcases dropMined_cases obs.receipt (sortedItems pending) ⟨pending, [], true⟩ block with
        hkept | ⟨hgone, -⟩
      · exact hkept.trans hget
      · exact hgone
  | some entry =>
      by_cases hunmined : entry.isUnmined obs.receipt = true
      · rw [sweepReceipts_get?_of_isUnmined hget hunmined]
        simp [Option.filter, hunmined]
      · cases entry with
        | untracked => simp [PendingTransaction.isUnmined] at hunmined
        | sent txhash =>
            have hfound : obs.receipt txhash = .found := by
              simpa [PendingTransaction.isUnmined] using hunmined
            have hgone := (dropMined_completed h (mem_sortedItems.mpr hget)).2 hfound
            rw [← sweepReceipts] at hgone
            rw [hgone]
            simp [Option.filter, hunmined]

/-! ## What a clean cycle does -/

theorem sentCount_le_len (pending : PendingTransactions Tx) : sentCount pending ≤ pending.len := by
  calc
    sentCount pending ≤ pending.values.length := List.countP_le_length
    _ = pending.len := by rw [Dict.values, List.length_map, Dict.len]

/-- Without a marker every entry is a transaction. -/
theorem sentCount_eq_len {pending : PendingTransactions Tx}
    (h : .untracked ∉ pending.values) : sentCount pending = pending.len := by
  have hall : ∀ entry ∈ pending.values, entry.isSent = true := by
    intro entry hentry
    cases entry with
    | sent txhash => rfl
    | untracked => exact absurd hentry h
  rw [sentCount, List.countP_eq_length.mpr hall, Dict.values, List.length_map, Dict.len]

section Clean

variable {strategy : GasStrategy} {pending : PendingTransactions Tx} {obs : Observation Tx}
  {tracking : Tracking Tx} {block : Nat}

/-- A cycle that comes to its count is subject to the condition. -/
theorem reachesCount_of_completed (hneeded : shouldDoWorkNow obs.requirement = some true)
    (hcompleted : (sweepReceipts obs pending).completed = true) : ReachesCount obs pending := by
  refine ⟨hneeded, ?_⟩
  intro entry hentry txhash htxhash
  rcases Dict.mem_values_iff_exists.mp hentry with ⟨key, hget⟩
  cases entry with
  | untracked => simp [PendingTransaction.txhash?] at htxhash
  | sent txhash' =>
      have heq : txhash' = txhash := by simpa [PendingTransaction.txhash?] using htxhash
      subst heq
      exact (dropMined_completed hcompleted (mem_sortedItems.mpr hget)).1

/-- The tracking step of a clean cycle keeps every transaction without a receipt. -/
theorem CleanCycle.tracked (hclean : CleanCycle strategy pending obs)
    (hneeded : shouldDoWorkNow obs.requirement = some true)
    (hblock : obs.blockNumber = some block)
    (hcompleted : (sweepReceipts obs pending).completed = true)
    (htrack : trackPendingCommitments obs (sweepReceipts obs pending).pending = some tracking)
    {key : Nat} {txhash : Tx} (hget : pending.get? key = some (.sent txhash))
    (hreceipt : obs.receipt txhash ≠ .found) :
    tracking.tracked.get? key = some (.sent txhash) := by
  have hunmined : PendingTransaction.isUnmined obs.receipt (.sent txhash) = true := by
    simp [PendingTransaction.isUnmined, hreceipt]
  have hkept := sweepReceipts_get?_of_isUnmined hget hunmined
  rcases trackPendingCommitments_cases htrack with ⟨count, hcount, ⟨-, heq⟩ | ⟨hlt, heq⟩⟩
  · rw [heq]
    exact hkept
  · rw [heq]
    have hzero := (hclean (reachesCount_of_completed hneeded hcompleted) block hblock count
      hcount).2.1 (by rwa [← Dict.len_eq_of_get?_eq (sweepReceipts_get? hcompleted)])
    have hne : key ≠ 0 := by
      intro hkey
      rw [hkey, sweepReceipts_get? hcompleted] at hkept
      have hmarker := hzero _ hkept
      contradiction
    rw [Dict.get?_set, if_neg hne, hkept]

/-- The tracking step of a clean cycle holds the marker exactly when the mempool holds more
than is tracked. -/
theorem CleanCycle.marker_iff (hclean : CleanCycle strategy pending obs)
    (hneeded : shouldDoWorkNow obs.requirement = some true)
    (hblock : obs.blockNumber = some block)
    (hcompleted : (sweepReceipts obs pending).completed = true)
    (htrack : trackPendingCommitments obs (sweepReceipts obs pending).pending = some tracking) :
    .untracked ∈ tracking.tracked.values ↔
      tracking.txsInMempool > sentCount tracking.unmined := by
  rcases trackPendingCommitments_cases htrack with ⟨count, hcount, ⟨hle, heq⟩ | ⟨hlt, heq⟩⟩
  · rw [heq]
    constructor
    · intro hmarker
      rcases Dict.mem_values_iff_exists.mp hmarker with ⟨key, hget⟩
      have hpending : pending.get? key = some .untracked := by
        rw [sweepReceipts_get? hcompleted, unminedEntries, Dict.get?_filter,
          Option.filter_eq_some_iff] at hget
        exact hget.1
      have hexpected := (hclean (reachesCount_of_completed hneeded hcompleted) block hblock count
        hcount).1 (Dict.mem_values_iff_exists.mpr ⟨key, hpending⟩)
      rwa [sentCount, (Dict.values_perm_of_get?_eq (sweepReceipts_get? hcompleted)).countP_eq]
    · intro hgt
      by_contra hnone
      simp only [sentCount_eq_len hnone] at hgt
      omega
  · rw [heq]
    constructor
    · intro _
      have hcountle := sentCount_le_len (sweepReceipts obs pending).pending
      simp only
      omega
    · intro _
      exact Dict.mem_values_iff_exists.mpr ⟨0, by simp⟩

/-- Nothing is tracked when the tracking step says so. -/
theorem tracked_empty {unmined : PendingTransactions Tx}
    (htrack : trackPendingCommitments obs unmined = some tracking)
    (hresult : tracking.result = false) : tracking.tracked = Dict.empty := by
  rcases trackPendingCommitments_cases htrack with ⟨count, -, ⟨-, heq⟩ | ⟨-, heq⟩⟩
  · have hlen : unmined.len = 0 := by simpa [heq] using hresult
    rw [heq]
    exact Dict.eq_empty_of_len hlen
  · simp [heq] at hresult

/-- A clean cycle does not fire a replacement at a block that is already a key. -/
theorem CleanCycle.block_free (hclean : CleanCycle strategy pending obs)
    (hneeded : shouldDoWorkNow obs.requirement = some true)
    (hblock : obs.blockNumber = some block)
    (hcompleted : (sweepReceipts obs pending).completed = true)
    (htrack : trackPendingCommitments obs (sweepReceipts obs pending).pending = some tracking)
    {oldest : Nat × PendingTransaction Tx} {items : List (Nat × PendingTransaction Tx)}
    {txhash : Tx} (hitems : sortedItems tracking.tracked = oldest :: items)
    (hdue : replacementDue strategy block oldest = some true)
    (hfiring : obs.firing = .sent txhash) : tracking.tracked.get? block = none := by
  have hget := sweepReceipts_get? hcompleted
  rcases trackPendingCommitments_cases htrack with ⟨count, hcount, htracking⟩
  have hfree := (hclean (reachesCount_of_completed hneeded hcompleted) block hblock count
    hcount).2.2 (by simp [hfiring, Firing.txhash?])
  rcases htracking with ⟨-, heq⟩ | ⟨hlt, heq⟩
  · rw [heq] at hitems ⊢
    have holdest : (sweepReceipts obs pending).pending.get? oldest.1 = some oldest.2 :=
      mem_sortedItems.mp (hitems ▸ List.mem_cons_self)
    rw [hget, Dict.get?_eq_none_iff]
    refine hfree.2 oldest (Dict.mem_entries_iff.mpr (hget _ ▸ holdest)) ?_ hdue
    intro other hother
    exact oldest_le hitems ((hget _).trans (Dict.mem_entries_iff.mp hother))
  · rw [heq]
    have hboth := hfree.1 (by rwa [← Dict.len_eq_of_get?_eq hget])
    rw [Dict.get?_set, if_neg hboth.1, hget, Dict.get?_eq_none_iff]
    exact hboth.2

/-- A clean cycle keeps a transaction without a receipt, unless it replaces it. -/
theorem CleanCycle.kept (hclean : CleanCycle strategy pending obs) {e : Nat × Tx}
    (hget : pending.get? e.1 = some (.sent e.2)) (hreceipt : obs.receipt e.2 ≠ .found)
    (hreplaced : (doWork strategy pending obs).work.replaced ≠ some (e.1, .sent e.2)) :
    (doWork strategy pending obs).work.pending.get? e.1 = some (.sent e.2) := by
  rcases doWork_cases strategy pending obs with
    ⟨ending, heq⟩ | ⟨ending, heq⟩ | ⟨tracking, block, hneeded, hblock, hcompleted, htrack, heq⟩
  · rw [heq]
    exact hget
  · rw [heq]
    exact sweepReceipts_get?_of_isUnmined hget (by simp [PendingTransaction.isUnmined, hreceipt])
  · have htracked := hclean.tracked hneeded hblock hcompleted htrack hget hreceipt
    rw [heq] at hreplaced ⊢
    cases hresult : tracking.result with
    | true =>
        simp only [hresult, if_true] at hreplaced ⊢
        rcases handleReplacementCommitment_cases strategy obs.firing tracking.tracked block rfl with
          ⟨-, -, -, hpending⟩ | ⟨oldest, items, txhash, hitems, hdue, hfiring, hwork⟩
        · rw [hpending]
          exact htracked
        · rw [hwork] at hreplaced ⊢
          have hfree := hclean.block_free hneeded hblock hcompleted htrack hitems hdue hfiring
          have hblockne : e.1 ≠ block := by
            intro hsame
            simp [hsame, hfree] at htracked
          have holdestne : e.1 ≠ oldest.1 := by
            intro hsame
            have holdest : tracking.tracked.get? oldest.1 = some oldest.2 :=
              mem_sortedItems.mp (hitems ▸ List.mem_cons_self)
            rw [← hsame, htracked, Option.some.injEq] at holdest
            exact hreplaced (congrArg some (Prod.ext hsame.symm holdest.symm))
          rw [Dict.get?_erase, if_neg holdestne, Dict.get?_set, if_neg hblockne]
          exact htracked
    | false =>
        simp only [Bool.false_eq_true, if_false]
        rcases fireFirstCommitment_cases obs tracking.tracked block rfl with
          ⟨-, -, -, hpending⟩ | ⟨-, -, -, -, ⟨-, hpending⟩ | ⟨txhash, -, hpending⟩⟩
        · rw [hpending]
          exact htracked
        · rw [hpending]
          exact htracked
        · rw [tracked_empty htrack hresult] at htracked
          simp at htracked

/-- A transaction fired in a clean cycle is pending after it. -/
theorem CleanCycle.fired (hclean : CleanCycle strategy pending obs) {e : Nat × Tx}
    (hfired : (doWork strategy pending obs).work.fired = some e) :
    (doWork strategy pending obs).work.pending.get? e.1 = some (.sent e.2) := by
  rcases doWork_cases strategy pending obs with
    ⟨ending, heq⟩ | ⟨ending, heq⟩ | ⟨tracking, block, hneeded, hblock, hcompleted, htrack, heq⟩
  · simp [heq, Work.idle] at hfired
  · simp [heq, Work.idle] at hfired
  · rw [heq] at hfired ⊢
    cases hresult : tracking.result with
    | true =>
        simp only [hresult, if_true] at hfired ⊢
        rcases handleReplacementCommitment_cases strategy obs.firing tracking.tracked block rfl with
          ⟨-, hnone, -, -⟩ | ⟨oldest, items, txhash, hitems, hdue, hfiring, hwork⟩
        · simp [hnone] at hfired
        · rw [hwork, Option.some.injEq] at hfired
          subst hfired
          have hfree := hclean.block_free hneeded hblock hcompleted htrack hitems hdue hfiring
          have holdestne : block ≠ oldest.1 := by
            intro hsame
            have holdest : tracking.tracked.get? oldest.1 = some oldest.2 :=
              mem_sortedItems.mp (hitems ▸ List.mem_cons_self)
            rw [← hsame, hfree] at holdest
            contradiction
          rw [hwork, Dict.get?_erase, if_neg holdestne, Dict.get?_set, if_pos rfl]
    | false =>
        simp only [hresult, Bool.false_eq_true, if_false] at hfired ⊢
        rcases fireFirstCommitment_cases obs tracking.tracked block rfl with
          ⟨-, hnone, -, -⟩ | ⟨-, -, -, -, ⟨hnone, -⟩ | ⟨txhash, hsome, hpending⟩⟩
        · simp [hnone] at hfired
        · simp [hnone] at hfired
        · rw [hsome, Option.some.injEq] at hfired
          subst hfired
          rw [hpending, Dict.get?_set, if_pos rfl]

end Clean

/-! ## Runs -/

/-- In a clean run the tracking step holds the transactions that were pending before the run
and those fired in it, as long as they are outstanding; and the marker as it should. -/
theorem CleanRun.tracking {strategy : GasStrategy} {observations : List (Observation Tx)}
    {pending : PendingTransactions Tx} (hclean : CleanRun strategy pending observations)
    {k : Nat} {cycle : Cycle Tx} {tracking : Tracking Tx}
    (hcycle : (workCycles strategy pending observations)[k]? = some cycle)
    (htracking : cycle.tracking = some tracking) :
    (∀ e : Nat × Tx, pending.get? e.1 = some (.sent e.2) →
      (∀ (j : Nat) (c : Cycle Tx), j ≤ k → (workCycles strategy pending observations)[j]? = some c →
        c.observation.receipt e.2 ≠ .found) →
      (∀ (j : Nat) (c : Cycle Tx), j < k → (workCycles strategy pending observations)[j]? = some c →
        c.work.replaced ≠ some (e.1, .sent e.2)) →
      .sent e.2 ∈ tracking.tracked.values) ∧
    (∀ e, Outstanding (workCycles strategy pending observations) k e →
      .sent e.2 ∈ tracking.tracked.values) ∧
    (.untracked ∈ tracking.tracked.values ↔
      tracking.txsInMempool > sentCount tracking.unmined) := by
  induction observations generalizing pending k with
  | nil => simp [workCycles] at hcycle
  | cons obs rest ih =>
      cases k with
      | zero =>
          have hself : doWork strategy pending obs = cycle := by
            simpa [workCycles] using hcycle
          subst hself
          rcases doWork_cases strategy pending obs with
            ⟨ending, heq⟩ | ⟨ending, heq⟩ |
              ⟨tracking', block, hneeded, hblock, hcompleted, htrack, heq⟩
          · simp [heq] at htracking
          · simp [heq] at htracking
          · have hsame : tracking' = tracking := by simpa [heq] using htracking
            subst hsame
            refine ⟨?_, ?_, hclean.1.marker_iff hneeded hblock hcompleted htrack⟩
            · intro e hget hreceipt _
              have hnotfound : obs.receipt e.2 ≠ .found := by
                simpa using hreceipt 0 _ le_rfl rfl
              exact Dict.mem_values_iff_exists.mpr
                ⟨e.1, hclean.1.tracked hneeded hblock hcompleted htrack hget hnotfound⟩
            · intro e houtstanding
              rcases houtstanding with ⟨i, firing, hi, -⟩
              omega
      | succ k =>
          have hrest := ih hclean.2 hcycle
          refine ⟨?_, ?_, hrest.2.2⟩
          · intro e hget hreceipt hreplaced
            have hnotfound : obs.receipt e.2 ≠ .found := by
              simpa using hreceipt 0 _ (Nat.zero_le _) rfl
            exact hrest.1 e (hclean.1.kept hget hnotfound (hreplaced 0 _ (Nat.succ_pos k) rfl))
              (fun j c hj hc => hreceipt (j + 1) c (by omega) hc)
              (fun j c hj hc => hreplaced (j + 1) c (by omega) hc)
          · intro e houtstanding
            rcases houtstanding with ⟨i, firing, hi, hfiring, hfired, hreceipt, hreplaced⟩
            cases i with
            | zero =>
                have hself : doWork strategy pending obs = firing := by
                  simpa [workCycles] using hfiring
                subst hself
                exact hrest.1 e (hclean.1.fired hfired)
                  (fun j c hj hc => hreceipt (j + 1) c (by omega) (by omega) hc)
                  (fun j c hj hc => hreplaced (j + 1) c (by omega) (by omega) hc)
            | succ i =>
                exact hrest.2.1 e ⟨i, firing, by omega, hfiring, hfired,
                  fun j c hij hj hc => hreceipt (j + 1) c (by omega) (by omega) hc,
                  fun j c hij hj hc => hreplaced (j + 1) c (by omega) (by omega) hc⟩

/-- In every run of clean cycles the tracking step of each cycle holds every fired transaction
that has no receipt yet and was not replaced, and the marker exactly when the mempool holds
more transactions than are tracked. -/
theorem CleanRun.tracksOutstanding (strategy : GasStrategy)
    (observations : List (Observation Tx))
    (hclean : CleanRun strategy Dict.empty observations) :
    TracksOutstanding (workCycles strategy Dict.empty observations) := by
  intro k cycle tracking hcycle htracking
  exact (hclean.tracking hcycle htracking).2

/-- An observation of a bonded worker without a requirement, none of whose transactions has
a receipt. -/
def sampleObservation (block : Nat) (txsInMempool : Int) (firing : Firing Nat) :
    Observation Nat where
  requirement := none
  blockNumber := some block
  receipt := fun _ => .notFound
  txCountPending := some txsInMempool
  txCountLatest := some 0
  requirementAgain := none
  bonded := some true
  firing := firing

/-- A run that fires, waits, replaces after the maximal time, and replaces a marker in the
second attempt. -/
def cleanObservations : List (Observation Nat) :=
  [sampleObservation 5 0 (.sent 1), sampleObservation 6 1 .raised,
    sampleObservation 20 1 (.sent 2), sampleObservation 21 3 .raised,
    sampleObservation 22 3 (.sent 3), sampleObservation 23 2 .raised]

theorem cleanObservations_tracked :
    CleanRun .fast Dict.empty cleanObservations ∧
    TracksOutstanding (workCycles .fast Dict.empty cleanObservations) :=
  ⟨by decide, CleanRun.tracksOutstanding .fast cleanObservations (by decide)⟩

/-- Two cycles at one block, with another transaction of the worker in the mempool. -/
def collidingObservations : List (Observation Nat) :=
  [sampleObservation 5 0 (.sent 1), sampleObservation 5 2 (.sent 2),
    sampleObservation 6 3 .raised]

/-- The replacement of the marker in the second cycle takes the place of the transaction that
was fired in the first. -/
theorem not_tracksOutstanding :
    ¬ TracksOutstanding (workCycles .fast Dict.empty collidingObservations) := by
  intro h
  have houtstanding : Outstanding (workCycles .fast Dict.empty collidingObservations) 2 (5, 1) := by
    refine ⟨0, _, by decide, rfl, rfl, ?_, ?_⟩
    · intro j cycle hj hj' hcycle
      interval_cases j <;> cases hcycle <;> decide
    · intro j cycle hj hj' hcycle
      interval_cases j
      cases hcycle
      decide
  have htracked := (h 2 _ _ rfl rfl).1 (5, 1) houtstanding
  revert htracked
  decide

end NuLink
