import NuLinkCore.Lib.Numeral
import NuLinkCore.Lib.Tiling

/-!
# Retrieving events in batches

Nodes limit the number of blocks that one request for events may span.  The throttler asks for
the events of an interval of blocks range by range, and the ranges are inclusive: each one
begins at the block behind the one before.

Main results:

- Theorem {lit}`ContractEventsThrottler.init_eq_ok_iff`: which throttlers can be constructed.
- Theorem {lit}`ContractEventsThrottler.batches_tiles`: the loop asks for ranges that tile what
  remains of the interval.
- Theorem {lit}`ContractEventsThrottler.iter_covers`: every block is asked for once, in order, and
  the events of the interval are retrieved, each once.
- Theorem {lit}`ContractEventsThrottler.blockCount_le`: a call spans at most one block more than
  the configured maximum.
- Theorem {lit}`ContractEventsThrottler.iter_within_maximum_iff`: no call spans more than the
  maximum exactly where the whole interval does not.
-/

namespace NuLink

open Numerals Tilings

universe u v

/-- What {lit}`agent.events[event_name]` is called with: filters of arguments, and a first and a
last block. -/
abbrev EventFilter (Filters : Type u) (Record : Type v) : Type (max u v) :=
  Filters → (fromBlock toBlock : Int) → List Record

/-- What is used of an agent. -/
structure EventsAgent (Filters : Type u) (Record : Type v) where
  events : String → Option (EventFilter Filters Record)
  blockNumber : Int

inductive ThrottlerError where
  | unknownEvent
  | invalidRange (message : String)
deriving DecidableEq

/-- {lit}`ContractEventsThrottler`; its interval is not empty. -/
structure ContractEventsThrottler (Filters : Type u) (Record : Type v) where
  eventFilter : EventFilter Filters Record
  fromBlock : Int
  toBlock : Int
  maxBlocksPerCall : Int
  argumentFilters : Filters
  valid : fromBlock ≤ toBlock

/-- One call of the event filter, and its answer. -/
structure Batch (Record : Type v) where
  fromBlock : Int
  toBlock : Int
  records : List Record

def Batch.range {Record : Type v} (batch : Batch Record) : Int × Int :=
  (batch.fromBlock, batch.toBlock)

/-- The number of blocks that a call spans, both ends counted. -/
def Batch.blockCount {Record : Type v} (batch : Batch Record) : Int :=
  batch.toBlock - batch.fromBlock + 1

namespace ContractEventsThrottler

variable {Filters : Type u} {Record : Type v}

/-- {lit}`DEFAULT_MAX_BLOCKS_PER_CALL`, unless the environment sets it. -/
def defaultMaxBlocksPerCall : Int := 1000

/-- {lit}`__init__`; the interval ends at the latest block by default. -/
def init (agent : EventsAgent Filters Record) (eventName : String) (fromBlock : Int)
    (argumentFilters : Filters) (toBlock : Option Int := none)
    (maxBlocksPerCall : Int := defaultMaxBlocksPerCall) :
    Except ThrottlerError (ContractEventsThrottler Filters Record) :=
  match agent.events eventName with
  | none => .error .unknownEvent
  | some eventFilter =>
      let toBlock := toBlock.getD agent.blockNumber
      if h : toBlock < fromBlock then
        .error (.invalidRange ("Invalid events block range: to_block (" ++ printInt toBlock ++
          ") must be ≥ from_block (" ++ printInt fromBlock ++ ")"))
      else
        .ok ⟨eventFilter, fromBlock, toBlock, maxBlocksPerCall, argumentFilters, Int.not_lt.mp h⟩

variable (throttler : ContractEventsThrottler Filters Record)

/-- The last block of a range that begins at a block. -/
def rangeEnd (currentFromBlock : Int) : Int :=
  min (currentFromBlock + throttler.maxBlocksPerCall) throttler.toBlock

/-- The loop of {lit}`__iter__`. -/
def batches (currentFromBlock currentToBlock : Int) : List (Batch Record) :=
  if currentFromBlock ≤ currentToBlock then
    ⟨currentFromBlock, currentToBlock,
      throttler.eventFilter throttler.argumentFilters currentFromBlock currentToBlock⟩ ::
        batches (currentToBlock + 1) (throttler.rangeEnd (currentToBlock + 1))
  else []
termination_by (max throttler.toBlock currentToBlock + 1 - currentFromBlock).toNat
decreasing_by
  have hend : throttler.rangeEnd (currentToBlock + 1) ≤ throttler.toBlock := min_le_right _ _
  omega

/-- The calls that {lit}`__iter__` makes. -/
def iter : List (Batch Record) :=
  throttler.batches throttler.fromBlock (throttler.rangeEnd throttler.fromBlock)

/-- What {lit}`__iter__` yields. -/
def events : List Record := throttler.iter.flatMap Batch.records

/-- The event filter answers with the logs of the blocks of a range. -/
def Answers (logs : List Record) (block : Record → Int) : Prop :=
  ∀ fromBlock toBlock, throttler.eventFilter throttler.argumentFilters fromBlock toBlock =
    inRange block (fromBlock, toBlock) logs

/-! ## Construction -/

theorem init_eq_ok_iff {agent : EventsAgent Filters Record} {eventName : String}
    {fromBlock : Int} {argumentFilters : Filters} {toBlock : Option Int} {maxBlocksPerCall : Int} :
    (∃ throttler, init agent eventName fromBlock argumentFilters toBlock maxBlocksPerCall =
      .ok throttler) ↔
        (agent.events eventName).isSome ∧ fromBlock ≤ toBlock.getD agent.blockNumber := by
  cases hevent : agent.events eventName with
  | none => simp [init, hevent]
  | some eventFilter =>
      rcases lt_or_ge (toBlock.getD agent.blockNumber) fromBlock with hlt | hge
      · simp [init, hevent, hlt, not_le_of_gt hlt]
      · simp [init, hevent, hge, not_lt_of_ge hge]

/-! ## The ranges -/

variable {throttler}

theorem batches_of_le {currentFromBlock currentToBlock : Int}
    (h : currentFromBlock ≤ currentToBlock) :
    throttler.batches currentFromBlock currentToBlock =
      ⟨currentFromBlock, currentToBlock,
        throttler.eventFilter throttler.argumentFilters currentFromBlock currentToBlock⟩ ::
          throttler.batches (currentToBlock + 1) (throttler.rangeEnd (currentToBlock + 1)) := by
  rw [batches, if_pos h]

theorem batches_of_lt {currentFromBlock currentToBlock : Int}
    (h : currentToBlock < currentFromBlock) :
    throttler.batches currentFromBlock currentToBlock = [] := by
  rw [batches, if_neg (not_le_of_gt h)]

/-- The call for the range that begins at a block. -/
def batchAt (throttler : ContractEventsThrottler Filters Record) (first : Int) : Batch Record where
  fromBlock := first
  toBlock := throttler.rangeEnd first
  records := throttler.eventFilter throttler.argumentFilters first (throttler.rangeEnd first)

/-- Every call is the one for the range that begins at its first block. -/
theorem eq_batchAt_of_mem_batches {currentFromBlock currentToBlock : Int} {batch : Batch Record}
    (hend : currentToBlock = throttler.rangeEnd currentFromBlock)
    (h : batch ∈ throttler.batches currentFromBlock currentToBlock) :
    batch = throttler.batchAt batch.fromBlock := by
  induction currentFromBlock, currentToBlock using batches.induct throttler with
  | case1 currentFromBlock currentToBlock hle ih =>
      rw [batches_of_le hle, List.mem_cons] at h
      rcases h with rfl | hrest
      · rw [batchAt, hend]
      · exact ih rfl hrest
  | case2 currentFromBlock currentToBlock hlt =>
      rw [batches_of_lt (not_le.mp hlt)] at h
      cases h

theorem eq_batchAt_of_mem_iter {batch : Batch Record} (h : batch ∈ throttler.iter) :
    batch = throttler.batchAt batch.fromBlock :=
  eq_batchAt_of_mem_batches rfl h

theorem batchAt_mem_iter (hmax : 0 ≤ throttler.maxBlocksPerCall) :
    throttler.batchAt throttler.fromBlock ∈ throttler.iter := by
  have hle : throttler.fromBlock ≤ throttler.rangeEnd throttler.fromBlock :=
    le_min (by omega) throttler.valid
  rw [iter, batches_of_le hle]
  exact List.mem_cons_self

/-- The invariant of the loop: the ranges tile what remains of the interval. -/
theorem batches_tiles (hmax : 0 ≤ throttler.maxBlocksPerCall)
    {currentFromBlock currentToBlock : Int} (hto : currentFromBlock ≤ throttler.toBlock + 1)
    (hend : currentToBlock = throttler.rangeEnd currentFromBlock) :
    Tiles currentFromBlock (throttler.toBlock + 1)
      ((throttler.batches currentFromBlock currentToBlock).map Batch.range) := by
  induction currentFromBlock, currentToBlock using batches.induct throttler with
  | case1 currentFromBlock currentToBlock hle ih =>
      have hlast : currentToBlock ≤ throttler.toBlock := hend ▸ min_le_right _ _
      rw [batches_of_le hle, List.map_cons]
      exact Tiles.cons hle (ih (by omega) rfl)
  | case2 currentFromBlock currentToBlock hlt =>
      -- The loop ends only behind the interval, since a range has room for its first block.
      have hfinished : currentFromBlock = throttler.toBlock + 1 := by
        rw [rangeEnd] at hend
        omega
      rw [batches_of_lt (not_le.mp hlt), hfinished]
      exact Tiles.nil _

theorem iter_tiles (hmax : 0 ≤ throttler.maxBlocksPerCall) :
    Tiles throttler.fromBlock (throttler.toBlock + 1) (throttler.iter.map Batch.range) :=
  batches_tiles hmax (by have hvalid := throttler.valid; omega) rfl

theorem add_self_ediv {a n : Int} (h : 0 < n) : (a + n) / n = a / n + 1 := by
  have hmul := Int.add_mul_ediv_right a 1 h.ne'
  rwa [one_mul] at hmul

/-- The number of calls that the loop still makes. -/
theorem length_batches (hmax : 0 ≤ throttler.maxBlocksPerCall)
    {currentFromBlock currentToBlock : Int} (hto : currentFromBlock ≤ throttler.toBlock + 1)
    (hend : currentToBlock = throttler.rangeEnd currentFromBlock) :
    ((throttler.batches currentFromBlock currentToBlock).length : Int) =
      (throttler.toBlock - currentFromBlock + (throttler.maxBlocksPerCall + 1)) /
        (throttler.maxBlocksPerCall + 1) := by
  have hpos : 0 < throttler.maxBlocksPerCall + 1 := by omega
  induction currentFromBlock, currentToBlock using batches.induct throttler with
  | case1 currentFromBlock currentToBlock hle ih =>
      have hlast : currentToBlock ≤ throttler.toBlock := hend ▸ min_le_right _ _
      have hrest := ih (by omega) rfl
      rw [batches_of_le hle, List.length_cons, Nat.cast_add, Nat.cast_one, hrest,
        add_self_ediv (a := throttler.toBlock - currentFromBlock) hpos]
      congr 1
      rcases le_or_gt (currentFromBlock + throttler.maxBlocksPerCall) throttler.toBlock with
        hfull | hpart
      · rw [rangeEnd, min_eq_left hfull] at hend
        congr 1
        omega
      · rw [rangeEnd, min_eq_right hpart.le] at hend
        rw [Int.ediv_eq_zero_of_lt (by omega) (by omega),
          Int.ediv_eq_zero_of_lt (by omega) (by omega)]
  | case2 currentFromBlock currentToBlock hlt =>
      have hfinished : currentFromBlock = throttler.toBlock + 1 := by
        rw [rangeEnd] at hend
        omega
      rw [batches_of_lt (not_le.mp hlt), hfinished, List.length_nil, Nat.cast_zero]
      symm
      apply Int.ediv_eq_zero_of_lt <;> omega

/-! ## Coverage -/

/-- The events are those of the ranges. -/
theorem events_eq (throttler : ContractEventsThrottler Filters Record) {logs : List Record}
    {block : Record → Int} (hanswers : throttler.Answers logs block) :
    throttler.events =
      (throttler.iter.map Batch.range).flatMap fun range => inRange block range logs := by
  rw [events, List.flatMap_map]
  apply List.flatMap_congr
  intro batch hbatch
  rw [eq_batchAt_of_mem_iter hbatch]
  exact hanswers _ _

/-- Iterating makes finitely many calls, as many as are needed.  Their ranges are consecutive from
the first block to the last one, lie behind each other and cover the blocks of the interval and no
others; and the events of the interval are retrieved, each once, and in order where the logs
are. -/
theorem iter_covers (throttler : ContractEventsThrottler Filters Record)
    (hmax : 0 ≤ throttler.maxBlocksPerCall) :
    let ranges := throttler.iter.map Batch.range
    (ranges.length : Int) =
        (throttler.toBlock - throttler.fromBlock) / (throttler.maxBlocksPerCall + 1) + 1 ∧
      Tiles throttler.fromBlock (throttler.toBlock + 1) ranges ∧
      (ranges.Pairwise fun range range' => range.2 < range'.1) ∧
      (∀ block, (∃ range ∈ ranges, range.1 ≤ block ∧ block ≤ range.2) ↔
        throttler.fromBlock ≤ block ∧ block ≤ throttler.toBlock) ∧
      ∀ (logs : List Record) (block : Record → Int), throttler.Answers logs block →
        throttler.events.Perm (inRange block (throttler.fromBlock, throttler.toBlock) logs) ∧
          ((logs.Pairwise fun log log' => block log ≤ block log') →
            throttler.events = inRange block (throttler.fromBlock, throttler.toBlock) logs) := by
  intro ranges
  have htiles : Tiles throttler.fromBlock (throttler.toBlock + 1) ranges := iter_tiles hmax
  refine ⟨?_, htiles, htiles.pairwise, ?_, ?_⟩
  · have hvalid := throttler.valid
    rw [List.length_map, iter, length_batches hmax (by omega) rfl, add_self_ediv (by omega)]
  · intro block
    rw [htiles.exists_mem_iff, Int.lt_add_one_iff]
  · intro logs block hanswers
    have hwithin : within block throttler.fromBlock (throttler.toBlock + 1) logs =
        inRange block (throttler.fromBlock, throttler.toBlock) logs := by
      simp only [within, inRange, Int.lt_add_one_iff]
    rw [events_eq throttler hanswers, ← hwithin]
    exact ⟨htiles.flatMap_filter_perm block logs, htiles.flatMap_filter_eq block⟩

/-- Ten events, one in each block, and the interval of the blocks 2 to 8, in ranges of 3. -/
def sampleThrottler : ContractEventsThrottler Unit Int where
  eventFilter _ fromBlock toBlock := inRange id (fromBlock, toBlock) [0, 1, 2, 3, 4, 5, 6, 7, 8, 9]
  fromBlock := 2
  toBlock := 8
  maxBlocksPerCall := 2
  argumentFilters := ()
  valid := by decide

theorem iter_covers_sample :
    ((sampleThrottler.iter.map Batch.range).length : Int) = 3 ∧
      sampleThrottler.events = [2, 3, 4, 5, 6, 7, 8] := by
  have hcovers := iter_covers sampleThrottler (by decide)
  refine ⟨hcovers.1, ?_⟩
  have hevents := (hcovers.2.2.2.2 [0, 1, 2, 3, 4, 5, 6, 7, 8, 9] id fun _ _ => rfl).2 (by decide)
  rw [hevents]
  decide

/-! ## The size of the ranges -/

/-- The end of a range is itself asked for: there is room for one block more. -/
theorem blockCount_le {batch : Batch Record} (h : batch ∈ throttler.iter) :
    batch.blockCount ≤ throttler.maxBlocksPerCall + 1 := by
  have hend : batch.toBlock = throttler.rangeEnd batch.fromBlock :=
    congrArg Batch.toBlock (eq_batchAt_of_mem_iter h)
  have hroom : throttler.rangeEnd batch.fromBlock ≤
      batch.fromBlock + throttler.maxBlocksPerCall := min_le_left _ _
  rw [Batch.blockCount]
  omega

/-- No range is larger than the interval. -/
theorem blockCount_le_interval (hmax : 0 ≤ throttler.maxBlocksPerCall) {batch : Batch Record}
    (h : batch ∈ throttler.iter) :
    batch.blockCount ≤ throttler.toBlock - throttler.fromBlock + 1 := by
  have hinside := (iter_tiles hmax).inside (List.mem_map_of_mem h)
  simp only [Batch.range] at hinside
  rw [Batch.blockCount]
  omega

/-- Every call stays within the maximum exactly where a single call would do: the first range of
a longer interval has its full size, and that is one block more. -/
theorem iter_within_maximum_iff (throttler : ContractEventsThrottler Filters Record)
    (hmax : 1 ≤ throttler.maxBlocksPerCall) :
    (∀ batch ∈ throttler.iter, batch.blockCount ≤ throttler.maxBlocksPerCall) ↔
      throttler.toBlock - throttler.fromBlock + 1 ≤ throttler.maxBlocksPerCall := by
  have hnonneg : 0 ≤ throttler.maxBlocksPerCall := by omega
  constructor
  · intro hall
    -- The first call is as large as any other one can be.
    have hfirst := hall _ (batchAt_mem_iter hnonneg)
    simp only [Batch.blockCount, batchAt] at hfirst
    rcases le_or_gt (throttler.fromBlock + throttler.maxBlocksPerCall) throttler.toBlock with
      hfull | hpart
    · rw [rangeEnd, min_eq_left hfull] at hfirst
      omega
    · rwa [rangeEnd, min_eq_right hpart.le] at hfirst
  · intro hinterval batch hbatch
    exact (blockCount_le_interval hnonneg hbatch).trans hinterval

/-- The interval of the sample has seven blocks. -/
theorem iter_within_maximum_iff_sample :
    (∀ batch ∈ iter { sampleThrottler with maxBlocksPerCall := 7 }, batch.blockCount ≤ 7) ∧
      ¬ ∀ batch ∈ iter { sampleThrottler with maxBlocksPerCall := 6 }, batch.blockCount ≤ 6 := by
  have hseven := iter_within_maximum_iff { sampleThrottler with maxBlocksPerCall := 7 } (by decide)
  have hsix := iter_within_maximum_iff { sampleThrottler with maxBlocksPerCall := 6 } (by decide)
  exact ⟨hseven.mpr (by decide), fun hall => absurd (hsix.mp hall) (by decide)⟩

/-- The first call asks for the blocks 2, 3 and 4 where two blocks are the maximum. -/
theorem maximum_exceeded :
    1 ≤ sampleThrottler.maxBlocksPerCall ∧
      ∃ batch ∈ sampleThrottler.iter, batch.range = (2, 4) ∧
        ¬ batch.blockCount ≤ sampleThrottler.maxBlocksPerCall :=
  ⟨by decide, _, batchAt_mem_iter (by decide), rfl, by decide⟩

end ContractEventsThrottler

end NuLink
