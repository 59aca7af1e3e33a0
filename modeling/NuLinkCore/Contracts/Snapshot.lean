import Mathlib.Tactic
import NuLinkCore.Lib.StepFunction

/-!
# Snapshot histories

The Solidity library {lit}`Snapshot` keeps a history of values in packed words, 32 bits of
time over 96 bits of value, and answers lookups at any time by a binary search.  A call
that reverts has no result.

Main results:

- Theorems {lit}`decodeSnapshot_encodeSnapshot` and {lit}`encodeSnapshot_decodeSnapshot`: the
  packing is a bijection.
- Theorem {lit}`Records.addSnapshot`: every call that does not revert keeps the history in
  step with the calls it records.
- Theorem {lit}`getValueAt_eq`: on strictly increasing times the search returns, and finds
  the value of the step function.
- Theorem {lit}`replay_lookup`: the same for every sequence of calls.
-/

namespace NuLink
namespace Snapshot

/-! ## Packed words -/

def encodeSnapshot (time : BitVec 32) (value : BitVec 96) : BitVec 128 :=
  ((time.setWidth 256 <<< 96) ||| value.setWidth 256).setWidth 128

/-- The time is in the four leading bytes of the word. -/
def decodeSnapshot (snapshot : BitVec 128) : BitVec 32 × BitVec 96 :=
  (snapshot.extractLsb' 96 32, snapshot.setWidth 96)

theorem getLsbD_encodeSnapshot (time : BitVec 32) (value : BitVec 96) (i : Nat) :
    (encodeSnapshot time value).getLsbD i =
      if i < 96 then value.getLsbD i else time.getLsbD (i - 96) := by
  simp only [encodeSnapshot, BitVec.getLsbD_setWidth, BitVec.getLsbD_or, BitVec.getLsbD_shiftLeft]
  by_cases hlow : i < 96
  · simp [hlow, show i < 128 by omega, show i < 256 by omega]
  · have hvalue : value.getLsbD i = false := BitVec.getLsbD_of_ge value i (by omega)
    by_cases hhigh : i < 128
    · simp [hlow, hhigh, hvalue, show i < 256 by omega, show i - 96 < 256 by omega]
    · have htime : time.getLsbD (i - 96) = false := BitVec.getLsbD_of_ge time _ (by omega)
      simp [hlow, hhigh, htime]

@[simp]
theorem decodeSnapshot_encodeSnapshot (time : BitVec 32) (value : BitVec 96) :
    decodeSnapshot (encodeSnapshot time value) = (time, value) := by
  apply Prod.ext
  · apply BitVec.eq_of_getLsbD_eq
    intro i hi
    simp [decodeSnapshot, getLsbD_encodeSnapshot, hi]
  · apply BitVec.eq_of_getLsbD_eq
    intro i hi
    simp [decodeSnapshot, getLsbD_encodeSnapshot, hi]

@[simp]
theorem encodeSnapshot_decodeSnapshot (snapshot : BitVec 128) :
    encodeSnapshot (decodeSnapshot snapshot).1 (decodeSnapshot snapshot).2 = snapshot := by
  apply BitVec.eq_of_getLsbD_eq
  intro i hi
  rw [getLsbD_encodeSnapshot]
  by_cases hlow : i < 96
  · simp [decodeSnapshot, hlow]
  · simp [decodeSnapshot, hlow, show i - 96 < 32 by omega, show 96 + (i - 96) = i by omega]

/-! ## The library functions -/

/-- The history is a storage array of packed words. -/
abbrev History := List (BitVec 128)

/-- A time equal to the newest one overwrites its word, an older one reverts. -/
def addSnapshot (self : History) (time value : BitVec 256) : Option History :=
  let snapshot := encodeSnapshot (time.setWidth 32) (value.setWidth 96)
  if self.length ≠ 0 then do
    let current ← self[self.length - 1]?
    let currentTime := (decodeSnapshot current).1
    if time.setWidth 32 = currentTime then
      some (self.set (self.length - 1) snapshot)
    else if time.setWidth 32 < currentTime then
      none
    else
      some (self ++ [snapshot])
  else
    some (self ++ [snapshot])

def lastSnapshot (self : History) : Option (BitVec 32 × BitVec 96) :=
  if self.length > 0 then
    self[self.length - 1]?.map decodeSnapshot
  else
    some (0, 0)

def lastValue (self : History) : Option (BitVec 96) :=
  (lastSnapshot self).map Prod.snd

/-- The loop of the lookup.  Overflowing sums and reads outside the array revert. -/
def searchLoop (self : History) (time : BitVec 32) (low high : Nat) : Option (BitVec 96) :=
  if high > low then
    if high + low + 1 < 2 ^ 256 then
      let mid := (high + low + 1) / 2
      match self[mid]? with
      | none => none
      | some snapshot =>
          let midTime := (decodeSnapshot snapshot).1
          if time > midTime then
            searchLoop self time mid high
          else if time < midTime then
            if 1 ≤ mid then searchLoop self time low (mid - 1) else none
          else
            some (decodeSnapshot snapshot).2
    else
      none
  else
    self[low]?.map (fun snapshot => (decodeSnapshot snapshot).2)
termination_by high - low

/-- Both ends are checked before the search, so that it leaves out the last word. -/
def getValueAt (self : History) (time256 : BitVec 256) : Option (BitVec 96) :=
  let time := time256.setWidth 32
  if self.length = 0 then
    some 0
  else do
    let lastIndex := self.length - 1
    let last ← self[lastIndex]?
    if time ≥ (decodeSnapshot last).1 then
      some (decodeSnapshot last).2
    else
      let first ← self[0]?
      if self.length = 1 ∨ time < (decodeSnapshot first).1 then
        some 0
      else if 1 ≤ lastIndex then
        searchLoop self time 0 (lastIndex - 1)
      else
        none

/-! ## Lookups on strictly increasing times -/

/-- The time and the value of a stored word. -/
def entry (snapshot : BitVec 128) : Nat × BitVec 96 :=
  ((decodeSnapshot snapshot).1.toNat, (decodeSnapshot snapshot).2)

/-- The recorded times and values, oldest first. -/
def entries (self : History) : List (Nat × BitVec 96) := self.map entry

/-- The recorded times are strictly increasing. -/
def Increasing (self : History) : Prop := (entries self).Pairwise (fun a b => a.1 < b.1)

theorem getElem?_entries (self : History) (i : Nat) :
    (entries self)[i]? = self[i]?.map entry := by
  simp [entries]

/-- Times of 32 bits leave room for no more than {lit}`2 ^ 32` increasing ones. -/
theorem Increasing.index_le {self : History} (h : Increasing self) {i : Nat}
    {snapshot : BitVec 128} (hget : self[i]? = some snapshot) : i ≤ (entry snapshot).1 := by
  induction i generalizing snapshot with
  | zero => exact Nat.zero_le _
  | succ i ih =>
      rcases List.getElem?_eq_some_iff.mp hget with ⟨hi, hval⟩
      have hprev : i ≤ (entry self[i]).1 := ih (List.getElem?_eq_getElem (by omega))
      have hlt := List.pairwise_iff_getElem.mp h i (i + 1)
        (by simp only [entries, List.length_map]; omega)
        (by simp only [entries, List.length_map]; omega) (by omega)
      simp only [entries, List.getElem_map, hval] at hlt
      omega

theorem Increasing.length_le {self : History} (h : Increasing self) : self.length ≤ 2 ^ 32 := by
  by_contra hlong
  have hget : self[2 ^ 32]? = some (self.get ⟨2 ^ 32, by omega⟩) :=
    List.getElem?_eq_getElem (by omega)
  have hlast : 2 ^ 32 ≤ (entry (self.get ⟨2 ^ 32, by omega⟩)).1 := h.index_le hget
  have hbound := (decodeSnapshot (self.get ⟨2 ^ 32, by omega⟩)).1.isLt
  rw [entry] at hlast
  omega

theorem Increasing.lt_next {self : History} (h : Increasing self) {i : Nat}
    {snapshot next : BitVec 128} (hget : self[i]? = some snapshot)
    (hnext : self[i + 1]? = some next) : (entry snapshot).1 < (entry next).1 := by
  rcases List.getElem?_eq_some_iff.mp hget with ⟨hi, rfl⟩
  rcases List.getElem?_eq_some_iff.mp hnext with ⟨hi', rfl⟩
  have hlt := List.pairwise_iff_getElem.mp h i (i + 1) (by simpa [entries] using hi)
    (by simpa [entries] using hi') (by omega)
  simpa [entries] using hlt

/-- The value of the step function of the recorded entries, and zero before the first. -/
def valueAt (self : History) (time : BitVec 32) : BitVec 96 :=
  (StepFunction.at? (entries self) time.toNat).getD 0

/-- A word decides the value from its own time up to the time of the next word. -/
theorem valueAt_eq_of_bracket {self : History} (h : Increasing self) {time : BitVec 32} {i : Nat}
    {snapshot : BitVec 128} (hget : self[i]? = some snapshot)
    (hle : (entry snapshot).1 ≤ time.toNat)
    (hnext : ∀ next, self[i + 1]? = some next → time.toNat < (entry next).1) :
    valueAt self time = (decodeSnapshot snapshot).2 := by
  have hentry : (entries self)[i]? = some (entry snapshot) := by
    rw [getElem?_entries, hget, Option.map_some]
  have hbeyond : ∀ later, (entries self)[i + 1]? = some later → time.toNat < later.1 := by
    intro later hlater
    rw [getElem?_entries, Option.map_eq_some_iff] at hlater
    rcases hlater with ⟨next, hget', heq⟩
    exact heq ▸ hnext next hget'
  rw [valueAt, StepFunction.at?_eq_of_bracket h hentry hle hbeyond]
  rfl

/-- Before the first word there is no value. -/
theorem valueAt_eq_zero {self : History} (h : Increasing self) {time : BitVec 32}
    {first : BitVec 128} (hfirst : self[0]? = some first)
    (hlt : time.toNat < (entry first).1) : valueAt self time = 0 := by
  have hbeyond : ∀ e ∈ entries self, time.toNat < e.1 := by
    cases self with
    | nil => simp at hfirst
    | cons head tail =>
        have hhead : head = first := by simpa using hfirst
        subst hhead
        intro e he
        rcases List.mem_cons.mp he with hself | htail
        · exact hself ▸ hlt
        · exact lt_trans hlt ((List.pairwise_cons.mp h).1 e htail)
  rw [valueAt, StepFunction.at?_eq_none hbeyond]
  rfl

/-- The window of the search: its left end is not beyond the time, and the word after its
right end is. -/
structure SearchInvariant (history : History) (time : BitVec 32) (low high : Nat) : Prop where
  low_le_high : low ≤ high
  lower : ∃ snapshot, history[low]? = some snapshot ∧ (entry snapshot).1 ≤ time.toNat
  upper : ∃ snapshot, history[high + 1]? = some snapshot ∧ time.toNat < (entry snapshot).1

theorem SearchInvariant.high_lt {self : History} {time : BitVec 32} {low high : Nat}
    (h : SearchInvariant self time low high) : high + 1 < self.length := by
  rcases h.upper with ⟨snapshot, hget, _⟩
  exact (List.getElem?_eq_some_iff.mp hget).1

/-- A closed window has found the step. -/
theorem SearchInvariant.valueAt_eq {self : History} {time : BitVec 32} {low : Nat}
    (h : SearchInvariant self time low low) (hinc : Increasing self) :
    self[low]?.map (fun snapshot => (decodeSnapshot snapshot).2) = some (valueAt self time) := by
  rcases h.lower with ⟨snapshot, hget, hle⟩
  rcases h.upper with ⟨next, hnext, hlt⟩
  have hvalue : valueAt self time = (decodeSnapshot snapshot).2 := by
    apply valueAt_eq_of_bracket hinc hget hle
    intro later hlater
    rw [hnext, Option.some.injEq] at hlater
    exact hlater ▸ hlt
  rw [hvalue, hget, Option.map_some]

/-- The search returns from every window, and finds the step. -/
theorem searchLoop_eq {self : History} (hinc : Increasing self) {time : BitVec 32} {low high : Nat}
    (hinv : SearchInvariant self time low high) :
    searchLoop self time low high = some (valueAt self time) := by
  have hlen := hinc.length_le
  fun_induction searchLoop self time low high with
  | case1 low high hgt hsum mid hnone =>
      have hmid : mid < self.length := by
        have := hinv.high_lt
        omega
      rw [List.getElem?_eq_getElem hmid] at hnone
      contradiction
  | case2 low high hgt hsum mid snapshot hget midTime hlt ih =>
      apply ih
      exact { hinv with
        low_le_high := by omega
        lower := ⟨snapshot, hget, le_of_lt hlt⟩ }
  | case3 low high hgt hsum mid snapshot hget midTime hge hlt hpos ih =>
      apply ih
      exact { hinv with
        low_le_high := by omega
        upper := ⟨snapshot, by rwa [Nat.sub_add_cancel hpos], hlt⟩ }
  | case4 low high hgt hsum mid snapshot hget midTime hge hlt hzero => omega
  | case5 low high hgt hsum mid snapshot hget midTime hge hle =>
      have htime : (entry snapshot).1 = time.toNat := le_antisymm (not_lt.mp hle) (not_lt.mp hge)
      rw [valueAt_eq_of_bracket hinc hget (le_of_eq htime)]
      intro next hnext
      exact htime ▸ hinc.lt_next hget hnext
  | case6 low high hgt hsum =>
      have := hinv.high_lt
      omega
  | case7 low high hclosed =>
      have heq : low = high := le_antisymm hinv.low_le_high (not_lt.mp hclosed)
      subst heq
      exact hinv.valueAt_eq hinc

/-- The lookup returns on strictly increasing times, and is the step function. -/
theorem getValueAt_eq {self : History} (hinc : Increasing self) (time256 : BitVec 256) :
    getValueAt self time256 = some (valueAt self (time256.setWidth 32)) := by
  generalize htime : time256.setWidth 32 = time
  by_cases hempty : self.length = 0
  · have hnil : self = [] := List.length_eq_zero_iff.mp hempty
    subst hnil
    rfl
  have hlast : self[self.length - 1]? = some (self.get ⟨self.length - 1, by omega⟩) :=
    List.getElem?_eq_getElem (by omega)
  generalize self.get ⟨self.length - 1, by omega⟩ = last at hlast
  have hfirst : self[0]? = some (self.get ⟨0, by omega⟩) := List.getElem?_eq_getElem (by omega)
  generalize self.get ⟨0, by omega⟩ = first at hfirst
  simp only [getValueAt, htime, hempty, hlast, hfirst, if_false, Option.bind_eq_bind,
    Option.bind_some]
  by_cases hge : time ≥ (decodeSnapshot last).1
  · rw [if_pos hge, valueAt_eq_of_bracket hinc hlast hge]
    intro next hnext
    rw [Nat.sub_add_cancel (by omega), List.getElem?_eq_none le_rfl] at hnext
    contradiction
  have hlt : time.toNat < (entry last).1 := not_le.mp hge
  rw [if_neg hge]
  by_cases hbefore : self.length = 1 ∨ time < (decodeSnapshot first).1
  · have hless : time.toNat < (entry first).1 := by
      rcases hbefore with hone | hless
      · rw [hone] at hlast
        have hsame : last = first := Option.some.inj (hlast.symm.trans hfirst)
        exact hsame ▸ hlt
      · exact hless
    rw [if_pos hbefore, valueAt_eq_zero hinc hfirst hless]
  rcases not_or.mp hbefore with ⟨hone, hnotless⟩
  have hinv : SearchInvariant self time 0 (self.length - 1 - 1) := {
    low_le_high := Nat.zero_le _
    lower := ⟨first, hfirst, not_lt.mp hnotless⟩
    upper := ⟨last, by rwa [Nat.sub_add_cancel (by omega)], hlt⟩ }
  rw [if_neg hbefore, if_pos (by omega), searchLoop_eq hinc hinv]

/-! ## Sequences of calls -/

/-- The arguments of a call of {lit}`addSnapshot`. -/
structure Call where
  time : BitVec 256
  value : BitVec 256
  deriving DecidableEq

/-- The time and the value that the call records. -/
def Call.entry (call : Call) : Nat × BitVec 96 :=
  ((call.time.setWidth 32).toNat, call.value.setWidth 96)

/-- The history after a sequence of calls; a call that reverts changes nothing. -/
def replay (self : History) : List Call → History
  | [] => self
  | call :: calls =>
      match addSnapshot self call.time call.value with
      | none => replay self calls
      | some self' => replay self' calls

/-- The calls that do not revert. -/
def accepted (self : History) : List Call → List Call
  | [] => []
  | call :: calls =>
      match addSnapshot self call.time call.value with
      | none => accepted self calls
      | some self' => call :: accepted self' calls

/-- A call that does not revert overwrites the newest word or adds a newer one. -/
theorem addSnapshot_cases {self self' : History} {call : Call}
    (h : addSnapshot self call.time call.value = some self') :
    (∃ before last, self = before ++ [last] ∧ (entry last).1 = call.entry.1 ∧
      entries self' = entries before ++ [call.entry]) ∨
    ((∀ last, self.getLast? = some last → (entry last).1 < call.entry.1) ∧
      entries self' = entries self ++ [call.entry]) := by
  have hentry : entry (encodeSnapshot (call.time.setWidth 32) (call.value.setWidth 96)) =
      call.entry := by
    simp [entry, Call.entry]
  rcases List.eq_nil_or_concat self with hnil | ⟨before, last, hconcat⟩
  · subst hnil
    have hself : [encodeSnapshot (call.time.setWidth 32) (call.value.setWidth 96)] = self' := by
      simpa [addSnapshot] using h
    right
    simp [← hself, entries, hentry]
  · rw [List.concat_eq_append] at hconcat
    subst hconcat
    simp only [addSnapshot, List.length_append, List.length_singleton, Nat.add_sub_cancel,
      List.getElem?_concat_length, Option.bind_eq_bind, Option.bind_some, ne_eq,
      Nat.add_one_ne_zero, not_false_eq_true, if_true] at h
    split at h
    · rename_i hsame
      rw [Option.some.injEq] at h
      left
      refine ⟨before, last, rfl, ?_, ?_⟩
      · simp [entry, Call.entry, hsame]
      · simp [← h, entries, hentry]
    · rename_i hne
      split at h
      · contradiction
      · rename_i hnotlt
        rw [Option.some.injEq] at h
        right
        constructor
        · intro newest hnewest
          have heq : last = newest := by simpa using hnewest
          subst heq
          have hle : (entry last).1 ≤ call.entry.1 := not_lt.mp hnotlt
          have hneq : (entry last).1 ≠ call.entry.1 := by
            intro hsame
            exact hne (BitVec.eq_of_toNat_eq hsame.symm)
          omega
        · simp [← h, entries, hentry]

/-- The history holds what the calls so far record: at every time their step function, and
last the newest of them. -/
structure Records (calls : List Call) (history : History) : Prop where
  increasing : Increasing history
  lookup : ∀ t, StepFunction.at? (entries history) t =
    StepFunction.at? (calls.map Call.entry) t
  newest : (entries history).getLast? = (calls.map Call.entry).getLast?

theorem Records.empty : Records [] [] where
  increasing := List.Pairwise.nil
  lookup := fun _ => rfl
  newest := rfl

/-- Every call that does not revert is recorded. -/
theorem Records.addSnapshot {calls : List Call} {self self' : History} {call : Call}
    (hrec : Records calls self) (h : addSnapshot self call.time call.value = some self') :
    Records (calls ++ [call]) self' := by
  rcases addSnapshot_cases h with ⟨before, last, hself, htime, hentries⟩ | ⟨hnewer, hentries⟩
  · have hsplit : entries self = entries before ++ [entry last] := by
      simp [hself, entries]
    have hsorted := hrec.increasing
    rw [Increasing, hsplit, List.pairwise_append] at hsorted
    constructor
    · rw [Increasing, hentries, List.pairwise_append]
      refine ⟨hsorted.1, List.pairwise_singleton _ _, ?_⟩
      intro old hold new hnew
      have hlt := hsorted.2.2 old hold (entry last) (List.mem_singleton_self _)
      rw [List.mem_singleton.mp hnew]
      omega
    · intro t
      have hold := hrec.lookup t
      rw [hsplit, StepFunction.at?_append_singleton] at hold
      rw [hentries, List.map_append, List.map_singleton, StepFunction.at?_append_singleton,
        StepFunction.at?_append_singleton]
      by_cases hle : call.entry.1 ≤ t
      · rw [if_pos hle, if_pos hle]
      · rw [if_neg hle, if_neg hle, ← hold, if_neg (by omega)]
    · simp [hentries]
  · constructor
    · rw [Increasing, hentries, List.pairwise_append]
      refine ⟨hrec.increasing, List.pairwise_singleton _ _, ?_⟩
      intro old hold new hnew
      rw [List.mem_singleton.mp hnew]
      rcases List.eq_nil_or_concat self with hnil | ⟨before, last, hconcat⟩
      · simp [hnil, entries] at hold
      · rw [List.concat_eq_append] at hconcat
        subst hconcat
        have hlt := hnewer last (by simp)
        have hsorted := hrec.increasing
        rw [Increasing, entries, List.map_append, List.pairwise_append] at hsorted
        rw [entries, List.map_append, List.mem_append] at hold
        rcases hold with hbefore | hlast
        · exact lt_trans (hsorted.2.2 old hbefore (entry last) (by simp)) hlt
        · have heq : old = entry last := by simpa using hlast
          exact heq ▸ hlt
    · intro t
      rw [hentries, List.map_append, List.map_singleton, StepFunction.at?_append_singleton,
        StepFunction.at?_append_singleton, hrec.lookup t]
    · simp [hentries]

/-- Every sequence of calls records those that do not revert. -/
theorem Records.replay {calls : List Call} {self : History} (hrec : Records calls self)
    (more : List Call) : Records (calls ++ accepted self more) (replay self more) := by
  induction more generalizing calls self with
  | nil => simpa [accepted, Snapshot.replay] using hrec
  | cons call more ih =>
      cases hadd : Snapshot.addSnapshot self call.time call.value with
      | none => simpa only [accepted, Snapshot.replay, hadd] using ih hrec
      | some self' =>
          simp only [accepted, Snapshot.replay, hadd]
          rw [List.append_cons]
          exact ih (hrec.addSnapshot hadd)

theorem lastValue_eq (self : History) :
    lastValue self = some (((entries self).getLast?.map Prod.snd).getD 0) := by
  rcases List.eq_nil_or_concat self with hnil | ⟨before, last, hconcat⟩
  · subst hnil
    rfl
  · rw [List.concat_eq_append] at hconcat
    subst hconcat
    simp [lastValue, lastSnapshot, entries, entry]

/-- From an empty history, any sequence of calls stores strictly increasing times in words
that are packed without loss; every lookup returns the value of the last stored time that is
not beyond the one asked for, which is the value of the last call for such a time, and zero
when there is none; and the last value is the one of the newest call. -/
theorem replay_lookup (calls : List Call) :
    (entries (replay [] calls)).Pairwise (fun a b => a.1 < b.1) ∧
    (∀ time value, decodeSnapshot (encodeSnapshot time value) = (time, value)) ∧
    (∀ snapshot, encodeSnapshot (decodeSnapshot snapshot).1 (decodeSnapshot snapshot).2 =
      snapshot) ∧
    (∀ time256 : BitVec 256, getValueAt (replay [] calls) time256 =
      some ((StepFunction.at? (entries (replay [] calls))
        (time256.setWidth 32).toNat).getD 0)) ∧
    (∀ t, StepFunction.at? (entries (replay [] calls)) t =
      StepFunction.at? ((accepted [] calls).map Call.entry) t) ∧
    lastValue (replay [] calls) =
      some ((((accepted [] calls).map Call.entry).getLast?.map Prod.snd).getD 0) := by
  have hrec : Records (accepted [] calls) (replay [] calls) := by
    simpa using Records.empty.replay calls
  refine ⟨hrec.increasing, decodeSnapshot_encodeSnapshot, encodeSnapshot_decodeSnapshot, ?_,
    hrec.lookup, ?_⟩
  · intro time256
    exact getValueAt_eq hrec.increasing time256
  · rw [lastValue_eq, hrec.newest]

end Snapshot
end NuLink
