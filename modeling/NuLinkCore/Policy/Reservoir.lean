import NuLinkCore.Network.NodeMetadata

/-!
# Reservoirs of staking providers

A policy draws the nodes it asks from a reservoir: first the addresses that were picked by
hand, then staking providers in a random order.  A random order is the order in which the
addresses of the reservoir are listed.

Main results:

- Theorem {lit}`PrefetchStrategy.draw_perm`: a batch is taken out of the reservoir.
- Theorem {lit}`PrefetchStrategy.draw_of_enough`: nothing is drawn once there are enough
  successes.
-/

namespace NuLink

/-- A reservoir of listed addresses, and then of staking providers in drawing order. -/
structure MergedReservoir where
  values : List ChecksumAddress
  reservoir : List ChecksumAddress
deriving DecidableEq

namespace MergedReservoir

/-- {lit}`MergedReservoir.__call__`. -/
def draw (merged : MergedReservoir) : Option (ChecksumAddress × MergedReservoir) :=
  match merged.values with
  | value :: values => some (value, { merged with values })
  | [] =>
      match merged.reservoir with
      | address :: reservoir => some (address, { merged with reservoir })
      | [] => none

/-- Everything that is still in the reservoir. -/
def remaining (merged : MergedReservoir) : List ChecksumAddress :=
  merged.values ++ merged.reservoir

theorem remaining_of_draw {merged merged' : MergedReservoir} {address : ChecksumAddress}
    (h : merged.draw = some (address, merged')) :
    merged.remaining = address :: merged'.remaining := by
  rcases merged with ⟨values, reservoir⟩
  cases values with
  | cons value values =>
      have heq : value = address ∧ ⟨values, reservoir⟩ = merged' := by simpa [draw] using h
      simp [remaining, ← heq.1, ← heq.2]
  | nil =>
      cases reservoir with
      | nil => simp [draw] at h
      | cons first rest =>
          have heq : first = address ∧ ⟨[], rest⟩ = merged' := by simpa [draw] using h
          simp [remaining, ← heq.1, ← heq.2]

end MergedReservoir

/-- A strategy that draws as many addresses as there are successes missing. -/
structure PrefetchStrategy where
  reservoir : MergedReservoir
  needSuccesses : Nat
deriving DecidableEq

namespace PrefetchStrategy

/-- The loop of {lit}`PrefetchStrategy.__call__`. -/
def drawBatch : Nat → MergedReservoir → List ChecksumAddress × MergedReservoir
  | 0, merged => ([], merged)
  | n + 1, merged =>
      match merged.draw with
      | none => ([], merged)
      | some (address, merged') =>
          (address :: (drawBatch n merged').1, (drawBatch n merged').2)

/-- {lit}`PrefetchStrategy.__call__`; an empty batch is returned as {lit}`None`. -/
def draw (strategy : PrefetchStrategy) (successes : Nat) :
    List ChecksumAddress × PrefetchStrategy :=
  ((drawBatch (strategy.needSuccesses - successes) strategy.reservoir).1,
    { strategy with
      reservoir := (drawBatch (strategy.needSuccesses - successes) strategy.reservoir).2 })

theorem drawBatch_append (n : Nat) (merged : MergedReservoir) :
    (drawBatch n merged).1 ++ (drawBatch n merged).2.remaining = merged.remaining := by
  induction n generalizing merged with
  | zero => rfl
  | succ n ih =>
      rw [drawBatch]
      cases hdraw : merged.draw with
      | none => rfl
      | some drawn =>
          rw [MergedReservoir.remaining_of_draw hdraw, List.cons_append, ih]

/-- A batch is taken out of the reservoir. -/
theorem draw_perm (strategy : PrefetchStrategy) (successes : Nat) :
    ((strategy.draw successes).1 ++ (strategy.draw successes).2.reservoir.remaining).Perm
      strategy.reservoir.remaining :=
  List.Perm.of_eq (drawBatch_append _ _)

/-- Nothing is drawn once there are enough successes. -/
theorem draw_of_enough {strategy : PrefetchStrategy} {successes : Nat}
    (h : strategy.needSuccesses ≤ successes) : (strategy.draw successes).1 = [] := by
  rw [draw, Nat.sub_eq_zero_of_le h]
  rfl

end PrefetchStrategy

end NuLink
