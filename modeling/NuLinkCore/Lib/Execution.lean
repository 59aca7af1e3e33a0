import Mathlib.Data.List.Basic
import Mathlib.Logic.Relation
import Mathlib.Tactic

/-!
# Executions of a step function

A system of threads is a partial step function on its states: an action names the
thread that moves and everything that is decided outside the system, and a thread
that has to wait has no step.  A state is reached by any interleaving of actions.

Threads take elements out of collections whose order does not matter; removing an
element at a position leaves the rest of the collection up to order.

Main results:

- Theorem {lit}`Reaches.invariant`: what every step keeps holds in every state that is
  reached.
- Theorem {lit}`reaches_of_run`: a concrete sequence of actions reaches its end.
- Theorems {lit}`countP_internal_le` and {lit}`exists_reaches_stuck`: when the internal
  actions use up a measure that no action increases, every run has finitely many of them,
  and every state can run to one in which none is possible.
-/

namespace Execution

universe u v

variable {σ : Type u} {α : Type v} (step : σ → α → Option σ)

/-- Some action leads from one state to the other. -/
def Step (s s' : σ) : Prop := ∃ action, step s action = some s'

/-- Some sequence of actions leads from one state to the other. -/
def Reaches : σ → σ → Prop := Relation.ReflTransGen (Step step)

/-- Perform a sequence of actions. -/
def run (s : σ) (actions : List α) : Option σ := actions.foldlM step s

/-- None of the given actions is possible. -/
def Stuck (internal : α → Prop) (s : σ) : Prop := ∀ action, internal action → step s action = none

variable {step}

theorem Reaches.refl (s : σ) : Reaches step s s :=
  Relation.ReflTransGen.refl

theorem Reaches.trans {s s' s'' : σ} (h : Reaches step s s') (h' : Reaches step s' s'') :
    Reaches step s s'' :=
  Relation.ReflTransGen.trans h h'

/-- What every step keeps holds in every state that is reached. -/
theorem Reaches.invariant {P : σ → Prop}
    (hstep : ∀ s action s', P s → step s action = some s' → P s') {s s' : σ}
    (h : Reaches step s s') (hs : P s) : P s' := by
  induction h with
  | refl => exact hs
  | tail _ hlast ih =>
      rcases hlast with ⟨action, haction⟩
      exact hstep _ action _ ih haction

/-- A concrete sequence of actions reaches its end. -/
theorem reaches_of_run {s s' : σ} {actions : List α} (h : run step s actions = some s') :
    Reaches step s s' := by
  induction actions generalizing s with
  | nil =>
      have heq : s = s' := by simpa [run] using h
      exact heq ▸ Reaches.refl s
  | cons action actions ih =>
      rw [run, List.foldlM_cons] at h
      cases hfirst : step s action with
      | none => simp [hfirst] at h
      | some next =>
          rw [hfirst] at h
          exact Relation.ReflTransGen.head ⟨action, hfirst⟩ (ih h)

section Measure

variable {internal : α → Prop} {m : σ → Nat}
  (hlt : ∀ s action s', internal action → step s action = some s' → m s' < m s)

include hlt

/-- A run has no more internal actions than the measure allows. -/
theorem countP_internal_le [DecidablePred internal]
    (hle : ∀ s action s', step s action = some s' → m s' ≤ m s) {s s' : σ}
    {actions : List α} (h : run step s actions = some s') :
    actions.countP (fun action => internal action) + m s' ≤ m s := by
  induction actions generalizing s with
  | nil =>
      have heq : s = s' := by simpa [run] using h
      simp [heq]
  | cons action actions ih =>
      rw [run, List.foldlM_cons] at h
      cases hfirst : step s action with
      | none => simp [hfirst] at h
      | some next =>
          rw [hfirst] at h
          have hrest := ih h
          rw [List.countP_cons]
          by_cases hinternal : internal action
          · have hless := hlt s action next hinternal hfirst
            simp only [hinternal, decide_true, if_true]
            omega
          · have hmore := hle s action next hfirst
            simp only [hinternal, decide_false, Bool.false_eq_true, if_false]
            omega

/-- Every state can run to one in which no internal action is possible. -/
theorem exists_reaches_stuck (s : σ) : ∃ s', Reaches step s s' ∧ Stuck step internal s' := by
  induction hmeasure : m s using Nat.strong_induction_on generalizing s with
  | _ n ih =>
      by_cases hstuck : Stuck step internal s
      · exact ⟨s, Reaches.refl s, hstuck⟩
      · simp only [Stuck, not_forall] at hstuck
        rcases hstuck with ⟨action, hinternal, hsome⟩
        rcases Option.ne_none_iff_exists'.mp hsome with ⟨next, hnext⟩
        have hless := hlt s action next hinternal hnext
        rcases ih (m next) (by omega) next rfl with ⟨s', hreaches, hend⟩
        exact ⟨s', Relation.ReflTransGen.head ⟨action, hnext⟩ hreaches, hend⟩

end Measure

/-- An element at a position and the collection without it. -/
theorem perm_cons_eraseIdx {β : Type u} {l : List β} {i : Nat} {x : β} (h : l[i]? = some x) :
    l.Perm (x :: l.eraseIdx i) := by
  rcases List.getElem?_eq_some_iff.mp h with ⟨hi, rfl⟩
  exact (List.getElem_cons_eraseIdx_perm hi).symm

theorem length_eraseIdx_add_one {β : Type u} {l : List β} {i : Nat} {x : β}
    (h : l[i]? = some x) : (l.eraseIdx i).length + 1 = l.length := by
  rw [(perm_cons_eraseIdx h).length_eq, List.length_cons]

end Execution
