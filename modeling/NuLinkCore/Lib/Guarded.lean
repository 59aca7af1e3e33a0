import Mathlib.Data.List.Basic
import Mathlib.Tactic

/-!
# Properties of all states of a run

A machine performs a sequence of operations.  When a single step keeps a property
exactly under a condition on the state before it and the operation, the property
holds in every state of a run exactly when every step of the run meets the
condition in the state in which it is taken.

Main results:

- Theorem {lit}`throughout_iff_guarded`: exactly when a property holds in every state of a run.
- Theorem {lit}`guarded_iff_guarded`: exactly when every step of a run has a property of steps.
-/

namespace Execution

universe u v

variable {σ : Type u} {α : Type v} (next : σ → α → σ)

/-- The property holds at the start and after every operation. -/
def Throughout (P : σ → Prop) : σ → List α → Prop
  | s, [] => P s
  | s, a :: as => P s ∧ Throughout P (next s a) as

/-- Every operation meets the condition in the state in which it is performed. -/
def Guarded (guard : σ → α → Prop) : σ → List α → Prop
  | _, [] => True
  | s, a :: as => guard s a ∧ Guarded guard (next s a) as

variable {next}

theorem Throughout.start {P : σ → Prop} {s : σ} {as : List α} (h : Throughout next P s as) :
    P s := by
  cases as with
  | nil => exact h
  | cons a as => exact h.1

/-- If a step from a state with the property and the invariant keeps the property exactly under
a condition, then a run keeps it exactly if all of its steps meet the condition. -/
theorem throughout_iff_guarded {P I : σ → Prop} {guard : σ → α → Prop}
    (hinv : ∀ s a, I s → I (next s a))
    (hstep : ∀ s a, I s → P s → (P (next s a) ↔ guard s a)) {s : σ} (hI : I s) (hP : P s)
    (as : List α) : Throughout next P s as ↔ Guarded next guard s as := by
  induction as generalizing s with
  | nil => exact ⟨fun _ => trivial, fun _ => hP⟩
  | cons a as ih =>
      rw [Throughout, Guarded]
      constructor
      · rintro ⟨-, hrest⟩
        have hnext : P (next s a) := hrest.start
        exact ⟨(hstep s a hI hP).mp hnext, (ih (hinv s a hI) hnext).mp hrest⟩
      · rintro ⟨hguard, hrest⟩
        have hnext : P (next s a) := (hstep s a hI hP).mpr hguard
        exact ⟨hP, (ih (hinv s a hI) hnext).mpr hrest⟩

/-- If every step from a state with the invariant has a property exactly under a condition, and
the steps with the property keep the invariant, then all steps of a run have the property exactly
if all of them meet the condition. -/
theorem guarded_iff_guarded {I : σ → Prop} {P guard : σ → α → Prop}
    (hstep : ∀ s a, I s → (P s a ↔ guard s a)) (hkeep : ∀ s a, I s → P s a → I (next s a)) {s : σ}
    (hI : I s) (as : List α) : Guarded next P s as ↔ Guarded next guard s as := by
  induction as generalizing s with
  | nil => exact Iff.rfl
  | cons a as ih =>
      rw [Guarded, Guarded]
      constructor
      · rintro ⟨hfirst, hrest⟩
        exact ⟨(hstep s a hI).mp hfirst, (ih (hkeep s a hI hfirst)).mp hrest⟩
      · rintro ⟨hfirst, hrest⟩
        have hholds : P s a := (hstep s a hI).mpr hfirst
        exact ⟨hholds, (ih (hkeep s a hI hholds)).mpr hrest⟩

end Execution
