import Mathlib.Data.List.Basic
import Mathlib.Order.Lattice

/-!
# Step functions from keyed lists

A list of keyed values describes a step function: its value at a point is the value of
the last entry whose key is not beyond the point.

Main results:

- Theorem {lit}`at?_eq_of_bracket`: an entry whose key is not beyond the point, with every
  later key beyond it, decides the value.
- Theorem {lit}`at?_eq_none`: before every key there is no value.
-/

namespace StepFunction

variable {κ α : Type*} [LinearOrder κ]

/-- The value of the last entry whose key is at most {lit}`t`. -/
def at? (entries : List (κ × α)) (t : κ) : Option α :=
  (entries.filter (fun entry => decide (entry.1 ≤ t))).getLast?.map Prod.snd

theorem at?_eq_none {entries : List (κ × α)} {t : κ} (h : ∀ entry ∈ entries, t < entry.1) :
    at? entries t = none := by
  have hfilter : entries.filter (fun entry => decide (entry.1 ≤ t)) = [] := by
    rw [List.filter_eq_nil_iff]
    intro entry hentry
    simpa using h entry hentry
  simp [at?, hfilter]

/-- An entry that is not beyond the point decides the value when all later ones are. -/
theorem at?_eq_of_split {before after : List (κ × α)} {entry : κ × α} {t : κ}
    (hle : entry.1 ≤ t) (hafter : ∀ later ∈ after, t < later.1) :
    at? (before ++ entry :: after) t = some entry.2 := by
  have hnil : after.filter (fun later => decide (later.1 ≤ t)) = [] := by
    rw [List.filter_eq_nil_iff]
    intro later hlater
    simpa using hafter later hlater
  simp [at?, List.filter_append, hle, hnil]

/-- A new last entry decides the value from its own key on. -/
theorem at?_append_singleton (entries : List (κ × α)) (entry : κ × α) (t : κ) :
    at? (entries ++ [entry]) t = if entry.1 ≤ t then some entry.2 else at? entries t := by
  by_cases hle : entry.1 ≤ t
  · simp [at?, List.filter_append, hle]
  · simp [at?, List.filter_append, hle]

/-- On strictly increasing keys an entry decides the value up to the key of the next one. -/
theorem at?_eq_of_bracket {entries : List (κ × α)} {entry : κ × α} {t : κ} {i : Nat}
    (hsorted : entries.Pairwise (fun a b => a.1 < b.1)) (hget : entries[i]? = some entry)
    (hle : entry.1 ≤ t) (hnext : ∀ next, entries[i + 1]? = some next → t < next.1) :
    at? entries t = some entry.2 := by
  rcases List.getElem?_eq_some_iff.mp hget with ⟨hi, rfl⟩
  have hsplit : entries.take i ++ entries[i] :: entries.drop (i + 1) = entries := by
    simp
  rw [← congrArg (at? · t) hsplit]
  apply at?_eq_of_split hle
  intro later hlater
  rcases List.mem_iff_getElem.mp hlater with ⟨j, hj, hval⟩
  rw [List.length_drop] at hj
  rw [List.getElem_drop] at hval
  have hbeyond : t < (entries[i + 1]).1 := hnext _ (List.getElem?_eq_getElem (by omega))
  rw [← hval]
  rcases Nat.eq_zero_or_pos j with hzero | hpos
  · subst hzero
    exact hbeyond
  · rw [List.pairwise_iff_getElem] at hsorted
    exact lt_trans hbeyond (hsorted (i + 1) (i + 1 + j) (by omega) (by omega) (by omega))

end StepFunction
