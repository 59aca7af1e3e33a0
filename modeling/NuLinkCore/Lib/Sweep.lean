import NuLinkCore.Lib.Dict

/-!
# Sweeps

A sweep visits some targets one after the other.  A visit may contact its target, and then it
goes on, with or without a failure that is noted under the target, or it raises and ends the
sweep.

Main results:

- Theorem {lit}`result_sweep_isOk_iff`: a sweep returns exactly when no visit raises.
- Theorem {lit}`sweep_stops`: the visit that raises is the last one.
- Theorem {lit}`get?_sweep`: what a sweep that returns has noted.
-/

namespace Collections

universe u v w

variable {α : Type u} {φ : Type v} {ε : Type w} [DecidableEq α]

/-- What comes of visiting one target. -/
structure Visit (φ : Type v) (ε : Type w) where
  contacted : Bool
  outcome : Except ε (Option φ)

/-- The targets that were contacted, and the failures that were noted. -/
structure Swept (α : Type u) (φ : Type v) (ε : Type w) [DecidableEq α] where
  contacted : List α
  result : Except ε (Dict α φ)

/-- Note a failure of a target, if there is one. -/
def Dict.note (failed : Dict α φ) (target : α) : Option φ → Dict α φ
  | none => failed
  | some failure => failed.set target failure

/-- Visit the targets in their order. -/
def sweep (visit : α → Visit φ ε) : List α → Dict α φ → Swept α φ ε
  | [], failed => ⟨[], .ok failed⟩
  | target :: targets, failed =>
      let contacted := if (visit target).contacted then [target] else []
      match (visit target).outcome with
      | .error error => ⟨contacted, .error error⟩
      | .ok failure =>
          let rest := sweep visit targets (failed.note target failure)
          ⟨contacted ++ rest.contacted, rest.result⟩

theorem Dict.get?_note (failed : Dict α φ) (target key : α) (failure : Option φ) :
    (failed.note target failure).get? key =
      if key = target then failure.or (failed.get? key) else failed.get? key := by
  cases failure with
  | none => simp [Dict.note]
  | some failure => simp [Dict.note, Dict.get?_set]

variable {visit : α → Visit φ ε}

theorem sweep_cons_ok {target : α} {failure : Option φ}
    (h : (visit target).outcome = .ok failure) (targets : List α) (failed : Dict α φ) :
    sweep visit (target :: targets) failed =
      ⟨[target].filter (fun target => (visit target).contacted) ++
        (sweep visit targets (failed.note target failure)).contacted,
        (sweep visit targets (failed.note target failure)).result⟩ := by
  simp only [sweep, h, List.filter_cons, List.filter_nil]

theorem sweep_cons_error {target : α} {error : ε} (h : (visit target).outcome = .error error)
    (targets : List α) (failed : Dict α φ) :
    sweep visit (target :: targets) failed =
      ⟨[target].filter (fun target => (visit target).contacted), .error error⟩ := by
  simp only [sweep, h, List.filter_cons, List.filter_nil]

/-- Whatever was noted before, a sweep returns exactly when no visit raises. -/
theorem result_sweep_isOk_iff (targets : List α) (failed : Dict α φ) :
    (∃ noted, (sweep visit targets failed).result = .ok noted) ↔
      ∀ target ∈ targets, ∃ failure, (visit target).outcome = .ok failure := by
  induction targets generalizing failed with
  | nil => simp [sweep]
  | cons target targets ih =>
      rw [List.forall_mem_cons]
      cases houtcome : (visit target).outcome with
      | error error => simp [sweep_cons_error houtcome]
      | ok failure =>
          rw [sweep_cons_ok houtcome]
          simpa using ih _

/-- A sweep that returns has contacted every target whose visit does so. -/
theorem contacted_sweep {targets : List α} {failed noted : Dict α φ}
    (h : (sweep visit targets failed).result = .ok noted) :
    (sweep visit targets failed).contacted =
      targets.filter (fun target => (visit target).contacted) := by
  induction targets generalizing failed with
  | nil => rfl
  | cons target targets ih =>
      cases houtcome : (visit target).outcome with
      | error error =>
          rw [sweep_cons_error houtcome] at h
          cases h
      | ok failure =>
          rw [sweep_cons_ok houtcome] at h ⊢
          rw [ih h, ← List.filter_append, List.singleton_append]

/-- After a visit that raises no target is contacted. -/
theorem sweep_stops {before : List α} {target : α} {error : ε}
    (hbefore : ∀ earlier ∈ before, ∃ failure, (visit earlier).outcome = .ok failure)
    (h : (visit target).outcome = .error error) (after : List α) (failed : Dict α φ) :
    sweep visit (before ++ target :: after) failed =
      ⟨(before ++ [target]).filter (fun target => (visit target).contacted), .error error⟩ := by
  induction before generalizing failed with
  | nil => exact sweep_cons_error h after failed
  | cons earlier before ih =>
      rcases hbefore earlier List.mem_cons_self with ⟨failure, hfailure⟩
      rw [List.cons_append, sweep_cons_ok hfailure,
        ih (fun other hother => hbefore other (List.mem_cons_of_mem _ hother)),
        ← List.filter_append, List.singleton_append, List.cons_append]

/-- A sweep that returns has noted the failures of its targets, and nothing else. -/
theorem get?_sweep {targets : List α} {failed noted : Dict α φ}
    (h : (sweep visit targets failed).result = .ok noted) (key : α) :
    noted.get? key =
      if key ∈ targets then
        match (visit key).outcome with
        | .ok (some failure) => some failure
        | _ => failed.get? key
      else failed.get? key := by
  induction targets generalizing failed with
  | nil =>
      have hnoted : failed = noted := by simpa [sweep] using h
      simp [hnoted]
  | cons target targets ih =>
      cases houtcome : (visit target).outcome with
      | error error =>
          rw [sweep_cons_error houtcome] at h
          cases h
      | ok failure =>
          rw [sweep_cons_ok houtcome] at h
          rw [ih h, Dict.get?_note]
          by_cases hkey : key = target
          · subst hkey
            rw [houtcome]
            cases failure <;> simp
          · simp only [List.mem_cons, hkey, false_or, if_false]

end Collections
