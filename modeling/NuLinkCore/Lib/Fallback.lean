import Mathlib.Data.List.Basic
import Mathlib.Tactic

/-!
# Sources that are asked in turn

Sources are asked one after the other until one gives an answer.  A source may also have
none, which leads to the next one, or raise an exception, which ends the search.

What the search should find is known from the answers that the sources have to give.  It does
so, after it asked exactly the sources that were needed, when the ones up to the first with an
answer give the answer that they have.

Main results:

- Theorem {lit}`search_append`: a search that goes on with more sources.
- Theorem {lit}`search_eq_iff`: when the search finds the first answer.
-/

namespace Fallback

universe u v w

variable {σ : Type u} {ε : Type v} {α : Type w}

/-- A search: the number of sources that were asked, and what they gave. -/
@[ext]
structure Search (ε : Type v) (α : Type w) where
  asked : Nat
  found : Except ε (Option α)

/-- The search that asked one more source before. -/
def Search.after (search : Search ε α) : Search ε α := ⟨search.asked + 1, search.found⟩

/-- Ask the sources in turn. -/
def search (request : σ → Except ε (Option α)) : List σ → Search ε α
  | [] => ⟨0, .ok none⟩
  | source :: rest =>
      match request source with
      | .error error => ⟨1, .error error⟩
      | .ok (some answer) => ⟨1, .ok (some answer)⟩
      | .ok none => (search request rest).after

/-- The number of sources up to the first one that has an answer, or of all. -/
def needed (answer : σ → Option α) : List σ → Nat
  | [] => 0
  | source :: rest => if (answer source).isSome then 1 else needed answer rest + 1

-- The equations of both are made here once, and not by all the proofs below at a time.
attribute [local grind =] search needed

variable (request : σ → Except ε (Option α))

theorem search_cons_none {source : σ} (h : request source = .ok none) (rest : List σ) :
    search request (source :: rest) = (search request rest).after := by
  rw [search, h]

theorem search_singleton (source : σ) : search request [source] = ⟨1, request source⟩ := by
  rw [search]
  cases request source with
  | error error => rfl
  | ok given => cases given <;> rfl

theorem search_map {τ : Type*} (f : τ → σ) (sources : List τ) :
    search request (sources.map f) = search (fun source => request (f source)) sources := by
  induction sources with
  | nil => rfl
  | cons source rest ih => rw [List.map_cons, search, search, ih]

/-- What was found was given by a source. -/
theorem exists_of_found_some {sources : List σ} {a : α}
    (h : (search request sources).found = .ok (some a)) :
    ∃ source ∈ sources, request source = .ok (some a) := by
  induction sources with
  | nil => simp [search] at h
  | cons source rest ih =>
      cases hsource : request source with
      | error error => simp [search, hsource] at h
      | ok given =>
          cases given with
          | some b =>
              have hsame : b = a := by simpa [search, hsource] using h
              exact ⟨source, List.mem_cons_self, hsame ▸ hsource⟩
          | none =>
              rw [search_cons_none request hsource] at h
              rcases ih h with ⟨later, hlater, hrequest⟩
              exact ⟨later, List.mem_cons_of_mem source hlater, hrequest⟩

/-- A search without an answer asked all sources. -/
theorem asked_of_found_none {sources : List σ} (h : (search request sources).found = .ok none) :
    (search request sources).asked = sources.length := by
  induction sources with
  | nil => rfl
  | cons source rest ih =>
      cases hsource : request source with
      | error error => simp [search, hsource] at h
      | ok given =>
          cases given with
          | some answer => simp [search, hsource] at h
          | none =>
              rw [search_cons_none request hsource] at h ⊢
              exact congrArg (· + 1) (ih h)

theorem asked_le_length (sources : List σ) :
    (search request sources).asked ≤ sources.length := by
  induction sources with
  | nil => exact Nat.le_refl 0
  | cons source rest ih =>
      cases hsource : request source with
      | error error => simp [search, hsource]
      | ok given =>
          cases given with
          | some answer => simp [search, hsource]
          | none =>
              rw [search_cons_none request hsource]
              exact Nat.succ_le_succ ih

theorem asked_cons_pos (source : σ) (rest : List σ) :
    0 < (search request (source :: rest)).asked := by
  rw [search]
  split
  · exact Nat.one_pos
  · exact Nat.one_pos
  · exact Nat.succ_pos _

/-- A search goes on with more sources when the first ones have no answer. -/
theorem search_append (sources more : List σ) :
    ((search request sources).found = .ok none → search request (sources ++ more) =
      ⟨sources.length + (search request more).asked, (search request more).found⟩) ∧
    ((search request sources).found ≠ .ok none →
      search request (sources ++ more) = search request sources) := by
  induction sources with
  | nil => simp [search]
  | cons source rest ih =>
      cases hsource : request source with
      | error error => simp [search, hsource]
      | ok given =>
          cases given with
          | some answer => simp [search, hsource]
          | none =>
              rw [List.cons_append, search_cons_none request hsource,
                search_cons_none request hsource]
              constructor
              · intro hnone
                rw [ih.1 hnone, Search.after, List.length_cons, Nat.add_right_comm]
              · intro hsome
                rw [ih.2 hsome]

variable (answer : σ → Option α)

theorem needed_cons_pos (source : σ) (rest : List σ) : 0 < needed answer (source :: rest) := by
  rw [needed]
  split
  · exact Nat.one_pos
  · exact Nat.succ_pos _

/-- If no source has an answer then all are needed. -/
theorem needed_of_findSome?_eq_none {sources : List σ} (h : sources.findSome? answer = none) :
    needed answer sources = sources.length := by
  induction sources with
  | nil => rfl
  | cons source rest ih =>
      have hnone := List.findSome?_eq_none_iff.mp h
      have hsource : answer source = none := hnone source List.mem_cons_self
      have hrest : rest.findSome? answer = none :=
        List.findSome?_eq_none_iff.mpr fun x hx => hnone x (List.mem_cons_of_mem source hx)
      simp [needed, hsource, ih hrest]

/-- The sources up to the first one that has an answer have a property. -/
def UntilAnswer (P : σ → Prop) : List σ → Prop
  | [] => True
  | source :: rest => P source ∧ (answer source = none → UntilAnswer P rest)

theorem untilAnswer_congr {P Q : σ → Prop} (h : ∀ source, P source ↔ Q source)
    (sources : List σ) : UntilAnswer answer P sources ↔ UntilAnswer answer Q sources := by
  induction sources with
  | nil => exact Iff.rfl
  | cons source rest ih => rw [UntilAnswer, UntilAnswer, h source, ih]

/-- A source gives what it has. -/
def Faithful (source : σ) : Prop := request source = .ok (answer source)

/-- A source without an answer that gives one anyway, or the other way round, is noticed. -/
theorem search_cons_of_ne {source : σ} (h : request source ≠ .ok (answer source))
    (rest : List σ) : search request (source :: rest) ≠
      ⟨needed answer (source :: rest), .ok ((source :: rest).findSome? answer)⟩ := by
  rw [List.findSome?_cons]
  cases hsource : request source with
  | error error => simp [search, hsource]
  | ok given =>
      cases given with
      | some b =>
          cases hanswer : answer source with
          | some a =>
              rw [hsource, hanswer] at h
              simpa [search, hsource] using fun _ hsame => h (by rw [hsame])
          | none =>
              cases rest with
              | nil => simp [search, hsource]
              | cons next rest =>
                  have hpos := needed_cons_pos answer next rest
                  rw [search, hsource, needed]
                  simp only [hanswer, Option.isSome_none, Bool.false_eq_true, if_false, ne_eq,
                    Search.mk.injEq, not_and]
                  omega
      | none =>
          cases hanswer : answer source with
          | none => exact absurd (hsource.trans (by rw [hanswer])) h
          | some a =>
              rw [search_cons_none request hsource, needed]
              simp only [hanswer, Option.isSome_some, if_true, Search.after, ne_eq,
                Search.mk.injEq, not_and]
              intro hasked
              cases rest with
              | nil => simp [search]
              | cons next rest =>
                  have hpos := asked_cons_pos request next rest
                  omega

/-- The search asks the needed sources and finds the first answer exactly when the sources up to
the first one that has an answer give what they have. -/
theorem search_eq_iff (sources : List σ) :
    search request sources = ⟨needed answer sources, .ok (sources.findSome? answer)⟩ ↔
      UntilAnswer answer (Faithful request answer) sources := by
  induction sources with
  | nil => exact iff_of_true rfl trivial
  | cons source rest ih =>
      rw [UntilAnswer]
      by_cases hsource : request source = .ok (answer source)
      · have hfaithful : Faithful request answer source := hsource
        rw [and_iff_right hfaithful, ← ih, List.findSome?_cons]
        cases hanswer : answer source with
        | some a => simp [search, needed, hsource, hanswer]
        | none =>
            rw [hanswer] at hsource
            rw [search_cons_none request hsource, forall_prop_of_true rfl]
            cases hrest : search request rest with
            | mk asked found => simp [Search.after, needed, hanswer]
      · exact iff_of_false (search_cons_of_ne request answer hsource rest)
          (fun hfaithful => hsource hfaithful.1)

end Fallback
