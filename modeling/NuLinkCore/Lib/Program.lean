import Mathlib.Data.List.Basic
import Mathlib.Tactic

/-!
# Programs that ask the outside

A program reads and writes a state, may revert, and asks questions that are answered
outside.  Answering a question may change the state and leaves a trace.  A run that
reverts has no final state.

What a run does is derived from what the program does under assumptions on the answers:
the rules go through the program once, whatever the outside is.

Main results:

- Theorem {lit}`Program.Runs.post`: a run that does not revert ends in the postcondition.
- Theorem {lit}`Program.Runs.good_trace`: every part of the trace belongs to a question that the
  program may ask.
-/

universe u

/-- Programs over a state, with questions and the types of their answers. -/
inductive Program (σ ρ : Type) (β : ρ → Type) (α : Type) where
  | pure (a : α)
  | revert
  | get (next : σ → Program σ ρ β α)
  | set (s : σ) (next : Program σ ρ β α)
  | ask (question : ρ) (next : β question → Program σ ρ β α)

namespace Program

variable {σ ρ α γ ε : Type} {β : ρ → Type}

protected def bind : Program σ ρ β α → (α → Program σ ρ β γ) → Program σ ρ β γ
  | .pure a, f => f a
  | .revert, _ => .revert
  | .get next, f => .get fun s => (next s).bind f
  | .set s next, f => .set s (next.bind f)
  | .ask question next, f => .ask question fun answer => (next answer).bind f

instance : Monad (Program σ ρ β) where
  pure := .pure
  bind := Program.bind

/-- Go on only if a condition holds. -/
def require (condition : Bool) : Program σ ρ β Unit := if condition then .pure () else .revert

/-- What answers a question: the state before, the answer, the state after, and the trace. -/
abbrev Outside (σ ρ : Type) (β : ρ → Type) (ε : Type) : Type :=
  (question : ρ) → σ → β question → σ → List ε → Prop

/-- The runs of a program: a trace, and the result with the final state unless it reverts. -/
inductive Runs (outside : Outside σ ρ β ε) :
    Program σ ρ β α → σ → List ε → Option (α × σ) → Prop where
  | pure (a : α) (s : σ) : Runs outside (.pure a) s [] (some (a, s))
  | revert (s : σ) : Runs outside .revert s [] none
  | get {next : σ → Program σ ρ β α} {s : σ} {trace : List ε} {result : Option (α × σ)}
      (h : Runs outside (next s) s trace result) : Runs outside (.get next) s trace result
  | set {next : Program σ ρ β α} {s s' : σ} {trace : List ε} {result : Option (α × σ)}
      (h : Runs outside next s' trace result) : Runs outside (.set s' next) s trace result
  | ask {question : ρ} {next : β question → Program σ ρ β α} {s s' : σ} {answer : β question}
      {asked trace : List ε} {result : Option (α × σ)}
      (hanswer : outside question s answer s' asked)
      (h : Runs outside (next answer) s' trace result) :
      Runs outside (.ask question next) s (asked ++ trace) result

/-- The run in which every question has a given answer and leaves the state as it is. -/
def execute (reply : (question : ρ) → σ → β question) (event : ρ → List ε) :
    Program σ ρ β α → σ → List ε × Option (α × σ)
  | .pure a, s => ([], some (a, s))
  | .revert, _ => ([], none)
  | .get next, s => (next s).execute reply event s
  | .set s next, _ => next.execute reply event s
  | .ask question next, s =>
      let rest := (next (reply question s)).execute reply event s
      (event question ++ rest.1, rest.2)

/-- Under an assumption on the answers, a program that does not revert establishes a
postcondition. -/
def Establishes (rely : (question : ρ) → σ → β question → σ → Prop) (post : α → σ → Prop) :
    Program σ ρ β α → σ → Prop
  | .pure a, s => post a s
  | .revert, _ => True
  | .get next, s => (next s).Establishes rely post s
  | .set s next, _ => next.Establishes rely post s
  | .ask question next, s =>
      ∀ answer s', rely question s answer s' → (next answer).Establishes rely post s'

/-- All questions that a program may ask, for whatever answers and states, are allowed. -/
def Asks (allowed : ρ → Prop) : Program σ ρ β α → Prop
  | .pure _ => True
  | .revert => True
  | .get next => ∀ s, (next s).Asks allowed
  | .set _ next => next.Asks allowed
  | .ask question next => allowed question ∧ ∀ answer, (next answer).Asks allowed

section Rules

variable {rely : (question : ρ) → σ → β question → σ → Prop} {allowed : ρ → Prop}

theorem establishes_bind {f : α → Program σ ρ β γ} {post : γ → σ → Prop}
    (program : Program σ ρ β α) (s : σ) :
    (program >>= f).Establishes rely post s ↔
      program.Establishes rely (fun a s => (f a).Establishes rely post s) s := by
  induction program generalizing s with
  | pure a => exact Iff.rfl
  | revert => exact Iff.rfl
  | get next ih => exact ih s s
  | set s' next ih => exact ih s'
  | ask question next ih =>
      exact forall_congr' fun answer => forall_congr' fun s' => imp_congr_right fun _ => ih answer s'

theorem Establishes.mono {post post' : α → σ → Prop} {program : Program σ ρ β α} {s : σ}
    (h : program.Establishes rely post s) (hpost : ∀ a s, post a s → post' a s) :
    program.Establishes rely post' s := by
  induction program generalizing s with
  | pure a => exact hpost a s h
  | revert => trivial
  | get next ih => exact ih s h
  | set s' next ih => exact ih h
  | ask question next ih =>
      intro answer s' hanswer
      exact ih answer (h answer s' hanswer)

theorem establishes_require {condition : Bool} {post : Unit → σ → Prop} {s : σ} :
    (require condition : Program σ ρ β Unit).Establishes rely post s ↔
      (condition = true → post () s) := by
  cases condition with
  | false => simp [require, Establishes]
  | true => simp [require, Establishes]

theorem Asks.bind {f : α → Program σ ρ β γ} {program : Program σ ρ β α}
    (h : program.Asks allowed) (hf : ∀ a, (f a).Asks allowed) :
    (program >>= f).Asks allowed := by
  induction program with
  | pure a => exact hf a
  | revert => trivial
  | get next ih => exact fun s => ih s (h s)
  | set s next ih => exact ih h
  | ask question next ih => exact ⟨h.1, fun answer => ih answer (h.2 answer)⟩

theorem asks_true (program : Program σ ρ β α) : program.Asks fun _ => True := by
  induction program with
  | pure a => trivial
  | revert => trivial
  | get next ih => exact ih
  | set s next ih => exact ih
  | ask question next ih => exact ⟨trivial, ih⟩

theorem asks_require (condition : Bool) :
    (require condition : Program σ ρ β Unit).Asks allowed := by
  cases condition <;> trivial

variable {outside : Outside σ ρ β ε} {program : Program σ ρ β α} {s : σ} {trace : List ε}
  {result : Option (α × σ)}

theorem runs_execute {reply : (question : ρ) → σ → β question} {event : ρ → List ε}
    (h : ∀ question s, outside question s (reply question s) s (event question))
    (program : Program σ ρ β α) (s : σ) :
    Runs outside program s (program.execute reply event s).1
      (program.execute reply event s).2 := by
  induction program generalizing s with
  | pure a => exact Runs.pure a s
  | revert => exact Runs.revert s
  | get next ih => exact Runs.get (ih s s)
  | set s' next ih => exact Runs.set (ih s')
  | ask question next ih => exact Runs.ask (h question s) (ih (reply question s) s)

/-- A run that does not revert ends in the postcondition. -/
theorem Runs.post (hrun : Runs outside program s trace result)
    (houtside : ∀ question s answer s' asked, outside question s answer s' asked →
      rely question s answer s')
    {post : α → σ → Prop} (h : program.Establishes rely post s) :
    ∀ a s', result = some (a, s') → post a s' := by
  induction hrun with
  | pure a s =>
      intro a' s' hresult
      cases hresult
      exact h
  | revert s =>
      intro a s' hresult
      cases hresult
  | get _ ih => exact ih h
  | set _ ih => exact ih h
  | ask hanswer _ ih => exact ih (h _ _ (houtside _ _ _ _ _ hanswer))

/-- Every part of the trace belongs to a question that the program may ask. -/
theorem Runs.good_trace {good : ε → Prop} (hrun : Runs outside program s trace result)
    (hasks : program.Asks allowed)
    (houtside : ∀ question s answer s' asked, allowed question →
      outside question s answer s' asked → ∀ event ∈ asked, good event) :
    ∀ event ∈ trace, good event := by
  induction hrun with
  | pure a s => simp
  | revert s => simp
  | get _ ih => exact ih (hasks _)
  | set _ ih => exact ih hasks
  | ask hanswer _ ih =>
      intro event hevent
      rcases List.mem_append.mp hevent with hasked | hrest
      · exact houtside _ _ _ _ _ hasks.1 hanswer event hasked
      · exact ih (hasks.2 _) event hrest

end Rules

end Program
