import NuLinkCore.Lib.Dict

/-!
# Caches with coarse keys

A cache keeps the results of a function that may fail.  It finds them under a key of the
argument, and arguments with different results may have the same key.

Main results:

- Theorem {lit}`Cache.calls_eq_map_iff`: a sequence of calls behaves as without the cache exactly
  when the result of a call is also the result of the later calls with its key.
-/

namespace Collections

namespace Cache

variable {A K V E : Type} [DecidableEq K] (key : A → K) (compute : A → Except E V)

/-- One call: its result, and the cache after it.  Failures are not kept. -/
def call (cache : Dict K V) (a : A) : Except E V × Dict K V :=
  match cache.get? (key a) with
  | some v => (.ok v, cache)
  | none =>
      match compute a with
      | .ok v => (.ok v, cache.set (key a) v)
      | .error e => (.error e, cache)

/-- The results of a sequence of calls. -/
def calls (cache : Dict K V) : List A → List (Except E V)
  | [] => []
  | a :: rest => (call key compute cache a).1 :: calls (call key compute cache a).2 rest

/-- A successful result is also the result of the later calls with its key. -/
def Coherent (arguments : List A) : Prop :=
  arguments.Pairwise fun a b => key a = key b → ∀ v, compute a = .ok v → compute b = .ok v

/-- What a cache holds is the result of the arguments with its key. -/
def Agrees (cache : Dict K V) (arguments : List A) : Prop :=
  ∀ a ∈ arguments, ∀ v, cache.get? (key a) = some v → compute a = .ok v

variable {key compute}

theorem agrees_cons {cache : Dict K V} {a : A} {rest : List A} :
    Agrees key compute cache (a :: rest) ↔
      (∀ v, cache.get? (key a) = some v → compute a = .ok v) ∧
        Agrees key compute cache rest := by
  simp [Agrees]

omit [DecidableEq K] in
theorem coherent_cons {a : A} {rest : List A} :
    Coherent key compute (a :: rest) ↔
      (∀ b ∈ rest, key a = key b → ∀ v, compute a = .ok v → compute b = .ok v) ∧
        Coherent key compute rest := by
  exact List.pairwise_cons

/-- A result that is kept agrees with the later calls with its key. -/
theorem agrees_set {cache : Dict K V} {a : A} {v : V} {rest : List A}
    (hmiss : cache.get? (key a) = none) :
    Agrees key compute (cache.set (key a) v) rest ↔
      Agrees key compute cache rest ∧ ∀ b ∈ rest, key a = key b → compute b = .ok v := by
  constructor
  · intro h
    constructor
    · intro b hb w hw
      apply h b hb
      rw [Dict.get?_set, if_neg, hw]
      intro heq
      rw [heq, hmiss] at hw
      cases hw
    · intro b hb heq
      apply h b hb
      rw [Dict.get?_set, if_pos heq.symm]
  · intro h b hb w hw
    rw [Dict.get?_set] at hw
    by_cases heq : key b = key a
    · rw [if_pos heq, Option.some_inj] at hw
      rw [← hw]
      exact h.2 b hb heq.symm
    · rw [if_neg heq] at hw
      exact h.1 b hb w hw

/-- One call with the cache, and the calls after it. -/
theorem calls_eq_map_iff_of_agrees (cache : Dict K V) (arguments : List A) :
    calls key compute cache arguments = arguments.map compute ↔
      Agrees key compute cache arguments ∧ Coherent key compute arguments := by
  induction arguments generalizing cache with
  | nil => simp [calls, Agrees, Coherent]
  | cons a rest ih =>
      rw [calls, List.map_cons, List.cons.injEq, ih, agrees_cons, coherent_cons]
      unfold call
      cases hcache : cache.get? (key a) with
      | some v =>
          -- The result is taken from the cache, so it must be the one of this call.
          constructor
          · rintro ⟨hresult, hagrees, hcoherent⟩
            refine ⟨⟨?_, hagrees⟩, ?_, hcoherent⟩
            · intro w hw
              rw [← Option.some.inj hw]
              exact hresult.symm
            · intro b hb hkey w hw
              rw [← hresult] at hw
              apply hagrees b hb
              rw [← hkey, hcache, Except.ok.inj hw]
          · rintro ⟨⟨hresult, hagrees⟩, -, hcoherent⟩
            exact ⟨(hresult v rfl).symm, hagrees, hcoherent⟩
      | none =>
          cases hresult : compute a with
          | error e => simp
          | ok v =>
              -- The result is kept, so the later calls with this key must have it too.
              rw [agrees_set hcache]
              simp only [Except.ok.injEq, forall_eq', true_and, reduceCtorEq, false_implies,
                implies_true]
              tauto

/-- A sequence of calls behaves as without the cache exactly when it is coherent. -/
theorem calls_eq_map_iff (arguments : List A) :
    calls key compute Dict.empty arguments = arguments.map compute ↔
      Coherent key compute arguments := by
  rw [calls_eq_map_iff_of_agrees]
  simp [Agrees]

end Cache

end Collections
