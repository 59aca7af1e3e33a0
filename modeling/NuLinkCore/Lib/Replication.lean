import Mathlib.Data.Set.Basic
import Mathlib.Order.Basic
import Mathlib.Tactic.Common

/-!
# Replicas of versioned values

Each of several replicas has a view of some keys.  Values carry a version; what a
replica does to its view is sound when it only takes up published values, never goes
back to an older version, and forgets only the keys that it drops.

What one replica knows influences another when some message chain leads from the one
to the other.  A fact that every step keeps and every message carries over reaches
whatever is influenced.

Main results:

- Theorem {lit}`Advances.trans`: sound changes compose.
- Theorem {lit}`Advances.eq_some_of_newest`: a value that no published one is newer than
  stays.
- Theorem {lit}`Influences.transport`: facts travel along message chains.
-/

namespace Replication

universe u v w x

variable {K : Type u} {V : Type v} {T : Type w} [Preorder T]

/-- The later view has nothing but earlier and published values, and keys that are not dropped
keep their value or take a newer one. -/
structure Advances (version : V → T) (published : Set V) (dropped : Set K)
    (view view' : K → Option V) : Prop where
  sourced : ∀ k v, view' k = some v → view k = some v ∨ v ∈ published
  kept : ∀ k old, k ∉ dropped → view k = some old →
    ∃ v, view' k = some v ∧ (v = old ∨ version old < version v)

variable {version : V → T} {published published' : Set V} {dropped dropped' : Set K}
  {view view' view'' : K → Option V}

theorem Advances.refl (version : V → T) (published : Set V) (dropped : Set K)
    (view : K → Option V) : Advances version published dropped view view :=
  ⟨fun _ _ h => Or.inl h, fun _ old _ h => ⟨old, h, Or.inl rfl⟩⟩

theorem Advances.mono (h : Advances version published dropped view view')
    (hpublished : published ⊆ published') (hdropped : dropped ⊆ dropped') :
    Advances version published' dropped' view view' where
  sourced := by
    intro k v hv
    rcases h.sourced k v hv with hold | hnew
    · exact Or.inl hold
    · exact Or.inr (hpublished hnew)
  kept := by
    intro k old hk hold
    exact h.kept k old (fun hmem => hk (hdropped hmem)) hold

/-- Sound changes compose. -/
theorem Advances.trans (h : Advances version published dropped view view')
    (h' : Advances version published dropped view' view'') :
    Advances version published dropped view view'' where
  sourced := by
    intro k v hv
    rcases h'.sourced k v hv with hmid | hnew
    · exact h.sourced k v hmid
    · exact Or.inr hnew
  kept := by
    intro k old hk hold
    rcases h.kept k old hk hold with ⟨mid, hmid, hstep⟩
    rcases h'.kept k mid hk hmid with ⟨last, hlast, hstep'⟩
    refine ⟨last, hlast, ?_⟩
    rcases hstep with rfl | hlt
    · exact hstep'
    · rcases hstep' with rfl | hlt'
      · exact Or.inr hlt
      · exact Or.inr (lt_trans hlt hlt')

/-- A value that no published value of its key is newer than stays. -/
theorem Advances.eq_some_of_newest (h : Advances version published dropped view view') {k : K}
    {newest : V} (hk : k ∉ dropped) (hview : view k = some newest)
    (hnewest : ∀ v ∈ published, view' k = some v → ¬ version newest < version v) :
    view' k = some newest := by
  rcases h.kept k newest hk hview with ⟨v, hv, rfl | hlt⟩
  · exact hv
  · rcases h.sourced k v hv with hold | hpublished
    · rw [hview] at hold
      rw [hv, ← hold]
    · exact absurd hlt (hnewest v hpublished hv)

/-! ## Influence -/

section Influence

variable {σ : Type u} {ι : Type v}

/-- A chain of messages leads from the first replica in the first state to the second replica in
the second: steps pass, and now and then what one replica knows is carried to another. -/
inductive Influences (step : σ → σ → Prop) (carries : ι → ι → σ → σ → Prop) :
    ι → σ → ι → σ → Prop where
  | here (p : ι) (s : σ) : Influences step carries p s p s
  | wait {p q : ι} {s s' s'' : σ} : Influences step carries p s q s' → step s' s'' →
      Influences step carries p s q s''
  | hop {p q r : ι} {s s' s'' : σ} : Influences step carries p s q s' → carries q r s' s'' →
      Influences step carries p s r s''

/-- What every step keeps and every message carries over reaches whatever is influenced.  The
invariant may be used on the way. -/
theorem Influences.transport {step : σ → σ → Prop} {carries : ι → ι → σ → σ → Prop}
    {Inv : σ → Prop} {Holds : ι → σ → Prop}
    (hstep : ∀ p s s', Inv s → step s s' → Holds p s → Inv s' ∧ Holds p s')
    (hcarries : ∀ p q s s', Inv s → carries p q s s' → Holds p s → Inv s' ∧ Holds q s')
    {p q : ι} {s s' : σ} (h : Influences step carries p s q s') (hinv : Inv s)
    (hholds : Holds p s) : Inv s' ∧ Holds q s' := by
  induction h with
  | here => exact ⟨hinv, hholds⟩
  | wait _ hnext ih =>
      rcases ih hinv hholds with ⟨hinv', hholds'⟩
      exact hstep _ _ _ hinv' hnext hholds'
  | hop _ hnext ih =>
      rcases ih hinv hholds with ⟨hinv', hholds'⟩
      exact hcarries _ _ _ _ hinv' hnext hholds'

end Influence

end Replication
