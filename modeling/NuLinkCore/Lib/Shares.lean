import NuLinkCore.Lib.Dict

/-!
# Shares of different holders

Shares are given to holders, and holders are known under names.  What is collected under
different names comes from different shares, also when some shares are equal.

Main results:

- Theorem {lit}`Collections.Dict.exists_shares`: the shares behind what was collected.
-/

namespace Collections

universe u v w x

/-- A relation that has a partner for every element of a list has a list of partners. -/
theorem exists_forall₂ {α : Type u} {β : Type v} {R : α → β → Prop} {l : List α}
    (h : ∀ a ∈ l, ∃ b, R a b) : ∃ m, List.Forall₂ R l m := by
  induction l with
  | nil => exact ⟨[], List.Forall₂.nil⟩
  | cons a l ih =>
      rcases h a List.mem_cons_self with ⟨b, hb⟩
      rcases ih fun a' ha' => h a' (List.mem_cons_of_mem a ha') with ⟨m, hm⟩
      exact ⟨b :: m, List.Forall₂.cons hb hm⟩

/-- Lists whose elements agree in pairs under two functions have the same images. -/
theorem map_eq_map_of_forall₂ {α : Type u} {β : Type v} {γ : Type w} {f : α → γ} {g : β → γ}
    {l : List α} {m : List β} (h : List.Forall₂ (fun a b => f a = g b) l m) :
    l.map f = m.map g := by
  induction h with
  | nil => rfl
  | cons hab _ ih => rw [List.map_cons, List.map_cons, hab, ih]

namespace Dict

variable {K : Type u} {K' : Type v} {S : Type w} {V : Type x} [DecidableEq K] [DecidableEq K']

/-- When every value stands under the name of a holder and comes from the share of the holder,
the values come, one by one, from some of the shares. -/
theorem exists_shares (name : K → K') (R : S → V → Prop) {held : Dict K S} {collected : Dict K' V}
    (h : ∀ key value, collected.get? key = some value →
      ∃ holder share, key = name holder ∧ held.get? holder = some share ∧ R share value) :
    ∃ shares : List S, shares.Subperm held.values ∧
      List.Forall₂ (fun value share => R share value) collected.values shares := by
  have hpartner : ∀ entry ∈ collected.entries, ∃ part : K × S,
      entry.1 = name part.1 ∧ part ∈ held.entries ∧ R part.2 entry.2 := by
    intro entry hentry
    rcases h entry.1 entry.2 (mem_entries_iff.mp hentry) with ⟨holder, share, hname, hheld, hR⟩
    exact ⟨(holder, share), hname, mem_entries_iff.mpr hheld, hR⟩
  rcases exists_forall₂ hpartner with ⟨parts, hparts⟩
  -- Different names are names of different holders.
  have hnames : collected.keys = (parts.map Prod.fst).map name := by
    rw [List.map_map]
    exact map_eq_map_of_forall₂ (hparts.imp fun _ _ hpart => hpart.1)
  have hnodup : (parts.map Prod.fst).Nodup := by
    have hkeys := collected.keys_nodup
    rw [hnames] at hkeys
    exact hkeys.of_map
  have hsubset : parts ⊆ held.entries := by
    intro part hpart
    rcases List.mem_iff_getElem.mp hpart with ⟨i, hi, rfl⟩
    exact (hparts.get (hparts.length_eq ▸ hi) hi).2.1
  rcases hnodup.of_map.subperm hsubset with ⟨chosen, hperm, hsublist⟩
  refine ⟨parts.map Prod.snd, ⟨chosen.map Prod.snd, hperm.map _, hsublist.map _⟩, ?_⟩
  rw [values, List.forall₂_map_left_iff, List.forall₂_map_right_iff]
  exact hparts.imp fun _ _ hpart => hpart.2.2

end Dict

end Collections
