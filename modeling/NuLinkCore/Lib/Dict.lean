import Mathlib.Data.List.Nodup
import Mathlib.Data.List.Perm.Basic
import Mathlib.Data.Finset.Card
import Mathlib.Tactic

/-!
# Insertion-ordered dictionaries

A dictionary keeps its entries in the order in which their keys were first
inserted; writing an existing key replaces the value in place.  The uniqueness
of keys is a field of the structure, so no operation has to re-establish it at
its call sites.  Reasoning goes through {lit}`get?`: every operation has one
lookup lemma, and two dictionaries with the same lookups hold the same entries
up to order.

Main results:

- Theorem {lit}`Dict.mem_entries_iff`: an entry is present exactly when the
  lookup of its key returns its value.
- Theorems {lit}`Dict.get?_set`, {lit}`Dict.get?_erase` and
  {lit}`Dict.get?_ofList`: the lookup behaviour of the three writers.
- Theorem {lit}`Dict.get?_ofList_map_eq_some_iff`: a comprehension keeps the last value of a key.
- Theorem {lit}`Dict.entries_perm_of_get?_eq`: lookups determine the entries up
  to a permutation.
- Theorem {lit}`Dict.update_ofList_ofList`: comprehensions over two lists are merged into the
  one over both.
-/

namespace Collections

universe u v

/-- A finite map with unique keys, kept in insertion order. -/
structure Dict (K : Type u) (V : Type v) where
  entries : List (K × V)
  nodup_keys : (entries.map Prod.fst).Nodup
deriving DecidableEq

namespace Dict

variable {K : Type u} {V : Type v}

/-- The dictionary without entries. -/
def empty : Dict K V where
  entries := []
  nodup_keys := by simp

/-- The keys, in insertion order. -/
def keys (d : Dict K V) : List K := d.entries.map Prod.fst

/-- The values, in the insertion order of their keys. -/
def values (d : Dict K V) : List V := d.entries.map Prod.snd

/-- The number of entries. -/
def len (d : Dict K V) : Nat := d.entries.length

@[simp]
theorem keys_empty : (empty : Dict K V).keys = [] :=
  rfl

@[simp]
theorem len_empty : (empty : Dict K V).len = 0 :=
  rfl

theorem eq_empty_of_len {d : Dict K V} (h : d.len = 0) : d = empty := by
  rcases d with ⟨entries, hnodup⟩
  have hentries : entries = [] := List.length_eq_zero_iff.mp h
  subst hentries
  rfl

theorem keys_nodup (d : Dict K V) : d.keys.Nodup :=
  d.nodup_keys

theorem length_keys (d : Dict K V) : d.keys.length = d.len := by
  simp [keys, len]

variable [DecidableEq K]

/-- The number of entries is the number of distinct keys. -/
theorem card_keys (d : Dict K V) : d.keys.toFinset.card = d.len := by
  rw [List.toFinset_card_of_nodup d.keys_nodup, length_keys]

/-- The value stored under a key, if there is one. -/
def get? (d : Dict K V) (k : K) : Option V := d.entries.lookup k

/-- Whether a key is present. -/
def contains (d : Dict K V) (k : K) : Bool := (d.get? k).isSome

theorem lookup_cons_ite (k : K) (e : K × V) (l : List (K × V)) :
    (e :: l).lookup k = if k = e.1 then some e.2 else l.lookup k := by
  rcases e with ⟨k', v⟩
  by_cases h : k = k'
  · simp [h]
  · have hbeq : (k == k') = false := beq_eq_false_iff_ne.mpr h
    simp [List.lookup_cons, hbeq, h]

/-- In an entry list with unique keys, lookup finds exactly the entries. -/
theorem lookup_eq_some_iff_mem {l : List (K × V)} (h : (l.map Prod.fst).Nodup)
    (k : K) (v : V) : l.lookup k = some v ↔ (k, v) ∈ l := by
  induction l with
  | nil => simp
  | cons e rest ih =>
      rcases e with ⟨k', v'⟩
      simp only [List.map_cons, List.nodup_cons] at h
      by_cases hk : k = k'
      · subst k'
        have hnot : (k, v) ∉ rest := fun hmem =>
          h.1 (List.mem_map.mpr ⟨(k, v), hmem, rfl⟩)
        simp [hnot, eq_comm]
      · simp [lookup_cons_ite, hk, ih h.2]

/-- An entry is present exactly when the lookup of its key returns its value. -/
theorem mem_entries_iff {d : Dict K V} {k : K} {v : V} :
    (k, v) ∈ d.entries ↔ d.get? k = some v :=
  (lookup_eq_some_iff_mem d.nodup_keys k v).symm

theorem mem_keys_iff_exists {d : Dict K V} {k : K} :
    k ∈ d.keys ↔ ∃ v, d.get? k = some v := by
  simp only [keys, List.mem_map, Prod.exists, exists_and_right, exists_eq_right, mem_entries_iff]

theorem mem_keys_iff_contains {d : Dict K V} {k : K} :
    k ∈ d.keys ↔ d.contains k = true := by
  rw [mem_keys_iff_exists, contains, Option.isSome_iff_exists]

theorem mem_values_iff_exists {d : Dict K V} {v : V} :
    v ∈ d.values ↔ ∃ k, d.get? k = some v := by
  simp only [values, List.mem_map, Prod.exists, exists_eq_right, mem_entries_iff]

theorem get?_eq_none_iff {d : Dict K V} {k : K} : d.get? k = none ↔ k ∉ d.keys := by
  rw [mem_keys_iff_contains, contains, Bool.not_eq_true, Option.isSome_eq_false_iff,
    Option.isNone_iff_eq_none]

@[simp]
theorem get?_empty (k : K) : (empty : Dict K V).get? k = none :=
  rfl

/-- Lookups determine the entries up to order. -/
theorem entries_perm_of_get?_eq {d e : Dict K V} (h : ∀ k, d.get? k = e.get? k) :
    d.entries.Perm e.entries := by
  have hd : d.entries.Nodup := d.nodup_keys.of_map
  have he : e.entries.Nodup := e.nodup_keys.of_map
  rw [List.perm_ext_iff_of_nodup hd he]
  rintro ⟨k, v⟩
  rw [mem_entries_iff, mem_entries_iff, h k]

/-- Lookups determine the number of entries. -/
theorem len_eq_of_get?_eq {d e : Dict K V} (h : ∀ k, d.get? k = e.get? k) : d.len = e.len :=
  (entries_perm_of_get?_eq h).length_eq

/-- Lookups determine the values up to order. -/
theorem values_perm_of_get?_eq {d e : Dict K V} (h : ∀ k, d.get? k = e.get? k) :
    d.values.Perm e.values :=
  (entries_perm_of_get?_eq h).map _

/-! ## Writing one key -/

/-- Replace the value of a present key in place, or append a new entry. -/
def setEntries (k : K) (v : V) : List (K × V) → List (K × V)
  | [] => [(k, v)]
  | (k', v') :: rest =>
      if k' = k then (k, v) :: rest else (k', v') :: setEntries k v rest

theorem keys_setEntries (k : K) (v : V) (l : List (K × V)) :
    (setEntries k v l).map Prod.fst =
      if k ∈ l.map Prod.fst then l.map Prod.fst else l.map Prod.fst ++ [k] := by
  induction l with
  | nil => simp [setEntries]
  | cons e rest ih =>
      rcases e with ⟨k', v'⟩
      by_cases hk : k' = k
      · simp [setEntries, hk]
      · have hne : ¬ k = k' := fun h => hk h.symm
        simp only [setEntries, hk, if_false, List.map_cons, ih, List.mem_cons, hne, false_or]
        split <;> simp

theorem lookup_setEntries (k k₀ : K) (v : V) (l : List (K × V)) :
    (setEntries k v l).lookup k₀ = if k₀ = k then some v else l.lookup k₀ := by
  induction l with
  | nil => simp [setEntries, lookup_cons_ite]
  | cons e rest ih =>
      rcases e with ⟨k', v'⟩
      by_cases hk : k' = k
      · subst k'
        by_cases h : k₀ = k <;> simp [setEntries, lookup_cons_ite, h]
      · by_cases h : k₀ = k
        · subst k₀
          have hne : ¬ k = k' := fun h => hk h.symm
          simp [setEntries, hk, lookup_cons_ite, hne, ih]
        · simp [setEntries, hk, lookup_cons_ite, ih, h]

/-- Write one key: an existing key keeps its position. -/
def set (d : Dict K V) (k : K) (v : V) : Dict K V where
  entries := setEntries k v d.entries
  nodup_keys := by
    rw [keys_setEntries]
    split
    · exact d.nodup_keys
    · rename_i h
      refine List.nodup_append.mpr ⟨d.nodup_keys, by simp, ?_⟩
      intro a ha b hb hab
      rw [List.mem_singleton] at hb
      exact h (hb ▸ hab ▸ ha)

@[simp]
theorem get?_set (d : Dict K V) (k k₀ : K) (v : V) :
    (d.set k v).get? k₀ = if k₀ = k then some v else d.get? k₀ :=
  lookup_setEntries k k₀ v d.entries

theorem keys_set (d : Dict K V) (k : K) (v : V) :
    (d.set k v).keys = if k ∈ d.keys then d.keys else d.keys ++ [k] :=
  keys_setEntries k v d.entries

theorem mem_keys_set {d : Dict K V} {k k₀ : K} {v : V} :
    k₀ ∈ (d.set k v).keys ↔ k₀ = k ∨ k₀ ∈ d.keys := by
  rw [mem_keys_iff_exists, mem_keys_iff_exists, get?_set]
  by_cases h : k₀ = k <;> simp [h]

/-- Writing grows a dictionary by one exactly when the key is new. -/
theorem len_set (d : Dict K V) (k : K) (v : V) :
    (d.set k v).len = if k ∈ d.keys then d.len else d.len + 1 := by
  rw [← length_keys, ← length_keys, keys_set]
  split <;> simp

/-- A new key is written at the end. -/
theorem entries_set_of_not_mem {d : Dict K V} {k : K} (h : k ∉ d.keys) (v : V) :
    (d.set k v).entries = d.entries ++ [(k, v)] := by
  have happend : ∀ l : List (K × V), k ∉ l.map Prod.fst → setEntries k v l = l ++ [(k, v)] := by
    intro l hl
    induction l with
    | nil => rfl
    | cons e rest ih =>
        rw [List.map_cons, List.mem_cons, not_or] at hl
        rw [setEntries, if_neg (Ne.symm hl.1), ih hl.2, List.cons_append]
  exact happend d.entries h

/-- Remove one key. -/
def erase (d : Dict K V) (k : K) : Dict K V where
  entries := d.entries.filter (fun e => e.1 ≠ k)
  nodup_keys := (List.filter_sublist.map Prod.fst).nodup d.nodup_keys

@[simp]
theorem get?_erase (d : Dict K V) (k k₀ : K) :
    (d.erase k).get? k₀ = if k₀ = k then none else d.get? k₀ := by
  ext v
  rw [← mem_entries_iff]
  by_cases h : k₀ = k
  · simp [erase, h]
  · simp [erase, h, mem_entries_iff]

/-- A key that is removed takes one entry out. -/
theorem entries_perm_erase {d : Dict K V} {k : K} {v : V} (h : d.get? k = some v) :
    d.entries.Perm ((k, v) :: (d.erase k).entries) := by
  have hnot : (k, v) ∉ (d.erase k).entries := by
    rw [mem_entries_iff, get?_erase, if_pos rfl]
    simp
  have hnodup : ((k, v) :: (d.erase k).entries).Nodup :=
    List.nodup_cons.mpr ⟨hnot, (d.erase k).nodup_keys.of_map⟩
  rw [List.perm_ext_iff_of_nodup d.nodup_keys.of_map hnodup]
  rintro ⟨k₀, v₀⟩
  rw [List.mem_cons, mem_entries_iff, mem_entries_iff, get?_erase, Prod.mk.injEq]
  by_cases hkey : k₀ = k
  · rw [hkey, h]
    simp [eq_comm]
  · simp [hkey]

theorem values_perm_erase {d : Dict K V} {k : K} {v : V} (h : d.get? k = some v) :
    d.values.Perm (v :: (d.erase k).values) :=
  (entries_perm_erase h).map Prod.snd

/-- The entries whose value satisfies a test. -/
def filter (d : Dict K V) (p : V → Bool) : Dict K V where
  entries := d.entries.filter (fun e => p e.2)
  nodup_keys := (List.filter_sublist.map Prod.fst).nodup d.nodup_keys

@[simp]
theorem get?_filter (d : Dict K V) (p : V → Bool) (k : K) :
    (d.filter p).get? k = (d.get? k).filter p := by
  ext v
  rw [← mem_entries_iff, Option.filter_eq_some_iff, ← mem_entries_iff]
  simp [filter]

/-- The entries whose key satisfies a test. -/
def filterKeys (d : Dict K V) (p : K → Bool) : Dict K V where
  entries := d.entries.filter (fun e => p e.1)
  nodup_keys := (List.filter_sublist.map Prod.fst).nodup d.nodup_keys

@[simp]
theorem get?_filterKeys (d : Dict K V) (p : K → Bool) (k : K) :
    (d.filterKeys p).get? k = if p k = true then d.get? k else none := by
  ext v
  rw [← mem_entries_iff]
  by_cases h : p k = true
  · simp [filterKeys, h, mem_entries_iff]
  · simp [filterKeys, h]

/-- The same keys with values computed from the old ones. -/
def mapValues {W : Type*} (d : Dict K V) (f : V → W) : Dict K W where
  entries := d.entries.map fun e => (e.1, f e.2)
  nodup_keys := by
    rw [List.map_map]
    exact d.nodup_keys

@[simp]
theorem get?_mapValues {W : Type*} (d : Dict K V) (f : V → W) (k : K) :
    (d.mapValues f).get? k = (d.get? k).map f := by
  simp only [get?, mapValues]
  induction d.entries with
  | nil => rfl
  | cons e rest ih =>
      rw [List.map_cons, lookup_cons_ite, lookup_cons_ite, ih]
      by_cases h : k = e.1 <;> simp [h]

/-! ## Building from a list and merging -/

/-- A dictionary comprehension: later pairs overwrite earlier ones. -/
def ofList (l : List (K × V)) : Dict K V := l.foldl (fun d e => d.set e.1 e.2) empty

/-- Merge the entries of a second dictionary over a first one. -/
def update (d e : Dict K V) : Dict K V := e.entries.foldl (fun d e => d.set e.1 e.2) d

theorem foldl_set_append_singleton (d : Dict K V) (l : List (K × V)) (e : K × V) :
    (l ++ [e]).foldl (fun d e => d.set e.1 e.2) d =
      (l.foldl (fun d e => d.set e.1 e.2) d).set e.1 e.2 := by
  simp

/-- After a sequence of writes a key holds its last written value, or what the
dictionary held before when it was not written. -/
theorem get?_foldl_set (d : Dict K V) (l : List (K × V)) (k : K) :
    (l.foldl (fun d e => d.set e.1 e.2) d).get? k =
      (l.reverse.lookup k).or (d.get? k) := by
  induction l using List.reverseRecOn with
  | nil => simp
  | append_singleton l e ih =>
      rw [foldl_set_append_singleton, get?_set, ih, List.reverse_append]
      by_cases h : k = e.1 <;> simp [lookup_cons_ite, h]

theorem get?_ofList (l : List (K × V)) (k : K) :
    (ofList l).get? k = l.reverse.lookup k := by
  rw [ofList, get?_foldl_set]
  simp

/-- Entries with different keys are kept as they are. -/
theorem entries_ofList {l : List (K × V)} (h : (l.map Prod.fst).Nodup) :
    (ofList l).entries = l := by
  have hfold : ∀ (d : Dict K V), (∀ e ∈ l, e.1 ∉ d.keys) →
      (l.foldl (fun d e => d.set e.1 e.2) d).entries = d.entries ++ l := by
    induction l with
    | nil => simp
    | cons e rest ih =>
        intro d hnew
        rw [List.map_cons, List.nodup_cons] at h
        have hhead : e.1 ∉ d.keys := hnew e List.mem_cons_self
        rw [List.foldl_cons, ih h.2, entries_set_of_not_mem hhead, List.append_assoc,
          List.singleton_append]
        intro e' he' hmem
        rcases mem_keys_set.mp hmem with heq | hold
        · exact h.1 (heq ▸ List.mem_map_of_mem he')
        · exact hnew e' (List.mem_cons_of_mem _ he') hold
  exact hfold empty (by simp)

/-- A comprehension holds nothing but the pairs. -/
theorem mem_of_get?_ofList {l : List (K × V)} {k : K} {v : V}
    (h : (ofList l).get? k = some v) : (k, v) ∈ l := by
  rw [get?_ofList] at h
  rcases List.lookup_eq_some_iff.mp h with ⟨l₁, l₂, heq, -⟩
  rw [← List.mem_reverse, heq]
  simp

/-- A key of a comprehension has the value of its last pair. -/
theorem get?_ofList_eq_some_iff_last {l : List (K × V)} {k : K} {v : V} :
    (ofList l).get? k = some v ↔
      ∃ before after, l = before ++ (k, v) :: after ∧ ∀ e ∈ after, e.1 ≠ k := by
  rw [get?_ofList, List.lookup_eq_some_iff]
  simp only [List.reverse_eq_iff, List.reverse_append, List.reverse_cons, List.append_assoc,
    List.singleton_append, bne_iff_ne]
  constructor
  · rintro ⟨l₁, l₂, hsplit, hlast⟩
    refine ⟨l₂.reverse, l₁.reverse, hsplit, ?_⟩
    intro e he hkey
    exact hlast e (List.mem_reverse.mp he) hkey.symm
  · rintro ⟨before, after, hsplit, hlast⟩
    refine ⟨after.reverse, before.reverse, by simpa using hsplit, ?_⟩
    intro e he hkey
    exact hlast e (List.mem_reverse.mp he) hkey.symm

/-- A comprehension over a list gives a key the value of the last element with that key. -/
theorem get?_ofList_map_eq_some_iff {α : Type*} {f : α → K} {g : α → V} {l : List α} {k : K}
    {v : V} :
    (ofList (l.map fun a => (f a, g a))).get? k = some v ↔
      ∃ before a after, l = before ++ a :: after ∧ (∀ later ∈ after, f later ≠ f a) ∧
        f a = k ∧ g a = v := by
  rw [get?_ofList_eq_some_iff_last]
  constructor
  · rintro ⟨before, after, hsplit, hlast⟩
    rcases List.map_eq_append_iff.mp hsplit with ⟨l₁, l₂, rfl, -, hsecond⟩
    rcases List.map_eq_cons_iff.mp hsecond with ⟨a, l₃, rfl, ha, rfl⟩
    rcases Prod.mk.inj ha with ⟨rfl, rfl⟩
    exact ⟨l₁, a, l₃, rfl, fun later hlater => hlast _ (List.mem_map_of_mem hlater), rfl, rfl⟩
  · rintro ⟨before, a, after, rfl, hlast, rfl, rfl⟩
    refine ⟨before.map fun a => (f a, g a), after.map fun a => (f a, g a), by simp, ?_⟩
    intro e he
    rcases List.mem_map.mp he with ⟨later, hlater, rfl⟩
    exact hlast later hlater

/-- A comprehension over pairs with different keys holds exactly the pairs. -/
theorem get?_ofList_eq_some_iff {l : List (K × V)} (h : (l.map Prod.fst).Nodup) {k : K} {v : V} :
    (ofList l).get? k = some v ↔ (k, v) ∈ l := by
  have hnodup : (l.reverse.map Prod.fst).Nodup := by
    rw [List.map_reverse, List.nodup_reverse]
    exact h
  rw [get?_ofList, lookup_eq_some_iff_mem hnodup, List.mem_reverse]

/-- Keys are unique, so the order of the entries does not matter to a lookup. -/
theorem lookup_reverse_entries (d : Dict K V) (k : K) :
    d.entries.reverse.lookup k = d.get? k := by
  have hnodup : (d.entries.reverse.map Prod.fst).Nodup := by
    rw [List.map_reverse, List.nodup_reverse]
    exact d.nodup_keys
  ext v
  rw [lookup_eq_some_iff_mem hnodup, List.mem_reverse, mem_entries_iff]

theorem get?_update (d e : Dict K V) (k : K) :
    (d.update e).get? k = (e.get? k).or (d.get? k) := by
  rw [update, get?_foldl_set, lookup_reverse_entries]

/-- A comprehension over pairs has exactly the listed keys. -/
theorem mem_keys_ofList {l : List (K × V)} {k : K} :
    k ∈ (ofList l).keys ↔ k ∈ l.map Prod.fst := by
  rw [← not_iff_not, ← get?_eq_none_iff, get?_ofList, List.lookup_eq_none_iff]
  simp only [List.mem_reverse, List.mem_map, not_exists, not_and, bne_iff_ne]
  constructor
  · intro h e he hk
    exact h e he hk.symm
  · intro h e he hk
    exact h e he hk.symm

theorem mem_keys_update {d e : Dict K V} {k : K} :
    k ∈ (d.update e).keys ↔ k ∈ d.keys ∨ k ∈ e.keys := by
  rw [← not_iff_not, not_or, ← get?_eq_none_iff, ← get?_eq_none_iff, ← get?_eq_none_iff,
    get?_update, Option.or_eq_none_iff, and_comm]

/-- Merging dictionaries without a common key adds up their entries. -/
theorem len_update_of_disjoint {d e : Dict K V} (h : ∀ k ∈ d.keys, k ∉ e.keys) :
    (d.update e).len = d.len + e.len := by
  have hkeys : (d.update e).keys.toFinset = d.keys.toFinset ∪ e.keys.toFinset := by
    ext k
    simp [mem_keys_update]
  have hdisjoint : Disjoint d.keys.toFinset e.keys.toFinset := by
    rw [Finset.disjoint_left]
    intro k hk
    simpa using h k (by simpa using hk)
  rw [← card_keys, hkeys, Finset.card_union_of_disjoint hdisjoint, card_keys, card_keys]

/-- Merging appends the new keys in their order. -/
theorem keys_update (d e : Dict K V) :
    (d.update e).keys = d.keys ++ e.keys.filter (fun k => decide (k ∉ d.keys)) := by
  have hfold : ∀ (l : List (K × V)) (d : Dict K V), (l.map Prod.fst).Nodup →
      (l.foldl (fun d e => d.set e.1 e.2) d).keys =
        d.keys ++ (l.map Prod.fst).filter (fun k => decide (k ∉ d.keys)) := by
    intro l
    induction l with
    | nil => simp
    | cons entry rest ih =>
        intro d hnodup
        rw [List.map_cons, List.nodup_cons] at hnodup
        have hrest :
            (rest.map Prod.fst).filter (fun k => decide (k ∉ (d.set entry.1 entry.2).keys)) =
              (rest.map Prod.fst).filter (fun k => decide (k ∉ d.keys)) := by
          apply List.filter_congr
          intro k hk
          have hne : k ≠ entry.1 := by
            intro heq
            exact hnodup.1 (heq ▸ hk)
          simp [mem_keys_set, hne]
        rw [List.foldl_cons, ih _ hnodup.2, hrest, keys_set, List.map_cons]
        by_cases hmem : entry.1 ∈ d.keys
        · rw [if_pos hmem, List.filter_cons_of_neg (by simpa using hmem)]
        · rw [if_neg hmem, List.filter_cons_of_pos (by simpa using hmem), List.append_assoc]
          rfl
  exact hfold e.entries d e.nodup_keys

/-- Values that determine their key give the keys. -/
theorem map_values_eq_keys {d : Dict K V} {f : V → K}
    (h : ∀ k v, d.get? k = some v → f v = k) : d.values.map f = d.keys := by
  rw [values, keys, List.map_map]
  apply List.map_congr_left
  intro e he
  exact h e.1 e.2 (mem_entries_iff.mp he)

/-! ## Taking entries away from the end -/

/-- The dictionary without its last entry. -/
def popitem (d : Dict K V) : Dict K V where
  entries := d.entries.dropLast
  nodup_keys := ((List.dropLast_sublist d.entries).map Prod.fst).nodup d.nodup_keys

/-- Take a number of entries away from the end. -/
def popitems : Nat → Dict K V → Dict K V
  | 0, d => d
  | n + 1, d => popitems n d.popitem

omit [DecidableEq K] in
theorem entries_popitems (n : Nat) (d : Dict K V) :
    (popitems n d).entries = d.entries.take (d.len - n) := by
  induction n generalizing d with
  | zero => simp [popitems, len]
  | succ n ih =>
      have hlen : d.popitem.len = d.len - 1 := List.length_dropLast
      have hentries : d.popitem.entries = d.entries.take (d.entries.length - 1) :=
        List.dropLast_eq_take
      rw [popitems, ih, hlen, hentries, List.take_take]
      congr 1
      unfold len
      omega

/-! ## Merging a comprehension -/

omit [DecidableEq K] in
theorem eq_of_entries_eq {d e : Dict K V} (h : d.entries = e.entries) : d = e := by
  rcases d with ⟨entries, hnodup⟩
  rcases e with ⟨entries', hnodup'⟩
  cases h
  rfl

/-- Writing a key twice keeps the last value. -/
theorem set_set (d : Dict K V) (k : K) (v w : V) : (d.set k v).set k w = d.set k w := by
  have hentries : ∀ l : List (K × V),
      setEntries k w (setEntries k v l) = setEntries k w l := by
    intro l
    induction l with
    | nil => simp [setEntries]
    | cons e rest ih =>
        rcases e with ⟨k', v'⟩
        by_cases hk : k' = k
        · simp [setEntries, hk]
        · simp [setEntries, hk, ih]
  exact eq_of_entries_eq (hentries d.entries)

/-- A key that is there is overwritten before or after another key is written. -/
theorem set_comm_of_mem {d : Dict K V} {k : K} (hmem : k ∈ d.keys) {k₂ : K} (hne : k ≠ k₂)
    (v v₂ : V) : (d.set k₂ v₂).set k v = (d.set k v).set k₂ v₂ := by
  have hentries : ∀ l : List (K × V), k ∈ l.map Prod.fst →
      setEntries k v (setEntries k₂ v₂ l) = setEntries k₂ v₂ (setEntries k v l) := by
    intro l hl
    induction l with
    | nil => simp at hl
    | cons e rest ih =>
        rcases e with ⟨k', v'⟩
        by_cases hk : k' = k
        · by_cases hk₂ : k' = k₂
          · exact absurd (hk.symm.trans hk₂) hne
          · simp [setEntries, hk, hne]
        · have hrest : k ∈ rest.map Prod.fst := by
            rw [List.map_cons, List.mem_cons] at hl
            rcases hl with heq | hrest
            · exact absurd heq.symm hk
            · exact hrest
          by_cases hk₂ : k' = k₂
          · simp [setEntries, hk₂, hne.symm]
          · simp [setEntries, hk, hk₂, ih hrest]
  exact eq_of_entries_eq (hentries d.entries hmem)

/-- A key that is there may be overwritten before entries with other keys are merged. -/
theorem set_foldl_set {l : List (K × V)} {d : Dict K V} {k : K} (hmem : k ∈ d.keys)
    (hl : k ∉ l.map Prod.fst) (v : V) :
    (l.foldl (fun d e => d.set e.1 e.2) d).set k v =
      l.foldl (fun d e => d.set e.1 e.2) (d.set k v) := by
  induction l generalizing d with
  | nil => rfl
  | cons e rest ih =>
      rw [List.map_cons, List.mem_cons, not_or] at hl
      rw [List.foldl_cons, List.foldl_cons, ih (mem_keys_set.mpr (.inr hmem)) hl.2,
        set_comm_of_mem hmem hl.1]

/-- Merging entries in which one was overwritten is overwriting it after the merge. -/
theorem foldl_setEntries {l : List (K × V)} (h : (l.map Prod.fst).Nodup) (d : Dict K V) (k : K)
    (v : V) :
    (setEntries k v l).foldl (fun d e => d.set e.1 e.2) d =
      (l.foldl (fun d e => d.set e.1 e.2) d).set k v := by
  induction l generalizing d with
  | nil => rfl
  | cons e rest ih =>
      rcases e with ⟨k', v'⟩
      rw [List.map_cons, List.nodup_cons] at h
      by_cases hk : k' = k
      · subst hk
        rw [setEntries, if_pos rfl, List.foldl_cons, List.foldl_cons,
          set_foldl_set (mem_keys_set.mpr (.inl rfl)) h.1, set_set]
      · rw [setEntries, if_neg hk, List.foldl_cons, List.foldl_cons, ih h.2]

/-- Merging a comprehension is writing its pairs one after the other. -/
theorem update_ofList (d : Dict K V) (l : List (K × V)) :
    d.update (ofList l) = l.foldl (fun d e => d.set e.1 e.2) d := by
  induction l using List.reverseRecOn with
  | nil => rfl
  | append_singleton l e ih =>
      rw [ofList, foldl_set_append_singleton, foldl_set_append_singleton, ← ih, update, update]
      exact foldl_setEntries (ofList l).nodup_keys d e.1 e.2

/-- Comprehensions over two lists, merged. -/
theorem update_ofList_ofList (l l' : List (K × V)) :
    (ofList l).update (ofList l') = ofList (l ++ l') := by
  rw [update_ofList, ofList, ofList, List.foldl_append]

end Dict

end Collections
