import Mathlib.Data.List.Infix
import Mathlib.Tactic

/-!
# Splitting a list at a separator

The list is read from left to right and cut at every occurrence of the separator
that does not overlap the one found before.  A separator is unbordered when no
proper nonempty prefix of it is also a suffix; then its occurrences never
overlap, and one that was inserted between two lists is found exactly there.

Main results:

- Theorem {lit}`intercalate_split`: joining the parts gives the list back.
- Theorem {lit}`not_infix_of_mem_split`: no part holds the separator.
- Theorem {lit}`split_append_eq_pair_iff`: an unbordered separator between two lists
  splits them apart exactly when neither of them holds it.
- Theorem {lit}`splitOn_eq_pair_iff`: what stands before and after the only occurrence of an
  element.
-/

namespace Collections

universe u

variable {α : Type u}

/-! ## Occurrences of a separator -/

theorem intercalate_cons_of_ne_nil (sep part : List α) {parts : List (List α)} (h : parts ≠ []) :
    sep.intercalate (part :: parts) = part ++ sep ++ sep.intercalate parts := by
  cases parts with
  | nil => exact absurd rfl h
  | cons next parts => simp [List.intercalate]

/-- No occurrence of the separator in {lit}`part ++ rest` begins inside {lit}`part`. -/
def NoStart (sep part rest : List α) : Prop :=
  ∀ front back, part = front ++ back → back ≠ [] → ¬ sep <+: back ++ rest

theorem NoStart.nil (sep rest : List α) : NoStart sep [] rest := by
  intro front back hsplit hback
  have hnil : front = [] ∧ back = [] := by simpa using hsplit.symm
  exact absurd hnil.2 hback

theorem NoStart.snoc {sep part rest : List α} {x : α} (h : NoStart sep part (x :: rest))
    (hx : ¬ sep <+: x :: rest) : NoStart sep (part ++ [x]) rest := by
  intro front back hsplit hback
  rcases List.eq_nil_or_concat back with rfl | ⟨back', y, rfl⟩
  · exact absurd rfl hback
  · rw [List.concat_eq_append, ← List.append_assoc] at hsplit
    have hinj := List.append_inj' hsplit rfl
    have hy : x = y := (List.cons.inj hinj.2).1
    subst hy
    rw [List.concat_eq_append, List.append_assoc, List.singleton_append]
    by_cases hnil : back' = []
    · simpa [hnil] using hx
    · exact h front back' hinj.1 hnil

theorem NoStart.absent {sep part rest : List α} (hsep : sep ≠ [])
    (h : NoStart sep part rest) : ¬ sep <:+: part := by
  rintro ⟨front, back, hpart⟩
  refine h front (sep ++ back) (by rw [← hpart, List.append_assoc]) (by simp [hsep]) ?_
  rw [List.append_assoc]
  exact List.prefix_append sep (back ++ rest)

theorem noStart_of_absent {sep l : List α} (h : ¬ sep <:+: l) : NoStart sep l [] := by
  rintro front back rfl - hpre
  rw [List.append_nil] at hpre
  exact h (hpre.isInfix.trans (List.suffix_append front back).isInfix)

/-! ## Unbordered separators -/

/-- No proper nonempty prefix of the separator is also a suffix of it. -/
def Unbordered (sep : List α) : Prop :=
  ∀ border, border ≠ [] → border <+: sep → border <:+ sep → border = sep

/-- It is enough to compare the prefixes and the suffixes of each length. -/
theorem unbordered_of_take_ne_drop {sep : List α}
    (h : ∀ n < sep.length, 0 < n → sep.take n ≠ sep.drop (sep.length - n)) : Unbordered sep := by
  intro border hne hpre hsuffix
  by_contra hproper
  have hlt : border.length < sep.length := by
    by_contra hle
    exact hproper (hpre.eq_of_length_le (by omega))
  refine h border.length hlt (List.length_pos_iff.mpr hne) ?_
  rw [← List.prefix_iff_eq_take.mp hpre]
  exact List.suffix_iff_eq_drop.mp hsuffix

/-- What is at once a suffix of an unbordered separator and begins something that the separator
begins is empty or the separator. -/
theorem Unbordered.eq_nil_or_eq {sep c d r back : List α} (h : Unbordered sep)
    (hsuffix : sep = c ++ d) (hbegin : sep ++ r = d ++ back) : d = [] ∨ d = sep := by
  by_cases hd : d = []
  · exact Or.inl hd
  · right
    apply h d hd
    · have hlen : d.length ≤ sep.length := by simp [hsuffix]
      have hpre : d <+: sep ++ r := ⟨back, hbegin.symm⟩
      exact List.prefix_of_prefix_length_le hpre (List.prefix_append sep r) hlen
    · exact ⟨c, hsuffix.symm⟩

/-- An unbordered separator that is put after a list without it is found there first. -/
theorem noStart_append_of_unbordered {sep l rest : List α} (hsep : Unbordered sep)
    (h : ¬ sep <:+: l) : NoStart sep l (sep ++ rest) := by
  rintro front back rfl hback hpre
  have hinside : ¬ sep <+: back := fun hin =>
    h (hin.isInfix.trans (List.suffix_append front back).isInfix)
  rcases List.prefix_or_prefix_of_prefix hpre (List.prefix_append back _) with hin | hover
  · exact hinside hin
  · -- The separator begins in the list and ends in the inserted one: a border.
    rcases hover with ⟨border, rfl⟩
    have hborder : border <+: (back ++ border) ++ rest :=
      (List.prefix_append_right_inj back).mp hpre
    have hpre' : border <+: back ++ border :=
      List.prefix_of_prefix_length_le hborder (List.prefix_append _ rest) (by simp)
    by_cases hnil : border = []
    · exact hinside (by simp [hnil])
    · have heq := hsep border hnil hpre' (List.suffix_append back border)
      have hlen := congrArg List.length heq
      rw [List.length_append] at hlen
      exact hback (List.length_eq_zero_iff.mp (by omega))

/-! ## Splitting -/

section Splitting

variable [DecidableEq α]

/-- Split a list, with the number of elements of a separator that are still to be
passed over and the part read so far. -/
def splitFrom (sep : List α) : Nat → List α → List α → List (List α)
  | _, part, [] => [part]
  | skip + 1, part, _ :: rest => splitFrom sep skip part rest
  | 0, part, x :: rest =>
      if sep <+: x :: rest then part :: splitFrom sep (sep.length - 1) [] rest
      else splitFrom sep 0 (part ++ [x]) rest

/-- Split a list at the non-overlapping occurrences of a separator. -/
def split (sep l : List α) : List (List α) := splitFrom sep 0 [] l

theorem splitFrom_ne_nil (sep : List α) (skip : Nat) (part l : List α) :
    splitFrom sep skip part l ≠ [] := by
  induction l generalizing skip part with
  | nil => simp [splitFrom]
  | cons x rest ih =>
      cases skip with
      | succ skip => exact ih skip part
      | zero =>
          rw [splitFrom]
          split
          · simp
          · exact ih 0 (part ++ [x])

theorem intercalate_splitFrom {sep : List α} (hsep : sep ≠ []) (skip : Nat) (part l : List α) :
    sep.intercalate (splitFrom sep skip part l) = part ++ l.drop skip := by
  induction l generalizing skip part with
  | nil => simp [splitFrom]
  | cons x rest ih =>
      cases skip with
      | succ skip => simpa [splitFrom] using ih skip part
      | zero =>
          rw [splitFrom]
          split
          · rename_i hpre
            rcases hpre with ⟨tail, htail⟩
            rw [intercalate_cons_of_ne_nil sep part (splitFrom_ne_nil sep _ _ _), ih]
            cases sep with
            | nil => exact absurd rfl hsep
            | cons y sep =>
                have hrest : sep ++ tail = rest := by simpa using (List.cons.inj htail).2
                have hhead : y = x := (List.cons.inj htail).1
                simp [← hrest, hhead]
          · simpa using ih 0 (part ++ [x])

/-- Joining the parts with the separator gives the list back. -/
theorem intercalate_split {sep : List α} (hsep : sep ≠ []) (l : List α) :
    sep.intercalate (split sep l) = l := by
  rw [split, intercalate_splitFrom hsep]
  rfl

theorem not_infix_of_mem_splitFrom {sep : List α} (hsep : sep ≠ []) {skip : Nat}
    {part l : List α} (hskip : 0 < skip → part = []) (hstart : NoStart sep part l) :
    ∀ p ∈ splitFrom sep skip part l, ¬ sep <:+: p := by
  induction l generalizing skip part with
  | nil =>
      intro p hp
      rw [splitFrom, List.mem_singleton] at hp
      exact hp ▸ hstart.absent hsep
  | cons x rest ih =>
      cases skip with
      | succ skip =>
          have hpart : part = [] := hskip (Nat.succ_pos skip)
          exact ih (fun _ => hpart) (hpart ▸ NoStart.nil sep rest)
      | zero =>
          rw [splitFrom]
          split
          · intro p hp
            rcases List.mem_cons.mp hp with rfl | hp
            · exact hstart.absent hsep
            · exact ih (fun _ => rfl) (NoStart.nil sep rest) p hp
          · rename_i hpre
            exact ih (fun h => absurd h (Nat.lt_irrefl 0)) (hstart.snoc hpre)

/-- No part holds the separator. -/
theorem not_infix_of_mem_split {sep l p : List α} (hsep : sep ≠ []) (hp : p ∈ split sep l) :
    ¬ sep <:+: p :=
  not_infix_of_mem_splitFrom hsep (fun _ => rfl) (NoStart.nil sep l) p hp

theorem splitFrom_skip (sep part front rest : List α) :
    splitFrom sep front.length part (front ++ rest) = splitFrom sep 0 part rest := by
  induction front with
  | nil => rfl
  | cons x front ih => exact ih

theorem splitFrom_sep {sep : List α} (hsep : sep ≠ []) (part rest : List α) :
    splitFrom sep 0 part (sep ++ rest) = part :: split sep rest := by
  cases sep with
  | nil => exact absurd rfl hsep
  | cons x sep =>
      have hpre : x :: sep <+: x :: (sep ++ rest) := ⟨rest, rfl⟩
      rw [List.cons_append, splitFrom, if_pos hpre]
      exact congrArg (part :: ·) (splitFrom_skip (x :: sep) [] sep rest)

theorem splitFrom_of_noStart {sep part l rest : List α} (h : NoStart sep l rest) :
    splitFrom sep 0 part (l ++ rest) = splitFrom sep 0 (part ++ l) rest := by
  induction l generalizing part with
  | nil => simp
  | cons x l ih =>
      have hpre : ¬ sep <+: x :: (l ++ rest) := h [] (x :: l) rfl (by simp)
      have htail : NoStart sep l rest := by
        intro front back hsplit hback
        exact h (x :: front) back (by rw [hsplit, List.cons_append]) hback
      rw [List.cons_append, splitFrom, if_neg hpre, ih htail, List.append_assoc,
        List.singleton_append]

/-- A list without the separator is its only part. -/
theorem split_of_absent {sep l : List α} (h : ¬ sep <:+: l) : split sep l = [l] := by
  have hfrom : splitFrom sep 0 [] (l ++ []) = splitFrom sep 0 ([] ++ l) [] :=
    splitFrom_of_noStart (noStart_of_absent h)
  rw [List.append_nil, List.nil_append, splitFrom] at hfrom
  exact hfrom

/-- An unbordered separator between two lists splits them apart exactly when neither
of them holds it. -/
theorem split_append_eq_pair_iff {sep : List α} (hsep : sep ≠ []) (hunbordered : Unbordered sep)
    (l r : List α) :
    split sep (l ++ sep ++ r) = [l, r] ↔ ¬ sep <:+: l ∧ ¬ sep <:+: r := by
  constructor
  · intro h
    exact ⟨not_infix_of_mem_split hsep (h ▸ List.mem_cons_self),
      not_infix_of_mem_split hsep (h ▸ List.mem_cons_of_mem l List.mem_cons_self)⟩
  · rintro ⟨hl, hr⟩
    rw [split, List.append_assoc,
      splitFrom_of_noStart (noStart_append_of_unbordered hunbordered hl), List.nil_append,
      splitFrom_sep hsep, split_of_absent hr]

/-- When there are exactly two parts, they are what stands before and after the
separator. -/
theorem eq_append_of_split_eq_pair {sep l front back : List α} (hsep : sep ≠ [])
    (h : split sep l = [front, back]) : l = front ++ sep ++ back := by
  have hjoin := intercalate_split hsep l
  rw [h] at hjoin
  simpa [List.intercalate] using hjoin.symm

/-- If a joined list splits into two parts, it splits where it was joined. -/
theorem eq_of_split_append_eq_pair {sep l r front back : List α} (hsep : sep ≠ [])
    (hunbordered : Unbordered sep) (h : split sep (l ++ sep ++ r) = [front, back]) :
    front = l := by
  have hfront : ¬ sep <:+: front := not_infix_of_mem_split hsep (h ▸ List.mem_cons_self)
  have hback : ¬ sep <:+: back :=
    not_infix_of_mem_split hsep (h ▸ List.mem_cons_of_mem front List.mem_cons_self)
  have hjoin := eq_append_of_split_eq_pair hsep h
  rw [List.append_assoc, List.append_assoc] at hjoin
  rcases List.append_eq_append_iff.mp hjoin with ⟨c, hc, hrest⟩ | ⟨c, hc, hrest⟩
  · rcases List.append_eq_append_iff.mp hrest with ⟨d, hd, -⟩ | ⟨d, hd, hd'⟩
    · exact absurd ⟨l, d, by rw [hc, hd, List.append_assoc]⟩ hfront
    · rcases hunbordered.eq_nil_or_eq hd hd' with rfl | rfl
      · exact absurd ⟨l, [], by rw [hc, hd]; simp⟩ hfront
      · have hnil : c = [] := by simpa using hd
        rw [hc, hnil, List.append_nil]
  · rcases List.append_eq_append_iff.mp hrest with ⟨d, hd, hd'⟩ | ⟨d, hd, hd'⟩
    · exact absurd ⟨d, r, by rw [hd', List.append_assoc]⟩ hback
    · rcases hunbordered.eq_nil_or_eq hd hd' with rfl | rfl
      · exact absurd ⟨[], r, by simpa using hd'⟩ hback
      · have hnil : c = [] := by simpa using hd
        rw [hc, hnil, List.append_nil]

end Splitting

/-! ## Splitting at an element -/

section Elements

variable [DecidableEq α] {a : α}

theorem notMem_of_mem_splitOn {l : List α} : ∀ part ∈ l.splitOn a, a ∉ part := by
  induction l with
  | nil => simp
  | cons x l ih =>
      intro part hpart
      rw [List.splitOn_cons_eq_if_modifyHead] at hpart
      cases hsplit : l.splitOn a with
      | nil => exact absurd hsplit (List.splitOn_ne_nil a l)
      | cons first rest =>
          rw [hsplit, List.forall_mem_cons] at ih
          rw [hsplit] at hpart
          by_cases hx : x = a
          · rw [if_pos (beq_iff_eq.mpr hx), List.mem_cons, List.mem_cons] at hpart
            rcases hpart with rfl | rfl | hrest
            · exact List.not_mem_nil
            · exact ih.1
            · exact ih.2 part hrest
          · rw [if_neg (fun h => hx (beq_iff_eq.mp h)), List.modifyHead_cons, List.mem_cons]
              at hpart
            rcases hpart with rfl | hrest
            · exact List.not_mem_cons_of_ne_of_not_mem (Ne.symm hx) ih.1
            · exact ih.2 part hrest

theorem splitOn_eq_pair_iff {l front back : List α} :
    l.splitOn a = [front, back] ↔ l = front ++ a :: back ∧ a ∉ front ∧ a ∉ back := by
  constructor
  · intro h
    have hparts : ∀ part ∈ [front, back], a ∉ part := h ▸ notMem_of_mem_splitOn
    refine ⟨?_, hparts front (by simp), hparts back (by simp)⟩
    have hjoin : [a].intercalate (l.splitOn a) = l := List.intercalate_splitOn a
    rw [h] at hjoin
    simpa [List.intercalate] using hjoin.symm
  · rintro ⟨rfl, hfront, hback⟩
    rw [List.splitOn_append_cons_self_of_not_mem hfront, List.splitOn_eq_singleton hback]

end Elements

end Collections
