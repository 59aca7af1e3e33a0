import NuLinkCore.Crypto.Keystore

/-!
# Names of keystore files

The name of a keystore file is a creation time, a minus, an id and a suffix.  Parsing takes
every character of the suffix off the end of a name, and it tests the id only.

Main results:

- Theorem {lit}`validateKeystoreFilename_eq_ok_iff`: the names that are accepted.
- Theorem {lit}`keystore_name_parsed_iff`: when a name is parsed exactly.
-/

namespace NuLink

open Collections

/-! ## Forms of a name -/

/-- A decimal number of seconds. -/
structure IsEpoch (created : String) : Prop where
  ne_empty : created ≠ ""
  isDigit : ∀ c ∈ created.toList, c.isDigit = true

/-- A name as keystores are saved under. -/
structure IsKeystoreName (name created id : String) : Prop where
  name_eq : name = created ++ "-" ++ id ++ ".priv"
  created : IsEpoch created
  id : IsKeystoreId id

/-- A name with one minus and with an id, and with any characters of the suffix at its end. -/
structure IsLooseName (name created id : String) (tail : List Char) : Prop where
  name_eq : name.toList = created.toList ++ '-' :: id.toList ++ tail
  minus_not_mem : '-' ∉ created.toList
  id : IsKeystoreId id
  tail : ∀ c ∈ tail, c ∈ ['.', 'p', 'r', 'i', 'v']

theorem IsEpoch.minus_not_mem {created : String} (h : IsEpoch created) :
    '-' ∉ created.toList := by
  intro hmem
  exact absurd (h.isDigit _ hmem) (by decide)

theorem IsKeystoreName.isLooseName {name created id : String} (h : IsKeystoreName name created id) :
    IsLooseName name created id ".priv".toList where
  name_eq := by simp [h.name_eq, String.toList_append]
  minus_not_mem := h.created.minus_not_mem
  id := h.id
  tail := fun _ hc => hc

/-! ## Parsing -/

theorem rstrip_eq_iff {chars text front : List Char} :
    rstrip chars text = front ↔
      ∃ tail, text = front ++ tail ∧ (∀ c ∈ tail, c ∈ chars) ∧
        ∀ h : front ≠ [], front.getLast h ∉ chars := by
  constructor
  · rintro rfl
    refine ⟨text.rtakeWhile (· ∈ chars), List.rdropWhile_append_rtakeWhile.symm, ?_, ?_⟩
    · intro c hc
      simpa using List.mem_rtakeWhile_imp hc
    · intro h
      have hlast := List.rdropWhile_last_not (· ∈ chars) text h
      rwa [decide_eq_true_iff] at hlast
  · rintro ⟨tail, rfl, htail, hfront⟩
    exact rstrip_append htail hfront

/-- A name is accepted when it has one minus, an id after it, and characters of the suffix
after that. -/
theorem validateKeystoreFilename_eq_ok_iff {name created id : String} :
    validateKeystoreFilename name = .ok (created, id) ↔
      ∃ tail, IsLooseName name created id tail := by
  constructor
  · intro h
    simp only [validateKeystoreFilename] at h
    split at h
    · rename_i front back hsplit
      split_ifs at h with hid
      · rcases splitOn_eq_pair_iff.mp hsplit with ⟨hbase, hfront, -⟩
        rcases rstrip_eq_iff.mp hbase with ⟨tail, hname, htail, -⟩
        simp only [Except.ok.injEq, Prod.mk.injEq] at h
        rcases h with ⟨rfl, rfl⟩
        refine ⟨tail, ?_, ?_, ⟨?_, ?_⟩, htail⟩
        · simpa using hname
        · simpa using hfront
        · simpa using hid.1
        · simpa using hid.2
    · cases h
  · rintro ⟨tail, h⟩
    have hbase : rstrip ['.', 'p', 'r', 'i', 'v'] name.toList =
        created.toList ++ '-' :: id.toList :=
      rstrip_eq_iff.mpr ⟨tail, h.name_eq, h.tail, h.id.getLast_notMem created.toList⟩
    have hsplit : (created.toList ++ '-' :: id.toList).splitOn '-' =
        [created.toList, id.toList] :=
      splitOn_eq_pair_iff.mpr ⟨rfl, h.minus_not_mem, h.id.minus_not_mem⟩
    simp only [validateKeystoreFilename, hbase, hsplit, h.id.length, true_and,
      List.all_eq_true.mpr h.id.isDigit, if_true, String.ofList_toList]

theorem validateKeystoreFilename_error {name : String} {e : KeystoreError}
    (h : validateKeystoreFilename name = .error e) : e = .invalid := by
  simp only [validateKeystoreFilename] at h
  split at h
  · split_ifs at h
    cases h
    rfl
  · cases h
    rfl

theorem ofPath_of_file {directory : Directory} {name : String} {content : Bytes}
    (hfile : directory.get? name = some (.file content)) :
    Keystore.ofPath directory name =
      (validateKeystoreFilename name).map fun parts => ⟨name, parts.1, parts.2, none⟩ := by
  simp only [Keystore.ofPath, parsePath, hfile, bind, Except.bind, pure, Except.pure]
  cases validateKeystoreFilename name <;> rfl

theorem ofPath_eq_ok_iff {directory : Directory} {name : String} {content : Bytes}
    (hfile : directory.get? name = some (.file content)) {keystore : Keystore} :
    Keystore.ofPath directory name = .ok keystore ↔
      ∃ created id tail, IsLooseName name created id tail ∧
        keystore = ⟨name, created, id, none⟩ := by
  rw [ofPath_of_file hfile]
  cases hparts : validateKeystoreFilename name with
  | error e =>
      have hnone : ∀ created id tail, ¬ IsLooseName name created id tail := by
        intro created id tail h
        rw [validateKeystoreFilename_eq_ok_iff.mpr ⟨tail, h⟩] at hparts
        cases hparts
      simp [Except.map, hnone]
  | ok parts =>
      rcases parts with ⟨created, id⟩
      rcases validateKeystoreFilename_eq_ok_iff.mp hparts with ⟨tail, hloose⟩
      constructor
      · intro h
        cases h
        exact ⟨created, id, tail, hloose, rfl⟩
      · rintro ⟨created', id', tail', hloose', rfl⟩
        have hparts' := validateKeystoreFilename_eq_ok_iff.mpr ⟨tail', hloose'⟩
        rw [hparts] at hparts'
        cases hparts'
        rfl

/-! ## Exact parsing -/

/-- The keystore of a file is constructed for the names that keystores are saved under, with the
two parts of the name, and every other name is invalid. -/
def ParsedExactly (directory : Directory) (name : String) : Prop :=
  (∀ keystore, Keystore.ofPath directory name = .ok keystore ↔
    ∃ created id, IsKeystoreName name created id ∧ keystore = ⟨name, created, id, none⟩) ∧
  ∀ e, Keystore.ofPath directory name = .error e → e = .invalid

/-- The name of a file is parsed exactly when, if it has one minus, an id after it and characters
of the suffix after that, then it begins with a decimal number and ends in the suffix. -/
theorem keystore_name_parsed_iff {directory : Directory} {name : String} {content : Bytes}
    (hfile : directory.get? name = some (.file content)) :
    ParsedExactly directory name ↔
      ∀ created id tail, IsLooseName name created id tail →
        IsEpoch created ∧ tail = ".priv".toList := by
  constructor
  · rintro ⟨hok, -⟩ created id tail hloose
    have hconstructed := (ofPath_eq_ok_iff hfile).mpr ⟨created, id, tail, hloose, rfl⟩
    rcases (hok _).mp hconstructed with ⟨created', id', hname, heq⟩
    cases heq
    refine ⟨hname.created, List.append_cancel_left (hloose.name_eq.symm.trans ?_)⟩
    exact hname.isLooseName.name_eq
  · intro h
    constructor
    · intro keystore
      rw [ofPath_eq_ok_iff hfile]
      constructor
      · rintro ⟨created, id, tail, hloose, rfl⟩
        rcases h created id tail hloose with ⟨hcreated, rfl⟩
        refine ⟨created, id, ⟨?_, hcreated, hloose.id⟩, rfl⟩
        rw [← String.toList_inj, hloose.name_eq]
        simp [String.toList_append]
      · rintro ⟨created, id, hname, rfl⟩
        exact ⟨created, id, ".priv".toList, hname.isLooseName, rfl⟩
    · intro e he
      rw [ofPath_of_file hfile] at he
      cases hparts : validateKeystoreFilename name with
      | error e' =>
          rw [hparts] at he
          cases he
          exact validateKeystoreFilename_error hparts
      | ok parts =>
          rw [hparts] at he
          cases he

/-- The directory with one keystore file. -/
def sampleNamed (name : String) : Directory := Dict.empty.set name (.file [])

theorem sampleNamed_file (name : String) :
    (sampleNamed name).get? name = some (.file []) := by
  rw [sampleNamed, Dict.get?_set, if_pos rfl]

theorem keystore_name_parsed_iff_sample :
    ParsedExactly (sampleNamed "123-0123456789abcdef0123456789ABCDEF.priv")
        "123-0123456789abcdef0123456789ABCDEF.priv" ↔
      ∀ created id tail,
        IsLooseName "123-0123456789abcdef0123456789ABCDEF.priv" created id tail →
          IsEpoch created ∧ tail = ".priv".toList :=
  keystore_name_parsed_iff (sampleNamed_file _)

/-- A name without the suffix is accepted. -/
theorem missing_suffix_accepted :
    Keystore.ofPath (sampleNamed "123-0123456789abcdef0123456789abcdef")
        "123-0123456789abcdef0123456789abcdef" =
      .ok ⟨"123-0123456789abcdef0123456789abcdef", "123", "0123456789abcdef0123456789abcdef",
        none⟩ ∧
      ¬ ParsedExactly (sampleNamed "123-0123456789abcdef0123456789abcdef")
        "123-0123456789abcdef0123456789abcdef" := by
  have hok : Keystore.ofPath (sampleNamed "123-0123456789abcdef0123456789abcdef")
      "123-0123456789abcdef0123456789abcdef" =
        .ok ⟨"123-0123456789abcdef0123456789abcdef", "123", "0123456789abcdef0123456789abcdef",
          none⟩ := by
    decide
  refine ⟨hok, ?_⟩
  intro h
  rcases (h.1 _).mp hok with ⟨created, id, hname, heq⟩
  cases heq
  exact absurd hname.name_eq (by decide)

end NuLink
