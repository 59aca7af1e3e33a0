import NuLinkCore.Lib.Location
import NuLinkCore.Lib.Lowercase
import NuLinkCore.Lib.PosixPath
import NuLinkCore.Policy.Identity

/-!
# Looking up cards

Cards are saved into one directory under their identifiers, which are the nickname and the digits
of the card or only the digits.  To look a card up, the part of an identifier before its only
period is searched in all names of the directory, in lower case.

Main results:

- Theorem {lit}`Card.lookup_eq_ok_iff`: a lookup returns a path exactly if one name holds what is
  searched.
- Theorem {lit}`Card.found_iff`: when a card is found under its own identifier.
-/

namespace NuLink

open Locations Lowercase Paths

/-- The directory of the cards: the root of the configuration as a path, and where the directory
is. -/
structure CardDirectory where
  /-- {lit}`DEFAULT_CONFIG_ROOT`. -/
  configRoot : PosixPath
  location : Location
  proper : ∀ name ∈ location, IsPart name

/-- {lit}`CARD_DIR`. -/
def CardDirectory.path (directory : CardDirectory) : PosixPath :=
  directory.configRoot.join "cards".toList

/-- What {lit}`lookup` raises. -/
inductive LookupError where
  | unknownCard (nickname : List Char)
  /-- {lit}`Ambiguous card nickname: <nickname>. Try using card ID instead.` -/
  | ambiguous (nickname : List Char)
deriving DecidableEq, Repr

namespace Card

variable {K : Type} (codec : CardCodec K)

/-- The identifier that the file of a card is named after. -/
def identifier (card : Card K) : Except CardError String := do
  let id ← card.id codec
  let nickname ← card.nickname
  return (nickname.elim "" (· ++ ".")) ++ "0x" ++ String.ofList id

/-- Saving cards one after the other, without overwriting. -/
def saveAll : List (Card K) → Storage → Except CardError Storage
  | [], storage => .ok storage
  | card :: cards, storage => do
      let (_, storage) ← card.save codec storage false
      saveAll cards storage

end Card

/-- The name in a directory under which something is found on the way to a location. -/
def listedName (directory location : Location) : Option (List Char) :=
  if directory <+: location then (location.drop directory.length).head? else none

/-- {lit}`CARD_DIR.iterdir()`, by the names. -/
def CardDirectory.iterdir (directory : CardDirectory) (storage : Card.Storage) :
    List (List Char) :=
  (storage.files.keys.filterMap fun file =>
    listedName directory.location (resolve directory.location file.toList)).dedup

/-- The first part of an identifier that has two, and any other identifier. -/
def searched (identifier : List Char) : List Char :=
  match identifier.splitOn '.' with
  | [nickname, _] => nickname
  | _ => identifier

/-- {lit}`Card.lookup`. -/
def Card.lookup (tables : CaseTables) (directory : CardDirectory) (storage : Card.Storage)
    (identifier : List Char) (cardDir : Option PosixPath) : Except LookupError PosixPath :=
  let nickname := searched identifier
  let filenames := (directory.iterdir storage).filter fun name =>
    tables.lower nickname <:+: tables.lower name
  match filenames with
  | [] => .error (.unknownCard nickname)
  | [name] => .ok ((cardDir.getD directory.path).join (directory.path.join name).str)
  | _ => .error (.ambiguous nickname)

/-! ## Files that were saved -/

namespace Card

variable {K : Type} {codec : CardCodec K}

theorem filepath_eq (card : Card K) :
    card.filepath codec = (card.identifier codec).map (· ++ ".card") := by
  unfold filepath identifier
  cases card.id codec with
  | error e => rfl
  | ok id =>
      cases card.nickname with
      | error e => rfl
      | ok nickname => rfl

/-- A card that is saved is in the file that is named after it. -/
theorem save_eq {card : Card K} {storage storage' : Storage} {path : String}
    (h : card.save codec storage false = .ok (path, storage')) :
    card.filepath codec = .ok path ∧
      ∃ content, storage'.files = storage.files.set path content := by
  unfold save at h
  cases hpath : card.filepath codec with
  | error e =>
      rw [hpath] at h
      cases h
  | ok path' =>
      simp only [hpath, bind, Except.bind, pure, Except.pure] at h
      split_ifs at h
      cases hbytes : card.toBytes codec with
      | error e =>
          simp [hbytes] at h
      | ok cardBytes =>
          simp only [hbytes, Except.ok.injEq, Prod.mk.injEq] at h
          rcases h with ⟨rfl, rfl⟩
          exact ⟨rfl, _, rfl⟩

/-- The files of cards that were saved are those that were there and those of the cards. -/
theorem saveAll_eq {cards : List (Card K)} {storage storage' : Storage}
    (h : saveAll codec cards storage = .ok storage') :
    (∀ card ∈ cards, ∃ path, card.filepath codec = .ok path) ∧
      ∀ path, path ∈ storage'.files.keys ↔
        path ∈ storage.files.keys ∨ ∃ card ∈ cards, card.filepath codec = .ok path := by
  induction cards generalizing storage with
  | nil =>
      cases h
      exact ⟨List.forall_mem_nil _, fun path => by simp⟩
  | cons card cards ih =>
      rw [saveAll] at h
      cases hsave : card.save codec storage false with
      | error e =>
          rw [hsave] at h
          cases h
      | ok saved =>
          rw [hsave] at h
          rcases saved with ⟨path, saved⟩
          rcases save_eq hsave with ⟨hpath, content, hfiles⟩
          rcases ih h with ⟨hall, hkeys⟩
          refine ⟨List.forall_mem_cons.mpr ⟨⟨path, hpath⟩, hall⟩, fun other => ?_⟩
          have hfirst : card.filepath codec = .ok other ↔ other = path := by
            rw [hpath, Except.ok.injEq, eq_comm]
          rw [hkeys, hfiles, Collections.Dict.mem_keys_set, List.exists_mem_cons_iff, hfirst]
          tauto

end Card

/-! ## Names in the directory -/

/-- Following a path through parts stays among parts. -/
theorem isPart_of_mem_resolve {directory : Location} (h : ∀ name ∈ directory, IsPart name)
    (path : List Char) : ∀ name ∈ resolve directory path, IsPart name := by
  have hstart : ∀ name ∈ start directory path, IsPart name := by
    rw [start]
    split_ifs
    · exact List.forall_mem_nil _
    · exact h
  have hparts : ∀ part ∈ path.splitOn '/', '/' ∉ part :=
    Collections.notMem_of_mem_splitOn
  rw [resolve]
  generalize start directory path = location at hstart
  generalize path.splitOn '/' = parts at hparts
  induction parts generalizing location with
  | nil => exact hstart
  | cons part parts ih =>
      rw [List.forall_mem_cons] at hparts
      refine ih _ ?_ hparts.2
      rw [enter]
      split_ifs with hstay hup
      · exact hstart
      · exact fun name hname => hstart name (List.mem_of_mem_dropLast hname)
      · rw [not_or] at hstay
        refine List.forall_mem_append.mpr ⟨hstart, ?_⟩
        exact List.forall_mem_singleton.mpr ⟨hstay.1, hstay.2, hparts.1⟩

theorem CardDirectory.mem_iterdir {directory : CardDirectory} {storage : Card.Storage}
    {name : List Char} :
    name ∈ directory.iterdir storage ↔ ∃ file ∈ storage.files.keys,
      listedName directory.location (resolve directory.location file.toList) = some name := by
  rw [iterdir, List.mem_dedup, List.mem_filterMap]

theorem CardDirectory.isPart_of_mem_iterdir {directory : CardDirectory} {storage : Card.Storage}
    {name : List Char} (h : name ∈ directory.iterdir storage) : IsPart name := by
  rcases mem_iterdir.mp h with ⟨file, -, hname⟩
  rw [listedName] at hname
  split_ifs at hname
  exact isPart_of_mem_resolve directory.proper file.toList name
    (List.mem_of_mem_drop (List.mem_of_mem_head? hname))

/-- A file whose name has no slash is listed under its name. -/
theorem listedName_of_slash_notMem (directory : Location) {file : List Char} (h : '/' ∉ file)
    (hlength : 2 < file.length) : listedName directory (resolve directory file) = some file := by
  have hresolve : resolve directory file = directory ++ [file] := by
    have hsplit := resolve_append directory [] h hlength
    rw [folder_of_notMem directory List.not_mem_nil, base_of_notMem List.not_mem_nil] at hsplit
    exact hsplit
  rw [hresolve, listedName, if_pos (List.prefix_append _ _), List.drop_left]
  rfl

/-! ## What is searched for a card -/

/-- What is searched for an identifier with a nickname in front: the nickname if it has no
period. -/
def lookupText (nickname : Option String) (identifier : List Char) : List Char :=
  match nickname with
  | none => identifier
  | some text => if '.' ∈ text.toList then identifier else text.toList

/-- The digits of a card with what is written before them. -/
def cardDigits (id : List Char) : List Char := '0' :: 'x' :: id

def nicknamePart (nickname : Option String) : List Char :=
  nickname.elim [] fun text => text.toList ++ ['.']

theorem searched_identifier (nickname : Option String) {id : List Char} (h : '.' ∉ id) :
    searched (nicknamePart nickname ++ cardDigits id) =
      lookupText nickname (nicknamePart nickname ++ cardDigits id) := by
  have hdigits : (cardDigits id).splitOn '.' = [cardDigits id] := by
    refine List.splitOn_eq_singleton ?_
    simpa [cardDigits] using h
  cases nickname with
  | none =>
      simp only [searched, nicknamePart, Option.elim_none, List.nil_append, hdigits, lookupText]
  | some text =>
      have hsplit : (nicknamePart (some text) ++ cardDigits id).splitOn '.' =
          text.toList.splitOn '.' ++ [cardDigits id] := by
        rw [nicknamePart, Option.elim_some, List.append_assoc, List.singleton_append,
          List.splitOn_append_cons_self, hdigits]
      simp only [searched, hsplit, lookupText]
      by_cases hperiod : '.' ∈ text.toList
      · rcases List.append_of_mem hperiod with ⟨front, back, htext⟩
        rw [if_pos hperiod, htext, List.splitOn_append_cons_self]
        rcases List.exists_cons_of_ne_nil (List.splitOn_ne_nil '.' front) with ⟨a, as, hfront⟩
        rcases List.exists_cons_of_ne_nil (List.splitOn_ne_nil '.' back) with ⟨b, bs, hback⟩
        rw [hfront, hback]
        -- There are at least three parts.
        cases as with
        | nil => cases bs <;> rfl
        | cons a' as => cases as <;> rfl
      · rw [if_neg hperiod, List.splitOn_eq_singleton hperiod]
        rfl

/-- What the tables say about the characters of an identifier and of a path. -/
structure CardTables (tables : CaseTables) : Prop where
  cased_period : tables.cased '.' = false
  cased_zero : tables.cased '0' = false
  ignorable_zero : tables.ignorable '0' = false
  /-- Only a slash has a slash in lower case. -/
  slash : ∀ c, '/' ∈ tables.lowerChar c ↔ c = '/'

/-- The name of a card's file holds what is searched for the card. -/
theorem lower_lookupText {tables : CaseTables} (htables : CardTables tables)
    (nickname : Option String) {id : List Char} (h : 'Σ' ∉ id) :
    tables.lower (lookupText nickname (nicknamePart nickname ++ cardDigits id)) <:+:
      tables.lower (nicknamePart nickname ++ cardDigits id ++ ".card".toList) := by
  have hidentifier : tables.lower (nicknamePart nickname ++ cardDigits id) <:+:
      tables.lower (nicknamePart nickname ++ cardDigits id ++ ".card".toList) := by
    refine (CaseTables.lower_append ?_).isInfix
    rintro after ⟨front, hafter⟩
    refine CaseTables.meetsCased_append (.inr ⟨'0', ?_, htables.ignorable_zero⟩)
    have hsigma : 'Σ' ∉ cardDigits id := by
      simpa [cardDigits] using h
    rcases List.append_eq_append_iff.mp hafter with ⟨middle, hfront, hrest⟩ | ⟨middle, -, hrest⟩
    · cases middle with
      | nil =>
          rw [List.nil_append] at hrest
          exact absurd (hrest ▸ List.mem_cons_self) hsigma
      | cons c middle =>
          rw [(List.cons.inj hrest).2]
          exact List.mem_append_right _ List.mem_cons_self
    · exact absurd (hrest ▸ List.mem_append_right _ List.mem_cons_self) hsigma
  cases nickname with
  | none => exact hidentifier
  | some text =>
      rw [lookupText]
      by_cases hperiod : '.' ∈ text.toList
      · rw [if_pos hperiod]
        exact hidentifier
      · rw [if_neg hperiod, nicknamePart, Option.elim_some, List.append_assoc, List.append_assoc]
        refine (CaseTables.lower_append fun after _ => ?_).isInfix
        refine CaseTables.meetsCased_append (.inl ?_)
        rw [CaseTables.meetsCased, List.singleton_append, cardDigits, List.cons_append]
        cases hperiod : tables.ignorable '.' with
        | true =>
            rw [List.dropWhile_cons_of_pos hperiod,
              List.dropWhile_cons_of_neg (by simp [htables.ignorable_zero])]
            exact htables.cased_zero
        | false =>
            rw [List.dropWhile_cons_of_neg (by simp [hperiod])]
            exact htables.cased_period

/-! ## Cards that are found -/

namespace Card

variable {K : Type} {codec : CardCodec K}

/-- The digits of a card are hexadecimal. -/
theorem isDigit_of_mem_id {card : Card K} {id : List Char} (h : card.id codec = .ok id) :
    ∀ c ∈ id, Hex.isDigit c = true := by
  rw [Card.id] at h
  cases hpayload : card.payload codec with
  | error e =>
      rw [hpayload] at h
      cases h
  | ok payload =>
      rw [hpayload] at h
      cases h
      exact fun c hc => Hex.isDigit_of_mem_encode (List.mem_of_mem_take hc)

theorem exists_identifier {card : Card K} {filename : String}
    (h : card.filepath codec = .ok filename) :
    ∃ identifier, card.identifier codec = .ok identifier ∧ filename = identifier ++ ".card" := by
  rw [filepath_eq] at h
  cases hidentifier : card.identifier codec with
  | error e =>
      rw [hidentifier] at h
      cases h
  | ok identifier =>
      rw [hidentifier] at h
      cases h
      exact ⟨identifier, rfl, rfl⟩

theorem identifier_eq_ok {card : Card K} {identifier : String}
    (h : card.identifier codec = .ok identifier) :
    ∃ id nickname, card.id codec = .ok id ∧ card.nickname = .ok nickname ∧
      identifier.toList = nicknamePart nickname ++ cardDigits id := by
  unfold Card.identifier at h
  cases hid : card.id codec with
  | error e =>
      rw [hid] at h
      cases h
  | ok id =>
      cases hnickname : card.nickname with
      | error e =>
          rw [hid, hnickname] at h
          cases h
      | ok nickname =>
          rw [hid, hnickname] at h
          cases h
          refine ⟨id, nickname, rfl, rfl, ?_⟩
          cases nickname with
          | none => simp [nicknamePart, cardDigits]
          | some text => simp [nicknamePart, cardDigits]

variable (codec)

/-- Looking up its own identifier finds the file of a card. -/
def FoundByIdentifier (tables : CaseTables) (directory : CardDirectory) (storage : Storage)
    (card : Card K) : Prop :=
  ∃ identifier filename, card.identifier codec = .ok identifier ∧
    card.filepath codec = .ok filename ∧
    lookup tables directory storage identifier.toList none =
      .ok (directory.path.join filename.toList)

/-- The directory is found wherever the process runs, the nickname is the name of a file, and no
other name in the directory holds what is searched. -/
structure Findable (tables : CaseTables) (directory : CardDirectory) (cards : List (Card K))
    (card : Card K) : Prop where
  rooted : directory.configRoot.root ≠ .relative
  plain : ∀ text, card.nickname = .ok (some text) → '/' ∉ text.toList
  alone : ∀ nickname identifier, card.nickname = .ok nickname →
    card.identifier codec = .ok identifier →
    ∀ other ∈ cards, ∀ file, other.filepath codec = .ok file →
      ∀ name, listedName directory.location (resolve directory.location file.toList) = some name →
        name ≠ identifier.toList ++ ".card".toList →
          ¬ tables.lower (lookupText nickname identifier.toList) <:+: tables.lower name

end Card

/-- A list without repetitions is filtered to one element. -/
theorem filter_eq_singleton_iff {α : Type} {l : List α} (hnodup : l.Nodup) {p : α → Bool} {a : α} :
    l.filter p = [a] ↔ a ∈ l ∧ p a = true ∧ ∀ b ∈ l, p b = true → b = a := by
  constructor
  · intro h
    have hmem : ∀ b, b ∈ l ∧ p b = true ↔ b = a := by
      intro b
      rw [← List.mem_filter, h, List.mem_singleton]
    exact ⟨((hmem a).mpr rfl).1, ((hmem a).mpr rfl).2, fun b hb hp => (hmem b).mp ⟨hb, hp⟩⟩
  · rintro ⟨ha, hpa, hall⟩
    refine List.perm_singleton.mp ((List.perm_ext_iff_of_nodup (hnodup.filter p)
      (List.nodup_singleton a)).mpr fun b => ?_)
    rw [List.mem_filter, List.mem_singleton]
    exact ⟨fun h => hall b h.1 h.2, fun h => h ▸ ⟨ha, hpa⟩⟩

/-- A lookup returns a path exactly if one name holds what is searched. -/
theorem Card.lookup_eq_ok_iff {tables : CaseTables} {directory : CardDirectory}
    {storage : Card.Storage} {identifier : List Char} {path : PosixPath} :
    Card.lookup tables directory storage identifier none = .ok path ↔
      ∃ name ∈ directory.iterdir storage,
        tables.lower (searched identifier) <:+: tables.lower name ∧
        (∀ other ∈ directory.iterdir storage,
          tables.lower (searched identifier) <:+: tables.lower other → other = name) ∧
        path = directory.path.join (directory.path.join name).str := by
  have hnodup : (directory.iterdir storage).Nodup := List.nodup_dedup _
  have hsingle : ∀ name, (directory.iterdir storage).filter (fun name =>
      decide (tables.lower (searched identifier) <:+: tables.lower name)) = [name] ↔
        name ∈ directory.iterdir storage ∧
          tables.lower (searched identifier) <:+: tables.lower name ∧
          ∀ other ∈ directory.iterdir storage,
            tables.lower (searched identifier) <:+: tables.lower other → other = name := by
    intro name
    rw [filter_eq_singleton_iff hnodup]
    simp only [decide_eq_true_eq]
  constructor
  · intro h
    simp only [Card.lookup] at h
    cases hfiltered : (directory.iterdir storage).filter (fun name =>
        decide (tables.lower (searched identifier) <:+: tables.lower name)) with
    | nil =>
        rw [hfiltered] at h
        cases h
    | cons name names =>
        rw [hfiltered] at h
        cases names with
        | nil =>
            cases h
            rcases (hsingle name).mp hfiltered with ⟨hmem, hinfix, hall⟩
            exact ⟨name, hmem, hinfix, hall, rfl⟩
        | cons other names => cases h
  · rintro ⟨name, hmem, hinfix, hall, rfl⟩
    simp only [Card.lookup, (hsingle name).mpr ⟨hmem, hinfix, hall⟩, Option.getD_none]

theorem isPart_cards : IsPart "cards".toList := by
  constructor <;> decide

/-- The path that is returned for a name in the directory of the cards. -/
theorem CardDirectory.join_join {directory : CardDirectory} {name : List Char} (h : IsPart name)
    (hrooted : directory.configRoot.root ≠ .relative) :
    directory.path.join (directory.path.join name).str = directory.path.join name := by
  refine PosixPath.join_str_of_rooted _ ?_
  rw [(PosixPath.join_of_isPart directory.path h).1, path,
    (PosixPath.join_of_isPart directory.configRoot isPart_cards).1]
  exact hrooted

/-- The path that is returned is that of a file in the directory only if the directory is found
wherever the process runs. -/
theorem CardDirectory.join_join_iff {directory : CardDirectory} {name file : List Char}
    (hname : IsPart name) (hfile : IsPart file) :
    directory.path.join file = directory.path.join (directory.path.join name).str ↔
      directory.configRoot.root ≠ .relative ∧ name = file := by
  have hpath := PosixPath.join_of_isPart directory.configRoot isPart_cards
  have hjoin := fun {other : List Char} (h : IsPart other) =>
    PosixPath.join_of_isPart directory.path h
  constructor
  · intro h
    have hrooted : directory.configRoot.root ≠ .relative := by
      intro hrelative
      have hparts := congrArg (fun path => path.parts.length) h
      have hroot : (directory.path.join name).root = .relative :=
        (hjoin hname).1.trans (hpath.1.trans hrelative)
      have hlength : directory.path.parts.length = directory.configRoot.parts.length + 1 := by
        rw [path, hpath.2, List.length_append, List.length_singleton]
      simp only [PosixPath.parts_join_str_of_relative _ hroot, (hjoin hname).2, (hjoin hfile).2,
        List.length_append, List.length_singleton, hlength] at hparts
      omega
    refine ⟨hrooted, ?_⟩
    rw [join_join hname hrooted] at h
    have hparts := congrArg PosixPath.parts h
    rw [(hjoin hname).2, (hjoin hfile).2] at hparts
    exact (List.singleton_inj.mp (List.append_cancel_left hparts)).symm
  · rintro ⟨hrooted, rfl⟩
    exact (join_join hname hrooted).symm

theorem slash_mem_lookupText {text : String} (h : '/' ∈ text.toList) (id : List Char) :
    '/' ∈ lookupText (some text) (nicknamePart (some text) ++ cardDigits id) := by
  rw [lookupText]
  by_cases hperiod : '.' ∈ text.toList
  · rw [if_pos hperiod, nicknamePart, Option.elim_some]
    exact List.mem_append_left _ (List.mem_append_left _ h)
  · rw [if_neg hperiod]
    exact h

/-- The name of a file is a part of a path unless its nickname has a slash. -/
theorem isPart_cardName {nickname : Option String} (hplain : ∀ text ∈ nickname, '/' ∉ text.toList)
    {id : List Char} (h : '/' ∉ id) :
    IsPart (nicknamePart nickname ++ cardDigits id ++ ".card".toList) := by
  have hnickname : '/' ∉ nicknamePart nickname := by
    cases nickname with
    | none => exact List.not_mem_nil
    | some text => simpa [nicknamePart] using hplain text rfl
  refine ⟨?_, ?_, ?_⟩
  · simp
  · intro hdot
    have hlength := congrArg List.length hdot
    simp at hlength
    omega
  · simp [hnickname, cardDigits, h]

/-- When an identifier is looked up to the file that is named after it. -/
theorem lookup_own_iff {tables : CaseTables} (htables : CardTables tables)
    (directory : CardDirectory) {storage : Card.Storage} {nickname : Option String}
    {id : List Char} (hid : ∀ c ∈ id, Hex.isDigit c = true)
    (hsaved : ∃ file ∈ storage.files.keys,
      file.toList = nicknamePart nickname ++ cardDigits id ++ ".card".toList) :
    Card.lookup tables directory storage (nicknamePart nickname ++ cardDigits id) none =
        .ok (directory.path.join (nicknamePart nickname ++ cardDigits id ++ ".card".toList)) ↔
      directory.configRoot.root ≠ .relative ∧ (∀ text ∈ nickname, '/' ∉ text.toList) ∧
        ∀ name ∈ directory.iterdir storage,
          name ≠ nicknamePart nickname ++ cardDigits id ++ ".card".toList →
            ¬ tables.lower (lookupText nickname (nicknamePart nickname ++ cardDigits id)) <:+:
              tables.lower name := by
  have habsent : ∀ c, Hex.isDigit c = false → c ∉ id := by
    intro c hc hmem
    rw [hid c hmem] at hc
    cases hc
  have hsearched := searched_identifier nickname (habsent '.' (by decide))
  have hpart := fun hplain : ∀ text ∈ nickname, '/' ∉ text.toList =>
    isPart_cardName hplain (habsent '/' (by decide))
  have hlong : 2 < (nicknamePart nickname ++ cardDigits id ++ ".card".toList).length := by
    simp [cardDigits]
    omega
  have hinfix := lower_lookupText htables nickname (habsent 'Σ' (by decide))
  rw [Card.lookup_eq_ok_iff, hsearched]
  generalize nicknamePart nickname ++ cardDigits id ++ ".card".toList = name at *
  constructor
  · rintro ⟨found, hmem, hfound, hall, hpath⟩
    have hproper := CardDirectory.isPart_of_mem_iterdir hmem
    have hplain : ∀ text ∈ nickname, '/' ∉ text.toList := by
      intro text htext hslash
      rw [Option.mem_def.mp htext] at hfound
      have hlower := (CaseTables.mem_lower_iff (by decide) htables.slash _).mpr
        (slash_mem_lookupText hslash id)
      exact hproper.2.2
        ((CaseTables.mem_lower_iff (by decide) htables.slash _).mp (hfound.subset hlower))
    rcases (CardDirectory.join_join_iff hproper (hpart hplain)).mp hpath with ⟨hrooted, rfl⟩
    exact ⟨hrooted, hplain, fun other hother hne hin => hne (hall other hother hin)⟩
  · rintro ⟨hrooted, hplain, halone⟩
    rcases hsaved with ⟨file, hmem, rfl⟩
    refine ⟨file.toList, ?_, hinfix, ?_, ?_⟩
    · exact CardDirectory.mem_iterdir.mpr
        ⟨file, hmem, listedName_of_slash_notMem _ (hpart hplain).2.2 hlong⟩
    · intro other hother hin
      by_contra hne
      exact halone other hother hne hin
    · exact (CardDirectory.join_join_iff (hpart hplain) (hpart hplain)).mpr ⟨hrooted, rfl⟩

/-- A card among cards that were saved is found under its own identifier exactly if the directory
has a root, its nickname has no slash, and no other name in the directory holds what is
searched. -/
theorem Card.found_iff {K : Type} {codec : CardCodec K} {tables : CaseTables}
    (htables : CardTables tables) (directory : CardDirectory) {cards : List (Card K)}
    {empty storage : Card.Storage} (hempty : empty.files = Collections.Dict.empty)
    (hsaved : Card.saveAll codec cards empty = .ok storage) {card : Card K}
    (hcard : card ∈ cards) :
    card.FoundByIdentifier codec tables directory storage ↔
      card.Findable codec tables directory cards := by
  rcases Card.saveAll_eq hsaved with ⟨hfiles, hkeys⟩
  rcases hfiles card hcard with ⟨filename, hfilename⟩
  have hkeys' : ∀ file, file ∈ storage.files.keys ↔
      ∃ other ∈ cards, other.filepath codec = .ok file := by
    intro file
    rw [hkeys, hempty, Collections.Dict.keys_empty]
    simp
  rcases Card.exists_identifier hfilename with ⟨identifier, hidentifier, rfl⟩
  rcases Card.identifier_eq_ok hidentifier with ⟨id, nickname, hid, hnickname, htext⟩
  have hown : (identifier ++ ".card").toList =
      nicknamePart nickname ++ cardDigits id ++ ".card".toList := by
    rw [String.toList_append, htext]
  have hlookup := lookup_own_iff htables directory (Card.isDigit_of_mem_id hid)
    ⟨_, (hkeys' _).mpr ⟨card, hcard, hfilename⟩, hown⟩
  rw [← htext] at hlookup
  constructor
  · rintro ⟨identifier', filename', hidentifier', hfilename', hfound⟩
    cases hidentifier.symm.trans hidentifier'
    cases hfilename.symm.trans hfilename'
    rw [String.toList_append] at hfound
    rcases hlookup.mp hfound with ⟨hrooted, hplain, halone⟩
    refine ⟨hrooted, ?_, ?_⟩
    · intro text hsome
      rw [hnickname, Except.ok.injEq] at hsome
      exact hplain text hsome
    · intro nickname' identifier' hnickname' hidentifier' other hother file hfile name hname hne
      cases hnickname.symm.trans hnickname'
      cases hidentifier.symm.trans hidentifier'
      exact halone name (CardDirectory.mem_iterdir.mpr
        ⟨file, (hkeys' file).mpr ⟨other, hother, hfile⟩, hname⟩) hne
  · intro h
    refine ⟨identifier, _, hidentifier, hfilename, ?_⟩
    rw [String.toList_append]
    refine hlookup.mpr ⟨h.rooted, ?_, ?_⟩
    · intro text hsome
      exact h.plain text (by rw [hnickname, Option.mem_def.mp hsome])
    · intro name hname hne
      rcases CardDirectory.mem_iterdir.mp hname with ⟨file, hfile, hlisted⟩
      rcases (hkeys' file).mp hfile with ⟨other, hother, hpath⟩
      exact h.alone nickname identifier hnickname hidentifier other hother file hpath name hlisted
        hne

/-! ## Two cards under one nickname -/

/-- The tables of ASCII characters. -/
def asciiTables : CaseTables where
  lowerChar c := [c.toLower]
  cased c := c.isAlpha
  ignorable c := c = '.' || c = ':'

theorem asciiTables_lawful : CardTables asciiTables where
  cased_period := rfl
  cased_zero := rfl
  ignorable_zero := rfl
  slash := by
    intro c
    simp only [asciiTables, List.mem_singleton, Char.ext_iff]
    delta Char.toLower
    split_ifs with hupper
    · have hA : 'A'.val.toNat = 65 := rfl
      have hZ : 'Z'.val.toNat = 90 := rfl
      have hslash : '/'.val.toNat = 47 := rfl
      have hshift : ('a'.val - 'A'.val).toNat = 32 := rfl
      simp only [UInt32.le_iff_toNat_le, ge_iff_le, ← UInt32.toNat_inj, UInt32.toNat_add]
        at hupper ⊢
      omega
    · exact eq_comm

def sampleDirectory : CardDirectory where
  configRoot := PosixPath.ofString "/home"
  location := ["home".toList, "cards".toList]
  proper := by
    intro name hname
    rcases List.mem_pair.mp hname with rfl | rfl <;> constructor <;> decide

/-- Digests that tell keys apart. -/
def sampleDigests : CardCodec {bytes : Bytes // bytes.length = 33} :=
  { sampleCodec with blake2b := fun bytes => bytes.drop 8 }

/-- Cards of Bob under his name, with different keys. -/
def bobCard (n : UInt8) : Card {bytes : Bytes // bytes.length = 33} :=
  let key : {bytes : Bytes // bytes.length = 33} := ⟨List.replicate 33 n, List.length_replicate⟩
  ⟨.bob, key, some key, some ⟨utf8 "bob", by decide⟩⟩

def noCards : Card.Storage := ⟨Collections.Dict.empty, fun _ => true⟩

theorem found_iff_bob :
    ∃ storage, Card.saveAll sampleDigests [bobCard 3] noCards = .ok storage ∧
      ((bobCard 3).FoundByIdentifier sampleDigests asciiTables sampleDirectory storage ↔
        (bobCard 3).Findable sampleDigests asciiTables sampleDirectory [bobCard 3]) := by
  have hsaved : ∃ storage, Card.saveAll sampleDigests [bobCard 3] noCards = .ok storage :=
    ⟨_, rfl⟩
  rcases hsaved with ⟨storage, hsaved⟩
  exact ⟨storage, hsaved, Card.found_iff asciiTables_lawful sampleDirectory rfl hsaved
    List.mem_cons_self⟩

/-- Neither of two cards of Bob is found, although the digits tell them apart. -/
theorem identifier_ambiguous :
    ∃ storage, Card.saveAll sampleDigests [bobCard 3, bobCard 4] noCards = .ok storage ∧
      Card.lookup asciiTables sampleDirectory storage "bob.0x0303030303".toList none =
        .error (.ambiguous "bob".toList) ∧
      ¬ (bobCard 3).FoundByIdentifier sampleDigests asciiTables sampleDirectory storage := by
  have hambiguous : ∀ storage, Card.saveAll sampleDigests [bobCard 3, bobCard 4] noCards =
      .ok storage → Card.lookup asciiTables sampleDirectory storage "bob.0x0303030303".toList none =
        .error (.ambiguous "bob".toList) := by
    intro storage hsaved
    cases hsaved
    decide
  have hsaved : ∃ storage, Card.saveAll sampleDigests [bobCard 3, bobCard 4] noCards =
      .ok storage := ⟨_, rfl⟩
  have hown : (bobCard 3).identifier sampleDigests = .ok "bob.0x0303030303" := by decide
  rcases hsaved with ⟨storage, hsaved⟩
  refine ⟨storage, hsaved, hambiguous storage hsaved, ?_⟩
  rintro ⟨identifier, filename, hidentifier, -, hfound⟩
  cases hown.symm.trans hidentifier
  rw [hambiguous storage hsaved] at hfound
  cases hfound

end NuLink
