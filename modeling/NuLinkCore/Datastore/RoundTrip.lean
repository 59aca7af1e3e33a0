import NuLinkCore.Datastore.Query

/-!
# Keys under any id

{lit}`DatastoreKey.from_bytestring` cuts a key at every separator, also at those of the id, so
the key of an id with a separator has too many parts.  No query over the type of such a record
gets past its key.

Main results:

- Theorem {lit}`fromBytestring_storageKey_iff`: a key reads back exactly when its id has no
  separator.
- Theorem {lit}`Query.queryBy_malformed`: a stored id with a separator makes the queries over its
  type raise.
- Theorem {lit}`keys_roundTrip_iff`: when stored records are found again and queries answer.
-/

namespace NuLink

open Collections Numerals Scan

/-! ## Reading keys back -/

/-- The component of a key that a canonical id is read back as. -/
def RecordId.keyPart : RecordId → KeyPart
  | .int n => .int n
  | .str s _ => .str s

/-- The text of a canonical id reads back as that id. -/
theorem KeyPart.ofText_text (id : RecordId) : KeyPart.ofText id.text = id.keyPart := by
  cases id with
  | int n => simp [KeyPart.ofText, RecordId.text, RecordId.keyPart]
  | str s hs => simp [KeyPart.ofText, RecordId.text, RecordId.keyPart, hs]

/-- The canonical form of an id has a separator exactly when the given one has. -/
theorem GivenId.plain_iff {recordId : GivenId} :
    recordId.Plain ↔ ':' ∉ recordId.canonical.text.toList := by
  constructor
  · exact GivenId.Plain.text
  · intro h
    cases recordId with
    | int n => trivial
    | str s =>
        intro hcolon
        have hread : readInt s = none := readInt_eq_none_of_junk hcolon (by decide)
        apply h
        rw [GivenId.canonical, RecordId.ofText_of_not_readInt hread]
        exact hcolon

/-- An id with a separator leaves a key with too many parts. -/
theorem fromBytestring_of_colon {T f : String} {id : RecordId} (hT : ':' ∉ T.toList)
    (hf : ':' ∉ f.toList) (hid : ':' ∈ id.text.toList) :
    DatastoreKey.fromBytestring (storageKey T f id) = none := by
  rcases List.eq_append_cons_of_mem hid with ⟨front, back, hsplit, hfront⟩
  have hparts : (T ++ ":" ++ f ++ ":" ++ id.text).toList.splitOn ':' =
      T.toList :: f.toList :: front :: back.splitOn ':' := by
    simp only [String.toList_append, toList_colon, List.append_assoc, List.cons_append,
      List.nil_append, hsplit]
    rw [List.splitOn_append_cons_self_of_not_mem hT, List.splitOn_append_cons_self_of_not_mem hf,
      List.splitOn_append_cons_self_of_not_mem hfront]
  rw [DatastoreKey.fromBytestring, storageKey, decodeUtf8_utf8, Option.bind_some, hparts]
  cases hback : back.splitOn ':' with
  | nil => exact absurd hback (List.splitOn_ne_nil ':' back)
  | cons part rest =>
      cases rest with
      | nil => rfl
      | cons next rest => rfl

/-- A key reads back as type, field and id exactly when the id has no separator. -/
theorem fromBytestring_storageKey_iff {T f : String} {id : RecordId} (hT : ':' ∉ T.toList)
    (hf : ':' ∉ f.toList) :
    DatastoreKey.fromBytestring (storageKey T f id) =
        some ⟨some (.str T), some (.str f), some id.keyPart⟩ ↔ ':' ∉ id.text.toList := by
  constructor
  · intro h hid
    rw [fromBytestring_of_colon hT hf hid] at h
    cases h
  · intro hid
    have hread := fromBytestring_key (c := ⟨T, f, id⟩) ⟨hT, hf, hid⟩
    rw [KeyPart.ofText_text] at hread
    exact hread

/-! ## Databases with any ids -/

section AnyIds

variable {V Ty : Type} [DecidableEq Ty] {packing : Packing V Ty}

/-- The databases that uses of {lit}`describe` with any ids produce from a fresh one. -/
inductive WrittenAny (S : Schema packing) : Dict Bytes Bytes → Prop where
  | fresh : WrittenAny S Dict.empty
  | describe {db : Dict Bytes Bytes} (h : WrittenAny S db) (lmdb : Lmdb Ty) {T : RecordType V Ty}
      (hT : S.classes T.name = some T) (recordId : GivenId) (writeable : Bool)
      (body : Body V Ty) : WrittenAny S (describe packing lmdb T recordId writeable body db).2

variable {S : Schema packing} {db : Dict Bytes Bytes}

theorem Written.writtenAny (h : Written S db) : WrittenAny S db := by
  induction h with
  | fresh => exact .fresh
  | @describe db hdb lmdb T hT recordId hid writeable body ih =>
      exact .describe ih lmdb hT recordId writeable body

theorem WrittenAny.exists_represents (h : WrittenAny S db) : ∃ m, S.Represents db m := by
  induction h with
  | fresh => exact ⟨_, S.represents_empty⟩
  | @describe db hdb lmdb T hT recordId writeable body ih =>
      rcases ih with ⟨m, hm⟩
      exact describe_represents lmdb hT recordId writeable body hm

omit [DecidableEq Ty] in
/-- The names of a declared cell have no separator. -/
theorem Schema.no_colon_of_field {c : Cell} (h : (S.field c).isSome = true) :
    ':' ∉ c.recordType.toList ∧ ':' ∉ c.recordField.toList := by
  rcases Option.isSome_iff_exists.mp h with ⟨field, hfield⟩
  rcases Option.bind_eq_some_iff.mp hfield with ⟨T, hT, hattr⟩
  exact ⟨S.named _ T hT ▸ T.no_colon_name, RecordType.no_colon_field hattr⟩

/-- Every key is that of a declared cell. -/
theorem WrittenAny.exists_cell (h : WrittenAny S db) :
    ∀ k ∈ db.keys, ∃ c : Cell, (S.field c).isSome = true ∧ k = c.key := by
  induction h with
  | fresh =>
      intro k hk
      cases hk
  | @describe db hdb lmdb T hT recordId writeable body ih =>
      intro k hk
      rcases describe_adds lmdb T recordId writeable body db k hk with
        hold | ⟨attr, field, hfield, rfl⟩
      · exact ih k hold
      · refine ⟨⟨T.name, attr, recordId.canonical⟩, ?_, rfl⟩
        have hdeclared : T.field attr = some field := hfield
        rw [Schema.field_of_class hT, hdeclared]
        rfl

/-- A declared cell whose key is in the database. -/
def Stored (S : Schema packing) (db : Dict Bytes Bytes) (c : Cell) : Prop :=
  (S.field c).isSome = true ∧ c.key ∈ db.keys

/-- No stored record has an id with the separator. -/
def SeparatorFree (S : Schema packing) (db : Dict Bytes Bytes) : Prop :=
  ∀ c, Stored S db c → ':' ∉ c.recordId.text.toList

theorem WrittenAny.wellKeyed (h : WrittenAny S db) (hfree : SeparatorFree S db) :
    WellKeyed S db := by
  intro k hk
  rcases h.exists_cell k hk with ⟨c, hc, rfl⟩
  have hnames := Schema.no_colon_of_field hc
  exact ⟨c, ⟨hnames.1, hnames.2, hfree c ⟨hc, hk⟩⟩, hc, rfl⟩

theorem Written.separatorFree (h : Written S db) : SeparatorFree S db := by
  intro c hc
  rcases h.wellKeyed c.key hc.2 with ⟨c', hplain, -, hkey⟩
  have hnames := Schema.no_colon_of_field hc.1
  have hid := (storageKey_injective hnames.1 hplain.recordType hnames.2 hplain.recordField
    hkey).2.2
  rw [hid]
  exact hplain.recordId

/-! ## Queries that do not get past a key -/

section Malformed

variable {query : Query V Ty}

/-- A loop without a filter raises when it comes to a key with too many parts. -/
theorem Query.loop_malformed (hfield : ':' ∉ query.filterField.toList)
    (hfilter : query.filterFunc = none) {bad : Bytes}
    (hbad : DatastoreKey.fromBytestring bad = none) {keys : List Bytes}
    (hsorted : keys.Pairwise (fun a b => a ≤ b)) (hmem : bad ∈ keys)
    (hkeys : ∀ k ∈ keys, k ≤ bad → DatastoreKey.fromBytestring k = none ∨
      ∃ c : Cell, c.Plain ∧ query.Covers c ∧ k = c.key) (valid : List RecordId) :
    ∃ key, query.loop packing db valid keys = .error (.malformedKey key) := by
  induction keys generalizing valid with
  | nil => cases hmem
  | cons k rest ih =>
      rcases List.pairwise_cons.mp hsorted with ⟨hfirst, hrest⟩
      have hle : k ≤ bad := by
        rcases List.mem_cons.mp hmem with rfl | hlater
        · exact List.le_refl _
        · exact hfirst bad hlater
      have hgoesOn := fun (hlater : bad ∈ rest) =>
        ih hrest hlater (fun k hk => hkeys k (List.mem_cons_of_mem _ hk))
      rcases hkeys k List.mem_cons_self hle with hnone | ⟨c, hc, hcovers, rfl⟩
      · exact ⟨k, by rw [Query.loop, hnone]⟩
      · have hlater : bad ∈ rest := by
          rcases List.mem_cons.mp hmem with rfl | hlater
          · rw [NuLink.fromBytestring_key hc] at hbad
            cases hbad
          · exact hlater
        have hcompare := query.compareKey_key hfield hc
        rw [NuLink.fromBytestring_key hc, Option.bind_some, decide_eq_true hcovers] at hcompare
        rw [Query.loop, NuLink.fromBytestring_key hc]
        simp only [hcompare]
        have hselects : ∀ id, query.selects packing db id = .ok true := by
          intro id
          rw [Query.selects, hfilter]
        by_cases hadded : (KeyPart.ofText c.recordId.text).recordId ∈ valid
        · rw [if_pos hadded]
          exact hgoesOn hlater valid
        · rw [if_neg hadded, hselects]
          exact hgoesOn hlater _

/-- A stored id with a separator makes the query over its type raise. -/
theorem Query.queryBy_malformed (h : WrittenAny S db) {T : RecordType V Ty} {f : String}
    {id : RecordId} (hstored : Stored S db ⟨T.name, f, id⟩) (hid : ':' ∈ id.text.toList) :
    ∃ key, (Query.mk T none "").queryBy packing db = .error (.malformedKey key) := by
  have hfield : ':' ∉ (Query.mk T none "").filterField.toList := by simp
  have hnames := Schema.no_colon_of_field hstored.1
  have hbad : DatastoreKey.fromBytestring (Cell.key ⟨T.name, f, id⟩) = none :=
    fromBytestring_of_colon hnames.1 hnames.2 hid
  have hbegins : ∀ c : Cell, c.recordType = T.name → (Query.mk T none "").key <+: c.key := by
    intro c hc
    rw [Query.key_eq, c.key_eq, hc]
    exact ⟨utf8 c.recordField ++ 58 :: utf8 c.recordId.text, by simp [utf8]⟩
  have hstart : (Query.mk T none "").key ≤ Cell.key ⟨T.name, f, id⟩ := by
    rcases hbegins ⟨T.name, f, id⟩ rfl with ⟨rest, hrest⟩
    rw [← hrest]
    exact List.le_append_left
  -- every key up to the one with the separator belongs to the type
  have hkeys : ∀ k ∈ startAt (Query.mk T none "").key db.keys, k ≤ Cell.key ⟨T.name, f, id⟩ →
      DatastoreKey.fromBytestring k = none ∨
        ∃ c : Cell, c.Plain ∧ (Query.mk T none "").Covers c ∧ k = c.key := by
    intro k hk hle
    rcases mem_startAt.mp hk with ⟨hmem, hbegin⟩
    rcases h.exists_cell k hmem with ⟨c, hc, rfl⟩
    have hcell := Schema.no_colon_of_field hc
    have hbetween := prefix_of_between List.prefix_rfl (hbegins ⟨T.name, f, id⟩ rfl) hbegin hle
    have htype : c.recordType = T.name := by
      apply c.recordType_of_prefix hcell.1
      rw [Query.key_eq] at hbetween
      simpa [utf8] using hbetween
    by_cases hcolon : ':' ∈ c.recordId.text.toList
    · exact Or.inl (fromBytestring_of_colon hcell.1 hcell.2 hcolon)
    · exact Or.inr ⟨c, ⟨hcell.1, hcell.2, hcolon⟩, ⟨htype, Or.inl rfl⟩, rfl⟩
  have hmem : Cell.key ⟨T.name, f, id⟩ ∈ startAt (Query.mk T none "").key db.keys :=
    mem_startAt.mpr ⟨hstored.2, hstart⟩
  have hsorted := pairwise_startAt (Query.mk T none "").key db.keys
  unfold Query.queryBy
  cases hscan : startAt (Query.mk T none "").key db.keys with
  | nil =>
      rw [hscan] at hmem
      cases hmem
  | cons first rest =>
      rw [hscan] at hmem hsorted hkeys
      have hle : first ≤ Cell.key ⟨T.name, f, id⟩ := by
        rcases List.mem_cons.mp hmem with heq | hlater
        · rw [heq]
          exact List.le_refl _
        · exact (List.pairwise_cons.mp hsorted).1 _ hlater
      rcases hkeys first List.mem_cons_self hle with hnone | ⟨c, hc, hcovers, hkey⟩
      · exact ⟨first, by simp only [hnone, Option.bind_none]⟩
      · obtain ⟨key, hloop⟩ : ∃ key, (Query.mk T none "").loop packing db [] (first :: rest) =
            .error (.malformedKey key) :=
          Query.loop_malformed hfield rfl hbad hsorted hmem hkeys []
        rw [hkey] at hloop ⊢
        refine ⟨key, ?_⟩
        simp only [Query.compareKey_key hfield hc, decide_eq_true hcovers, hloop]

end Malformed

/-! ## What queries answer -/

/-- Every stored key reads back as the type, the field and the id that it was written for. -/
def ReadBack (S : Schema packing) (db : Dict Bytes Bytes) : Prop :=
  ∀ c, Stored S db c → DatastoreKey.fromBytestring c.key =
    some ⟨some (.str c.recordType), some (.str c.recordField), some c.recordId.keyPart⟩

/-- Every stored record is among those that the query over its type yields. -/
def FoundAgain (S : Schema packing) (db : Dict Bytes Bytes) : Prop :=
  ∀ T f id, S.classes T.name = some T → Stored S db ⟨T.name, f, id⟩ →
    ∃ ids, (Query.mk T none "").queryBy packing db = .ok ids ∧ id ∈ ids

/-- Every query over a type, or by a field of it, yields records or finds none. -/
def Answered (S : Schema packing) (db : Dict Bytes Bytes) : Prop :=
  ∀ query : Query V Ty, S.classes query.recordType.name = some query.recordType →
    ':' ∉ query.filterField.toList →
    (∃ ids, query.queryBy packing db = .ok ids) ∨
      query.queryBy packing db = .error (.recordNotFound query.key)

/-- The keys of a database round trip, so that its records are found again and no record makes
queries fail. -/
structure KeysRoundTrip (S : Schema packing) (db : Dict Bytes Bytes) : Prop where
  readBack : ReadBack S db
  foundAgain : FoundAgain S db
  answered : Answered S db

omit [DecidableEq Ty] in
/-- A stored cell belongs to a record class. -/
theorem Stored.exists_class {c : Cell} (h : Stored S db c) :
    ∃ T, S.classes T.name = some T ∧ T.name = c.recordType := by
  rcases Option.isSome_iff_exists.mp h.1 with ⟨field, hfield⟩
  rcases Option.bind_eq_some_iff.mp hfield with ⟨T, hT, -⟩
  have hname := S.named _ T hT
  exact ⟨T, by rw [hname, hT], hname⟩

/-- A stored id with a separator makes the query over the class of its record raise. -/
theorem Stored.exists_malformed (h : WrittenAny S db) {c : Cell} (hc : Stored S db c)
    (hcolon : ':' ∈ c.recordId.text.toList) :
    ∃ T key, S.classes T.name = some T ∧ T.name = c.recordType ∧
      (Query.mk T none "").queryBy packing db = .error (.malformedKey key) := by
  rcases hc.exists_class with ⟨T, hT, hname⟩
  rcases c with ⟨name, f, id⟩
  simp only at hname
  subst hname
  rcases Query.queryBy_malformed h hc hcolon with ⟨key, hraises⟩
  exact ⟨T, key, hT, rfl, hraises⟩

omit [DecidableEq Ty] in
theorem readBack_iff : ReadBack S db ↔ SeparatorFree S db := by
  constructor
  · intro h c hc
    have hnames := Schema.no_colon_of_field hc.1
    exact (fromBytestring_storageKey_iff hnames.1 hnames.2).mp (h c hc)
  · intro h c hc
    have hnames := Schema.no_colon_of_field hc.1
    exact (fromBytestring_storageKey_iff hnames.1 hnames.2).mpr (h c hc)

/-- The filters of a query do not raise. -/
theorem Query.exists_selects {m : RecordMap V} (hm : S.Represents db m) {query : Query V Ty}
    (hT : S.classes query.recordType.name = some query.recordType) (id : RecordId) :
    ∃ b, query.selects packing db id = .ok b := by
  rcases query with ⟨T, filterFunc, f⟩
  cases filterFunc with
  | none => exact ⟨true, rfl⟩
  | some p =>
      by_cases hf : f = ""
      · subst hf
        exact ⟨p (.record id (Record.read packing ⟨T, id, false⟩ db)), by simp [Query.selects]⟩
      · rcases selects_field (p := p) hm hT hf id with ⟨b, hb, -⟩
        exact ⟨b, hb⟩

theorem foundAgain_iff (h : WrittenAny S db) : FoundAgain S db ↔ SeparatorFree S db := by
  constructor
  · intro hfound c hc hcolon
    rcases hc.exists_malformed h hcolon with ⟨T, key, hT, hname, hraises⟩
    rcases hfound T c.recordField c.recordId hT (by rw [hname]; exact hc) with ⟨ids, hids, -⟩
    rw [hids] at hraises
    cases hraises
  · intro hfree T f id hT hc
    have hkeyed := h.wellKeyed hfree
    rcases h.exists_represents with ⟨m, hm⟩
    have hfield : ':' ∉ (Query.mk T none "").filterField.toList := by simp
    have hplain : Cell.Plain ⟨T.name, f, id⟩ :=
      ⟨T.no_colon_name, (Schema.no_colon_of_field hc.1).2, hfree _ hc⟩
    have hpassed : Cell.key ⟨T.name, f, id⟩ ∈ (Query.mk T none "").passed db := by
      rw [Query.mem_passed_of_type hkeyed hfield (Or.inl rfl) hplain]
      refine ⟨hc.2, ?_, rfl⟩
      rw [Query.key_eq, Cell.key_eq]
      exact List.append_left_le (List.cons_le_cons_iff.mpr (Or.inr ⟨rfl, List.nil_le _⟩))
    rcases Query.queryBy_spec hfield (fun id => Query.exists_selects hm hT id)
      hkeyed.exists_cell with ⟨ids, -, hids, hanswer⟩
    have hid : id ∈ ids := (hids id).mpr ⟨rfl, _, hplain, hpassed, rfl⟩
    rw [if_neg (List.ne_nil_of_mem hid)] at hanswer
    exact ⟨ids, hanswer, hid⟩

theorem answered_iff (h : WrittenAny S db) : Answered S db ↔ SeparatorFree S db := by
  constructor
  · intro hanswered c hc hcolon
    rcases hc.exists_malformed h hcolon with ⟨T, key, hT, -, hraises⟩
    rcases hanswered (Query.mk T none "") hT (by simp) with ⟨ids, hids⟩ | hnone
    · rw [hraises] at hids
      cases hids
    · rw [hraises] at hnone
      cases hnone
  · intro hfree query hT hfield
    rcases h.exists_represents with ⟨m, hm⟩
    rcases Query.queryBy_spec hfield (fun id => Query.exists_selects hm hT id)
      (h.wellKeyed hfree).exists_cell with ⟨ids, -, -, hanswer⟩
    by_cases hids : ids = []
    · rw [if_pos hids] at hanswer
      exact Or.inr hanswer
    · rw [if_neg hids] at hanswer
      exact Or.inl ⟨ids, hanswer⟩

/-- The key of an id reads back exactly when the id has no separator.  In every database, stored
records are found again and queries answer exactly when no stored id has one, and so they do
when no id that was given to {lit}`describe` had one. -/
theorem keys_roundTrip_iff (S : Schema packing) :
    (∀ T attr, ∀ recordId : GivenId, S.classes T.name = some T → (T.field attr).isSome = true →
      (DatastoreKey.fromBytestring (storageKey T.name attr recordId.canonical) =
          some ⟨some (.str T.name), some (.str attr), some recordId.canonical.keyPart⟩ ↔
        recordId.Plain)) ∧
    (∀ db, WrittenAny S db → (KeysRoundTrip S db ↔ SeparatorFree S db) ∧
      (FoundAgain S db ↔ SeparatorFree S db) ∧ (Answered S db ↔ SeparatorFree S db)) ∧
    ∀ db, Written S db → KeysRoundTrip S db := by
  have hiff : ∀ db, WrittenAny S db → (KeysRoundTrip S db ↔ SeparatorFree S db) := by
    intro db h
    constructor
    · intro hkeys
      exact readBack_iff.mp hkeys.readBack
    · intro hfree
      exact ⟨readBack_iff.mpr hfree, (foundAgain_iff h).mpr hfree, (answered_iff h).mpr hfree⟩
  refine ⟨?_, ?_, ?_⟩
  · intro T attr recordId hT hattr
    rcases Option.isSome_iff_exists.mp hattr with ⟨field, hfield⟩
    rw [fromBytestring_storageKey_iff T.no_colon_name (RecordType.no_colon_field hfield),
      GivenId.plain_iff]
  · intro db h
    exact ⟨hiff db h, foundAgain_iff h, answered_iff h⟩
  · intro db h
    exact (hiff db h.writtenAny).mpr h.separatorFree

end AnyIds

/-- With the id 7, the keys round trip. -/
theorem keys_roundTrip_obstructedDb : KeysRoundTrip testSchema obstructedDb :=
  (keys_roundTrip_iff testSchema).2.2 obstructedDb written_obstructedDb

/-- The database after the record {lit}`a:b` has been written. -/
def separatorDb : Dict Bytes Bytes :=
  (describe natPacking {} testRecord (.str "a:b") true (Body.sequence [.setattr "f" (some 5)])
    Dict.empty).2

/-- The key of the record {lit}`a:b` does not parse, and the query over its type raises. -/
theorem keys_not_roundTrip :
    WrittenAny testSchema separatorDb ∧
      Stored testSchema separatorDb ⟨"TestRecord", "f", (GivenId.str "a:b").canonical⟩ ∧
      DatastoreKey.fromBytestring
        (storageKey "TestRecord" "f" (GivenId.str "a:b").canonical) = none ∧
      (Query.mk testRecord none "").queryBy natPacking separatorDb =
        .error (.malformedKey (utf8 "TestRecord:f:a:b")) ∧
      ¬ KeysRoundTrip testSchema separatorDb := by
  have hwritten : WrittenAny testSchema separatorDb := .describe .fresh {} rfl (.str "a:b") true _
  have hquery : (Query.mk testRecord none "").queryBy natPacking separatorDb =
      .error (.malformedKey (utf8 "TestRecord:f:a:b")) := by rfl
  refine ⟨hwritten, ⟨by decide, by decide⟩, by decide, hquery, ?_⟩
  intro hkeys
  rcases hkeys.answered (Query.mk testRecord none "") rfl (by decide) with ⟨ids, hids⟩ | hnone
  · rw [hquery] at hids
    cases hids
  · rw [hquery, Except.error.injEq] at hnone
    cases hnone

end NuLink
