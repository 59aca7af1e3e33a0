import NuLinkCore.Lib.Scan
import NuLinkCore.Datastore.Written

/-!
# Queries over the datastore

{lit}`Datastore.query_by` places a cursor at the text {lit}`Type:field` and walks over
the ordered keys until one does not match.  The text does not end with the separator, so
the keys of a field whose name extends the queried one by a character below the separator
come first and end the walk before it starts; and a field name that reads as an integer is
compared as that integer.

Main results:

- Theorem {lit}`Query.queryBy_spec`: the records that a query yields are those whose keys
  the cursor passes and that the filter selects.
- Theorem {lit}`queryBy_exact_iff`: queries over a whole type are exact; queries by a field
  are exact unless one of the two slips hits a nonempty answer.
-/

namespace NuLink

open Collections Numerals Scan

/-! ## Datastore keys -/

/-- A component of a key: the last one becomes an integer when it reads as one. -/
inductive KeyPart where
  | int (n : Int)
  | str (s : String)
deriving DecidableEq, Repr

namespace KeyPart

/-- {lit}`int(part)`, with {lit}`ValueError` suppressed. -/
def ofText (s : String) : KeyPart :=
  match readInt s with
  | some n => .int n
  | none => .str s

/-- Whether Python takes the component for true. -/
def truthy : KeyPart → Bool
  | .int n => n ≠ 0
  | .str s => s ≠ ""

/-- The record id that a component stands for. -/
def recordId : KeyPart → RecordId
  | .int n => .int n
  | .str s => .ofText s

end KeyPart

/-- {lit}`DatastoreKey`. -/
structure DatastoreKey where
  recordType : Option KeyPart := none
  recordField : Option KeyPart := none
  recordId : Option KeyPart := none
deriving DecidableEq, Repr

namespace DatastoreKey

/-- The parts of a key, the last one converted. -/
def keyParts : List (List Char) → List KeyPart
  | [] => []
  | [part] => [.ofText (String.ofList part)]
  | part :: rest => .str (String.ofList part) :: keyParts rest

/-- {lit}`DatastoreKey(*key_parts)`; more than three parts are a {lit}`TypeError`. -/
def ofParts : List KeyPart → Option DatastoreKey
  | [t] => some ⟨some t, none, none⟩
  | [t, f] => some ⟨some t, some f, none⟩
  | [t, f, i] => some ⟨some t, some f, some i⟩
  | _ => none

/-- {lit}`DatastoreKey.from_bytestring`; {lit}`none` where it raises. -/
def fromBytestring (keyBytestring : Bytes) : Option DatastoreKey :=
  (decodeUtf8 keyBytestring).bind fun text => ofParts (keyParts (text.toList.splitOn ':'))

/-- Python's {lit}`a or b` on optional components. -/
def pyOr (a b : Option KeyPart) : Option KeyPart :=
  match a with
  | some part => if part.truthy then a else b
  | none => b

/-- {lit}`compare_key`; {lit}`none` where the other key does not parse. -/
def compareKey (key : DatastoreKey) (keyBytestring : Bytes) : Option Bool :=
  (fromBytestring keyBytestring).map fun otherKey =>
    key.recordType = pyOr otherKey.recordType key.recordType &&
    key.recordField = pyOr otherKey.recordField key.recordField &&
    key.recordId = pyOr otherKey.recordId key.recordId

end DatastoreKey

/-! ## Queries -/

/-- What a filter function receives: a decoded field, or a readonly record. -/
inductive FilterArg (V Ty : Type) where
  | field (value : V)
  | record (recordId : RecordId) (read : String → Except (Exc Ty) V)

/-- The parameters of {lit}`query_by`. -/
structure Query (V Ty : Type) where
  recordType : RecordType V Ty
  filterFunc : Option (FilterArg V Ty → Bool) := none
  filterField : String := ""

/-- How {lit}`query_by` fails before it yields. -/
inductive QueryError (Ty : Type) where
  | recordNotFound (queryKey : Bytes)
  | propagated (e : Exc Ty)
  /-- A key that no record has written. -/
  | malformedKey (key : Bytes)
deriving DecidableEq

section Model

variable {V Ty : Type} [DecidableEq Ty] (packing : Packing V Ty)

/-- Reads an attribute of a record while lmdb serves every call. -/
def Record.read (record : Record V Ty) (db : Dict Bytes Bytes) (attr : String) :
    Except (Exc Ty) V :=
  ((record.getattr packing {} attr).on ⟨db, 0, false⟩).1

namespace Query

variable (db : Dict Bytes Bytes) (query : Query V Ty)

/-- {lit}`query_key`. -/
def key : Bytes := utf8 (query.recordType.name ++ ":" ++ query.filterField)

/-- The filters of the loop body: whether the record under an id is added. -/
def selects (recordId : RecordId) : Except (Exc Ty) Bool :=
  let record : Record V Ty := ⟨query.recordType, recordId, false⟩
  match query.filterFunc with
  | none => .ok true
  | some filterFunc =>
      if query.filterField ≠ "" then
        match record.read packing db query.filterField with
        | .ok field => .ok (filterFunc (.field field))
        | .error e =>
            if e.cls = .typeError ∨ e.cls = .attributeError then .ok false else .error e
      else .ok (filterFunc (.record recordId (record.read packing db)))

/-- The loop over the keys from the cursor on.  {lit}`valid` are the ids of the records added
so far, which a set of records tells apart by their ids alone. -/
def loop (valid : List RecordId) : List Bytes → Except (QueryError Ty) (List RecordId)
  | [] => .ok valid
  | dbKey :: rest =>
      match DatastoreKey.fromBytestring dbKey with
      | none => .error (.malformedKey dbKey)
      | some currKey =>
          match currKey.compareKey query.key, currKey.recordId with
          | some false, _ => .ok valid
          | some true, some part =>
              if part.recordId ∈ valid then loop valid rest
              else
                match query.selects packing db part.recordId with
                | .error e => .error (.propagated e)
                | .ok true => loop (valid ++ [part.recordId]) rest
                | .ok false => loop valid rest
          | _, _ => .error (.malformedKey dbKey)

/-- {lit}`Datastore.query_by` up to the {lit}`yield`: the ids of the records yielded. -/
def queryBy : Except (QueryError Ty) (List RecordId) :=
  match startAt query.key db.keys with
  | [] => .error (.recordNotFound query.key)
  | first :: rest =>
      match (DatastoreKey.fromBytestring first).bind (fun k => k.compareKey query.key) with
      | none => .error (.malformedKey first)
      | some false => .error (.recordNotFound query.key)
      | some true =>
          match query.loop packing db [] (first :: rest) with
          | .error e => .error e
          | .ok [] => .error (.recordNotFound query.key)
          | .ok validRecords => .ok validRecords

end Query

end Model

/-! ## Keys and the query key -/

@[simp]
theorem KeyPart.recordId_ofText (s : String) : (KeyPart.ofText s).recordId = RecordId.ofText s := by
  unfold KeyPart.ofText
  split
  · next n hn => rw [RecordId.ofText_of_readInt hn, KeyPart.recordId]
  · rfl

theorem toList_colon : (":" : String).toList = [':'] :=
  rfl

/-- The key of a stored field, parsed. -/
theorem fromBytestring_key {c : Cell} (hc : c.Plain) :
    DatastoreKey.fromBytestring c.key =
      some ⟨some (.str c.recordType), some (.str c.recordField),
        some (.ofText c.recordId.text)⟩ := by
  have hsplit : (c.recordType ++ ":" ++ c.recordField ++ ":" ++ c.recordId.text).toList.splitOn
      ':' = [c.recordType.toList, c.recordField.toList, c.recordId.text.toList] := by
    simp only [String.toList_append, toList_colon, List.append_assoc, List.cons_append,
      List.nil_append]
    rw [List.splitOn_append_cons_self_of_not_mem hc.recordType,
      List.splitOn_append_cons_self_of_not_mem hc.recordField,
      List.splitOn_eq_singleton hc.recordId]
  rw [DatastoreKey.fromBytestring, Cell.key, storageKey, decodeUtf8_utf8, Option.bind_some, hsplit]
  simp [DatastoreKey.keyParts, DatastoreKey.ofParts]

section QueryKey

variable {V Ty : Type} {query : Query V Ty}

/-- The query key, parsed: its last part is the field, and there is no id. -/
theorem Query.fromBytestring_key (hfield : ':' ∉ query.filterField.toList) :
    DatastoreKey.fromBytestring query.key =
      some ⟨some (.str query.recordType.name), some (.ofText query.filterField), none⟩ := by
  have hsplit : (query.recordType.name ++ ":" ++ query.filterField).toList.splitOn ':' =
      [query.recordType.name.toList, query.filterField.toList] := by
    simp only [String.toList_append, toList_colon, List.append_assoc, List.singleton_append]
    rw [List.splitOn_append_cons_self_of_not_mem query.recordType.no_colon_name,
      List.splitOn_eq_singleton hfield]
  rw [DatastoreKey.fromBytestring, Query.key, decodeUtf8_utf8, Option.bind_some, hsplit]
  simp [DatastoreKey.keyParts, DatastoreKey.ofParts]

/-- The cells whose keys match the query: a field that reads as zero matches every field, one
that reads as another integer matches none. -/
def Query.Covers (query : Query V Ty) (c : Cell) : Prop :=
  c.recordType = query.recordType.name ∧
    (query.filterField = "" ∨ readInt query.filterField = some 0 ∨
      readInt query.filterField = none ∧ c.recordField = query.filterField)

instance (query : Query V Ty) (c : Cell) : Decidable (query.Covers c) :=
  inferInstanceAs (Decidable (_ ∧ _))

/-- Whether a key of the database matches the query. -/
def Query.matchesKey (query : Query V Ty) (dbKey : Bytes) : Bool :=
  (DatastoreKey.fromBytestring dbKey).bind (fun k => k.compareKey query.key) = some true

theorem readInt_empty : readInt "" = none := by
  decide

/-- The comparison of the field of a stored key with the queried one. -/
theorem pyOr_field (f g : String) :
    some (.str g) = DatastoreKey.pyOr (some (.ofText f)) (some (.str g)) ↔
      f = "" ∨ readInt f = some 0 ∨ readInt f = none ∧ g = f := by
  cases hread : readInt f with
  | none =>
      have hpart : KeyPart.ofText f = .str f := by simp [KeyPart.ofText, hread]
      rw [hpart]
      by_cases hf : f = ""
      · simp [DatastoreKey.pyOr, KeyPart.truthy, hf]
      · simp [DatastoreKey.pyOr, KeyPart.truthy, hf]
  | some n =>
      have hf : f ≠ "" := by
        rintro rfl
        rw [readInt_empty] at hread
        cases hread
      have hpart : KeyPart.ofText f = .int n := by simp [KeyPart.ofText, hread]
      rw [hpart]
      by_cases hn : n = 0
      · simp [DatastoreKey.pyOr, KeyPart.truthy, hn]
      · simp [DatastoreKey.pyOr, KeyPart.truthy, hn, hf]

/-- Comparing a stored key with the query key decides whether its cell is covered. -/
theorem Query.compareKey_key (hfield : ':' ∉ query.filterField.toList) {c : Cell} (hc : c.Plain) :
    (DatastoreKey.fromBytestring c.key).bind (fun k => k.compareKey query.key) =
      some (decide (query.Covers c)) := by
  rw [NuLink.fromBytestring_key hc, Option.bind_some, DatastoreKey.compareKey,
    query.fromBytestring_key hfield, Option.map_some]
  have htype : DatastoreKey.pyOr (some (.str query.recordType.name)) (some (.str c.recordType)) =
      some (.str query.recordType.name) := by
    simp [DatastoreKey.pyOr, KeyPart.truthy, query.recordType.name_ne]
  have hid : DatastoreKey.pyOr none (some (KeyPart.ofText c.recordId.text)) =
      some (KeyPart.ofText c.recordId.text) := rfl
  simp only [htype, hid, Option.some.injEq, KeyPart.str.injEq, pyOr_field, decide_true,
    Bool.and_true]
  exact (Bool.decide_and _ _).symm

theorem Query.matchesKey_key (hfield : ':' ∉ query.filterField.toList) {c : Cell} (hc : c.Plain) :
    query.matchesKey c.key = true ↔ query.Covers c := by
  rw [Query.matchesKey, query.compareKey_key hfield hc]
  simp

end QueryKey

/-! ## What a query yields -/

section Loop

variable {V Ty : Type} [DecidableEq Ty] {packing : Packing V Ty} {db : Dict Bytes Bytes}
  {query : Query V Ty}

/-- A key in front of others contributes the id of its own cell. -/
theorem exists_cell_cons_iff {c : Cell} (hc : c.Plain) {keys : List Bytes} {id : RecordId} :
    (∃ c' : Cell, c'.Plain ∧ c'.key ∈ c.key :: keys ∧ c'.recordId = id) ↔
      id = c.recordId ∨ ∃ c' : Cell, c'.Plain ∧ c'.key ∈ keys ∧ c'.recordId = id := by
  constructor
  · rintro ⟨c', hc', hmem, rfl⟩
    rcases List.mem_cons.mp hmem with hkey | hmem
    · left
      exact (storageKey_injective hc'.recordType hc.recordType hc'.recordField
        hc.recordField hkey).2.2
    · exact Or.inr ⟨c', hc', hmem, rfl⟩
  · rintro (rfl | ⟨c', hc', hmem, rfl⟩)
    · exact ⟨c, hc, List.mem_cons_self, rfl⟩
    · exact ⟨c', hc', List.mem_cons_of_mem _ hmem, rfl⟩

/-- The loop adds the selected ids of the keys up to the first one that does not match, each
of them once. -/
theorem Query.loop_spec (hfield : ':' ∉ query.filterField.toList)
    (hselects : ∀ id, ∃ b, query.selects packing db id = .ok b) {keys : List Bytes}
    (hkeys : ∀ k ∈ keys, ∃ c : Cell, c.Plain ∧ k = c.key) {valid : List RecordId}
    (hvalid : valid.Nodup) :
    ∃ ids, query.loop packing db valid keys = .ok ids ∧ ids.Nodup ∧
      ∀ id, id ∈ ids ↔ id ∈ valid ∨ (query.selects packing db id = .ok true ∧
        ∃ c : Cell, c.Plain ∧ c.key ∈ keys.takeWhile query.matchesKey ∧ c.recordId = id) := by
  induction keys generalizing valid with
  | nil => exact ⟨valid, rfl, hvalid, by simp⟩
  | cons k rest ih =>
      rcases hkeys k List.mem_cons_self with ⟨c, hc, rfl⟩
      have hrest : ∀ k ∈ rest, ∃ c : Cell, c.Plain ∧ k = c.key :=
        fun k hk => hkeys k (List.mem_cons_of_mem _ hk)
      have hcompare := query.compareKey_key hfield hc
      have hmatches := query.matchesKey_key hfield hc
      rw [NuLink.fromBytestring_key hc, Option.bind_some] at hcompare
      rw [Query.loop, NuLink.fromBytestring_key hc]
      by_cases hcovers : query.Covers c
      · have htake : (c.key :: rest).takeWhile query.matchesKey =
            c.key :: rest.takeWhile query.matchesKey :=
          List.takeWhile_cons_of_pos (hmatches.mpr hcovers)
        rw [decide_eq_true hcovers] at hcompare
        simp only [hcompare, KeyPart.recordId_ofText, RecordId.ofText_text]
        rw [htake]
        -- Whether the id of the cell is new or not, the loop goes on with it if it is selected.
        have hgoesOn : ∀ valid' : List RecordId, valid'.Nodup →
            (∀ id, id ∈ valid' ↔ id ∈ valid ∨
              (query.selects packing db id = .ok true ∧ id = c.recordId)) →
            ∃ ids, query.loop packing db valid' rest = .ok ids ∧ ids.Nodup ∧
              ∀ id, id ∈ ids ↔ id ∈ valid ∨ (query.selects packing db id = .ok true ∧
                ∃ c' : Cell, c'.Plain ∧ c'.key ∈ c.key :: rest.takeWhile query.matchesKey ∧
                  c'.recordId = id) := by
          intro valid' hvalid' hmem'
          rcases ih hrest hvalid' with ⟨ids, hloop, hnodup, hmem⟩
          refine ⟨ids, hloop, hnodup, ?_⟩
          intro id
          rw [hmem id, hmem' id, exists_cell_cons_iff hc, or_assoc, ← and_or_left]
        by_cases hadded : c.recordId ∈ valid
        · rw [if_pos hadded]
          apply hgoesOn valid hvalid
          intro id
          rw [iff_self_or]
          rintro ⟨-, rfl⟩
          exact hadded
        · rw [if_neg hadded]
          rcases hselects c.recordId with ⟨b, hsel⟩
          rw [hsel]
          cases b with
          | true =>
              have hvalid' : (valid ++ [c.recordId]).Nodup := by
                rw [List.nodup_append]
                refine ⟨hvalid, by simp, ?_⟩
                rintro a ha b hb rfl
                exact hadded (List.mem_singleton.mp hb ▸ ha)
              apply hgoesOn _ hvalid'
              intro id
              rw [List.mem_append, List.mem_singleton]
              apply or_congr_right
              rw [iff_and_self]
              rintro rfl
              exact hsel
          | false =>
              apply hgoesOn valid hvalid
              intro id
              rw [iff_self_or]
              rintro ⟨hsel', rfl⟩
              rw [hsel] at hsel'
              cases hsel'
      · have htake : (c.key :: rest).takeWhile query.matchesKey = [] :=
          List.takeWhile_cons_of_neg (fun h => hcovers (hmatches.mp h))
        rw [decide_eq_false hcovers] at hcompare
        simp only [hcompare]
        exact ⟨valid, rfl, hvalid, by simp [htake]⟩

/-- The keys that the cursor passes. -/
def Query.passed (query : Query V Ty) (db : Dict Bytes Bytes) : List Bytes :=
  (startAt query.key db.keys).takeWhile query.matchesKey

/-- A query yields the selected ids of the keys it passes, or finds no record if there is none. -/
theorem Query.queryBy_spec (hfield : ':' ∉ query.filterField.toList)
    (hselects : ∀ id, ∃ b, query.selects packing db id = .ok b)
    (hkeys : ∀ k ∈ db.keys, ∃ c : Cell, c.Plain ∧ k = c.key) :
    ∃ ids : List RecordId, ids.Nodup ∧
      (∀ id, id ∈ ids ↔ query.selects packing db id = .ok true ∧
        ∃ c : Cell, c.Plain ∧ c.key ∈ query.passed db ∧ c.recordId = id) ∧
      query.queryBy packing db =
        if ids = [] then .error (.recordNotFound query.key) else .ok ids := by
  unfold Query.queryBy Query.passed
  cases hstart : startAt query.key db.keys with
  | nil => exact ⟨[], List.nodup_nil, by simp, by simp⟩
  | cons first rest =>
      have hall : ∀ k ∈ first :: rest, ∃ c : Cell, c.Plain ∧ k = c.key := by
        intro k hk
        rw [← hstart] at hk
        exact hkeys k (mem_startAt.mp hk).1
      rcases hall first List.mem_cons_self with ⟨c, hc, rfl⟩
      have hmatches := query.matchesKey_key hfield hc
      simp only [query.compareKey_key hfield hc]
      by_cases hcovers : query.Covers c
      · rw [decide_eq_true hcovers]
        rcases query.loop_spec hfield hselects hall List.nodup_nil with ⟨ids, hloop, hnodup, hmem⟩
        refine ⟨ids, hnodup, fun id => by simp [hmem id], ?_⟩
        simp only [hloop]
        cases ids with
        | nil => rfl
        | cons id ids => rfl
      · rw [decide_eq_false hcovers,
          List.takeWhile_cons_of_neg (fun h => hcovers (hmatches.mp h))]
        exact ⟨[], List.nodup_nil, by simp, by simp⟩

end Loop

/-! ## Exactness -/

section Reading

variable {V Ty : Type} [DecidableEq Ty] {packing : Packing V Ty} {S : Schema packing}
  {db : Dict Bytes Bytes} {m : RecordMap V} {record : Record V Ty} {attr : String}

/-- An attribute with a leading underscore is private. -/
theorem Record.read_private (h : attr.toList.head? = some '_') :
    record.read packing db attr = .error (.privateAttribute attr) := by
  rw [Record.read, Record.getattr, if_pos h]
  rfl

/-- Reading a public attribute whose cell has a value returns the value. -/
theorem Record.read_of_value (hm : S.Represents db m)
    (hT : S.classes record.recordType.name = some record.recordType)
    (hpublic : attr.toList.head? ≠ some '_') {value : V}
    (hvalue : m ⟨record.recordType.name, attr, record.recordId⟩ = some value) :
    record.read packing db attr = .ok value := by
  have hcell := hm ⟨record.recordType.name, attr, record.recordId⟩
  rw [Schema.field_of_class hT, hvalue] at hcell
  cases hfield : record.recordType.field attr with
  | none =>
      rw [hfield] at hcell
      cases hcell
  | some field =>
      rw [hfield] at hcell
      have hkey : Cell.key ⟨record.recordType.name, attr, record.recordId⟩ = record.key attr := rfl
      cases hraw : db.get? (record.key attr) with
      | none => simp [hkey, hraw, Holds] at hcell
      | some raw =>
          simp only [hkey, hraw, Holds] at hcell
          have hretrieve : (record.retrieveRawRecord {} attr).on ⟨db, 0, false⟩ =
              (.ok raw, ⟨db, 1, false⟩) := by
            rw [Record.retrieveRawRecord, TxM.on_bind]
            simp only [TxM.on, txGet, hraw]
            rfl
          rw [Record.read, Record.getattr, if_neg hpublic]
          simp only [RecordType.getRecordField, hfield, TxM.on_bind, hretrieve, hcell.1, hcell.2,
            if_true]
          rfl

/-- Reading an attribute whose cell has no value fails with one of the two classes that the
query skips. -/
theorem Record.read_of_no_value (hm : S.Represents db m)
    (hT : S.classes record.recordType.name = some record.recordType)
    (hnone : m ⟨record.recordType.name, attr, record.recordId⟩ = none) :
    ∃ e, record.read packing db attr = .error e ∧
      (e.cls = .typeError ∨ e.cls = .attributeError) := by
  by_cases hprivate : attr.toList.head? = some '_'
  · exact ⟨_, Record.read_private hprivate, Or.inr rfl⟩
  · have hcell := hm ⟨record.recordType.name, attr, record.recordId⟩
    rw [Schema.field_of_class hT, hnone] at hcell
    rw [Record.read, Record.getattr, if_neg hprivate]
    cases hfield : record.recordType.field attr with
    | none =>
        by_cases hother : record.recordType.others ("_" ++ attr) = true
        · simp only [RecordType.getRecordField, hfield, hother, if_true]
          exact ⟨_, rfl, Or.inr rfl⟩
        · simp only [RecordType.getRecordField, hfield, hother]
          exact ⟨_, rfl, Or.inl rfl⟩
    | some field =>
        rw [hfield] at hcell
        have hkey : Cell.key ⟨record.recordType.name, attr, record.recordId⟩ = record.key attr :=
          rfl
        cases hraw : db.get? (record.key attr) with
        | some raw => simp [hkey, hraw, Holds] at hcell
        | none =>
            have hretrieve : (record.retrieveRawRecord {} attr).on ⟨db, 0, false⟩ =
                (.error (.noRecord attr record.recordId), ⟨db, 1, false⟩) := by
              rw [Record.retrieveRawRecord, TxM.on_bind]
              simp only [TxM.on, txGet, hraw]
              rfl
            simp only [RecordType.getRecordField, hfield, TxM.on_bind, hretrieve]
            exact ⟨_, rfl, Or.inr rfl⟩

end Reading

/-- The answer of a query is exact for a set of wanted ids: one record for each of them, and
{lit}`RecordNotFound` if there is none. -/
def ExactAnswer {Ty : Type} (answer : Except (QueryError Ty) (List RecordId))
    (wanted : RecordId → Prop) : Prop :=
  match answer with
  | .ok ids => ids ≠ [] ∧ ids.Nodup ∧ ∀ id, id ∈ ids ↔ wanted id
  | .error (.recordNotFound _) => ∀ id, ¬ wanted id
  | .error _ => False

section Exact

variable {V Ty : Type} [DecidableEq Ty] {packing : Packing V Ty} {S : Schema packing}
  {db : Dict Bytes Bytes} {m : RecordMap V} {T : RecordType V Ty}

/-- The ids of a type whose records satisfy a condition. -/
def WantedRecord (packing : Packing V Ty) (db : Dict Bytes Bytes) (m : RecordMap V)
    (T : RecordType V Ty) (p : FilterArg V Ty → Bool) (id : RecordId) : Prop :=
  (∃ f value, m ⟨T.name, f, id⟩ = some value) ∧
    p (.record id (Record.read packing ⟨T, id, false⟩ db)) = true

/-- The ids of a type under which a field is stored with a value that satisfies a condition. -/
def WantedField (m : RecordMap V) (T : RecordType V Ty) (f : String) (p : FilterArg V Ty → Bool)
    (id : RecordId) : Prop :=
  ∃ value, m ⟨T.name, f, id⟩ = some value ∧ p (.field value) = true

/-- A stored field of the type whose name extends another one by a byte below the separator. -/
def Obstructed (m : RecordMap V) (T : RecordType V Ty) (f : String) : Prop :=
  ∃ g id value b rest, m ⟨T.name, g, id⟩ = some value ∧ utf8 g = utf8 f ++ b :: rest ∧ b < 58

omit [DecidableEq Ty] in
theorem exactAnswer_iff {answer : Except (QueryError Ty) (List RecordId)} {ids : List RecordId}
    {key : Bytes} {wanted : RecordId → Prop} (hnodup : ids.Nodup)
    (hanswer : answer = if ids = [] then .error (.recordNotFound key) else .ok ids) :
    ExactAnswer answer wanted ↔ ∀ id, id ∈ ids ↔ wanted id := by
  subst hanswer
  cases ids with
  | nil => simp [ExactAnswer]
  | cons id ids => simp [ExactAnswer, hnodup]

end Exact

section Scanning

variable {V Ty : Type} {query : Query V Ty}

/-- The key of a cell, part by part. -/
theorem Cell.key_eq (c : Cell) :
    c.key = utf8 c.recordType ++ 58 :: (utf8 c.recordField ++ 58 :: utf8 c.recordId.text) := by
  have hcolon : utf8 ":" = [58] := by decide
  simp [Cell.key, storageKey, hcolon]

theorem Query.key_eq (query : Query V Ty) :
    query.key = utf8 query.recordType.name ++ 58 :: utf8 query.filterField := by
  have hcolon : utf8 ":" = [58] := by decide
  simp [Query.key, hcolon]

/-- The keys of a type are those that start with its name and the separator. -/
theorem Cell.recordType_of_prefix {c : Cell} (hc : ':' ∉ c.recordType.toList) {T : RecordType V Ty}
    (h : utf8 T.name ++ [58] <+: c.key) : c.recordType = T.name := by
  rcases h with ⟨rest, hrest⟩
  rw [Cell.key_eq, List.append_assoc, List.singleton_append] at hrest
  exact (utf8_injective (append_cons_inj_of_not_mem (colon_not_mem_utf8 T.no_colon_name)
    (colon_not_mem_utf8 hc) hrest).1).symm

/-- The stored keys that start with the query key belong to the queried field or to one whose
name extends it. -/
theorem Query.field_of_prefix (hfield : ':' ∉ query.filterField.toList) {c : Cell} (hc : c.Plain)
    (h : query.key <+: c.key) :
    c.recordType = query.recordType.name ∧ (c.recordField = query.filterField ∨
      ∃ b rest tail, utf8 c.recordField = utf8 query.filterField ++ b :: rest ∧ b ≠ 58 ∧
        c.key = query.key ++ b :: tail) := by
  have htype : c.recordType = query.recordType.name := by
    apply c.recordType_of_prefix hc.recordType
    refine List.IsPrefix.trans ?_ h
    rw [query.key_eq]
    exact ⟨utf8 query.filterField, by simp⟩
  refine ⟨htype, ?_⟩
  rcases h with ⟨tail, htail⟩
  have hparts := htail
  rw [query.key_eq, Cell.key_eq, htype, List.append_assoc, List.append_cancel_left_eq,
    List.cons_append, List.cons.injEq] at hparts
  rcases List.append_eq_append_iff.mp hparts.2 with ⟨a, hname, htail'⟩ | ⟨a, hname, hrest⟩
  · cases a with
    | nil =>
        left
        rw [List.append_nil] at hname
        exact utf8_injective hname
    | cons b rest =>
        right
        refine ⟨b, rest, rest ++ 58 :: utf8 c.recordId.text, hname, ?_, ?_⟩
        · rintro rfl
          have hmem : (58 : UInt8) ∈ utf8 c.recordField := by
            rw [hname]
            simp
          exact colon_not_mem_utf8 hc.recordField hmem
        · rw [← htail, htail', List.cons_append]
  · cases a with
    | nil =>
        left
        rw [List.append_nil] at hname
        exact (utf8_injective hname).symm
    | cons b a =>
        rw [List.cons_append, List.cons.injEq] at hrest
        have hmem : (58 : UInt8) ∈ utf8 query.filterField := by
          rw [hname, ← hrest.1]
          simp
        exact absurd hmem (colon_not_mem_utf8 hfield)

/-- The key of the queried field under an id extends the query key by the separator. -/
theorem Query.key_of_field {c : Cell} (htype : c.recordType = query.recordType.name)
    (hfield : c.recordField = query.filterField) :
    c.key = query.key ++ 58 :: utf8 c.recordId.text := by
  rw [Cell.key_eq, query.key_eq, htype, hfield, List.append_assoc, List.cons_append]

/-- The walk starts before every key of the queried field. -/
theorem Query.key_le_key (query : Query V Ty) (id : RecordId) :
    query.key ≤ Cell.key ⟨query.recordType.name, query.filterField, id⟩ := by
  have hkey : Cell.key ⟨query.recordType.name, query.filterField, id⟩ =
      query.key ++ 58 :: utf8 id.text := query.key_of_field rfl rfl
  rw [hkey]
  exact List.le_append_left

theorem append_cons_lt {q x y : Bytes} {a b : UInt8} (h : a < b) : q ++ a :: x < q ++ b :: y :=
  List.append_left_lt (List.cons_lt_cons_iff.mpr (Or.inl h))

end Scanning

section Exactness

variable {V Ty : Type} [DecidableEq Ty] {packing : Packing V Ty} {S : Schema packing}
  {db : Dict Bytes Bytes} {m : RecordMap V} {query : Query V Ty}

omit [DecidableEq Ty] in
/-- A walk passes every covered key from the query key on, if no key before a covered one is left
uncovered. -/
theorem Query.mem_passed_iff (query : Query V Ty) (hkeyed : WellKeyed S db)
    (hfield : ':' ∉ query.filterField.toList)
    (hclosed : ∀ d d' : Cell, d.Plain → d'.Plain → d.key ∈ db.keys → query.key ≤ d.key →
      d.key ≤ d'.key → query.Covers d' → query.Covers d) {c : Cell} (hc : c.Plain) :
    c.key ∈ query.passed db ↔ c.key ∈ db.keys ∧ query.key ≤ c.key ∧ query.Covers c := by
  rw [Query.passed, mem_scan_iff, query.matchesKey_key hfield hc]
  intro k hk k' hk' hstart hle hmatches
  rcases hkeyed k hk with ⟨d, hd, -, rfl⟩
  rcases hkeyed k' hk' with ⟨d', hd', -, rfl⟩
  rw [query.matchesKey_key hfield hd'] at hmatches
  rw [query.matchesKey_key hfield hd]
  exact hclosed d d' hd hd' hk hstart hle hmatches

omit [DecidableEq Ty] in
/-- A walk over all fields of a type passes every key of the type from the query key on. -/
theorem Query.mem_passed_of_type (hkeyed : WellKeyed S db)
    (hfield : ':' ∉ query.filterField.toList)
    (hall : query.filterField = "" ∨ readInt query.filterField = some 0) {c : Cell}
    (hc : c.Plain) :
    c.key ∈ query.passed db ↔
      c.key ∈ db.keys ∧ query.key ≤ c.key ∧ c.recordType = query.recordType.name := by
  have hcovers : ∀ c : Cell, query.Covers c ↔ c.recordType = query.recordType.name := by
    intro c
    constructor
    · exact And.left
    · intro htype
      rcases hall with hempty | hzero
      · exact ⟨htype, Or.inl hempty⟩
      · exact ⟨htype, Or.inr (Or.inl hzero)⟩
  rw [query.mem_passed_iff hkeyed hfield _ hc, hcovers]
  intro d d' hd hd' _ hstart hle hmatches
  rw [hcovers] at hmatches ⊢
  apply d.recordType_of_prefix hd.recordType
  refine prefix_of_between ?_ ?_ hstart hle
  · rw [query.key_eq]
    exact ⟨utf8 query.filterField, by simp⟩
  · rw [d'.key_eq, hmatches]
    exact ⟨utf8 d'.recordField ++ 58 :: utf8 d'.recordId.text, by simp⟩

omit [DecidableEq Ty] in
/-- Without an obstruction, a walk over one field passes every key of the field. -/
theorem Query.mem_passed_of_field (hkeyed : WellKeyed S db) (hm : S.Represents db m)
    (hfield : ':' ∉ query.filterField.toList) (hempty : query.filterField ≠ "")
    (hread : readInt query.filterField = none)
    (hclear : ¬ Obstructed m query.recordType query.filterField) {c : Cell} (hc : c.Plain) :
    c.key ∈ query.passed db ↔ c.key ∈ db.keys ∧ query.key ≤ c.key ∧
      c.recordType = query.recordType.name ∧ c.recordField = query.filterField := by
  have hcovers : ∀ c : Cell, query.Covers c ↔
      c.recordType = query.recordType.name ∧ c.recordField = query.filterField := by
    intro c
    simp [Query.Covers, hempty, hread]
  rw [query.mem_passed_iff hkeyed hfield _ hc, hcovers]
  intro d d' hd hd' hk hstart hle hmatches
  rw [hcovers] at hmatches ⊢
  have hkey' := query.key_of_field hmatches.1 hmatches.2
  have hprefix : query.key <+: d.key :=
    prefix_of_between List.prefix_rfl ⟨_, hkey'.symm⟩ hstart hle
  rcases query.field_of_prefix hfield hd hprefix with
    ⟨htype, hsame | ⟨b, rest, tail, hname, hb, hkey⟩⟩
  · exact ⟨htype, hsame⟩
  · -- the field of the key extends the queried one, so its next byte is below the separator
    exfalso
    rw [hkey, hkey'] at hle
    rcases (hkeyed.key_mem_iff hm hd).mp hk with ⟨value, hvalue⟩
    rcases d with ⟨type, g, id⟩
    simp only at htype hname
    subst htype
    apply hclear
    refine ⟨g, id, value, b, rest, hvalue, hname, ?_⟩
    by_contra hnot
    have hgt : 58 < b := by
      rcases Std.lt_trichotomy b 58 with hlt | heq | hgt
      · exact absurd hlt hnot
      · exact absurd heq hb
      · exact hgt
    exact hle (append_cons_lt hgt)

omit [DecidableEq Ty] in
/-- An obstruction ends the walk over a field before it starts. -/
theorem Query.passed_of_obstructed (hkeyed : WellKeyed S db) (hm : S.Represents db m)
    (hfield : ':' ∉ query.filterField.toList) (hempty : query.filterField ≠ "")
    (hread : readInt query.filterField = none)
    (hobstructed : Obstructed m query.recordType query.filterField) : query.passed db = [] := by
  rcases hobstructed with ⟨g, id, value, b, rest, hvalue, hname, hb⟩
  have hc : Cell.Plain ⟨query.recordType.name, g, id⟩ := hkeyed.plain hm hvalue
  have hkey : Cell.key ⟨query.recordType.name, g, id⟩ =
      query.key ++ b :: (rest ++ 58 :: utf8 id.text) := by
    rw [Cell.key_eq, query.key_eq, hname]
    simp
  have hmem := (hkeyed.key_mem_iff hm hc).mpr ⟨value, hvalue⟩
  have hstart : query.key ≤ Cell.key ⟨query.recordType.name, g, id⟩ := by
    rw [hkey]
    exact List.le_append_left
  apply scan_eq_nil hmem hstart
  intro k hk hstart hle
  rcases hkeyed k hk with ⟨d, hd, -, rfl⟩
  apply Bool.eq_false_iff.mpr
  intro hmatches
  rcases (query.matchesKey_key hfield hd).mp hmatches with ⟨htype, hcovers⟩
  have hsame : d.recordField = query.filterField := by
    simpa [hempty, hread] using hcovers
  rw [query.key_of_field htype hsame, hkey] at hle
  exact hle (append_cons_lt hb)

omit [DecidableEq Ty] in
/-- A field name that reads as a nonzero integer matches no key. -/
theorem Query.passed_of_nonzero (hkeyed : WellKeyed S db)
    (hfield : ':' ∉ query.filterField.toList) {n : Int} (hread : readInt query.filterField = some n)
    (hn : n ≠ 0) : query.passed db = [] := by
  have hempty : query.filterField ≠ "" := by
    intro hempty
    rw [hempty, readInt_empty] at hread
    cases hread
  have hno : ∀ k ∈ startAt query.key db.keys, ¬ query.matchesKey k = true := by
    intro k hk
    rcases hkeyed k (mem_startAt.mp hk).1 with ⟨d, hd, -, rfl⟩
    rw [query.matchesKey_key hfield hd]
    rintro ⟨-, hcovers⟩
    simp [hempty, hread, hn] at hcovers
  rw [Query.passed]
  cases hkeys : startAt query.key db.keys with
  | nil => rfl
  | cons first rest =>
      rw [hkeys] at hno
      exact List.takeWhile_cons_of_neg (hno first List.mem_cons_self)

end Exactness

section Answer

variable {V Ty : Type} [DecidableEq Ty] {packing : Packing V Ty} {S : Schema packing}
  {db : Dict Bytes Bytes} {m : RecordMap V} {T : RecordType V Ty} {p : FilterArg V Ty → Bool}

/-- The filter on a field selects the ids that are wanted, unless the field is private. -/
theorem selects_field (hm : S.Represents db m) (hT : S.classes T.name = some T) {f : String}
    (hf : f ≠ "") (id : RecordId) :
    ∃ b, (Query.mk T (some p) f).selects packing db id = .ok b ∧
      (b = true ↔ f.toList.head? ≠ some '_' ∧ WantedField m T f p id) := by
  simp only [Query.selects, hf, ne_eq, not_false_eq_true, if_true]
  by_cases hprivate : f.toList.head? = some '_'
  · rw [Record.read_private hprivate]
    exact ⟨false, rfl, by simp [hprivate]⟩
  · cases hvalue : m ⟨T.name, f, id⟩ with
    | some value =>
        have hread : Record.read packing ⟨T, id, false⟩ db f = .ok value :=
          Record.read_of_value hm hT hprivate hvalue
        rw [hread]
        exact ⟨_, rfl, by simp [hprivate, WantedField, hvalue]⟩
    | none =>
        have hread : ∃ e, Record.read packing ⟨T, id, false⟩ db f = .error e ∧
            (e.cls = .typeError ∨ e.cls = .attributeError) :=
          Record.read_of_no_value hm hT hvalue
        rcases hread with ⟨e, he, hcls⟩
        rw [he]
        exact ⟨false, by simp only [hcls, if_true], by simp [WantedField, hvalue]⟩

/-- A query over a whole type is exact. -/
theorem queryBy_type_exact (hkeyed : WellKeyed S db) (hm : S.Represents db m) :
    ExactAnswer ((Query.mk T (some p) "").queryBy packing db) (WantedRecord packing db m T p) := by
  have hfield : ':' ∉ (Query.mk T (some p) "").filterField.toList := by simp
  have hselects : ∀ id, (Query.mk T (some p) "").selects packing db id =
      .ok (p (.record id (Record.read packing ⟨T, id, false⟩ db))) := by
    intro id
    simp [Query.selects]
  rcases (Query.mk T (some p) "").queryBy_spec hfield (fun id => ⟨_, hselects id⟩)
    hkeyed.exists_cell with ⟨ids, hnodup, hids, hanswer⟩
  rw [exactAnswer_iff hnodup hanswer]
  intro id
  rw [hids id, hselects id, WantedRecord, and_comm, Except.ok.injEq]
  apply and_congr_left'
  constructor
  · rintro ⟨c, hc, hpassed, rfl⟩
    rcases ((Query.mk T (some p) "").mem_passed_of_type hkeyed hfield (Or.inl rfl) hc).mp hpassed
      with ⟨hmem, -, htype⟩
    rcases (hkeyed.key_mem_iff hm hc).mp hmem with ⟨value, hvalue⟩
    rcases c with ⟨type, f, id⟩
    simp only at htype
    subst htype
    exact ⟨f, value, hvalue⟩
  · rintro ⟨f, value, hvalue⟩
    have hc := hkeyed.plain hm hvalue
    refine ⟨⟨T.name, f, id⟩, hc, ?_, rfl⟩
    rw [(Query.mk T (some p) "").mem_passed_of_type hkeyed hfield (Or.inl rfl) hc]
    refine ⟨(hkeyed.key_mem_iff hm hc).mpr ⟨value, hvalue⟩, ?_, rfl⟩
    rw [Query.key_eq, Cell.key_eq]
    exact List.append_left_le (List.cons_le_cons_iff.mpr (Or.inr ⟨rfl, List.nil_le _⟩))

/-- A query by a field yields the selected ids of the keys it passes. -/
theorem queryBy_field_spec (hkeyed : WellKeyed S db) (hm : S.Represents db m)
    (hT : S.classes T.name = some T) {f : String} (hf : f ≠ "") (hcolon : ':' ∉ f.toList) :
    ∃ ids : List RecordId, ids.Nodup ∧
      (∀ id, id ∈ ids ↔ (Query.mk T (some p) f).selects packing db id = .ok true ∧
        ∃ c : Cell, c.Plain ∧ c.key ∈ (Query.mk T (some p) f).passed db ∧ c.recordId = id) ∧
      (Query.mk T (some p) f).queryBy packing db =
        if ids = [] then .error (.recordNotFound (Query.mk T (some p) f).key) else .ok ids := by
  apply Query.queryBy_spec hcolon
  · intro id
    rcases selects_field (p := p) hm hT hf id with ⟨b, hb, -⟩
    exact ⟨b, hb⟩
  · exact hkeyed.exists_cell

/-- If every key of the field is passed, the answer is exact but for private fields. -/
theorem queryBy_field_of_passed (hkeyed : WellKeyed S db) (hm : S.Represents db m)
    (hT : S.classes T.name = some T) {f : String} (hf : f ≠ "") (hcolon : ':' ∉ f.toList)
    (hpassed : ∀ id value, m ⟨T.name, f, id⟩ = some value →
      Cell.key ⟨T.name, f, id⟩ ∈ (Query.mk T (some p) f).passed db) :
    ExactAnswer ((Query.mk T (some p) f).queryBy packing db) (WantedField m T f p) ↔
      (∀ id, ¬ WantedField m T f p id) ∨ f.toList.head? ≠ some '_' := by
  rcases queryBy_field_spec hkeyed hm hT hf hcolon with ⟨ids, hnodup, hids, hanswer⟩
  have hmem : ∀ id, id ∈ ids ↔ f.toList.head? ≠ some '_' ∧ WantedField m T f p id := by
    intro id
    rcases selects_field (p := p) hm hT hf id with ⟨b, hb, hiff⟩
    rw [hids id, hb, Except.ok.injEq, hiff]
    constructor
    · exact And.left
    · rintro ⟨hpublic, value, hvalue, hp⟩
      exact ⟨⟨hpublic, value, hvalue, hp⟩, _, hkeyed.plain hm hvalue, hpassed id value hvalue, rfl⟩
  rw [exactAnswer_iff hnodup hanswer]
  constructor
  · intro hexact
    by_cases hpublic : f.toList.head? ≠ some '_'
    · exact Or.inr hpublic
    · left
      intro id hwanted
      exact hpublic ((hmem id).mp ((hexact id).mpr hwanted)).1
  · intro hcond id
    rw [hmem id]
    rcases hcond with hnone | hpublic
    · simp [hnone id]
    · simp [hpublic]

/-- If no key is passed, the answer is exact only when nothing is wanted. -/
theorem queryBy_field_of_not_passed (hkeyed : WellKeyed S db) (hm : S.Represents db m)
    (hT : S.classes T.name = some T) {f : String} (hf : f ≠ "") (hcolon : ':' ∉ f.toList)
    (hpassed : (Query.mk T (some p) f).passed db = []) :
    ExactAnswer ((Query.mk T (some p) f).queryBy packing db) (WantedField m T f p) ↔
      ∀ id, ¬ WantedField m T f p id := by
  rcases queryBy_field_spec hkeyed hm hT hf hcolon with ⟨ids, hnodup, hids, hanswer⟩
  rw [exactAnswer_iff hnodup hanswer]
  have hmem : ∀ id, id ∉ ids := by
    intro id hid
    rcases (hids id).mp hid with ⟨-, c, -, hc, -⟩
    rw [hpassed] at hc
    cases hc
  simp [hmem]

end Answer

/-- In every database written through {lit}`describe`, a query over a whole type is exact, and
a query by a field is exact if and only if nothing is wanted, or the field is public and either
reads as zero, or reads as no integer and is not obstructed by a field that extends its name. -/
theorem queryBy_exact_iff {V Ty : Type} [DecidableEq Ty] {packing : Packing V Ty}
    {S : Schema packing} {db : Dict Bytes Bytes} (hdb : Written S db) {m : RecordMap V}
    (hm : S.Represents db m) {T : RecordType V Ty} (hT : S.classes T.name = some T)
    (p : FilterArg V Ty → Bool) :
    ExactAnswer ((Query.mk T (some p) "").queryBy packing db) (WantedRecord packing db m T p) ∧
      ∀ f, f ≠ "" → ':' ∉ f.toList →
        (ExactAnswer ((Query.mk T (some p) f).queryBy packing db) (WantedField m T f p) ↔
          (∀ id, ¬ WantedField m T f p id) ∨ f.toList.head? ≠ some '_' ∧
            (readInt f = some 0 ∨ readInt f = none ∧ ¬ Obstructed m T f)) := by
  have hkeyed := hdb.wellKeyed
  refine ⟨queryBy_type_exact hkeyed hm, fun f hf hcolon => ?_⟩
  cases hread : readInt f with
  | some n =>
      by_cases hn : n = 0
      · subst hn
        rw [queryBy_field_of_passed hkeyed hm hT hf hcolon]
        · simp
        · intro id value hvalue
          have hc := hkeyed.plain hm hvalue
          rw [(Query.mk T (some p) f).mem_passed_of_type hkeyed hcolon (Or.inr hread) hc]
          exact ⟨(hkeyed.key_mem_iff hm hc).mpr ⟨value, hvalue⟩,
            (Query.mk T (some p) f).key_le_key id, rfl⟩
      · rw [queryBy_field_of_not_passed hkeyed hm hT hf hcolon
          ((Query.mk T (some p) f).passed_of_nonzero hkeyed hcolon hread hn)]
        simp [hn]
  | none =>
      by_cases hobstructed : Obstructed m T f
      · rw [queryBy_field_of_not_passed hkeyed hm hT hf hcolon
          ((Query.mk T (some p) f).passed_of_obstructed hkeyed hm hcolon hf hread hobstructed)]
        simp [hobstructed]
      · rw [queryBy_field_of_passed hkeyed hm hT hf hcolon]
        · simp [hobstructed]
        · intro id value hvalue
          have hc := hkeyed.plain hm hvalue
          rw [(Query.mk T (some p) f).mem_passed_of_field hkeyed hm hcolon hf hread hobstructed hc]
          exact ⟨(hkeyed.key_mem_iff hm hc).mpr ⟨value, hvalue⟩,
            (Query.mk T (some p) f).key_le_key id, rfl, rfl⟩

/-- A body that stores the fields {lit}`f` and {lit}`f2` of one record. -/
def obstructingOps : List (Op Nat) := [.setattr "f" (some 5), .setattr "f2" (some 7)]

/-- The database that this body leaves. -/
def obstructedDb : Dict Bytes Bytes :=
  (describe natPacking {} testRecord (.int 7) true (Body.sequence obstructingOps) Dict.empty).2

theorem written_obstructedDb : Written testSchema obstructedDb := by
  have hid : (GivenId.int 7).Plain := trivial
  exact .describe .fresh {} rfl hid true _

theorem queryBy_exact_iff_obstructedDb :
    ∃ m, testSchema.Represents obstructedDb m ∧
      ExactAnswer ((Query.mk testRecord (some fun _ => true) "").queryBy natPacking obstructedDb)
        (WantedRecord natPacking obstructedDb m testRecord fun _ => true) := by
  rcases written_obstructedDb.exists_represents with ⟨m, hm⟩
  exact ⟨m, hm, (queryBy_exact_iff written_obstructedDb hm rfl _).1⟩

/-- The field {lit}`f` is stored under the id 7, but the query by {lit}`f` finds no record: the
key of {lit}`f2` comes first and does not match. -/
theorem queryBy_not_exact :
    Written testSchema obstructedDb ∧
      (Query.mk testRecord (some fun _ => true) "f").queryBy natPacking obstructedDb =
        .error (.recordNotFound (utf8 "TestRecord:f")) ∧
      ∃ m, testSchema.Represents obstructedDb m ∧
        WantedField m testRecord "f" (fun _ => true) (.int 7) ∧
        ¬ ExactAnswer ((Query.mk testRecord (some fun _ => true) "f").queryBy natPacking obstructedDb)
          (WantedField m testRecord "f" fun _ => true) := by
  have hanswer : (Query.mk testRecord (some fun _ => true) "f").queryBy natPacking obstructedDb =
      .error (.recordNotFound (utf8 "TestRecord:f")) := by rfl
  rcases written_obstructedDb.exists_represents with ⟨m, hm⟩
  have hstored : ∃ value, m ⟨"TestRecord", "f", .int 7⟩ = some value := by
    apply hm.stored_iff.mpr
    constructor
    · decide
    · decide
  have hwanted : WantedField m testRecord "f" (fun _ => true) (.int 7) := by
    rcases hstored with ⟨value, hvalue⟩
    exact ⟨value, hvalue, rfl⟩
  refine ⟨written_obstructedDb, hanswer, m, hm, hwanted, ?_⟩
  rw [hanswer]
  intro hexact
  exact hexact _ hwanted

end NuLink
