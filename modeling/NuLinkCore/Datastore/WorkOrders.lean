import NuLinkCore.Datastore.Query

/-!
# The records of re-encryptions

A node stores a record for every re-encryption, with the verifying key of the Bob who asked for
it.  Keys are stored as their bytes.  The list of these records is a query without a filter, and
a query that finds nothing is an empty list.

Main results:

- Theorem {lit}`WorkOrders.store_cases`: storing a record either raises and changes nothing, or
  adds exactly the record.
- Theorem {lit}`WorkOrders.getReencryptionRequests_spec`: the list has every record once.
-/

namespace NuLink

open Collections

/-- The types of the values that are stored. -/
inductive StoredType where
  | bytes
  | publicKey
deriving DecidableEq

inductive StoredValue (PublicKey : Type) where
  | bytes (bytes : Bytes)
  | publicKey (key : PublicKey)

/-- The bytes of public keys, and msgpack for bytes.  What is written can be read again. -/
structure KeyCodec (PublicKey : Type) where
  toBytes : PublicKey → Bytes
  fromBytes : Bytes → Except (Exc StoredType) PublicKey
  packb : Bytes → Except (Exc StoredType) Bytes
  unpackb : Bytes → Except (Exc StoredType) Bytes
  fromBytes_toBytes : ∀ key, fromBytes (toBytes key) = .ok key
  unpackb_packb : ∀ bytes raw, packb bytes = .ok raw → unpackb raw = .ok bytes

namespace WorkOrders

variable {PublicKey : Type} (codec : KeyCodec PublicKey)

def typeOf : StoredValue PublicKey → StoredType
  | .bytes _ => .bytes
  | .publicKey _ => .publicKey

/-- msgpack takes bytes, and no keys. -/
def packing : Packing (StoredValue PublicKey) StoredType where
  typeOf := typeOf
  packb
    | .bytes bytes => codec.packb bytes
    | .publicKey _ => .error (.foreign .typeError "can not serialize 'PublicKey' object")
  unpackb raw := (codec.unpackb raw).map .bytes

/-- The field {lit}`_bob_verifying_key`. -/
def keyField : RecordField (StoredValue PublicKey) StoredType where
  fieldType := .publicKey
  encode
    | .bytes bytes => .ok (.bytes bytes)
    | .publicKey key => .ok (.bytes (codec.toBytes key))
  decode
    | .bytes bytes => (codec.fromBytes bytes).map .publicKey
    | .publicKey _ => .error (.foreign .typeError "")

/-- The class variables of {lit}`ReencryptionRequest`. -/
def classVars : Dict String (RecordField (StoredValue PublicKey) StoredType) :=
  Dict.ofList [("_bob_verifying_key", keyField codec)]

theorem mem_classVars {classVar : String} (h : classVar ∈ (classVars codec).keys) :
    classVar = "_bob_verifying_key" :=
  List.mem_singleton.mp h

theorem no_colon_datastoreRecordNames {other : String}
    (h : decide (other ∈ datastoreRecordNames) = true) : ':' ∉ other.toList := by
  have hall : ∀ other ∈ datastoreRecordNames, ':' ∉ other.toList := by decide
  exact hall other (of_decide_eq_true h)

/-- {lit}`ReencryptionRequest`, the record class. -/
def reencryptionRequest : RecordType (StoredValue PublicKey) StoredType where
  name := "ReencryptionRequest"
  classVars := classVars codec
  others := fun name => decide (name ∈ datastoreRecordNames)
  name_ne := by decide
  no_colon_name := by decide
  no_colon_classVars := fun _ hmem => mem_classVars codec hmem ▸ by decide
  no_colon_others := fun _ hother => no_colon_datastoreRecordNames hother
  not_others := fun _ hmem => mem_classVars codec hmem ▸ by decide
  not_found := by
    intro classVar hmem
    obtain rfl := mem_classVars codec hmem
    refine ⟨by decide, fun hfound => ?_⟩
    exact absurd (mem_classVars codec hfound) (by decide)

theorem field_bobVerifyingKey :
    (reencryptionRequest codec).field "bob_verifying_key" = some (keyField codec) := rfl

/-- The field of a key can be read back. -/
theorem keyField_inverse : (keyField codec).Inverse (packing codec) := by
  intro value raw htype hraw
  cases value with
  | bytes bytes => cases htype
  | publicKey key =>
      have hpack : codec.packb (codec.toBytes key) = .ok raw := hraw
      have hread := codec.unpackb_packb _ _ hpack
      have hkey := codec.fromBytes_toBytes key
      show (codec.unpackb raw).map StoredValue.bytes >>= (keyField codec).decode = _
      rw [hread]
      show (codec.fromBytes (codec.toBytes key)).map StoredValue.publicKey = _
      rw [hkey]
      rfl

/-- The record class is the only one. -/
def schema : Schema (packing codec) where
  classes name := if name = "ReencryptionRequest" then some (reencryptionRequest codec) else none
  named := by
    intro name T hT
    split at hT
    · next hname =>
        cases hT
        exact hname.symm
    · cases hT
  inverse := by
    intro name T attr field hT hfield
    split at hT
    · cases hT
      have hmem := Dict.mem_entries_iff.mpr hfield
      rcases Prod.mk.inj (List.mem_singleton.mp hmem) with ⟨-, rfl⟩
      exact keyField_inverse codec
    · cases hT

theorem schema_classes :
    (schema codec).classes (reencryptionRequest codec).name = some (reencryptionRequest codec) :=
  rfl

/-- The place of the key of a record. -/
def cell (id : RecordId) : Cell := ⟨"ReencryptionRequest", "bob_verifying_key", id⟩

theorem cell_injective : Function.Injective cell := by
  intro a b h
  exact (Cell.mk.inj h).2.2

/-- The body of the {lit}`with` statement that stores a record. -/
def body (key : PublicKey) : Body (StoredValue PublicKey) StoredType :=
  Body.sequence [.setattr "bob_verifying_key" (some (.publicKey key))]

/-- Store a record under an id. -/
def store (lmdb : Lmdb StoredType) (id : GivenId) (key : PublicKey) (db : Dict Bytes Bytes) :
    Except (DescribeError StoredType) Unit × Dict Bytes Bytes :=
  describe (packing codec) lmdb (reencryptionRequest codec) id true (body key) db

/-- {lit}`get_reencryption_requests`: the ids of all records. -/
def getReencryptionRequests (db : Dict Bytes Bytes) :
    Except (QueryError StoredType) (List RecordId) :=
  match (Query.mk (reencryptionRequest codec) none "").queryBy (packing codec) db with
  | .error (.recordNotFound _) => .ok []
  | answer => answer

/-- Storing a record either raises and changes nothing, or adds exactly the record. -/
theorem store_cases (lmdb : Lmdb StoredType) {id : GivenId} (hid : id.Plain) (key : PublicKey)
    {db : Dict Bytes Bytes} (hdb : Written (schema codec) db)
    {m : RecordMap (StoredValue PublicKey)} (hm : (schema codec).Represents db m) :
    (∃ e, store codec lmdb id key db = (.error e, db)) ∨
      ((store codec lmdb id key db).1 = .ok () ∧
        Written (schema codec) (store codec lmdb id key db).2 ∧
        (schema codec).Represents (store codec lmdb id key db).2
          (Function.update m (cell id.canonical) (some (.publicKey key)))) := by
  have hwritten : Written (schema codec) (store codec lmdb id key db).2 :=
    .describe hdb lmdb (schema_classes codec) hid true _
  rcases describe_cases (packing codec) lmdb (reencryptionRequest codec) id true (body key) db with
    ⟨e, hresult⟩ | ⟨tx, hrun, hresult⟩
  · exact Or.inl ⟨e, hresult⟩
  · right
    have hwhole : store codec lmdb id key db = (.ok (), tx.view) := hresult
    have hview : (schema codec).Represents (Tx.mk db 0 true).view m := hm
    have hT : (schema codec).classes
        (Record.mk (reencryptionRequest codec) id.canonical true).recordType.name =
          some (reencryptionRequest codec) := schema_classes codec
    rcases runBody_performs hT hview hrun with ⟨-, events, hperforms, hm'⟩
    have hevents := hperforms.sequence_events
    refine ⟨by rw [hwhole], hwritten, ?_⟩
    rw [hwhole]
    rw [hevents] at hm'
    exact hm'

/-- A query without a filter is one that accepts everything. -/
theorem queryBy_none (db : Dict Bytes Bytes) :
    (Query.mk (reencryptionRequest codec) none "").queryBy (packing codec) db =
      (Query.mk (reencryptionRequest codec) (some fun _ => true) "").queryBy (packing codec) db := by
  have hloop : ∀ (keys : List Bytes) (valid : List RecordId),
      (Query.mk (reencryptionRequest codec) none "").loop (packing codec) db valid keys =
        (Query.mk (reencryptionRequest codec) (some fun _ => true) "").loop (packing codec) db
          valid keys := by
    intro keys
    induction keys with
    | nil => intro valid; rfl
    | cons key keys ih =>
        intro valid
        simp only [Query.loop, Query.selects, ih]
        rfl
  simp only [Query.queryBy, hloop]
  rfl

/-- Reading a record, without faults of lmdb. -/
def readKey (id : RecordId) (db : Dict Bytes Bytes) :
    Except (Exc StoredType) (StoredValue PublicKey) :=
  (Record.mk (reencryptionRequest codec) id false).read (packing codec) db "bob_verifying_key"

theorem readKey_of_value {db : Dict Bytes Bytes} {m : RecordMap (StoredValue PublicKey)}
    (hm : (schema codec).Represents db m) {id : RecordId} {value : StoredValue PublicKey}
    (hvalue : m (cell id) = some value) : readKey codec id db = .ok value := by
  have hpublic : "bob_verifying_key".toList.head? ≠ some '_' := by decide
  exact Record.read_of_value hm (schema_classes codec) hpublic hvalue

/-- The list has every record of the abstract map once. -/
theorem getReencryptionRequests_spec {db : Dict Bytes Bytes} (hdb : Written (schema codec) db)
    {m : RecordMap (StoredValue PublicKey)} (hm : (schema codec).Represents db m) :
    ∃ ids, getReencryptionRequests codec db = .ok ids ∧ ids.Nodup ∧
      ∀ id, id ∈ ids ↔ ∃ value, m (cell id) = some value := by
  have hexact := queryBy_type_exact (p := fun _ => true) (T := reencryptionRequest codec)
    hdb.wellKeyed hm
  rw [← queryBy_none] at hexact
  -- The only field of a record is the key.
  have hwanted : ∀ id, WantedRecord (packing codec) db m (reencryptionRequest codec)
      (fun _ => true) id ↔ ∃ value, m (cell id) = some value := by
    intro id
    constructor
    · rintro ⟨⟨f, value, hvalue⟩, -⟩
      have hfield := (hm.stored_iff.mp ⟨value, hvalue⟩).2
      rw [Schema.field_of_class (schema_classes codec), Option.isSome_iff_exists] at hfield
      rcases hfield with ⟨field, hfield⟩
      have hmem := Dict.mem_entries_iff.mpr hfield
      have hname : "_" ++ f = "_" ++ "bob_verifying_key" :=
        (Prod.mk.inj (List.mem_singleton.mp hmem)).1
      have hf : f = "bob_verifying_key" := by
        have hattr := congrArg attrOf hname
        rwa [attrOf_underscore, attrOf_underscore] at hattr
      subst hf
      exact ⟨value, hvalue⟩
    · rintro ⟨value, hvalue⟩
      exact ⟨⟨_, value, hvalue⟩, rfl⟩
  unfold getReencryptionRequests
  cases hanswer : (Query.mk (reencryptionRequest codec) none "").queryBy (packing codec) db with
  | ok ids =>
      rw [hanswer] at hexact
      exact ⟨ids, rfl, hexact.2.1, fun id => (hexact.2.2 id).trans (hwanted id)⟩
  | error e =>
      rw [hanswer] at hexact
      cases e with
      | recordNotFound queryKey =>
          refine ⟨[], rfl, List.nodup_nil, fun id => ?_⟩
          rw [← hwanted id]
          exact ⟨fun h => absurd h (by simp), fun h => absurd h (hexact id)⟩
      | propagated e => exact absurd hexact id
      | malformedKey key => exact absurd hexact id

end WorkOrders

end NuLink
