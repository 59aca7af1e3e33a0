import NuLinkCore.Lib.Dict
import NuLinkCore.Datastore.Key

/-!
# Datastore records

The attribute protocol of {lit}`DatastoreRecord`: reading an attribute reads a field
from the lmdb transaction, assigning one writes it, and assigning {lit}`None` deletes
it.  What lmdb does at each call is a parameter, so that every call may fail; a failed
call has no effect on the view of the transaction.

Main results:

- Theorem {lit}`getattr_spec`: a successful read returns the decoded stored value.
- Theorem {lit}`setattr_some_spec`: a successful assignment changes one key of the view, a
  failed one changes nothing.
- Theorem {lit}`deleteFields_spec`: deleting a record clears its fields in order, up to
  the first failure.
-/

namespace NuLink

open Collections

/-! ## Exceptions -/

/-- The exception classes that the datastore tells apart. -/
inductive ExcClass where
  | attributeError
  | typeError
  | dbWriteError
  | other (name : String)
deriving DecidableEq, Repr

/-- The exceptions met inside a transaction. -/
inductive Exc (Ty : Type) where
  /-- "This datastore record isn't writeable." -/
  | notWriteable
  /-- "Given record is type …; expected …" -/
  | givenType (given expected : Ty)
  /-- "Decoded record was type …; expected …" -/
  | decodedType (decoded expected : Ty)
  /-- "No valid RecordField found on … for …." -/
  | noRecordField (attr : String)
  /-- The class attribute behind {lit}`attr` is no {lit}`RecordField`. -/
  | notRecordField (attr : String)
  /-- {lit}`object` has no {lit}`__getattr__`. -/
  | privateAttribute (attr : String)
  /-- "No … record found for ID: …." -/
  | noRecord (recordField : String) (recordId : RecordId)
  /-- "Couldn't write the record (key: …) to the database." -/
  | couldNotWrite (key : Bytes)
  /-- "Couldn't delete the record (key: …) from the database." -/
  | couldNotDelete (key : Bytes)
  /-- Raised by lmdb, by a codec or by the body itself. -/
  | foreign (cls : ExcClass) (msg : String)
deriving DecidableEq

/-- The class of an exception. -/
def Exc.cls {Ty : Type} : Exc Ty → ExcClass
  | .notWriteable => .typeError
  | .givenType _ _ => .typeError
  | .decodedType _ _ => .typeError
  | .noRecordField _ => .typeError
  | .notRecordField _ => .attributeError
  | .privateAttribute _ => .attributeError
  | .noRecord _ _ => .attributeError
  | .couldNotWrite _ => .dbWriteError
  | .couldNotDelete _ => .dbWriteError
  | .foreign cls _ => cls

/-! ## Record classes -/

/-- The Python values that records hold, their types, and msgpack. -/
structure Packing (V Ty : Type) where
  typeOf : V → Ty
  packb : V → Except (Exc Ty) Bytes
  unpackb : Bytes → Except (Exc Ty) V

/-- {lit}`RecordField`: the type of a field with its optional codec. -/
structure RecordField (V Ty : Type) where
  fieldType : Ty
  encode : V → Except (Exc Ty) V := Except.ok
  decode : V → Except (Exc Ty) V := Except.ok

/-- The codec of a field and msgpack are inverse on the values of its type. -/
def RecordField.Inverse {V Ty : Type} (packing : Packing V Ty) (field : RecordField V Ty) : Prop :=
  ∀ value raw, packing.typeOf value = field.fieldType →
    (field.encode value >>= packing.packb) = .ok raw →
    (packing.unpackb raw >>= field.decode) = .ok value

/-- {lit}`class_var[1:]`. -/
def attrOf (classVar : String) : String := String.ofList (classVar.toList.drop 1)

@[simp]
theorem attrOf_underscore (attr : String) : attrOf ("_" ++ attr) = attr := by
  have hunderscore : ("_" : String).toList = ['_'] := rfl
  simp [attrOf, hunderscore]

/-- A subclass of {lit}`DatastoreRecord`: its name and the {lit}`RecordField`s of its own
body under the names of their class variables. -/
structure RecordType (V Ty : Type) where
  name : String
  classVars : Dict String (RecordField V Ty)
  /-- The other names that attribute lookup finds on an instance. -/
  others : String → Bool
  name_ne : name ≠ ""
  no_colon_name : ':' ∉ name.toList
  no_colon_classVars : ∀ classVar ∈ classVars.keys, ':' ∉ classVar.toList
  no_colon_others : ∀ other, others other = true → ':' ∉ other.toList
  /-- No field is declared under a name that is in use. -/
  not_others : ∀ classVar ∈ classVars.keys, others classVar = false
  /-- Ordinary lookup finds none of the attributes that stand for fields. -/
  not_found : ∀ classVar ∈ classVars.keys,
    others (attrOf classVar) = false ∧ attrOf classVar ∉ classVars.keys

namespace RecordType

variable {V Ty : Type}

/-- The field that an attribute name stands for. -/
def field (T : RecordType V Ty) (attr : String) : Option (RecordField V Ty) :=
  T.classVars.get? ("_" ++ attr)

/-- The attributes that {lit}`delete` assigns, in the order of the class body. -/
def attrs (T : RecordType V Ty) : List String := T.classVars.keys.map attrOf

theorem no_colon_field {T : RecordType V Ty} {attr : String} {field : RecordField V Ty}
    (h : T.field attr = some field) : ':' ∉ attr.toList := by
  have hvar := T.no_colon_classVars _ (Dict.mem_keys_iff_exists.mpr ⟨field, h⟩)
  intro hmem
  apply hvar
  rw [String.toList_append]
  exact List.mem_append_right _ hmem

/-- {lit}`__get_record_field`: the attribute {lit}`_{attr}`, which may be something else than
a {lit}`RecordField`. -/
def getRecordField (T : RecordType V Ty) (attr : String) :
    Except (Exc Ty) (Option (RecordField V Ty)) :=
  match T.field attr with
  | some field => .ok (some field)
  | none => if T.others ("_" ++ attr) then .ok none else .error (.noRecordField attr)

end RecordType

/-! ## Transactions -/

/-- What lmdb does with a call. -/
inductive Reply (Ty : Type) where
  | serves
  | refuses
  | raises (e : Exc Ty)

/-- lmdb during one transaction: whether it begins, how it replies to the calls in their
order, and whether it commits. -/
structure Lmdb (Ty : Type) where
  begins : Option (Exc Ty) := none
  reply : Nat → Reply Ty := fun _ => .serves
  commits : Option (Exc Ty) := none

/-- An open transaction: what it would commit, and the number of calls made so far. -/
structure Tx where
  view : Dict Bytes Bytes
  calls : Nat := 0
  write : Bool

/-- Code that runs inside a transaction; the transaction outlives an exception. -/
abbrev TxM (Ty α : Type) := ExceptT (Exc Ty) (StateM Tx) α

section Run

variable {Ty α β : Type}

/-- The outcome of a computation and the transaction it leaves. -/
def TxM.on (x : TxM Ty α) (tx : Tx) : Except (Exc Ty) α × Tx := x tx

@[simp]
theorem TxM.on_pure (a : α) (tx : Tx) : (pure a : TxM Ty α).on tx = (.ok a, tx) :=
  rfl

@[simp]
theorem TxM.on_throw (e : Exc Ty) (tx : Tx) :
    (throw e : TxM Ty α).on tx = (.error e, tx) :=
  rfl

/-- Code that goes on after a success and stops at an exception. -/
theorem TxM.on_bind (x : TxM Ty α) (f : α → TxM Ty β) (tx : Tx) :
    (x >>= f).on tx =
      match x.on tx with
      | (.ok a, tx') => (f a).on tx'
      | (.error e, tx') => (.error e, tx') := by
  show (ExceptT.bind x f) tx = _
  unfold TxM.on
  simp only [ExceptT.bind, ExceptT.mk, bind, StateT.bind]
  rcases x tx with ⟨r, tx'⟩
  cases r with
  | ok a => rfl
  | error e => rfl

end Run

section Calls

variable {Ty : Type} (lmdb : Lmdb Ty)

/-- {lit}`Transaction.get`. -/
def txGet (key : Bytes) : TxM Ty (Option Bytes) := fun tx =>
  let tx' := { tx with calls := tx.calls + 1 }
  match lmdb.reply tx.calls with
  | .raises e => (.error e, tx')
  | _ => (.ok (tx.view.get? key), tx')

/-- {lit}`Transaction.put` with {lit}`overwrite=True`. -/
def txPut (key value : Bytes) : TxM Ty Bool := fun tx =>
  let tx' := { tx with calls := tx.calls + 1 }
  if !tx.write then (.error (.foreign (.other "ReadonlyError") "mdb_put"), tx')
  else
    match lmdb.reply tx.calls with
    | .raises e => (.error e, tx')
    | .refuses => (.ok false, tx')
    | .serves => (.ok true, { tx' with view := tx.view.set key value })

/-- {lit}`Transaction.delete`: whether a key was deleted. -/
def txDelete (key : Bytes) : TxM Ty Bool := fun tx =>
  let tx' := { tx with calls := tx.calls + 1 }
  if !tx.write then (.error (.foreign (.other "ReadonlyError") "mdb_del"), tx')
  else
    match lmdb.reply tx.calls with
    | .raises e => (.error e, tx')
    | .refuses => (.ok false, tx')
    | .serves =>
        if tx.view.contains key then (.ok true, { tx' with view := tx.view.erase key })
        else (.ok false, tx')

end Calls

/-! ## The attribute protocol -/

/-- An instance of a record class. -/
structure Record (V Ty : Type) where
  recordType : RecordType V Ty
  recordId : RecordId
  writeable : Bool

namespace Record

variable {V Ty : Type} (packing : Packing V Ty) (lmdb : Lmdb Ty) (record : Record V Ty)

/-- The key of a field of the record. -/
def key (attr : String) : Bytes := storageKey record.recordType.name attr record.recordId

/-- {lit}`__retrieve_raw_record`. -/
def retrieveRawRecord (attr : String) : TxM Ty Bytes := do
  match ← txGet lmdb (record.key attr) with
  | none => throw (.noRecord attr record.recordId)
  | some fieldValue => return fieldValue

/-- {lit}`__write_raw_record`. -/
def writeRawRecord (attr : String) (value : Bytes) : TxM Ty Unit := do
  match ← txPut lmdb (record.key attr) value with
  | false => throw (.couldNotWrite (record.key attr))
  | true => return ()

/-- {lit}`__delete_record`: a key that lmdb did not delete must not be there any more. -/
def deleteRecord (attr : String) : TxM Ty Unit := do
  match ← txDelete lmdb (record.key attr) with
  | true => return ()
  | false =>
      match ← txGet lmdb (record.key attr) with
      | none => return ()
      | some _ => throw (.couldNotDelete (record.key attr))

section Protocol

variable [DecidableEq Ty]

/-- {lit}`__getattr__`, which Python calls for names that ordinary lookup does not find. -/
def getattr (attr : String) : TxM Ty V :=
  if attr.toList.head? = some '_' then throw (.privateAttribute attr)
  else
    match record.recordType.getRecordField attr with
    | .error e => throw e
    | .ok none => throw (.notRecordField attr)
    | .ok (some recordField) => do
        let raw ← record.retrieveRawRecord lmdb attr
        match packing.unpackb raw >>= recordField.decode with
        | .error e => throw e
        | .ok fieldValue =>
            if packing.typeOf fieldValue = recordField.fieldType then return fieldValue
            else throw (.decodedType (packing.typeOf fieldValue) recordField.fieldType)

/-- {lit}`__setattr__`; the value {lit}`None` is {lit}`none`. -/
def setattr (attr : String) (value : Option V) : TxM Ty Unit :=
  if !record.writeable then throw .notWriteable
  else
    match record.recordType.getRecordField attr with
    | .error e => throw e
    | .ok found =>
        match value with
        | none => record.deleteRecord lmdb attr
        | some value =>
            match found with
            | none => throw (.notRecordField attr)
            | some recordField =>
                if packing.typeOf value = recordField.fieldType then
                  match recordField.encode value >>= packing.packb with
                  | .error e => throw e
                  | .ok fieldValue => record.writeRawRecord lmdb attr fieldValue
                else throw (.givenType (packing.typeOf value) recordField.fieldType)

/-- The loop of {lit}`delete` over the attributes of the class body. -/
def deleteFields : List String → TxM Ty Unit
  | [] => pure ()
  | attr :: rest => do
      record.setattr packing lmdb attr none
      deleteFields rest

/-- {lit}`delete`. -/
def delete : TxM Ty Unit := record.deleteFields packing lmdb record.recordType.attrs

end Protocol

/-! ## What each operation does -/

section Specs

variable {lmdb : Lmdb Ty} {packing : Packing V Ty} {record : Record V Ty} {tx tx' : Tx}

/-- The view after a key has been dropped. -/
def Dropped (key : Bytes) (view view' : Dict Bytes Bytes) : Prop :=
  ∀ k, view'.get? k = if k = key then none else view.get? k

/-- The value that an attribute has in a view: the stored bytes of its field decode to it. -/
def Reads (packing : Packing V Ty) (record : Record V Ty) (view : Dict Bytes Bytes)
    (attr : String) (value : V) : Prop :=
  ∃ field raw, record.recordType.field attr = some field ∧
    view.get? (record.key attr) = some raw ∧
    (packing.unpackb raw >>= field.decode) = .ok value ∧
    packing.typeOf value = field.fieldType

/-- A read returns what the view holds or raises. -/
theorem txGet_spec {key : Bytes} {r : Except (Exc Ty) (Option Bytes)}
    (h : (txGet lmdb key).on tx = (r, tx')) :
    tx'.view = tx.view ∧ ∀ value, r = .ok value → value = tx.view.get? key := by
  simp only [TxM.on, txGet] at h
  split at h
  · cases h
    exact ⟨rfl, fun value hvalue => by cases hvalue⟩
  · cases h
    exact ⟨rfl, fun value hvalue => by cases hvalue; rfl⟩

/-- A write is made exactly when lmdb reports so. -/
theorem txPut_spec {key value : Bytes} {r : Except (Exc Ty) Bool}
    (h : (txPut lmdb key value).on tx = (r, tx')) :
    (r = .ok true ∧ tx'.view = tx.view.set key value) ∨ (r ≠ .ok true ∧ tx'.view = tx.view) := by
  simp only [TxM.on, txPut] at h
  split at h
  · cases h
    exact Or.inr ⟨by simp, rfl⟩
  · split at h
    · cases h
      exact Or.inr ⟨by simp, rfl⟩
    · cases h
      exact Or.inr ⟨by simp, rfl⟩
    · cases h
      exact Or.inl ⟨rfl, rfl⟩

theorem txDelete_spec {key : Bytes} {r : Except (Exc Ty) Bool}
    (h : (txDelete lmdb key).on tx = (r, tx')) :
    (r = .ok true ∧ tx'.view = tx.view.erase key) ∨ (r ≠ .ok true ∧ tx'.view = tx.view) := by
  simp only [TxM.on, txDelete] at h
  split at h
  · cases h
    exact Or.inr ⟨by simp, rfl⟩
  · split at h
    · cases h
      exact Or.inr ⟨by simp, rfl⟩
    · cases h
      exact Or.inr ⟨by simp, rfl⟩
    · split at h
      · cases h
        exact Or.inl ⟨rfl, rfl⟩
      · cases h
        exact Or.inr ⟨by simp, rfl⟩

theorem dropped_erase (key : Bytes) (view : Dict Bytes Bytes) :
    Dropped key view (view.erase key) := by
  intro k
  rw [Dict.get?_erase]

theorem dropped_of_get?_eq_none {key : Bytes} {view : Dict Bytes Bytes}
    (h : view.get? key = none) : Dropped key view view := by
  intro k
  by_cases hk : k = key
  · simp [hk, h]
  · simp [hk]

theorem retrieveRawRecord_spec {attr : String} {r : Except (Exc Ty) Bytes}
    (h : (record.retrieveRawRecord lmdb attr).on tx = (r, tx')) :
    tx'.view = tx.view ∧ ∀ raw, r = .ok raw → tx.view.get? (record.key attr) = some raw := by
  rw [retrieveRawRecord, TxM.on_bind] at h
  rcases hget : (txGet lmdb (record.key attr)).on tx with ⟨found, tx₁⟩
  rcases txGet_spec hget with ⟨hview, hfound⟩
  rw [hget] at h
  cases found with
  | error e =>
      cases h
      exact ⟨hview, fun raw hraw => by cases hraw⟩
  | ok stored =>
      have hstored := hfound stored rfl
      cases stored with
      | none =>
          cases h
          exact ⟨hview, fun raw hraw => by cases hraw⟩
      | some raw =>
          cases h
          exact ⟨hview, fun raw' hraw => by cases hraw; exact hstored.symm⟩

theorem writeRawRecord_spec {attr : String} {value : Bytes} {r : Except (Exc Ty) Unit}
    (h : (record.writeRawRecord lmdb attr value).on tx = (r, tx')) :
    (r = .ok () ∧ tx'.view = tx.view.set (record.key attr) value) ∨
      ((∃ e, r = .error e) ∧ tx'.view = tx.view) := by
  rw [writeRawRecord, TxM.on_bind] at h
  rcases hput : (txPut lmdb (record.key attr) value).on tx with ⟨made, tx₁⟩
  rw [hput] at h
  rcases txPut_spec hput with ⟨rfl, hview⟩ | ⟨hmade, hview⟩
  · cases h
    exact Or.inl ⟨rfl, hview⟩
  · cases made with
    | error e =>
        cases h
        exact Or.inr ⟨⟨e, rfl⟩, hview⟩
    | ok made =>
        cases made with
        | true => exact absurd rfl hmade
        | false =>
            cases h
            exact Or.inr ⟨⟨_, rfl⟩, hview⟩

theorem deleteRecord_spec {attr : String} {r : Except (Exc Ty) Unit}
    (h : (record.deleteRecord lmdb attr).on tx = (r, tx')) :
    (r = .ok () ∧ Dropped (record.key attr) tx.view tx'.view) ∨
      ((∃ e, r = .error e) ∧ tx'.view = tx.view) := by
  rw [deleteRecord, TxM.on_bind] at h
  rcases hdel : (txDelete lmdb (record.key attr)).on tx with ⟨made, tx₁⟩
  rw [hdel] at h
  rcases txDelete_spec hdel with ⟨rfl, hview⟩ | ⟨hmade, hview⟩
  · cases h
    exact Or.inl ⟨rfl, hview ▸ dropped_erase _ _⟩
  · cases made with
    | error e =>
        cases h
        exact Or.inr ⟨⟨e, rfl⟩, hview⟩
    | ok made =>
        cases made with
        | true => exact absurd rfl hmade
        | false =>
            -- lmdb reports that nothing was deleted; the second call looks for the key
            simp only [TxM.on_bind] at h
            rcases hget : (txGet lmdb (record.key attr)).on tx₁ with ⟨found, tx₂⟩
            rcases txGet_spec hget with ⟨hview₂, hfound⟩
            rw [hget] at h
            cases found with
            | error e =>
                cases h
                exact Or.inr ⟨⟨e, rfl⟩, hview₂.trans hview⟩
            | ok stored =>
                have hstored := hfound stored rfl
                cases stored with
                | none =>
                    cases h
                    rw [hview₂, hview]
                    exact Or.inl ⟨rfl, dropped_of_get?_eq_none (by rw [← hview, ← hstored])⟩
                | some raw =>
                    cases h
                    exact Or.inr ⟨⟨_, rfl⟩, hview₂.trans hview⟩

/-- A failed read leaves the view and returns no value. -/
theorem reads_of_error {attr : String} {r : Except (Exc Ty) V} {e : Exc Ty} {tx₁ : Tx}
    (hview : tx₁.view = tx.view) (h : (.error e, tx₁) = (r, tx')) :
    tx'.view = tx.view ∧ ∀ value, r = .ok value → Reads packing record tx.view attr value := by
  cases h
  exact ⟨hview, fun value hvalue => by cases hvalue⟩

/-- The attribute names that an assignment accepts have no colon. -/
theorem no_colon_of_getRecordField {T : RecordType V Ty} {attr : String}
    {found : Option (RecordField V Ty)} (h : T.getRecordField attr = .ok found) :
    ':' ∉ attr.toList := by
  unfold RecordType.getRecordField at h
  split at h
  · next field hfield => exact RecordType.no_colon_field hfield
  · split at h
    · next hother =>
        have hname := T.no_colon_others _ hother
        intro hmem
        apply hname
        rw [String.toList_append]
        exact List.mem_append_right _ hmem
    · cases h

variable [DecidableEq Ty]

/-- Reading an attribute changes nothing and returns the stored value. -/
theorem getattr_spec {attr : String} {r : Except (Exc Ty) V}
    (h : (record.getattr packing lmdb attr).on tx = (r, tx')) :
    tx'.view = tx.view ∧ ∀ value, r = .ok value → Reads packing record tx.view attr value := by
  unfold getattr at h
  split at h
  · exact reads_of_error rfl h
  · unfold RecordType.getRecordField at h
    cases hfield : record.recordType.field attr with
    | none =>
        simp only [hfield] at h
        split at h
        · next e he => exact reads_of_error rfl h
        · exact reads_of_error rfl h
        · next field he =>
            split at he
            · cases he
            · cases he
    | some field =>
        simp only [hfield, TxM.on_bind] at h
        rcases hraw : (record.retrieveRawRecord lmdb attr).on tx with ⟨raw, tx₁⟩
        rcases retrieveRawRecord_spec hraw with ⟨hview, hstored⟩
        rw [hraw] at h
        cases raw with
        | error e => exact reads_of_error hview h
        | ok raw =>
            simp only at h
            split at h
            · exact reads_of_error hview h
            · next value hvalue =>
                split at h
                · next htype =>
                    cases h
                    refine ⟨hview, fun value' hok => ?_⟩
                    cases hok
                    exact ⟨field, raw, hfield, hstored raw rfl, hvalue, htype⟩
                · exact reads_of_error hview h

/-- Assigning {lit}`None` drops the key of the field or changes nothing. -/
theorem setattr_none_spec {attr : String} {r : Except (Exc Ty) Unit}
    (h : (record.setattr packing lmdb attr none).on tx = (r, tx')) :
    (r = .ok () ∧ record.writeable = true ∧ ':' ∉ attr.toList ∧
        Dropped (record.key attr) tx.view tx'.view) ∨
      ((∃ e, r = .error e) ∧ tx'.view = tx.view) := by
  unfold setattr at h
  split at h
  · cases h
    exact Or.inr ⟨⟨_, rfl⟩, rfl⟩
  · next hw =>
      have hwriteable : record.writeable = true := by simpa using hw
      split at h
      · cases h
        exact Or.inr ⟨⟨_, rfl⟩, rfl⟩
      · next found hfound =>
          rcases deleteRecord_spec h with ⟨hr, hdropped⟩ | hfailed
          · exact Or.inl ⟨hr, hwriteable, no_colon_of_getRecordField hfound, hdropped⟩
          · exact Or.inr hfailed

/-- Assigning a value stores its encoding or changes nothing. -/
theorem setattr_some_spec {attr : String} {value : V} {r : Except (Exc Ty) Unit}
    (h : (record.setattr packing lmdb attr (some value)).on tx = (r, tx')) :
    (r = .ok () ∧ record.writeable = true ∧
        ∃ field raw, record.recordType.field attr = some field ∧
          packing.typeOf value = field.fieldType ∧
          (field.encode value >>= packing.packb) = .ok raw ∧
          tx'.view = tx.view.set (record.key attr) raw) ∨
      ((∃ e, r = .error e) ∧ tx'.view = tx.view) := by
  unfold setattr at h
  split at h
  · cases h
    exact Or.inr ⟨⟨_, rfl⟩, rfl⟩
  · next hw =>
      have hwriteable : record.writeable = true := by simpa using hw
      unfold RecordType.getRecordField at h
      cases hfield : record.recordType.field attr with
      | none =>
          simp only [hfield] at h
          by_cases hother : record.recordType.others ("_" ++ attr) = true
          · simp only [hother, if_true] at h
            cases h
            exact Or.inr ⟨⟨_, rfl⟩, rfl⟩
          · simp only [hother] at h
            cases h
            exact Or.inr ⟨⟨_, rfl⟩, rfl⟩
      | some field =>
          simp only [hfield] at h
          split at h
          · next htype =>
              split at h
              · cases h
                exact Or.inr ⟨⟨_, rfl⟩, rfl⟩
              · next raw hraw =>
                  rcases writeRawRecord_spec h with ⟨hr, hview⟩ | hfailed
                  · exact Or.inl ⟨hr, hwriteable, field, raw, rfl, htype, hraw, hview⟩
                  · exact Or.inr hfailed
          · cases h
            exact Or.inr ⟨⟨_, rfl⟩, rfl⟩

/-- Deleting a record drops the keys of its attributes in order; it stops at the first
failure, with the earlier ones dropped. -/
theorem deleteFields_spec {attrs : List String} {r : Except (Exc Ty) Unit}
    (h : (record.deleteFields packing lmdb attrs).on tx = (r, tx')) :
    ∃ done, done <+: attrs ∧ (r = .ok () → done = attrs ∧ (done ≠ [] → record.writeable = true)) ∧
      (∀ attr ∈ done, ':' ∉ attr.toList) ∧
      ∀ k, tx'.view.get? k = if k ∈ done.map record.key then none else tx.view.get? k := by
  induction attrs generalizing tx with
  | nil =>
      cases h
      exact ⟨[], List.prefix_rfl, fun _ => ⟨rfl, fun hne => absurd rfl hne⟩, by simp, by simp⟩
  | cons attr rest ih =>
      simp only [deleteFields, TxM.on_bind] at h
      rcases hset : (record.setattr packing lmdb attr none).on tx with ⟨r₁, tx₁⟩
      rw [hset] at h
      rcases setattr_none_spec hset with ⟨rfl, hwriteable, hcolon, hdropped⟩ | ⟨⟨e, rfl⟩, hview⟩
      · rcases ih h with ⟨done, hprefix, hok, hcolons, hviews⟩
        refine ⟨attr :: done, List.prefix_cons_inj attr |>.mpr hprefix, ?_, ?_, ?_⟩
        · intro hr
          exact ⟨by rw [(hok hr).1], fun _ => hwriteable⟩
        · intro a ha
          rcases List.mem_cons.mp ha with rfl | ha
          · exact hcolon
          · exact hcolons a ha
        · intro k
          rw [hviews k, hdropped k]
          by_cases hdone : k ∈ done.map record.key
          · simp [hdone]
          · by_cases hk : k = record.key attr
            · simp [hk]
            · simp only [hdone, hk, List.map_cons, List.mem_cons, or_self, if_false]
      · cases h
        refine ⟨[], List.nil_prefix, ?_, by simp, by simp [hview]⟩
        intro hr
        cases hr

end Specs

end Record

end NuLink
