import NuLinkCore.Datastore.Record

/-!
# Transactions on one record

{lit}`Datastore.describe` opens an lmdb transaction, hands a record of it to its body and
commits when the body ends normally.  A body is a tree: it asks the record for one
operation after another and goes on with the answer, which may be an exception that it
handles.

The abstract store is a map from cells, triples of type, field and canonical id, to
values.  A body performs events on it, and the commit publishes all of them or none.

Main results:

- Theorem {lit}`runBody_performs`: a body performs its events on the abstract map, and each
  of its reads sees the events before it.
- Theorem {lit}`describe_refines`: a use of {lit}`describe` commits the fold of its events or
  leaves the database as it was, and never touches another record.
-/

namespace NuLink

open Collections

/-! ## Bodies -/

/-- What a body may ask of its record. -/
inductive Op (V : Type) where
  | getattr (attr : String)
  | setattr (attr : String) (value : Option V)
  | delete

/-- The body of a {lit}`with` statement, up to its next operation on the record. -/
inductive Body (V Ty : Type) where
  | done
  | raise (e : Exc Ty)
  | op (o : Op V) (next : Except (Exc Ty) (Option V) → Body V Ty)

/-- A body that performs operations in sequence and handles no exception. -/
def Body.sequence {V Ty : Type} : List (Op V) → Body V Ty
  | [] => .done
  | o :: rest =>
      .op o fun
        | .ok _ => sequence rest
        | .error e => .raise e

/-- What callers of {lit}`describe` see when it raises. -/
inductive DescribeError (Ty : Type) where
  | recordNotFound (txErr : Exc Ty)
  | transactionError (txErr : Exc Ty)
  | propagated (e : Exc Ty)
deriving DecidableEq

/-- The {lit}`except` clause of {lit}`describe`. -/
def translate {Ty : Type} (writeable : Bool) (e : Exc Ty) : DescribeError Ty :=
  match e.cls with
  | .attributeError => if writeable then .transactionError e else .recordNotFound e
  | .typeError => .transactionError e
  | .dbWriteError => .transactionError e
  | .other _ => .propagated e

section Describe

variable {V Ty : Type} [DecidableEq Ty] (packing : Packing V Ty) (lmdb : Lmdb Ty)

/-- Performs one operation on a record. -/
def Record.perform (record : Record V Ty) : Op V → TxM Ty (Option V)
  | .getattr attr => do
      let value ← record.getattr packing lmdb attr
      return some value
  | .setattr attr value => do
      record.setattr packing lmdb attr value
      return none
  | .delete => do
      record.delete packing lmdb
      return none

/-- Runs a body against its record. -/
def runBody (record : Record V Ty) : Body V Ty → Tx → Except (Exc Ty) Unit × Tx
  | .done, tx => (.ok (), tx)
  | .raise e, tx => (.error e, tx)
  | .op o next, tx =>
      let (answer, tx') := (record.perform packing lmdb o).on tx
      runBody record (next answer) tx'

/-- {lit}`Datastore.describe` with its body.  The transaction commits when the body ends and
aborts on an exception. -/
def describe (T : RecordType V Ty) (recordId : GivenId) (writeable : Bool) (body : Body V Ty)
    (db : Dict Bytes Bytes) : Except (DescribeError Ty) Unit × Dict Bytes Bytes :=
  match lmdb.begins with
  | some e => (.error (.propagated e), db)
  | none =>
      let record : Record V Ty := ⟨T, recordId.canonical, writeable⟩
      match runBody packing lmdb record body ⟨db, 0, writeable⟩ with
      | (.error e, _) => (.error (translate writeable e), db)
      | (.ok (), tx) =>
          match lmdb.commits with
          | some e => (.error (.propagated e), db)
          | none => (.ok (), tx.view)

/-- Either {lit}`describe` raises and the database is the old one, or the body has ended and
its view is the new database. -/
theorem describe_cases (T : RecordType V Ty) (recordId : GivenId) (writeable : Bool)
    (body : Body V Ty) (db : Dict Bytes Bytes) :
    (∃ e, describe packing lmdb T recordId writeable body db = (.error e, db)) ∨
      ∃ tx, runBody packing lmdb ⟨T, recordId.canonical, writeable⟩ body ⟨db, 0, writeable⟩ =
          (.ok (), tx) ∧
        describe packing lmdb T recordId writeable body db = (.ok (), tx.view) := by
  unfold describe
  cases lmdb.begins with
  | some e => exact Or.inl ⟨_, rfl⟩
  | none =>
      rcases hrun : runBody packing lmdb ⟨T, recordId.canonical, writeable⟩ body
        ⟨db, 0, writeable⟩ with ⟨ending, tx⟩
      cases ending with
      | error e => exact Or.inl ⟨translate writeable e, by simp only [hrun]⟩
      | ok u =>
          cases lmdb.commits with
          | some e => exact Or.inl ⟨.propagated e, by simp only [hrun]⟩
          | none => exact Or.inr ⟨tx, rfl, by simp only [hrun]⟩

end Describe

/-! ## The abstract store -/

/-- A place of the abstract store. -/
structure Cell where
  recordType : String
  recordField : String
  recordId : RecordId
deriving DecidableEq

/-- The abstract store: the value in each cell. -/
abbrev RecordMap (V : Type) := Cell → Option V

/-- A change of one field of a record. -/
inductive Event (V : Type) where
  | wrote (attr : String) (value : V)
  | erased (attr : String)

/-- The field that an event changes. -/
def Event.attr {V : Type} : Event V → String
  | .wrote attr _ => attr
  | .erased attr => attr

/-- What an event leaves in its field. -/
def Event.value {V : Type} : Event V → Option V
  | .wrote _ value => some value
  | .erased _ => none

/-- Applies an event on the record of a type under an id. -/
def RecordMap.apply {V : Type} (recordType : String) (recordId : RecordId) (m : RecordMap V)
    (event : Event V) : RecordMap V :=
  Function.update m ⟨recordType, event.attr, recordId⟩ event.value

/-- Applies events in order. -/
def RecordMap.applyAll {V : Type} (recordType : String) (recordId : RecordId) (m : RecordMap V)
    (events : List (Event V)) : RecordMap V :=
  events.foldl (RecordMap.apply recordType recordId) m

/-- The writes and deletions that an operation stands for. -/
def Op.events {V Ty : Type} (T : RecordType V Ty) : Op V → List (Event V)
  | .getattr _ => []
  | .setattr attr (some value) => [.wrote attr value]
  | .setattr attr none => [.erased attr]
  | .delete => T.attrs.map .erased

section Abstract

variable {V Ty : Type} (packing : Packing V Ty) (record : Record V Ty)

/-- One operation on the abstract map: its answer and its events.  A failed operation has
no event, except that a failed {lit}`delete` may have cleared the first fields. -/
inductive Does (m : RecordMap V) : Op V → Except (Exc Ty) (Option V) → List (Event V) → Prop where
  | read {attr : String} {value : V}
      (hcell : m ⟨record.recordType.name, attr, record.recordId⟩ = some value) :
      Does m (.getattr attr) (.ok (some value)) []
  | write {attr : String} {value : V} {field : RecordField V Ty}
      (hwriteable : record.writeable = true) (hfield : record.recordType.field attr = some field)
      (htype : packing.typeOf value = field.fieldType) :
      Does m (.setattr attr (some value)) (.ok none) [.wrote attr value]
  | erase {attr : String} (hwriteable : record.writeable = true) :
      Does m (.setattr attr none) (.ok none) [.erased attr]
  | delete (hwriteable : record.recordType.attrs ≠ [] → record.writeable = true) :
      Does m .delete (.ok none) (record.recordType.attrs.map .erased)
  | failed {o : Op V} {e : Exc Ty} : Does m o (.error e) []
  | deleteFailed {e : Exc Ty} {cleared : List String}
      (hcleared : cleared <+: record.recordType.attrs) :
      Does m .delete (.error e) (cleared.map .erased)

/-- A whole body on the abstract map: its events and how it ends. -/
inductive Performs : RecordMap V → Body V Ty → List (Event V) → Except (Exc Ty) Unit → Prop where
  | done {m : RecordMap V} : Performs m .done [] (.ok ())
  | raise {m : RecordMap V} {e : Exc Ty} : Performs m (.raise e) [] (.error e)
  | op {m : RecordMap V} {o : Op V} {next : Except (Exc Ty) (Option V) → Body V Ty}
      {answer : Except (Exc Ty) (Option V)} {events later : List (Event V)}
      {ending : Except (Exc Ty) Unit} (hdoes : Does packing record m o answer events)
      (hnext : Performs (m.applyAll record.recordType.name record.recordId events) (next answer)
        later ending) :
      Performs m (.op o next) (events ++ later) ending

/-- A successful operation performs what it stands for. -/
theorem Does.events_eq {m : RecordMap V} {o : Op V} {answer : Option V} {events : List (Event V)}
    (h : Does packing record m o (.ok answer) events) : events = o.events record.recordType := by
  cases h with
  | read hcell => rfl
  | write hwriteable hfield htype => rfl
  | erase hwriteable => rfl
  | delete hwriteable => rfl

/-- A sequence that ends normally performs every one of its writes and deletions. -/
theorem Performs.sequence_events {m : RecordMap V} {ops : List (Op V)} {events : List (Event V)}
    (h : Performs packing record m (Body.sequence ops) events (.ok ())) :
    events = ops.flatMap (Op.events record.recordType) := by
  induction ops generalizing m events with
  | nil =>
      cases h
      rfl
  | cons o rest ih =>
      rw [Body.sequence] at h
      cases h with
      | @op _ _ _ answer evs later _ hdoes hnext =>
          cases answer with
          | error e => cases hnext
          | ok answer =>
              rw [List.flatMap_cons, hdoes.events_eq, ih hnext]

end Abstract

/-! ## Refinement -/

/-- The record classes of a program, one for each name, with codecs that are inverse on the
values of their fields. -/
structure Schema {V Ty : Type} (packing : Packing V Ty) where
  classes : String → Option (RecordType V Ty)
  named : ∀ name T, classes name = some T → T.name = name
  inverse : ∀ name T attr field, classes name = some T → T.field attr = some field →
    field.Inverse packing

/-- The bytes of a field are absent, or they decode to the value of the cell. -/
def Holds {V Ty : Type} (packing : Packing V Ty) (field : RecordField V Ty) :
    Option Bytes → Option V → Prop
  | none, none => True
  | some raw, some value =>
      (packing.unpackb raw >>= field.decode) = .ok value ∧ packing.typeOf value = field.fieldType
  | _, _ => False

/-- The key of a cell. -/
def Cell.key (c : Cell) : Bytes := storageKey c.recordType c.recordField c.recordId

namespace Schema

variable {V Ty : Type} {packing : Packing V Ty}

/-- The declared field of a cell. -/
def field (S : Schema packing) (c : Cell) : Option (RecordField V Ty) :=
  (S.classes c.recordType).bind (fun T => T.field c.recordField)

/-- The abstraction relation: every declared cell holds what its key stores, and no other
cell holds anything. -/
def Represents (S : Schema packing) (db : Dict Bytes Bytes) (m : RecordMap V) : Prop :=
  ∀ c, match S.field c with
    | none => m c = none
    | some field => Holds packing field (db.get? c.key) (m c)

/-- A fresh database is the empty map. -/
theorem represents_empty (S : Schema packing) : S.Represents Dict.empty (fun _ => none) := by
  intro c
  cases S.field c with
  | none => rfl
  | some field => trivial

variable {S : Schema packing}

theorem field_of_class {T : RecordType V Ty} (hT : S.classes T.name = some T) (attr : String)
    (id : RecordId) : S.field ⟨T.name, attr, id⟩ = T.field attr := by
  simp [field, hT]

/-- A declared cell has a key of its own. -/
theorem key_injective {T : RecordType V Ty} {attr : String} {id : RecordId}
    (hattr : ':' ∉ attr.toList) {c : Cell} {field : RecordField V Ty}
    (hc : S.field c = some field) (h : c.key = storageKey T.name attr id) :
    c = ⟨T.name, attr, id⟩ := by
  rcases c with ⟨name, attr', id'⟩
  rcases Option.bind_eq_some_iff.mp hc with ⟨T', hT', hfield⟩
  have hname : ':' ∉ name.toList := S.named name T' hT' ▸ T'.no_colon_name
  rcases storageKey_injective hname T.no_colon_name (RecordType.no_colon_field hfield) hattr h
    with ⟨rfl, rfl, rfl⟩
  rfl

/-- Only finitely many cells hold a value. -/
theorem Represents.finite {db : Dict Bytes Bytes} {m : RecordMap V} (h : S.Represents db m) :
    {c | m c ≠ none}.Finite := by
  have hdeclared : ∀ c, m c ≠ none → ∃ field raw, S.field c = some field ∧
      db.get? c.key = some raw := by
    intro c hc
    have hcell := h c
    cases hfield : S.field c with
    | none =>
        rw [hfield] at hcell
        exact absurd hcell hc
    | some field =>
        rw [hfield] at hcell
        cases hraw : db.get? c.key with
        | some raw => exact ⟨field, raw, rfl, rfl⟩
        | none =>
            cases hvalue : m c with
            | none => exact absurd hvalue hc
            | some value => simp [hraw, hvalue, Holds] at hcell
  apply Set.Finite.of_finite_image (f := Cell.key)
  · apply db.keys.toFinset.finite_toSet.subset
    rintro k ⟨c, hc, rfl⟩
    rcases hdeclared c hc with ⟨field, raw, -, hraw⟩
    simpa using Dict.mem_keys_iff_exists.mpr ⟨raw, hraw⟩
  · intro c hc c' hc' hkey
    rcases hdeclared c hc with ⟨field, raw, hfield, -⟩
    rcases hdeclared c' hc' with ⟨field', raw', hfield', -⟩
    rcases c' with ⟨name, attr, id⟩
    rcases Option.bind_eq_some_iff.mp hfield' with ⟨T, hT, hattr⟩
    have hname : T.name = name := S.named name T hT
    subst hname
    exact key_injective (RecordType.no_colon_field hattr) hfield hkey

/-- Reading a declared cell returns its value. -/
theorem Represents.reads {db : Dict Bytes Bytes} {m : RecordMap V} (h : S.Represents db m)
    {record : Record V Ty} (hT : S.classes record.recordType.name = some record.recordType)
    {attr : String} {value : V} (hreads : record.Reads packing db attr value) :
    m ⟨record.recordType.name, attr, record.recordId⟩ = some value := by
  rcases hreads with ⟨field, raw, hfield, hraw, hdecode, -⟩
  have hcell := h ⟨record.recordType.name, attr, record.recordId⟩
  rw [field_of_class hT, hfield] at hcell
  have hkey : db.get? (Cell.key ⟨record.recordType.name, attr, record.recordId⟩) = some raw := hraw
  rw [hkey] at hcell
  cases hvalue : m ⟨record.recordType.name, attr, record.recordId⟩ with
  | none => simp [hvalue, Holds] at hcell
  | some stored =>
      rw [hvalue] at hcell
      have hok := hcell.1.symm.trans hdecode
      simpa using hok

/-- Storing the encoding of a typed value writes its cell. -/
theorem Represents.set {db : Dict Bytes Bytes} {m : RecordMap V} (h : S.Represents db m)
    {T : RecordType V Ty} (hT : S.classes T.name = some T) {attr : String} {id : RecordId}
    {field : RecordField V Ty} (hfield : T.field attr = some field) {value : V} {raw : Bytes}
    (htype : packing.typeOf value = field.fieldType)
    (hraw : (field.encode value >>= packing.packb) = .ok raw) :
    S.Represents (db.set (storageKey T.name attr id) raw)
      (m.apply T.name id (.wrote attr value)) := by
  intro c
  have hcell := h c
  by_cases hc : c = ⟨T.name, attr, id⟩
  · subst hc
    rw [field_of_class hT, hfield]
    have hinverse := S.inverse T.name T attr field hT hfield value raw htype hraw
    simp only [Cell.key, Dict.get?_set, if_true, RecordMap.apply, Event.attr, Event.value,
      Function.update_self]
    exact ⟨hinverse, htype⟩
  · have hm : m.apply T.name id (.wrote attr value) c = m c := Function.update_of_ne hc _ _
    rw [hm]
    cases hdeclared : S.field c with
    | none =>
        rw [hdeclared] at hcell
        exact hcell
    | some field' =>
        rw [hdeclared] at hcell
        have hkey : c.key ≠ storageKey T.name attr id := fun hkey =>
          hc (key_injective (RecordType.no_colon_field hfield) hdeclared hkey)
        simp only [Dict.get?_set, hkey, if_false]
        exact hcell

end Schema

/-- What erasing fields of a record leaves. -/
theorem RecordMap.applyAll_erased {V : Type} (name : String) (id : RecordId) (attrs : List String)
    (m : RecordMap V) (c : Cell) :
    m.applyAll name id (attrs.map .erased) c =
      if c.recordType = name ∧ c.recordField ∈ attrs ∧ c.recordId = id then none else m c := by
  induction attrs generalizing m with
  | nil => simp [RecordMap.applyAll]
  | cons attr rest ih =>
      have hstep : m.applyAll name id ((attr :: rest).map .erased) =
          (m.apply name id (.erased attr)).applyAll name id (rest.map .erased) := rfl
      rw [hstep, ih]
      rcases c with ⟨name', attr', id'⟩
      by_cases hc : (⟨name', attr', id'⟩ : Cell) = ⟨name, attr, id⟩
      · rw [Cell.mk.injEq] at hc
        rcases hc with ⟨rfl, rfl, rfl⟩
        simp [RecordMap.apply, Event.attr, Event.value]
      · have hm : m.apply name id (.erased attr) ⟨name', attr', id'⟩ = m ⟨name', attr', id'⟩ :=
          Function.update_of_ne hc _ _
        rw [hm]
        rw [Cell.mk.injEq] at hc
        by_cases hcond : name' = name ∧ attr' ∈ rest ∧ id' = id
        · simp [hcond]
        · have hcond' : ¬ (name' = name ∧ attr' ∈ attr :: rest ∧ id' = id) := by
            rintro ⟨hname, hmem, hid⟩
            rcases List.mem_cons.mp hmem with hattr | hmem
            · exact hc ⟨hname, hattr, hid⟩
            · exact hcond ⟨hname, hmem, hid⟩
          simp only [hcond, hcond', if_false]

/-- Events on one record leave the cells of every other type and id. -/
theorem RecordMap.applyAll_of_ne {V : Type} {name : String} {id : RecordId}
    (events : List (Event V)) (m : RecordMap V) {c : Cell}
    (hc : (c.recordType, c.recordId) ≠ (name, id)) : m.applyAll name id events c = m c := by
  induction events generalizing m with
  | nil => rfl
  | cons event rest ih =>
      have hcell : c ≠ ⟨name, event.attr, id⟩ := by
        rintro rfl
        exact hc rfl
      calc m.applyAll name id (event :: rest) c
          = (m.apply name id event).applyAll name id rest c := rfl
        _ = m.apply name id event c := ih _
        _ = m c := Function.update_of_ne hcell _ _

/-- Dropping the keys of attributes erases their cells. -/
theorem Schema.Represents.drop {V Ty : Type} {packing : Packing V Ty} {S : Schema packing}
    {db db' : Dict Bytes Bytes} {m : RecordMap V} (h : S.Represents db m) {T : RecordType V Ty}
    {id : RecordId} {attrs : List String} (hattrs : ∀ attr ∈ attrs, ':' ∉ attr.toList)
    (hdb : ∀ k, db'.get? k = if k ∈ attrs.map (fun attr => storageKey T.name attr id) then none
      else db.get? k) :
    S.Represents db' (m.applyAll T.name id (attrs.map .erased)) := by
  intro c
  have hcell := h c
  rw [RecordMap.applyAll_erased]
  cases hfield : S.field c with
  | none =>
      rw [hfield] at hcell
      simp only at hcell ⊢
      rw [hcell]
      exact ite_self none
  | some field =>
      rw [hfield] at hcell
      have hmem : c.key ∈ attrs.map (fun attr => storageKey T.name attr id) ↔
          c.recordType = T.name ∧ c.recordField ∈ attrs ∧ c.recordId = id := by
        constructor
        · intro hkey
          rcases List.mem_map.mp hkey with ⟨attr, hattr, hkey⟩
          have hc := Schema.key_injective (hattrs attr hattr) hfield hkey.symm
          subst hc
          exact ⟨rfl, hattr, rfl⟩
        · rintro ⟨hname, hattr, hid⟩
          exact List.mem_map.mpr ⟨c.recordField, hattr, by rw [Cell.key, hname, hid]⟩
      by_cases hc : c.recordType = T.name ∧ c.recordField ∈ attrs ∧ c.recordId = id
      · simp only [hdb, hmem, hc, and_self, if_true]
        trivial
      · simp only [hdb, hmem, hc, if_false]
        exact hcell

section Refinement

variable {V Ty : Type} [DecidableEq Ty] {packing : Packing V Ty} {lmdb : Lmdb Ty}
  {S : Schema packing} {record : Record V Ty} {m : RecordMap V} {tx tx' : Tx}

/-- Views that agree on every key outside a record. -/
def Record.Frames (record : Record V Ty) (view view' : Dict Bytes Bytes) : Prop :=
  ∀ k, (∀ attr, k ≠ record.key attr) → view'.get? k = view.get? k

omit [DecidableEq Ty] in
theorem Record.frames_of_eq {view view' : Dict Bytes Bytes} (h : view' = view) :
    record.Frames view view' :=
  fun _ _ => by rw [h]

omit [DecidableEq Ty] in
theorem Record.frames_of_drop {view view' : Dict Bytes Bytes} {attrs : List String}
    (h : ∀ k, view'.get? k = if k ∈ attrs.map record.key then none else view.get? k) :
    record.Frames view view' := by
  intro k hk
  have hnot : k ∉ attrs.map record.key := by
    intro hmem
    rcases List.mem_map.mp hmem with ⟨attr, -, rfl⟩
    exact hk attr rfl
  rw [h k, if_neg hnot]

/-- One operation of the record is one operation on the abstract map. -/
theorem Record.perform_does (hT : S.classes record.recordType.name = some record.recordType)
    (hm : S.Represents tx.view m) {o : Op V} {answer : Except (Exc Ty) (Option V)}
    (h : (record.perform packing lmdb o).on tx = (answer, tx')) :
    record.Frames tx.view tx'.view ∧
      ∃ events, Does packing record m o answer events ∧
        S.Represents tx'.view (m.applyAll record.recordType.name record.recordId events) := by
  cases o with
  | getattr attr =>
      rw [Record.perform, TxM.on_bind] at h
      rcases hget : (record.getattr packing lmdb attr).on tx with ⟨r, tx₁⟩
      rcases Record.getattr_spec hget with ⟨hview, hreads⟩
      rw [hget] at h
      cases r with
      | error e =>
          cases h
          exact ⟨Record.frames_of_eq hview, [], .failed, hview ▸ hm⟩
      | ok value =>
          cases h
          exact ⟨Record.frames_of_eq hview, [], .read (hm.reads hT (hreads value rfl)),
            hview ▸ hm⟩
  | setattr attr value =>
      rw [Record.perform, TxM.on_bind] at h
      rcases hset : (record.setattr packing lmdb attr value).on tx with ⟨r, tx₁⟩
      rw [hset] at h
      cases value with
      | none =>
          rcases Record.setattr_none_spec hset with
            ⟨rfl, hwriteable, hcolon, hdropped⟩ | ⟨⟨e, rfl⟩, hview⟩
          · cases h
            have hdb : ∀ k, tx'.view.get? k =
                if k ∈ [attr].map record.key then none else tx.view.get? k := by
              intro k
              rw [hdropped k]
              simp
            have hcolons : ∀ a ∈ [attr], ':' ∉ a.toList := by simpa using hcolon
            exact ⟨Record.frames_of_drop hdb, [.erased attr], .erase hwriteable,
              hm.drop hcolons hdb⟩
          · cases h
            exact ⟨Record.frames_of_eq hview, [], .failed, hview ▸ hm⟩
      | some value =>
          rcases Record.setattr_some_spec hset with
            ⟨rfl, hwriteable, field, raw, hfield, htype, hraw, hview⟩ | ⟨⟨e, rfl⟩, hview⟩
          · cases h
            refine ⟨?_, [.wrote attr value], .write hwriteable hfield htype, ?_⟩
            · intro k hk
              rw [hview, Dict.get?_set, if_neg (hk attr)]
            · rw [hview]
              exact hm.set hT hfield htype hraw
          · cases h
            exact ⟨Record.frames_of_eq hview, [], .failed, hview ▸ hm⟩
  | delete =>
      rw [Record.perform, TxM.on_bind] at h
      rcases hdel : (record.delete packing lmdb).on tx with ⟨r, tx₁⟩
      rcases Record.deleteFields_spec hdel with ⟨cleared, hcleared, hok, hcolons, hdb⟩
      rw [hdel] at h
      cases r with
      | error e =>
          cases h
          exact ⟨Record.frames_of_drop hdb, cleared.map .erased, .deleteFailed hcleared,
            hm.drop hcolons hdb⟩
      | ok u =>
          cases h
          rcases hok rfl with ⟨rfl, hwriteable⟩
          exact ⟨Record.frames_of_drop hdb, _, .delete hwriteable, hm.drop hcolons hdb⟩

/-- A body performs its events on the abstract map, one operation after another. -/
theorem runBody_performs (hT : S.classes record.recordType.name = some record.recordType)
    (hm : S.Represents tx.view m) {body : Body V Ty} {ending : Except (Exc Ty) Unit}
    (h : runBody packing lmdb record body tx = (ending, tx')) :
    record.Frames tx.view tx'.view ∧
      ∃ events, Performs packing record m body events ending ∧
        S.Represents tx'.view (m.applyAll record.recordType.name record.recordId events) := by
  induction body generalizing m tx with
  | done =>
      cases h
      exact ⟨Record.frames_of_eq rfl, [], .done, hm⟩
  | raise e =>
      cases h
      exact ⟨Record.frames_of_eq rfl, [], .raise, hm⟩
  | op o next ih =>
      rw [runBody] at h
      rcases hop : (record.perform packing lmdb o).on tx with ⟨answer, tx₁⟩
      rw [hop] at h
      rcases Record.perform_does hT hm hop with ⟨hframe, events, hdoes, hm₁⟩
      rcases ih answer hm₁ h with ⟨hframe', later, hperforms, hm'⟩
      refine ⟨fun k hk => (hframe' k hk).trans (hframe k hk), events ++ later,
        .op hdoes hperforms, ?_⟩
      rw [RecordMap.applyAll, List.foldl_append]
      exact hm'

end Refinement

/-- A use of {lit}`describe` ends normally and commits exactly the fold of the writes and
deletions of its body, or raises and leaves the database as it was.  Reads see the earlier
events of their body, and the keys of every other record are left alone. -/
theorem describe_refines {V Ty : Type} [DecidableEq Ty] {packing : Packing V Ty}
    (S : Schema packing) (lmdb : Lmdb Ty) {T : RecordType V Ty}
    (hT : S.classes T.name = some T) (recordId : GivenId) (writeable : Bool) (body : Body V Ty)
    (db : Dict Bytes Bytes) (m : RecordMap V) (hm : S.Represents db m) :
    let id := recordId.canonical
    let result := describe packing lmdb T recordId writeable body db
    let record : Record V Ty := ⟨T, id, writeable⟩
    ((result.1 = .ok () ∧ ∃ events, Performs packing record m body events (.ok ()) ∧
        S.Represents result.2 (m.applyAll T.name id events) ∧
        (∀ ops, body = Body.sequence ops → events = ops.flatMap (Op.events T)) ∧
        ∀ c : Cell, (c.recordType, c.recordId) ≠ (T.name, id) →
          m.applyAll T.name id events c = m c) ∨
      ((∃ e, result.1 = .error e) ∧ result.2 = db ∧
        (lmdb.begins = none → ∃ events ending, Performs packing record m body events ending))) ∧
      ∀ k, (∀ attr, k ≠ storageKey T.name attr id) → result.2.get? k = db.get? k := by
  intro id result record
  rcases describe_cases packing lmdb T recordId writeable body db with
    ⟨e, hresult⟩ | ⟨tx, hrun, hresult⟩
  · have hwhole : result = (.error e, db) := hresult
    rw [hwhole]
    refine ⟨Or.inr ⟨⟨e, rfl⟩, rfl, ?_⟩, fun _ _ => rfl⟩
    intro _
    rcases hrun : runBody packing lmdb record body ⟨db, 0, writeable⟩ with ⟨ending, tx⟩
    have hview : S.Represents (Tx.mk db 0 writeable).view m := hm
    rcases runBody_performs hT hview hrun with ⟨-, events, hperforms, -⟩
    exact ⟨events, ending, hperforms⟩
  · have hwhole : result = (.ok (), tx.view) := hresult
    have hview : S.Represents (Tx.mk db 0 writeable).view m := hm
    rcases runBody_performs hT hview hrun with ⟨hframe, events, hperforms, hm'⟩
    rw [hwhole]
    refine ⟨Or.inl ⟨rfl, events, hperforms, hm', ?_, ?_⟩, hframe⟩
    · intro ops hops
      subst hops
      exact hperforms.sequence_events
    · intro c hc
      exact RecordMap.applyAll_of_ne events m hc

/-! ## A small schema -/

/-- Small naturals as msgpack packs them, one byte each. -/
def natPacking : Packing Nat String where
  typeOf _ := "int"
  packb n := if n < 128 then .ok [UInt8.ofNat n] else .error (.foreign (.other "OverflowError") "")
  unpackb
    | [b] => .ok b.toNat
    | _ => .error (.foreign (.other "ExtraData") "")

theorem natPacking_inverse (field : RecordField Nat String) (hencode : field.encode = Except.ok)
    (hdecode : field.decode = Except.ok) : field.Inverse natPacking := by
  intro n raw htype hraw
  rw [hencode] at hraw
  rw [hdecode]
  have hpack : natPacking.packb n = .ok raw := hraw
  simp only [natPacking] at hpack
  split at hpack
  · next hn =>
      cases hpack
      show Except.ok (UInt8.ofNat n).toNat = Except.ok n
      rw [UInt8.toNat_ofNat_of_lt' (by simpa using hn.trans (by norm_num))]
  · cases hpack

/-- The names of {lit}`DatastoreRecord` itself. -/
def datastoreRecordNames : List String :=
  ["delete", "_record_id", "_DatastoreRecord__writeable", "_DatastoreRecord__storagekey",
    "_DatastoreRecord__db_transaction"]

/-- A record class with the integer fields {lit}`f` and {lit}`f2`. -/
def testRecord : RecordType Nat String where
  name := "TestRecord"
  classVars := Dict.ofList [("_f", { fieldType := "int" }), ("_f2", { fieldType := "int" })]
  others := fun name => decide (name ∈ datastoreRecordNames)
  name_ne := by decide
  no_colon_name := by decide
  no_colon_classVars := by decide
  no_colon_others := by
    have hall : ∀ other ∈ datastoreRecordNames, ':' ∉ other.toList := by decide
    intro other hother
    exact hall other (of_decide_eq_true hother)
  not_others := by decide
  not_found := by decide

/-- The schema of that class alone. -/
def testSchema : Schema natPacking where
  classes name := if name = "TestRecord" then some testRecord else none
  named := by
    intro name T hT
    split at hT
    · next hname =>
        cases hT
        exact hname.symm
    · cases hT
  inverse := by
    intro name T attr field hT hfield
    split at hT
    · cases hT
      have hmem := Dict.mem_entries_iff.mpr hfield
      rcases List.mem_cons.mp hmem with he | hmem
      · rcases Prod.mk.inj he with ⟨-, rfl⟩
        exact natPacking_inverse _ rfl rfl
      · rcases Prod.mk.inj (List.mem_singleton.mp hmem) with ⟨-, rfl⟩
        exact natPacking_inverse _ rfl rfl
    · cases hT

/-- A body that writes both fields, reads one of them and deletes the other one. -/
def testOps : List (Op Nat) :=
  [.setattr "f" (some 5), .setattr "f2" (some 7), .getattr "f", .setattr "f2" none]

theorem describe_testOps :
    (describe natPacking {} testRecord (.str "007") true (Body.sequence testOps) Dict.empty).1 =
      .ok () ∧
    testSchema.Represents
      (describe natPacking {} testRecord (.str "007") true (Body.sequence testOps) Dict.empty).2
      (RecordMap.applyAll "TestRecord" (.int 7) (fun _ => none)
        [.wrote "f" 5, .wrote "f2" 7, .erased "f2"]) := by
  have hrefines := describe_refines (T := testRecord) testSchema {} rfl (.str "007") true
    (Body.sequence testOps) Dict.empty (fun _ => none) testSchema.represents_empty
  have hok : (describe natPacking {} testRecord (.str "007") true (Body.sequence testOps)
      Dict.empty).1 = .ok () := by rfl
  have hid : (GivenId.str "007").canonical = .int 7 := by decide
  rcases hrefines with ⟨⟨-, events, -, hrep, hseq, -⟩ | ⟨⟨e, he⟩, -⟩, -⟩
  · refine ⟨hok, ?_⟩
    rw [hseq testOps rfl, hid] at hrep
    exact hrep
  · rw [hok] at he
    cases he

end NuLink
