import NuLinkCore.Datastore.Describe

/-!
# Databases written through the datastore

The databases that any uses of {lit}`Datastore.describe` produce, with ids that have no
colon.  They hold the keys of declared fields only, and each represents an abstract map.

Main results:

- Theorem {lit}`describe_adds`: a use of {lit}`describe` adds keys of declared fields only.
- Theorem {lit}`Written.wellKeyed`: every key is that of a declared cell.
- Theorem {lit}`Written.exists_represents`: every such database represents an abstract map.
- Theorem {lit}`WellKeyed.key_mem_iff`: a plain cell is stored exactly when it has a value.
-/

namespace NuLink

open Collections Numerals

/-- A cell whose names and id have no colon. -/
structure Cell.Plain (c : Cell) : Prop where
  recordType : ':' ∉ c.recordType.toList
  recordField : ':' ∉ c.recordField.toList
  recordId : ':' ∉ c.recordId.text.toList

/-- A record id that has no colon. -/
def GivenId.Plain : GivenId → Prop
  | .int _ => True
  | .str s => ':' ∉ s.toList

theorem GivenId.Plain.text {recordId : GivenId} (h : recordId.Plain) :
    ':' ∉ recordId.canonical.text.toList := by
  cases recordId with
  | int n => exact colon_not_mem_printInt n
  | str s =>
      simp only [GivenId.canonical]
      cases hread : readInt s with
      | some n =>
          rw [RecordId.ofText_of_readInt hread]
          exact colon_not_mem_printInt n
      | none =>
          rw [RecordId.ofText_of_not_readInt hread]
          exact h

section Written

variable {V Ty : Type} [DecidableEq Ty] {packing : Packing V Ty}

/-- The databases that uses of {lit}`describe` produce from a fresh one, with any faults of
lmdb on the way. -/
inductive Written (S : Schema packing) : Dict Bytes Bytes → Prop where
  | fresh : Written S Dict.empty
  | describe {db : Dict Bytes Bytes} (h : Written S db) (lmdb : Lmdb Ty) {T : RecordType V Ty}
      (hT : S.classes T.name = some T) {recordId : GivenId} (hid : recordId.Plain)
      (writeable : Bool) (body : Body V Ty) :
      Written S (describe packing lmdb T recordId writeable body db).2

/-- Every key of the database is that of a declared cell without colons. -/
def WellKeyed (S : Schema packing) (db : Dict Bytes Bytes) : Prop :=
  ∀ k ∈ db.keys, ∃ c : Cell, c.Plain ∧ (S.field c).isSome = true ∧ k = c.key

variable {lmdb : Lmdb Ty} {S : Schema packing} {record : Record V Ty} {tx tx' : Tx}

omit [DecidableEq Ty] in
theorem WellKeyed.exists_cell {db : Dict Bytes Bytes} (h : WellKeyed S db) :
    ∀ k ∈ db.keys, ∃ c : Cell, c.Plain ∧ k = c.key := by
  intro k hk
  rcases h k hk with ⟨c, hc, -, hkey⟩
  exact ⟨c, hc, hkey⟩

/-! ## The keys that bodies write -/

/-- The keys of a database are those of an older one, or those of declared fields of a record. -/
def Record.Adds (record : Record V Ty) (view view' : Dict Bytes Bytes) : Prop :=
  ∀ k ∈ view'.keys, k ∈ view.keys ∨
    ∃ attr field, record.recordType.field attr = some field ∧ k = record.key attr

omit [DecidableEq Ty] in
theorem Record.adds_of_eq {view view' : Dict Bytes Bytes} (h : view' = view) :
    record.Adds view view' := by
  intro k hk
  exact Or.inl (h ▸ hk)

omit [DecidableEq Ty] in
theorem Record.adds_of_drop {view view' : Dict Bytes Bytes} {dropped : List Bytes}
    (h : ∀ k, view'.get? k = if k ∈ dropped then none else view.get? k) :
    record.Adds view view' := by
  intro k hk
  rcases Dict.mem_keys_iff_exists.mp hk with ⟨raw, hraw⟩
  rw [h k] at hraw
  split at hraw
  · cases hraw
  · exact Or.inl (Dict.mem_keys_iff_exists.mpr ⟨raw, hraw⟩)

omit [DecidableEq Ty] in
theorem Record.Adds.trans {view view' view'' : Dict Bytes Bytes} (h : record.Adds view view')
    (h' : record.Adds view' view'') : record.Adds view view'' := by
  intro k hk
  rcases h' k hk with hold | hadded
  · exact h k hold
  · exact Or.inr hadded

/-- Operations write keys of declared fields only. -/
theorem Record.perform_adds {o : Op V} {answer : Except (Exc Ty) (Option V)}
    (h : (record.perform packing lmdb o).on tx = (answer, tx')) :
    record.Adds tx.view tx'.view := by
  cases o with
  | getattr attr =>
      rw [Record.perform, TxM.on_bind] at h
      rcases hget : (record.getattr packing lmdb attr).on tx with ⟨r, tx₁⟩
      rw [hget] at h
      have hview := (Record.getattr_spec hget).1
      cases r <;> cases h <;> exact Record.adds_of_eq hview
  | setattr attr value =>
      rw [Record.perform, TxM.on_bind] at h
      rcases hset : (record.setattr packing lmdb attr value).on tx with ⟨r, tx₁⟩
      rw [hset] at h
      cases value with
      | none =>
          rcases Record.setattr_none_spec hset with ⟨rfl, -, -, hdropped⟩ | ⟨⟨e, rfl⟩, hview⟩
          · cases h
            have hdb : ∀ k, tx'.view.get? k =
                if k ∈ [record.key attr] then none else tx.view.get? k := by
              intro k
              rw [hdropped k]
              simp
            exact Record.adds_of_drop hdb
          · cases h
            exact Record.adds_of_eq hview
      | some value =>
          rcases Record.setattr_some_spec hset with
            ⟨rfl, -, field, raw, hfield, -, -, hview⟩ | ⟨⟨e, rfl⟩, hview⟩
          · cases h
            intro k hk
            rw [hview] at hk
            rcases Dict.mem_keys_set.mp hk with rfl | hk
            · exact Or.inr ⟨attr, field, hfield, rfl⟩
            · exact Or.inl hk
          · cases h
            exact Record.adds_of_eq hview
  | delete =>
      rw [Record.perform, TxM.on_bind] at h
      rcases hdel : (record.delete packing lmdb).on tx with ⟨r, tx₁⟩
      rcases Record.deleteFields_spec hdel with ⟨cleared, -, -, -, hdb⟩
      rw [hdel] at h
      cases r <;> cases h <;> exact Record.adds_of_drop hdb

/-- So do bodies. -/
theorem runBody_adds {body : Body V Ty} {ending : Except (Exc Ty) Unit}
    (h : runBody packing lmdb record body tx = (ending, tx')) : record.Adds tx.view tx'.view := by
  induction body generalizing tx with
  | done =>
      cases h
      exact Record.adds_of_eq rfl
  | raise e =>
      cases h
      exact Record.adds_of_eq rfl
  | op o next ih =>
      rw [runBody] at h
      rcases hop : (record.perform packing lmdb o).on tx with ⟨answer, tx₁⟩
      rw [hop] at h
      exact (Record.perform_adds hop).trans (ih answer h)

/-- So does {lit}`describe`. -/
theorem describe_adds (lmdb : Lmdb Ty) (T : RecordType V Ty) (recordId : GivenId)
    (writeable : Bool) (body : Body V Ty) (db : Dict Bytes Bytes) :
    Record.Adds ⟨T, recordId.canonical, writeable⟩ db
      (describe packing lmdb T recordId writeable body db).2 := by
  rcases describe_cases packing lmdb T recordId writeable body db with
    ⟨e, hresult⟩ | ⟨tx, hrun, hresult⟩
  · rw [hresult]
    exact Record.adds_of_eq rfl
  · rw [hresult]
    exact runBody_adds hrun

/-- A database that represents an abstract map still does after {lit}`describe`. -/
theorem describe_represents (lmdb : Lmdb Ty) {T : RecordType V Ty}
    (hT : S.classes T.name = some T) (recordId : GivenId) (writeable : Bool) (body : Body V Ty)
    {db : Dict Bytes Bytes} {m : RecordMap V} (hm : S.Represents db m) :
    ∃ m', S.Represents (describe packing lmdb T recordId writeable body db).2 m' := by
  rcases describe_cases packing lmdb T recordId writeable body db with
    ⟨e, hresult⟩ | ⟨tx, hrun, hresult⟩
  · rw [hresult]
    exact ⟨m, hm⟩
  · have hview : S.Represents (Tx.mk db 0 writeable).view m := hm
    rcases runBody_performs hT hview hrun with ⟨-, events, -, hm'⟩
    rw [hresult]
    exact ⟨_, hm'⟩

/-! ## Databases with plain ids -/

/-- Every database written through {lit}`describe` has the keys of declared cells only. -/
theorem Written.wellKeyed {db : Dict Bytes Bytes} (h : Written S db) : WellKeyed S db := by
  induction h with
  | fresh =>
      intro k hk
      cases hk
  | @describe db hdb lmdb T hT recordId hid writeable body ih =>
      intro k hk
      rcases describe_adds lmdb T recordId writeable body db k hk with
        hold | ⟨attr, field, hfield, rfl⟩
      · exact ih k hold
      · refine ⟨⟨T.name, attr, recordId.canonical⟩, ?_, ?_, rfl⟩
        · exact ⟨T.no_colon_name, RecordType.no_colon_field hfield, hid.text⟩
        · have hdeclared : T.field attr = some field := hfield
          rw [Schema.field_of_class hT, hdeclared]
          rfl

/-- Every such database represents an abstract map. -/
theorem Written.exists_represents {db : Dict Bytes Bytes} (h : Written S db) :
    ∃ m, S.Represents db m := by
  induction h with
  | fresh => exact ⟨_, S.represents_empty⟩
  | @describe db hdb lmdb T hT recordId hid writeable body ih =>
      rcases ih with ⟨m, hm⟩
      exact describe_represents lmdb hT recordId writeable body hm

omit [DecidableEq Ty] in
/-- In a well-keyed database, the cells with a value are the plain declared ones that are
stored. -/
theorem Schema.Represents.stored_iff {db : Dict Bytes Bytes} {m : RecordMap V}
    (hm : S.Represents db m) {c : Cell} :
    (∃ value, m c = some value) ↔ c.key ∈ db.keys ∧ (S.field c).isSome = true := by
  have hcell := hm c
  cases hfield : S.field c with
  | none =>
      rw [hfield] at hcell
      simp [hcell]
  | some field =>
      rw [hfield] at hcell
      cases hraw : db.get? c.key with
      | none =>
          have hnot : c.key ∉ db.keys := Dict.get?_eq_none_iff.mp hraw
          cases hvalue : m c with
          | none => simp [hnot]
          | some value => simp [hraw, hvalue, Holds] at hcell
      | some raw =>
          have hmem : c.key ∈ db.keys := Dict.mem_keys_iff_exists.mpr ⟨raw, hraw⟩
          cases hvalue : m c with
          | none => simp [hraw, hvalue, Holds] at hcell
          | some value => simp [hmem]

omit [DecidableEq Ty] in
theorem WellKeyed.plain {db : Dict Bytes Bytes} (hkeyed : WellKeyed S db) {m : RecordMap V}
    (hm : S.Represents db m) {c : Cell} {value : V} (hc : m c = some value) : c.Plain := by
  rcases hm.stored_iff.mp ⟨value, hc⟩ with ⟨hkey, hfield⟩
  rcases hkeyed c.key hkey with ⟨c', hplain, -, hkeys⟩
  rcases Option.isSome_iff_exists.mp hfield with ⟨field, hfield⟩
  rcases Option.bind_eq_some_iff.mp hfield with ⟨T, hT, hattr⟩
  have hname : ':' ∉ c.recordType.toList := S.named _ T hT ▸ T.no_colon_name
  rcases storageKey_injective hname hplain.recordType (RecordType.no_colon_field hattr)
    hplain.recordField hkeys with ⟨htype, hrecordField, hid⟩
  exact ⟨htype ▸ hplain.recordType, hrecordField ▸ hplain.recordField, hid ▸ hplain.recordId⟩

omit [DecidableEq Ty] in
/-- A plain cell is stored exactly when it has a value. -/
theorem WellKeyed.key_mem_iff {db : Dict Bytes Bytes} (hkeyed : WellKeyed S db) {m : RecordMap V}
    (hm : S.Represents db m) {c : Cell} (hc : c.Plain) :
    c.key ∈ db.keys ↔ ∃ value, m c = some value := by
  rw [hm.stored_iff]
  constructor
  · intro hkey
    rcases hkeyed c.key hkey with ⟨c', hc', hfield, hkeys⟩
    rcases storageKey_injective hc.recordType hc'.recordType hc.recordField hc'.recordField hkeys
      with ⟨htype, hrecordField, hid⟩
    have hcells : c = c' := by
      rcases c with ⟨type, field, id⟩
      rcases c' with ⟨type', field', id'⟩
      simp only at htype hrecordField hid
      rw [htype, hrecordField, hid]
    exact ⟨hkey, hcells ▸ hfield⟩
  · exact And.left

end Written

end NuLink
