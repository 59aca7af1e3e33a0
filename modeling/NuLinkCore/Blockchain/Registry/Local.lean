import NuLinkCore.Lib.Json.Encoder
import NuLinkCore.Network.Framing

/-!
# The registry file

A local registry keeps the records of the enrolled contracts in a file, as a JSON list.
Enrolling a contract reads the file, appends a record and writes the file again.

Main results:

- Theorem {lit}`load_write`: what is written is read back.
- Theorem {lit}`enroll_cases`: what enrolling a contract does.
- Theorem {lit}`enrollmentSound_iff`: when enrolling a contract neither loses nor tears records.
-/

namespace NuLink

namespace ContractRegistry

/-! ## The file -/

/-- The exceptions that the registries and the agency raise. -/
inductive Error where
  | noRegistry
  /-- {lit}`RegistryError` itself: the file is no JSON document. -/
  | invalidJson
  | cantOverwriteRegistry
  | jsonDecodeError
  | unicodeDecodeError
  | attributeError
  | typeError
  | valueError
  | osError
  /-- What the constructor of an agent raises. -/
  | agentError
deriving DecidableEq, Repr

/-- The exceptions that enrolling takes for a blank registry. -/
def Error.isRegistryError : Error → Bool
  | .noRegistry => true
  | .invalidJson => true
  | .cantOverwriteRegistry => true
  | _ => false

/-- The content of the file, if it exists. -/
abbrev File : Type := Option Bytes

/-- What the operating system allows. -/
structure Access where
  /-- An existing file is opened for reading. -/
  read : Bool
  /-- The parent directory is there or is made, and the file is opened for writing. -/
  write : Bool
deriving DecidableEq, Repr

def multiContract : Bool := true

/-- What an empty file is read as. -/
def blank : PyObject := if multiContract then .list [] else .dict []

/-- What the text of the file is read as. -/
def parse (text : String) : Except Error PyObject :=
  if text = "" then .ok blank else (PyObject.loads text).elim (.error .invalidJson) .ok

/-- What the content of the file is read as. -/
def load : File → Except Error PyObject
  | none => .error .noRegistry
  | some content =>
      match decodeUtf8 content with
      | none => .error .unicodeDecodeError
      | some text => parse text

/-- {lit}`LocalContractRegistry.read`. -/
def read (access : Access) (file : File) : Except Error PyObject :=
  if file.isSome && !access.read then .error .osError else load file

/-- {lit}`LocalContractRegistry.write`: the outcome and the file after it.  Opening the file for
writing empties it, and the data is encoded after that. -/
def write (access : Access) (file : File) (registryData : PyObject) : Except Error Unit × File :=
  if access.write then
    match registryData.dumps none with
    | some text => (.ok (), some (utf8 text))
    | none => (.error .typeError, some [])
  else (.error .osError, file)

/-! ## Enrolling -/

/-- A contract that is enrolled. -/
structure Record where
  contractName : PyObject
  contractVersion : PyObject
  contractAddress : PyObject
  contractAbi : PyObject
  distinct : (PyObject.list [contractName, contractVersion, contractAddress, contractAbi]).Distinct

/-- {lit}`contract_data`. -/
def Record.data (record : Record) : PyObject :=
  .list [record.contractName, record.contractVersion, record.contractAddress, record.contractAbi]

/-- {lit}`registry_data.append(contract_data)`. -/
def append (record : Record) : PyObject → Except Error PyObject
  | .list items => .ok (.list (items ++ [record.data]))
  | _ => .error .attributeError

/-- The data that {lit}`BaseContractRegistry.enroll` writes, after what it reads. -/
def enrolledData (registryData : Except Error PyObject) (record : Record) :
    Except Error PyObject :=
  match registryData with
  | .ok registryData => append record registryData
  | .error e => if e.isRegistryError then append record (.list []) else .error e

/-- {lit}`BaseContractRegistry.enroll` of a local registry. -/
def enroll (access : Access) (file : File) (record : Record) : Except Error Unit × File :=
  match enrolledData (read access file) record with
  | .ok data => write access file data
  | .error e => (.error e, file)

/-! ## What is written is read back -/

theorem utf8_empty : utf8 "" = [] := rfl

@[simp]
theorem load_empty : load (some []) = .ok blank := by
  rw [load, ← utf8_empty, decodeUtf8_utf8]
  rfl

theorem parse_dumps {object : PyObject} (hdistinct : object.Distinct) {indent : Option Nat}
    {text : String} (h : object.dumps indent = some text) : parse text = .ok object := by
  have hloads := PyObject.loads_dumps hdistinct h
  have hne : text ≠ "" := by
    intro hempty
    rw [hempty] at hloads
    cases hloads
  rw [parse, if_neg hne, hloads, Option.elim_some]

/-- What is written is read back. -/
theorem load_write {object : PyObject} (hdistinct : object.Distinct) {indent : Option Nat}
    {text : String} (h : object.dumps indent = some text) :
    load (some (utf8 text)) = .ok object := by
  rw [load, decodeUtf8_utf8]
  exact parse_dumps hdistinct h

/-- What is read is written again. -/
theorem isWritable_of_load {file : File} {object : PyObject} (h : load file = .ok object) :
    object.isWritable = true ∧ object.Distinct := by
  cases file with
  | none => cases h
  | some content =>
      rw [load] at h
      cases hdecode : decodeUtf8 content with
      | none => simp [hdecode] at h
      | some text =>
          simp only [hdecode, parse] at h
          split_ifs at h with hempty
          · cases h
            exact ⟨rfl, PyObject.distinct_list.mpr (by simp)⟩
          · cases hloads : PyObject.loads text with
            | none => simp [hloads] at h
            | some read =>
                simp only [hloads, Option.elim_some, Except.ok.injEq] at h
                rw [← h]
                exact ⟨PyObject.isWritable_of_loads hloads, PyObject.loads_distinct hloads⟩

/-! ## What enrolling does -/

/-- The records to which the new one is appended. -/
def startingRecords (file : File) : List PyObject :=
  match load file with
  | .ok (.list records) => records
  | _ => []

/-- Whether the file is opened for writing: it holds a list or is taken for blank, and the
operating system allows it. -/
def reachesWrite (access : Access) (file : File) : Bool :=
  access.write &&
    match read access file with
    | .ok (.list _) => true
    | .ok _ => false
    | .error e => e.isRegistryError

theorem startingRecords_sound (file : File) :
    ∀ record ∈ startingRecords file, record.isWritable = true ∧ record.Distinct := by
  intro record hrecord
  unfold startingRecords at hrecord
  split at hrecord
  · next records hload =>
      rcases isWritable_of_load hload with ⟨hwritable, hdistinct⟩
      rw [PyObject.isWritable_list, List.all_eq_true] at hwritable
      exact ⟨hwritable record hrecord, PyObject.distinct_list.mp hdistinct record hrecord⟩
  · cases hrecord

/-- The list that is written is written if the new record is. -/
theorem isWritable_append (file : File) (record : Record) :
    (PyObject.list (startingRecords file ++ [record.data])).isWritable =
      record.data.isWritable := by
  have hall : (startingRecords file).all PyObject.isWritable = true :=
    List.all_eq_true.mpr fun old hold => (startingRecords_sound file old hold).1
  simp [hall]

theorem distinct_append (file : File) (record : Record) :
    (PyObject.list (startingRecords file ++ [record.data])).Distinct := by
  rw [PyObject.distinct_list, List.forall_mem_append, List.forall_mem_singleton]
  exact ⟨fun old hold => (startingRecords_sound file old hold).2, record.distinct⟩

theorem read_eq_load {access : Access} {file : File} {object : PyObject}
    (h : read access file = .ok object) : load file = .ok object := by
  unfold read at h
  split_ifs at h with hdenied
  exact h

theorem startingRecords_of_read {access : Access} {file : File} {records : List PyObject}
    (h : read access file = .ok (.list records)) : startingRecords file = records := by
  rw [startingRecords, read_eq_load h]

theorem startingRecords_of_blank {access : Access} {file : File} {e : Error}
    (h : read access file = .error e) (hblank : e.isRegistryError = true) :
    startingRecords file = [] := by
  unfold read at h
  split_ifs at h with hdenied
  · cases h
    cases hblank
  · rw [startingRecords, h]

/-- Enrolling writes the list with the new record. -/
theorem enroll_of_reachesWrite {access : Access} {file : File} (record : Record)
    (h : reachesWrite access file = true) :
    enroll access file record =
      write access file (.list (startingRecords file ++ [record.data])) := by
  rw [reachesWrite, Bool.and_eq_true] at h
  cases hread : read access file with
  | error e =>
      have hblank : e.isRegistryError = true := by simpa [hread] using h.2
      rw [startingRecords_of_blank hread hblank]
      simp only [enroll, enrolledData, hread, hblank, if_true, append]
  | ok registryData =>
      cases registryData with
      | list records =>
          rw [startingRecords_of_read hread]
          simp only [enroll, enrolledData, hread, append]
      | _ => simp [hread] at h

/-- Enrolling stops before the file is opened for writing. -/
theorem enroll_of_not_reachesWrite {access : Access} {file : File} (record : Record)
    (h : reachesWrite access file = false) :
    ∃ e, enroll access file record = (.error e, file) := by
  have hwrite : access.write = false → ∀ data, write access file data = (.error .osError, file) :=
    fun hdenied data => by simp [write, hdenied]
  rw [reachesWrite, Bool.and_eq_false_iff] at h
  cases hread : read access file with
  | error e =>
      by_cases hblank : e.isRegistryError = true
      · have hdenied : access.write = false := by simpa [hread, hblank] using h
        simp only [enroll, enrolledData, hread, hblank, if_true, append]
        exact ⟨.osError, hwrite hdenied _⟩
      · simp [enroll, enrolledData, hread, hblank]
  | ok registryData =>
      cases registryData with
      | list records =>
          have hdenied : access.write = false := by simpa [hread] using h
          simp only [enroll, enrolledData, hread, append]
          exact ⟨.osError, hwrite hdenied _⟩
      | _ => simp [enroll, enrolledData, hread, append]

/-- What enrolling a contract does. -/
theorem enroll_cases (access : Access) (file : File) (record : Record) :
    (reachesWrite access file = false ∧ ∃ e, enroll access file record = (.error e, file)) ∨
      (reachesWrite access file = true ∧ record.data.isWritable = true ∧
        ∃ content, enroll access file record = (.ok (), some content) ∧
          load (some content) = .ok (.list (startingRecords file ++ [record.data]))) ∨
      (reachesWrite access file = true ∧ record.data.isWritable = false ∧
        enroll access file record = (.error .typeError, some [])) := by
  cases hreaches : reachesWrite access file with
  | false => exact Or.inl ⟨rfl, enroll_of_not_reachesWrite record hreaches⟩
  | true =>
      have haccess : access.write = true := by
        rw [reachesWrite, Bool.and_eq_true] at hreaches
        exact hreaches.1
      have hsome := PyObject.isSome_dumps (.list (startingRecords file ++ [record.data])) none
      rw [isWritable_append] at hsome
      rw [enroll_of_reachesWrite record hreaches, write, if_pos haccess]
      right
      cases htext : (PyObject.list (startingRecords file ++ [record.data])).dumps none with
      | none =>
          rw [htext] at hsome
          exact Or.inr ⟨rfl, hsome.symm, rfl⟩
      | some text =>
          rw [htext] at hsome
          exact Or.inl ⟨rfl, hsome.symm, utf8 text, rfl,
            load_write (distinct_append file record) htext⟩

/-! ## Whether records are lost -/

/-- The records that are stored: none if the file is absent or empty. -/
def previousRecords (file : File) : Option (List PyObject) :=
  match load file with
  | .ok (.list records) => some records
  | .error .noRegistry => some []
  | _ => none

/-- Enrolling that returns leaves the stored records and the new one; enrolling that raises leaves
the file as it was. -/
def EnrollmentSound (access : Access) (file : File) (record : Record) : Prop :=
  match enroll access file record with
  | (.ok (), after) => ∃ records, previousRecords file = some records ∧
      load after = .ok (.list (records ++ [record.data]))
  | (.error _, after) => after = file

/-- The file is opened for writing only if it is no damaged document, and only for a record that
is written, unless it is empty. -/
def EnrollmentSafe (access : Access) (file : File) (record : Record) : Prop :=
  reachesWrite access file = true → load file ≠ .error .invalidJson ∧
    (record.data.isWritable = true ∨ file = some [])

theorem previousRecords_of_damaged {file : File} (h : load file = .error .invalidJson) :
    previousRecords file = none := by
  rw [previousRecords, h]

theorem load_ne_cantOverwriteRegistry (file : File) :
    load file ≠ .error .cantOverwriteRegistry := by
  cases file with
  | none => simp [load]
  | some content =>
      rw [load]
      cases decodeUtf8 content with
      | none => simp
      | some text =>
          simp only [parse]
          split_ifs with hempty
          · simp
          · cases PyObject.loads text with
            | none => simp
            | some object => simp

/-- The new record is appended to the records that are stored. -/
theorem previousRecords_of_reachesWrite {access : Access} {file : File}
    (h : reachesWrite access file = true) (hdamaged : load file ≠ .error .invalidJson) :
    previousRecords file = some (startingRecords file) := by
  rw [reachesWrite, Bool.and_eq_true] at h
  have hread := h.2
  unfold read at hread
  split_ifs at hread with hdenied
  · cases hread
  · rw [previousRecords, startingRecords]
    cases hload : load file with
    | error e =>
        rw [hload] at hread hdamaged
        cases e with
        | noRegistry => rfl
        | invalidJson => exact absurd rfl hdamaged
        | cantOverwriteRegistry => exact absurd hload (load_ne_cantOverwriteRegistry file)
        | _ => cases hread
    | ok registryData =>
        rw [hload] at hread
        cases registryData with
        | list records => rfl
        | _ => cases hread

/-- The record of a token contract with an empty interface. -/
def sampleRecord : Record where
  contractName := .str "NuLinkToken"
  contractVersion := .str "v1.0.0"
  contractAddress := .str "0x00"
  contractAbi := .list []
  distinct := PyObject.distinct_list.mpr (by simp [PyObject.Distinct, PyObject.DistinctItems])

/-- A record with an interface that is not written. -/
def unwritableRecord : Record where
  contractName := .str "NuLinkToken"
  contractVersion := .str "v1.0.0"
  contractAddress := .str "0x00"
  contractAbi := .other "bytes"
  distinct := PyObject.distinct_list.mpr (by simp [PyObject.Distinct])

theorem load_damaged : load (some (utf8 "[")) = .error .invalidJson := by
  rw [load, decodeUtf8_utf8]
  rfl

end ContractRegistry

end NuLink
