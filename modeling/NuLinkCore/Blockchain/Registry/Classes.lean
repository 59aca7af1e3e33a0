import NuLinkCore.Blockchain.Registry.Local
import NuLinkCore.Lib.Dict

/-!
# The classes of registries and the agency

A registry keeps its records in a file, in a temporary file until it is committed, or in memory.
The hash of its contents is its id, which it keeps until its contents are written.  The agency
keeps the agents that it made, under the id of the registry that they were made for.

Paths stand for the files themselves, so that two of them are never the same file.

Main results:

- Theorem {lit}`contents_distinct`: what a registry reads has distinct names.
- Theorem {lit}`contents_update`: what a registry reads after a file was written.
-/

namespace NuLink

namespace ContractRegistry

open Collections

/-! ## Registries -/

/-- Where a registry keeps its records. -/
inductive Backing (Path : Type) where
  /-- {lit}`LocalContractRegistry`. -/
  | localFile (filepath : Path)
  /-- {lit}`TemporaryContractRegistry`: the file path is a string until the registry is committed,
  and the path of the temporary file is gone after that. -/
  | temporary (filepath : Path) (isText : Bool) (tempFilepath : Option Path)
  /-- {lit}`InMemoryContractRegistry`. -/
  | memory (registryData : Option String)

/-- A registry with the id that it keeps. -/
structure Registry (Path Digest : Type) where
  backing : Backing Path
  id : Option Digest

variable {Path Digest : Type}

/-- The file in which a registry keeps its records. -/
def Backing.filepath? : Backing Path → Option Path
  | .localFile filepath => some filepath
  | .temporary filepath _ _ => some filepath
  | .memory _ => none

section Registries

variable (access : Path → Access) (files : Path → File)

/-- What {lit}`read` returns. -/
def contents : Backing Path → Except Error PyObject
  | .localFile filepath => read (access filepath) (files filepath)
  | .temporary filepath _ _ => read (access filepath) (files filepath)
  | .memory none => .ok blank
  | .memory (some text) => (PyObject.loads text).elim (.error .jsonDecodeError) .ok

variable (hash : String → Digest)

/-- The hash of the JSON text of an object. -/
def hashOf (object : PyObject) : Except Error Digest :=
  (object.dumps none).elim (.error .typeError) fun text => .ok (hash text)

/-- The hash of the contents of a registry. -/
def contentHash (backing : Backing Path) : Except Error Digest :=
  match contents access files backing with
  | .ok object => hashOf hash object
  | .error e => .error e

/-- {lit}`BaseContractRegistry.id`. -/
def readId (registry : Registry Path Digest) : Except Error Digest × Registry Path Digest :=
  match registry.id with
  | some digest => (.ok digest, registry)
  | none =>
      match contentHash access files hash registry.backing with
      | .ok digest => (.ok digest, { registry with id := some digest })
      | .error e => (.error e, registry)

/-- What an operation returns, the files and the registry after it. -/
abbrev Outcome (Path Digest : Type) : Type :=
  Except Error Unit × (Path → File) × Registry Path Digest

variable [DecidableEq Path] (registry : Registry Path Digest)

/-- {lit}`LocalContractRegistry.write`: the id is dropped at the end. -/
def writeFile (filepath : Path) (registryData : PyObject) : Outcome Path Digest :=
  match write (access filepath) (files filepath) registryData with
  | (.ok (), content) =>
      (.ok (), Function.update files filepath content, { registry with id := none })
  | (.error e, content) => (.error e, Function.update files filepath content, registry)

/-- {lit}`write`.  A string has no {lit}`parent`, so that a temporary registry is not written
before it is committed. -/
def Registry.write (registryData : PyObject) : Outcome Path Digest :=
  match registry.backing with
  | .localFile filepath => writeFile access files registry filepath registryData
  | .temporary _ true _ => (.error .attributeError, files, registry)
  | .temporary filepath false _ => writeFile access files registry filepath registryData
  | .memory _ =>
      match registryData.dumps none with
      | some text => (.ok (), files, ⟨.memory (some text), none⟩)
      | none => (.error .typeError, files, registry)

/-- {lit}`enroll`. -/
def Registry.enroll (record : Record) : Outcome Path Digest :=
  match enrolledData (contents access files registry.backing) record with
  | .ok data => registry.write access files data
  | .error e => (.error e, files, registry)

/-- Opens a file for writing and writes nothing. -/
def clearFile (filepath : Path) : Except Error Unit × (Path → File) :=
  if (access filepath).write then (.ok (), Function.update files filepath (some []))
  else (.error .osError, files)

/-- {lit}`clear`, which a local registry does not have. -/
def Registry.clear : Outcome Path Digest :=
  match registry.backing with
  | .localFile _ => (.error .attributeError, files, registry)
  | .temporary filepath _ _ =>
      ((clearFile access files filepath).1, (clearFile access files filepath).2, registry)
  | .memory _ => (.ok (), files, { registry with backing := .memory none })

/-- {lit}`shutil.copy`, from the path of the temporary file. -/
def copyFile (tempFilepath : Option Path) (filepath : Path) :
    Except Error Unit × (Path → File) :=
  match tempFilepath with
  | none => (.error .typeError, files)
  | some source =>
      if source = filepath then (.error .osError, files)
      else
        match files source with
        | none => (.error .osError, files)
        | some content =>
            if (access source).read && (access filepath).write then
              (.ok (), Function.update files filepath (some content))
            else (.error .osError, files)

/-- {lit}`commit` of a temporary registry: the file path is swapped first. -/
def commitTemporary (tempFilepath : Option Path) (filepath : Path) : Outcome Path Digest :=
  let swapped : Registry Path Digest :=
    { registry with backing := .temporary filepath false tempFilepath }
  match if (files filepath).isSome then clearFile access files filepath else (.ok (), files) with
  | (.error e, files) => (.error e, files, swapped)
  | (.ok (), files) =>
      match copyFile access files tempFilepath filepath with
      | (.error e, files) => (.error e, files, swapped)
      | (.ok (), files) =>
          (.ok (), files, { registry with backing := .temporary filepath false none })

/-- {lit}`commit` of a registry in memory: the message of the refusal reads both ids. -/
def commitMemory (registryData : Option String) (filepath : Path) (overwrite : Bool) :
    Outcome Path Digest :=
  if (files filepath).isSome && !overwrite then
    match contentHash access files hash (.localFile filepath) with
    | .error e => (.error e, files, registry)
    | .ok _ =>
        match readId access files hash registry with
        | (.error e, registry) => (.error e, files, registry)
        | (.ok _, registry) => (.error .cantOverwriteRegistry, files, registry)
  else if (access filepath).write then
    match registryData with
    | some text => (.ok (), Function.update files filepath (some (utf8 text)), registry)
    | none => (.error .typeError, Function.update files filepath (some []), registry)
  else (.error .osError, files, registry)

/-- {lit}`commit`, which a local registry does not have. -/
def Registry.commit (filepath : Path) (overwrite : Bool) : Outcome Path Digest :=
  match registry.backing with
  | .localFile _ => (.error .attributeError, files, registry)
  | .temporary _ _ tempFilepath => commitTemporary access files registry tempFilepath filepath
  | .memory registryData =>
      commitMemory access files hash registry registryData filepath overwrite

/-- An operation on one registry. -/
inductive Op (Path : Type) where
  | write (registryData : PyObject)
  | enroll (record : Record)
  | clear
  | commit (filepath : Path) (overwrite : Bool)
  | id

/-- Performs an operation. -/
def Registry.perform : Op Path → Outcome Path Digest
  | .write registryData => registry.write access files registryData
  | .enroll record => registry.enroll access files record
  | .clear => registry.clear access files
  | .commit filepath overwrite => registry.commit access files hash filepath overwrite
  | .id =>
      ((readId access files hash registry).1.map fun _ => (), files,
        (readId access files hash registry).2)

end Registries

/-! ## The agency -/

/-- An agent, with what the registry held for which it was made. -/
structure Agent (AgentClass : Type) where
  agentClass : AgentClass
  contents : PyObject

/-- The files, the registries and the agents of a process. -/
structure World (Path Obj AgentClass Digest : Type) where
  files : Path → File
  registries : Obj → Registry Path Digest
  agents : Dict Digest (Dict AgentClass (Agent AgentClass))

/-- An operation, a comparison of two registries, or a request for an agent. -/
inductive Action (Path Obj AgentClass : Type) where
  | on (registry : Obj) (op : Op Path)
  | equal (registry other : Obj)
  | getAgent (agentClass : AgentClass) (registry : Option Obj)

section Agency

variable {Obj AgentClass : Type} [DecidableEq Path] [DecidableEq Obj] [DecidableEq AgentClass]
  [DecidableEq Digest] (access : Path → Access) (hash : String → Digest)
  (constructs : AgentClass → PyObject → Bool)

/-- A process that has just made its registries. -/
def World.start (files : Path → File) (backings : Obj → Backing Path) :
    World Path Obj AgentClass Digest where
  files := files
  registries o := ⟨backings o, none⟩
  agents := Dict.empty

variable (w : World Path Obj AgentClass Digest)

/-- What a registry reads. -/
def World.contents (o : Obj) : Except Error PyObject :=
  ContractRegistry.contents access w.files (w.registries o).backing

/-- The id of a registry, and the world after it was read. -/
def World.id (o : Obj) : Except Error Digest × World Path Obj AgentClass Digest :=
  ((readId access w.files hash (w.registries o)).1,
    { w with
      registries :=
        Function.update w.registries o (readId access w.files hash (w.registries o)).2 })

/-- {lit}`__eq__`. -/
def World.equal (o other : Obj) : Except Error Bool × World Path Obj AgentClass Digest :=
  if o = other then (.ok true, w)
  else
    match w.id access hash o with
    | (.error e, w) => (.error e, w)
    | (.ok digest, w) =>
        match w.id access hash other with
        | (.error e, w) => (.error e, w)
        | (.ok digest', w) => (.ok (digest = digest'), w)

/-- The agent of a class that is kept under an id. -/
def World.cachedAgent (digest : Digest) (agentClass : AgentClass) : Option (Agent AgentClass) :=
  (w.agents.get? digest).bind fun agents => agents.get? agentClass

/-- Makes an agent for a registry and keeps it under an id. -/
def World.makeAgent (agentClass : AgentClass) (digest : Digest) (o : Obj) :
    Except Error (Agent AgentClass) × World Path Obj AgentClass Digest :=
  match w.contents access o with
  | .error e => (.error e, w)
  | .ok object =>
      if constructs agentClass object then
        let agents := ((w.agents.get? digest).getD Dict.empty).set agentClass ⟨agentClass, object⟩
        (.ok ⟨agentClass, object⟩, { w with agents := w.agents.set digest agents })
      else (.error .agentError, w)

/-- {lit}`ContractAgency.get_agent`.  Without a registry, the only id that is known is taken, and
no agent can be made. -/
def World.getAgent (agentClass : AgentClass) (registry : Option Obj) :
    Except Error (Agent AgentClass) × World Path Obj AgentClass Digest :=
  match registry with
  | none =>
      match w.agents.keys with
      | [digest] => ((w.cachedAgent digest agentClass).elim (.error .attributeError) .ok, w)
      | _ => (.error .valueError, w)
  | some o =>
      match w.id access hash o with
      | (.error e, w) => (.error e, w)
      | (.ok digest, w) =>
          match w.cachedAgent digest agentClass with
          | some agent => (.ok agent, w)
          | none => w.makeAgent access constructs agentClass digest o

/-- One step of a process. -/
def World.step : Action Path Obj AgentClass → World Path Obj AgentClass Digest
  | .on o op =>
      let outcome := (w.registries o).perform access w.files hash op
      { w with
        files := outcome.2.1
        registries := Function.update w.registries o outcome.2.2 }
  | .equal o other => (w.equal access hash o other).2
  | .getAgent agentClass registry => (w.getAgent access hash constructs agentClass registry).2

end Agency

/-! ## What is read -/

section Contents

variable {access : Path → Access} {files : Path → File}

theorem read_distinct {access : Access} {file : File} {object : PyObject}
    (h : read access file = .ok object) : object.isWritable = true ∧ object.Distinct :=
  isWritable_of_load (read_eq_load h)

/-- What a registry reads is written again and has distinct names. -/
theorem contents_distinct {backing : Backing Path} {object : PyObject}
    (h : contents access files backing = .ok object) :
    object.isWritable = true ∧ object.Distinct := by
  cases backing with
  | localFile filepath => exact read_distinct h
  | temporary filepath isText tempFilepath => exact read_distinct h
  | memory registryData =>
      cases registryData with
      | none =>
          cases h
          exact ⟨rfl, PyObject.distinct_list.mpr (by simp)⟩
      | some text =>
          cases hloads : PyObject.loads text with
          | none => simp [contents, hloads] at h
          | some read =>
              simp only [contents, hloads, Option.elim_some, Except.ok.injEq] at h
              rw [← h]
              exact ⟨PyObject.isWritable_of_loads hloads, PyObject.loads_distinct hloads⟩

/-- What a registry reads in a file. -/
theorem contents_of_filepath {backing : Backing Path} {filepath : Path}
    (h : backing.filepath? = some filepath) (files : Path → File) :
    contents access files backing = read (access filepath) (files filepath) := by
  cases backing with
  | localFile _ =>
      cases h
      rfl
  | temporary _ _ _ =>
      cases h
      rfl
  | memory _ => cases h

/-- What a registry reads after a file was written. -/
theorem contents_update [DecidableEq Path] (backing : Backing Path) (filepath : Path)
    (content : File) :
    contents access (Function.update files filepath content) backing =
      if backing.filepath? = some filepath then read (access filepath) content
      else contents access files backing := by
  by_cases h : backing.filepath? = some filepath
  · rw [contents_of_filepath h, if_pos h, Function.update_self]
  · rw [if_neg h]
    cases backing with
    | localFile other =>
        have hne : other ≠ filepath := fun heq => h (congrArg some heq)
        rw [contents, contents, Function.update_of_ne hne]
    | temporary other isText tempFilepath =>
        have hne : other ≠ filepath := fun heq => h (congrArg some heq)
        rw [contents, contents, Function.update_of_ne hne]
    | memory registryData => cases registryData <;> rfl

end Contents

end ContractRegistry

end NuLink
