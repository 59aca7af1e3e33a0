import NuLinkCore.Blockchain.Registry.Classes
import NuLinkCore.Lib.Guarded

/-!
# The id of a registry

A registry keeps its id until its own contents are written with success.  Everything else that
changes what it reads leaves the id behind: clearing it, swapping its file, a write that fails
after the file was opened, and the operations of other registries on the same file.

Main results:

- Theorem {lit}`fresh_perform_iff`: when an operation leaves every kept id the hash of what is
  read.
- Theorem {lit}`throughout_contentAddressed_iff`: when all ids of a run are content hashes.
-/

namespace NuLink

namespace ContractRegistry

open Collections Execution

variable {Path Digest : Type} {access : Path → Access} {hash : String → Digest}

/-! ## One registry -/

section Fresh

variable (access hash)

/-- The id that a registry keeps is the hash of what it reads. -/
def Fresh (files : Path → File) (registry : Registry Path Digest) : Prop :=
  ∀ digest, registry.id = some digest →
    contentHash access files hash registry.backing = .ok digest

end Fresh

variable {files files' : Path → File} {registry registry' : Registry Path Digest}

theorem fresh_of_id_eq_none (h : registry.id = none) : Fresh access hash files registry := by
  intro digest hdigest
  rw [h] at hdigest
  cases hdigest

theorem contentHash_eq_ok {backing : Backing Path} {digest : Digest}
    (h : contentHash access files hash backing = .ok digest) :
    ∃ object text, contents access files backing = .ok object ∧ object.Distinct ∧
      object.dumps none = some text ∧ hash text = digest := by
  rw [contentHash] at h
  cases hcontents : contents access files backing with
  | error e => simp [hcontents] at h
  | ok object =>
      simp only [hcontents, hashOf] at h
      cases htext : object.dumps none with
      | none => simp [htext] at h
      | some text =>
          simp only [htext, Option.elim_some, Except.ok.injEq] at h
          exact ⟨object, text, rfl, (contents_distinct hcontents).2, htext, h⟩

/-- Objects with the same text are the same. -/
theorem eq_of_dumps {object object' : PyObject} {text : String} (hdistinct : object.Distinct)
    (hdistinct' : object'.Distinct) (h : object.dumps none = some text)
    (h' : object'.dumps none = some text) : object = object' := by
  have hloads := PyObject.loads_dumps hdistinct h
  rw [PyObject.loads_dumps hdistinct' h'] at hloads
  exact (Option.some.inj hloads).symm

theorem hashOf_injective (hinj : Function.Injective hash) {object object' : PyObject}
    {digest : Digest} (hdistinct : object.Distinct) (hdistinct' : object'.Distinct)
    (h : hashOf hash object = .ok digest) (h' : hashOf hash object' = .ok digest) :
    object = object' := by
  rw [hashOf] at h h'
  cases htext : object.dumps none with
  | none => simp [htext] at h
  | some text =>
      cases htext' : object'.dumps none with
      | none => simp [htext'] at h'
      | some text' =>
          simp only [htext, htext', Option.elim_some, Except.ok.injEq] at h h'
          rw [hinj (h'.trans h.symm)] at htext'
          exact eq_of_dumps hdistinct hdistinct' htext htext'

/-- The hash determines what is read. -/
theorem contents_eq_of_contentHash (hinj : Function.Injective hash)
    {backing backing' : Backing Path}
    {digest : Digest} (h : contentHash access files hash backing = .ok digest)
    (h' : contentHash access files' hash backing' = .ok digest) :
    contents access files' backing' = contents access files backing := by
  rcases contentHash_eq_ok h with ⟨object, text, hcontents, hdistinct, htext, hdigest⟩
  rcases contentHash_eq_ok h' with ⟨object', text', hcontents', hdistinct', htext', hdigest'⟩
  rw [← hinj (hdigest'.trans hdigest.symm)] at htext
  rw [hcontents, hcontents', eq_of_dumps hdistinct' hdistinct htext' htext]

/-- A registry that keeps its id has to read what it read before. -/
theorem fresh_congr_iff (hinj : Function.Injective hash) (hid : registry'.id = registry.id)
    (h : Fresh access hash files registry) :
    Fresh access hash files' registry' ↔
      (registry.id ≠ none →
        contents access files' registry'.backing = contents access files registry.backing) := by
  rw [Fresh, hid]
  constructor
  · intro hfresh hsome
    rcases Option.ne_none_iff_exists'.mp hsome with ⟨digest, hdigest⟩
    exact contents_eq_of_contentHash hinj (h digest hdigest) (hfresh digest hdigest)
  · intro hsame digest hdigest
    rw [contentHash, hsame (by rw [hdigest]; simp)]
    exact h digest hdigest

theorem fresh_readId (h : Fresh access hash files registry) :
    Fresh access hash files (readId access files hash registry).2 := by
  rw [readId]
  cases hid : registry.id with
  | some digest => exact h
  | none =>
      cases hhash : contentHash access files hash registry.backing with
      | error e => exact h
      | ok digest =>
          intro digest' hdigest'
          cases hdigest'
          exact hhash

@[simp]
theorem readId_backing :
    (readId access files hash registry).2.backing = registry.backing := by
  rw [readId]
  cases registry.id with
  | some digest => rfl
  | none =>
      cases contentHash access files hash registry.backing with
      | error e => rfl
      | ok digest => rfl

/-- The id that is read is the hash of the contents. -/
theorem contentHash_of_readId (h : Fresh access hash files registry) {digest : Digest}
    (hdigest : (readId access files hash registry).1 = .ok digest) :
    contentHash access files hash registry.backing = .ok digest := by
  rw [readId] at hdigest
  cases hid : registry.id with
  | some kept =>
      simp only [hid, Except.ok.injEq] at hdigest
      rw [← hdigest]
      exact h kept hid
  | none =>
      cases hhash : contentHash access files hash registry.backing with
      | error e => simp [hid, hhash] at hdigest
      | ok computed => simpa [hid, hhash] using hdigest

/-! ## The condition -/

section Condition

variable {Obj AgentClass : Type} [DecidableEq Path]

variable (access) (w : World Path Obj AgentClass Digest)

/-- The registries that keep an id and read the file, except for one, find there what was there
before. -/
def World.UnnoticedBut (o : Obj) (filepath : Path) (content : File) : Prop :=
  ∀ other, other ≠ o → (w.registries other).id ≠ none →
    (w.registries other).backing.filepath? = some filepath →
      read (access filepath) content = read (access filepath) (w.files filepath)

/-- The registries that keep an id and read the file find there what was there before. -/
def World.Unnoticed (filepath : Path) (content : File) : Prop :=
  ∀ other, (w.registries other).id ≠ none →
    (w.registries other).backing.filepath? = some filepath →
      read (access filepath) content = read (access filepath) (w.files filepath)

/-- Writing a file with success is noticed by no other registry; failing to encode the data is
noticed by no registry. -/
def World.SafeWriteFile (o : Obj) (filepath : Path) (registryData : PyObject) : Prop :=
  (access filepath).write = true →
    match registryData.dumps none with
    | some text => w.UnnoticedBut access o filepath (some (utf8 text))
    | none => w.Unnoticed access filepath (some [])

def World.SafeWrite (o : Obj) (registryData : PyObject) : Prop :=
  match (w.registries o).backing with
  | .localFile filepath => w.SafeWriteFile access o filepath registryData
  | .temporary _ true _ => True
  | .temporary filepath false _ => w.SafeWriteFile access o filepath registryData
  | .memory _ => True

def World.SafeClear (o : Obj) : Prop :=
  match (w.registries o).backing with
  | .localFile _ => True
  | .temporary filepath _ _ =>
      (access filepath).write = true → w.Unnoticed access filepath (some [])
  | .memory _ => (w.registries o).id ≠ none → w.contents access o = .ok blank

/-- The content of a file after a temporary registry was committed to it, or was not. -/
def committedContent (files : Path → File) (tempFilepath : Option Path) (filepath : Path) : File :=
  let cleared := (files filepath).map fun _ => []
  if (access filepath).write then
    match tempFilepath with
    | none => cleared
    | some source =>
        if source = filepath then cleared
        else
          match files source with
          | none => cleared
          | some content => if (access source).read then some content else cleared
  else files filepath

def World.SafeCommit (o : Obj) (filepath : Path) (overwrite : Bool) : Prop :=
  match (w.registries o).backing with
  | .localFile _ => True
  | .temporary _ _ tempFilepath =>
      w.UnnoticedBut access o filepath (committedContent access w.files tempFilepath filepath) ∧
        ((w.registries o).id ≠ none →
          read (access filepath) (committedContent access w.files tempFilepath filepath) =
            w.contents access o)
  | .memory registryData =>
      ((w.files filepath).isSome && !overwrite) = false → (access filepath).write = true →
        w.Unnoticed access filepath (some (registryData.elim [] utf8))

/-- When an operation leaves no id behind. -/
def World.SafeOp (o : Obj) : Op Path → Prop
  | .write registryData => w.SafeWrite access o registryData
  | .enroll record =>
      ∀ data, enrolledData (w.contents access o) record = .ok data → w.SafeWrite access o data
  | .clear => w.SafeClear access o
  | .commit filepath overwrite => w.SafeCommit access o filepath overwrite
  | .id => True

def World.Safe : Action Path Obj AgentClass → Prop
  | .on o op => w.SafeOp access o op
  | .equal _ _ => True
  | .getAgent _ _ => True

end Condition

/-! ## What an operation leaves -/

section Operations

variable {Obj AgentClass : Type} [DecidableEq Path] [DecidableEq Obj]
  {w : World Path Obj AgentClass Digest}

section Put

variable (access hash)

/-- All kept ids are fresh after an operation that left the files and the registry. -/
def World.FreshAfter (w : World Path Obj AgentClass Digest) (o : Obj)
    (outcome : Outcome Path Digest) : Prop :=
  ∀ other, Fresh access hash outcome.2.1 (Function.update w.registries o outcome.2.2 other)

end Put

/-- All ids that are kept are the hashes of what is read. -/
def World.AllFresh (access : Path → Access) (hash : String → Digest)
    (w : World Path Obj AgentClass Digest) : Prop :=
  ∀ o, Fresh access hash w.files (w.registries o)

variable (hinj : Function.Injective hash) (hw : w.AllFresh access hash)

include hw

omit [DecidableEq Path] in
/-- The files are as before: the registry itself counts. -/
theorem freshAfter_same_iff (o : Obj) (outcome : Except Error Unit) :
    w.FreshAfter access hash o (outcome, w.files, registry') ↔
      Fresh access hash w.files registry' := by
  constructor
  · intro h
    have ho := h o
    rwa [Function.update_self] at ho
  · intro h other
    by_cases hother : other = o
    · rw [hother, Function.update_self]
      exact h
    · rw [Function.update_of_ne hother]
      exact hw other

include hinj

/-- One file was written. -/
theorem freshAfter_update_iff (o : Obj) (outcome : Except Error Unit) (filepath : Path)
    (content : File) :
    w.FreshAfter access hash o
        (outcome, Function.update w.files filepath content, registry') ↔
      w.UnnoticedBut access o filepath content ∧
        Fresh access hash (Function.update w.files filepath content) registry' := by
  have hothers : ∀ other, other ≠ o →
      (Fresh access hash (Function.update w.files filepath content)
          (Function.update w.registries o registry' other) ↔
        ((w.registries other).id ≠ none →
          (w.registries other).backing.filepath? = some filepath →
            read (access filepath) content = read (access filepath) (w.files filepath))) := by
    intro other hother
    rw [Function.update_of_ne hother, fresh_congr_iff hinj rfl (hw other), contents_update]
    by_cases hpath : (w.registries other).backing.filepath? = some filepath
    · simp [hpath, contents_of_filepath hpath]
    · simp [hpath]
  constructor
  · intro h
    refine ⟨fun other hother => (hothers other hother).mp (h other), ?_⟩
    have ho := h o
    rwa [Function.update_self] at ho
  · rintro ⟨hunnoticed, hfresh⟩ other
    by_cases hother : other = o
    · rw [hother]
      simpa only [Function.update_self] using hfresh
    · exact (hothers other hother).mpr (hunnoticed other hother)

/-- One file was written, and the registry keeps its id. -/
theorem freshAfter_kept_iff (o : Obj) (outcome : Except Error Unit) (filepath : Path)
    (content : File) :
    w.FreshAfter access hash o
        (outcome, Function.update w.files filepath content, w.registries o) ↔
      w.Unnoticed access filepath content := by
  rw [freshAfter_update_iff hinj hw, fresh_congr_iff hinj rfl (hw o), contents_update]
  constructor
  · rintro ⟨hothers, ho⟩ other hid hpath
    by_cases hother : other = o
    · subst hother
      have hsame := ho hid
      rwa [if_pos hpath, contents_of_filepath hpath] at hsame
    · exact hothers other hother hid hpath
  · intro h
    refine ⟨fun other _ => h other, ?_⟩
    intro hid
    by_cases hpath : (w.registries o).backing.filepath? = some filepath
    · rw [if_pos hpath, contents_of_filepath hpath]
      exact h o hid hpath
    · rw [if_neg hpath]

theorem freshAfter_writeFile_iff (o : Obj) (filepath : Path) (registryData : PyObject) :
    w.FreshAfter access hash o
        (writeFile access w.files (w.registries o) filepath registryData) ↔
      w.SafeWriteFile access o filepath registryData := by
  rw [writeFile, World.SafeWriteFile, write]
  by_cases haccess : (access filepath).write = true
  · simp only [haccess, if_true, forall_const]
    cases registryData.dumps none with
    | none => exact freshAfter_kept_iff hinj hw o _ filepath _
    | some text =>
        have hfresh : Fresh access hash (Function.update w.files filepath (some (utf8 text)))
            { w.registries o with id := none } := fresh_of_id_eq_none rfl
        exact (freshAfter_update_iff hinj hw o _ filepath _).trans (and_iff_left hfresh)
  · simp only [haccess, Bool.false_eq_true, if_false, Function.update_eq_self, false_implies,
      iff_true]
    exact (freshAfter_same_iff hw o _).mpr (hw o)

theorem freshAfter_write_iff (o : Obj) (registryData : PyObject) :
    w.FreshAfter access hash o ((w.registries o).write access w.files registryData) ↔
      w.SafeWrite access o registryData := by
  rw [Registry.write, World.SafeWrite]
  cases hbacking : (w.registries o).backing with
  | localFile filepath => exact freshAfter_writeFile_iff hinj hw o filepath registryData
  | temporary filepath isText tempFilepath =>
      cases isText with
      | true => exact iff_of_true ((freshAfter_same_iff hw o _).mpr (hw o)) trivial
      | false => exact freshAfter_writeFile_iff hinj hw o filepath registryData
  | memory data =>
      cases registryData.dumps none with
      | none => exact iff_of_true ((freshAfter_same_iff hw o _).mpr (hw o)) trivial
      | some text =>
          exact iff_of_true ((freshAfter_same_iff hw o _).mpr (fresh_of_id_eq_none rfl)) trivial

theorem freshAfter_clear_iff (o : Obj) :
    w.FreshAfter access hash o ((w.registries o).clear access w.files) ↔
      w.SafeClear access o := by
  rw [Registry.clear, World.SafeClear]
  cases hbacking : (w.registries o).backing with
  | localFile filepath => exact iff_of_true ((freshAfter_same_iff hw o _).mpr (hw o)) trivial
  | temporary filepath isText tempFilepath =>
      simp only [clearFile]
      by_cases haccess : (access filepath).write = true
      · simp only [haccess, if_true, forall_const]
        exact freshAfter_kept_iff hinj hw o _ filepath _
      · simp only [haccess, Bool.false_eq_true, if_false, false_implies, iff_true]
        exact (freshAfter_same_iff hw o _).mpr (hw o)
  | memory data =>
      rw [freshAfter_same_iff hw o]
      have hcongr : Fresh access hash w.files { w.registries o with backing := .memory none } ↔
          ((w.registries o).id ≠ none → .ok blank = w.contents access o) :=
        fresh_congr_iff hinj rfl (hw o)
      exact hcongr.trans (imp_congr_right fun _ => eq_comm)

omit hinj hw [DecidableEq Obj] in
/-- What committing a temporary registry leaves. -/
theorem commitTemporary_eq (access : Path → Access) (files : Path → File)
    (registry : Registry Path Digest) (tempFilepath : Option Path) (filepath : Path) :
    ∃ outcome left, commitTemporary access files registry tempFilepath filepath =
      (outcome, Function.update files filepath
          (committedContent access files tempFilepath filepath),
        { registry with backing := .temporary filepath false left }) := by
  rw [commitTemporary]
  by_cases haccess : (access filepath).write = true
  · have hfirst : (if (files filepath).isSome then clearFile access files filepath
        else (.ok (), files)) =
        (.ok (), Function.update files filepath ((files filepath).map fun _ => [])) := by
      rw [clearFile, if_pos haccess]
      cases hfile : files filepath with
      | none => rw [Option.map_none, ← hfile, Function.update_eq_self, hfile]; rfl
      | some content => rfl
    simp only [hfirst, committedContent, haccess, if_true, copyFile]
    cases tempFilepath with
    | none => exact ⟨_, _, rfl⟩
    | some source =>
        by_cases hsame : source = filepath
        · simp only [hsame, if_true]
          exact ⟨_, _, rfl⟩
        · simp only [hsame, if_false, Function.update_of_ne hsame]
          cases files source with
          | none => exact ⟨_, _, rfl⟩
          | some content =>
              simp only [Bool.and_true]
              by_cases hread : (access source).read = true
              · simp only [hread, if_true, Function.update_idem]
                exact ⟨_, _, rfl⟩
              · simp only [hread]
                exact ⟨_, _, rfl⟩
  · have hcopy : ∃ e, copyFile access files tempFilepath filepath = (.error e, files) := by
      cases tempFilepath with
      | none => exact ⟨_, rfl⟩
      | some source =>
          by_cases hsame : source = filepath
          · exact ⟨_, if_pos hsame⟩
          · simp only [copyFile, hsame, if_false]
            cases files source with
            | none => exact ⟨_, rfl⟩
            | some content =>
                simp only [haccess, Bool.and_false, Bool.false_eq_true, if_false]
                exact ⟨_, rfl⟩
    rcases hcopy with ⟨e, hcopy⟩
    simp only [clearFile, haccess, Bool.false_eq_true, if_false, Function.update_eq_self,
      committedContent]
    by_cases hfile : (files filepath).isSome = true
    · simp only [hfile, if_true]
      exact ⟨_, _, rfl⟩
    · simp only [hfile, Bool.false_eq_true, if_false, hcopy]
      exact ⟨_, _, rfl⟩

theorem freshAfter_commit_iff (o : Obj) (filepath : Path) (overwrite : Bool) :
    w.FreshAfter access hash o
        ((w.registries o).commit access w.files hash filepath overwrite) ↔
      w.SafeCommit access o filepath overwrite := by
  rw [Registry.commit, World.SafeCommit]
  cases hbacking : (w.registries o).backing with
  | localFile _ => exact iff_of_true ((freshAfter_same_iff hw o _).mpr (hw o)) trivial
  | temporary oldFilepath isText tempFilepath =>
      rcases commitTemporary_eq access w.files (w.registries o) tempFilepath filepath with
        ⟨outcome, left, hcommit⟩
      have hcongr : Fresh access hash
          (Function.update w.files filepath
            (committedContent access w.files tempFilepath filepath))
          ⟨.temporary filepath false left, (w.registries o).id⟩ ↔
          ((w.registries o).id ≠ none →
            contents access (Function.update w.files filepath
              (committedContent access w.files tempFilepath filepath))
              (.temporary filepath false left) = w.contents access o) :=
        fresh_congr_iff hinj rfl (hw o)
      have hpath : (Backing.temporary filepath false left).filepath? = some filepath := rfl
      simp only [hcommit]
      rw [freshAfter_update_iff hinj hw, hcongr, contents_update, if_pos hpath]
  | memory registryData =>
      simp only [commitMemory]
      by_cases hrefused : ((w.files filepath).isSome && !overwrite) = true
      · simp only [hrefused, if_true, Bool.true_eq_false, false_implies, iff_true]
        cases contentHash access w.files hash (.localFile filepath) with
        | error e => exact (freshAfter_same_iff hw o _).mpr (hw o)
        | ok digest =>
            -- Both outcomes of reading the own id keep the registry that it leaves.
            have hread : Fresh access hash w.files _ := fresh_readId (hw o)
            cases hid : readId access w.files hash (w.registries o) with
            | mk result registry =>
                rw [hid] at hread
                cases result with
                | error e => exact (freshAfter_same_iff hw o _).mpr hread
                | ok own => exact (freshAfter_same_iff hw o _).mpr hread
      · simp only [hrefused, Bool.false_eq_true, if_false, forall_const]
        by_cases haccess : (access filepath).write = true
        · simp only [haccess, if_true, forall_const]
          cases registryData with
          | none => exact freshAfter_kept_iff hinj hw o _ filepath _
          | some text => exact freshAfter_kept_iff hinj hw o _ filepath _
        · simp only [haccess, Bool.false_eq_true, if_false, false_implies, iff_true]
          exact (freshAfter_same_iff hw o _).mpr (hw o)

/-- When an operation leaves every kept id the hash of what is read. -/
theorem fresh_perform_iff (o : Obj) (op : Op Path) :
    w.FreshAfter access hash o ((w.registries o).perform access w.files hash op) ↔
      w.SafeOp access o op := by
  cases op with
  | write registryData => exact freshAfter_write_iff hinj hw o registryData
  | enroll record =>
      simp only [Registry.perform, Registry.enroll, World.SafeOp, World.contents]
      cases enrolledData (contents access w.files (w.registries o).backing) record with
      | error e => exact iff_of_true ((freshAfter_same_iff hw o _).mpr (hw o)) (by simp)
      | ok data => simpa using freshAfter_write_iff hinj hw o data
  | clear => exact freshAfter_clear_iff hinj hw o
  | commit filepath overwrite => exact freshAfter_commit_iff hinj hw o filepath overwrite
  | id => exact iff_of_true ((freshAfter_same_iff hw o _).mpr (fresh_readId (hw o))) trivial

end Operations

/-! ## The process -/

section Process

variable {Obj AgentClass : Type} [DecidableEq Path] [DecidableEq Obj] [DecidableEq AgentClass]
  [DecidableEq Digest]

section Statements

variable (access hash) (w : World Path Obj AgentClass Digest)

/-- Agents are kept under the hash of what the registry held for which they were made. -/
def World.AgentsKeyed : Prop :=
  ∀ digest agentClass agent, w.cachedAgent digest agentClass = some agent →
    agent.contents.Distinct ∧ hashOf hash agent.contents = .ok digest

/-- Ids are content hashes, and so registries are equal, and agents are taken from the agency,
only for the same contents. -/
structure World.ContentAddressed : Prop where
  id : ∀ o digest, (w.id access hash o).1 = .ok digest →
    contentHash access w.files hash (w.registries o).backing = .ok digest
  equal : ∀ o other, (w.equal access hash o other).1 = .ok true →
    w.contents access o = w.contents access other
  reused : ∀ agentClass o digest agent, (w.id access hash o).1 = .ok digest →
    w.cachedAgent digest agentClass = some agent → w.contents access o = .ok agent.contents
  keyed : w.AgentsKeyed hash

end Statements

variable {w : World Path Obj AgentClass Digest}

omit [DecidableEq Path] [DecidableEq AgentClass] [DecidableEq Digest] in
theorem allFresh_of_id (h : ∀ o digest, (w.id access hash o).1 = .ok digest →
    contentHash access w.files hash (w.registries o).backing = .ok digest) :
    w.AllFresh access hash := by
  intro o digest hdigest
  apply h o digest
  rw [World.id, readId, hdigest]

omit [DecidableEq Path] [DecidableEq AgentClass] [DecidableEq Digest] in
theorem allFresh_id (hw : w.AllFresh access hash) (o : Obj) :
    (w.id access hash o).2.AllFresh access hash :=
  (freshAfter_same_iff hw o (.ok ())).mpr (fresh_readId (hw o))

omit [DecidableEq Path] [DecidableEq AgentClass] [DecidableEq Digest] in
theorem contents_id (o other : Obj) :
    (w.id access hash o).2.contents access other = w.contents access other := by
  simp only [World.contents, World.id]
  by_cases hother : other = o
  · rw [hother, Function.update_self, readId_backing]
  · rw [Function.update_of_ne hother]

omit [DecidableEq Path] [DecidableEq AgentClass] [DecidableEq Digest] in
theorem contentHash_of_id (hw : w.AllFresh access hash) {o : Obj} {digest : Digest}
    (h : (w.id access hash o).1 = .ok digest) :
    ∃ object, w.contents access o = .ok object ∧ object.Distinct ∧
      hashOf hash object = .ok digest := by
  have hhash := contentHash_of_readId (hw o) h
  rw [contentHash] at hhash
  cases hcontents : contents access w.files (w.registries o).backing with
  | error e => simp [hcontents] at hhash
  | ok object =>
      rw [hcontents] at hhash
      exact ⟨object, hcontents, (contents_distinct hcontents).2, hhash⟩

omit [DecidableEq Path] [DecidableEq AgentClass] in
/-- Equal registries have the same contents. -/
theorem contents_eq_of_equal (hinj : Function.Injective hash) (hw : w.AllFresh access hash)
    {o other : Obj} (h : (w.equal access hash o other).1 = .ok true) :
    w.contents access o = w.contents access other := by
  by_cases hsame : o = other
  · rw [hsame]
  · rw [World.equal, if_neg hsame] at h
    cases hid : w.id access hash o with
    | mk result after =>
        have hresult : (w.id access hash o).1 = result := by rw [hid]
        have hafter : (w.id access hash o).2 = after := by rw [hid]
        cases result with
        | error e => simp [hid] at h
        | ok digest =>
            simp only [hid] at h
            have hfresh : after.AllFresh access hash := hafter ▸ allFresh_id hw o
            cases hid' : after.id access hash other with
            | mk result' last =>
                have hresult' : (after.id access hash other).1 = result' := by rw [hid']
                cases result' with
                | error e => simp [hid'] at h
                | ok digest' =>
                    have heq : digest = digest' := by simpa [hid'] using h
                    rcases contentHash_of_id hw hresult with ⟨object, hcontents, hdistinct, hhash⟩
                    rcases contentHash_of_id hfresh hresult' with
                      ⟨object', hcontents', hdistinct', hhash'⟩
                    rw [← hafter, contents_id] at hcontents'
                    rw [← heq] at hhash'
                    rw [hcontents, hcontents',
                      hashOf_injective hinj hdistinct hdistinct' hhash hhash']

omit [DecidableEq Path] in
/-- Ids are content hashes, and agents are kept under content hashes. -/
theorem contentAddressed_iff (hinj : Function.Injective hash) :
    w.ContentAddressed access hash ↔ w.AllFresh access hash ∧ w.AgentsKeyed hash := by
  constructor
  · intro h
    exact ⟨allFresh_of_id h.id, h.keyed⟩
  · rintro ⟨hw, hkeyed⟩
    refine ⟨fun o digest => contentHash_of_readId (hw o),
      fun o other => contents_eq_of_equal hinj hw, ?_, hkeyed⟩
    intro agentClass o digest agent hdigest hagent
    rcases contentHash_of_id hw hdigest with ⟨object, hcontents, hdistinct, hhash⟩
    rcases hkeyed digest agentClass agent hagent with ⟨hdistinct', hhash'⟩
    rw [hcontents, hashOf_injective hinj hdistinct hdistinct' hhash hhash']

/-! ## Runs -/

omit [DecidableEq Path] [DecidableEq AgentClass] in
theorem allFresh_equal (hw : w.AllFresh access hash) (o other : Obj) :
    (w.equal access hash o other).2.AllFresh access hash ∧
      (w.equal access hash o other).2.agents = w.agents := by
  rw [World.equal]
  by_cases hsame : o = other
  · rw [if_pos hsame]
    exact ⟨hw, rfl⟩
  · rw [if_neg hsame]
    have hfresh := allFresh_id hw o
    have hagents : (w.id access hash o).2.agents = w.agents := rfl
    cases hid : w.id access hash o with
    | mk result after =>
        rw [hid] at hfresh hagents
        cases result with
        | error e => exact ⟨hfresh, hagents⟩
        | ok digest =>
            have hfresh' := allFresh_id hfresh other
            have hagents' : (after.id access hash other).2.agents = after.agents := rfl
            simp only
            cases hid' : after.id access hash other with
            | mk result' last =>
                rw [hid'] at hfresh' hagents'
                cases result' with
                | error e => exact ⟨hfresh', hagents'.trans hagents⟩
                | ok digest' => exact ⟨hfresh', hagents'.trans hagents⟩

variable {constructs : AgentClass → PyObject → Bool}

omit [DecidableEq Path] [DecidableEq Obj] in
/-- An agent is made under the hash of what its registry holds. -/
theorem makeAgent_keeps (hw : w.AllFresh access hash) (hkeyed : w.AgentsKeyed hash)
    (agentClass : AgentClass) {digest : Digest} {o : Obj}
    (hdigest : ∃ object, w.contents access o = .ok object ∧ object.Distinct ∧
      hashOf hash object = .ok digest) :
    (w.makeAgent access constructs agentClass digest o).2.AllFresh access hash ∧
      (w.makeAgent access constructs agentClass digest o).2.AgentsKeyed hash := by
  rcases hdigest with ⟨object, hcontents, hdistinct, hhash⟩
  simp only [World.makeAgent, hcontents]
  by_cases hconstructs : constructs agentClass object = true
  · rw [if_pos hconstructs]
    refine ⟨hw, ?_⟩
    intro digest' agentClass' agent hagent
    simp only [World.cachedAgent, Dict.get?_set] at hagent
    by_cases hsame : digest' = digest
    · rw [if_pos hsame, Option.bind_some, Dict.get?_set] at hagent
      by_cases hclass : agentClass' = agentClass
      · rw [if_pos hclass, Option.some_inj] at hagent
        rw [← hagent, hsame]
        exact ⟨hdistinct, hhash⟩
      · rw [if_neg hclass] at hagent
        apply hkeyed digest' agentClass' agent
        rw [World.cachedAgent, hsame]
        cases hagents : w.agents.get? digest with
        | none => simp [hagents] at hagent
        | some agents => simpa [hagents] using hagent
    · rw [if_neg hsame] at hagent
      exact hkeyed digest' agentClass' agent hagent
  · rw [if_neg hconstructs]
    exact ⟨hw, hkeyed⟩

omit [DecidableEq Path] in
theorem getAgent_keeps (hw : w.AllFresh access hash) (hkeyed : w.AgentsKeyed hash)
    (agentClass : AgentClass) (registry : Option Obj) :
    (w.getAgent access hash constructs agentClass registry).2.AllFresh access hash ∧
      (w.getAgent access hash constructs agentClass registry).2.AgentsKeyed hash := by
  cases registry with
  | none =>
      have hsame : (w.getAgent access hash constructs agentClass none).2 = w := by
        rw [World.getAgent]
        split <;> rfl
      rw [hsame]
      exact ⟨hw, hkeyed⟩
  | some o =>
      rw [World.getAgent]
      have hfresh := allFresh_id hw o
      have hagents : (w.id access hash o).2.AgentsKeyed hash := hkeyed
      have hcontents : (w.id access hash o).2.contents access o = w.contents access o :=
        contents_id o o
      cases hid : w.id access hash o with
      | mk result after =>
          have hresult : (w.id access hash o).1 = result := by rw [hid]
          rw [hid] at hfresh hagents hcontents
          cases result with
          | error e => exact ⟨hfresh, hagents⟩
          | ok digest =>
              have hdigest := contentHash_of_id hw hresult
              rw [← hcontents] at hdigest
              simp only
              cases after.cachedAgent digest agentClass with
              | some agent => exact ⟨hfresh, hagents⟩
              | none => exact makeAgent_keeps hfresh hagents agentClass hdigest

/-- When a step leaves all ids content hashes. -/
theorem step_contentAddressed_iff (hinj : Function.Injective hash)
    (action : Action Path Obj AgentClass) (h : w.ContentAddressed access hash) :
    (w.step access hash constructs action).ContentAddressed access hash ↔
      w.Safe access action := by
  rcases (contentAddressed_iff hinj).mp h with ⟨hw, hkeyed⟩
  rw [contentAddressed_iff hinj]
  cases action with
  | on o op =>
      have hop := fresh_perform_iff hinj hw o op
      exact (and_iff_left hkeyed).trans hop
  | equal o other =>
      rcases allFresh_equal hw o other with ⟨hfresh, hagents⟩
      have hkeyed' : (w.step access hash constructs (.equal o other)).AgentsKeyed hash := by
        intro digest agentClass agent hagent
        rw [World.cachedAgent, World.step, hagents] at hagent
        exact hkeyed digest agentClass agent hagent
      exact iff_of_true ⟨hfresh, hkeyed'⟩ trivial
  | getAgent agentClass registry =>
      exact iff_of_true (getAgent_keeps hw hkeyed agentClass registry) trivial

omit [DecidableEq Path] in
theorem start_contentAddressed (hinj : Function.Injective hash) (files : Path → File)
    (backings : Obj → Backing Path) :
    (World.start files backings :
      World Path Obj AgentClass Digest).ContentAddressed access hash := by
  rw [contentAddressed_iff hinj]
  refine ⟨fun o => fresh_of_id_eq_none rfl, ?_⟩
  intro digest agentClass agent hagent
  cases hagent

end Process

/-! ## A registry in memory -/

/-- One registry in memory, with the text itself as its hash. -/
def memoryStart : World Nat Unit Unit String := World.start (fun _ => none) fun _ => .memory none

def memoryStep : World Nat Unit Unit String → Action Nat Unit Unit → World Nat Unit Unit String :=
  World.step (fun _ => ⟨true, true⟩) id fun _ _ => true

/-- A list with one record. -/
def oneRecord : PyObject := .list [.list []]

/-- The world after the records were written, the id was read and the registry was cleared. -/
def clearedWorld : World Nat Unit Unit String :=
  memoryStep (memoryStep (memoryStep memoryStart (.on () (.write oneRecord))) (.on () .id))
    (.on () .clear)

end ContractRegistry

end NuLink
