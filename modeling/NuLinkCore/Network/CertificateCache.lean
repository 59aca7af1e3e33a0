import NuLinkCore.Lib.Guarded
import NuLinkCore.Lib.Location
import NuLinkCore.Lib.Numeral
import NuLinkCore.Network.Framing
import NuLinkCore.Network.Middleware

/-!
# The certificates of other nodes on disk

A certificate is written to a file that is named after the first component of its own subject,
and it is looked up under the host that a request goes to.  The peer chooses the one, and the
two are never compared.

Main results:

- Theorem {lit}`CertificateWrite.confined_iff`: which writes belong to the host that the file
  stands for.
- Theorem {lit}`namesHost_iff_of_notMem`: a plain common name has to be the host.
- Theorem {lit}`Confined.trusted`: what a request to a host trusts in a confined cache.
- Theorem {lit}`CertificateStores.cache_confined_iff`: which runs keep the cache confined.
-/

namespace NuLink

open Locations

/-! ## Writing a certificate -/

/-- An X.509 certificate: the components of its subject, each a name and a value, and its PEM
encoding. -/
structure TlsCertificate where
  subjectComponents : List (Bytes × Bytes)
  publicBytes : Bytes

/-- What is raised instead of writing a certificate. -/
inductive CertificateError where
  /-- The subject has no component. -/
  | indexError
  /-- The value of the component is not UTF-8. -/
  | unicodeDecodeError
  | fileExistsError
  /-- The file system does not take the file. -/
  | osError
  /-- The certificate could not be fetched or loaded, or the node could not be finished. -/
  | unavailable
deriving DecidableEq

/-- {lit}`_read_common_name`, the value of the first component of the subject. -/
def TlsCertificate.readCommonName (certificate : TlsCertificate) :
    Except CertificateError String :=
  match certificate.subjectComponents with
  | [] => .error .indexError
  | component :: _ =>
      match decodeUtf8 component.2 with
      | none => .error .unicodeDecodeError
      | some commonName => .ok commonName

/-- What follows the host in the name of a certificate file. -/
def certificateSuffix (port : Nat) : List Char := '_' :: (port.repr.toList ++ ['.', 'p', 'e', 'm'])

/-- {lit}`generate_certificate_filepath` in a certificate directory. -/
def generateCertificateFilepath (directory : Location) (host : String) (port : Nat) : Location :=
  resolve directory (host.toList ++ certificateSuffix port)

/-- A certificate file that was written for a storage: the directory of the storage, the file,
the certificate, and the host and port that it was fetched from or whose node carried it. -/
structure CertificateWrite where
  directory : Location
  filepath : Location
  certificate : TlsCertificate
  host : String
  port : Nat

/-- The certificate files, the newest write first. -/
abbrev CertificateFiles := List CertificateWrite

/-- The last write to a file. -/
def CertificateFiles.read (files : CertificateFiles) (filepath : Location) :
    Option CertificateWrite :=
  files.find? (fun write => write.filepath = filepath)

/-- {lit}`_write_tls_certificate`.  The host is only recorded here; the file is named after the
certificate. -/
def writeTlsCertificate (files : CertificateFiles) (directory : Location) (host : String)
    (port : Nat) (certificate : TlsCertificate) (force taken : Bool) :
    CertificateFiles × Except CertificateError Location :=
  match certificate.readCommonName with
  | .error error => (files, .error error)
  | .ok commonName =>
      let filepath := generateCertificateFilepath directory commonName port
      if force = false ∧ (files.read filepath).isSome then (files, .error .fileExistsError)
      else if taken then (⟨directory, filepath, certificate, host, port⟩ :: files, .ok filepath)
      else (files, .error .osError)

/-- {lit}`store_node_certificate`, of both kinds of storage. -/
def storeNodeCertificate (files : CertificateFiles) (directory : Location) (host : String)
    (port : Nat) (certificate : TlsCertificate) (taken : Bool) :
    CertificateFiles × Except CertificateError Location :=
  writeTlsCertificate files directory host port certificate true taken

/-! ## The operations -/

/-- What is met when a certificate is fetched: the attempts, the certificate that is presented,
if it can be loaded, and whether the file system takes the file. -/
structure CertificateHandshake where
  fetch : Nat → CertificateFetch
  presented : Option TlsCertificate
  taken : Bool

/-- A node of others as its metadata describes it.  The certificate is missing if it cannot be
loaded; a sprout that another thread is finishing is waited for. -/
structure MetadataNode where
  host : String
  port : Nat
  certificate : Option TlsCertificate
  isSprout : Bool
  isFinishing : Bool

/-- The host of {lit}`rest_interface`. -/
def MetadataNode.restHost (node : MetadataNode) : String :=
  if node.host = "localhost" then "127.0.0.1" else node.host

/-- The arguments and circumstances of {lit}`remember_node` that decide whether certificates are
stored, and whether the file system takes the two files. -/
structure CertificateRemembering where
  isSelf : Bool
  outdated : Bool
  eager : Bool
  takenAtMaturing : Bool
  taken : Bool

/-- The certificate directories of the storages of the middleware client, of the function that
is kept in the class, and of the learner. -/
structure CertificateStores where
  storage : Location
  certStoreFunction : Location
  nodeStorage : Location

namespace CertificateStores

/-- {lit}`get_certificate`. -/
def getCertificate (stores : CertificateStores) (files : CertificateFiles) (host : String)
    (port : Nat) (handshake : CertificateHandshake) :
    CertificateFiles × Except CertificateError Location :=
  match NuLink.getCertificate handshake.fetch 0 3, handshake.presented with
  | .ok _, some certificate =>
      storeNodeCertificate files stores.storage host port certificate handshake.taken
  | _, _ => (files, .error .unavailable)

/-- {lit}`_execute_method`: the certificate file that the request trusts.  The flag says
whether the one at hand, if there is one, leads to an {lit}`SSLError`. -/
def executeMethod (stores : CertificateStores) (files : CertificateFiles) (host : String)
    (port : Nat) (sslError : Bool) (handshake : CertificateHandshake) :
    CertificateFiles × Except CertificateError Location :=
  let cachedCertFilepath := generateCertificateFilepath stores.storage host port
  if (files.read cachedCertFilepath).isSome ∧ sslError = false then
    (files, .ok cachedCertFilepath)
  else stores.getCertificate files host port handshake

/-- {lit}`mature`, of a sprout or of a node that is mature. -/
def mature (stores : CertificateStores) (files : CertificateFiles) (node : MetadataNode)
    (taken : Bool) : CertificateFiles × Except CertificateError Unit :=
  if node.isSprout = true ∧ node.isFinishing = false then
    match node.certificate with
    | none => (files, .error .unavailable)
    | some certificate =>
        let stored := storeNodeCertificate files stores.certStoreFunction node.restHost node.port
          certificate taken
        (stored.1, stored.2.map fun _ => ())
  else (files, .ok ())

/-- {lit}`remember_node`, as far as it stores certificates. -/
def rememberNode (stores : CertificateStores) (files : CertificateFiles) (node : MetadataNode)
    (call : CertificateRemembering) : CertificateFiles × Except CertificateError Unit :=
  if call.isSelf = true ∨ call.outdated = true ∨ call.eager = false then (files, .ok ())
  else
    match stores.mature files node call.takenAtMaturing with
    | (matured, .error error) => (matured, .error error)
    | (matured, .ok _) =>
        match node.certificate with
        | none => (matured, .error .unavailable)
        | some strangerCertificate =>
            let stored := storeNodeCertificate matured stores.nodeStorage node.restHost node.port
              strangerCertificate call.taken
            (stored.1, stored.2.map fun _ => ())

end CertificateStores

/-- What a node does with the certificates of others. -/
inductive CertificateOp where
  | getCertificate (host : String) (port : Nat) (handshake : CertificateHandshake)
  | executeMethod (host : String) (port : Nat) (sslError : Bool) (handshake : CertificateHandshake)
  | mature (node : MetadataNode) (taken : Bool)
  | rememberNode (node : MetadataNode) (call : CertificateRemembering)

/-- The certificate files after an operation. -/
def CertificateStores.step (stores : CertificateStores) (files : CertificateFiles) :
    CertificateOp → CertificateFiles
  | .getCertificate host port handshake => (stores.getCertificate files host port handshake).1
  | .executeMethod host port sslError handshake =>
      (stores.executeMethod files host port sslError handshake).1
  | .mature node taken => (stores.mature files node taken).1
  | .rememberNode node call => (stores.rememberNode files node call).1

/-! ## Writes that belong to their host -/

theorem slash_notMem_certificateSuffix (port : Nat) : '/' ∉ certificateSuffix port := by
  intro hmem
  rcases List.mem_cons.mp hmem with hscore | hmem
  · exact absurd hscore (by decide)
  · rcases List.mem_append.mp hmem with hdigit | hpem
    · exact absurd (Numerals.isDigit_of_mem_repr hdigit) (by decide)
    · exact absurd hpem (by decide)

theorem two_lt_length_certificateSuffix (port : Nat) : 2 < (certificateSuffix port).length := by
  simp only [certificateSuffix, List.length_cons, List.length_append, List.length_nil]
  omega

/-- A certificate file lies in the directory to which the host leads. -/
theorem generateCertificateFilepath_eq (directory : Location) (host : String) (port : Nat) :
    generateCertificateFilepath directory host port =
      folder directory host.toList ++ [base host.toList ++ certificateSuffix port] :=
  resolve_append directory host.toList (slash_notMem_certificateSuffix port)
    (two_lt_length_certificateSuffix port)

theorem generateCertificateFilepath_of_notMem (directory : Location) {host : String} (port : Nat)
    (h : '/' ∉ host.toList) : generateCertificateFilepath directory host port =
      directory ++ [host.toList ++ certificateSuffix port] := by
  rw [generateCertificateFilepath_eq, folder_of_notMem directory h, base_of_notMem h]

/-- The name of a certificate file tells the host and the port. -/
theorem append_certificateSuffix_inj {host host' : List Char} {port port' : Nat} :
    host ++ certificateSuffix port = host' ++ certificateSuffix port' ↔
      host = host' ∧ port = port' := by
  have hscore : ∀ n : Nat, '_' ∉ n.repr.toList ++ ['.', 'p', 'e', 'm'] := by
    intro n hmem
    rcases List.mem_append.mp hmem with hdigit | hpem
    · exact absurd (Numerals.isDigit_of_mem_repr hdigit) (by decide)
    · exact absurd hpem (by decide)
  rw [certificateSuffix, certificateSuffix,
    append_cons_inj_of_notMem_right (hscore port) (hscore port')]
  have hrepr : port.repr.toList ++ ['.', 'p', 'e', 'm'] =
      port'.repr.toList ++ ['.', 'p', 'e', 'm'] ↔ port = port' := by
    constructor
    · intro h
      have hread : Numerals.readNat (port.repr.toList.map Numerals.glyph) =
          Numerals.readNat (port'.repr.toList.map Numerals.glyph) := by
        rw [List.append_cancel_right h]
      rw [Numerals.readNat_repr, Numerals.readNat_repr] at hread
      exact Option.some.inj hread
    · rintro rfl
      rfl
  rw [hrepr]

/-- The file lies directly in the directory of its storage, and if it is the one that any
storage looks up for a host, which has no slash, and a port, then its certificate is of this
host and port. -/
structure CertificateWrite.Confined (write : CertificateWrite) : Prop where
  inside : write.filepath.dropLast = write.directory
  own : ∀ (directory : Location) (host : String) (port : Nat), '/' ∉ host.toList →
    generateCertificateFilepath directory host port = write.filepath →
      write.host = host ∧ write.port = port

/-- In a certificate directory, a common name leads to a file of a host: the part of the name
before its last slash leads back to the directory, and the last part is the host. -/
def NamesHost (directory : Location) (commonName host : String) : Prop :=
  folder directory commonName.toList = directory ∧ base commonName.toList = host.toList

instance (directory : Location) (commonName host : String) :
    Decidable (NamesHost directory commonName host) :=
  inferInstanceAs (Decidable (_ ∧ _))

/-- A common name without a slash names the host that it is equal to. -/
theorem namesHost_iff_of_notMem (directory : Location) {commonName host : String}
    (h : '/' ∉ commonName.toList) : NamesHost directory commonName host ↔ commonName = host := by
  rw [NamesHost, folder_of_notMem directory h, base_of_notMem h, String.toList_inj]
  simp

/-- A certificate that is written under its common name is confined exactly when the name leads
to the file of its host. -/
theorem CertificateWrite.confined_iff {write : CertificateWrite} {commonName : String}
    (h : write.filepath = generateCertificateFilepath write.directory commonName write.port) :
    write.Confined ↔ NamesHost write.directory commonName write.host := by
  have hpath := h.trans (generateCertificateFilepath_eq write.directory commonName write.port)
  constructor
  · rintro ⟨hinside, hown⟩
    rw [hpath, List.dropLast_concat] at hinside
    have hslash : '/' ∉ (String.ofList (base commonName.toList)).toList := by
      rw [String.toList_ofList]
      exact slash_notMem_base commonName.toList
    have hsame : generateCertificateFilepath write.directory
        (String.ofList (base commonName.toList)) write.port = write.filepath := by
      rw [generateCertificateFilepath_of_notMem write.directory write.port hslash, hpath,
        hinside, String.toList_ofList]
    have hhost := (hown write.directory _ write.port hslash hsame).1
    exact ⟨hinside, by rw [hhost, String.toList_ofList]⟩
  · rintro ⟨hfolder, hbase⟩
    refine ⟨by rw [hpath, List.dropLast_concat, hfolder], ?_⟩
    intro directory host port hslash hsame
    rw [generateCertificateFilepath_of_notMem directory port hslash, hpath, hbase] at hsame
    have hname := (List.append_inj' hsame rfl).2
    have hinj := append_certificateSuffix_inj.mp (List.cons.inj hname).1
    exact ⟨(String.toList_inj.mp hinj.1).symm, hinj.2.symm⟩

/-! ## Operations that keep the cache confined -/

/-- Every certificate file was written in its place. -/
def Confined (files : CertificateFiles) : Prop := ∀ write ∈ files, write.Confined

/-- The certificate that is trusted for a host is one of this host. -/
theorem Confined.trusted {files : CertificateFiles} (h : Confined files) {directory : Location}
    {host : String} {port : Nat} (hslash : '/' ∉ host.toList) {write : CertificateWrite}
    (hread : files.read (generateCertificateFilepath directory host port) = some write) :
    write.host = host ∧ write.port = port := by
  have hmem : write ∈ files := List.mem_of_find?_eq_some hread
  have hpath : write.filepath = generateCertificateFilepath directory host port := by
    simpa using List.find?_some hread
  exact (h write hmem).own directory host port hslash hpath.symm

/-- A certificate that has a common name names a host in a directory. -/
def TlsCertificate.Names (certificate : TlsCertificate) (directory : Location) (host : String) :
    Prop :=
  ∀ commonName, certificate.readCommonName = .ok commonName → NamesHost directory commonName host

/-- The cache is confined after a certificate is stored exactly when it was before and the
certificate names the host, unless the file system does not take it. -/
theorem confined_storeNodeCertificate_iff (files : CertificateFiles) (directory : Location)
    (host : String) (port : Nat) (certificate : TlsCertificate) (taken : Bool) :
    Confined (storeNodeCertificate files directory host port certificate taken).1 ↔
      Confined files ∧ (taken = true → certificate.Names directory host) := by
  unfold storeNodeCertificate writeTlsCertificate TlsCertificate.Names
  cases hname : certificate.readCommonName with
  | error error => simp
  | ok commonName =>
      cases taken with
      | false => simp
      | true =>
          have hall : Confined (⟨directory, generateCertificateFilepath directory commonName port,
              certificate, host, port⟩ :: files) ↔
                NamesHost directory commonName host ∧ Confined files := by
            rw [Confined, List.forall_mem_cons, CertificateWrite.confined_iff rfl]
            exact Iff.rfl
          simpa [and_comm] using hall

/-- A certificate with a common name is stored if the file system takes it. -/
theorem storeNodeCertificate_ok_iff {certificate : TlsCertificate} {commonName : String}
    (hname : certificate.readCommonName = .ok commonName) (files : CertificateFiles)
    (directory : Location) (host : String) (port : Nat) (taken : Bool) :
    (∃ filepath, (storeNodeCertificate files directory host port certificate taken).2 =
      .ok filepath) ↔ taken = true := by
  unfold storeNodeCertificate writeTlsCertificate
  cases taken <;> simp [hname]

/-- A certificate that is fetched and stored names the host that presented it. -/
def CertificateHandshake.Names (handshake : CertificateHandshake) (directory : Location)
    (host : String) : Prop :=
  ∀ certificate, NuLink.getCertificate handshake.fetch 0 3 = .ok () →
    handshake.presented = some certificate → handshake.taken = true →
      certificate.Names directory host

/-- The certificate of a sprout that matures names the host of the sprout. -/
def MetadataNode.MaturesNamed (node : MetadataNode) (directory : Location) (taken : Bool) : Prop :=
  ∀ certificate, node.isSprout = true ∧ node.isFinishing = false →
    node.certificate = some certificate → taken = true →
      certificate.Names directory node.restHost

/-- The certificate of a node that is remembered names the host of the node, when it matures and
again when it is stored. -/
def MetadataNode.RememberedNamed (node : MetadataNode) (stores : CertificateStores)
    (call : CertificateRemembering) : Prop :=
  ¬ (call.isSelf = true ∨ call.outdated = true ∨ call.eager = false) →
    node.MaturesNamed stores.certStoreFunction call.takenAtMaturing ∧
      ∀ certificate, node.certificate = some certificate →
        (node.isSprout = true ∧ node.isFinishing = false → call.takenAtMaturing = true) →
          call.taken = true → certificate.Names stores.nodeStorage node.restHost

/-- Every certificate that an operation stores names the host that it is of. -/
def CertificateStores.StoresNamed (stores : CertificateStores) (files : CertificateFiles) :
    CertificateOp → Prop
  | .getCertificate host _ handshake => handshake.Names stores.storage host
  | .executeMethod host port sslError handshake =>
      ¬ ((files.read (generateCertificateFilepath stores.storage host port)).isSome ∧
        sslError = false) → handshake.Names stores.storage host
  | .mature node taken => node.MaturesNamed stores.certStoreFunction taken
  | .rememberNode node call => node.RememberedNamed stores call

namespace CertificateStores

variable (stores : CertificateStores) {files : CertificateFiles} (h : Confined files)

include h

theorem confined_getCertificate_iff (host : String) (port : Nat)
    (handshake : CertificateHandshake) :
    Confined (stores.getCertificate files host port handshake).1 ↔
      handshake.Names stores.storage host := by
  have hstored := fun certificate => confined_storeNodeCertificate_iff files stores.storage host
    port certificate handshake.taken
  unfold getCertificate CertificateHandshake.Names
  cases hfetch : NuLink.getCertificate handshake.fetch 0 3 with
  | error error => simp [h]
  | ok fetched =>
      cases hpresented : handshake.presented with
      | none => simp [h]
      | some certificate => simpa [h] using hstored certificate

theorem confined_executeMethod_iff (host : String) (port : Nat) (sslError : Bool)
    (handshake : CertificateHandshake) :
    Confined (stores.executeMethod files host port sslError handshake).1 ↔
      (¬ ((files.read (generateCertificateFilepath stores.storage host port)).isSome ∧
        sslError = false) → handshake.Names stores.storage host) := by
  simp only [executeMethod]
  split
  · rename_i hcached
    exact iff_of_true h (fun hmissing => absurd hcached hmissing)
  · rename_i hmissing
    rw [stores.confined_getCertificate_iff h host port handshake]
    exact ⟨fun hnames _ => hnames, fun hnames => hnames hmissing⟩

theorem confined_mature_iff (node : MetadataNode) (taken : Bool) :
    Confined (stores.mature files node taken).1 ↔
      node.MaturesNamed stores.certStoreFunction taken := by
  have hstored := fun certificate => confined_storeNodeCertificate_iff files
    stores.certStoreFunction node.restHost node.port certificate taken
  unfold mature MetadataNode.MaturesNamed
  by_cases hsprout : node.isSprout = true ∧ node.isFinishing = false
  · rw [if_pos hsprout]
    cases hcertificate : node.certificate with
    | none => simp [h]
    | some certificate => simpa [hsprout, h] using hstored certificate
  · rw [if_neg hsprout]
    exact iff_of_true h (fun _ hmatures => absurd hmatures hsprout)

omit h in
/-- A node whose certificate has a common name matures unless the file system does not take the
file. -/
theorem mature_ok_iff (files : CertificateFiles) {node : MetadataNode}
    {certificate : TlsCertificate}
    (hcertificate : node.certificate = some certificate) {commonName : String}
    (hname : certificate.readCommonName = .ok commonName) (taken : Bool) :
    (stores.mature files node taken).2 = .ok () ↔
      (node.isSprout = true ∧ node.isFinishing = false → taken = true) := by
  have hstored := storeNodeCertificate_ok_iff hname files stores.certStoreFunction node.restHost
    node.port taken
  unfold mature
  by_cases hsprout : node.isSprout = true ∧ node.isFinishing = false
  · rw [if_pos hsprout, forall_prop_of_true hsprout, ← hstored]
    simp only [hcertificate]
    cases (storeNodeCertificate files stores.certStoreFunction node.restHost node.port
      certificate taken).2 with
    | error error => simp [Except.map]
    | ok filepath => simp [Except.map]
  · simp [hsprout]

theorem confined_rememberNode_iff (node : MetadataNode) (call : CertificateRemembering) :
    Confined (stores.rememberNode files node call).1 ↔ node.RememberedNamed stores call := by
  unfold rememberNode MetadataNode.RememberedNamed
  by_cases hskip : call.isSelf = true ∨ call.outdated = true ∨ call.eager = false
  · rw [if_pos hskip]
    exact iff_of_true h (fun hnot => absurd hskip hnot)
  · rw [if_neg hskip, forall_prop_of_true hskip,
      ← stores.confined_mature_iff h node call.takenAtMaturing]
    cases hcertificate : node.certificate with
    | none =>
        cases hmature : stores.mature files node call.takenAtMaturing with
        | mk matured result => cases result <;> simp
    | some certificate =>
        cases hname : certificate.readCommonName with
        | error error =>
            have hnames : certificate.Names stores.nodeStorage node.restHost := by
              intro commonName hread
              rw [hname] at hread
              cases hread
            cases hmature : stores.mature files node call.takenAtMaturing with
            | mk matured result =>
                cases result with
                | error error => simp [hnames]
                | ok matures =>
                    simpa [hnames] using confined_storeNodeCertificate_iff matured
                      stores.nodeStorage node.restHost node.port certificate call.taken
        | ok commonName =>
            have hok := stores.mature_ok_iff files hcertificate hname call.takenAtMaturing
            rw [← hok]
            cases hmature : stores.mature files node call.takenAtMaturing with
            | mk matured result =>
                cases result with
                | error error => simp
                | ok matures =>
                    simpa using confined_storeNodeCertificate_iff matured stores.nodeStorage
                      node.restHost node.port certificate call.taken

/-- One operation keeps the cache confined exactly when it stores every certificate in the file
of the host that it is of. -/
theorem confined_step_iff (op : CertificateOp) :
    Confined (stores.step files op) ↔ stores.StoresNamed files op := by
  cases op with
  | getCertificate host port handshake =>
      exact stores.confined_getCertificate_iff h host port handshake
  | executeMethod host port sslError handshake =>
      exact stores.confined_executeMethod_iff h host port sslError handshake
  | mature node taken => exact stores.confined_mature_iff h node taken
  | rememberNode node call => exact stores.confined_rememberNode_iff h node call

omit h in
/-- The cache is confined throughout a run exactly when it is at its start and every operation
stores every certificate in the file of the host that it is of. -/
theorem cache_confined_iff (files : CertificateFiles) (ops : List CertificateOp) :
    Execution.Throughout stores.step Confined files ops ↔
      Confined files ∧ Execution.Guarded stores.step stores.StoresNamed files ops := by
  have hrun : Confined files → (Execution.Throughout stores.step Confined files ops ↔
      Execution.Guarded stores.step stores.StoresNamed files ops) := by
    intro hfiles
    exact Execution.throughout_iff_guarded (P := Confined) (I := fun _ => True)
      (fun _ _ _ => trivial) (fun _ op _ hconfined => stores.confined_step_iff hconfined op)
      trivial hfiles ops
  constructor
  · intro hthroughout
    exact ⟨hthroughout.start, (hrun hthroughout.start).mp hthroughout⟩
  · rintro ⟨hfiles, hguarded⟩
    exact (hrun hfiles).mpr hguarded

end CertificateStores

/-! ## Certificates that name another file -/

/-- A certificate with one common name. -/
def certificateNaming (commonName : String) : TlsCertificate where
  subjectComponents := [(utf8 "CN", utf8 commonName)]
  publicBytes := []

@[simp]
theorem readCommonName_certificateNaming (commonName : String) :
    (certificateNaming commonName).readCommonName = .ok commonName := by
  simp [certificateNaming, TlsCertificate.readCommonName]

/-- A handshake in which a peer presents a certificate with a common name. -/
def handshakePresenting (commonName : String) : CertificateHandshake where
  fetch := fun _ => .fetched
  presented := some (certificateNaming commonName)
  taken := true

/-- One directory for all storages. -/
def oneStore : CertificateStores where
  storage := ["var".toList, "certificates".toList]
  certStoreFunction := ["var".toList, "certificates".toList]
  nodeStorage := ["var".toList, "certificates".toList]

theorem getCertificate_presenting (files : CertificateFiles) (host commonName : String)
    (port : Nat) :
    oneStore.step files (.getCertificate host port (handshakePresenting commonName)) =
      ⟨oneStore.storage, generateCertificateFilepath oneStore.storage commonName port,
        certificateNaming commonName, host, port⟩ :: files := by
  have hfetch : NuLink.getCertificate (fun _ => .fetched) 0 3 = .ok () := rfl
  simp [CertificateStores.step, CertificateStores.getCertificate, handshakePresenting, hfetch,
    storeNodeCertificate, writeTlsCertificate]

/-- A peer puts its certificate in the place of the one of another host, and another peer has a
file written outside of the certificate directory. -/
theorem certificate_of_other_host :
    let impostor : List CertificateOp :=
      [.getCertificate "203.0.113.9" 9151 (handshakePresenting "198.51.100.4")]
    let intruder : List CertificateOp :=
      [.getCertificate "203.0.113.9" 9151 (handshakePresenting "../keystore/key")]
    (((impostor.foldl oneStore.step []).read
        (generateCertificateFilepath oneStore.storage "198.51.100.4" 9151)).map
          CertificateWrite.host = some "203.0.113.9" ∧
      ¬ Execution.Throughout oneStore.step Confined [] impostor) ∧
    ((intruder.foldl oneStore.step []).map CertificateWrite.filepath =
        [["var".toList, "keystore".toList, "key_9151.pem".toList]] ∧
      ¬ Execution.Throughout oneStore.step Confined [] intruder) := by
  have hsame : ¬ NamesHost oneStore.storage "198.51.100.4" "203.0.113.9" := by
    rw [namesHost_iff_of_notMem oneStore.storage (by decide)]
    decide
  have hinside : ¬ NamesHost oneStore.storage "../keystore/key" "203.0.113.9" := by decide
  have hfetch : NuLink.getCertificate (fun _ => .fetched) 0 3 = .ok () := rfl
  have hrun : ∀ commonName, Execution.Throughout oneStore.step Confined []
      [.getCertificate "203.0.113.9" 9151 (handshakePresenting commonName)] →
        NamesHost oneStore.storage commonName "203.0.113.9" := by
    intro commonName hthroughout
    have hstored : Confined (oneStore.step []
      (.getCertificate "203.0.113.9" 9151 (handshakePresenting commonName))) := hthroughout.2
    rw [oneStore.confined_step_iff (by simp [Confined])] at hstored
    exact hstored (certificateNaming commonName) hfetch rfl rfl commonName
      (readCommonName_certificateNaming commonName)
  have hpath : generateCertificateFilepath oneStore.storage "../keystore/key" 9151 =
      ["var".toList, "keystore".toList, "key_9151.pem".toList] := by decide
  refine ⟨⟨?_, fun h => hsame (hrun _ h)⟩, ⟨?_, fun h => hinside (hrun _ h)⟩⟩
  · rw [List.foldl_cons, List.foldl_nil, getCertificate_presenting]
    simp [CertificateFiles.read]
  · rw [List.foldl_cons, List.foldl_nil, getCertificate_presenting, List.map_singleton, hpath]

end NuLink
