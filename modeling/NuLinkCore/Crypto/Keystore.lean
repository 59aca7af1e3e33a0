import Mathlib.Data.List.DropRight
import NuLinkCore.Lib.Json.Value
import NuLinkCore.Network.Framing

/-!
# Keystore files

A keystore keeps an encrypted secret in a file whose name is made of the second in which
it was written and of an id.  Saving and loading both make the name from the clock, and
constructing a keystore parses the name again.

The key derivation, the secret box and the keys of the secret are given by a structure,
and a directory maps the names in it to files.  A clock reading is a rational number of
seconds.

Main results:

- Theorem {lit}`deserializeKeystore_serializeKeystore`: a written payload is read back.
- Theorem {lit}`validateKeystoreFilename_of_nonneg`: a name is parsed if it was made at or after
  the epoch.
- Theorem {lit}`keystore_round_trip_iff`: when a saved keystore is loaded and unlocked.
-/

namespace NuLink

open Collections Numerals

/-! ## What the keystore uses -/

/-- The functions of the cryptographic libraries. -/
structure KeystoreCrypto where
  /-- The bytes of the verifying key of the signing key that a secret derives, unless the secret
  has a wrong length. -/
  verifyingKey : Bytes → Option Bytes
  deriveKeyMaterialFromPassword : (password salt : Bytes) → Bytes
  secretBoxEncrypt : (keyMaterial salt nonce plaintext : Bytes) → Bytes
  /-- {lit}`none` where the ciphertext is not authentic. -/
  secretBoxDecrypt : (keyMaterial salt ciphertext : Bytes) → Option Bytes

/-- A compressed verifying key has 33 bytes, and decryption inverts encryption. -/
structure KeystoreCrypto.Lawful (crypto : KeystoreCrypto) : Prop where
  length_verifyingKey : ∀ secret key, crypto.verifyingKey secret = some key → key.length = 33
  decrypt_encrypt : ∀ keyMaterial salt nonce plaintext,
    crypto.secretBoxDecrypt keyMaterial salt
      (crypto.secretBoxEncrypt keyMaterial salt nonce plaintext) = some plaintext

/-- What is in a directory under a name. -/
inductive Entry where
  | file (content : Bytes)
  | other
deriving DecidableEq

abbrev Directory := Dict String Entry

inductive KeystoreError where
  | invalidPassword (failures : List String)
  | keystoreExists
  | notFound
  | notAFile
  | invalid
  | authenticationFailed
  /-- The exceptions of the libraries. -/
  | other
deriving DecidableEq, Repr

/-! ## Payloads -/

structure KeystorePayload where
  version : String
  created : String
  key : Bytes
  passwordSalt : Bytes
  wrapperSalt : Bytes
deriving DecidableEq

def keystoreVersion : String := "2.0"

/-- The members that are written: byte strings are hexadecimal. -/
def KeystorePayload.members (payload : KeystorePayload) : List (String × Json) :=
  [("version", .str payload.version), ("created", .str payload.created),
    ("key", .str (String.ofList (Hex.encode payload.key))),
    ("password_salt", .str (String.ofList (Hex.encode payload.passwordSalt))),
    ("wrapper_salt", .str (String.ofList (Hex.encode payload.wrapperSalt)))]

/-- {lit}`_serialize_keystore`. -/
def serializeKeystore (payload : KeystorePayload) : Bytes :=
  utf8 (Json.dumps (.obj payload.members) (some 4))

/-- {lit}`bytes.fromhex(payload[field])`. -/
def hexField (members : List (String × Json)) (field : String) : Except KeystoreError Bytes :=
  match members.lookup field with
  | some (.str text) => (Hex.decode text.toList).elim (.error .other) .ok
  | _ => .error .other

/-- The three fields that are decrypted. -/
structure EncryptedSecret where
  key : Bytes
  passwordSalt : Bytes
  wrapperSalt : Bytes
deriving DecidableEq

/-- {lit}`_deserialize_keystore`; the other fields are not used. -/
def deserializeKeystore (content : Bytes) : Except KeystoreError EncryptedSecret := do
  let text ← (decodeUtf8 content).elim (.error .other) .ok
  match ← (Json.loads text).elim (.error .invalid) .ok with
  | .obj members =>
      let key ← hexField members "key"
      let passwordSalt ← hexField members "password_salt"
      let wrapperSalt ← hexField members "wrapper_salt"
      return ⟨key, passwordSalt, wrapperSalt⟩
  | _ => .error .other

/-! ## Names -/

/-- {lit}`int(time.time())`. -/
def utcNowish (time : ℚ) : Int := time.num.tdiv time.den

/-- The name that {lit}`generate_keystore_filepath` gives a file. -/
def generateKeystoreFilepath (time : ℚ) (id : String) : String :=
  printInt (utcNowish time) ++ "-" ++ id ++ ".priv"

/-- {lit}`str.rstrip`: removes characters of a set at the end. -/
def rstrip (chars text : List Char) : List Char := text.rdropWhile (· ∈ chars)

def idSize : Nat := 32

/-- The creation time and the id in a file name. -/
def validateKeystoreFilename (name : String) : Except KeystoreError (String × String) :=
  let baseName := rstrip ['.', 'p', 'r', 'i', 'v'] name.toList
  match baseName.splitOn '-' with
  | [created, keystoreId] =>
      if keystoreId.length = idSize ∧ keystoreId.all Hex.isDigit = true then
        .ok (String.ofList created, String.ofList keystoreId)
      else .error .invalid
  | _ => .error .invalid

/-- {lit}`_parse_path`.  The test of the pattern of the name raises nothing. -/
def parsePath (directory : Directory) (name : String) :
    Except KeystoreError (String × String) :=
  match directory.get? name with
  | none => .error .notFound
  | some .other => .error .notAFile
  | some (.file _) => validateKeystoreFilename name

/-! ## Keystores -/

structure Keystore where
  keystorePath : String
  created : String
  id : String
  /-- {lit}`none` while the keystore is locked. -/
  secret : Option Bytes
deriving DecidableEq

/-- {lit}`Keystore.__init__`. -/
def Keystore.ofPath (directory : Directory) (name : String) : Except KeystoreError Keystore := do
  let (created, id) ← parsePath directory name
  return ⟨name, created, id, none⟩

/-- {lit}`Keystore.load`. -/
def Keystore.load (id : String) (directory : Directory) (time : ℚ) :
    Except KeystoreError Keystore :=
  Keystore.ofPath directory (generateKeystoreFilepath time id)

/-- {lit}`Keystore.unlock`. -/
def Keystore.unlock (crypto : KeystoreCrypto) (keystore : Keystore) (directory : Directory)
    (password : String) : Except KeystoreError Keystore :=
  match directory.get? keystore.keystorePath with
  | some (.file content) => do
      let payload ← deserializeKeystore content
      let material := crypto.deriveKeyMaterialFromPassword (utf8 password) payload.passwordSalt
      match crypto.secretBoxDecrypt material payload.wrapperSalt payload.key with
      | some secret => return { keystore with secret := some secret }
      | none => .error .authenticationFailed
  | _ => .error .notFound

def minimumPasswordLength : Nat := 8

/-- {lit}`validate_keystore_password`. -/
def validateKeystorePassword (password : String) : List String :=
  (if password ≠ "" then [] else ["Password must not be blank."]) ++
    (if minimumPasswordLength ≤ password.length then []
    else ["Password must be at least 8 characters long."])

/-- What a keystore is saved with: two salts and a nonce are random, and the text of a second
reading of the clock goes into the file. -/
structure SaveRequest where
  secret : Bytes
  password : String
  passwordSalt : Bytes
  wrapperSalt : Bytes
  nonce : Bytes
  created : String

/-- The id of the keystore of a secret. -/
def keystoreId (verifyingKey : Bytes) : String :=
  String.ofList ((Hex.encode verifyingKey).take idSize)

def SaveRequest.payload (crypto : KeystoreCrypto) (request : SaveRequest) : KeystorePayload :=
  let material :=
    crypto.deriveKeyMaterialFromPassword (utf8 request.password) request.passwordSalt
  { version := keystoreVersion
    created := request.created
    key := crypto.secretBoxEncrypt material request.wrapperSalt request.nonce request.secret
    passwordSalt := request.passwordSalt
    wrapperSalt := request.wrapperSalt }

/-- {lit}`Keystore.__save`: the id of the keystore and the directory with its file. -/
def Keystore.save (crypto : KeystoreCrypto) (request : SaveRequest) (directory : Directory)
    (time : ℚ) : Except KeystoreError (String × Directory) := do
  let failures := validateKeystorePassword request.password
  if failures ≠ [] then throw (.invalidPassword failures)
  let verifyingKey ← (crypto.verifyingKey request.secret).elim (.error .other) .ok
  let name := generateKeystoreFilepath time (keystoreId verifyingKey)
  if directory.contains name then throw .keystoreExists
  return (keystoreId verifyingKey,
    directory.set name (.file (serializeKeystore (request.payload crypto))))

/-! ## Payloads are read back -/

theorem hexField_encode {members : List (String × Json)} {field : String} {bytes : Bytes}
    (h : members.lookup field = some (.str (String.ofList (Hex.encode bytes)))) :
    hexField members field = .ok bytes := by
  simp [hexField, h]

theorem KeystorePayload.members_distinct (payload : KeystorePayload) :
    (Json.obj payload.members).Distinct := by
  simp [members, Json.Distinct, Json.DistinctMembers]

/-- A written payload is read back. -/
theorem deserializeKeystore_serializeKeystore (payload : KeystorePayload) :
    deserializeKeystore (serializeKeystore payload) =
      .ok ⟨payload.key, payload.passwordSalt, payload.wrapperSalt⟩ := by
  have hloads := Json.loads_dumps payload.members_distinct (some 4)
  have hkey : hexField payload.members "key" = .ok payload.key := hexField_encode rfl
  have hpassword : hexField payload.members "password_salt" = .ok payload.passwordSalt :=
    hexField_encode rfl
  have hwrapper : hexField payload.members "wrapper_salt" = .ok payload.wrapperSalt :=
    hexField_encode rfl
  simp only [deserializeKeystore, serializeKeystore, decodeUtf8_utf8, Option.elim_some, bind,
    Except.bind, hloads, hkey, hpassword, hwrapper]
  rfl

/-! ## Names are parsed -/

theorem rstrip_append {chars text tail : List Char} (htail : ∀ c ∈ tail, c ∈ chars)
    (htext : ∀ h : text ≠ [], text.getLast h ∉ chars) : rstrip chars (text ++ tail) = text := by
  induction tail using List.reverseRecOn with
  | nil =>
      rw [List.append_nil, rstrip, List.rdropWhile_eq_self_iff]
      simpa using htext
  | append_singleton tail c ih =>
      have hc : c ∈ chars := htail c (by simp)
      rw [← List.append_assoc, rstrip, List.rdropWhile_concat_pos _ _ _ (by simpa using hc)]
      exact ih fun d hd => htail d (List.mem_append_left _ hd)

theorem minus_not_mem_repr (n : Nat) : '-' ∉ n.repr.toList := by
  intro h
  exact absurd (isDigit_of_mem_repr h) (by decide)

/-- The id of a keystore has 32 hexadecimal digits. -/
structure IsKeystoreId (id : String) : Prop where
  length : id.toList.length = idSize
  isDigit : ∀ c ∈ id.toList, Hex.isDigit c = true

theorem KeystoreCrypto.Lawful.isKeystoreId {crypto : KeystoreCrypto} (h : crypto.Lawful)
    {secret key : Bytes} (hkey : crypto.verifyingKey secret = some key) :
    IsKeystoreId (keystoreId key) := by
  have hlength := h.length_verifyingKey secret key hkey
  constructor
  · simp [keystoreId, hlength, idSize]
  · intro c hc
    rw [keystoreId, String.toList_ofList] at hc
    exact Hex.isDigit_of_mem_encode (List.mem_of_mem_take hc)

theorem IsKeystoreId.minus_not_mem {id : String} (h : IsKeystoreId id) : '-' ∉ id.toList := by
  intro hmem
  exact absurd (h.isDigit _ hmem) (by decide)

/-- No character of the suffix is a digit of an id. -/
theorem IsKeystoreId.getLast_notMem {id : String} (h : IsKeystoreId id) (front : List Char)
    (hne : front ++ '-' :: id.toList ≠ []) :
    (front ++ '-' :: id.toList).getLast hne ∉ ['.', 'p', 'r', 'i', 'v'] := by
  have hid : id.toList ≠ [] := by
    intro hnil
    have hlength := h.length
    rw [hnil] at hlength
    cases hlength
  rw [List.getLast_append_of_ne_nil _ (by simp), List.getLast_cons hid]
  intro hmem
  have hdigit := h.isDigit _ (List.getLast_mem hid)
  have hnot : ['.', 'p', 'r', 'i', 'v'].all (fun c => !Hex.isDigit c) = true := by decide
  simpa [hdigit] using List.all_eq_true.mp hnot _ hmem

/-- The suffix of a file name is taken off, and nothing of the id. -/
theorem IsKeystoreId.rstrip_name {id : String} (h : IsKeystoreId id) (created : String) :
    rstrip ['.', 'p', 'r', 'i', 'v'] (created ++ "-" ++ id ++ ".priv").toList =
      created.toList ++ '-' :: id.toList := by
  have hchars : (created ++ "-" ++ id ++ ".priv").toList =
      (created.toList ++ '-' :: id.toList) ++ ['.', 'p', 'r', 'i', 'v'] := by
    simp [String.toList_append]
  rw [hchars]
  exact rstrip_append (fun c hc => hc) (h.getLast_notMem created.toList)

/-- A name that was made at or after the epoch is parsed. -/
theorem validateKeystoreFilename_of_nonneg {id : String} (h : IsKeystoreId id) {time : ℚ}
    (htime : 0 ≤ utcNowish time) :
    validateKeystoreFilename (generateKeystoreFilepath time id) =
      .ok (printInt (utcNowish time), id) := by
  rcases Int.eq_ofNat_of_zero_le htime with ⟨n, hn⟩
  have hminus : '-' ∉ (printInt (utcNowish time)).toList := by
    rw [hn]
    exact minus_not_mem_repr n
  rw [validateKeystoreFilename, generateKeystoreFilepath, h.rstrip_name,
    List.splitOn_append_cons_self_of_not_mem hminus, List.splitOn_eq_singleton h.minus_not_mem]
  simp only [h.length, true_and, List.all_eq_true.mpr h.isDigit, if_true, String.ofList_toList]

/-- A name that was made before the epoch has a sign, and is not. -/
theorem validateKeystoreFilename_of_neg {id : String} (h : IsKeystoreId id) {time : ℚ}
    (htime : utcNowish time < 0) :
    validateKeystoreFilename (generateKeystoreFilepath time id) = .error .invalid := by
  rcases Int.eq_negSucc_of_lt_zero htime with ⟨n, hn⟩
  have hchars : (printInt (utcNowish time)).toList = [] ++ '-' :: (n.succ).repr.toList := by
    rw [hn]
    simp [printInt, Int.repr, String.toList_append]
  rw [validateKeystoreFilename, generateKeystoreFilepath, h.rstrip_name, hchars,
    List.append_assoc, List.cons_append, List.splitOn_append_cons_self_of_not_mem (by simp),
    List.splitOn_append_cons_self_of_not_mem (minus_not_mem_repr _),
    List.splitOn_eq_singleton h.minus_not_mem]

theorem generateKeystoreFilepath_inj (id : String) {time time' : ℚ} :
    generateKeystoreFilepath time id = generateKeystoreFilepath time' id ↔
      utcNowish time = utcNowish time' := by
  constructor
  · intro h
    apply printInt_injective
    simpa [generateKeystoreFilepath, String.append_assoc] using h
  · intro h
    rw [generateKeystoreFilepath, generateKeystoreFilepath, h]

/-! ## The round trip -/

/-- A directory holds a secret under a name, for a password. -/
def HoldsSecret (crypto : KeystoreCrypto) (directory : Directory) (name password : String)
    (secret : Bytes) : Prop :=
  ∃ content payload, directory.get? name = some (.file content) ∧
    deserializeKeystore content = .ok payload ∧
      crypto.secretBoxDecrypt
        (crypto.deriveKeyMaterialFromPassword (utf8 password) payload.passwordSalt)
        payload.wrapperSalt payload.key = some secret

/-- Loading a keystore by its id and unlocking it recovers a secret. -/
def Recovers (crypto : KeystoreCrypto) (id : String) (directory : Directory) (time : ℚ)
    (password : String) (secret : Bytes) : Prop :=
  ∃ keystore unlocked, Keystore.load id directory time = .ok keystore ∧
    keystore.unlock crypto directory password = .ok unlocked ∧ unlocked.secret = some secret

/-- A keystore is unlocked to what its file holds. -/
theorem unlock_iff {crypto : KeystoreCrypto} (keystore : Keystore) {directory : Directory}
    {password : String} {secret : Bytes} :
    (∃ unlocked, keystore.unlock crypto directory password = .ok unlocked ∧
        unlocked.secret = some secret) ↔
      HoldsSecret crypto directory keystore.keystorePath password secret := by
  unfold Keystore.unlock HoldsSecret
  cases hfile : directory.get? keystore.keystorePath with
  | none => simp
  | some entry =>
      cases entry with
      | other => simp
      | file content =>
          cases hpayload : deserializeKeystore content with
          | error e => simp [hpayload, bind, Except.bind]
          | ok payload =>
              cases hsecret : crypto.secretBoxDecrypt
                  (crypto.deriveKeyMaterialFromPassword (utf8 password) payload.passwordSalt)
                  payload.wrapperSalt payload.key with
              | none => simp [hpayload, hsecret, bind, Except.bind]
              | some found => simp [hpayload, hsecret, bind, Except.bind, pure, Except.pure]

/-- Loading succeeds on files whose name was made at or after the epoch. -/
theorem load_eq_ok_iff {id : String} (hid : IsKeystoreId id) {directory : Directory} {time : ℚ}
    {keystore : Keystore} :
    Keystore.load id directory time = .ok keystore ↔
      (∃ content, directory.get? (generateKeystoreFilepath time id) = some (.file content)) ∧
        0 ≤ utcNowish time ∧
          keystore = ⟨generateKeystoreFilepath time id, printInt (utcNowish time), id, none⟩ := by
  simp only [Keystore.load, Keystore.ofPath, parsePath, bind, Except.bind, pure, Except.pure]
  cases hfile : directory.get? (generateKeystoreFilepath time id) with
  | none => simp
  | some entry =>
      cases entry with
      | other => simp
      | file content =>
          rcases lt_or_ge (utcNowish time) 0 with hneg | hnonneg
          · simp [validateKeystoreFilename_of_neg hid hneg, not_le_of_gt hneg]
          · simp [validateKeystoreFilename_of_nonneg hid hnonneg, hnonneg, eq_comm]

theorem recovers_iff {crypto : KeystoreCrypto} {id : String} (hid : IsKeystoreId id)
    {directory : Directory} {time : ℚ} {password : String} {secret : Bytes} :
    Recovers crypto id directory time password secret ↔
      0 ≤ utcNowish time ∧
        HoldsSecret crypto directory (generateKeystoreFilepath time id) password secret := by
  constructor
  · intro h
    rcases h with ⟨keystore, unlocked, hload, hunlock⟩
    rcases (load_eq_ok_iff hid).mp hload with ⟨-, htime, rfl⟩
    exact ⟨htime, (unlock_iff _).mp ⟨unlocked, hunlock⟩⟩
  · intro h
    rcases h with ⟨htime, hholds⟩
    have hfile := hholds
    rcases hfile with ⟨content, payload, hfile, -⟩
    let keystore : Keystore :=
      ⟨generateKeystoreFilepath time id, printInt (utcNowish time), id, none⟩
    rcases (unlock_iff keystore).mpr hholds with ⟨unlocked, hunlock⟩
    exact ⟨keystore, unlocked, (load_eq_ok_iff hid).mpr ⟨⟨content, hfile⟩, htime, rfl⟩, hunlock⟩

/-- What a successful save leaves. -/
theorem save_eq_ok {crypto : KeystoreCrypto} {request : SaveRequest} {directory : Directory}
    {time : ℚ} {id : String} {saved : Directory}
    (h : Keystore.save crypto request directory time = .ok (id, saved)) :
    ∃ key, crypto.verifyingKey request.secret = some key ∧ id = keystoreId key ∧
      directory.get? (generateKeystoreFilepath time id) = none ∧
      saved = directory.set (generateKeystoreFilepath time id)
        (.file (serializeKeystore (request.payload crypto))) := by
  simp only [Keystore.save, bind, Except.bind, pure, Except.pure, throw, throwThe,
    MonadExceptOf.throw] at h
  split_ifs at h with hfailures
  cases hkey : crypto.verifyingKey request.secret with
  | none => simp [hkey] at h
  | some key =>
      simp only [hkey, Option.elim_some] at h
      split_ifs at h with hexists
      cases h
      refine ⟨key, rfl, rfl, ?_, rfl⟩
      simpa [Dict.contains] using hexists

/-- A saved keystore is recovered exactly when it is loaded in the second in which it was saved,
not before the epoch, or when the directory held a keystore of the same secret and password
under the name of the second in which it is loaded. -/
theorem keystore_round_trip_iff {crypto : KeystoreCrypto} (hcrypto : crypto.Lawful)
    {request : SaveRequest} {directory saved : Directory} {timeSave : ℚ} {id : String}
    (hsave : Keystore.save crypto request directory timeSave = .ok (id, saved)) (timeLoad : ℚ) :
    Recovers crypto id saved timeLoad request.password request.secret ↔
      0 ≤ utcNowish timeLoad ∧
        (utcNowish timeLoad = utcNowish timeSave ∨
          HoldsSecret crypto directory (generateKeystoreFilepath timeLoad id) request.password
            request.secret) := by
  rcases save_eq_ok hsave with ⟨key, hkey, rfl, hfresh, rfl⟩
  rw [recovers_iff (hcrypto.isKeystoreId hkey)]
  apply and_congr_right
  intro _
  by_cases htime : utcNowish timeLoad = utcNowish timeSave
  · have hname := (generateKeystoreFilepath_inj (keystoreId key)).mpr htime
    simp only [htime, true_or, iff_true]
    exact ⟨_, _, by rw [hname, Dict.get?_set, if_pos rfl],
      deserializeKeystore_serializeKeystore _, hcrypto.decrypt_encrypt _ _ _ _⟩
  · have hname : generateKeystoreFilepath timeLoad (keystoreId key) ≠
        generateKeystoreFilepath timeSave (keystoreId key) := by
      intro heq
      exact htime ((generateKeystoreFilepath_inj _).mp heq)
    simp only [htime, false_or, HoldsSecret, Dict.get?_set, if_neg hname]

/-! ## A sample -/

/-- A secret box that puts the key before the plaintext. -/
def sampleCrypto : KeystoreCrypto where
  verifyingKey secret := if secret.length = 32 then some (2 :: secret) else none
  deriveKeyMaterialFromPassword password salt := password ++ salt
  secretBoxEncrypt keyMaterial _ _ plaintext := keyMaterial ++ plaintext
  secretBoxDecrypt keyMaterial _ ciphertext :=
    if ciphertext.take keyMaterial.length = keyMaterial then
      some (ciphertext.drop keyMaterial.length)
    else none

theorem sampleCrypto_lawful : sampleCrypto.Lawful where
  length_verifyingKey := by
    intro secret key h
    simp only [sampleCrypto] at h
    split_ifs at h with hlength
    cases h
    rw [List.length_cons, hlength]
  decrypt_encrypt := by
    intro keyMaterial salt nonce plaintext
    simp [sampleCrypto]

def sampleRequest : SaveRequest where
  secret := List.replicate 32 7
  password := "password"
  passwordSalt := [1]
  wrapperSalt := [2]
  nonce := [3]
  created := "100.5"

def sampleId : String := keystoreId (2 :: List.replicate 32 7)

/-- The directory in which the sample was saved 100 seconds after the epoch. -/
def sampleSaved : Directory :=
  Dict.empty.set (generateKeystoreFilepath 100 sampleId)
    (.file (serializeKeystore (sampleRequest.payload sampleCrypto)))

theorem sample_save :
    Keystore.save sampleCrypto sampleRequest Dict.empty 100 = .ok (sampleId, sampleSaved) := by
  rfl

theorem keystore_round_trip_iff_sample :
    Recovers sampleCrypto sampleId sampleSaved (1003 / 10) "password" (List.replicate 32 7) ↔
      0 ≤ utcNowish (1003 / 10) ∧
        (utcNowish (1003 / 10) = utcNowish 100 ∨
          HoldsSecret sampleCrypto Dict.empty (generateKeystoreFilepath (1003 / 10) sampleId)
            "password" (List.replicate 32 7)) :=
  keystore_round_trip_iff sampleCrypto_lawful sample_save (1003 / 10)

/-- A second later the saved keystore is not found. -/
theorem keystore_lost_after_a_second :
    Keystore.save sampleCrypto sampleRequest Dict.empty 100 = .ok (sampleId, sampleSaved) ∧
      Keystore.load sampleId sampleSaved 101 = .error .notFound ∧
        ¬ Recovers sampleCrypto sampleId sampleSaved 101 "password" (List.replicate 32 7) := by
  have hname : generateKeystoreFilepath 101 sampleId ≠ generateKeystoreFilepath 100 sampleId := by
    intro heq
    exact absurd ((generateKeystoreFilepath_inj _).mp heq) (by decide)
  have hload : Keystore.load sampleId sampleSaved 101 = .error .notFound := by
    simp [Keystore.load, Keystore.ofPath, parsePath, sampleSaved, hname, bind, Except.bind]
  refine ⟨sample_save, hload, ?_⟩
  intro h
  rcases h with ⟨keystore, unlocked, hloaded, -⟩
  rw [hload] at hloaded
  cases hloaded

end NuLink
