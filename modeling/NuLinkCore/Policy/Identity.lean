import NuLinkCore.Lib.Base64
import NuLinkCore.Lib.Dict
import NuLinkCore.Lib.Hex
import NuLinkCore.Network.Framing

/-!
# Character cards

A card holds the public materials of an Alice or of a Bob under an optional nickname.  Its
bytes are a header, the keys and the nickname behind a length; they also travel as
hexadecimal or base64 text and in files.

The keys, the hash function and the splitter of byte strings are given by a structure.

Main results:

- Theorem {lit}`Card.fromBytes_toBytes`: a card that is not too long is restored from its bytes.
- Theorem {lit}`card_round_trip_iff`: which cards are restored from every form.
-/

namespace NuLink

open Collections

/-! ## What cards use -/

inductive CardCharacter where
  | alice
  | bob
deriving DecidableEq, Repr

/-- The constants and the functions of the libraries, over a type of public keys. -/
structure CardCodec (K : Type) where
  /-- {lit}`bytes(ALICE)` and {lit}`bytes(BOB)`. -/
  flag : CardCharacter → Bytes
  keyBytes : K → Bytes
  keyOfBytes : Bytes → Option K
  blake2b : Bytes → Bytes
  /-- {lit}`bytes(VariableLengthBytestring(b))`. -/
  variableLength : Bytes → Bytes
  /-- Splits a byte string into parts of given lengths; a part without one carries its own. -/
  split : List (Option Nat) → Bytes → Option (List Bytes)

/-- The documented behaviour of the libraries: a variable part has a header of four bytes, and
what was put together is split again. -/
structure CardCodec.Lawful {K : Type} (codec : CardCodec K) : Prop where
  length_flag : ∀ character, (codec.flag character).length = 8
  flag_ne : codec.flag .alice ≠ codec.flag .bob
  length_keyBytes : ∀ key, (codec.keyBytes key).length = 33
  keyOfBytes_keyBytes : ∀ key, codec.keyOfBytes (codec.keyBytes key) = some key
  length_variableLength : ∀ bytes, bytes.length < 2 ^ 32 →
    (codec.variableLength bytes).length = 4 + bytes.length
  split_append : ∀ (parts : List Bytes) (last : Bytes), last.length < 2 ^ 32 →
    codec.split (parts.map (fun part => some part.length) ++ [none])
      (parts.flatten ++ codec.variableLength last) = some (parts ++ [last])

inductive CardError where
  | unsupportedCardType
  | nicknameTooLong
  | cardTooLong (length : Nat)
  | unknownHeader
  | unknownCard
  | fileExists
  /-- The exceptions of the libraries and of the operating system. -/
  | other
deriving DecidableEq, Repr

/-! ## Cards -/

def maxNicknameSize : Nat := 32

/-- The fixed parts of a card of Bob: the header and two keys. -/
def basePayloadSize : Nat := 8 + 33 + 33

def maxCardLength : Nat := basePayloadSize + maxNicknameSize + 2

def cardIdLength : Nat := 10

/-- A nickname that passes the length check; an empty one counts as none. -/
abbrev Nickname := {bytes : Bytes // bytes ≠ [] ∧ bytes.length ≤ maxNicknameSize}

structure Card (K : Type) where
  character : CardCharacter
  verifyingKey : K
  encryptingKey : Option K
  nicknameBytes : Option Nickname
deriving DecidableEq

namespace Card

variable {K : Type} (codec : CardCodec K)

/-- {lit}`nickname or None`, and the check of its length. -/
def checkNickname : Option Bytes → Except CardError (Option Nickname)
  | none => .ok none
  | some bytes =>
      if hnil : bytes = [] then .ok none
      else if h : bytes.length ≤ maxNicknameSize then .ok (some ⟨bytes, hnil, h⟩)
      else .error .nicknameTooLong

/-- {lit}`Card.__init__`. -/
def init (characterFlag : Bytes) (verifyingKey : K) (encryptingKey : Option K)
    (nickname : Option Bytes) : Except CardError (Card K) := do
  let character ←
    if characterFlag = codec.flag .alice then .ok CardCharacter.alice
    else if characterFlag = codec.flag .bob then .ok .bob
    else .error .unsupportedCardType
  let nicknameBytes ← checkNickname nickname
  return ⟨character, verifyingKey, encryptingKey, nicknameBytes⟩

/-- {lit}`Card.nickname`. -/
def nickname (card : Card K) : Except CardError (Option String) :=
  match card.nicknameBytes with
  | none => .ok none
  | some bytes => (decodeUtf8 bytes.val).elim (.error .other) fun text => .ok (some text)

/-- The keys that are written. -/
def keys (card : Card K) : Except CardError (List K) :=
  match card.character, card.encryptingKey with
  | .alice, _ => .ok [card.verifyingKey]
  | .bob, some encryptingKey => .ok [card.verifyingKey, encryptingKey]
  | .bob, none => .error .other

/-- {lit}`Card.__payload`. -/
def payload (card : Card K) : Except CardError Bytes := do
  let keys ← card.keys
  return (codec.flag card.character :: keys.map codec.keyBytes).flatten

/-- The digits of {lit}`Card.id`. -/
def id (card : Card K) : Except CardError (List Char) := do
  let payload ← card.payload codec
  return (Hex.encode (codec.blake2b payload)).take cardIdLength

/-- {lit}`Card.__bytes__`. -/
def toBytes (card : Card K) : Except CardError Bytes := do
  let payload ← card.payload codec
  let nickname ← card.nickname
  return payload ++
    codec.variableLength (if nickname.isSome then (card.nicknameBytes.map (·.val)).getD [] else [])

/-- The lengths of the parts of a card after the header. -/
def specification : CardCharacter → List (Option Nat)
  | .alice => [some 33, none]
  | .bob => [some 33, some 33, none]

/-- {lit}`PublicKey.from_bytes`. -/
def key (bytes : Bytes) : Except CardError K := (codec.keyOfBytes bytes).elim (.error .other) .ok

/-- {lit}`Card.from_bytes`. -/
def fromBytes (cardBytes : Bytes) : Except CardError (Card K) := do
  if cardBytes.length > maxCardLength then throw (.cardTooLong cardBytes.length)
  let characterFlag := cardBytes.take 8
  let character ←
    if characterFlag = codec.flag .alice then .ok CardCharacter.alice
    else if characterFlag = codec.flag .bob then .ok .bob
    else .error .unknownHeader
  match codec.split (some 8 :: specification character) cardBytes with
  | some [flag, verifyingKey, nickname] =>
      init codec flag (← key codec verifyingKey) none (some nickname)
  | some [flag, verifyingKey, encryptingKey, nickname] =>
      init codec flag (← key codec verifyingKey) (some (← key codec encryptingKey)) (some nickname)
  | _ => throw .other

/-! ## Text and files -/

def toHex (card : Card K) : Except CardError (List Char) := do
  return Hex.encode (← card.toBytes codec)

def fromHex (hexdata : List Char) : Except CardError (Card K) := do
  fromBytes codec (← (Hex.decode hexdata).elim (.error .other) .ok)

def toBase64 (card : Card K) : Except CardError (List Char) := do
  return Base64.encodeUrlsafe (← card.toBytes codec)

def fromBase64 (b64data : List Char) : Except CardError (Card K) := do
  fromBytes codec (← (Base64.decodeUrlsafe b64data).elim (.error .other) .ok)

/-- The files by their paths, and the paths that can be opened for writing. -/
structure Storage where
  files : Dict String Bytes
  canWrite : String → Bool

/-- The name of {lit}`Card.filepath`. -/
def filepath (card : Card K) : Except CardError String := do
  let id ← card.id codec
  let nickname ← card.nickname
  let identifier := (nickname.elim "" (· ++ ".")) ++ "0x" ++ String.ofList id
  return identifier ++ ".card"

/-- The bytes of ASCII text. -/
def ascii (text : List Char) : Bytes := text.map fun c => UInt8.ofNat c.toNat

/-- {lit}`Card.save`, with the default encoder. -/
def save (card : Card K) (storage : Storage) (overwrite : Bool) :
    Except CardError (String × Storage) := do
  let path ← card.filepath codec
  if storage.files.contains path && !overwrite then throw .fileExists
  if !storage.canWrite path then throw .other
  let cardBytes ← card.toBytes codec
  let content := ascii (Base64.encode cardBytes)
  return (path, { storage with files := storage.files.set path content })

/-- {lit}`Card.load` of a path, with the default decoder. -/
def load (storage : Storage) (path : String) : Except CardError (Card K) :=
  match storage.files.get? path with
  | none => .error .unknownCard
  | some content => do
      let text := content.map fun byte => Char.ofNat byte.toNat
      fromBytes codec (← (Base64.decode text).elim (.error .other) .ok)

/-! ## Restoring a card from its bytes -/

variable {codec}

/-- The bytes of the nickname, none where there is no nickname. -/
def nicknameOrEmpty (card : Card K) : Bytes := (card.nicknameBytes.map (·.val)).getD []

theorem length_nicknameOrEmpty (card : Card K) :
    card.nicknameOrEmpty.length ≤ maxNicknameSize := by
  unfold nicknameOrEmpty
  cases hnickname : card.nicknameBytes with
  | none => exact Nat.zero_le _
  | some bytes => exact bytes.property.2

theorem checkNickname_nicknameOrEmpty (card : Card K) :
    checkNickname (some card.nicknameOrEmpty) = .ok card.nicknameBytes := by
  unfold nicknameOrEmpty
  cases hnickname : card.nicknameBytes with
  | none => rfl
  | some bytes =>
      rw [Option.map_some, Option.getD_some, checkNickname, dif_neg bytes.property.1,
        dif_pos bytes.property.2]

/-- A card that can be written: its nickname is text and Bob has both keys. -/
structure Writable (card : Card K) (text : Option String) (keys : List K) : Prop where
  nickname : card.nickname = .ok text
  keys : card.keys = .ok keys

/-- The nickname of a card that was given one as text. -/
theorem nickname_of_checkNickname {given : Option String} {card : Card K}
    (h : checkNickname (given.map utf8) = .ok card.nicknameBytes) :
    (∃ text, card.nickname = .ok text) ∧
      card.nicknameOrEmpty = (given.map utf8).getD [] := by
  unfold Card.nickname nicknameOrEmpty
  cases given with
  | none =>
      simp only [checkNickname, Option.map_none, Except.ok.injEq] at h
      rw [← h]
      exact ⟨⟨none, rfl⟩, rfl⟩
  | some given =>
      simp only [checkNickname, Option.map_some] at h
      split_ifs at h with hnil hlength
      · rw [← Except.ok.inj h]
        exact ⟨⟨none, rfl⟩, hnil.symm⟩
      · rw [← Except.ok.inj h]
        refine ⟨⟨some given, ?_⟩, rfl⟩
        simp only [decodeUtf8_utf8, Option.elim_some]

theorem isSome_nickname {card : Card K} {text : Option String} (h : card.nickname = .ok text) :
    text.isSome = card.nicknameBytes.isSome := by
  unfold Card.nickname at h
  cases hbytes : card.nicknameBytes with
  | none =>
      simp only [hbytes, Except.ok.injEq] at h
      rw [← h]
      rfl
  | some bytes =>
      simp only [hbytes] at h
      cases hdecode : decodeUtf8 bytes.val with
      | none => simp [hdecode] at h
      | some decoded =>
          simp only [hdecode, Option.elim_some, Except.ok.injEq] at h
          rw [← h]
          rfl

/-- What a card is written as. -/
theorem Writable.toBytes_eq {card : Card K} {text : Option String} {keys : List K}
    (h : card.Writable text keys) :
    card.toBytes codec =
      .ok ((codec.flag card.character :: keys.map codec.keyBytes).flatten ++
        codec.variableLength card.nicknameOrEmpty) := by
  have hnickname : (if text.isSome then card.nicknameOrEmpty else []) = card.nicknameOrEmpty := by
    rw [isSome_nickname h.nickname, nicknameOrEmpty]
    cases card.nicknameBytes with
    | none => rfl
    | some bytes => rfl
  simp only [toBytes, payload, h.keys, h.nickname, bind, Except.bind, pure, Except.pure]
  rw [← hnickname]
  rfl

theorem length_keys (hcodec : codec.Lawful) (keys : List K) :
    (keys.map codec.keyBytes).flatten.length = 33 * keys.length := by
  induction keys with
  | nil => rfl
  | cons key keys ih =>
      rw [List.map_cons, List.flatten_cons, List.length_append, hcodec.length_keyBytes, ih,
        List.length_cons]
      omega

theorem Writable.length_toBytes (hcodec : codec.Lawful) {card : Card K} {text : Option String}
    {keys : List K} (h : card.Writable text keys) {data : Bytes}
    (hdata : card.toBytes codec = .ok data) :
    data.length = 12 + 33 * keys.length + card.nicknameOrEmpty.length := by
  have hnickname := card.length_nicknameOrEmpty
  have hvariable := hcodec.length_variableLength card.nicknameOrEmpty
    (by rw [maxNicknameSize] at hnickname; omega)
  rw [h.toBytes_eq, Except.ok.injEq] at hdata
  rw [← hdata, List.length_append, List.flatten_cons, List.length_append, hvariable,
    length_keys hcodec, hcodec.length_flag]
  omega

/-- The card that is read back: Alice's second key is not written. -/
def restored (card : Card K) : Card K :=
  match card.character with
  | .alice => { card with encryptingKey := none }
  | .bob => card

theorem init_flag (hcodec : codec.Lawful) (character : CardCharacter) (verifyingKey : K)
    (encryptingKey : Option K) (nickname : Option Bytes) :
    init codec (codec.flag character) verifyingKey encryptingKey nickname =
      (checkNickname nickname).map fun nicknameBytes =>
        ⟨character, verifyingKey, encryptingKey, nicknameBytes⟩ := by
  unfold init
  cases character with
  | alice =>
      rw [if_pos rfl]
      cases checkNickname nickname <;> rfl
  | bob =>
      rw [if_neg (Ne.symm hcodec.flag_ne), if_pos rfl]
      cases checkNickname nickname <;> rfl

/-- What was put together for a card is split again. -/
theorem split_parts (hcodec : codec.Lawful) (character : CardCharacter) (keys : List K)
    {nickname : Bytes} (hnickname : nickname.length ≤ maxNicknameSize) :
    codec.split (some 8 :: keys.map (fun _ => some 33) ++ [none])
        ((codec.flag character :: keys.map codec.keyBytes).flatten ++
          codec.variableLength nickname) =
      some (codec.flag character :: keys.map codec.keyBytes ++ [nickname]) := by
  have hsplit := hcodec.split_append (codec.flag character :: keys.map codec.keyBytes) nickname
    (by rw [maxNicknameSize] at hnickname; omega)
  simpa [hcodec.length_flag, hcodec.length_keyBytes, Function.comp_def] using hsplit

/-- A card that is not too long is restored from its bytes. -/
theorem fromBytes_toBytes (hcodec : codec.Lawful) {card : Card K} {text : Option String}
    {keys : List K} (h : card.Writable text keys) {data : Bytes}
    (hdata : card.toBytes codec = .ok data) (hlength : data.length ≤ maxCardLength) :
    fromBytes codec data = .ok card.restored := by
  have hsplit := split_parts hcodec card.character keys card.length_nicknameOrEmpty
  have hnickname := card.checkNickname_nicknameOrEmpty
  have hkeys := h.keys
  rw [h.toBytes_eq, Except.ok.injEq] at hdata
  rw [hdata] at hsplit
  have hflag : data.take 8 = codec.flag card.character := by
    rw [← hdata, List.flatten_cons, List.append_assoc,
      List.take_left' (hcodec.length_flag card.character)]
  rcases card with ⟨character, verifyingKey, encryptingKey, nicknameBytes⟩
  unfold fromBytes
  rw [if_neg (not_lt.mpr hlength), hflag]
  cases character with
  | alice =>
      simp only [Card.keys, Except.ok.injEq] at hkeys
      rw [← hkeys] at hsplit
      simp only [if_pos, bind, Except.bind, specification]
      rw [show codec.split [some 8, some 33, none] data = _ from hsplit]
      simp only [List.map_cons, List.map_nil, List.cons_append, List.nil_append, key,
        hcodec.keyOfBytes_keyBytes, Option.elim_some, init_flag hcodec, hnickname]
      rfl
  | bob =>
      cases encryptingKey with
      | none => simp [Card.keys] at hkeys
      | some encryptingKey =>
          simp only [Card.keys, Except.ok.injEq] at hkeys
          rw [← hkeys] at hsplit
          simp only [if_neg (Ne.symm hcodec.flag_ne), if_pos, bind, Except.bind, specification]
          rw [show codec.split [some 8, some 33, some 33, none] data = _ from hsplit]
          simp only [List.map_cons, List.map_nil, List.cons_append, List.nil_append, key,
            hcodec.keyOfBytes_keyBytes, Option.elim_some, init_flag hcodec, hnickname]
          rfl

/-- A card that is too long is refused. -/
theorem fromBytes_of_long {data : Bytes} (h : maxCardLength < data.length) :
    fromBytes codec data = .error (.cardTooLong data.length) := by
  unfold fromBytes
  rw [if_pos h]
  rfl

/-! ## Cards that are the same -/

/-- The data of two cards that callers see are the same. -/
structure Same (codec : CardCodec K) (card card' : Card K) : Prop where
  character : card'.character = card.character
  verifyingKey : card'.verifyingKey = card.verifyingKey
  nickname : card'.nickname = card.nickname
  id : card'.id codec = card.id codec
  encryptingKey : card.character = .bob → card'.encryptingKey = card.encryptingKey

theorem same_restored (card : Card K) : card.Same codec card.restored := by
  rcases card with ⟨character, verifyingKey, encryptingKey, nicknameBytes⟩
  cases character with
  | alice =>
      constructor
      · rfl
      · rfl
      · rfl
      · rfl
      · intro hbob
        cases hbob
  | bob => exact ⟨rfl, rfl, rfl, rfl, fun _ => rfl⟩

/-- A reader gives a card that is the same as a given one. -/
def ReadBack (codec : CardCodec K) (card : Card K) (result : Except CardError (Card K)) : Prop :=
  ∃ card', result = .ok card' ∧ card.Same codec card'

/-- A card is read back from everything it is written as. -/
structure RoundTrips (codec : CardCodec K) (card : Card K) : Prop where
  bytes : ∃ data, card.toBytes codec = .ok data ∧ card.ReadBack codec (fromBytes codec data)
  hex : ∃ text, card.toHex codec = .ok text ∧ card.ReadBack codec (fromHex codec text)
  base64 : ∃ text, card.toBase64 codec = .ok text ∧ card.ReadBack codec (fromBase64 codec text)
  /-- In a storage in which the file can be written. -/
  file : ∃ path, card.filepath codec = .ok path ∧ ∀ (storage : Storage) (overwrite : Bool),
    storage.canWrite path = true → (storage.files.contains path = true → overwrite = true) →
      ∃ storage', card.save codec storage overwrite = .ok (path, storage') ∧
        card.ReadBack codec (load codec storage' path)

theorem chars_ascii_encode (data : Bytes) :
    (ascii (Base64.encode data)).map (fun byte => Char.ofNat byte.toNat) = Base64.encode data := by
  have hback : ('=' :: Base64.alphabet).map (fun c => Char.ofNat (UInt8.ofNat c.toNat).toNat) =
      ('=' :: Base64.alphabet).map fun c => c := by
    decide +kernel
  rw [ascii, List.map_map]
  calc (Base64.encode data).map
        ((fun byte : UInt8 => Char.ofNat byte.toNat) ∘ fun c => UInt8.ofNat c.toNat)
      = (Base64.encode data).map fun c => c :=
        List.map_congr_left fun c hc => List.map_inj_left.mp hback c (Base64.mem_encode hc)
    _ = Base64.encode data := List.map_id' _

theorem Writable.exists_filepath (codec : CardCodec K) {card : Card K} {text : Option String}
    {keys : List K} (h : card.Writable text keys) : ∃ path, card.filepath codec = .ok path := by
  simp only [filepath, Card.id, payload, h.keys, h.nickname, bind, Except.bind, pure, Except.pure]
  exact ⟨_, rfl⟩

theorem save_eq_ok {card : Card K} {path : String} (hpath : card.filepath codec = .ok path)
    {data : Bytes} (hdata : card.toBytes codec = .ok data) {storage : Storage} {overwrite : Bool}
    (hwrite : storage.canWrite path = true)
    (hsaved : storage.files.contains path = true → overwrite = true) :
    card.save codec storage overwrite =
      .ok (path, { storage with files := storage.files.set path (ascii (Base64.encode data)) }) := by
  have hexists : (storage.files.contains path && !overwrite) = false := by
    cases hcontains : storage.files.contains path with
    | false => rfl
    | true =>
        rw [hsaved hcontains]
        rfl
  simp only [save, hpath, hdata, hexists, hwrite, bind, Except.bind, pure, Except.pure]
  rfl

theorem load_set {storage : Storage} {path : String} {data : Bytes} :
    load codec { storage with files := storage.files.set path (ascii (Base64.encode data)) } path =
      fromBytes codec data := by
  simp only [load, Dict.get?_set, if_true, chars_ascii_encode, Base64.decode_encode]
  rfl

/-- A card is read back from everything it is written as if it is from its bytes. -/
theorem roundTrips_of_fromBytes {card : Card K} {text : Option String} {keys : List K}
    (h : card.Writable text keys) {data : Bytes} (hdata : card.toBytes codec = .ok data)
    (hread : card.ReadBack codec (fromBytes codec data)) : card.RoundTrips codec := by
  rcases h.exists_filepath codec with ⟨path, hpath⟩
  constructor
  · exact ⟨data, hdata, hread⟩
  · refine ⟨Hex.encode data, ?_, ?_⟩
    · simp only [toHex, hdata, bind, Except.bind, pure, Except.pure]
    · rw [fromHex, Hex.decode_encode]
      exact hread
  · refine ⟨Base64.encodeUrlsafe data, ?_, ?_⟩
    · simp only [toBase64, hdata, bind, Except.bind, pure, Except.pure]
    · rw [fromBase64, Base64.decodeUrlsafe_encodeUrlsafe]
      exact hread
  · refine ⟨path, hpath, ?_⟩
    intro storage overwrite hwrite hsaved
    rw [save_eq_ok hpath hdata hwrite hsaved]
    refine ⟨_, rfl, ?_⟩
    rw [load_set]
    exact hread

/-- A card is read back exactly when its bytes are not too long. -/
theorem Writable.roundTrips_iff (hcodec : codec.Lawful) {card : Card K} {text : Option String}
    {keys : List K} (h : card.Writable text keys) :
    card.RoundTrips codec ↔
      12 + 33 * keys.length + card.nicknameOrEmpty.length ≤ maxCardLength := by
  obtain ⟨data, hdata⟩ : ∃ data, card.toBytes codec = .ok data := ⟨_, h.toBytes_eq⟩
  rw [← h.length_toBytes hcodec hdata]
  constructor
  · intro hround
    by_contra hlong
    rcases hround.bytes with ⟨data', hdata', card', hread, -⟩
    rw [hdata, Except.ok.injEq] at hdata'
    rw [← hdata', fromBytes_of_long (not_le.mp hlong)] at hread
    cases hread
  · intro hbound
    exact roundTrips_of_fromBytes h hdata
      ⟨card.restored, fromBytes_toBytes hcodec h hdata hbound, card.same_restored⟩

/-- The keys that are written are one for Alice and two for Bob. -/
theorem exists_keys {card : Card K} (h : card.character = .bob → card.encryptingKey ≠ none) :
    ∃ keys, card.keys = .ok keys ∧ keys.length = if card.character = .alice then 1 else 2 := by
  rcases card with ⟨character, verifyingKey, encryptingKey, nicknameBytes⟩
  cases character with
  | alice => exact ⟨[verifyingKey], rfl, rfl⟩
  | bob =>
      rcases Option.ne_none_iff_exists'.mp (h rfl) with ⟨key, hkey⟩
      dsimp only at hkey
      rw [hkey]
      exact ⟨[verifyingKey, key], rfl, rfl⟩

end Card

/-- A card that the constructor accepts is read back from everything it is written as exactly
when it is a card of Alice or its nickname has at most 30 bytes. -/
theorem card_round_trip_iff {K : Type} {codec : CardCodec K} (hcodec : codec.Lawful)
    {character : CardCharacter} {verifyingKey : K} {encryptingKey : Option K}
    {nickname : Option String} {card : Card K}
    (hcard : Card.init codec (codec.flag character) verifyingKey encryptingKey
      (nickname.map utf8) = .ok card)
    (hbob : character = .bob → encryptingKey ≠ none) :
    card.RoundTrips codec ↔ character = .alice ∨ ((nickname.map utf8).getD []).length ≤ 30 := by
  rw [Card.init_flag hcodec] at hcard
  cases hnickname : Card.checkNickname (nickname.map utf8) with
  | error e =>
      rw [hnickname] at hcard
      cases hcard
  | ok nicknameBytes =>
      rw [hnickname] at hcard
      cases hcard
      let card : Card K := ⟨character, verifyingKey, encryptingKey, nicknameBytes⟩
      have hchecked : Card.checkNickname (nickname.map utf8) = .ok card.nicknameBytes := hnickname
      rcases Card.nickname_of_checkNickname hchecked with ⟨⟨text, htext⟩, hempty⟩
      have hencrypting : card.character = .bob → card.encryptingKey ≠ none := hbob
      rcases Card.exists_keys hencrypting with ⟨keys, hkeys, hcount⟩
      have hwritable : card.Writable text keys := ⟨htext, hkeys⟩
      have hsize := card.length_nicknameOrEmpty
      rw [hwritable.roundTrips_iff hcodec, hcount, show card.character = character from rfl]
      rw [hempty] at hsize ⊢
      simp only [maxCardLength, basePayloadSize, maxNicknameSize] at hsize ⊢
      cases character with
      | alice =>
          simp only [if_true, true_or, iff_true]
          omega
      | bob =>
          simp only [reduceCtorEq, if_false, false_or]
          omega

/-! ## A sample -/

/-- The four bytes of a length. -/
def sampleHeader (n : Nat) : Bytes :=
  [UInt8.ofNat (n / 2 ^ 24), UInt8.ofNat (n / 2 ^ 16), UInt8.ofNat (n / 2 ^ 8), UInt8.ofNat n]

def sampleSplit : List (Option Nat) → Bytes → Option (List Bytes)
  | [], [] => some []
  | [], _ :: _ => none
  | some n :: lengths, bytes =>
      if n ≤ bytes.length then (sampleSplit lengths (bytes.drop n)).map (bytes.take n :: ·)
      else none
  | none :: lengths, a :: b :: c :: d :: body =>
      let n := a.toNat * 2 ^ 24 + b.toNat * 2 ^ 16 + c.toNat * 2 ^ 8 + d.toNat
      if n ≤ body.length then (sampleSplit lengths (body.drop n)).map (body.take n :: ·) else none
  | none :: _, _ => none

/-- Keys that are their own bytes. -/
def sampleCodec : CardCodec {bytes : Bytes // bytes.length = 33} where
  flag character :=
    match character with
    | .alice => [1, 1, 1, 1, 1, 1, 1, 1]
    | .bob => [2, 2, 2, 2, 2, 2, 2, 2]
  keyBytes key := key.val
  keyOfBytes bytes := if h : bytes.length = 33 then some ⟨bytes, h⟩ else none
  blake2b bytes := bytes
  variableLength bytes := sampleHeader bytes.length ++ bytes
  split := sampleSplit

theorem sampleSplit_append (parts : List Bytes) {last : Bytes} (hlast : last.length < 2 ^ 32) :
    sampleSplit (parts.map (fun part => some part.length) ++ [none])
      (parts.flatten ++ (sampleHeader last.length ++ last)) = some (parts ++ [last]) := by
  induction parts with
  | nil =>
      have hlength : last.length / 2 ^ 24 % 256 * 2 ^ 24 + last.length / 2 ^ 16 % 256 * 2 ^ 16 +
          last.length / 2 ^ 8 % 256 * 2 ^ 8 + last.length % 256 = last.length := by
        omega
      simp only [List.map_nil, List.nil_append, List.flatten_nil, sampleHeader, List.cons_append,
        sampleSplit, UInt8.toNat_ofNat', hlength]
      simp [sampleSplit]
  | cons part parts ih =>
      rw [List.map_cons, List.flatten_cons, List.cons_append, List.append_assoc, sampleSplit,
        if_pos (by simp), List.drop_left, List.take_left, ih]
      rfl

theorem sampleCodec_lawful : sampleCodec.Lawful where
  length_flag := by
    intro character
    cases character <;> rfl
  flag_ne := by decide
  length_keyBytes := fun key => key.property
  keyOfBytes_keyBytes := fun key => dif_pos key.property
  length_variableLength := by
    intro bytes _
    simp [sampleCodec, sampleHeader]
    omega
  split_append := fun parts _ hlast => sampleSplit_append parts hlast

def sampleKey : {bytes : Bytes // bytes.length = 33} := ⟨List.replicate 33 3, by simp⟩

/-- A card of Bob under a nickname of a number of letters. -/
def sampleCard (n : Nat) : Except CardError (Card {bytes : Bytes // bytes.length = 33}) :=
  Card.init sampleCodec (sampleCodec.flag .bob) sampleKey (some sampleKey)
    ((some (String.ofList (List.replicate n 'x'))).map utf8)

theorem card_round_trip_iff_sample :
    ∃ card, sampleCard 30 = .ok card ∧
      (card.RoundTrips sampleCodec ↔ CardCharacter.bob = .alice ∨
        (((some (String.ofList (List.replicate 30 'x'))).map utf8).getD []).length ≤ 30) :=
  ⟨_, rfl, @card_round_trip_iff _ _ sampleCodec_lawful _ _ _ (some _) _ rfl (by simp)⟩

/-- Bob's card under a nickname of 31 bytes is written, and refused when it is read. -/
theorem bob_card_refused :
    ∃ card data, sampleCard 31 = .ok card ∧ card.toBytes sampleCodec = .ok data ∧
      Card.fromBytes sampleCodec data = .error (.cardTooLong 109) ∧
        ¬ card.RoundTrips sampleCodec := by
  obtain ⟨card, hcard⟩ : ∃ card, sampleCard 31 = .ok card := ⟨_, rfl⟩
  obtain ⟨data, hdata, hread⟩ : ∃ data, card.toBytes sampleCodec = .ok data ∧
      Card.fromBytes sampleCodec data = .error (.cardTooLong 109) := by
    cases hcard
    exact ⟨_, rfl, rfl⟩
  refine ⟨card, data, hcard, hdata, hread, ?_⟩
  intro hround
  rcases hround.bytes with ⟨data', hdata', card', hread', -⟩
  rw [hdata, Except.ok.injEq] at hdata'
  rw [← hdata', hread] at hread'
  cases hread'

end NuLink
