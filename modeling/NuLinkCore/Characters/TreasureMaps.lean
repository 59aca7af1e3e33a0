import NuLinkCore.Characters.Bob
import NuLinkCore.Lib.Cache

/-!
# Bob's treasure maps

Bob keeps the treasure maps he has decrypted.  He finds them by a hash of their encrypted
bytes, although decrypting a map also verifies it against the key of its publisher.

Main results:

- Theorem {lit}`Bob.session_eq_anew_iff`: over a sequence of calls, the kept maps are used as if
  every call decrypted its map, exactly when a map that one call decrypts is also what the later
  calls with its hash would decrypt.
-/

namespace NuLink

open Collections

/-- A treasure map as Bob decrypts it. -/
structure DecryptedTreasureMap (EncryptedKeyFrag PublicKey : Type)
    extends TreasureMap EncryptedKeyFrag where
  hrac : Bytes
  policyEncryptingKey : PublicKey

/-- The arguments of {lit}`Bob.retrieve`. -/
structure RetrieveRequest (Capsule CapsuleFrag PublicKey : Type) where
  messageKits : List (BobMessageKit Capsule CapsuleFrag)
  aliceVerifyingKey : PublicKey
  encryptedTreasureMap : Bytes
  publisherVerifyingKey : Option PublicKey

namespace RetrieveRequest

variable {Capsule CapsuleFrag PublicKey : Type}

/-- The key that the treasure map is verified with: by default Alice is the publisher. -/
def publisher (request : RetrieveRequest Capsule CapsuleFrag PublicKey) : PublicKey :=
  match request.publisherVerifyingKey with
  | none => request.aliceVerifyingKey
  | some key => key

end RetrieveRequest

/-- What {lit}`Bob.retrieve` calls {lit}`retrieve_cfrags` with, besides his own keys. -/
structure ClientArguments (Capsule EncryptedKeyFrag PublicKey : Type) where
  treasureMap : DecryptedTreasureMap EncryptedKeyFrag PublicKey
  retrievalKits : List (RetrievalKit Capsule)
  aliceVerifyingKey : PublicKey

/-- What Bob reads a treasure map with. -/
structure TreasureMapReader (EncryptedKeyFrag PublicKey E : Type) where
  codec : AddressCodec
  hash : Bytes → Int
  decryptTreasureMap : Bytes → PublicKey → Except E (DecryptedTreasureMap EncryptedKeyFrag PublicKey)

namespace Bob

variable {Capsule CapsuleFrag EncryptedKeyFrag PublicKey E : Type}

section Retrieve

variable (reader : TreasureMapReader EncryptedKeyFrag PublicKey E)

/-- {lit}`_decrypt_treasure_map` for a call. -/
def decryptTreasureMap (request : RetrieveRequest Capsule CapsuleFrag PublicKey) :
    Except E (DecryptedTreasureMap EncryptedKeyFrag PublicKey) :=
  reader.decryptTreasureMap request.encryptedTreasureMap request.publisher

/-- The arguments of {lit}`retrieve_cfrags` once the treasure map is known. -/
def clientArguments (request : RetrieveRequest Capsule CapsuleFrag PublicKey)
    (treasureMap : DecryptedTreasureMap EncryptedKeyFrag PublicKey) :
    ClientArguments Capsule EncryptedKeyFrag PublicKey where
  treasureMap := treasureMap
  retrievalKits := retrievalKits reader.codec treasureMap.toTreasureMap request.messageKits
  aliceVerifyingKey := request.aliceVerifyingKey

/-- {lit}`Bob.retrieve` up to its request to the client, with {lit}`_treasure_maps` after it. -/
def startRetrieve (treasureMaps : Dict Int (DecryptedTreasureMap EncryptedKeyFrag PublicKey))
    (request : RetrieveRequest Capsule CapsuleFrag PublicKey) :
    Except E (ClientArguments Capsule EncryptedKeyFrag PublicKey) ×
      Dict Int (DecryptedTreasureMap EncryptedKeyFrag PublicKey) :=
  let mapHash := reader.hash request.encryptedTreasureMap
  match treasureMaps.get? mapHash with
  | some treasureMap => (.ok (clientArguments reader request treasureMap), treasureMaps)
  | none =>
      match decryptTreasureMap reader request with
      | .error raised => (.error raised, treasureMaps)
      | .ok treasureMap =>
          (.ok (clientArguments reader request treasureMap), treasureMaps.set mapHash treasureMap)

/-- The outcomes of a sequence of calls. -/
def sessionFrom (treasureMaps : Dict Int (DecryptedTreasureMap EncryptedKeyFrag PublicKey)) :
    List (RetrieveRequest Capsule CapsuleFrag PublicKey) →
      List (Except E (ClientArguments Capsule EncryptedKeyFrag PublicKey))
  | [] => []
  | request :: rest =>
      (startRetrieve reader treasureMaps request).1 ::
        sessionFrom (startRetrieve reader treasureMaps request).2 rest

/-- The calls of a Bob who starts with no treasure maps. -/
def session (requests : List (RetrieveRequest Capsule CapsuleFrag PublicKey)) :
    List (Except E (ClientArguments Capsule EncryptedKeyFrag PublicKey)) :=
  sessionFrom reader Dict.empty requests

/-- What a call comes to when its treasure map is decrypted anew. -/
def anew (request : RetrieveRequest Capsule CapsuleFrag PublicKey) :
    Except E (ClientArguments Capsule EncryptedKeyFrag PublicKey) :=
  (decryptTreasureMap reader request).map (clientArguments reader request)

end Retrieve

/-! ## The kept maps as a cache -/

section Cache

variable (reader : TreasureMapReader EncryptedKeyFrag PublicKey E)

/-- The hash that a call finds its treasure map by. -/
def mapHash (request : RetrieveRequest Capsule CapsuleFrag PublicKey) : Int :=
  reader.hash request.encryptedTreasureMap

/-- A call looks its treasure map up in a cache of the decryption. -/
theorem startRetrieve_eq_call
    (treasureMaps : Dict Int (DecryptedTreasureMap EncryptedKeyFrag PublicKey))
    (request : RetrieveRequest Capsule CapsuleFrag PublicKey) :
    startRetrieve reader treasureMaps request =
      ((Cache.call (mapHash reader) (decryptTreasureMap reader) treasureMaps request).1.map
          (clientArguments reader request),
        (Cache.call (mapHash reader) (decryptTreasureMap reader) treasureMaps request).2) := by
  simp only [startRetrieve, Cache.call, mapHash]
  cases treasureMaps.get? (reader.hash request.encryptedTreasureMap) with
  | some treasureMap => rfl
  | none =>
      cases decryptTreasureMap reader request with
      | error raised => rfl
      | ok treasureMap => rfl

/-- The client sees which treasure map is used. -/
theorem map_clientArguments_inj {request : RetrieveRequest Capsule CapsuleFrag PublicKey}
    {first second : Except E (DecryptedTreasureMap EncryptedKeyFrag PublicKey)} :
    first.map (clientArguments reader request) = second.map (clientArguments reader request) ↔
      first = second := by
  cases first <;> cases second <;> simp [Except.map, clientArguments]
  intro h
  rw [h]

theorem sessionFrom_eq_iff
    (treasureMaps : Dict Int (DecryptedTreasureMap EncryptedKeyFrag PublicKey))
    (requests : List (RetrieveRequest Capsule CapsuleFrag PublicKey)) :
    sessionFrom reader treasureMaps requests = requests.map (anew reader) ↔
      Cache.calls (mapHash reader) (decryptTreasureMap reader) treasureMaps requests =
        requests.map (decryptTreasureMap reader) := by
  induction requests generalizing treasureMaps with
  | nil => simp [sessionFrom, Cache.calls]
  | cons request rest ih =>
      rw [sessionFrom, Cache.calls, List.map_cons, List.map_cons, List.cons.injEq,
        List.cons.injEq, startRetrieve_eq_call, ih, anew, map_clientArguments_inj]

end Cache

/-- A sequence of calls comes to what it would come to if every call decrypted its own map,
exactly when a map that one call decrypts is also what each later call with the same hash
decrypts with the key of its own publisher. -/
theorem session_eq_anew_iff (reader : TreasureMapReader EncryptedKeyFrag PublicKey E)
    (requests : List (RetrieveRequest Capsule CapsuleFrag PublicKey)) :
    session reader requests = requests.map (anew reader) ↔
      requests.Pairwise fun earlier later =>
        reader.hash earlier.encryptedTreasureMap = reader.hash later.encryptedTreasureMap →
        ∀ treasureMap,
          reader.decryptTreasureMap earlier.encryptedTreasureMap earlier.publisher =
            .ok treasureMap →
          reader.decryptTreasureMap later.encryptedTreasureMap later.publisher =
            .ok treasureMap := by
  unfold session
  rw [sessionFrom_eq_iff, Cache.calls_eq_map_iff]
  rfl

/-! ## A map with the wrong publisher -/

/-- A reader that takes the one treasure map of publisher 1. -/
def sampleReader : TreasureMapReader Nat Nat String where
  codec := hexCodec
  hash := fun bytes => bytes.length
  decryptTreasureMap := fun _ publisher =>
    if publisher = 1 then
      .ok { threshold := 1, destinations := Dict.empty, hrac := [], policyEncryptingKey := 5 }
    else
      .error "The signature does not match"

/-- A call with Alice's key 1 and always the same map. -/
def sampleRequest (publisher : Option Nat) : RetrieveRequest Nat Nat Nat where
  messageKits := []
  aliceVerifyingKey := 1
  encryptedTreasureMap := [7]
  publisherVerifyingKey := publisher

/-- A map that Bob has read is used for a publisher that it is refused for. -/
theorem session_wrong_publisher :
    (∃ arguments, session sampleReader [sampleRequest none, sampleRequest (some 2)] =
      [.ok arguments, .ok arguments]) ∧
    anew sampleReader (sampleRequest (some 2)) = .error "The signature does not match" ∧
    session sampleReader [sampleRequest none, sampleRequest (some 2)] ≠
      [sampleRequest none, sampleRequest (some 2)].map (anew sampleReader) := by
  have hfirst : ∃ arguments, session sampleReader [sampleRequest none, sampleRequest (some 2)] =
      [.ok arguments, .ok arguments] := ⟨_, rfl⟩
  have hsecond : anew sampleReader (sampleRequest (some 2)) =
      .error "The signature does not match" := rfl
  refine ⟨hfirst, hsecond, ?_⟩
  obtain ⟨arguments, hsession⟩ := hfirst
  intro h
  rw [hsession, List.map_cons, List.map_cons, hsecond] at h
  simp at h

end Bob

end NuLink
