import NuLinkCore.Characters.Alice
import NuLinkCore.Datastore.WorkOrders
import NuLinkCore.Lib.Uuid

/-!
# The re-encryption endpoint

A request for re-encryption is refused when its policy is revoked, when the key fragment in it
cannot be decrypted for this node and policy, or when the policy is not paid for.  Otherwise all
capsules are re-encrypted, the node stores a record of the request under an identifier that it
draws, and responds.  The record is stored after the work is done and before the response is
sent: when it cannot be stored, nothing is sent.

Main results:

- Theorem {lit}`UrsulaService.authorize_eq_ok_iff`: which requests get as far as the work.
- Theorem {lit}`UrsulaService.refused_of_authorize`: why a request is refused.
- Theorem {lit}`UrsulaService.reencrypt_cases`: what one request does to the records.
- Theorem {lit}`UrsulaService.serve_evidence`: over every sequence of requests, the listed records
  are those of the requests that were served.
-/

namespace NuLink

open Collections

/-! ## Requests -/

/-- {lit}`ReencryptionRequest` of the cryptographic library. -/
structure ReencryptionRequest (HRAC Capsule EncryptedKeyFrag PublicKey : Type) where
  hrac : HRAC
  capsules : List Capsule
  encryptedKfrag : EncryptedKeyFrag
  bobVerifyingKey : PublicKey
  publisherVerifyingKey : PublicKey

/-- What re-encryption uses of {lit}`nucypher_core`, besides what granting uses.  An exception is
its text. -/
structure ReencryptionCore extends NucypherCore where
  SecretKey : Type
  Capsule : Type
  CapsuleFrag : Type
  /-- What is drawn at random for the proof in a fragment. -/
  Coins : Type
  decEqCapsule : DecidableEq Capsule
  publicKey : SecretKey → PublicKey
  keyCodec : KeyCodec PublicKey
  requestBytes : ReencryptionRequest HRAC Capsule EncryptedKeyFrag PublicKey → Bytes
  requestFromBytes :
    Bytes → Except String (ReencryptionRequest HRAC Capsule EncryptedKeyFrag PublicKey)
  decryptKfrag (encryptedKfrag : EncryptedKeyFrag) (privkey : SecretKey) (hrac : HRAC)
    (publisherVerifyingKey : PublicKey) : Except String KeyFrag
  reencrypt : Capsule → KeyFrag → Coins → CapsuleFrag
  responseBytes (signer : SecretKey) (capsules : List Capsule) (vcfrags : List CapsuleFrag) : Bytes
  /-- {lit}`str(hrac)`, and the text of {lit}`bytes(hrac)`. -/
  hracText : HRAC → String
  hracBytesText : HRAC → String

instance (core : ReencryptionCore) : DecidableEq core.Capsule := core.decEqCapsule

abbrev ReencryptionCore.Request (core : ReencryptionCore) : Type :=
  ReencryptionRequest core.HRAC core.Capsule core.EncryptedKeyFrag core.PublicKey

/-- The payment methods, as far as they permit re-encryption. -/
inductive ReencryptionPrerequisite where
  | freeReencryptions
  | subscriptionManager
deriving DecidableEq

/-- One request to the endpoint, with what it meets outside: the contract's answer about a
policy, what is drawn for each fragment and for the identifier of the record, and the database. -/
structure ReencryptionPost (core : ReencryptionCore) where
  data : Bytes
  remoteAddr : String
  isPolicyActive : core.HRAC → Except String Bool
  coins : Nat → core.Coins
  uuid : Uuid
  lmdb : Lmdb StoredType

/-- {lit}`PaymentMethod.verify`. -/
def ReencryptionPrerequisite.verify {core : ReencryptionCore} (post : ReencryptionPost core)
    (request : core.Request) : ReencryptionPrerequisite → Except String Bool
  | .freeReencryptions => .ok true
  | .subscriptionManager => post.isPolicyActive request.hrac

/-- What decrypting a key fragment raises, by the clauses of the endpoint. -/
inductive KfragException where
  | decryptionFailed
  | invalidSignature (text : String)
  | other (text : String)

inductive EndpointError where
  | malformedRequest (text : String)
  | payment (text : String)
  | record (error : DescribeError StoredType)

inductive ReencryptionReply where
  | refused (status : Nat) (message : String)
  | served (content : Bytes)
  | raised (error : EndpointError)

/-- The status code; an exception becomes an internal server error. -/
def ReencryptionReply.status : ReencryptionReply → Nat
  | .refused status _ => status
  | .served _ => 200
  | .raised _ => 500

/-- The content of a response that was served. -/
def ReencryptionReply.content? : ReencryptionReply → Option Bytes
  | .served content => some content
  | _ => none

/-- What an Ursula answers requests with. -/
structure UrsulaService (core : ReencryptionCore) where
  decryptingKey : core.SecretKey
  signingKey : core.SecretKey
  revokedPolicies : List core.HRAC
  paymentMethod : ReencryptionPrerequisite

namespace UrsulaService

variable {core : ReencryptionCore} (service : UrsulaService core)

/-- {lit}`_decrypt_kfrag`.  What the library raises is of no class that the endpoint names. -/
def decryptKfrag (encryptedKfrag : core.EncryptedKeyFrag) (hrac : core.HRAC)
    (publisherVerifyingKey : core.PublicKey) : Except KfragException core.KeyFrag :=
  (core.decryptKfrag encryptedKfrag service.decryptingKey hrac publisherVerifyingKey).mapError
    .other

/-- {lit}`bob_identity_message`. -/
def bobIdentityMessage (post : ReencryptionPost core) (request : core.Request) : String :=
  "[" ++ post.remoteAddr ++ "] Bob(" ++
    String.ofList (Hex.encode (core.keyCodec.toBytes request.bobVerifyingKey)) ++ ")"

/-- The endpoint up to the payment: the request and its key fragment, or a refusal. -/
def authorize (post : ReencryptionPost core) :
    Except ReencryptionReply (core.Request × core.KeyFrag) :=
  match core.requestFromBytes post.data with
  | .error text => .error (.raised (.malformedRequest text))
  | .ok request =>
      if request.hrac ∈ service.revokedPolicies then
        .error (.refused 401 ("Policy with " ++ core.hracText request.hrac ++ " has been revoked."))
      else
        match service.decryptKfrag request.encryptedKfrag request.hrac
            request.publisherVerifyingKey with
        | .error .decryptionFailed =>
            .error (.refused 403 "EncryptedKeyFrag decryption failed.")
        | .error (.invalidSignature text) =>
            .error (.refused 401 (bobIdentityMessage post request ++
              " Invalid signature for KeyFrag: " ++ text ++ "."))
        | .error (.other text) =>
            .error (.refused 400 (bobIdentityMessage post request ++
              " Invalid EncryptedKeyFrag: " ++ text ++ "."))
        | .ok verifiedKfrag =>
            match service.paymentMethod.verify post request with
            | .error text => .error (.raised (.payment text))
            | .ok false =>
                .error (.refused 402 (bobIdentityMessage post request ++ " Policy " ++
                  core.hracBytesText request.hrac ++ " is unpaid."))
            | .ok true => .ok (request, verifiedKfrag)

/-- {lit}`_reencrypt`. -/
def reencryptCapsules (coins : Nat → core.Coins) (kfrag : core.KeyFrag)
    (capsules : List core.Capsule) : Bytes :=
  core.responseBytes service.signingKey capsules
    (capsules.mapIdx fun i capsule => core.reencrypt capsule kfrag (coins i))

/-- The endpoint, with the datastore after it. -/
def reencrypt (post : ReencryptionPost core) (datastore : Dict Bytes Bytes) :
    ReencryptionReply × Dict Bytes Bytes :=
  match service.authorize post with
  | .error reply => (reply, datastore)
  | .ok (request, verifiedKfrag) =>
      let response := service.reencryptCapsules post.coins verifiedKfrag request.capsules
      match WorkOrders.store core.keyCodec post.lmdb (.str post.uuid.text) request.bobVerifyingKey
          datastore with
      | (.error error, datastore) => (.raised (.record error), datastore)
      | (.ok (), datastore) => (.served response, datastore)

/-- The requests of a node one after the other, each with its reply, and the datastore at the
end. -/
def serve (datastore : Dict Bytes Bytes) :
    List (ReencryptionPost core) →
      List (ReencryptionPost core × ReencryptionReply) × Dict Bytes Bytes
  | [] => ([], datastore)
  | post :: posts =>
      let (reply, datastore) := service.reencrypt post datastore
      let (replies, datastore) := serve datastore posts
      ((post, reply) :: replies, datastore)

/-! ## One request -/

/-- A request gets as far as the work when its policy is not revoked, its key fragment can be
decrypted and it is paid for. -/
structure Authorized (post : ReencryptionPost core) (request : core.Request)
    (kfrag : core.KeyFrag) : Prop where
  parsed : core.requestFromBytes post.data = .ok request
  active : request.hrac ∉ service.revokedPolicies
  decrypted : core.decryptKfrag request.encryptedKfrag service.decryptingKey request.hrac
    request.publisherVerifyingKey = .ok kfrag
  paid : service.paymentMethod.verify post request = .ok true

theorem authorize_eq_ok_iff {post : ReencryptionPost core} {request : core.Request}
    {kfrag : core.KeyFrag} :
    service.authorize post = .ok (request, kfrag) ↔ service.Authorized post request kfrag := by
  constructor
  · intro h
    unfold authorize at h
    split at h
    · cases h
    · rename_i parsed hparsed
      split at h
      · cases h
      · rename_i hactive
        split at h
        · cases h
        · cases h
        · cases h
        · rename_i verified hverified
          split at h
          · cases h
          · cases h
          · rename_i hpaid
            cases h
            refine ⟨hparsed, hactive, ?_, hpaid⟩
            unfold decryptKfrag at hverified
            cases hdecrypt : core.decryptKfrag request.encryptedKfrag service.decryptingKey
                request.hrac request.publisherVerifyingKey with
            | error text => simp [hdecrypt, Except.mapError] at hverified
            | ok found =>
                simp only [hdecrypt, Except.mapError, Except.ok.injEq] at hverified
                rw [hverified]
  · rintro ⟨hparsed, hactive, hdecrypted, hpaid⟩
    simp [authorize, hparsed, hactive, decryptKfrag, hdecrypted, Except.mapError, hpaid]

/-- Why a request is refused, and with which status. -/
inductive Refused (post : ReencryptionPost core) : Nat → Prop where
  | malformed {text : String} (h : core.requestFromBytes post.data = .error text) :
      Refused post 500
  | revoked {request : core.Request} (h : core.requestFromBytes post.data = .ok request)
      (hrevoked : request.hrac ∈ service.revokedPolicies) : Refused post 401
  | notDecrypted {request : core.Request} {text : String}
      (h : core.requestFromBytes post.data = .ok request)
      (hactive : request.hrac ∉ service.revokedPolicies)
      (herror : core.decryptKfrag request.encryptedKfrag service.decryptingKey request.hrac
        request.publisherVerifyingKey = .error text) : Refused post 400
  | unpaid {request : core.Request} (h : core.requestFromBytes post.data = .ok request)
      (hactive : request.hrac ∉ service.revokedPolicies)
      (hunpaid : service.paymentMethod.verify post request = .ok false) : Refused post 402
  | paymentUnknown {request : core.Request} {text : String}
      (h : core.requestFromBytes post.data = .ok request)
      (hactive : request.hrac ∉ service.revokedPolicies)
      (herror : service.paymentMethod.verify post request = .error text) : Refused post 500

/-- A request that is refused is refused for its first defect.  No decryption raises what the
endpoint answers 403 for, or the signature error that it answers 401 for. -/
theorem refused_of_authorize {post : ReencryptionPost core} {reply : ReencryptionReply}
    (h : service.authorize post = .error reply) :
    reply.content? = none ∧ service.Refused post reply.status := by
  unfold authorize at h
  split at h
  · rename_i text hparsed
    cases h
    exact ⟨rfl, .malformed hparsed⟩
  · rename_i request hparsed
    split at h
    · rename_i hrevoked
      cases h
      exact ⟨rfl, .revoked hparsed hrevoked⟩
    · rename_i hactive
      unfold decryptKfrag at h
      cases hdecrypt : core.decryptKfrag request.encryptedKfrag service.decryptingKey request.hrac
          request.publisherVerifyingKey with
      | error text =>
          rw [hdecrypt] at h
          cases h
          exact ⟨rfl, .notDecrypted hparsed hactive hdecrypt⟩
      | ok kfrag =>
          rw [hdecrypt] at h
          simp only [Except.mapError] at h
          split at h
          · rename_i text hpayment
            cases h
            exact ⟨rfl, .paymentUnknown hparsed hactive hpayment⟩
          · rename_i hunpaid
            cases h
            exact ⟨rfl, .unpaid hparsed hactive hunpaid⟩
          · cases h

/-- The id under which the record of a request is stored. -/
def recordId (post : ReencryptionPost core) : RecordId :=
  (GivenId.str post.uuid.text).canonical

theorem recordId_injective {a b : ReencryptionPost core} (h : recordId a = recordId b) :
    a.uuid = b.uuid := by
  simp only [recordId, GivenId.canonical, RecordId.ofText_of_not_readInt (Uuid.readInt_text _),
    RecordId.str.injEq] at h
  exact Uuid.text_injective h

/-- A request that was not served: it was refused, or its record could not be stored. -/
inductive Unserved (post : ReencryptionPost core) : ReencryptionReply → Prop where
  | refused {reply : ReencryptionReply} (hcontent : reply.content? = none)
      (hrefused : service.Refused post reply.status) : Unserved post reply
  | unrecorded {request : core.Request} {kfrag : core.KeyFrag} {error : DescribeError StoredType}
      (hauthorized : service.Authorized post request kfrag) :
      Unserved post (.raised (.record error))

theorem Unserved.content?_eq_none {post : ReencryptionPost core} {reply : ReencryptionReply}
    (h : service.Unserved post reply) : reply.content? = none := by
  cases h with
  | refused hcontent => exact hcontent
  | unrecorded => rfl

/-- The abstract map of records. -/
abbrev Records (core : ReencryptionCore) : Type := RecordMap (StoredValue core.PublicKey)

/-- What a served request has to show for: its content is the re-encryption of its capsules, and
the map has its record. -/
structure Served (m : Records core) (post : ReencryptionPost core) (content : Bytes)
    (request : core.Request) (kfrag : core.KeyFrag) : Prop where
  authorized : service.Authorized post request kfrag
  content_eq : content = service.reencryptCapsules post.coins kfrag request.capsules
  recorded : m (WorkOrders.cell (recordId post)) = some (.publicKey request.bobVerifyingKey)

/-- One request either leaves the datastore and is not served, or is served and adds its
record. -/
theorem reencrypt_cases (post : ReencryptionPost core) {datastore : Dict Bytes Bytes}
    (hwritten : Written (WorkOrders.schema core.keyCodec) datastore) {m : Records core}
    (hm : (WorkOrders.schema core.keyCodec).Represents datastore m) :
    (service.Unserved post (service.reencrypt post datastore).1 ∧
        (service.reencrypt post datastore).2 = datastore) ∨
      ∃ request kfrag, service.Authorized post request kfrag ∧
        (service.reencrypt post datastore).1 =
          .served (service.reencryptCapsules post.coins kfrag request.capsules) ∧
        Written (WorkOrders.schema core.keyCodec) (service.reencrypt post datastore).2 ∧
        (WorkOrders.schema core.keyCodec).Represents (service.reencrypt post datastore).2
          (Function.update m (WorkOrders.cell (recordId post))
            (some (.publicKey request.bobVerifyingKey))) := by
  cases hauthorize : service.authorize post with
  | error reply =>
      rcases service.refused_of_authorize hauthorize with ⟨hcontent, hrefused⟩
      left
      simp only [reencrypt, hauthorize]
      exact ⟨.refused hcontent hrefused, trivial⟩
  | ok authorized =>
      rcases authorized with ⟨request, kfrag⟩
      have hauthorized := service.authorize_eq_ok_iff.mp hauthorize
      have hplain : (GivenId.str post.uuid.text).Plain := Uuid.colon_not_mem_text post.uuid
      rcases WorkOrders.store_cases core.keyCodec post.lmdb hplain request.bobVerifyingKey
        hwritten hm with ⟨error, hstore⟩ | ⟨hok, hafter, hrepresents⟩
      · left
        simp only [reencrypt, hauthorize, hstore]
        exact ⟨.unrecorded hauthorized, trivial⟩
      · right
        rcases hstore : WorkOrders.store core.keyCodec post.lmdb (.str post.uuid.text)
          request.bobVerifyingKey datastore with ⟨stored, after⟩
        rw [hstore] at hok hafter hrepresents
        obtain rfl : stored = .ok () := hok
        refine ⟨request, kfrag, hauthorized, ?_⟩
        simp only [reencrypt, hauthorize, hstore]
        exact ⟨trivial, hafter, hrepresents⟩

/-! ## Sequences of requests -/

/-- After any sequence of requests with different identifiers, each is accounted for, and the map
is changed at the records of the served ones only. -/
theorem serve_records {posts : List (ReencryptionPost core)}
    (hdistinct : (posts.map ReencryptionPost.uuid).Nodup) {datastore : Dict Bytes Bytes}
    (hwritten : Written (WorkOrders.schema core.keyCodec) datastore) {m : Records core}
    (hm : (WorkOrders.schema core.keyCodec).Represents datastore m) :
    Written (WorkOrders.schema core.keyCodec) (service.serve datastore posts).2 ∧
      (service.serve datastore posts).1.map Prod.fst = posts ∧
      ∃ m', (WorkOrders.schema core.keyCodec).Represents (service.serve datastore posts).2 m' ∧
        (∀ exchange ∈ (service.serve datastore posts).1,
          service.Unserved exchange.1 exchange.2 ∨
            ∃ content request kfrag, exchange.2 = .served content ∧
              service.Served m' exchange.1 content request kfrag) ∧
        ∀ id, (∀ exchange ∈ (service.serve datastore posts).1,
            exchange.2.content?.isSome = true → recordId exchange.1 ≠ id) →
          m' (WorkOrders.cell id) = m (WorkOrders.cell id) := by
  induction posts generalizing datastore m with
  | nil => exact ⟨hwritten, rfl, m, hm, by simp [serve], fun _ _ => rfl⟩
  | cons post posts ih =>
      rw [List.map_cons, List.nodup_cons] at hdistinct
      rcases hdistinct with ⟨hfresh, hdistinct⟩
      have hserve : service.serve datastore (post :: posts) =
          ((post, (service.reencrypt post datastore).1) ::
            (service.serve (service.reencrypt post datastore).2 posts).1,
            (service.serve (service.reencrypt post datastore).2 posts).2) := rfl
      rw [hserve]
      rcases service.reencrypt_cases post hwritten hm with
        ⟨hunserved, hsame⟩ | ⟨request, kfrag, hauthorized, hreply, hwritten', hm'⟩
      · rw [hsame]
        rcases ih hdistinct hwritten hm with ⟨hafter, hposts, m', hrep, hall, hframe⟩
        refine ⟨hafter, by simp [hposts], m', hrep, ?_, ?_⟩
        · intro exchange hmem
          rcases List.mem_cons.mp hmem with rfl | hmem
          · exact Or.inl hunserved
          · exact hall exchange hmem
        · intro id hid
          exact hframe id fun exchange hmem => hid exchange (List.mem_cons_of_mem _ hmem)
      · rcases ih hdistinct hwritten' hm' with ⟨hafter, hposts, m', hrep, hall, hframe⟩
        -- No later request has this identifier, so the record stays.
        have hkept : m' (WorkOrders.cell (recordId post)) =
            some (.publicKey request.bobVerifyingKey) := by
          rw [hframe, Function.update_self]
          intro exchange hmem _ hsame
          have hexchange : exchange.1 ∈ posts := hposts ▸ List.mem_map_of_mem hmem
          exact hfresh (recordId_injective hsame ▸ List.mem_map_of_mem hexchange)
        refine ⟨hafter, by simp [hposts], m', hrep, ?_, ?_⟩
        · intro exchange hmem
          rcases List.mem_cons.mp hmem with rfl | hmem
          · exact Or.inr ⟨_, request, kfrag, hreply, hauthorized, rfl, hkept⟩
          · exact hall exchange hmem
        · intro id hid
          have hserved : (service.reencrypt post datastore).1.content?.isSome = true := by
            rw [hreply]
            rfl
          have hne : recordId post ≠ id :=
            hid (post, (service.reencrypt post datastore).1) List.mem_cons_self hserved
          have hcell : WorkOrders.cell id ≠ WorkOrders.cell (recordId post) :=
            fun h => hne (WorkOrders.cell_injective h).symm
          rw [hframe id fun exchange hmem => hid exchange (List.mem_cons_of_mem _ hmem),
            Function.update_of_ne hcell]

/-- The exchanges in which a response was served. -/
def servedExchanges (exchanges : List (ReencryptionPost core × ReencryptionReply)) :
    List (ReencryptionPost core × ReencryptionReply) :=
  exchanges.filter fun exchange => exchange.2.content?.isSome

/-- The records of the served requests have different ids. -/
theorem nodup_recordId_served {posts : List (ReencryptionPost core)}
    (hdistinct : (posts.map ReencryptionPost.uuid).Nodup) {datastore : Dict Bytes Bytes}
    (hposts : (service.serve datastore posts).1.map Prod.fst = posts) :
    ((servedExchanges (service.serve datastore posts).1).map
      fun exchange => recordId exchange.1).Nodup := by
  rw [← hposts, List.map_map] at hdistinct
  have hserved := (List.pairwise_map.mp hdistinct).sublist
    (List.filter_sublist (p := fun exchange => exchange.2.content?.isSome))
  refine List.pairwise_map.mpr (hserved.imp fun hne hsame => hne ?_)
  exact recordId_injective hsame

/-- For every sequence of requests to a node that starts without records, whatever its database
and its payment contract do: the list of records has one for each request that was served and no
other; a record has the key of the Bob who asked; what was served is the re-encryption of all
capsules with the decrypted key fragment, for an active policy that is paid for; and every other
request was refused for the reason that its status names, or its record could not be stored. -/
theorem serve_evidence (posts : List (ReencryptionPost core))
    (hdistinct : (posts.map ReencryptionPost.uuid).Nodup) :
    (∃ ids, WorkOrders.getReencryptionRequests core.keyCodec
        (service.serve Dict.empty posts).2 = .ok ids ∧
      ids.Perm ((servedExchanges (service.serve Dict.empty posts).1).map
        fun exchange => recordId exchange.1)) ∧
      ∀ exchange ∈ (service.serve Dict.empty posts).1,
        service.Unserved exchange.1 exchange.2 ∨
          ∃ content request kfrag, exchange.2 = .served content ∧
            service.Authorized exchange.1 request kfrag ∧
            content = service.reencryptCapsules exchange.1.coins kfrag request.capsules ∧
            WorkOrders.readKey core.keyCodec (recordId exchange.1)
              (service.serve Dict.empty posts).2 = .ok (.publicKey request.bobVerifyingKey) := by
  rcases service.serve_records hdistinct .fresh
    (WorkOrders.schema core.keyCodec).represents_empty with
    ⟨hwritten, hposts, m, hm, hall, hframe⟩
  constructor
  · rcases WorkOrders.getReencryptionRequests_spec core.keyCodec hwritten hm with
      ⟨ids, hids, hnodup, hmem⟩
    refine ⟨ids, hids, ?_⟩
    have hnodup' := service.nodup_recordId_served hdistinct hposts
    refine (List.perm_ext_iff_of_nodup hnodup hnodup').mpr fun id => ?_
    rw [hmem id, List.mem_map]
    constructor
    · rintro ⟨value, hvalue⟩
      by_contra hnone
      rw [hframe id] at hvalue
      · cases hvalue
      · intro exchange hexchange hserved hid
        exact hnone ⟨exchange, List.mem_filter.mpr ⟨hexchange, hserved⟩, hid⟩
    · rintro ⟨exchange, hexchange, rfl⟩
      rcases List.mem_filter.mp hexchange with ⟨hexchange, hserved⟩
      rcases hall exchange hexchange with hunserved | ⟨_, request, _, -, hshown⟩
      · simp [Unserved.content?_eq_none service hunserved] at hserved
      · exact ⟨_, hshown.recorded⟩
  · intro exchange hexchange
    rcases hall exchange hexchange with hunserved | ⟨content, request, kfrag, hreply, hshown⟩
    · exact Or.inl hunserved
    · exact Or.inr ⟨content, request, kfrag, hreply, hshown.authorized, hshown.content_eq,
        WorkOrders.readKey_of_value core.keyCodec hm hshown.recorded⟩

end UrsulaService

/-! ## A cryptography that keeps everything in the clear -/

/-- Numbers in unary, each closed by a zero. -/
def plainBytes (numbers : List Nat) : Bytes :=
  numbers.flatMap fun n => List.replicate n 1 ++ [0]

/-- Read numbers, with what is counted of the first one. -/
def readPlain (counted : Nat) : Bytes → List Nat
  | [] => []
  | byte :: bytes =>
      if byte = 0 then counted :: readPlain 0 bytes else readPlain (counted + 1) bytes

theorem readPlain_replicate (n counted : Nat) (bytes : Bytes) :
    readPlain counted (List.replicate n 1 ++ 0 :: bytes) = (counted + n) :: readPlain 0 bytes := by
  induction n generalizing counted with
  | zero => simp [readPlain]
  | succ n ih =>
      rw [List.replicate_succ, List.cons_append, readPlain, if_neg (by decide), ih]
      congr 1
      omega

theorem readPlain_plainBytes (numbers : List Nat) : readPlain 0 (plainBytes numbers) = numbers := by
  induction numbers with
  | nil => rfl
  | cons n numbers ih =>
      have hcons : plainBytes (n :: numbers) =
          List.replicate n 1 ++ 0 :: plainBytes numbers := by simp [plainBytes]
      rw [hcons, readPlain_replicate, ih, Nat.zero_add]

/-- The keys are numbers, and msgpack writes bytes as they are. -/
def plainKeyCodec : KeyCodec Nat where
  toBytes key := plainBytes [key]
  fromBytes bytes :=
    match readPlain 0 bytes with
    | [key] => .ok key
    | _ => .error (.foreign .typeError "")
  packb bytes := .ok bytes
  unpackb raw := .ok raw
  fromBytes_toBytes := fun key => by simp [readPlain_plainBytes]
  unpackb_packb := fun bytes raw h => by rw [Except.ok.inj h]

/-- The requests of the plain cryptography. -/
abbrev PlainRequest : Type := ReencryptionRequest (Nat × Nat × Bytes) Nat (Nat × Nat) Nat

def plainRequestBytes (request : PlainRequest) : Bytes :=
  plainBytes ([request.hrac.1, request.hrac.2.1, request.hrac.2.2.length] ++
    request.hrac.2.2.map UInt8.toNat ++
    [request.encryptedKfrag.1, request.encryptedKfrag.2, request.bobVerifyingKey,
      request.publisherVerifyingKey] ++ request.capsules)

def plainRequestFromBytes (bytes : Bytes) : Except String PlainRequest :=
  match readPlain 0 bytes with
  | publisher :: bob :: length :: rest =>
      match rest.drop length with
      | key :: kfrag :: bobVerifyingKey :: publisherVerifyingKey :: capsules =>
          .ok {
            hrac := (publisher, bob, (rest.take length).map UInt8.ofNat)
            capsules := capsules
            encryptedKfrag := (key, kfrag)
            bobVerifyingKey := bobVerifyingKey
            publisherVerifyingKey := publisherVerifyingKey }
      | _ => .error "Deserialization failed"
  | _ => .error "Deserialization failed"

theorem plainRequestFromBytes_bytes (request : PlainRequest) :
    plainRequestFromBytes (plainRequestBytes request) = .ok request := by
  rcases request with ⟨⟨publisher, bob, label⟩, capsules, ⟨key, kfrag⟩, bobKey, publisherKey⟩
  have hlength : label.length = (label.map UInt8.toNat).length := (List.length_map _).symm
  have hlabel : (label.map UInt8.toNat).map UInt8.ofNat = label := by
    simp [Function.comp_def]
  simp only [plainRequestFromBytes, plainRequestBytes, readPlain_plainBytes, List.cons_append,
    List.nil_append, List.append_assoc]
  rw [hlength, List.drop_left, List.take_left, hlabel]

/-- An encrypted key fragment is one with the key that it is for. -/
def plainDecryptKfrag (encrypted : Nat × Nat) (privkey : Nat) : Except String Nat :=
  if encrypted.1 = privkey then .ok encrypted.2 else .error "Decryption of ciphertext failed"

theorem plainDecryptKfrag_eq_ok {encrypted : Nat × Nat} {privkey kfrag : Nat}
    (h : plainDecryptKfrag encrypted privkey = .ok kfrag) : kfrag = encrypted.2 := by
  unfold plainDecryptKfrag at h
  split at h
  · exact (Except.ok.inj h).symm
  · cases h

def plainResponseBytes (signer : Nat) (capsules : List Nat) (vcfrags : List (Nat × Nat)) : Bytes :=
  plainBytes (signer :: capsules.length :: (capsules ++
    vcfrags.flatMap fun vcfrag => [vcfrag.1, vcfrag.2]))

/-- The cryptography of {lit}`plainCore` with re-encryption. -/
def plainReencryption : ReencryptionCore where
  toNucypherCore := plainCore
  SecretKey := Nat
  Capsule := Nat
  CapsuleFrag := Nat × Nat
  Coins := Unit
  decEqCapsule := inferInstance
  publicKey := fun key => key
  keyCodec := plainKeyCodec
  requestBytes := plainRequestBytes
  requestFromBytes := plainRequestFromBytes
  decryptKfrag := fun encrypted privkey _ _ => plainDecryptKfrag encrypted privkey
  reencrypt := fun capsule kfrag _ => (capsule, kfrag)
  responseBytes := plainResponseBytes
  hracText := fun _ => "HRAC"
  hracBytesText := fun _ => ""

/-- A request for one capsule with the key fragment 9 of the node with key 5. -/
def plainPost (label : Bytes) (byte : UInt8) : ReencryptionPost plainReencryption where
  data := plainRequestBytes ⟨(1, 2, label), [7], (5, 9), 2, 1⟩
  remoteAddr := "10.0.0.1"
  isPolicyActive := fun _ => .ok true
  coins := fun _ => ()
  uuid := ⟨List.replicate 16 byte, List.length_replicate⟩
  lmdb := {}

/-- A node that has revoked the policy of the empty label. -/
def plainService : UrsulaService plainReencryption where
  decryptingKey := (5 : Nat)
  signingKey := (6 : Nat)
  revokedPolicies := [((1, 2, []) : Nat × Nat × Bytes)]
  paymentMethod := .subscriptionManager

/-- A request for an active policy, one for the revoked policy, and one that meets a database
that does not begin. -/
def plainPosts : List (ReencryptionPost plainReencryption) :=
  [plainPost [3] 1, plainPost [] 2,
    { plainPost [3] 3 with lmdb := { begins := some (.foreign .typeError "") } }]

theorem serve_evidence_plain :
    (UrsulaService.servedExchanges (plainService.serve Dict.empty plainPosts).1).length = 1 ∧
      ∃ ids, WorkOrders.getReencryptionRequests plainKeyCodec
          (plainService.serve Dict.empty plainPosts).2 = .ok ids ∧
        ids.Perm ((UrsulaService.servedExchanges
          (plainService.serve Dict.empty plainPosts).1).map
            fun exchange => UrsulaService.recordId exchange.1) :=
  ⟨by rfl, (plainService.serve_evidence plainPosts (by decide)).1⟩

end NuLink
