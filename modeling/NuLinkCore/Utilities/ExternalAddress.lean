import NuLinkCore.Lib.Fallback
import NuLinkCore.Lib.IpAddress
import NuLinkCore.Lib.Json.Value
import NuLinkCore.Network.Framing
import NuLinkCore.Network.Middleware

/-!
# The external address of a node

A node asks others for the address under which they see it: a sample of the nodes that it knows,
then the default teachers of its network, then a centralized service.  A source that has no
answer should lead to the next one, but most exceptions of a peer end the search, and what the
service says is not checked.

Main results:

- Theorem {lit}`Ping.requestFromNode_eq_iff`: which peers give what they have.
- Theorem {lit}`Detection.determineExternalIpAddress_eq`: the chain of fallbacks is one search
  among all sources.
- Theorem {lit}`Detection.fallsThrough_iff`: when the first valid address is found.
-/

namespace NuLink

open Fallback

/-! ## Asking one peer -/

/-- The exceptions of the detection. -/
inductive DetectionError where
  /-- {lit}`UnexpectedResponse` or one of its subclasses. -/
  | unexpectedResponse
  /-- One of the exceptions of {lit}`NodeSeemsToBeDown`. -/
  | nodeSeemsToBeDown
  /-- {lit}`RestMiddleware.Unreachable`. -/
  | unreachable
  | versionMismatch
  /-- {lit}`UnknownIPAddress` for a peer that returned an invalid address. -/
  | invalidIpResponse
  /-- {lit}`UnknownIPAddress` for all sources. -/
  | detectionFailed
  | attributeError
  | indexError
  | other
deriving DecidableEq

/-- Whether an exception is {lit}`UnknownIPAddress`. -/
def DetectionError.isUnknownIPAddress : DetectionError → Bool
  | .invalidIpResponse => true
  | .detectionFailed => true
  | _ => false

/-- What a request for {lit}`ping` to a peer meets: the exchange, what is raised if the peer does
not mature or is not verified, and the body of the response. -/
structure Ping where
  exchange : Exchange
  verificationError : DetectionError
  body : String

/-- An exception of the middleware. -/
def DetectionError.ofRequest (verificationError : DetectionError) : RequestError → DetectionError
  | .verification => verificationError
  | .unreachable => .unreachable
  | .transport error => if error.nodeSeemsToBeDown then .nodeSeemsToBeDown else .other
  | _ => .unexpectedResponse

/-- {lit}`client.get` of {lit}`ping`: the status code of the response. -/
def Ping.get (ping : Ping) : Except DetectionError Nat :=
  ping.exchange.request.mapError (DetectionError.ofRequest ping.verificationError)

/-- {lit}`ping_response.get`. -/
def pingField (name : String) : Json → Except DetectionError Json
  | .obj members => .ok ((members.lookup name).getD .null)
  | _ => .error .attributeError

/-- {lit}`check_version` of what the response has for a version.  A value that is false stands for
the first version, and a value that is no string has no {lit}`split`. -/
def checkPingVersion : Json → Except DetectionError Bool
  | .str version => (checkVersion version).mapError fun _ => .indexError
  | .null => (checkVersion "").mapError fun _ => .indexError
  | .bool false => (checkVersion "").mapError fun _ => .indexError
  | .int 0 => (checkVersion "").mapError fun _ => .indexError
  | .arr [] => (checkVersion "").mapError fun _ => .indexError
  | .obj [] => (checkVersion "").mapError fun _ => .indexError
  -- The version does not match if it is zero, and has no `split` if it is not.
  | .float _ => .error .other
  | _ => .error .attributeError

/-- {lit}`ip_address`, or {lit}`none` where it raises {lit}`ValueError`.  Of the values of JSON only
strings, integers and the two truth values, which are integers, are addresses. -/
def ipAddress : Json → Option IpAddress
  | .str text => IpAddress.ofText text.toList
  | .int n => IpAddress.ofInt n
  | .bool b => IpAddress.ofInt (if b then 1 else 0)
  | _ => none

/-- {lit}`str(ip_address(value))`. -/
def addressText (value : Json) : Option String :=
  (ipAddress value).map fun address => String.ofList address.print

/-- What {lit}`_request_from_node` makes of a response with status 200. -/
def readPing (body : String) : Except DetectionError (Option String) :=
  match Json.loads body with
  | none => .error .versionMismatch
  | some pingResponse => do
      let version ← pingField "version" pingResponse
      let matching ← checkPingVersion version
      if matching = false then .error .versionMismatch
      else
        let requesterIp ← pingField "requester_ip" pingResponse
        match addressText requesterIp with
        | none => .error .invalidIpResponse
        | some ip => .ok (some ip)

/-- {lit}`_request_from_node`. -/
def Ping.requestFromNode (ping : Ping) : Except DetectionError (Option String) :=
  match ping.get with
  | .error .unexpectedResponse => .ok none
  | .error .nodeSeemsToBeDown => .ok none
  | .error error => .error error
  | .ok status => if status = 200 then readPing ping.body else .ok none

/-! ## Asking all sources -/

/-- Whether an optional string is true. -/
def isTruthy : Option String → Bool
  | none => false
  | some text => text ≠ ""

/-- Ask sources in a loop that ends with the first one that gives a true value. -/
def askInTurn {σ : Type} (request : σ → Except DetectionError (Option String)) :
    List σ → Search DetectionError String
  | [] => ⟨0, .ok none⟩
  | source :: rest =>
      match request source with
      | .error error => ⟨1, .error error⟩
      | .ok ip => if isTruthy ip then ⟨1, .ok ip⟩ else (askInTurn request rest).after

/-- {lit}`get_external_ip_from_known_nodes`, with the positions of the sample that is drawn from
the known nodes. -/
def getExternalIpFromKnownNodes (knownNodes : List Ping) (sampleSize : Nat) (draw : List Nat) :
    Search DetectionError String :=
  if knownNodes.length < sampleSize then ⟨0, .ok none⟩
  else askInTurn Ping.requestFromNode (draw.filterMap (knownNodes[·]?))

/-- A default teacher: what the attempts to load it bring, and the request to it. -/
structure DefaultTeacher where
  load : Nat → Except DetectionError Unit
  ping : Ping

/-- {lit}`from_teacher_uri`, which tries again while the teacher seems to be down. -/
def fromTeacherUri (load : Nat → Except DetectionError Unit) (attempt : Nat) :
    Nat → Except DetectionError Unit
  | 0 => .error .nodeSeemsToBeDown
  | attemptsLeft + 1 =>
      match load attempt with
      | .error .nodeSeemsToBeDown => fromTeacherUri load (attempt + 1) attemptsLeft
      | outcome => outcome

/-- One round of the loop over the default teachers. -/
def DefaultTeacher.request (teacher : DefaultTeacher) : Except DetectionError (Option String) :=
  match fromTeacherUri teacher.load 1 2 with
  | .error .nodeSeemsToBeDown => .ok none
  | .error error => .error error
  | .ok _ =>
      match teacher.ping.requestFromNode with
      | .error .nodeSeemsToBeDown => .ok none
      | outcome => outcome

/-- {lit}`TEACHER_NODES`, the URIs of the default teachers of every network. -/
def teacherNodes : List (String × List String) :=
  [("mainnet", ["https://to/be/supplied"]),
    ("conflux_espace", ["https://to/be/supplied"]),
    ("conflux_espace_testnet", ["https://8.222.136.88:9151"]),
    ("bsc_testnet", ["https://8.222.155.168:9151"]),
    ("horus", ["https://47.245.98.245:9151"]),
    ("heco_testnet", ["https://8.219.11.39:9151"]),
    ("heco", ["https://8.219.11.39:9151"]),
    ("bsc", ["https://to/be/supplied"])]

/-- {lit}`get_external_ip_from_default_teacher` with a table of default teachers. -/
def getExternalIpFromDefaultTeacher (table : List (String × List String))
    (teacher : String → DefaultTeacher) (network : String) : Search DetectionError String :=
  match table.lookup network with
  | none => ⟨0, .ok none⟩
  | some uris => askInTurn (fun uri => (teacher uri).request) uris

/-- What the request to the centralized service brings: an exception that {lit}`_request`
suppresses, another one, or a response. -/
inductive OracleReply where
  | suppressed
  | raised
  | response (statusCode : Nat) (text : String)

/-- {lit}`_request`. -/
def OracleReply.request : OracleReply → Except DetectionError (Option String)
  | .suppressed => .ok none
  | .raised => .error .other
  | .response statusCode text => .ok (if statusCode = 200 then some text else none)

/-- {lit}`get_external_ip_from_centralized_source`. -/
def getExternalIpFromCentralizedSource (reply : OracleReply) : Search DetectionError String :=
  ⟨1, reply.request⟩

/-- {lit}`if not rest_host`: ask more sources if the ones before gave nothing. -/
def orAsk (before : Search DetectionError String) (next : Search DetectionError String) :
    Search DetectionError String :=
  match before.found with
  | .error _ => before
  | .ok restHost =>
      if isTruthy restHost then before else ⟨before.asked + next.asked, next.found⟩

/-- What the detection is given and meets: the network, the known nodes, if any are passed, the
sample that is drawn from them, the table of default teachers and what each of them brings, and
the centralized service. -/
structure Detection where
  network : String
  knownNodes : Option (List Ping)
  draw : List Nat
  table : List (String × List String) := teacherNodes
  teacher : String → DefaultTeacher
  oracle : OracleReply

namespace Detection

/-- The search of {lit}`determine_external_ip_address`. -/
def ask (detection : Detection) : Search DetectionError String :=
  let primary :=
    match detection.knownNodes with
    | none => ⟨0, .ok none⟩
    | some [] => ⟨0, .ok none⟩
    | some knownNodes => getExternalIpFromKnownNodes knownNodes 3 detection.draw
  let fallback1 := orAsk primary
    (getExternalIpFromDefaultTeacher detection.table detection.teacher detection.network)
  orAsk fallback1 (getExternalIpFromCentralizedSource detection.oracle)

/-- {lit}`if not rest_host` at the end: nothing found is raised as {lit}`UnknownIPAddress`. -/
def conclude (found : Except DetectionError (Option String)) : Except DetectionError String :=
  match found with
  | .error error => .error error
  | .ok none => .error .detectionFailed
  | .ok (some restHost) => if restHost = "" then .error .detectionFailed else .ok restHost

/-- {lit}`determine_external_ip_address`, with the number of sources that were asked. -/
def determineExternalIpAddress (detection : Detection) : Nat × Except DetectionError String :=
  (detection.ask.asked, conclude detection.ask.found)

end Detection

/-! ## What a peer has to say -/

/-- The address in the body of a response of a peer with a matching version. -/
def pingAnswer (body : String) : Option String :=
  match Json.loads body with
  | some (.obj members) =>
      match members.lookup "version" with
      | some (.str version) =>
          if SameMajorMinor version then (members.lookup "requester_ip").bind addressText else none
      | _ => none
  | _ => none

theorem checkVersion_eq_true_iff (version : String) :
    checkVersion version = .ok true ↔ SameMajorMinor version := by
  constructor
  · intro h
    by_cases hempty : version = ""
    · rw [hempty] at h
      exact absurd h (by decide)
    · simp only [checkVersion, if_neg hempty] at h
      by_cases hmajor : (versionComponents localVersion)[0]? = (versionComponents version)[0]?
      · rw [if_neg (not_not_intro hmajor)] at h
        cases hminor : (versionComponents version)[1]? with
        | none => simp [hminor] at h
        | some minor =>
            simp only [hminor, Except.ok.injEq, decide_eq_true_eq] at h
            exact ⟨hmajor.symm, by rw [hminor, h]⟩
      · rw [if_pos hmajor] at h
        cases h
  · exact checkVersion_of_sameMajorMinor

theorem mapError_eq_ok_iff {ε ε' α : Type} (f : ε → ε') (result : Except ε α) (a : α) :
    result.mapError f = .ok a ↔ result = .ok a := by
  cases result <;> simp [Except.mapError]

/-- Only a string can be a matching version. -/
theorem checkPingVersion_eq_true_iff (value : Json) :
    checkPingVersion value = .ok true ↔
      ∃ version, value = .str version ∧ SameMajorMinor version := by
  have hempty : ¬ (checkVersion "").mapError (fun _ => DetectionError.indexError) = .ok true := by
    decide
  constructor
  · intro h
    unfold checkPingVersion at h
    split at h
    · rename_i version
      exact ⟨version, rfl, (checkVersion_eq_true_iff version).mp
        ((mapError_eq_ok_iff _ _ _).mp h)⟩
    all_goals first | exact absurd h hempty | cases h
  · rintro ⟨version, rfl, hversion⟩
    rw [checkPingVersion, checkVersion_of_sameMajorMinor hversion]
    rfl

/-- The address is told exactly when the version matches. -/
theorem pingAnswer_of_members {body : String} {members : List (String × Json)}
    (h : Json.loads body = some (.obj members)) :
    let version := (members.lookup "version").getD .null
    (checkPingVersion version = .ok true → pingAnswer body =
      addressText ((members.lookup "requester_ip").getD .null)) ∧
    (checkPingVersion version ≠ .ok true → pingAnswer body = none) := by
  have hfield : addressText ((members.lookup "requester_ip").getD .null) =
      (members.lookup "requester_ip").bind addressText := by
    cases members.lookup "requester_ip" <;> rfl
  simp only [pingAnswer, h, ne_eq, checkPingVersion_eq_true_iff, hfield]
  cases hlookup : members.lookup "version" with
  | none => simp
  | some value =>
      cases value with
      | str version =>
          by_cases hversion : SameMajorMinor version <;> simp [hversion]
      | null => simp
      | bool b => simp
      | int n => simp
      | float literal => simp
      | arr items => simp
      | obj inner => simp

/-- Reading a version never seems to be a node that is down. -/
theorem checkPingVersion_ne_nodeSeemsToBeDown (value : Json) :
    checkPingVersion value ≠ .error .nodeSeemsToBeDown := by
  have hstring : ∀ version, (checkVersion version).mapError (fun _ => DetectionError.indexError) ≠
      .error .nodeSeemsToBeDown := by
    intro version
    cases checkVersion version <;> simp [Except.mapError]
  unfold checkPingVersion
  split <;> first | exact hstring _ | simp

/-- A response that has an address to tell is read, and every other one raises an exception that
the caller does not expect of a node that is down. -/
theorem readPing_cases (body : String) :
    (∃ ip, pingAnswer body = some ip ∧ readPing body = .ok (some ip)) ∨
      (pingAnswer body = none ∧
        ∃ error, readPing body = .error error ∧ error ≠ .nodeSeemsToBeDown) := by
  unfold readPing
  cases hloads : Json.loads body with
  | none => exact Or.inr ⟨by simp [pingAnswer, hloads], .versionMismatch, rfl, by simp⟩
  | some value =>
      by_cases hmembers : ∃ members, value = .obj members
      · rcases hmembers with ⟨members, rfl⟩
        have hanswer := pingAnswer_of_members hloads
        simp only [pingField, bind, Except.bind]
        cases hcheck : checkPingVersion ((members.lookup "version").getD .null) with
        | error error =>
            have hdown : error ≠ .nodeSeemsToBeDown := fun hsame =>
              checkPingVersion_ne_nodeSeemsToBeDown _ (hsame ▸ hcheck)
            exact Or.inr ⟨hanswer.2 (by simp [hcheck]), error, rfl, hdown⟩
        | ok matching =>
            cases matching with
            | false => exact Or.inr ⟨hanswer.2 (by simp [hcheck]), .versionMismatch, rfl, by simp⟩
            | true =>
                rw [hanswer.1 hcheck]
                cases addressText ((members.lookup "requester_ip").getD .null) with
                | none => exact Or.inr ⟨rfl, .invalidIpResponse, rfl, by simp⟩
                | some ip => exact Or.inl ⟨ip, rfl, rfl⟩
      · -- Only an object has a `get`.
        have hfield : pingField "version" value = .error .attributeError := by
          unfold pingField
          split
          · rename_i members
            exact absurd ⟨members, rfl⟩ hmembers
          · rfl
        have hanswer : pingAnswer body = none := by
          unfold pingAnswer
          rw [hloads]
          split
          · rename_i members hobject
            exact absurd ⟨members, Option.some.inj hobject⟩ hmembers
          · rfl
        exact Or.inr ⟨hanswer, .attributeError, by simp [hfield, bind, Except.bind], by simp⟩

/-- A response is read exactly when it has an address to tell. -/
theorem readPing_eq_ok_iff (body : String) (given : Option String) :
    readPing body = .ok given ↔ (pingAnswer body).isSome ∧ given = pingAnswer body := by
  rcases readPing_cases body with ⟨ip, hanswer, hread⟩ | ⟨hanswer, error, hread, -⟩
  · simp [hanswer, hread, eq_comm]
  · simp [hanswer, hread]

theorem readPing_ne_nodeSeemsToBeDown (body : String) :
    readPing body ≠ .error .nodeSeemsToBeDown := by
  rcases readPing_cases body with ⟨ip, -, hread⟩ | ⟨-, error, hread, hdown⟩
  · simp [hread]
  · rw [hread]
    exact fun hsame => hdown (Except.error.inj hsame)

theorem addressText_ne_empty {value : Json} {ip : String} (h : addressText value = some ip) :
    ip ≠ "" := by
  rcases Option.map_eq_some_iff.mp h with ⟨address, -, rfl⟩
  intro hempty
  have hprint : address.print = [] := by simpa using congrArg String.toList hempty
  exact address.print_ne_nil hprint

/-- An address in a response is not empty. -/
theorem pingAnswer_ne_empty {body ip : String} (h : pingAnswer body = some ip) : ip ≠ "" := by
  unfold pingAnswer at h
  split at h
  · split at h
    · split at h
      · rcases Option.bind_eq_some_iff.mp h with ⟨value, -, hvalue⟩
        exact addressText_ne_empty hvalue
      · cases h
    · cases h
  · cases h

namespace Ping

/-- The valid address that a peer answers with. -/
def answer (ping : Ping) : Option String :=
  match ping.get with
  | .ok status => if status = 200 then pingAnswer ping.body else none
  | .error _ => none

/-- A peer fails in one of the ways that are expected of peers, or has a valid address to
tell. -/
def Handled (ping : Ping) : Prop :=
  match ping.get with
  | .ok status => status = 200 → (pingAnswer ping.body).isSome
  | .error error => error = .unexpectedResponse ∨ error = .nodeSeemsToBeDown

/-- A peer gives what it has exactly when it is handled. -/
theorem requestFromNode_eq_iff (ping : Ping) :
    ping.requestFromNode = .ok ping.answer ↔ ping.Handled := by
  unfold requestFromNode answer Handled
  cases hget : ping.get with
  | error error => cases error <;> simp
  | ok status =>
      by_cases hstatus : status = 200
      · simp [hstatus, readPing_eq_ok_iff]
      · simp [hstatus]

/-- What a peer gives is the address that it has. -/
theorem requestFromNode_ok {ping : Ping} {given : Option String}
    (h : ping.requestFromNode = .ok given) : given = ping.answer := by
  unfold requestFromNode at h
  unfold answer
  cases hget : ping.get with
  | error error =>
      rw [hget] at h
      cases error <;> cases h <;> rfl
  | ok status =>
      by_cases hstatus : status = 200
      · simp only [hget, hstatus, if_true] at h ⊢
        exact ((readPing_eq_ok_iff _ _).mp h).2
      · simp only [hget, hstatus, if_false] at h ⊢
        exact (Except.ok.inj h).symm

theorem requestFromNode_ne_nodeSeemsToBeDown (ping : Ping) :
    ping.requestFromNode ≠ .error .nodeSeemsToBeDown := by
  unfold requestFromNode
  cases hget : ping.get with
  | error error => cases error <;> simp
  | ok status =>
      by_cases hstatus : status = 200
      · simpa [hstatus] using readPing_ne_nodeSeemsToBeDown ping.body
      · simp [hstatus]

theorem answer_ne_empty {ping : Ping} {ip : String} (h : ping.answer = some ip) : ip ≠ "" := by
  unfold answer at h
  split at h
  · split at h
    · exact pingAnswer_ne_empty h
    · cases h
  · cases h

end Ping

/-! ## The sources in their order -/

/-- A source of the external address. -/
inductive AddressSource where
  | knownNode (ping : Ping)
  | defaultTeacher (teacher : DefaultTeacher)
  | centralized (reply : OracleReply)

/-- An empty string counts as no answer. -/
def truthy (text : Option String) : Option String := if isTruthy text then text else none

namespace AddressSource

/-- What the code makes of a source. -/
def request : AddressSource → Except DetectionError (Option String)
  | .knownNode ping => ping.requestFromNode.map truthy
  | .defaultTeacher teacher => teacher.request.map truthy
  | .centralized reply => reply.request.map truthy

/-- The valid address that a source yields. -/
def answer : AddressSource → Option String
  | .knownNode ping => ping.answer
  | .defaultTeacher teacher =>
      match fromTeacherUri teacher.load 1 2 with
      | .ok _ => teacher.ping.answer
      | .error _ => none
  | .centralized (.response statusCode text) =>
      if statusCode = 200 ∧ (ipAddress (.str text)).isSome then some text else none
  | .centralized _ => none

/-- A peer fails in one of the expected ways, and the text of the service is empty or an
address. -/
def Handled : AddressSource → Prop
  | .knownNode ping => ping.Handled
  | .defaultTeacher teacher =>
      match fromTeacherUri teacher.load 1 2 with
      | .ok _ => teacher.ping.Handled
      | .error error => error = .nodeSeemsToBeDown
  | .centralized .suppressed => True
  | .centralized .raised => False
  | .centralized (.response statusCode text) =>
      statusCode = 200 → text ≠ "" → (ipAddress (.str text)).isSome

theorem truthy_eq_self {text : Option String} (h : ∀ ip, text = some ip → ip ≠ "") :
    truthy text = text := by
  cases text with
  | none => rfl
  | some ip => simp [truthy, isTruthy, h ip rfl]

/-- An answer is never empty, so it counts. -/
theorem map_truthy_eq_answer_iff (ping : Ping) :
    ping.requestFromNode.map truthy = .ok ping.answer ↔ ping.Handled := by
  rw [← ping.requestFromNode_eq_iff]
  cases hrequest : ping.requestFromNode with
  | error error => simp [Except.map]
  | ok given =>
      have hgiven := Ping.requestFromNode_ok hrequest
      have htruthy : truthy given = given := by
        rw [hgiven]
        exact truthy_eq_self fun ip hip => Ping.answer_ne_empty hip
      simp [Except.map, htruthy]

/-- A source gives what it has exactly when it is handled. -/
theorem faithful_iff (source : AddressSource) :
    Faithful request answer source ↔ source.Handled := by
  unfold Faithful
  cases source with
  | knownNode ping => exact map_truthy_eq_answer_iff ping
  | defaultTeacher teacher =>
      simp only [request, answer, Handled, DefaultTeacher.request]
      cases hload : fromTeacherUri teacher.load 1 2 with
      | error error => cases error <;> simp [Except.map, truthy, isTruthy]
      | ok loaded =>
          -- A request never raises what the loop over the teachers would catch.
          have hdown := teacher.ping.requestFromNode_ne_nodeSeemsToBeDown
          simpa only using map_truthy_eq_answer_iff teacher.ping
  | centralized reply =>
      cases reply with
      | suppressed =>
          simp [request, answer, Handled, OracleReply.request, Except.map, truthy, isTruthy]
      | raised => simp [request, answer, Handled, OracleReply.request, Except.map]
      | response statusCode text =>
          have hempty : (ipAddress (.str "")).isSome = false := by decide
          simp only [request, answer, Handled, OracleReply.request, Except.map]
          by_cases hstatus : statusCode = 200
          · by_cases htext : text = ""
            · simp [hstatus, htext, truthy, isTruthy, hempty]
            · by_cases hvalid : (ipAddress (.str text)).isSome = true
              · simp [hstatus, htext, truthy, isTruthy, hvalid]
              · simp [hstatus, htext, truthy, isTruthy, hvalid]
          · simp [hstatus, truthy, isTruthy]

end AddressSource

/-! ## The search -/

/-- The loops of the code are searches among sources. -/
theorem askInTurn_eq_search {σ : Type} (request : σ → Except DetectionError (Option String))
    (sources : List σ) :
    askInTurn request sources = search (fun source => (request source).map truthy) sources := by
  induction sources with
  | nil => rfl
  | cons source rest ih =>
      rw [askInTurn, search, ih]
      cases request source with
      | error error => rfl
      | ok given =>
          cases given with
          | none => simp [isTruthy, truthy, Except.map]
          | some ip => by_cases hip : ip = "" <;> simp [isTruthy, truthy, Except.map, hip]

theorem ne_empty_of_map_truthy {given : Except DetectionError (Option String)} {ip : String}
    (h : given.map truthy = .ok (some ip)) : ip ≠ "" := by
  cases given with
  | error error => simp [Except.map] at h
  | ok text =>
      cases text with
      | none => simp [Except.map, truthy, isTruthy] at h
      | some text =>
          by_cases htext : text = ""
          · simp [Except.map, truthy, isTruthy, htext] at h
          · have hsame : text = ip := by simpa [Except.map, truthy, isTruthy, htext] using h
            exact hsame ▸ htext

/-- What is found is not empty. -/
theorem ne_empty_of_found {sources : List AddressSource} {ip : String}
    (h : (search AddressSource.request sources).found = .ok (some ip)) : ip ≠ "" := by
  rcases exists_of_found_some AddressSource.request h with ⟨source, -, hrequest⟩
  cases source with
  | knownNode ping => exact ne_empty_of_map_truthy hrequest
  | defaultTeacher teacher => exact ne_empty_of_map_truthy hrequest
  | centralized reply => exact ne_empty_of_map_truthy hrequest

/-- More sources are asked exactly when the ones before gave nothing. -/
theorem orAsk_search (sources : List AddressSource) (next : Search DetectionError String) :
    ((search AddressSource.request sources).found = .ok none →
      orAsk (search AddressSource.request sources) next =
        ⟨sources.length + next.asked, next.found⟩) ∧
    ((search AddressSource.request sources).found ≠ .ok none →
      orAsk (search AddressSource.request sources) next =
        search AddressSource.request sources) := by
  unfold orAsk
  cases hfound : (search AddressSource.request sources).found with
  | error error => simp
  | ok given =>
      cases given with
      | none => simp [isTruthy, asked_of_found_none AddressSource.request hfound]
      | some ip => simp [isTruthy, ne_empty_of_found hfound]

theorem orAsk_search_search (sources more : List AddressSource) :
    orAsk (search AddressSource.request sources) (search AddressSource.request more) =
      search AddressSource.request (sources ++ more) := by
  have hsearch := search_append AddressSource.request sources more
  have hask := orAsk_search sources (search AddressSource.request more)
  by_cases hfound : (search AddressSource.request sources).found = .ok none
  · rw [hask.1 hfound, hsearch.1 hfound]
  · rw [hask.2 hfound, hsearch.2 hfound]

namespace Detection

/-- The peers that are asked: the sample of the known nodes, unless they are too few, and the
default teachers. -/
def peers (detection : Detection) : List AddressSource :=
  let sample :=
    match detection.knownNodes with
    | none => []
    | some [] => []
    | some knownNodes =>
        if knownNodes.length < 3 then [] else detection.draw.filterMap (knownNodes[·]?)
  sample.map .knownNode ++ ((detection.table.lookup detection.network).getD []).map fun uri =>
    .defaultTeacher (detection.teacher uri)

/-- The sources in their order. -/
def sources (detection : Detection) : List AddressSource :=
  detection.peers ++ [.centralized detection.oracle]

/-- Every source up to the first one that yields a valid address is asked, and none behind it;
the address is returned, or {lit}`UnknownIPAddress` is raised if there is none. -/
def FallsThrough (detection : Detection) : Prop :=
  detection.determineExternalIpAddress.1 = needed AddressSource.answer detection.sources ∧
    match detection.sources.findSome? AddressSource.answer with
    | some ip => detection.determineExternalIpAddress.2 = .ok ip
    | none => ∃ error, detection.determineExternalIpAddress.2 = .error error ∧
        error.isUnknownIPAddress = true

theorem eq_some_of_conclude {found : Except DetectionError (Option String)} {ip : String}
    (h : conclude found = .ok ip) : found = .ok (some ip) := by
  cases found with
  | error error => cases h
  | ok given =>
      cases given with
      | none => cases h
      | some restHost =>
          by_cases hempty : restHost = ""
          · simp [conclude, hempty] at h
          · have hsame : restHost = ip := by simpa [conclude, hempty] using h
            rw [hsame]

theorem conclude_map_truthy (found : Except DetectionError (Option String)) :
    conclude (found.map truthy) = conclude found := by
  cases found with
  | error error => rfl
  | ok given =>
      cases given with
      | none => rfl
      | some ip => by_cases hip : ip = "" <;> simp [conclude, Except.map, truthy, isTruthy, hip]

/-- The first two parts of the chain are one search among the peers. -/
theorem ask_eq (detection : Detection) :
    detection.ask = orAsk (search AddressSource.request detection.peers)
      (getExternalIpFromCentralizedSource detection.oracle) := by
  have hknown : ∀ knownNodes : List Ping,
      getExternalIpFromKnownNodes knownNodes 3 detection.draw = search AddressSource.request
        ((if knownNodes.length < 3 then []
          else detection.draw.filterMap (knownNodes[·]?)).map .knownNode) := by
    intro knownNodes
    rw [search_map, getExternalIpFromKnownNodes]
    split
    · rfl
    · exact askInTurn_eq_search Ping.requestFromNode _
  have hteachers :
      getExternalIpFromDefaultTeacher detection.table detection.teacher detection.network =
        search AddressSource.request (((detection.table.lookup detection.network).getD []).map
          fun uri => .defaultTeacher (detection.teacher uri)) := by
    rw [search_map, getExternalIpFromDefaultTeacher]
    cases detection.table.lookup detection.network with
    | none => rfl
    | some uris => exact askInTurn_eq_search (fun uri => (detection.teacher uri).request) uris
  unfold ask peers
  rw [hteachers, ← orAsk_search_search]
  cases detection.knownNodes with
  | none => rfl
  | some knownNodes =>
      cases knownNodes with
      | nil => rfl
      | cons node rest => simp only [hknown]

/-- The detection concludes from one search among all sources. -/
theorem determineExternalIpAddress_eq (detection : Detection) :
    detection.determineExternalIpAddress =
      ((search AddressSource.request detection.sources).asked,
        conclude (search AddressSource.request detection.sources).found) := by
  have hask := orAsk_search detection.peers (getExternalIpFromCentralizedSource detection.oracle)
  have hsearch := search_append AddressSource.request detection.peers
    [.centralized detection.oracle]
  unfold determineExternalIpAddress sources
  rw [ask_eq]
  by_cases hfound : (search AddressSource.request detection.peers).found = .ok none
  · rw [hask.1 hfound, hsearch.1 hfound, search_singleton]
    exact congrArg _ (conclude_map_truthy detection.oracle.request).symm
  · rw [hask.2 hfound, hsearch.2 hfound]

/-- The service raises no {lit}`UnknownIPAddress`. -/
theorem isUnknownIPAddress_of_centralized {reply : OracleReply} {error : DetectionError}
    (h : (AddressSource.centralized reply).request = .error error) :
    error.isUnknownIPAddress = false := by
  cases reply with
  | suppressed => cases h
  | raised =>
      cases h
      rfl
  | response statusCode text => cases h

/-- If {lit}`UnknownIPAddress` is raised after all sources were asked then none gave anything. -/
theorem found_eq_none_of_unknown {detection : Detection} {error : DetectionError}
    (hasked : (search AddressSource.request detection.sources).asked = detection.sources.length)
    (hresult : conclude (search AddressSource.request detection.sources).found = .error error)
    (hunknown : error.isUnknownIPAddress = true) :
    (search AddressSource.request detection.sources).found = .ok none := by
  have hsearch := search_append AddressSource.request detection.peers
    [.centralized detection.oracle]
  have hlength : detection.sources.length = detection.peers.length + 1 := by simp [sources]
  by_cases hpeers : (search AddressSource.request detection.peers).found = .ok none
  · have hsources := hsearch.1 hpeers
    rw [search_singleton] at hsources
    rw [sources, hsources] at hresult ⊢
    cases hrequest : (AddressSource.centralized detection.oracle).request with
    | error cause =>
        rw [hrequest] at hresult
        have hknown := isUnknownIPAddress_of_centralized hrequest
        rw [Except.error.inj hresult, hunknown] at hknown
        cases hknown
    | ok given =>
        cases given with
        | none => rfl
        | some ip =>
            have hne : ip ≠ "" := ne_empty_of_map_truthy hrequest
            simp [hrequest, conclude, hne] at hresult
  · -- The search ended before the centralized service.
    have hle := asked_le_length AddressSource.request detection.peers
    rw [sources, hsearch.2 hpeers] at hasked
    rw [sources] at hlength
    omega

/-- What a search among all sources has to find is what the detection has to return. -/
theorem fallsThrough_iff_search (detection : Detection) :
    detection.FallsThrough ↔ search AddressSource.request detection.sources =
      ⟨needed AddressSource.answer detection.sources,
        .ok (detection.sources.findSome? AddressSource.answer)⟩ := by
  unfold FallsThrough
  rw [determineExternalIpAddress_eq]
  constructor
  · rintro ⟨hasked, hresult⟩
    have hfound : (search AddressSource.request detection.sources).found =
        .ok (detection.sources.findSome? AddressSource.answer) := by
      cases hfirst : detection.sources.findSome? AddressSource.answer with
      | some ip =>
          rw [hfirst] at hresult
          exact eq_some_of_conclude hresult
      | none =>
          rw [hfirst] at hresult
          rcases hresult with ⟨error, herror, hunknown⟩
          rw [needed_of_findSome?_eq_none AddressSource.answer hfirst] at hasked
          exact found_eq_none_of_unknown hasked herror hunknown
    exact Search.ext hasked hfound
  · intro hsearch
    have hfound : (search AddressSource.request detection.sources).found =
        .ok (detection.sources.findSome? AddressSource.answer) := by rw [hsearch]
    refine ⟨by rw [hsearch], ?_⟩
    cases hfirst : detection.sources.findSome? AddressSource.answer with
    | none =>
        rw [hfound, hfirst]
        exact ⟨.detectionFailed, rfl, rfl⟩
    | some ip =>
        rw [hfirst] at hfound
        simp [hfound, conclude, ne_empty_of_found hfound]

end Detection

/-! ## Searches that end too early -/

/-- A verified peer that responds to {lit}`ping` with a body. -/
def respondingPeer (body : String) : Ping where
  exchange := ⟨true, some (.ok 200), fun _ => .timedOut, .error .other⟩
  verificationError := .other
  body := body

/-- The body that a peer of the local version sends. -/
def pongBody (requesterIp : String) : String :=
  Json.dumps (.obj [("requester_ip", .str requesterIp), ("version", .str localVersion)]) none

/-- Three known nodes, of which the one that is asked first has an old version. -/
def outdatedFirst : Detection where
  network := "unknown"
  knownNodes := some [respondingPeer "pong", respondingPeer (pongBody "203.0.113.7"),
    respondingPeer (pongBody "203.0.113.7")]
  draw := [0, 1, 2]
  teacher := fun _ => ⟨fun _ => .ok (), respondingPeer ""⟩
  oracle := .suppressed

/-- No known nodes, and a service that responds with an error page. -/
def errorPage : Detection where
  network := "unknown"
  knownNodes := none
  draw := []
  teacher := fun _ => ⟨fun _ => .ok (), respondingPeer ""⟩
  oracle := .response 200 "no address"

theorem pingAnswer_pongBody : pingAnswer (pongBody "203.0.113.7") = some "203.0.113.7" := by
  have hloads : Json.loads (pongBody "203.0.113.7") = some (.obj
      [("requester_ip", .str "203.0.113.7"), ("version", .str localVersion)]) := by
    apply Json.loads_dumps
    simp [Json.Distinct, Json.DistinctMembers]
  have htext : addressText (.str "203.0.113.7") = some "203.0.113.7" := by decide
  have hversion : SameMajorMinor localVersion := ⟨rfl, rfl⟩
  have hmatching : checkPingVersion (.str localVersion) = .ok true :=
    (checkPingVersion_eq_true_iff _).mpr ⟨localVersion, rfl, hversion⟩
  rw [(pingAnswer_of_members hloads).1 hmatching]
  exact htext

end NuLink
