import NuLinkCore.Lib.Split
import NuLinkCore.Network.NodeMetadata

/-!
# The version suffix of node metadata

Nodes send serialized metadata followed by a delimiter and their version.  The
receiver splits at the delimiter, insists on exactly two parts, compares the major
and minor components of the version with its own and goes on with the first part.

The delimiter is sent in band and nothing escapes it.  It is unbordered, so the
one occurrence that the sender adds is always found where it was put; the receiver
fails exactly when the payload or the version holds another one.

Main results:

- Theorem {lit}`readFrame_withVersion_iff`: when the receiver gets the payload back.
- Theorem {lit}`framing_round_trip_iff`: the same at both places that decode a
  response.
-/

namespace NuLink

open Collections

/-! ## Versions -/

/-- The encoding of a string in UTF-8. -/
def utf8 (s : String) : Bytes := s.toUTF8.data.toList

/-- {lit}`bytes.decode('utf-8')`. -/
def decodeUtf8 (bytes : Bytes) : Option String := String.fromUTF8? ⟨bytes.toArray⟩

@[simp]
theorem decodeUtf8_utf8 (s : String) : decodeUtf8 (utf8 s) = some s := by
  have hvalid : s.toUTF8.IsValidUTF8 := s.isValidUTF8
  simp only [decodeUtf8, utf8, Array.toArray_toList]
  rw [String.fromUTF8?, dif_pos hvalid]
  rfl

/-- {lit}`__version__` of the local node. -/
def localVersion : String := "0.2.0"

/-- {lit}`check_version_pickle_symbol` as bytes. -/
def checkVersionPickleSymbol : Bytes := utf8 ">>__checkout_version__<<"

/-- The exceptions of reading a versioned message. -/
inductive FrameError where
  | assertionError
  | unicodeDecodeError
  | indexError
deriving DecidableEq, Repr

/-- {lit}`version.split(".")`. -/
def versionComponents (version : String) : List (List Char) := version.toList.splitOn '.'

/-- {lit}`check_version`: whether the major and minor components are those of the local
version.  The minor component is not read when the major one differs. -/
def checkVersion (toCheckedVersion : String) : Except FrameError Bool :=
  let version := versionComponents (if toCheckedVersion = "" then "0.1.0" else toCheckedVersion)
  let curVersion := versionComponents localVersion
  if curVersion[0]? ≠ version[0]? then .ok false
  else
    match version[1]? with
    | none => .error .indexError
    | some minor => .ok (decide (curVersion[1]? = some minor))

/-- The version has the major and the minor component of the local version. -/
def SameMajorMinor (version : String) : Prop :=
  (versionComponents version)[0]? = (versionComponents localVersion)[0]? ∧
    (versionComponents version)[1]? = (versionComponents localVersion)[1]?

instance (version : String) : Decidable (SameMajorMinor version) :=
  inferInstanceAs (Decidable (_ ∧ _))

theorem checkVersion_of_sameMajorMinor {version : String} (h : SameMajorMinor version) :
    checkVersion version = .ok true := by
  have hne : version ≠ "" := by
    rintro rfl
    exact absurd h (by decide)
  have hminor : (versionComponents localVersion)[1]? = some ['2'] := by decide
  simp only [checkVersion, if_neg hne, h.1, h.2, hminor, ne_eq, not_true_eq_false, if_false,
    decide_true]

/-! ## Versioned messages -/

/-- The payload with the delimiter and the version appended. -/
def withVersion (payload : Bytes) (version : String) : Bytes :=
  payload ++ checkVersionPickleSymbol ++ utf8 version

/-- What a message holds after it is split at the delimiter. -/
inductive Frame where
  /-- A message without a delimiter, from a node that sends no version. -/
  | unversioned
  /-- A message of another version. -/
  | mismatch (version : String)
  | payload (bytes : Bytes)
deriving DecidableEq, Repr

/-- Split a message, insist on exactly two parts and check the version. -/
def readFrame (data : Bytes) : Except FrameError Frame :=
  match split checkVersionPickleSymbol data with
  | [_] => .ok .unversioned
  | [payload, versionBytes] =>
      match decodeUtf8 versionBytes with
      | none => .error .unicodeDecodeError
      | some version =>
          match checkVersion version with
          | .error e => .error e
          | .ok false => .ok (.mismatch version)
          | .ok true => .ok (.payload payload)
  | _ => .error .assertionError

theorem checkVersionPickleSymbol_ne_nil : checkVersionPickleSymbol ≠ [] := by decide

/-- The delimiter is unbordered: it begins with what it holds nowhere else. -/
theorem unbordered_checkVersionPickleSymbol : Unbordered checkVersionPickleSymbol :=
  unbordered_of_take_ne_drop (by decide)

/-- The receiver gets the payload back exactly when the message splits into the payload
and the version. -/
theorem readFrame_withVersion_eq_payload_iff {payload : Bytes} {version : String}
    (hversion : SameMajorMinor version) :
    readFrame (withVersion payload version) = .ok (.payload payload) ↔
      split checkVersionPickleSymbol (withVersion payload version) = [payload, utf8 version] := by
  constructor
  · intro h
    unfold readFrame at h
    split at h
    · simp at h
    · rename_i front back hparts
      have hjoin := eq_append_of_split_eq_pair checkVersionPickleSymbol_ne_nil hparts
      have hfront : front = payload := by
        split at h
        · simp at h
        · split at h
          · simp at h
          · simp at h
          · simpa using h
      subst hfront
      have hback : utf8 version = back := List.append_cancel_left hjoin
      rw [hparts, hback]
    · simp at h
  · intro h
    simp only [readFrame, h, decodeUtf8_utf8, checkVersion_of_sameMajorMinor hversion]

/-- The receiver gets the payload back exactly when neither the payload nor the version
holds the delimiter. -/
theorem readFrame_withVersion_iff {payload : Bytes} {version : String}
    (hversion : SameMajorMinor version) :
    readFrame (withVersion payload version) = .ok (.payload payload) ↔
      ¬ checkVersionPickleSymbol <:+: payload ∧ ¬ checkVersionPickleSymbol <:+: utf8 version := by
  rw [readFrame_withVersion_eq_payload_iff hversion, withVersion]
  exact split_append_eq_pair_iff checkVersionPickleSymbol_ne_nil
    unbordered_checkVersionPickleSymbol payload (utf8 version)

/-- A message of a node of the local version is read as the payload or not at all. -/
theorem readFrame_localVersion {payload : Bytes} {frame : Frame}
    (h : readFrame (withVersion payload localVersion) = .ok frame) : frame = .payload payload := by
  unfold readFrame at h
  split at h
  · next part hparts =>
      have hjoin := intercalate_split checkVersionPickleSymbol_ne_nil
        (withVersion payload localVersion)
      have habsent := not_infix_of_mem_split checkVersionPickleSymbol_ne_nil
        (hparts ▸ List.mem_singleton.mpr rfl)
      rw [hparts] at hjoin
      have hpart : part = withVersion payload localVersion := by
        simpa [List.intercalate] using hjoin
      exact absurd ⟨payload, utf8 localVersion, hpart.symm⟩ habsent
  · next front back hparts =>
      have hfront : front = payload := eq_of_split_append_eq_pair
        checkVersionPickleSymbol_ne_nil unbordered_checkVersionPickleSymbol hparts
      have hjoin := eq_append_of_split_eq_pair checkVersionPickleSymbol_ne_nil hparts
      have hback : back = utf8 localVersion := by
        rw [hfront] at hjoin
        exact (List.append_cancel_left hjoin).symm
      have hversion : checkVersion localVersion = .ok true :=
        checkVersion_of_sameMajorMinor ⟨rfl, rfl⟩
      rw [hback, decodeUtf8_utf8, hfront] at h
      simp only [hversion, Except.ok.injEq] at h
      exact h.symm
  · cases h

/-! ## Senders and receivers -/

/-- A response of the REST interface. -/
structure Response where
  statusCode : Nat
  content : Bytes
deriving DecidableEq, Repr

/-- {lit}`str(response.status_code).startswith('2')`. -/
def Response.isSuccess (response : Response) : Bool :=
  (Nat.toDigits 10 response.statusCode).head? == some '2'

@[simp]
theorem Response.isSuccess_ok (content : Bytes) : (Response.mk 200 content).isSuccess = true := by
  have hdigit : (Nat.toDigits 10 200).head? = some '2' := by decide
  simp [Response.isSuccess, hdigit]

/-- {lit}`public_information`, from the bytes of the node's metadata. -/
def publicInformation (metadata : Bytes) (version : String) : Response :=
  ⟨200, withVersion metadata version⟩

/-- The response of {lit}`all_known_nodes`, from the bytestring of the known nodes. -/
def allKnownNodesResponse (knownNodes : Bytes) (version : String) : Response :=
  ⟨200, withVersion knownNodes version⟩

/-- {lit}`bytestring_of_empty_known_nodes`, from the bytes of a response without nodes. -/
def emptyKnownNodesResponse (noNodes : Bytes) (version : String) : Response :=
  ⟨200, withVersion noNodes version⟩

/-- The data that {lit}`get_nodes_via_rest` posts. -/
def metadataRequestData (request : Bytes) (version : String) : Bytes :=
  withVersion request version

/-- The exceptions of the middleware. -/
inductive MiddlewareError where
  | versionMismatch (message : String)
  | frame (error : FrameError)
deriving DecidableEq, Repr

/-- Read the content of a response of a teacher. -/
def readTeacherFrame (teacher : String) (content : Bytes) : Except MiddlewareError Bytes :=
  match readFrame content with
  | .error e => .error (.frame e)
  | .ok .unversioned =>
      .error (.versionMismatch ("the teacher " ++ teacher ++
        "'s version 0.1.0 is too low, you can't connect to it"))
  | .ok (.mismatch version) =>
      .error (.versionMismatch ("the teacher " ++ teacher ++ "'s version " ++ version ++
        " do not match with the local node's version " ++ localVersion ++
        ", please upgrade the node or connect to the node of the latest version"))
  | .ok (.payload bytes) => .ok bytes

/-- {lit}`NulinkMiddlewareClient.node_information` after the response is there. -/
def nodeInformation (host : String) (port : Nat) (response : Response) :
    Except MiddlewareError Bytes :=
  if !response.isSuccess then .ok response.content
  else readTeacherFrame (host ++ ":" ++ toString port) response.content

/-- {lit}`RestMiddleware.get_nodes_via_rest` after the response is there. -/
def getNodesViaRest (restUrl : String) (response : Response) : Except MiddlewareError Response :=
  if !response.isSuccess then .ok response
  else
    match readTeacherFrame restUrl response.content with
    | .error e => .error e
    | .ok bytes => .ok { response with content := bytes }

theorem readTeacherFrame_eq_ok_iff {teacher : String} {content bytes : Bytes} :
    readTeacherFrame teacher content = .ok bytes ↔ readFrame content = .ok (.payload bytes) := by
  unfold readTeacherFrame
  split <;> simp_all

/-- The payload survives every way from a sender to a receiver. -/
structure RoundTrips (payload : Bytes) (version : String) : Prop where
  publicInformation : ∀ host port,
    nodeInformation host port (publicInformation payload version) = .ok payload
  allKnownNodes : ∀ url,
    getNodesViaRest url (allKnownNodesResponse payload version) = .ok ⟨200, payload⟩
  emptyKnownNodes : ∀ url,
    getNodesViaRest url (emptyKnownNodesResponse payload version) = .ok ⟨200, payload⟩
  metadataRequest : readFrame (metadataRequestData payload version) = .ok (.payload payload)

theorem nodeInformation_success (host : String) (port : Nat) (content : Bytes) :
    nodeInformation host port ⟨200, content⟩ =
      readTeacherFrame (host ++ ":" ++ toString port) content := by
  simp [nodeInformation]

/-- For a version with the local major and minor component, the payload survives every
way exactly when neither of them holds the delimiter. -/
theorem framing_round_trip_iff (payload : Bytes) (version : String)
    (hversion : SameMajorMinor version) :
    RoundTrips payload version ↔
      ¬ checkVersionPickleSymbol <:+: payload ∧
        ¬ checkVersionPickleSymbol <:+: utf8 version := by
  rw [← readFrame_withVersion_iff hversion]
  constructor
  · intro h
    exact h.metadataRequest
  · intro h
    have hread : ∀ teacher, readTeacherFrame teacher (withVersion payload version) = .ok payload :=
      fun _ => readTeacherFrame_eq_ok_iff.mpr h
    have hrest : ∀ url, getNodesViaRest url ⟨200, withVersion payload version⟩ =
        .ok ⟨200, payload⟩ := by
      intro url
      simp [getNodesViaRest, hread]
    exact
      { publicInformation := fun host port => (nodeInformation_success host port _).trans (hread _)
        allKnownNodes := hrest
        emptyKnownNodes := hrest
        metadataRequest := h }

/-- A payload whose text, say a host name, holds the delimiter is refused. -/
theorem delimiter_in_payload_refused :
    SameMajorMinor "0.2.0" ∧
      (∀ host port, nodeInformation host port
        (publicInformation (utf8 "host>>__checkout_version__<<.org") "0.2.0") =
          .error (.frame .assertionError)) ∧
      ¬ RoundTrips (utf8 "host>>__checkout_version__<<.org") "0.2.0" := by
  have hread : ∀ teacher, readTeacherFrame teacher
      (withVersion (utf8 "host>>__checkout_version__<<.org") "0.2.0") =
        .error (.frame .assertionError) := by
    intro teacher
    rfl
  have hinfo : ∀ host port, nodeInformation host port
      (publicInformation (utf8 "host>>__checkout_version__<<.org") "0.2.0") =
        .error (.frame .assertionError) :=
    fun host port => (nodeInformation_success host port _).trans (hread _)
  refine ⟨by decide, hinfo, ?_⟩
  intro h
  have hok := h.publicInformation "127.0.0.1" 9151
  rw [hinfo] at hok
  simp at hok

theorem framing_round_trip_iff_plain :
    SameMajorMinor "0.2.7" ∧ RoundTrips (utf8 ">>__checkout") "0.2.7" := by
  refine ⟨by decide, (framing_round_trip_iff _ _ (by decide)).mpr ⟨?_, ?_⟩⟩
  · decide
  · decide

end NuLink
