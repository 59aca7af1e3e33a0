import NuLinkCore.Network.Framing

/-!
# Versioned messages of any content

The content of a response is chosen by the peer.  The receiver splits it at the
delimiter, decodes what follows and compares version components; each stage has
inputs that the next one does not expect and answers them with an exception of
its own instead of the version mismatch that its callers handle.

Main results:

- Theorem {lit}`checkVersion_ok_iff`: which versions can be compared.
- Theorem {lit}`readFrame_ok_iff`: which contents are read or reported as a mismatch.
- Theorem {lit}`decodesTotally_iff`: the same for the two functions that read responses.
-/

namespace NuLink

open Collections

/-! ## Which versions can be compared -/

/-- A version is empty, has another major component than the local one, or has a minor
component. -/
def ComparableVersion (version : String) : Prop :=
  version = "" ∨ (versionComponents version)[0]? ≠ (versionComponents localVersion)[0]? ∨
    1 < (versionComponents version).length

/-- A version can be compared exactly when its minor component is there or is not read. -/
theorem checkVersion_ok_iff (version : String) :
    (∃ same, checkVersion version = .ok same) ↔ ComparableVersion version := by
  unfold checkVersion ComparableVersion
  by_cases hempty : version = ""
  · subst hempty
    simp only [true_or, iff_true]
    exact ⟨false, by decide⟩
  · simp only [hempty, if_false, false_or]
    by_cases hmajor : (versionComponents localVersion)[0]? = (versionComponents version)[0]?
    · simp only [hmajor, ne_eq, not_true_eq_false, if_false, false_or]
      cases hminor : (versionComponents version)[1]? with
      | none =>
          have hshort := List.getElem?_eq_none_iff.mp hminor
          constructor
          · rintro ⟨same, h⟩
            cases h
          · intro hlong
            omega
      | some minor =>
          have hlong := (List.getElem?_eq_some_iff.mp hminor).1
          exact ⟨fun _ => hlong, fun _ => ⟨_, rfl⟩⟩
    · have hother : (versionComponents version)[0]? ≠ (versionComponents localVersion)[0]? :=
        fun h => hmajor h.symm
      simp only [ne_eq, hmajor, not_false_eq_true, if_true, hother, true_or, iff_true]
      exact ⟨false, rfl⟩

/-! ## Which contents can be read -/

/-- The content holds no delimiter, or holds one that is followed by a version that can be
compared. -/
def WellFramed (content : Bytes) : Prop :=
  ¬ checkVersionPickleSymbol <:+: content ∨
    ∃ payload version, content = withVersion payload version ∧
      ¬ checkVersionPickleSymbol <:+: payload ∧ ¬ checkVersionPickleSymbol <:+: utf8 version ∧
        ComparableVersion version

/-- Bytes decode to a string exactly when they are its encoding. -/
theorem decodeUtf8_eq_some_iff {bytes : Bytes} {s : String} :
    decodeUtf8 bytes = some s ↔ bytes = utf8 s := by
  constructor
  · intro h
    unfold decodeUtf8 String.fromUTF8? at h
    split at h
    · have hs := Option.some.inj h
      rw [← hs]
      rfl
    · cases h
  · rintro rfl
    exact decodeUtf8_utf8 s

/-- A content without a delimiter is one of a node that sends no version. -/
theorem readFrame_of_absent {content : Bytes} (h : ¬ checkVersionPickleSymbol <:+: content) :
    readFrame content = .ok .unversioned := by
  rw [readFrame, split_of_absent h]

/-- What a content that splits into two parts is read as. -/
theorem readFrame_of_pair {content payload versionBytes : Bytes}
    (h : split checkVersionPickleSymbol content = [payload, versionBytes]) :
    (∃ frame, readFrame content = .ok frame) ↔
      ∃ version, versionBytes = utf8 version ∧ ComparableVersion version := by
  simp only [readFrame, h]
  cases hdecode : decodeUtf8 versionBytes with
  | none =>
      constructor
      · rintro ⟨frame, hframe⟩
        cases hframe
      · rintro ⟨version, rfl, -⟩
        rw [decodeUtf8_utf8] at hdecode
        cases hdecode
  | some version =>
      have hbytes := decodeUtf8_eq_some_iff.mp hdecode
      subst hbytes
      have hcomparable : (∃ version', utf8 version = utf8 version' ∧ ComparableVersion version') ↔
          ComparableVersion version := by
        constructor
        · rintro ⟨version', hsame, hcompare⟩
          rw [hsame, decodeUtf8_utf8] at hdecode
          rwa [Option.some.inj hdecode] at hcompare
        · intro hcompare
          exact ⟨version, rfl, hcompare⟩
      rw [hcomparable, ← checkVersion_ok_iff]
      cases hcheck : checkVersion version with
      | error e => simp [hcheck]
      | ok same => cases same <;> simp [hcheck]

/-- A content is read, or reported as a mismatch, exactly when it is well framed. -/
theorem readFrame_ok_iff (content : Bytes) :
    (∃ frame, readFrame content = .ok frame) ↔ WellFramed content := by
  constructor
  · intro h
    cases hparts : split checkVersionPickleSymbol content with
    | nil => exact absurd hparts (splitFrom_ne_nil _ _ _ _)
    | cons payload rest =>
        match rest with
        | [] =>
            have hjoin := intercalate_split checkVersionPickleSymbol_ne_nil content
            have habsent := not_infix_of_mem_split checkVersionPickleSymbol_ne_nil
              (hparts ▸ List.mem_singleton.mpr rfl)
            rw [hparts] at hjoin
            have hpayload : payload = content := by simpa [List.intercalate] using hjoin
            exact Or.inl (hpayload ▸ habsent)
        | [versionBytes] =>
            rcases (readFrame_of_pair hparts).mp h with ⟨version, rfl, hcomparable⟩
            have hcontent := eq_append_of_split_eq_pair checkVersionPickleSymbol_ne_nil hparts
            rw [hcontent] at hparts
            have habsent := (split_append_eq_pair_iff checkVersionPickleSymbol_ne_nil
              unbordered_checkVersionPickleSymbol payload (utf8 version)).mp hparts
            exact Or.inr ⟨payload, version, hcontent, habsent.1, habsent.2, hcomparable⟩
        | _ :: _ :: _ =>
            rcases h with ⟨frame, hframe⟩
            simp only [readFrame, hparts] at hframe
            cases hframe
  · rintro (habsent | ⟨payload, version, rfl, hpayload, hversion, hcomparable⟩)
    · exact ⟨.unversioned, readFrame_of_absent habsent⟩
    · have hparts := (split_append_eq_pair_iff checkVersionPickleSymbol_ne_nil
        unbordered_checkVersionPickleSymbol payload (utf8 version)).mpr ⟨hpayload, hversion⟩
      exact (readFrame_of_pair hparts).mpr ⟨version, rfl, hcomparable⟩

/-! ## Reading a response -/

/-- A content was decoded to the bytes before its version suffix, or refused with the error
that the callers handle. -/
def Decodes (content : Bytes) : Except MiddlewareError Bytes → Prop
  | .ok bytes => ∃ suffix, content = bytes ++ checkVersionPickleSymbol ++ suffix
  | .error (.versionMismatch _) => True
  | .error (.frame _) => False

/-- Both functions that read a response decode its content or report a version mismatch. -/
structure DecodesTotally (response : Response) : Prop where
  nodeInformation : ∀ host port,
    Decodes response.content (nodeInformation host port response)
  getNodesViaRest : ∀ restUrl,
    Decodes response.content ((getNodesViaRest restUrl response).map Response.content)

/-- The bytes that are read stand before the version suffix. -/
theorem readFrame_payload {content bytes : Bytes} (h : readFrame content = .ok (.payload bytes)) :
    ∃ suffix, content = bytes ++ checkVersionPickleSymbol ++ suffix := by
  unfold readFrame at h
  split at h
  · simp at h
  · next payload versionBytes hparts =>
      have hcontent := eq_append_of_split_eq_pair checkVersionPickleSymbol_ne_nil hparts
      have hpayload : payload = bytes := by
        split at h
        · simp at h
        · split at h
          · simp at h
          · simp at h
          · simpa using h
      exact ⟨versionBytes, hpayload ▸ hcontent⟩
  · simp at h

theorem decodes_readTeacherFrame_iff (teacher : String) (content : Bytes) :
    Decodes content (readTeacherFrame teacher content) ↔ WellFramed content := by
  rw [← readFrame_ok_iff, readTeacherFrame]
  cases hframe : readFrame content with
  | error e => simp [Decodes]
  | ok frame =>
      cases frame with
      | unversioned => simp [Decodes]
      | mismatch version => simp [Decodes]
      | payload bytes => simpa [Decodes] using readFrame_payload hframe

/-- A successful response is decoded or reported as a mismatch by both functions exactly when
its content is well framed. -/
theorem decodesTotally_iff (response : Response) (hsuccess : response.isSuccess = true) :
    DecodesTotally response ↔ WellFramed response.content := by
  have hinformation : ∀ host port, nodeInformation host port response =
      readTeacherFrame (host ++ ":" ++ toString port) response.content := by
    intro host port
    simp [NuLink.nodeInformation, hsuccess]
  have hrest : ∀ restUrl, (getNodesViaRest restUrl response).map Response.content =
      readTeacherFrame restUrl response.content := by
    intro restUrl
    simp only [NuLink.getNodesViaRest, hsuccess, Bool.not_true, Bool.false_eq_true, if_false]
    cases readTeacherFrame restUrl response.content <;> rfl
  constructor
  · intro h
    have hdecodes := h.nodeInformation "127.0.0.1" 9151
    rw [hinformation, decodes_readTeacherFrame_iff] at hdecodes
    exact hdecodes
  · intro hframed
    refine ⟨fun host port => ?_, fun restUrl => ?_⟩
    · rw [hinformation, decodes_readTeacherFrame_iff]
      exact hframed
    · rw [hrest, decodes_readTeacherFrame_iff]
      exact hframed

/-- Two delimiters, a suffix that is no text and a version without a minor component are
answered with three different exceptions, none of them a version mismatch. -/
theorem hostile_contents_raise :
    nodeInformation "127.0.0.1" 9151
        ⟨200, checkVersionPickleSymbol ++ checkVersionPickleSymbol⟩ =
          .error (.frame .assertionError) ∧
      nodeInformation "127.0.0.1" 9151 ⟨200, checkVersionPickleSymbol ++ [0xff]⟩ =
          .error (.frame .unicodeDecodeError) ∧
      nodeInformation "127.0.0.1" 9151 ⟨200, withVersion [] "0"⟩ =
          .error (.frame .indexError) ∧
      ¬ DecodesTotally ⟨200, withVersion [] "0"⟩ := by
  have hindex : nodeInformation "127.0.0.1" 9151 ⟨200, withVersion [] "0"⟩ =
      .error (.frame .indexError) := by
    rfl
  refine ⟨by rfl, by rfl, hindex, ?_⟩
  intro h
  have hdecodes := h.nodeInformation "127.0.0.1" 9151
  rw [hindex] at hdecodes
  exact hdecodes

theorem decodesTotally_iff_other_major :
    (Response.mk 200 (withVersion [7] "1")).isSuccess = true ∧
      DecodesTotally ⟨200, withVersion [7] "1"⟩ := by
  refine ⟨by decide, (decodesTotally_iff _ (by decide)).mpr (Or.inr ?_)⟩
  exact ⟨[7], "1", rfl, by decide, by decide, Or.inr (Or.inl (by decide))⟩

end NuLink
