import NuLinkCore.Config.Persistence

/-!
# The payload of a configuration in a file

The entries of a static payload have different names, and their values are read back from the
file, the paths among them after they were cast.

Main results:

- Theorem {lit}`CharacterConfiguration.entries_staticPayload`: what is in a static payload.
- Theorem {lit}`CharacterConfiguration.serialize_eq_ok_iff`: a configuration is written unless its
  gas strategy is a function.
- Theorem {lit}`castPathsFrom_eq`: what casting makes of the values under some names.
- Theorem {lit}`CharacterConfiguration.deserialize_serialize`: a configuration that was serialized
  is deserialized.
-/

namespace NuLink

namespace Configuration

open Collections Numerals Paths

/-! ## What is saved -/

namespace CharacterConfiguration

variable (config : CharacterConfiguration)

/-- The entries of the static payload. -/
def saved : List (String × PyObject) :=
  config.commonPayload ++ config.modePayload ++ config.ownPayload

end CharacterConfiguration

def commonNames : List String :=
  ["federated_only", "checksum_address", "keystore_path", "domain", "learn_on_same_thread",
    "abort_on_learning_error", "start_learning_now", "save_metadata", "node_storage", "lonely"]

def modeNames : List String :=
  ["eth_provider_uri", "poa", "light", "signer_uri"] ++ ["registry_filepath"] ++
    ["gas_strategy", "max_gas_price"]

def Kind.ownNames : Kind → List String
  | .ursula => ["operator_address", "rest_host", "rest_port", "db_filepath", "availability_check",
      "payment_method", "payment_provider", "payment_network"]
  | .alice => ["threshold", "shares", "store_policies", "store_cards", "payment_network",
      "payment_provider", "payment_method"] ++ (["rate"] ++ ["duration"])
  | .bob => ["store_policies", "store_cards"]

/-- The names of the fields that may be saved. -/
def Kind.savedNames (kind : Kind) : List String := commonNames ++ modeNames ++ kind.ownNames

theorem Kind.savedNames_nodup (kind : Kind) : kind.savedNames.Nodup := by
  cases kind <;> decide

theorem Kind.savedNames_subset (kind : Kind) :
    ∀ name ∈ kind.savedNames, name ∈ kind.parameters := by
  cases kind <;> decide

theorem Kind.version_notMem (kind : Kind) : "version" ∉ kind.savedNames := by
  cases kind <;> decide

theorem CharacterConfiguration.commonPayload_sublist (config : CharacterConfiguration) :
    (config.commonPayload.map Prod.fst).Sublist commonNames :=
  List.Sublist.refl _

theorem CharacterConfiguration.modePayload_sublist (config : CharacterConfiguration) :
    (config.modePayload.map Prod.fst).Sublist modeNames := by
  rw [CharacterConfiguration.modePayload]
  by_cases hfederated : config.federatedOnly = true
  · rw [if_pos hfederated]
    exact List.nil_sublist modeNames
  · rw [if_neg hfederated, List.map_append, List.map_append]
    refine List.Sublist.append (List.Sublist.append ?_ ?_) (List.Sublist.refl _)
    · rw [CharacterConfiguration.providerPayload]
      cases given config.blockchain.ethProviderUri with
      | none => exact List.nil_sublist _
      | some uri => exact List.Sublist.refl _
    · rw [CharacterConfiguration.registryPayload]
      cases config.registryFilepath with
      | none => exact List.nil_sublist _
      | some path => exact List.Sublist.refl _

theorem nonzeroEntry_sublist (name : String) (number : Option Int) :
    ((CharacterConfiguration.nonzeroEntry name number).map Prod.fst).Sublist [name] := by
  rw [CharacterConfiguration.nonzeroEntry]
  cases nonzero number with
  | none => exact List.nil_sublist _
  | some number => exact List.Sublist.refl _

theorem CharacterConfiguration.ownPayload_sublist (config : CharacterConfiguration) :
    (config.ownPayload.map Prod.fst).Sublist config.kind.ownNames := by
  rw [CharacterConfiguration.ownPayload, CharacterConfiguration.kind]
  cases config.own with
  | ursula fields => exact List.Sublist.refl _
  | bob fields => exact List.Sublist.refl _
  | alice fields =>
      rw [List.map_append]
      refine List.Sublist.append (List.Sublist.refl _) ?_
      by_cases hfederated : config.federatedOnly = true
      · rw [if_pos hfederated]
        exact List.nil_sublist _
      · rw [if_neg hfederated, List.map_append]
        exact (nonzeroEntry_sublist "rate" fields.rate).append
          (nonzeroEntry_sublist "duration" fields.duration)

theorem CharacterConfiguration.saved_sublist (config : CharacterConfiguration) :
    (config.saved.map Prod.fst).Sublist config.kind.savedNames := by
  rw [CharacterConfiguration.saved, List.map_append, List.map_append]
  exact (config.commonPayload_sublist.append config.modePayload_sublist).append
    config.ownPayload_sublist

/-- Nothing is saved under two values. -/
theorem CharacterConfiguration.saved_nodup (config : CharacterConfiguration) :
    (config.saved.map Prod.fst).Nodup :=
  config.kind.savedNames_nodup.sublist config.saved_sublist

theorem CharacterConfiguration.lookup_saved_iff {config : CharacterConfiguration} {name : String}
    {value : PyObject} : config.saved.lookup name = some value ↔ (name, value) ∈ config.saved :=
  Dict.lookup_eq_some_iff_mem config.saved_nodup name value

/-- The static payload has the saved entries. -/
theorem CharacterConfiguration.entries_staticPayload (config : CharacterConfiguration) :
    config.staticPayload.entries = config.saved := by
  rw [CharacterConfiguration.staticPayload, CharacterConfiguration.characterPayload,
    Dict.update_ofList_ofList]
  exact Dict.entries_ofList config.saved_nodup

/-- The paths that are saved are strings or paths. -/
def IsPathLike : PyObject → Prop
  | .none | .str _ | .path _ => True
  | _ => False

/-- A value that can be read back. -/
def IsSavable (kind : Kind) (entry : String × PyObject) : Prop :=
  (stringifyPath entry.2).Distinct ∧ (entry.1 ∈ kind.pathParameters → IsPathLike entry.2)

theorem distinct_optionalString (text : Option String) :
    (stringifyPath (optionalString text)).Distinct := by
  cases text <;> trivial

theorem isPathLike_optionalString (text : Option String) : IsPathLike (optionalString text) := by
  cases text <;> trivial

theorem distinct_optionalBool (b : Option Bool) : (stringifyPath (optionalBool b)).Distinct := by
  cases b <;> trivial

theorem distinct_gasStrategy (strategy : GasStrategy) :
    (stringifyPath strategy.toObject).Distinct := by
  cases strategy <;> trivial

theorem distinct_nodeStorage : (stringifyPath nodeStoragePayload).Distinct := by
  simp [nodeStoragePayload, stringifyPath, stringifyPaths, PyObject.Distinct]

theorem CharacterConfiguration.savable_commonPayload (config : CharacterConfiguration)
    (kind : Kind) : ∀ entry ∈ config.commonPayload, IsSavable kind entry := by
  cases kind <;>
    simp [commonPayload, IsSavable, Kind.pathParameters, distinct_optionalString,
      isPathLike_optionalString, distinct_nodeStorage, stringifyPath, PyObject.Distinct]

theorem CharacterConfiguration.savable_modePayload (config : CharacterConfiguration)
    (kind : Kind) : ∀ entry ∈ config.modePayload, IsSavable kind entry := by
  rw [modePayload]
  by_cases hfederated : config.federatedOnly = true
  · rw [if_pos hfederated]
    exact List.forall_mem_nil _
  · rw [if_neg hfederated]
    refine List.forall_mem_append.mpr ⟨List.forall_mem_append.mpr ⟨?_, ?_⟩, ?_⟩
    · rw [providerPayload]
      cases given config.blockchain.ethProviderUri with
      | none => exact List.forall_mem_nil _
      | some uri =>
          cases kind <;>
            simp [IsSavable, Kind.pathParameters, distinct_optionalBool, stringifyPath,
              PyObject.Distinct]
    · rw [registryPayload]
      cases config.registryFilepath with
      | none => exact List.forall_mem_nil _
      | some path => simp [IsSavable, IsPathLike, stringifyPath, PyObject.Distinct]
    · cases kind <;>
        simp [gasPayload, IsSavable, Kind.pathParameters, distinct_gasStrategy,
          distinct_optionalString]

theorem savable_nonzeroEntry (name : String) (number : Option Int) {kind : Kind}
    (h : name ∉ kind.pathParameters) :
    ∀ entry ∈ CharacterConfiguration.nonzeroEntry name number, IsSavable kind entry := by
  rw [CharacterConfiguration.nonzeroEntry]
  cases nonzero number with
  | none => exact List.forall_mem_nil _
  | some number => simp [IsSavable, h, stringifyPath, PyObject.Distinct]

theorem CharacterConfiguration.savable_ownPayload (config : CharacterConfiguration) :
    ∀ entry ∈ config.ownPayload, IsSavable config.kind entry := by
  have hpayment : ∀ kind, ∀ entry ∈ config.paymentPayload, IsSavable kind entry := by
    intro kind
    cases kind <;> simp [paymentPayload, IsSavable, Kind.pathParameters, distinct_optionalString]
  rw [ownPayload, kind]
  cases config.own with
  | ursula fields =>
      refine List.forall_mem_append.mpr ⟨?_, hpayment _⟩
      simp [IsSavable, OwnFields.kind, Kind.pathParameters, IsPathLike, distinct_optionalString,
        stringifyPath, PyObject.Distinct]
  | bob fields =>
      simp [IsSavable, OwnFields.kind, Kind.pathParameters, stringifyPath, PyObject.Distinct]
  | alice fields =>
      refine List.forall_mem_append.mpr ⟨List.forall_mem_append.mpr ⟨?_, ?_⟩, ?_⟩
      · simp [IsSavable, OwnFields.kind, Kind.pathParameters, stringifyPath, PyObject.Distinct]
      · intro entry hentry
        exact hpayment _ entry (List.mem_reverse.mp hentry)
      · by_cases hfederated : config.federatedOnly = true
        · rw [if_pos hfederated]
          exact List.forall_mem_nil _
        · have hrate : "rate" ∉ Kind.alice.pathParameters := by decide
          have hduration : "duration" ∉ Kind.alice.pathParameters := by decide
          rw [if_neg hfederated]
          exact List.forall_mem_append.mpr ⟨savable_nonzeroEntry "rate" fields.rate hrate,
            savable_nonzeroEntry "duration" fields.duration hduration⟩

theorem CharacterConfiguration.isSavable (config : CharacterConfiguration) :
    ∀ entry ∈ config.saved, IsSavable config.kind entry :=
  List.forall_mem_append.mpr ⟨List.forall_mem_append.mpr
    ⟨config.savable_commonPayload config.kind, config.savable_modePayload config.kind⟩,
    config.savable_ownPayload⟩

/-! ## What is read of it -/

/-- What is written of the static payload. -/
def CharacterConfiguration.written (config : CharacterConfiguration) : Payload :=
  (config.staticPayload.mapValues stringifyPath).set "version" (.int version)

theorem CharacterConfiguration.entries_written (config : CharacterConfiguration) :
    config.written.entries =
      (config.saved.map fun entry => (entry.1, stringifyPath entry.2)) ++
        [("version", .int version)] := by
  have hentries : (config.staticPayload.mapValues stringifyPath).entries =
      config.saved.map fun entry => (entry.1, stringifyPath entry.2) :=
    congrArg (List.map _) config.entries_staticPayload
  have hversion : "version" ∉ (config.staticPayload.mapValues stringifyPath).keys := by
    intro hmem
    rw [Dict.keys, hentries, List.map_map] at hmem
    exact config.kind.version_notMem (config.saved_sublist.subset hmem)
  rw [written, Dict.entries_set_of_not_mem hversion, hentries]

/-- The text of a configuration is read back as what was written. -/
theorem CharacterConfiguration.loads_serialize {config : CharacterConfiguration} {text : String}
    (h : config.serialize = .ok text) :
    PyObject.loads text = some (.dict config.written.entries) := by
  have hdumps : (PyObject.dict config.written.entries).dumps (some indentation) = some text := by
    rw [serialize, serializePayload] at h
    cases hdumps : (serializedPayload (.int version) config.staticPayload).dumps
        (some indentation) with
    | none =>
        rw [hdumps] at h
        cases h
    | some written =>
        rw [hdumps] at h
        cases h
        exact hdumps
  refine PyObject.loads_dumps (PyObject.distinct_dict.mpr ⟨config.written.nodup_keys, ?_⟩) hdumps
  rw [config.entries_written, List.forall_mem_append, List.forall_mem_map]
  exact ⟨fun entry hentry => (config.isSavable entry hentry).1, by simp [PyObject.Distinct]⟩

theorem isWritable_optionalString (text : Option String) :
    (stringifyPath (optionalString text)).isWritable = true := by
  cases text <;> rfl

theorem isWritable_optionalBool (b : Option Bool) :
    (stringifyPath (optionalBool b)).isWritable = true := by
  cases b <;> rfl

theorem isWritable_nonzeroEntry (name : String) (number : Option Int) :
    ∀ entry ∈ CharacterConfiguration.nonzeroEntry name number,
      (stringifyPath entry.2).isWritable = true := by
  rw [CharacterConfiguration.nonzeroEntry]
  cases nonzero number with
  | none => exact List.forall_mem_nil _
  | some number =>
      intro entry hentry
      rw [List.mem_singleton.mp hentry]
      rfl

theorem CharacterConfiguration.isWritable_ownPayload (config : CharacterConfiguration) :
    ∀ entry ∈ config.ownPayload, (stringifyPath entry.2).isWritable = true := by
  have hpayment : ∀ entry ∈ config.paymentPayload, (stringifyPath entry.2).isWritable = true := by
    simp [paymentPayload, isWritable_optionalString]
  rw [ownPayload]
  cases config.own with
  | ursula fields =>
      refine List.forall_mem_append.mpr ⟨?_, hpayment⟩
      simp only [List.forall_mem_cons, isWritable_optionalString]
      exact ⟨trivial, rfl, rfl, rfl, rfl, List.forall_mem_nil _⟩
  | bob fields =>
      simp only [List.forall_mem_cons]
      exact ⟨rfl, rfl, List.forall_mem_nil _⟩
  | alice fields =>
      refine List.forall_mem_append.mpr ⟨List.forall_mem_append.mpr ⟨?_, ?_⟩, ?_⟩
      · simp only [List.forall_mem_cons]
        exact ⟨rfl, rfl, rfl, rfl, List.forall_mem_nil _⟩
      · intro entry hentry
        exact hpayment entry (List.mem_reverse.mp hentry)
      · by_cases hfederated : config.federatedOnly = true
        · rw [if_pos hfederated]
          exact List.forall_mem_nil _
        · rw [if_neg hfederated]
          exact List.forall_mem_append.mpr ⟨isWritable_nonzeroEntry "rate" fields.rate,
            isWritable_nonzeroEntry "duration" fields.duration⟩

theorem CharacterConfiguration.isWritable_commonPayload (config : CharacterConfiguration) :
    ∀ entry ∈ config.commonPayload, (stringifyPath entry.2).isWritable = true := by
  simp only [commonPayload, List.forall_mem_cons, isWritable_optionalString]
  exact ⟨rfl, trivial, trivial, rfl, rfl, rfl, rfl, rfl, rfl, rfl, List.forall_mem_nil _⟩

theorem isWritable_gasStrategy (strategy : GasStrategy) :
    (stringifyPath strategy.toObject).isWritable = true ↔
      ∀ function, strategy ≠ .callable function := by
  cases strategy with
  | none => exact iff_of_true rfl (fun _ => GasStrategy.noConfusion)
  | name strategy => exact iff_of_true rfl (fun _ => GasStrategy.noConfusion)
  | callable function => exact iff_of_false Bool.false_ne_true (fun h => h function rfl)

/-- Of the blockchain only a gas strategy that is a function is not written. -/
theorem CharacterConfiguration.isWritable_modePayload (config : CharacterConfiguration) :
    (∀ entry ∈ config.modePayload, (stringifyPath entry.2).isWritable = true) ↔
      config.federatedOnly = true ∨
        ∀ function, config.blockchain.gasStrategy ≠ .callable function := by
  have hprovider : ∀ entry ∈ config.providerPayload,
      (stringifyPath entry.2).isWritable = true := by
    rw [providerPayload]
    cases given config.blockchain.ethProviderUri with
    | none => exact List.forall_mem_nil _
    | some uri =>
        simp only [List.forall_mem_cons, isWritable_optionalBool]
        exact ⟨rfl, trivial, rfl, rfl, List.forall_mem_nil _⟩
  have hregistry : ∀ entry ∈ config.registryPayload,
      (stringifyPath entry.2).isWritable = true := by
    rw [registryPayload]
    cases config.registryFilepath with
    | none => exact List.forall_mem_nil _
    | some path =>
        intro entry hentry
        rw [List.mem_singleton.mp hentry]
        rfl
  rw [← isWritable_gasStrategy, modePayload]
  by_cases hfederated : config.federatedOnly = true
  · rw [if_pos hfederated]
    exact iff_of_true (List.forall_mem_nil _) (.inl hfederated)
  · rw [if_neg hfederated, List.forall_mem_append, List.forall_mem_append, gasPayload,
      List.forall_mem_cons, List.forall_mem_singleton]
    constructor
    · exact fun h => .inr h.2.1
    · intro h
      exact ⟨⟨hprovider, hregistry⟩, h.resolve_left hfederated, isWritable_optionalString _⟩

/-- A configuration is written unless its gas strategy is a function. -/
theorem CharacterConfiguration.serialize_eq_ok_iff (config : CharacterConfiguration) :
    (∃ text, config.serialize = .ok text) ↔ config.federatedOnly = true ∨
      ∀ function, config.blockchain.gasStrategy ≠ .callable function := by
  have hsome : (∃ text, config.serialize = .ok text) ↔
      (PyObject.dict config.written.entries).isWritable = true := by
    rw [← PyObject.isSome_dumps _ (some indentation), serialize, serializePayload,
      serializedPayload, ← written]
    cases (PyObject.dict config.written.entries).dumps (some indentation) <;> simp
  rw [hsome, PyObject.isWritable_dict, List.all_eq_true, config.entries_written,
    ← config.isWritable_modePayload, List.forall_mem_append, List.forall_mem_map, saved,
    List.forall_mem_append, List.forall_mem_append, List.forall_mem_singleton]
  constructor
  · exact fun h => h.1.1.2
  · exact fun h => ⟨⟨⟨config.isWritable_commonPayload, h⟩, config.isWritable_ownPayload⟩, rfl⟩

theorem CharacterConfiguration.get?_written (config : CharacterConfiguration) (name : String) :
    config.written.get? name =
      if name = "version" then some (.int version)
      else (config.saved.lookup name).map stringifyPath := by
  rw [written, Dict.get?_set, Dict.get?_mapValues, Dict.get?, config.entries_staticPayload]

/-! ## Casting paths -/

/-- What casting makes of the values under some names. -/
theorem castPathsFrom_eq {V : Type} {cast : V → Except Error V} {f : V → V} {names : List String}
    (hnodup : names.Nodup) {payload : Dict String V}
    (h : ∀ name ∈ names, ∀ value, payload.get? name = some value → cast value = .ok (f value)) :
    ∃ payload', castPathsFrom cast names payload = .ok payload' ∧ ∀ name,
      payload'.get? name =
        if name ∈ names then (payload.get? name).map f else payload.get? name := by
  induction names generalizing payload with
  | nil => exact ⟨payload, rfl, fun name => by simp⟩
  | cons first names ih =>
      rw [List.nodup_cons] at hnodup
      rw [castPathsFrom, List.foldlM_cons]
      cases hfirst : payload.get? first with
      | none =>
          rcases ih hnodup.2 (fun name hname => h name (List.mem_cons_of_mem first hname)) with
            ⟨payload', hcast, hget⟩
          refine ⟨payload', hcast, fun name => ?_⟩
          rw [hget name]
          by_cases hname : name = first
          · rw [hname, if_neg hnodup.1, if_pos List.mem_cons_self, hfirst, Option.map_none]
          · simp [hname]
      | some value =>
          have hother : ∀ name ∈ names, ∀ value', (payload.set first (f value)).get? name =
              some value' → cast value' = .ok (f value') := by
            intro name hname value' hvalue
            have hne : name ≠ first := fun heq => hnodup.1 (heq ▸ hname)
            rw [Dict.get?_set, if_neg hne] at hvalue
            exact h name (List.mem_cons_of_mem first hname) value' hvalue
          rcases ih hnodup.2 hother with ⟨payload', hcast, hget⟩
          refine ⟨payload', ?_, fun name => ?_⟩
          · simp only [h first List.mem_cons_self value hfirst]
            exact hcast
          · rw [hget name, Dict.get?_set]
            by_cases hname : name = first
            · rw [hname, if_neg hnodup.1, if_pos rfl, if_pos List.mem_cons_self, hfirst,
                Option.map_some]
            · simp [hname]

theorem Kind.pathParameters_nodup (kind : Kind) : kind.pathParameters.Nodup := by
  cases kind <;> decide

/-- A value that is cast, or the value itself. -/
def castOr (value : PyObject) : PyObject := (castPath value).toOption.getD value

theorem castOr_str {text : String} (h : text ≠ "") :
    castOr (.str text) = .path (PosixPath.ofString text).text := by
  simp [castOr, castPath, h, Except.toOption]

/-- What can be cast is cast once. -/
theorem IsPathLike.castPath {value : PyObject} (h : IsPathLike value) :
    castPath (stringifyPath value) = .ok (castOr (stringifyPath value)) ∧
      Configuration.castPath (castOr (stringifyPath value)) =
        .ok (castOr (stringifyPath value)) := by
  have hcast : ∀ text, Configuration.castPath (castOr (.str text)) = .ok (castOr (.str text)) := by
    intro text
    by_cases hempty : text = ""
    · rw [hempty]
      rfl
    · rw [castOr_str hempty]
      rfl
  cases value with
  | none => exact ⟨rfl, rfl⟩
  | str text => exact ⟨rfl, hcast text⟩
  | path text => exact ⟨rfl, hcast text⟩
  | _ => exact h.elim

/-- What is saved under a name, as it is read. -/
def readBack (kind : Kind) (name : String) (value : PyObject) : PyObject :=
  if name ∈ kind.pathParameters then castOr (stringifyPath value) else stringifyPath value

/-- A path is read as it was saved. -/
theorem readBack_path {kind : Kind} {name : String} (h : name ∈ kind.pathParameters)
    (path : PosixPath) : readBack kind name (.path path.text) = .path path.text := by
  rw [readBack, if_pos h, stringifyPath, castOr_str path.text_ne_empty, PosixPath.ofString_text]

/-- Setting what is there already changes no lookup. -/
theorem castDbFilepath_eq {V : Type} {cast : V → Except Error V} {kind : Kind}
    {payload : Dict String V} (h : kind = .ursula → ∃ value,
      payload.get? "db_filepath" = some value ∧ cast value = .ok value) :
    ∃ payload', castDbFilepath cast kind payload = .ok payload' ∧
      ∀ name, payload'.get? name = payload.get? name := by
  rw [castDbFilepath]
  by_cases hkind : kind = .ursula
  · rcases h hkind with ⟨value, hvalue, hcast⟩
    refine ⟨payload.set "db_filepath" value, by simp [hkind, hvalue, hcast, Except.map], ?_⟩
    intro name
    rw [Dict.get?_set]
    by_cases hname : name = "db_filepath"
    · rw [if_pos hname, hname, hvalue]
    · rw [if_neg hname]
  · rw [if_neg hkind]
    exact ⟨payload, rfl, fun name => rfl⟩

/-- The static payload of Ursula has the path of a database. -/
theorem CharacterConfiguration.lookup_dbFilepath {config : CharacterConfiguration}
    (h : config.kind = .ursula) :
    ∃ path : PosixPath, config.saved.lookup "db_filepath" = some (.path path.text) := by
  unfold kind at h
  cases hown : config.own with
  | ursula fields =>
      refine ⟨fields.dbFilepath, lookup_saved_iff.mpr ?_⟩
      rw [saved, ownPayload, hown]
      simp
  | alice fields =>
      rw [hown] at h
      cases h
  | bob fields =>
      rw [hown] at h
      cases h

theorem CharacterConfiguration.deserialize_serialize {config : CharacterConfiguration}
    {text : String} (h : config.serialize = .ok text) :
    ∃ payload, config.kind.deserialize text = .ok payload ∧ ∀ name,
      payload.get? name = (config.saved.lookup name).map (readBack config.kind name) := by
  have hload : (Dict.ofList config.written.entries : Payload) = config.written :=
    Dict.eq_of_entries_eq (Dict.entries_ofList config.written.nodup_keys)
  have hversion : config.saved.lookup "version" = none := by
    rw [List.lookup_eq_none_iff]
    intro entry hentry
    refine bne_iff_ne.mpr fun hname => ?_
    exact config.kind.version_notMem (config.saved_sublist.subset
      (hname ▸ List.mem_map_of_mem hentry))
  have herase : ∀ name, (config.written.erase "version").get? name =
      (config.saved.lookup name).map stringifyPath := by
    intro name
    rw [Dict.get?_erase, get?_written]
    by_cases hname : name = "version"
    · rw [if_pos hname, hname, hversion, Option.map_none]
    · rw [if_neg hname, if_neg hname]
  have hpath : ∀ name ∈ config.kind.pathParameters, ∀ value,
      (config.written.erase "version").get? name = some value →
        castPath value = .ok (castOr value) := by
    intro name hname value hvalue
    rw [herase] at hvalue
    rcases Option.map_eq_some_iff.mp hvalue with ⟨object, hobject, rfl⟩
    have hmem := lookup_saved_iff.mp hobject
    exact ((config.isSavable _ hmem).2 hname).castPath.1
  rcases castPathsFrom_eq config.kind.pathParameters_nodup hpath with ⟨payload, hcast, hget⟩
  have hread : ∀ name,
      payload.get? name = (config.saved.lookup name).map (readBack config.kind name) := by
    intro name
    rw [hget, herase]
    by_cases hname : name ∈ config.kind.pathParameters
    · have hfun : readBack config.kind name = castOr ∘ stringifyPath :=
        funext fun value => if_pos hname
      rw [if_pos hname, Option.map_map, hfun]
    · have hfun : readBack config.kind name = stringifyPath := funext fun value => if_neg hname
      rw [if_neg hname, hfun]
  have hdb : config.kind = .ursula → ∃ value,
      payload.get? "db_filepath" = some value ∧ toPath value = .ok value := by
    intro hkind
    rcases config.lookup_dbFilepath hkind with ⟨path, hlookup⟩
    refine ⟨.path path.text, ?_, rfl⟩
    rw [hread, hlookup, Option.map_some, hkind, readBack_path (by decide)]
  rcases castDbFilepath_eq hdb with ⟨payload', hcast', hget'⟩
  refine ⟨payload', ?_, fun name => (hget' name).trans (hread name)⟩
  rw [Kind.deserialize, loads_serialize h]
  simp only [hload, get?_written, if_true, hcast]
  exact hcast'

end Configuration

end NuLink
