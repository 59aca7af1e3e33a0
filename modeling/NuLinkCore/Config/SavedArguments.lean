import NuLinkCore.Config.SavedPayload

/-!
# The arguments that a configuration is loaded with

What is read of a saved configuration is assembled into the arguments of its constructor.

Main results:

- Theorem {lit}`Kwargs.AreSaved.arguments`: the arguments that a configuration is loaded with.
- Theorem {lit}`assemble_saved`: what was saved is assembled.
-/

namespace NuLink

namespace Configuration

open Collections Numerals Paths

/-! ## The arguments that are read -/

theorem Kind.mem_pathParameters {kind : Kind} {name : String} :
    name ∈ kind.pathParameters ↔ name = "config_root" ∨ name = "filepath" ∨
      name = "keystore_path" ∨ name = "registry_filepath" ∨ name = "policy_registry_filepath" ∨
        kind = .ursula ∧ name = "db_filepath" := by
  cases kind <;> simp [Kind.pathParameters]

namespace CharacterConfiguration

variable (config : CharacterConfiguration)

/-- The price as it is read. -/
def priceArgument : Argument :=
  if config.federatedOnly then .object .none
  else (nonzeroPrice config.blockchain.maxGasPrice).elim (.object .none) fun price =>
    .price price.toDecimal

/-- The keyword argument that is read for a name. -/
def savedArgument (name : String) : Option Argument :=
  if name = "max_gas_price" then some config.priceArgument
  else if name = "node_storage" then some (.storage .forgetful)
  else (config.saved.lookup name).map fun value => .object (readBack config.kind name value)

theorem lookup_saved (name : String) :
    config.saved.lookup name =
      ((config.commonPayload.lookup name).or (config.modePayload.lookup name)).or
        (config.ownPayload.lookup name) := by
  rw [saved, List.lookup_append, List.lookup_append]

end CharacterConfiguration

/-- A name that is not in a list of names is not looked up in a part of it. -/
theorem lookup_eq_none_of_sublist {entries : List (String × PyObject)} {names : List String}
    (hsublist : (entries.map Prod.fst).Sublist names) {name : String} (h : name ∉ names) :
    entries.lookup name = none := by
  rw [List.lookup_eq_none_iff]
  intro entry hentry
  refine bne_iff_ne.mpr fun hname => ?_
  exact h (hname ▸ hsublist.subset (List.mem_map_of_mem hentry))

theorem lookup_eq_none {config : CharacterConfiguration} {name : String}
    (h : name ∉ config.kind.savedNames) : config.saved.lookup name = none :=
  lookup_eq_none_of_sublist config.saved_sublist h

theorem lookup_of_common {config : CharacterConfiguration} {name : String} {value : PyObject}
    (h : (name, value) ∈ config.commonPayload) : config.saved.lookup name = some value :=
  CharacterConfiguration.lookup_saved_iff.mpr
    (List.mem_append_left _ (List.mem_append_left _ h))

theorem lookup_of_own {config : CharacterConfiguration} {name : String} {value : PyObject}
    (h : (name, value) ∈ config.ownPayload) : config.saved.lookup name = some value :=
  CharacterConfiguration.lookup_saved_iff.mpr (List.mem_append_right _ h)

/-- A name of the mode is neither common nor that of a character. -/
theorem lookup_of_mode {config : CharacterConfiguration} {name : String} (h : name ∈ modeNames) :
    config.saved.lookup name = config.modePayload.lookup name := by
  have hcommon : ∀ other ∈ modeNames, other ∉ commonNames := by decide
  have hown : ∀ kind : Kind, ∀ other ∈ modeNames, other ∉ kind.ownNames := by
    intro kind
    cases kind <;> decide
  rw [config.lookup_saved,
    lookup_eq_none_of_sublist config.commonPayload_sublist (hcommon name h),
    lookup_eq_none_of_sublist config.ownPayload_sublist (hown _ name h), Option.none_or,
    Option.or_none]

theorem lookup_of_federated {config : CharacterConfiguration}
    (hfederated : config.federatedOnly = true) {name : String} (h : name ∈ modeNames) :
    config.saved.lookup name = none := by
  rw [lookup_of_mode h, CharacterConfiguration.modePayload, if_pos hfederated]
  rfl

/-- What is saved of the blockchain. -/
theorem lookup_of_decentralized {config : CharacterConfiguration}
    (hfederated : config.federatedOnly = false) :
    let provider := given config.blockchain.ethProviderUri
    config.saved.lookup "eth_provider_uri" = provider.map .str ∧
      config.saved.lookup "poa" = provider.map (fun _ => optionalBool config.blockchain.poa) ∧
      config.saved.lookup "light" = provider.map (fun _ => .bool config.blockchain.light) ∧
      config.saved.lookup "signer_uri" =
        provider.map (fun uri => .str ((given config.blockchain.signerUri).getD uri)) ∧
      config.saved.lookup "registry_filepath" =
        config.registryFilepath.map (fun path => .path path.text) ∧
      config.saved.lookup "gas_strategy" = some config.blockchain.gasStrategy.toObject ∧
      config.saved.lookup "max_gas_price" =
        some (optionalString ((nonzeroPrice config.blockchain.maxGasPrice).map GasPrice.str)) := by
  intro provider
  have hmode : ∀ name ∈ modeNames, config.saved.lookup name =
      (config.providerPayload ++ config.registryPayload ++ config.gasPayload).lookup name := by
    intro name hname
    rw [lookup_of_mode hname, CharacterConfiguration.modePayload, hfederated]
    rfl
  rw [hmode _ (by decide), hmode _ (by decide), hmode _ (by decide), hmode _ (by decide),
    hmode _ (by decide), hmode _ (by decide), hmode _ (by decide),
    CharacterConfiguration.providerPayload, CharacterConfiguration.registryPayload,
    CharacterConfiguration.gasPayload]
  cases hprovider : given config.blockchain.ethProviderUri <;>
    cases config.registryFilepath <;>
    simp [provider, hprovider, Dict.lookup_cons_ite]

theorem mem_ownPayload_of_payment {config : CharacterConfiguration} (hbob : config.kind ≠ .bob)
    {entry : String × PyObject} (h : entry ∈ config.paymentPayload) :
    entry ∈ config.ownPayload := by
  rw [CharacterConfiguration.ownPayload]
  rw [CharacterConfiguration.kind] at hbob
  cases hown : config.own with
  | ursula fields => exact List.mem_append_right _ h
  | alice fields =>
      exact List.mem_append_left _ (List.mem_append_right _ (List.mem_reverse.mpr h))
  | bob fields => exact absurd (congrArg OwnFields.kind hown) hbob

/-- What Alice saves besides her payments. -/
theorem lookup_nonzeroEntry {config : CharacterConfiguration} {fields : AliceFields}
    (hown : config.own = .alice fields) :
    config.saved.lookup "rate" =
        (if config.federatedOnly then none else nonzero fields.rate).map .int ∧
      config.saved.lookup "duration" =
        (if config.federatedOnly then none else nonzero fields.duration).map .int := by
  have hrate : "rate" ∉ commonNames ∧ "rate" ∉ modeNames := by decide
  have hduration : "duration" ∉ commonNames ∧ "duration" ∉ modeNames := by decide
  rw [config.lookup_saved, config.lookup_saved,
    lookup_eq_none_of_sublist config.commonPayload_sublist hrate.1,
    lookup_eq_none_of_sublist config.modePayload_sublist hrate.2,
    lookup_eq_none_of_sublist config.commonPayload_sublist hduration.1,
    lookup_eq_none_of_sublist config.modePayload_sublist hduration.2, Option.none_or,
    Option.none_or, CharacterConfiguration.ownPayload, hown]
  cases config.federatedOnly <;> cases hr : nonzero fields.rate <;>
    cases hd : nonzero fields.duration <;>
    simp [CharacterConfiguration.paymentPayload, CharacterConfiguration.nonzeroEntry,
      Dict.lookup_cons_ite, hr, hd]

theorem GasPrice.str_toDecimal (price : GasPrice) :
    (GasPrice.decimal price.toDecimal).str = price.str := by
  cases price with
  | int price =>
      simp only [GasPrice.str, GasPrice.toDecimal, Decimal.str_ofInt, String.ofList_toList]
  | decimal price => rfl

theorem GasPrice.parse_str (price : GasPrice) :
    Decimal.parse price.str.toList = some price.toDecimal := by
  rw [← price.str_toDecimal, GasPrice.str, String.toList_ofList, Decimal.parse_str]

theorem string?_optionalString (text : Option String) :
    orNone string? (stringifyPath (optionalString text)) = some text := by
  cases text <;> rfl

theorem bool?_optionalBool (b : Option Bool) :
    orNone bool? (stringifyPath (optionalBool b)) = some b := by
  cases b <;> rfl

/-- A path is read back from its text. -/
theorem path?_castOr (path : PosixPath) :
    orNone path? (castOr (.str path.text)) = some (some path) := by
  rw [castOr_str path.text_ne_empty, PosixPath.ofString_text]
  exact congrArg (fun path => some (some path)) path.ofString_text

/-- The keyword arguments are those that a configuration was saved with. -/
def Kwargs.AreSaved (kwargs : Kwargs) (config : CharacterConfiguration) : Prop :=
  ∀ name, kwargs.get? name = config.savedArgument name

section Read

variable {config : CharacterConfiguration} {kwargs : Kwargs}

/-- What is not saved has its default. -/
theorem Kwargs.AreSaved.read_none (h : kwargs.AreSaved config) {α : Type} {name : String}
    (default : α) (ofObject : PyObject → Option α)
    (hname : name ≠ "max_gas_price" ∧ name ≠ "node_storage")
    (hlookup : config.saved.lookup name = none) :
    kwargs.read name default ofObject = .ok default := by
  rw [Kwargs.read, h, CharacterConfiguration.savedArgument, if_neg hname.1, if_neg hname.2, hlookup,
    Option.map_none]

theorem Kwargs.AreSaved.read_some (h : kwargs.AreSaved config) {α : Type} {name : String}
    (default : α) {ofObject : PyObject → Option α}
    (hname : name ≠ "max_gas_price" ∧ name ≠ "node_storage") {value : PyObject}
    (hlookup : config.saved.lookup name = some value) {a : α}
    (hobject : ofObject (readBack config.kind name value) = some a) :
    kwargs.read name default ofObject = .ok a := by
  rw [Kwargs.read, h, CharacterConfiguration.savedArgument, if_neg hname.1, if_neg hname.2, hlookup,
    Option.map_some]
  simp only [hobject, Option.elim_some]

/-- What is saved as it is and is no path is read as it was. -/
theorem Kwargs.AreSaved.read_plain (h : kwargs.AreSaved config) {α : Type} {name : String}
    (default : α) {ofObject : PyObject → Option α}
    (hname : name ∉ ["max_gas_price", "node_storage", "config_root", "filepath", "keystore_path",
      "registry_filepath", "policy_registry_filepath", "db_filepath"]) (value : PyObject)
    (hlookup : config.saved.lookup name = some value) {a : α}
    (hobject : ofObject (stringifyPath value) = some a) :
    kwargs.read name default ofObject = .ok a := by
  simp only [List.mem_cons, List.not_mem_nil, or_false, not_or] at hname
  refine h.read_some default ⟨hname.1, hname.2.1⟩ hlookup ?_
  have hpath : name ∉ config.kind.pathParameters := by
    rw [Kind.mem_pathParameters]
    tauto
  rw [readBack, if_neg hpath, hobject]

theorem Kwargs.AreSaved.behaviour (h : kwargs.AreSaved config) :
    kwargs.behaviour = .ok config.behaviour := by
  have hcommon : ∀ {name : String} {value : PyObject}, (name, value) ∈ config.commonPayload →
      config.saved.lookup name = some value := lookup_of_common
  unfold CharacterConfiguration.commonPayload at hcommon
  rw [Kwargs.behaviour,
    h.read_plain mainnet (by decide) (.str config.behaviour.domain) (hcommon (by simp)) rfl,
    h.read_plain false (by decide) (.bool config.behaviour.learnOnSameThread)
      (hcommon (by simp)) rfl,
    h.read_plain false (by decide) (.bool config.behaviour.abortOnLearningError)
      (hcommon (by simp)) rfl,
    h.read_plain true (by decide) (.bool config.behaviour.startLearningNow)
      (hcommon (by simp)) rfl,
    h.read_plain true (by decide) (.bool config.behaviour.saveMetadata) (hcommon (by simp)) rfl,
    h.read_plain false (by decide) (.bool config.behaviour.lonely) (hcommon (by simp)) rfl]
  rfl

/-- Bob's payments are not saved. -/
theorem Kwargs.AreSaved.payment (h : kwargs.AreSaved config) :
    kwargs.payment = .ok (if config.kind = .bob then {} else config.payment) := by
  by_cases hbob : config.kind = .bob
  · have hnone : ∀ name, name ∉ Kind.bob.savedNames → config.saved.lookup name = none := by
      intro name hname
      exact lookup_eq_none (hbob ▸ hname)
    rw [Kwargs.payment, if_pos hbob,
      h.read_none none _ (by decide) (hnone "payment_method" (by decide)),
      h.read_none none _ (by decide) (hnone "payment_provider" (by decide)),
      h.read_none none _ (by decide) (hnone "payment_network" (by decide))]
    rfl
  · have hown : ∀ {name value}, (name, value) ∈ config.paymentPayload →
        config.saved.lookup name = some value := by
      intro name value hmem
      exact lookup_of_own (mem_ownPayload_of_payment hbob hmem)
    unfold CharacterConfiguration.paymentPayload at hown
    rw [Kwargs.payment, if_neg hbob,
      h.read_plain none (by decide) (optionalString config.payment.method) (hown (by simp))
        (string?_optionalString _),
      h.read_plain none (by decide) (optionalString config.payment.provider) (hown (by simp))
        (string?_optionalString _),
      h.read_plain none (by decide) (optionalString config.payment.network) (hown (by simp))
        (string?_optionalString _)]
    rfl

/-- The registry is not saved in federated mode. -/
theorem Kwargs.AreSaved.registries (h : kwargs.AreSaved config) :
    kwargs.registries = .ok
      { registryFilepath := if config.federatedOnly then none else config.registryFilepath } := by
  have hpolicy : config.saved.lookup "policy_registry_filepath" = none := by
    refine lookup_eq_none ?_
    cases config.kind <;> decide
  have hregistry : kwargs.read "registry_filepath" none (orNone path?) =
      .ok (if config.federatedOnly then none else config.registryFilepath) := by
    cases hfederated : config.federatedOnly with
    | true => exact h.read_none none _ (by decide) (lookup_of_federated hfederated (by decide))
    | false =>
        rcases lookup_of_decentralized hfederated with ⟨-, -, -, -, hlookup, -, -⟩
        cases hregistry : config.registryFilepath with
        | none =>
            rw [hregistry] at hlookup
            exact h.read_none none _ (by decide) hlookup
        | some path =>
            rw [hregistry] at hlookup
            refine h.read_some none (by decide) hlookup ?_
            have hpath : "registry_filepath" ∈ config.kind.pathParameters :=
              Kind.mem_pathParameters.mpr (by simp)
            rw [readBack, if_pos hpath, stringifyPath]
            exact path?_castOr path
  rw [Kwargs.registries, hregistry, h.read_none none _ (by decide) hpolicy]
  rfl

/-- The arguments that only one of the characters has, as they are saved. -/
def CharacterConfiguration.savedOwn (config : CharacterConfiguration) : OwnArguments :=
  match config.own with
  | .ursula fields => .ursula
      { restHost := some fields.restHost
        operatorAddress := fields.operatorAddress
        dbFilepath := some fields.dbFilepath
        restPort := some fields.restPort
        availabilityCheck := some fields.availabilityCheck }
  | .alice fields => .alice
      { threshold := some fields.threshold
        shares := some fields.shares
        rate := if config.federatedOnly then none else nonzero fields.rate
        duration := if config.federatedOnly then none else nonzero fields.duration
        storePolicies := fields.storePolicies
        storeCards := fields.storeCards }
  | .bob fields => .bob fields

/-- A number that is saved if it is not zero. -/
theorem Kwargs.AreSaved.read_number (h : kwargs.AreSaved config) {name : String}
    (hname : name ∉ ["max_gas_price", "node_storage", "config_root", "filepath", "keystore_path",
      "registry_filepath", "policy_registry_filepath", "db_filepath"]) {number : Option Int}
    (hlookup : config.saved.lookup name = number.map .int) :
    kwargs.read name none (orNone int?) = .ok number := by
  cases number with
  | none =>
      simp only [List.mem_cons, not_or] at hname
      exact h.read_none none _ ⟨hname.1, hname.2.1⟩ hlookup
  | some number => exact h.read_plain none hname (.int number) hlookup rfl

theorem Kwargs.AreSaved.own (h : kwargs.AreSaved config) :
    kwargs.own config.kind = .ok config.savedOwn := by
  have hsaved : ∀ {name value}, (name, value) ∈ config.ownPayload →
      config.saved.lookup name = some value := lookup_of_own
  rw [CharacterConfiguration.savedOwn, CharacterConfiguration.kind]
  rw [CharacterConfiguration.ownPayload] at hsaved
  cases hown : config.own with
  | ursula fields =>
      rw [hown] at hsaved
      have hpath : kwargs.read "db_filepath" none (orNone path?) =
          .ok (some fields.dbFilepath) := by
        have hlookup : config.saved.lookup "db_filepath" = some (.path fields.dbFilepath.text) :=
          hsaved (by simp)
        have hmem : "db_filepath" ∈ config.kind.pathParameters := by
          simp [Kind.mem_pathParameters, CharacterConfiguration.kind, hown, OwnFields.kind]
        refine h.read_some none (by decide) hlookup ?_
        rw [readBack, if_pos hmem, stringifyPath]
        exact path?_castOr fields.dbFilepath
      rw [OwnFields.kind, Kwargs.own,
        h.read_plain none (by decide) (.str fields.restHost) (hsaved (by simp)) rfl,
        h.read_plain none (by decide) (optionalString fields.operatorAddress) (hsaved (by simp))
          (string?_optionalString _), hpath,
        h.read_plain none (by decide) (.int fields.restPort) (hsaved (by simp)) rfl,
        h.read_plain none (by decide) (.bool fields.availabilityCheck) (hsaved (by simp)) rfl]
      rfl
  | alice fields =>
      rw [hown] at hsaved
      rcases lookup_nonzeroEntry hown with ⟨hrate, hduration⟩
      rw [OwnFields.kind, Kwargs.own,
        h.read_plain none (by decide) (.int fields.threshold) (hsaved (by simp)) rfl,
        h.read_plain none (by decide) (.int fields.shares) (hsaved (by simp)) rfl,
        h.read_number (by decide) hrate, h.read_number (by decide) hduration,
        h.read_plain true (by decide) (.bool fields.storePolicies) (hsaved (by simp)) rfl,
        h.read_plain true (by decide) (.bool fields.storeCards) (hsaved (by simp)) rfl]
      rfl
  | bob fields =>
      rw [hown] at hsaved
      rw [OwnFields.kind, Kwargs.own,
        h.read_plain true (by decide) (.bool fields.storePolicies) (hsaved (by simp)) rfl,
        h.read_plain true (by decide) (.bool fields.storeCards) (hsaved (by simp)) rfl]
      rfl

/-- The blockchain as it is read.  What is saved depends on the provider. -/
def CharacterConfiguration.savedBlockchain (config : CharacterConfiguration) : Blockchain :=
  if config.federatedOnly then {}
  else
    let provider := given config.blockchain.ethProviderUri
    { poa := provider.bind fun _ => config.blockchain.poa
      light := provider.isSome && config.blockchain.light
      ethProviderUri := provider
      gasStrategy := config.blockchain.gasStrategy
      maxGasPrice := (nonzeroPrice config.blockchain.maxGasPrice).map fun price =>
        .decimal price.toDecimal
      signerUri := provider.map (given config.blockchain.signerUri).getD }

theorem Kwargs.AreSaved.blockchain (h : kwargs.AreSaved config) :
    kwargs.blockchain = .ok config.savedBlockchain := by
  have hprice : kwargs.maxGasPrice = .ok config.savedBlockchain.maxGasPrice := by
    rw [Kwargs.maxGasPrice, h, CharacterConfiguration.savedArgument, if_pos rfl,
      CharacterConfiguration.priceArgument, CharacterConfiguration.savedBlockchain]
    cases config.federatedOnly with
    | true => rfl
    | false => cases nonzeroPrice config.blockchain.maxGasPrice <;> rfl
  rw [Kwargs.blockchain, hprice]
  cases hfederated : config.federatedOnly with
  | true =>
      have hnone : ∀ name ∈ modeNames, config.saved.lookup name = none :=
        fun name hname => lookup_of_federated hfederated hname
      rw [h.read_none none _ (by decide) (hnone "poa" (by decide)),
        h.read_none false _ (by decide) (hnone "light" (by decide)),
        h.read_none none _ (by decide) (hnone "eth_provider_uri" (by decide)),
        h.read_none (GasStrategy.name "fast") _ (by decide) (hnone "gas_strategy" (by decide)),
        h.read_none none _ (by decide) (hnone "signer_uri" (by decide)),
        CharacterConfiguration.savedBlockchain, if_pos hfederated]
      rfl
  | false =>
      rcases lookup_of_decentralized hfederated with
        ⟨hprovider, hpoa, hlight, hsigner, -, hgas, -⟩
      have hread : kwargs.read "gas_strategy" (.name "fast") gasStrategy? =
          .ok config.blockchain.gasStrategy := by
        refine h.read_plain (GasStrategy.name "fast") (by decide) _ hgas ?_
        cases config.blockchain.gasStrategy <;> rfl
      rw [hread, CharacterConfiguration.savedBlockchain, hfederated]
      cases hgiven : given config.blockchain.ethProviderUri with
      | none =>
          rw [hgiven] at hprovider hpoa hlight hsigner
          rw [h.read_none none _ (by decide) hpoa, h.read_none false _ (by decide) hlight,
            h.read_none none _ (by decide) hprovider, h.read_none none _ (by decide) hsigner]
          rfl
      | some uri =>
          rw [hgiven] at hprovider hpoa hlight hsigner
          rw [h.read_plain none (by decide) _ hpoa (bool?_optionalBool _),
            h.read_plain false (by decide) _ hlight rfl,
            h.read_plain none (by decide) _ hprovider rfl,
            h.read_plain none (by decide) _ hsigner rfl]
          rfl

/-- The arguments that a configuration is loaded with. -/
def CharacterConfiguration.savedArguments (config : CharacterConfiguration) : Arguments where
  federatedOnly := config.federatedOnly
  checksumAddress := config.checksumAddress
  keystorePath := config.keystore.map KeystoreFile.keystorePath
  behaviour := config.behaviour
  blockchain := config.savedBlockchain
  payment := if config.kind = .bob then {} else config.payment
  registries :=
    { registryFilepath := if config.federatedOnly then none else config.registryFilepath }
  own := config.savedOwn

/-- The constructor has a parameter for everything that is saved. -/
theorem Kwargs.AreSaved.accepted (h : kwargs.AreSaved config) :
    kwargs.keys.all config.kind.parameters.contains = true := by
  rw [List.all_eq_true]
  intro name hname
  rw [List.contains_iff_mem]
  have hspecial : ∀ kind : Kind,
      "max_gas_price" ∈ kind.parameters ∧ "node_storage" ∈ kind.parameters := by
    intro kind
    cases kind <;> decide
  rcases Dict.mem_keys_iff_exists.mp hname with ⟨value, hvalue⟩
  rw [h, CharacterConfiguration.savedArgument] at hvalue
  by_cases hprice : name = "max_gas_price"
  · exact hprice ▸ (hspecial config.kind).1
  · by_cases hstorage : name = "node_storage"
    · exact hstorage ▸ (hspecial config.kind).2
    · rw [if_neg hprice, if_neg hstorage] at hvalue
      by_contra hunknown
      have hsaved : name ∉ config.kind.savedNames :=
        fun hmem => hunknown (config.kind.savedNames_subset name hmem)
      rw [lookup_eq_none hsaved] at hvalue
      cases hvalue

theorem Kwargs.AreSaved.arguments (h : kwargs.AreSaved config) :
    kwargs.arguments config.kind = .ok config.savedArguments := by
  have hcommon : ∀ {name : String} {value : PyObject}, (name, value) ∈ config.commonPayload →
      config.saved.lookup name = some value := lookup_of_common
  have hnone : ∀ kind : Kind, "config_root" ∉ kind.savedNames ∧ "dev_mode" ∉ kind.savedNames := by
    intro kind
    cases kind <;> decide
  have hkeystore : kwargs.read "keystore_path" none (orNone path?) =
      .ok (config.keystore.map KeystoreFile.keystorePath) := by
    have hlookup : config.saved.lookup "keystore_path" = some (optionalString
        (config.keystore.map fun keystore => keystore.keystorePath.text)) :=
      hcommon (by simp [CharacterConfiguration.commonPayload])
    refine h.read_some none (by decide) hlookup ?_
    rw [readBack, if_pos (Kind.mem_pathParameters.mpr (by simp))]
    cases config.keystore with
    | none => rfl
    | some keystore => exact path?_castOr keystore.keystorePath
  unfold CharacterConfiguration.commonPayload at hcommon
  rw [Kwargs.arguments, if_pos h.accepted,
    h.read_none none _ (by decide) (lookup_eq_none (hnone config.kind).1),
    h.read_none false _ (by decide) (lookup_eq_none (hnone config.kind).2),
    h.read_plain false (by decide) (.bool config.federatedOnly) (hcommon (by simp)) rfl,
    h.read_plain none (by decide) (optionalString config.checksumAddress) (hcommon (by simp))
      (string?_optionalString _), hkeystore, h.behaviour, h.blockchain, h.payment, h.registries,
    h.own]
  rfl

end Read

/-! ## Loading what was saved -/

theorem GasPrice.str_ne_empty (price : GasPrice) : price.str ≠ "" := by
  intro hempty
  have hparse := price.parse_str
  rw [hempty] at hparse
  cases hparse

/-- The price is read as it was saved. -/
theorem castPrice_saved (config : CharacterConfiguration) :
    castPrice (((config.saved.lookup "max_gas_price").map
      (readBack config.kind "max_gas_price")).getD .none) = .ok config.priceArgument := by
  rw [CharacterConfiguration.priceArgument]
  cases hfederated : config.federatedOnly with
  | true => rw [lookup_of_federated hfederated (by decide)]; rfl
  | false =>
      rcases lookup_of_decentralized hfederated with ⟨-, -, -, -, -, -, hlookup⟩
      have hpath : "max_gas_price" ∉ config.kind.pathParameters := by
        simp [Kind.mem_pathParameters]
      rw [hlookup, Option.map_some, Option.getD_some, readBack, if_neg hpath]
      cases nonzeroPrice config.blockchain.maxGasPrice with
      | none => rfl
      | some price =>
          simp [optionalString, stringifyPath, castPrice, price.str_ne_empty, price.parse_str]

theorem loadNodeStorage_saved {config : CharacterConfiguration} {payload : Payload}
    (h : ∀ name, payload.get? name =
      (config.saved.lookup name).map (readBack config.kind name)) :
    loadNodeStorage payload = .ok .forgetful := by
  have hstorage : payload.get? "node_storage" = some (stringifyPath nodeStoragePayload) := by
    have hlookup : config.saved.lookup "node_storage" = some nodeStoragePayload :=
      lookup_of_common (by simp [CharacterConfiguration.commonPayload])
    rw [h, hlookup, Option.map_some, readBack, if_neg (by simp [Kind.mem_pathParameters])]
  have hfederated : payload.get? "federated_only" = some (.bool config.federatedOnly) := by
    have hlookup : config.saved.lookup "federated_only" = some (.bool config.federatedOnly) :=
      lookup_of_common (by simp [CharacterConfiguration.commonPayload])
    rw [h, hlookup, Option.map_some, readBack, if_neg (by simp [Kind.mem_pathParameters])]
    rfl
  rw [loadNodeStorage, hstorage, hfederated]
  rfl

theorem assemble_saved {config : CharacterConfiguration} {text : String}
    (h : config.serialize = .ok text) {disk : Disk} {filepath : PosixPath}
    (hfile : disk.entries filepath = some (.file (utf8 text))) :
    ∃ kwargs : Kwargs, config.kind.assemble disk filepath Dict.empty = .ok kwargs ∧
      kwargs.AreSaved config := by
  rcases CharacterConfiguration.deserialize_serialize h with ⟨payload, hdeserialize, hpayload⟩
  have hread : config.kind.readConfigurationFile disk filepath = .ok payload := by
    rw [Kind.readConfigurationFile, hfile]
    simp only [decodeUtf8_utf8, Option.elim_some, hdeserialize]
  have hprice : castPrice ((payload.get? "max_gas_price").getD .none) =
      .ok config.priceArgument := by
    rw [hpayload]
    exact castPrice_saved config
  let merged : Kwargs := ((payload.mapValues Argument.object).set "node_storage"
    (.storage .forgetful)).set "max_gas_price" config.priceArgument
  have hmerged : ∀ name, merged.get? name = config.savedArgument name := by
    intro name
    rw [Dict.get?_set, Dict.get?_set, Dict.get?_mapValues, hpayload, Option.map_map,
      CharacterConfiguration.savedArgument]
    rfl
  have hpath : ∀ name ∈ config.kind.pathParameters, ∀ value,
      merged.get? name = some value → Argument.castPath value = .ok (id value) := by
    intro name hname value hvalue
    have hplain : name ≠ "max_gas_price" ∧ name ≠ "node_storage" := by
      constructor <;>
        · rintro rfl
          simp [Kind.mem_pathParameters] at hname
    rw [hmerged, CharacterConfiguration.savedArgument, if_neg hplain.1, if_neg hplain.2] at hvalue
    rcases Option.map_eq_some_iff.mp hvalue with ⟨object, hobject, rfl⟩
    have hmem := CharacterConfiguration.lookup_saved_iff.mp hobject
    rw [Argument.castPath, readBack, if_pos hname, ((config.isSavable _ hmem).2 hname).castPath.2]
    rfl
  rcases castPathsFrom_eq config.kind.pathParameters_nodup hpath with ⟨kwargs, hcast, hget⟩
  have hkwargs : ∀ name, kwargs.get? name = config.savedArgument name := by
    intro name
    rw [hget, hmerged, Option.map_id, id, ite_self]
  have hupdate : ∀ name, (kwargs.update ((Dict.empty : Kwargs).filter Argument.isGiven)).get? name =
      config.savedArgument name := by
    intro name
    rw [Dict.get?_update, Dict.get?_filter, Dict.get?_empty, hkwargs]
    rfl
  have hdb : config.kind = .ursula → ∃ value,
      (kwargs.update ((Dict.empty : Kwargs).filter Argument.isGiven)).get? "db_filepath" =
        some value ∧ Argument.toPath value = .ok value := by
    intro hkind
    rcases config.lookup_dbFilepath hkind with ⟨path, hlookup⟩
    have hmem : "db_filepath" ∈ config.kind.pathParameters :=
      Kind.mem_pathParameters.mpr (by simp [hkind])
    refine ⟨.object (.path path.text), ?_, rfl⟩
    rw [hupdate, CharacterConfiguration.savedArgument, if_neg (by decide), if_neg (by decide),
      hlookup, Option.map_some, readBack_path hmem]
  rcases castDbFilepath_eq hdb with ⟨kwargs', hcast', hget'⟩
  refine ⟨kwargs', ?_, fun name => (hget' name).trans (hupdate name)⟩
  simp only [Kind.assemble, hread, loadNodeStorage_saved hpayload, hprice, bind, Except.bind]
  simp only [merged] at hcast
  simp only [hcast, hcast']

end Configuration

end NuLink
