import NuLinkCore.Config.SavedArguments

/-!
# What survives saving and loading a configuration

A saved configuration is loaded with the fields of its static payload, if the things that are not
saved can be had again.  Its root is not saved.

Main results:

- Theorem {lit}`init_savedArguments`: what a configuration is loaded with.
- Theorem {lit}`restoredFrom_iff`: when a configuration that was saved is restored.
-/

namespace NuLink

namespace Configuration

open Collections Numerals Paths

/-! ## What a configuration is loaded with -/

/-- What a loaded configuration asks for is there: its keystore, and without federation its
connection, its registries and its signer. -/
structure CharacterConfiguration.Reloadable (config : CharacterConfiguration) (env : Environment) :
    Prop where
  keystore : ∀ keystore ∈ config.keystore, (env.keystoreAt keystore.keystorePath).isSome = true
  connection : config.federatedOnly = true ∨ given config.blockchain.ethProviderUri = none ∨
    env.connects config.savedBlockchain = true
  registry : config.federatedOnly = true ∨ config.registryFilepath.isSome = true ∨
    env.published config.behaviour.domain = true
  signer : config.federatedOnly = true ∨
    env.signs config.savedBlockchain.signerUri (config.behaviour.domain ≠ mainnet) = true
  policyRegistry : config.federatedOnly = true ∨ config.kind = .bob ∨
    env.published (config.payment.network.getD "") = true

/-- A price that is loaded is saved as it was. -/
theorem nonzeroPrice_decimal (price : Option GasPrice) :
    (nonzeroPrice ((nonzeroPrice price).map fun price => .decimal price.toDecimal)).map
      GasPrice.str = (nonzeroPrice price).map GasPrice.str := by
  cases hprice : nonzeroPrice price with
  | none => rfl
  | some price =>
      have hnonzero := (Option.filter_eq_some_iff.mp hprice).2
      have hsome : nonzeroPrice (some (.decimal price.toDecimal)) =
          some (.decimal price.toDecimal) := Option.filter_some_pos hnonzero
      rw [Option.map_some, hsome, Option.map_some, Option.map_some, price.str_toDecimal]

section Settled

variable {config : CharacterConfiguration}

/-- What is saved of a blockchain is settled. -/
theorem settledBlockchain_savedArguments (hfederated : config.federatedOnly = false) :
    config.savedArguments.settledBlockchain = config.savedBlockchain := by
  have hsigner : given ((given config.blockchain.ethProviderUri).map
      (given config.blockchain.signerUri).getD) = (given config.blockchain.ethProviderUri).map
        (given config.blockchain.signerUri).getD := by
    cases hprovider : given config.blockchain.ethProviderUri with
    | none => rfl
    | some uri =>
        have huri : uri ≠ "" := of_decide_eq_true (Option.filter_eq_some_iff.mp hprovider).2
        exact given_getD config.blockchain.signerUri huri
  simp only [Arguments.settledBlockchain, Blockchain.settle, CharacterConfiguration.savedArguments,
    CharacterConfiguration.savedBlockchain, hfederated, given_given, hsigner, Bool.false_eq_true,
    if_false]

theorem kind_savedOwn : config.savedOwn.kind = config.kind := by
  rw [CharacterConfiguration.savedOwn, CharacterConfiguration.kind]
  cases config.own <;> rfl

/-- The payments of Alice and Ursula are settled as they were. -/
theorem settledPayment_savedArguments (hvalid : config.Valid) (hbob : config.kind ≠ .bob) :
    config.savedArguments.settledPayment = config.payment := by
  have hsettled := hvalid.payment
  have hpayment : config.savedArguments.payment = config.payment := if_neg hbob
  rw [Arguments.settledPayment, hpayment]
  cases hfederated : config.federatedOnly with
  | true =>
      rw [hfederated] at hsettled
      rw [CharacterConfiguration.savedArguments, hfederated]
      exact hsettled
  | false =>
      rw [settledBlockchain_savedArguments hfederated]
      simp only [CharacterConfiguration.savedArguments, CharacterConfiguration.savedBlockchain,
        hfederated, kind_savedOwn, Bool.false_eq_true, if_false, hvalid.ethProviderUri]
      rw [hfederated] at hsettled
      exact hsettled

theorem nonzeroEntry_nonzero (name : String) (number : Option Int) :
    CharacterConfiguration.nonzeroEntry name (nonzero number) =
      CharacterConfiguration.nonzeroEntry name number := by
  have hnonzero : nonzero (nonzero number) = nonzero number := by
    rw [nonzero, nonzero, Option.filter_filter]
    simp
  rw [CharacterConfiguration.nonzeroEntry, CharacterConfiguration.nonzeroEntry, hnonzero]

/-- The own fields of a loaded configuration save the same. -/
theorem fields_savedOwn (hvalid : config.Valid) (configRoot : PosixPath) :
    ∃ own, config.savedOwn.fields configRoot false = some own ∧
      ∀ config' : CharacterConfiguration, config'.own = own →
        config'.federatedOnly = config.federatedOnly →
        (config.kind ≠ .bob → config'.payment = config.payment) →
          config'.ownPayload = config.ownPayload := by
  have hown := hvalid.own
  rw [CharacterConfiguration.savedOwn, CharacterConfiguration.kind]
  cases hfields : config.own with
  | bob fields =>
      refine ⟨.bob fields, rfl, fun config' hown' _ _ => ?_⟩
      rw [CharacterConfiguration.ownPayload, CharacterConfiguration.ownPayload, hown', hfields]
  | ursula fields =>
      rw [hfields] at hown
      refine ⟨.ursula fields, ?_, fun config' hown' _ hpayment => ?_⟩
      · simp [OwnArguments.fields, UrsulaArguments.address, hown.1, hown.2]
      · rw [CharacterConfiguration.ownPayload, CharacterConfiguration.ownPayload, hown', hfields]
        have hpay : config'.paymentPayload = config.paymentPayload := by
          rw [CharacterConfiguration.paymentPayload, CharacterConfiguration.paymentPayload,
            hpayment (by simp [OwnFields.kind])]
        simp only [hpay]
  | alice fields =>
      rw [hfields] at hown
      refine ⟨_, rfl, fun config' hown' hfederated hpayment => ?_⟩
      rw [CharacterConfiguration.ownPayload, CharacterConfiguration.ownPayload, hown', hfields]
      have hpay : config'.paymentPayload = config.paymentPayload := by
        rw [CharacterConfiguration.paymentPayload, CharacterConfiguration.paymentPayload,
          hpayment (by simp [OwnFields.kind])]
      simp only [hpay, hown.1, hown.2, Option.getD_some, hfederated]
      cases config.federatedOnly with
      | true => rfl
      | false => simp only [Bool.false_eq_true, if_false, nonzeroEntry_nonzero]

/-- The blockchain of a loaded configuration saves the same. -/
theorem modePayload_saved {config' : CharacterConfiguration}
    (hfederated : config'.federatedOnly = config.federatedOnly)
    (hblockchain : config.federatedOnly = false → config'.blockchain = config.savedBlockchain)
    (hregistry : config.federatedOnly = false →
      config'.registryFilepath = config.registryFilepath) :
    config'.modePayload = config.modePayload := by
  rw [CharacterConfiguration.modePayload, CharacterConfiguration.modePayload, hfederated]
  cases hmode : config.federatedOnly with
  | true => rfl
  | false =>
      have hprovider : config'.providerPayload = config.providerPayload := by
        rw [CharacterConfiguration.providerPayload, CharacterConfiguration.providerPayload,
          hblockchain hmode, CharacterConfiguration.savedBlockchain, hmode]
        simp only [Bool.false_eq_true, if_false, given_given]
        cases hgiven : given config.blockchain.ethProviderUri with
        | none => rfl
        | some uri =>
            have huri : uri ≠ "" := of_decide_eq_true (Option.filter_eq_some_iff.mp hgiven).2
            simp [given_getD config.blockchain.signerUri huri]
      have hgas : config'.gasPayload = config.gasPayload := by
        rw [CharacterConfiguration.gasPayload, CharacterConfiguration.gasPayload,
          hblockchain hmode, CharacterConfiguration.savedBlockchain, hmode]
        simp only [Bool.false_eq_true, if_false, nonzeroPrice_decimal]
      rw [CharacterConfiguration.registryPayload, CharacterConfiguration.registryPayload,
        hregistry hmode, hprovider, hgas]

/-- The keystore of a loaded configuration, if it is there. -/
theorem openedKeystore_savedArguments {env : Environment} {keystore : Option KeystoreFile} :
    config.savedArguments.openedKeystore env = .ok keystore →
      keystore.map KeystoreFile.keystorePath = config.keystore.map KeystoreFile.keystorePath := by
  rw [Arguments.openedKeystore, CharacterConfiguration.savedArguments]
  cases config.keystore with
  | none =>
      intro h
      cases h
      rfl
  | some saved =>
      simp only [Option.map_some]
      cases env.keystoreAt saved.keystorePath with
      | none => simp
      | some id =>
          intro h
          cases h
          rfl

theorem isOk_openedKeystore {env : Environment} :
    (∃ keystore, config.savedArguments.openedKeystore env = .ok keystore) ↔
      ∀ keystore ∈ config.keystore, (env.keystoreAt keystore.keystorePath).isSome = true := by
  rw [Arguments.openedKeystore, CharacterConfiguration.savedArguments]
  cases config.keystore with
  | none => simp
  | some saved => cases hkeystore : env.keystoreAt saved.keystorePath <;> simp [hkeystore]

theorem decentralizes_savedArguments (hvalid : config.Valid) (env : Environment)
    (hfederated : config.federatedOnly = false) :
    config.savedArguments.decentralizes env = true ↔
      (given config.blockchain.ethProviderUri = none ∨
        env.connects config.savedBlockchain = true) ∧
      (config.registryFilepath.isSome = true ∨ env.published config.behaviour.domain = true) ∧
      env.signs config.savedBlockchain.signerUri (config.behaviour.domain ≠ mainnet) = true ∧
      (config.kind = .bob ∨ env.published (config.payment.network.getD "") = true) := by
  have hprovider : config.savedBlockchain.ethProviderUri =
      given config.blockchain.ethProviderUri := by
    rw [CharacterConfiguration.savedBlockchain, hfederated]
    rfl
  have hpolicy : (config.kind = .bob ∨
      env.published (config.savedArguments.settledPayment.network.getD "") = true) ↔
        (config.kind = .bob ∨ env.published (config.payment.network.getD "") = true) := by
    by_cases hbob : config.kind = .bob
    · simp [hbob]
    · rw [settledPayment_savedArguments hvalid hbob]
  rw [← hpolicy, Arguments.decentralizes, settledBlockchain_savedArguments hfederated, hprovider]
  simp [CharacterConfiguration.savedArguments, hfederated, kind_savedOwn, and_assoc]

end Settled

/-- Two configurations save the same if what is saved of them is the same. -/
theorem staticPayload_saved {config config' : CharacterConfiguration}
    (hfederated : config'.federatedOnly = config.federatedOnly)
    (haddress : config'.checksumAddress = config.checksumAddress)
    (hbehaviour : config'.behaviour = config.behaviour)
    (hkeystore : config'.keystore.map KeystoreFile.keystorePath =
      config.keystore.map KeystoreFile.keystorePath)
    (hblockchain : config.federatedOnly = false → config'.blockchain = config.savedBlockchain)
    (hregistry : config.federatedOnly = false →
      config'.registryFilepath = config.registryFilepath)
    (hown : config'.ownPayload = config.ownPayload) :
    config'.staticPayload = config.staticPayload := by
  have htext : (config'.keystore.map fun keystore => keystore.keystorePath.text) =
      config.keystore.map fun keystore => keystore.keystorePath.text := by
    have hmap := congrArg (Option.map PosixPath.text) hkeystore
    rw [Option.map_map, Option.map_map] at hmap
    exact hmap
  have hcommon : config'.commonPayload = config.commonPayload := by
    rw [CharacterConfiguration.commonPayload, CharacterConfiguration.commonPayload, hfederated,
      haddress, hbehaviour, htext]
  rw [CharacterConfiguration.staticPayload, CharacterConfiguration.staticPayload,
    CharacterConfiguration.characterPayload, CharacterConfiguration.characterPayload, hcommon,
    modePayload_saved hfederated hblockchain hregistry, hown]

/-- When the arguments that were saved are accepted. -/
theorem reloadable_iff {config : CharacterConfiguration} (hvalid : config.Valid)
    (env : Environment) :
    config.Reloadable env ↔ (∃ keystore, config.savedArguments.openedKeystore env = .ok keystore) ∧
      (config.federatedOnly = true ∨ config.savedArguments.decentralizes env = true) := by
  rw [isOk_openedKeystore]
  cases hfederated : config.federatedOnly with
  | true =>
      constructor
      · exact fun h => ⟨h.keystore, .inl rfl⟩
      · exact fun h => ⟨h.1, .inl hfederated, .inl hfederated, .inl hfederated, .inl hfederated⟩
  | false =>
      rw [decentralizes_savedArguments hvalid env hfederated]
      constructor
      · intro h
        refine ⟨h.keystore, .inr ⟨?_, ?_, ?_, ?_⟩⟩
        · simpa [hfederated] using h.connection
        · simpa [hfederated] using h.registry
        · simpa [hfederated] using h.signer
        · simpa [hfederated] using h.policyRegistry
      · rintro ⟨hkeystore, habsurd | ⟨hconnection, hregistry, hsigner, hpolicy⟩⟩
        · cases habsurd
        · exact ⟨hkeystore, .inr hconnection, .inr hregistry, .inr hsigner, .inr hpolicy⟩

/-- A configuration is loaded exactly if what it asks for is there, and then it saves what was
saved. -/
theorem init_savedArguments {config : CharacterConfiguration} (hvalid : config.Valid)
    (env : Environment) :
    (config.Reloadable env → ∃ config', config.savedArguments.init env = .ok config') ∧
      ∀ config', config.savedArguments.init env = .ok config' →
        config.Reloadable env ∧ config'.configRoot = env.defaultConfigRoot ∧
          config'.staticPayload = config.staticPayload := by
  rcases fields_savedOwn hvalid env.defaultConfigRoot with ⟨own, hfields, hown⟩
  constructor
  · intro h
    rcases (reloadable_iff hvalid env).mp h with ⟨⟨keystore, hkeystore⟩, hmode⟩
    exact ⟨_, (Arguments.init_eq_ok_iff _).mpr
      ⟨own, keystore, hfields, hkeystore, rfl, hmode, rfl⟩⟩
  · intro config' hinit
    rcases (Arguments.init_eq_ok_iff _).mp hinit with
      ⟨own', keystore, hfields', hkeystore, -, hmode, rfl⟩
    refine ⟨(reloadable_iff hvalid env).mpr ⟨⟨keystore, hkeystore⟩, hmode⟩, rfl, ?_⟩
    cases hfields.symm.trans hfields'
    refine staticPayload_saved rfl rfl rfl (openedKeystore_savedArguments hkeystore) ?_ ?_
      (hown _ rfl rfl (settledPayment_savedArguments hvalid))
    · exact settledBlockchain_savedArguments
    · intro hfederated
      simp [Arguments.settledRegistryFilepath, CharacterConfiguration.savedArguments, hfederated]

/-! ## Saving and loading -/

theorem writeConfigurationFile_eq_ok {config : CharacterConfiguration} {disk disk' : Disk}
    {filepath path : PosixPath} {override : Bool}
    (h : config.writeConfigurationFile disk filepath override = (.ok path, disk')) :
    ∃ text, config.serialize = .ok text ∧ disk'.entries path = some (.file (utf8 text)) := by
  unfold CharacterConfiguration.writeConfigurationFile at h
  split_ifs at h
  · cases h
  · cases h
  · cases hserialize : config.serialize with
    | error e =>
        rw [hserialize] at h
        cases h
    | ok text =>
        rw [hserialize] at h
        cases h
        exact ⟨text, rfl, by simp [Disk.set]⟩

/-- A configuration whose file is written is in it. -/
theorem toConfigurationFile_eq_ok {config : CharacterConfiguration} {disk disk' : Disk}
    {filepath : Option PosixPath} {modifier : Option String} {override : Bool} {path : PosixPath}
    (h : config.toConfigurationFile disk filepath modifier override = (.ok path, disk')) :
    ∃ text, config.serialize = .ok text ∧ disk'.entries path = some (.file (utf8 text)) := by
  unfold CharacterConfiguration.toConfigurationFile at h
  cases hpath : config.generateFilepath disk filepath modifier override with
  | error e =>
      rw [hpath] at h
      cases h
  | ok filepath =>
      rw [hpath] at h
      cases hroot : config.ensureConfigRootExists disk with
      | mk result disk =>
          simp only [hroot] at h
          cases result with
          | error e => cases h
          | ok => exact writeConfigurationFile_eq_ok h

/-- Loading a file gives a configuration with the root and the static payload of another one. -/
def CharacterConfiguration.RestoredFrom (config : CharacterConfiguration) (env : Environment)
    (disk : Disk) (filepath : PosixPath) : Prop :=
  ∃ config', config.kind.fromConfigurationFile env disk (some filepath) Dict.empty = .ok config' ∧
    config'.configRoot = config.configRoot ∧
    ∀ name, config'.staticPayload.get? name = config.staticPayload.get? name

/-- What a configuration is loaded with, if it is in a file. -/
theorem fromConfigurationFile_saved {config : CharacterConfiguration} {text : String}
    (h : config.serialize = .ok text) {disk : Disk} {filepath : PosixPath}
    (hfile : disk.entries filepath = some (.file (utf8 text))) (env : Environment) :
    config.kind.fromConfigurationFile env disk (some filepath) Dict.empty =
      config.savedArguments.init env := by
  rcases assemble_saved h hfile with ⟨kwargs, hassemble, hsaved⟩
  simp only [Kind.fromConfigurationFile, Option.getD_some, hassemble, hsaved.arguments, bind,
    Except.bind]

/-- The root of a configuration is the default one after it was loaded. -/
theorem restoredFrom_saved {config : CharacterConfiguration} (hvalid : config.Valid)
    {text : String} (h : config.serialize = .ok text) {disk : Disk} {filepath : PosixPath}
    (hfile : disk.entries filepath = some (.file (utf8 text))) (env : Environment) :
    config.RestoredFrom env disk filepath ↔
      config.configRoot = env.defaultConfigRoot ∧ config.Reloadable env := by
  rcases init_savedArguments hvalid env with ⟨hload, hloaded⟩
  rw [CharacterConfiguration.RestoredFrom, fromConfigurationFile_saved h hfile env]
  constructor
  · rintro ⟨config', hinit, hroot, -⟩
    rcases hloaded config' hinit with ⟨hreloadable, hdefault, -⟩
    exact ⟨hroot.symm.trans hdefault, hreloadable⟩
  · rintro ⟨hroot, hreloadable⟩
    rcases hload hreloadable with ⟨config', hinit⟩
    rcases hloaded config' hinit with ⟨-, hdefault, hpayload⟩
    exact ⟨config', hinit, hdefault.trans hroot.symm, fun name => by rw [hpayload]⟩

/-- A configuration that was constructed and saved is restored exactly if its root is the default
one and what it asks for besides the file is there. -/
theorem restoredFrom_iff {env env' : Environment} {config : CharacterConfiguration}
    (hconstructed : Constructed env config) {disk disk' : Disk} {filepath : Option PosixPath}
    {modifier : Option String} {override : Bool} {path : PosixPath}
    (hwritten : config.toConfigurationFile disk filepath modifier override = (.ok path, disk')) :
    config.RestoredFrom env' disk' path ↔
      config.configRoot = env'.defaultConfigRoot ∧ config.Reloadable env' := by
  rcases toConfigurationFile_eq_ok hwritten with ⟨text, hserialize, hfile⟩
  exact restoredFrom_saved hconstructed.valid hserialize hfile env'

/-! ## Alice in a directory of her own -/

def freeDisk : Disk := ⟨fun _ => none, fun _ => true, fun _ => true⟩

def sampleEnvironment : Environment where
  defaultConfigRoot := PosixPath.ofString "/root/.local/share/nulink"
  temporaryDirectory := PosixPath.ofString "/tmp/tmp-nulink"
  keystoreAt := fun _ => none
  connects := fun _ => false
  published := fun _ => false
  signs := fun _ _ => false

/-- Alice without a blockchain in some directory. -/
def federatedAlice (configRoot : PosixPath) : CharacterConfiguration where
  configRoot := configRoot
  federatedOnly := true
  checksumAddress := none
  keystore := none
  behaviour := {}
  blockchain := { poa := some false, gasStrategy := .none }
  registryFilepath := none
  payment := { method := some "Free" }
  own := .alice
    { threshold := 2, shares := 3, rate := none, duration := none, storePolicies := true
      storeCards := true }

theorem federatedAlice_constructed (configRoot : PosixPath) :
    Constructed sampleEnvironment (federatedAlice configRoot) := by
  let args : Arguments :=
    { configRoot := some configRoot, federatedOnly := true, own := .alice {} }
  have hinit : args.init sampleEnvironment = .ok (federatedAlice configRoot) := rfl
  exact .init hinit

theorem federatedAlice_written (configRoot : PosixPath) :
    ∃ path disk, (federatedAlice configRoot).toConfigurationFile freeDisk none none false =
      (.ok path, disk) := by
  have hname : Kind.alice.generateFilename none = "alice.json" := by decide
  have hfile : configRoot.join "alice.json".toList ≠ configRoot := by
    intro heq
    have hparts : configRoot.parts ++ ["alice.json".toList] = configRoot.parts :=
      congrArg PosixPath.parts heq
    exact List.cons_ne_nil _ _ (List.append_right_eq_self.mp hparts)
  have hpath : (federatedAlice configRoot).generateFilepath freeDisk none none false =
      .ok (configRoot.join "alice.json".toList) := by
    rw [← hname]
    simp [CharacterConfiguration.generateFilepath, CharacterConfiguration.modifier, federatedAlice,
      given, freeDisk, CharacterConfiguration.kind, OwnFields.kind]
  generalize configRoot.join "alice.json".toList = path at hfile hpath
  have hroot : (federatedAlice configRoot).ensureConfigRootExists freeDisk =
      (.ok (), freeDisk.set configRoot .other) := rfl
  have hfree : (freeDisk.set configRoot .other).entries path = none :=
    Function.update_of_ne hfile _ _
  have hopens : (freeDisk.set configRoot .other).opens path = true := rfl
  rcases (federatedAlice configRoot).serialize_eq_ok_iff.mpr (.inl rfl) with ⟨text, htext⟩
  refine ⟨path, (freeDisk.set configRoot .other).set path (.file (utf8 text)), ?_⟩
  rw [CharacterConfiguration.toConfigurationFile, hpath]
  simp only [hroot]
  rw [CharacterConfiguration.writeConfigurationFile, hfree, hopens, htext]
  rfl

theorem federatedAlice_reloadable (configRoot : PosixPath) :
    (federatedAlice configRoot).Reloadable sampleEnvironment where
  keystore := fun keystore hkeystore => by cases hkeystore
  connection := .inl rfl
  registry := .inl rfl
  signer := .inl rfl
  policyRegistry := .inl rfl

/-- In the default directory Alice is restored. -/
theorem restoredFrom_iff_federatedAlice :
    ∃ path disk, (federatedAlice sampleEnvironment.defaultConfigRoot).RestoredFrom
      sampleEnvironment disk path := by
  rcases federatedAlice_written sampleEnvironment.defaultConfigRoot with ⟨path, disk, hwritten⟩
  exact ⟨path, disk, (restoredFrom_iff (federatedAlice_constructed _) hwritten).mpr
    ⟨rfl, federatedAlice_reloadable _⟩⟩

/-- In another directory she is loaded with the default one. -/
theorem config_root_not_restored :
    ∃ path disk, Constructed sampleEnvironment (federatedAlice (PosixPath.ofString "/tmp/alice")) ∧
      (federatedAlice (PosixPath.ofString "/tmp/alice")).toConfigurationFile freeDisk none none
        false = (.ok path, disk) ∧
      ¬ (federatedAlice (PosixPath.ofString "/tmp/alice")).RestoredFrom sampleEnvironment disk
        path := by
  rcases federatedAlice_written (PosixPath.ofString "/tmp/alice") with ⟨path, disk, hwritten⟩
  rcases toConfigurationFile_eq_ok hwritten with ⟨text, hserialize, hfile⟩
  have hconstructed := federatedAlice_constructed (PosixPath.ofString "/tmp/alice")
  refine ⟨path, disk, hconstructed, hwritten, ?_⟩
  rw [restoredFrom_saved hconstructed.valid hserialize hfile]
  rintro ⟨hroot, -⟩
  exact absurd hroot (by decide)

end Configuration

end NuLink
