import NuLinkCore.Config.Base
import NuLinkCore.Lib.Decimal
import NuLinkCore.Lib.PosixPath

/-!
# Configurations of characters

Alice, Bob and Ursula are configured by the arguments of their constructors, most of which are
optional.  A federated configuration drops what concerns a blockchain, and another one opens a
connection and fetches the registries that it is not given.

What is saved of a configuration is its static payload, to which each of the three adds fields.

Main results:

- Theorem {lit}`Arguments.init_eq_ok_iff`: when a constructor returns, and with what.
- Theorem {lit}`Constructed.valid`: what holds of a configuration after it was constructed.
-/

namespace NuLink

namespace Configuration

open Collections Numerals Paths

/-! ## Arguments -/

/-- {lit}`text or None`. -/
def given (text : Option String) : Option String := text.filter (· ≠ "")

/-- {lit}`number or None`. -/
def nonzero (number : Option Int) : Option Int := number.filter (· ≠ 0)

structure KeystoreFile where
  keystorePath : PosixPath
  id : String

inductive GasStrategy where
  | none
  | name (strategy : String)
  | callable (function : String)
deriving DecidableEq, Repr

def GasStrategy.isGiven : GasStrategy → Bool
  | .none => false
  | .name strategy => strategy ≠ ""
  | .callable _ => true

/-- A price in gwei. -/
inductive GasPrice where
  | int (price : Int)
  | decimal (price : Decimal)
deriving DecidableEq, Repr

def GasPrice.toDecimal : GasPrice → Decimal
  | .int price => .ofInt price
  | .decimal price => price

/-- {lit}`price or None`. -/
def nonzeroPrice (price : Option GasPrice) : Option GasPrice :=
  price.filter fun price => price.toDecimal.coefficient ≠ 0

/-- {lit}`str(price)`. -/
def GasPrice.str : GasPrice → String
  | .int price => printInt price
  | .decimal price => String.ofList price.str

/-- What is handed to a character as it is. -/
structure Behaviour where
  domain : String := "mainnet"
  learnOnSameThread : Bool := false
  abortOnLearningError : Bool := false
  startLearningNow : Bool := true
  saveMetadata : Bool := true
  lonely : Bool := false

structure Blockchain where
  poa : Option Bool := none
  light : Bool := false
  ethProviderUri : Option String := none
  gasStrategy : GasStrategy := .name "fast"
  maxGasPrice : Option GasPrice := none
  signerUri : Option String := none

structure Payment where
  method : Option String := none
  provider : Option String := none
  network : Option String := none

structure Registries where
  /-- A registry and the file it is in, if it is in one. -/
  registry : Option (Option PosixPath) := none
  registryFilepath : Option PosixPath := none
  /-- Whether a registry for the payments is given. -/
  policyRegistry : Bool := false
  policyRegistryFilepath : Option PosixPath := none

structure UrsulaArguments where
  restHost : Option String := none
  operatorAddress : Option String := none
  dbFilepath : Option PosixPath := none
  restPort : Option Int := none
  availabilityCheck : Option Bool := none

structure AliceArguments where
  threshold : Option Int := none
  shares : Option Int := none
  rate : Option Int := none
  duration : Option Int := none
  storePolicies : Bool := true
  storeCards : Bool := true

structure BobArguments where
  storePolicies : Bool := true
  storeCards : Bool := true

/-- The arguments that only one of the characters has. -/
inductive OwnArguments where
  | ursula (arguments : UrsulaArguments)
  | alice (arguments : AliceArguments)
  | bob (arguments : BobArguments)

/-- The arguments of a configuration. -/
structure Arguments where
  configRoot : Option PosixPath := none
  devMode : Bool := false
  federatedOnly : Bool := false
  checksumAddress : Option String := none
  keystore : Option KeystoreFile := none
  keystorePath : Option PosixPath := none
  behaviour : Behaviour := {}
  blockchain : Blockchain := {}
  payment : Payment := {}
  registries : Registries := {}
  own : OwnArguments

/-! ## Configurations -/

inductive Kind where
  | ursula
  | alice
  | bob
deriving DecidableEq, Repr

/-- {lit}`NAME`. -/
def Kind.name : Kind → String
  | .ursula => "ursula"
  | .alice => "alice"
  | .bob => "bob"

structure UrsulaFields where
  restHost : String
  operatorAddress : Option String
  dbFilepath : PosixPath
  restPort : Int
  availabilityCheck : Bool

structure AliceFields where
  threshold : Int
  shares : Int
  rate : Option Int
  duration : Option Int
  storePolicies : Bool
  storeCards : Bool

/-- The fields that only one of the characters has. -/
inductive OwnFields where
  | ursula (fields : UrsulaFields)
  | alice (fields : AliceFields)
  | bob (fields : BobArguments)

def OwnFields.kind : OwnFields → Kind
  | .ursula _ => .ursula
  | .alice _ => .alice
  | .bob _ => .bob

/-- {lit}`CharacterConfiguration`.  The constants for what is not there are {lit}`none`. -/
structure CharacterConfiguration where
  configRoot : PosixPath
  federatedOnly : Bool
  checksumAddress : Option String
  keystore : Option KeystoreFile
  behaviour : Behaviour
  blockchain : Blockchain
  registryFilepath : Option PosixPath
  payment : Payment
  own : OwnFields

def CharacterConfiguration.kind (config : CharacterConfiguration) : Kind := config.own.kind

/-- What a constructor depends on besides its arguments. -/
structure Environment where
  /-- {lit}`DEFAULT_CONFIG_ROOT`. -/
  defaultConfigRoot : PosixPath
  temporaryDirectory : PosixPath
  /-- The identifier of the keystore at a path, if there is one. -/
  keystoreAt : PosixPath → Option String
  /-- There is a connection, or one is made. -/
  connects : Blockchain → Bool
  /-- A registry is fetched for a network. -/
  published : String → Bool
  /-- A signer is made, for a test network or not. -/
  signs : Option String → Bool → Bool

def defaultFederatedPaymentMethod : String := "Free"

def defaultPaymentMethod : String := "SubscriptionManager"

def defaultPaymentNetwork : String := "bsc_testnet"

def mainnet : String := "mainnet"

/-! ## Construction -/

def OwnArguments.kind : OwnArguments → Kind
  | .ursula _ => .ursula
  | .alice _ => .alice
  | .bob _ => .bob

/-- The first lines of {lit}`UrsulaConfiguration.__init__`: the host and the port. -/
def UrsulaArguments.address (args : UrsulaArguments) (devMode : Bool) : Option (String × Int) :=
  if devMode then
    some ((given args.restHost).getD "127.0.0.1", (nonzero args.restPort).getD 10151)
  else (given args.restHost).map fun host => (host, (nonzero args.restPort).getD 9151)

/-- The own fields, or {lit}`none` for a live worker without a host. -/
def OwnArguments.fields (configRoot : PosixPath) (devMode : Bool) : OwnArguments → Option OwnFields
  | .ursula args => (args.address devMode).map fun address => .ursula
      { restHost := address.1
        operatorAddress := args.operatorAddress
        dbFilepath := args.dbFilepath.getD (configRoot.join "ursula.db".toList)
        restPort := address.2
        availabilityCheck := args.availabilityCheck.getD false }
  | .alice args => some (.alice
      { threshold := (nonzero args.threshold).getD 2
        shares := (nonzero args.shares).getD 3
        rate := args.rate
        duration := args.duration
        storePolicies := args.storePolicies
        storeCards := args.storeCards })
  | .bob args => some (.bob args)

/-- The fields that concern the blockchain. -/
def Blockchain.settle (blockchain : Blockchain) (federatedOnly incompatible : Bool) : Blockchain :=
  let settled : Blockchain :=
    { blockchain with
      ethProviderUri := given blockchain.ethProviderUri
      signerUri := given blockchain.signerUri }
  if federatedOnly then
    if incompatible then
      { poa := some false, light := false, ethProviderUri := none, gasStrategy := .none
        maxGasPrice := none, signerUri := settled.signerUri }
    else { settled with gasStrategy := .none, maxGasPrice := none }
  else settled

/-- The fields that concern payments.  Bob has none if he is not federated. -/
def Payment.settle (payment : Payment) (federatedOnly : Bool) (kind : Kind)
    (ethProviderUri : Option String) : Payment :=
  if federatedOnly then
    { payment with method := some ((given payment.method).getD defaultFederatedPaymentMethod) }
  else if kind = .bob then {}
  else
    { method := some ((given payment.method).getD defaultPaymentMethod)
      network := some ((given payment.network).getD defaultPaymentNetwork)
      provider := (given payment.provider).or ethProviderUri }

namespace Arguments

variable (args : Arguments)

/-- Whether an argument is given that a federated configuration has no use for. -/
def hasBlockchainArguments : Bool :=
  args.registries.registryFilepath.isSome || args.blockchain.poa == some true ||
    (given args.blockchain.ethProviderUri).isSome || (given args.payment.provider).isSome ||
    args.blockchain.gasStrategy.isGiven || (nonzeroPrice args.blockchain.maxGasPrice).isSome

def settledBlockchain : Blockchain :=
  args.blockchain.settle args.federatedOnly args.hasBlockchainArguments

def settledRegistryFilepath : Option PosixPath :=
  if args.federatedOnly && args.hasBlockchainArguments then none
  else args.registries.registryFilepath

def settledPayment : Payment :=
  args.payment.settle args.federatedOnly args.own.kind args.settledBlockchain.ethProviderUri

/-- The keystore that is given or is at the path that is given. -/
def openedKeystore (env : Environment) : Except Error (Option KeystoreFile) :=
  match args.keystore, args.keystorePath with
  | some keystore, _ => .ok (some keystore)
  | none, some path =>
      (env.keystoreAt path).elim (.error .other) fun id => .ok (some ⟨path, id⟩)
  | none, none => .ok none

/-- What is wrong with the registries that are given. -/
def registryConflict : Option Error :=
  match args.registries.registry, args.registries.registryFilepath with
  | some (some file), some path => if file = path then none else some .valueError
  -- The registry in memory has a string for its path.
  | some none, some _ => some .attributeError
  | _, _ => none

/-- Whether the connection, the registries and the signer are there that a configuration with a
blockchain asks for. -/
def decentralizes (env : Environment) : Bool :=
  (args.settledBlockchain.ethProviderUri.isNone || env.connects args.settledBlockchain) &&
    (args.registries.registry.isSome || args.registries.registryFilepath.isSome ||
      env.published args.behaviour.domain) &&
    env.signs args.settledBlockchain.signerUri (args.behaviour.domain ≠ mainnet) &&
    (args.own.kind == .bob || args.registries.policyRegistry ||
      args.registries.policyRegistryFilepath.isSome ||
      env.published (args.settledPayment.network.getD ""))

def settledConfigRoot (env : Environment) : PosixPath :=
  if args.devMode then env.temporaryDirectory else args.configRoot.getD env.defaultConfigRoot

/-- The constructor of the configuration of a character. -/
def init (env : Environment) : Except Error CharacterConfiguration :=
  match args.own.fields (args.settledConfigRoot env) args.devMode with
  | none => .error .valueError
  | some own =>
      match args.openedKeystore env, args.registryConflict with
      | .error e, _ => .error e
      | _, some e => .error e
      | .ok keystore, none =>
          if !args.federatedOnly && !args.decentralizes env then .error .other
          else .ok
            { configRoot := args.settledConfigRoot env
              federatedOnly := args.federatedOnly
              checksumAddress := args.checksumAddress
              keystore := keystore
              behaviour := args.behaviour
              blockchain := args.settledBlockchain
              registryFilepath := args.settledRegistryFilepath
              payment := args.settledPayment
              own := own }

end Arguments

/-! ## The static payload -/

def optionalString (text : Option String) : PyObject := text.elim .none .str

def optionalBool (b : Option Bool) : PyObject := b.elim .none .bool

def GasStrategy.toObject : GasStrategy → PyObject
  | .none => .none
  | .name strategy => .str strategy
  | .callable function => .other function

/-- {lit}`ForgetfulNodeStorage.payload`: whatever storage is given, the nodes are kept in
memory. -/
def nodeStoragePayload : PyObject := .dict [("storage_type", .str ":memory:")]

namespace CharacterConfiguration

variable (config : CharacterConfiguration)

/-- What is saved of every configuration. -/
def commonPayload : List (String × PyObject) :=
  [("federated_only", .bool config.federatedOnly),
    ("checksum_address", optionalString config.checksumAddress),
    ("keystore_path", optionalString (config.keystore.map fun keystore =>
      keystore.keystorePath.text)),
    ("domain", .str config.behaviour.domain),
    ("learn_on_same_thread", .bool config.behaviour.learnOnSameThread),
    ("abort_on_learning_error", .bool config.behaviour.abortOnLearningError),
    ("start_learning_now", .bool config.behaviour.startLearningNow),
    ("save_metadata", .bool config.behaviour.saveMetadata),
    ("node_storage", nodeStoragePayload),
    ("lonely", .bool config.behaviour.lonely)]

/-- What is saved of a connection.  The provider is the signer if there is none. -/
def providerPayload : List (String × PyObject) :=
  match given config.blockchain.ethProviderUri with
  | none => []
  | some uri =>
      [("eth_provider_uri", .str uri),
        ("poa", optionalBool config.blockchain.poa),
        ("light", .bool config.blockchain.light),
        ("signer_uri", .str ((given config.blockchain.signerUri).getD uri))]

def registryPayload : List (String × PyObject) :=
  match config.registryFilepath with
  | none => []
  | some path => [("registry_filepath", .path path.text)]

def gasPayload : List (String × PyObject) :=
  [("gas_strategy", config.blockchain.gasStrategy.toObject),
    ("max_gas_price", optionalString ((nonzeroPrice config.blockchain.maxGasPrice).map
      GasPrice.str))]

def modePayload : List (String × PyObject) :=
  if config.federatedOnly then []
  else config.providerPayload ++ config.registryPayload ++ config.gasPayload

/-- {lit}`BaseConfiguration.static_payload`. -/
def basePayload : Payload := Dict.ofList [("config_root", .path config.configRoot.text)]

/-- {lit}`CharacterConfiguration.static_payload`: the payload and the base payload that it is
merged into.  Only the payload is returned. -/
def characterPayload : Payload × Payload :=
  let payload : Payload := Dict.ofList (config.commonPayload ++ config.modePayload)
  (payload, config.basePayload.update payload)

def paymentPayload : List (String × PyObject) :=
  [("payment_method", optionalString config.payment.method),
    ("payment_provider", optionalString config.payment.provider),
    ("payment_network", optionalString config.payment.network)]

/-- An entry for a number that is not zero. -/
def nonzeroEntry (name : String) (number : Option Int) : List (String × PyObject) :=
  (nonzero number).elim [] fun number => [(name, .int number)]

/-- What is saved of one of the characters only. -/
def ownPayload : List (String × PyObject) :=
  match config.own with
  | .ursula fields =>
      [("operator_address", optionalString fields.operatorAddress),
        ("rest_host", .str fields.restHost),
        ("rest_port", .int fields.restPort),
        ("db_filepath", .path fields.dbFilepath.text),
        ("availability_check", .bool fields.availabilityCheck)] ++ config.paymentPayload
  | .alice fields =>
      [("threshold", .int fields.threshold),
        ("shares", .int fields.shares),
        ("store_policies", .bool fields.storePolicies),
        ("store_cards", .bool fields.storeCards)] ++ config.paymentPayload.reverse ++
        if config.federatedOnly then []
        else nonzeroEntry "rate" fields.rate ++ nonzeroEntry "duration" fields.duration
  | .bob fields =>
      [("store_policies", .bool fields.storePolicies), ("store_cards", .bool fields.storeCards)]

/-- {lit}`static_payload`. -/
def staticPayload : Payload :=
  config.characterPayload.1.update (Dict.ofList config.ownPayload)

/-- What {lit}`static_payload` does to the configuration. -/
def exportSigner : CharacterConfiguration :=
  if config.federatedOnly then config
  else
    { config with
      blockchain :=
        { config.blockchain with
          signerUri := (given config.blockchain.signerUri).or
            (given config.blockchain.ethProviderUri) } }

def attachKeystore (keystore : KeystoreFile) : CharacterConfiguration :=
  { config with keystore := some keystore }

end CharacterConfiguration

/-- The configurations that a constructor makes, those with another keystore and those whose
payload was exported. -/
inductive Constructed (env : Environment) : CharacterConfiguration → Prop where
  | init {args : Arguments} {config : CharacterConfiguration} (h : args.init env = .ok config) :
      Constructed env config
  | attachKeystore {config : CharacterConfiguration} (h : Constructed env config)
      (keystore : KeystoreFile) : Constructed env (config.attachKeystore keystore)
  | exportSigner {config : CharacterConfiguration} (h : Constructed env config) :
      Constructed env config.exportSigner

/-! ## What a constructor makes of its arguments -/

/-- A value with a default that passes the test passes it. -/
theorem filter_getD {α : Type} {p : α → Bool} (value : Option α) {default : α}
    (h : p default = true) :
    (some ((value.filter p).getD default)).filter p = some ((value.filter p).getD default) := by
  have hpass : p ((value.filter p).getD default) = true := by
    cases hfilter : value.filter p with
    | none => exact h
    | some a => exact (Option.filter_eq_some_iff.mp hfilter).2
  rw [Option.filter_some, if_pos hpass]

theorem given_given (text : Option String) : given (given text) = given text := by
  rw [given, given, Option.filter_filter]
  simp

theorem given_getD (text : Option String) {default : String} (h : default ≠ "") :
    given (some ((given text).getD default)) = some ((given text).getD default) :=
  filter_getD text (decide_eq_true h)

theorem nonzero_getD (number : Option Int) {default : Int} (h : default ≠ 0) :
    nonzero (some ((nonzero number).getD default)) = some ((nonzero number).getD default) :=
  filter_getD number (decide_eq_true h)

/-- Payments that are settled stay as they are. -/
theorem Payment.settle_settle (payment : Payment) (federatedOnly : Bool) (kind : Kind)
    {ethProviderUri : Option String} (h : given ethProviderUri = ethProviderUri) :
    (payment.settle federatedOnly kind ethProviderUri).settle federatedOnly kind ethProviderUri =
      payment.settle federatedOnly kind ethProviderUri := by
  have hprovider : (given ((given payment.provider).or ethProviderUri)).or ethProviderUri =
      (given payment.provider).or ethProviderUri := by
    cases hgiven : given payment.provider with
    | none => rw [Option.none_or, h, Option.or_self]
    | some provider =>
        rw [Option.some_or, ← hgiven, given_given, hgiven, Option.some_or]
  unfold Payment.settle
  by_cases hfederated : federatedOnly = true
  · rw [if_pos hfederated, if_pos hfederated, given_getD payment.method (by decide)]
    rfl
  · by_cases hbob : kind = .bob
    · rw [if_neg hfederated, if_neg hfederated, if_pos hbob, if_pos hbob]
    · rw [if_neg hfederated, if_neg hfederated, if_neg hbob, if_neg hbob,
        given_getD payment.method (by decide), given_getD payment.network (by decide), hprovider]
      rfl

/-- The own fields that a constructor sets are neither empty nor zero. -/
def OwnFields.Valid : OwnFields → Prop
  | .ursula fields => given (some fields.restHost) = some fields.restHost ∧
      nonzero (some fields.restPort) = some fields.restPort
  | .alice fields => nonzero (some fields.threshold) = some fields.threshold ∧
      nonzero (some fields.shares) = some fields.shares
  | .bob _ => True

/-- What holds of a configuration after it was constructed. -/
structure CharacterConfiguration.Valid (config : CharacterConfiguration) : Prop where
  ethProviderUri : given config.blockchain.ethProviderUri = config.blockchain.ethProviderUri
  payment : config.payment.settle config.federatedOnly config.kind
    config.blockchain.ethProviderUri = config.payment
  own : config.own.Valid

theorem Blockchain.given_settle (blockchain : Blockchain) (federatedOnly incompatible : Bool) :
    given (blockchain.settle federatedOnly incompatible).ethProviderUri =
      (blockchain.settle federatedOnly incompatible).ethProviderUri := by
  cases federatedOnly with
  | false => exact given_given blockchain.ethProviderUri
  | true =>
      cases incompatible with
      | false => exact given_given blockchain.ethProviderUri
      | true => rfl

theorem OwnArguments.fields_valid {configRoot : PosixPath} {devMode : Bool} {args : OwnArguments}
    {own : OwnFields} (h : args.fields configRoot devMode = some own) :
    own.Valid ∧ own.kind = args.kind := by
  cases args with
  | bob args =>
      cases h
      exact ⟨trivial, rfl⟩
  | alice args =>
      cases h
      exact ⟨⟨nonzero_getD args.threshold (by decide), nonzero_getD args.shares (by decide)⟩, rfl⟩
  | ursula args =>
      rcases Option.map_eq_some_iff.mp h with ⟨address, haddress, rfl⟩
      refine ⟨?_, rfl⟩
      cases devMode with
      | true =>
          cases haddress
          exact ⟨given_getD args.restHost (by decide), nonzero_getD args.restPort (by decide)⟩
      | false =>
          rcases Option.map_eq_some_iff.mp haddress with ⟨host, hhost, rfl⟩
          refine ⟨?_, nonzero_getD args.restPort (by decide)⟩
          exact (congrArg given hhost).symm.trans ((given_given args.restHost).trans hhost)

/-- When a constructor returns, and with what. -/
theorem Arguments.init_eq_ok_iff (args : Arguments) {env : Environment}
    {config : CharacterConfiguration} :
    args.init env = .ok config ↔ ∃ own keystore,
      args.own.fields (args.settledConfigRoot env) args.devMode = some own ∧
        args.openedKeystore env = .ok keystore ∧ args.registryConflict = none ∧
        (args.federatedOnly = true ∨ args.decentralizes env = true) ∧
        config =
          { configRoot := args.settledConfigRoot env
            federatedOnly := args.federatedOnly
            checksumAddress := args.checksumAddress
            keystore := keystore
            behaviour := args.behaviour
            blockchain := args.settledBlockchain
            registryFilepath := args.settledRegistryFilepath
            payment := args.settledPayment
            own := own } := by
  unfold Arguments.init
  cases args.own.fields (args.settledConfigRoot env) args.devMode with
  | none => simp
  | some own =>
      cases args.openedKeystore env with
      | error e => simp
      | ok keystore =>
          cases args.registryConflict with
          | some e => simp
          | none =>
              cases args.federatedOnly <;> cases args.decentralizes env <;>
                simp [eq_comm]

theorem Arguments.init_valid {args : Arguments} {env : Environment}
    {config : CharacterConfiguration} (h : args.init env = .ok config) : config.Valid := by
  rcases args.init_eq_ok_iff.mp h with ⟨own, keystore, hown, -, -, -, rfl⟩
  have hprovider := args.blockchain.given_settle args.federatedOnly args.hasBlockchainArguments
  rcases OwnArguments.fields_valid hown with ⟨hvalid, hkind⟩
  refine ⟨hprovider, ?_, hvalid⟩
  rw [CharacterConfiguration.kind, hkind]
  exact args.payment.settle_settle args.federatedOnly args.own.kind hprovider

theorem Constructed.valid {env : Environment} {config : CharacterConfiguration}
    (h : Constructed env config) : config.Valid := by
  induction h with
  | init h => exact Arguments.init_valid h
  | attachKeystore h keystore ih => exact ⟨ih.ethProviderUri, ih.payment, ih.own⟩
  | @exportSigner config h ih =>
      unfold CharacterConfiguration.exportSigner
      by_cases hfederated : config.federatedOnly = true
      · rw [if_pos hfederated]
        exact ih
      · rw [if_neg hfederated]
        exact ⟨ih.ethProviderUri, ih.payment, ih.own⟩

end Configuration

end NuLink
