import NuLinkCore.Config.Character
import NuLinkCore.Crypto.Keystore

/-!
# Saving and loading configurations

The static payload of a configuration is written as a JSON object in which paths are strings.  To
load it the strings are cast to paths by the types of the constructor's arguments, a gas price to
a decimal, and the storage of nodes is made from its payload; the result are the arguments that
the constructor is called with.

Main results:

-/

namespace NuLink

namespace Configuration

open Collections Numerals Paths

/-! ## Writing -/

/-- What there is on the disk, and what the operating system lets be written. -/
structure Disk where
  entries : PosixPath → Option Entry
  /-- The directory can be made. -/
  makes : PosixPath → Bool
  /-- The file can be opened to be written. -/
  opens : PosixPath → Bool

def Disk.set (disk : Disk) (path : PosixPath) (entry : Entry) : Disk :=
  { disk with entries := Function.update disk.entries path (some entry) }

/-- {lit}`generate_filename`. -/
def Kind.generateFilename (kind : Kind) (modifier : Option String) : String :=
  kind.name ++ ((given modifier).elim "" fun modifier => "-" ++ modifier) ++ ".json"

/-- {lit}`VERSION`. -/
def version : Int := 4

namespace CharacterConfiguration

variable (config : CharacterConfiguration)

/-- What is put into the name of a file that exists.  Ursula needs a keystore for it. -/
def modifier (modifier : Option String) : Except Error (Option String) :=
  match config.own, given modifier, config.keystore with
  | .ursula _, none, none => .error .attributeError
  | .ursula _, none, some keystore =>
      .ok ((given (some (String.ofList (keystore.id.toList.take 8)))).or config.checksumAddress)
  | _, modifier, _ => .ok (modifier.or config.checksumAddress)

/-- {lit}`generate_filepath`. -/
def generateFilepath (disk : Disk) (filepath : Option PosixPath) (modifier : Option String)
    (override : Bool) : Except Error PosixPath :=
  match config.modifier modifier with
  | .error e => .error e
  | .ok modifier =>
      let filepath := filepath.getD (config.configRoot.join
        (config.kind.generateFilename none).toList)
      if (disk.entries filepath).isSome && !override then
        if given modifier = none then .error .fileExists
        else .ok (config.configRoot.join (config.kind.generateFilename modifier).toList)
      else .ok filepath

/-- {lit}`_ensure_config_root_exists`. -/
def ensureConfigRootExists (disk : Disk) : Except Error Unit × Disk :=
  if (disk.entries config.configRoot).isSome then (.ok (), disk)
  else if disk.makes config.configRoot then (.ok (), disk.set config.configRoot .other)
  else (.error .osError, disk)

/-- {lit}`serialize`. -/
def serialize : Except Error String := serializePayload (.int version) config.staticPayload

/-- {lit}`_write_configuration_file`. -/
def writeConfigurationFile (disk : Disk) (filepath : PosixPath) (override : Bool) :
    Except Error PosixPath × Disk :=
  if (disk.entries filepath).isSome && !override then (.error .fileExists, disk)
  else if disk.entries filepath = some .other || !disk.opens filepath then (.error .osError, disk)
  else
    match config.serialize with
    -- The file was emptied when it was opened.
    | .error e => (.error e, disk.set filepath (.file []))
    | .ok text => (.ok filepath, disk.set filepath (.file (utf8 text)))

/-- {lit}`to_configuration_file`: the path and the disk afterwards. -/
def toConfigurationFile (disk : Disk) (filepath : Option PosixPath) (modifier : Option String)
    (override : Bool) : Except Error PosixPath × Disk :=
  match config.generateFilepath disk filepath modifier override with
  | .error e => (.error e, disk)
  | .ok filepath =>
      match config.ensureConfigRootExists disk with
      | (.error e, disk) => (.error e, disk)
      | (.ok (), disk) => config.writeConfigurationFile disk filepath override

end CharacterConfiguration

/-! ## Loading -/

/-- The storages of nodes that a payload names. -/
inductive NodeStorage where
  | forgetful
  | localFileBased (payload : Payload)

/-- The value of a keyword argument. -/
inductive Argument where
  | object (object : PyObject)
  | storage (storage : NodeStorage)
  | price (price : Decimal)

abbrev Kwargs : Type := Dict String Argument

/-- {lit}`Path(value) if value else None`. -/
def castPath : PyObject → Except Error PyObject
  | .str text => .ok (if text = "" then .none else .path (PosixPath.ofString text).text)
  | .path text => .ok (.path text)
  | .none | .bool false | .int 0 | .list [] | .dict [] => .ok .none
  | _ => .error .typeError

/-- The arguments of a constructor that are paths. -/
def Kind.pathParameters (kind : Kind) : List String :=
  ["config_root", "filepath", "keystore_path", "registry_filepath", "policy_registry_filepath"] ++
    if kind = .ursula then ["db_filepath"] else []

/-- {lit}`cast_paths_from`. -/
def castPathsFrom {V : Type} (cast : V → Except Error V) (names : List String)
    (payload : Dict String V) : Except Error (Dict String V) :=
  names.foldlM (fun payload name =>
    match payload.get? name with
    | none => .ok payload
    | some value => (cast value).map (payload.set name)) payload

/-- {lit}`payload['db_filepath'] = Path(payload['db_filepath'])` for Ursula. -/
def castDbFilepath {V : Type} (cast : V → Except Error V) (kind : Kind)
    (payload : Dict String V) : Except Error (Dict String V) :=
  if kind = .ursula then
    match payload.get? "db_filepath" with
    | none => .error .other
    | some value => (cast value).map (payload.set "db_filepath")
  else .ok payload

/-- {lit}`Path(value)`. -/
def toPath : PyObject → Except Error PyObject
  | .str text => .ok (.path (PosixPath.ofString text).text)
  | .path text => .ok (.path text)
  | _ => .error .typeError

/-- {lit}`deserialize`. -/
def Kind.deserialize (kind : Kind) (text : String) : Except Error Payload :=
  match PyObject.loads text with
  | none => .error .valueError
  | some (.dict members) =>
      let payload : Payload := Dict.ofList members
      match payload.get? "version" with
      | some (.int number) =>
          if number = version then
            (castPathsFrom castPath kind.pathParameters (payload.erase "version")).bind
              (castDbFilepath toPath kind)
          else .error .oldVersion
      | _ => .error .oldVersion
  | some _ => .error .other

/-- {lit}`load_node_storage`. -/
def loadNodeStorage (payload : Payload) : Except Error NodeStorage :=
  match payload.get? "node_storage", payload.get? "federated_only" with
  | some (.dict members), some _ =>
      let storagePayload : Payload := Dict.ofList members
      match storagePayload.get? "storage_type" with
      | some (.str ":memory:") => .ok .forgetful
      | some (.str "local") => .ok (.localFileBased (storagePayload.erase "storage_type"))
      | _ => .error .other
  | _, _ => .error .other

/-- {lit}`Decimal(value) if value else value`. -/
def castPrice : PyObject → Except Error Argument
  | .str text =>
      if text = "" then .ok (.object (.str text))
      else (Decimal.parse text.toList).elim (.error .other) fun price => .ok (.price price)
  | .int price => .ok (if price = 0 then .object (.int 0) else .price (.ofInt price))
  | .none => .ok (.object .none)
  | _ => .error .other

def Argument.castPath : Argument → Except Error Argument
  | .object value => (Configuration.castPath value).map .object
  | _ => .error .typeError

def Argument.toPath : Argument → Except Error Argument
  | .object value => (Configuration.toPath value).map .object
  | _ => .error .typeError

def Argument.isGiven : Argument → Bool
  | .object .none => false
  | _ => true

/-- {lit}`_read_configuration_file`. -/
def Kind.readConfigurationFile (kind : Kind) (disk : Disk) (filepath : PosixPath) :
    Except Error Payload :=
  match disk.entries filepath with
  | some (.file content) => (decodeUtf8 content).elim (.error .valueError) kind.deserialize
  | _ => .error .osError

/-- {lit}`assemble`. -/
def Kind.assemble (kind : Kind) (disk : Disk) (filepath : PosixPath) (overrides : Kwargs) :
    Except Error Kwargs := do
  let payload ← kind.readConfigurationFile disk filepath
  let storage ← loadNodeStorage payload
  let price ← castPrice ((payload.get? "max_gas_price").getD .none)
  let kwargs ← castPathsFrom Argument.castPath kind.pathParameters
    (((payload.mapValues Argument.object).set "node_storage" (.storage storage)).set
      "max_gas_price" price)
  castDbFilepath Argument.toPath kind (kwargs.update (overrides.filter Argument.isGiven))

/-! ## Calling the constructor -/

/-- The keyword arguments of the constructors. -/
def Kind.parameters (kind : Kind) : List String :=
  ["emitter", "config_root", "dev_mode", "federated_only", "checksum_address", "crypto_power",
    "keystore", "keystore_path", "learn_on_same_thread", "abort_on_learning_error",
    "start_learning_now", "controller_port", "domain", "network_middleware", "lonely",
    "known_nodes", "node_storage", "reload_metadata", "save_metadata", "poa", "light",
    "eth_provider_uri", "gas_strategy", "max_gas_price", "signer_uri", "payment_method",
    "payment_provider", "payment_network", "registry", "registry_filepath", "policy_registry",
    "policy_registry_filepath", "worker_data"] ++
    match kind with
    | .ursula => ["rest_host", "operator_address", "db_filepath", "rest_port", "certificate",
        "availability_check"]
    | .alice => ["threshold", "shares", "rate", "duration", "store_policies", "store_cards"]
    | .bob => ["store_policies", "store_cards"]

/-- The argument of a parameter, or its default.  A value that does not have the type of the
parameter is refused. -/
def Kwargs.read {α : Type} (kwargs : Kwargs) (name : String) (default : α)
    (ofObject : PyObject → Option α) : Except Error α :=
  match kwargs.get? name with
  | none => .ok default
  | some (.object object) => (ofObject object).elim (.error .typeError) .ok
  | some _ => .error .typeError

def string? : PyObject → Option String
  | .str text => some text
  | _ => none

def bool? : PyObject → Option Bool
  | .bool b => some b
  | _ => none

def int? : PyObject → Option Int
  | .int number => some number
  | _ => none

def path? : PyObject → Option PosixPath
  | .path text => some (PosixPath.ofString text)
  | _ => none

/-- An argument that may be {lit}`None`. -/
def orNone {α : Type} (ofObject : PyObject → Option α) : PyObject → Option (Option α)
  | .none => some none
  | object => (ofObject object).map some

def gasStrategy? : PyObject → Option GasStrategy
  | .none => some .none
  | .str strategy => some (.name strategy)
  | .other function => some (.callable function)
  | _ => none

namespace Kwargs

variable (kwargs : Kwargs)

def maxGasPrice : Except Error (Option GasPrice) :=
  match kwargs.get? "max_gas_price" with
  | none | some (.object .none) => .ok none
  | some (.object (.int price)) => .ok (some (.int price))
  | some (.price price) => .ok (some (.decimal price))
  | some _ => .error .typeError

def behaviour : Except Error Behaviour := do
  let domain ← kwargs.read "domain" mainnet string?
  let learnOnSameThread ← kwargs.read "learn_on_same_thread" false bool?
  let abortOnLearningError ← kwargs.read "abort_on_learning_error" false bool?
  let startLearningNow ← kwargs.read "start_learning_now" true bool?
  let saveMetadata ← kwargs.read "save_metadata" true bool?
  let lonely ← kwargs.read "lonely" false bool?
  return { domain, learnOnSameThread, abortOnLearningError, startLearningNow, saveMetadata, lonely }

def blockchain : Except Error Blockchain := do
  let poa ← kwargs.read "poa" none (orNone bool?)
  let light ← kwargs.read "light" false bool?
  let ethProviderUri ← kwargs.read "eth_provider_uri" none (orNone string?)
  let gasStrategy ← kwargs.read "gas_strategy" (.name "fast") gasStrategy?
  let maxGasPrice ← kwargs.maxGasPrice
  let signerUri ← kwargs.read "signer_uri" none (orNone string?)
  return { poa, light, ethProviderUri, gasStrategy, maxGasPrice, signerUri }

def payment : Except Error Payment := do
  let method ← kwargs.read "payment_method" none (orNone string?)
  let provider ← kwargs.read "payment_provider" none (orNone string?)
  let network ← kwargs.read "payment_network" none (orNone string?)
  return { method, provider, network }

def registries : Except Error Registries := do
  let registryFilepath ← kwargs.read "registry_filepath" none (orNone path?)
  let policyRegistryFilepath ← kwargs.read "policy_registry_filepath" none (orNone path?)
  return { registryFilepath, policyRegistryFilepath }

def own : Kind → Except Error OwnArguments
  | .ursula => do
      let restHost ← kwargs.read "rest_host" none (orNone string?)
      let operatorAddress ← kwargs.read "operator_address" none (orNone string?)
      let dbFilepath ← kwargs.read "db_filepath" none (orNone path?)
      let restPort ← kwargs.read "rest_port" none (orNone int?)
      let availabilityCheck ← kwargs.read "availability_check" none (orNone bool?)
      return .ursula { restHost, operatorAddress, dbFilepath, restPort, availabilityCheck }
  | .alice => do
      let threshold ← kwargs.read "threshold" none (orNone int?)
      let shares ← kwargs.read "shares" none (orNone int?)
      let rate ← kwargs.read "rate" none (orNone int?)
      let duration ← kwargs.read "duration" none (orNone int?)
      let storePolicies ← kwargs.read "store_policies" true bool?
      let storeCards ← kwargs.read "store_cards" true bool?
      return .alice { threshold, shares, rate, duration, storePolicies, storeCards }
  | .bob => do
      let storePolicies ← kwargs.read "store_policies" true bool?
      let storeCards ← kwargs.read "store_cards" true bool?
      return .bob { storePolicies, storeCards }

/-- The arguments of the constructor.  No file holds a keystore or a registry itself. -/
def arguments (kind : Kind) : Except Error Arguments :=
  if kwargs.keys.all kind.parameters.contains then do
    let configRoot ← kwargs.read "config_root" none (orNone path?)
    let devMode ← kwargs.read "dev_mode" false bool?
    let federatedOnly ← kwargs.read "federated_only" false bool?
    let checksumAddress ← kwargs.read "checksum_address" none (orNone string?)
    let keystorePath ← kwargs.read "keystore_path" none (orNone path?)
    let behaviour ← kwargs.behaviour
    let blockchain ← kwargs.blockchain
    let payment ← kwargs.payment
    let registries ← kwargs.registries
    let own ← kwargs.own kind
    return { configRoot, devMode, federatedOnly, checksumAddress, keystorePath, behaviour,
             blockchain, payment, registries, own }
  else .error .typeError

end Kwargs

/-- {lit}`default_filepath`. -/
def Kind.defaultFilepath (kind : Kind) (env : Environment) : PosixPath :=
  env.defaultConfigRoot.join (kind.generateFilename none).toList

/-- {lit}`from_configuration_file`. -/
def Kind.fromConfigurationFile (kind : Kind) (env : Environment) (disk : Disk)
    (filepath : Option PosixPath) (overrides : Kwargs) : Except Error CharacterConfiguration := do
  let kwargs ← kind.assemble disk (filepath.getD (kind.defaultFilepath env)) overrides
  let args ← kwargs.arguments kind
  args.init env

end Configuration

end NuLink
