import Mathlib.Data.Rat.Floor
import NuLinkCore.Blockchain.Interface.Web3

/-!
# Sending a transaction

The interface caps its gas strategy with a highest price when it is configured.  A transaction
is then built, where the strategy is consulted, and the dictionary is filtered and priced again
before the transacting power signs it.

Main results:

- Theorem {lit}`BlockchainInterface.clientStrategy_le`: the configured strategy answers no price
  over the cap.
- Theorem {lit}`BlockchainInterface.built_gasPrice_le`: a gas price that building fills in by the
  strategy is within the cap.
- Theorem {lit}`BlockchainInterface.gas_price_capped_iff`: the gas price that is signed is
  within the cap exactly when the one that the node reports at signing is.
-/

namespace NuLink

open Collections

namespace Interface

/-! ## The gas strategy -/

/-- The gas strategies that an interface takes by name. -/
inductive GasStrategyName where
  | slow | medium | fast | free
  deriving DecidableEq

def GasStrategyName.text : GasStrategyName → String
  | .slow => "slow"
  | .medium => "medium"
  | .fast => "fast"
  | .free => "free"

/-- {lit}`max_price_gas_strategy_wrapper`. -/
def maxPriceGasStrategyWrapper (gasStrategy : PriceStrategy) (maxGasPriceWei : Int) :
    PriceStrategy := fun consultation transaction => do
  let gasPrice ← gasStrategy consultation transaction
  if gasPrice > maxGasPriceWei then pure maxGasPriceWei else pure gasPrice

theorem maxPriceGasStrategyWrapper_le {gasStrategy : PriceStrategy} {maxGasPriceWei : Int}
    {consultation : Consultation} {transaction : TxDict} {price : Int}
    (h : maxPriceGasStrategyWrapper gasStrategy maxGasPriceWei consultation transaction =
      .ok price) :
    price ≤ maxGasPriceWei := by
  rcases bind_eq_ok.mp h with ⟨gasPrice, -, hprice⟩
  by_cases hover : gasPrice > maxGasPriceWei
  · rw [if_pos hover] at hprice
    cases hprice
    exact le_refl _
  · rw [if_neg hover] at hprice
    cases hprice
    omega

/-- What the interface uses of its libraries: the strategies and the conversions of units. -/
structure Library where
  gasStrategies : GasStrategyName → Option PriceStrategy
  datafeedMedianStrategy : GasStrategyName → PriceStrategy
  gweiToWei : ℚ → Except SendError Int
  fromWei : Int → String → Except SendError String

/-- What {lit}`BlockchainInterface` is made with, and whether its client is Infura's. -/
structure Settings where
  gasStrategy : GasStrategyName
  maxGasPrice : Option ℚ
  isInfura : Bool

/-- {lit}`get_gas_strategy` for a name. -/
def getGasStrategy (library : Library) (gasStrategy : GasStrategyName) :
    Except SendError PriceStrategy :=
  match library.gasStrategies gasStrategy with
  | some strategy => .ok strategy
  | none =>
      .error (.valueError (gasStrategy.text ++ " must be callable to be a valid gas strategy."))

/-- The strategy that is configured, before it is capped. -/
def chooseGasStrategy (library : Library) (settings : Settings)
    (gasStrategy : Option PriceStrategy) : Except SendError PriceStrategy :=
  match gasStrategy with
  | some strategy => .ok strategy
  | none =>
      if settings.isInfura then
        .ok (library.datafeedMedianStrategy settings.gasStrategy)
      else
        getGasStrategy library settings.gasStrategy

/-- Cap a strategy when a highest price is set. -/
def capGasStrategy (library : Library) (settings : Settings) (strategy : PriceStrategy) :
    Except SendError PriceStrategy :=
  match settings.maxGasPrice with
  | none => .ok strategy
  | some maxGasPrice =>
      if maxGasPrice = 0 then
        .ok strategy
      else do
        let price ← library.gweiToWei maxGasPrice
        pure (maxPriceGasStrategyWrapper strategy price)

/-- {lit}`configure_gas_strategy`: the strategy that is set on the client. -/
def configureGasStrategy (library : Library) (settings : Settings)
    (gasStrategy : Option PriceStrategy) : Except SendError PriceStrategy := do
  let strategy ← chooseGasStrategy library settings gasStrategy
  capGasStrategy library settings strategy

/-- The highest gas price in wei, when it is set. -/
def Settings.maxGasPriceWei (library : Library) (settings : Settings) : Option Int :=
  match settings.maxGasPrice with
  | none => none
  | some maxGasPrice =>
      if maxGasPrice = 0 then none else (library.gweiToWei maxGasPrice).toOption

theorem configureGasStrategy_le {library : Library} {settings : Settings}
    {gasStrategy : Option PriceStrategy} {strategy : PriceStrategy}
    (h : configureGasStrategy library settings gasStrategy = .ok strategy) {cap : Int}
    (hcap : settings.maxGasPriceWei library = some cap) {consultation : Consultation}
    {transaction : TxDict} {price : Int} (hprice : strategy consultation transaction = .ok price) :
    price ≤ cap := by
  rcases bind_eq_ok.mp h with ⟨chosen, -, hcapped⟩
  unfold Settings.maxGasPriceWei at hcap
  unfold capGasStrategy at hcapped
  cases hmax : settings.maxGasPrice with
  | none =>
      rw [hmax] at hcap
      cases hcap
  | some maxGasPrice =>
      simp only [hmax] at hcap hcapped
      by_cases hzero : maxGasPrice = 0
      · rw [if_pos hzero] at hcap
        cases hcap
      · rw [if_neg hzero] at hcap hcapped
        rcases bind_eq_ok.mp hcapped with ⟨wei, hwei, hwrapped⟩
        cases hwrapped
        rw [hwei] at hcap
        cases hcap
        exact maxPriceGasStrategyWrapper_le hprice

/-! ## The interface and what it talks to -/

/-- A connected interface. -/
structure BlockchainInterface (library : Library) where
  settings : Settings
  clientStrategy : PriceStrategy
  configured : ∃ gasStrategy,
    configureGasStrategy library settings gasStrategy = .ok clientStrategy

/-- A transaction receipt. -/
structure Receipt where
  status : Option Int
  gasUsed : Int
  deriving DecidableEq

/-- The client and the transacting power, over a call. -/
structure Client (Raw Hash : Type) where
  node : Node
  getTransactionCount : Bool → Except SendError Nat
  signTransaction : TxDict → Except SendError Raw
  sendRawTransaction : Raw → Except SendError Hash
  waitForReceipt : Hash → Nat → Except SendError Receipt
  getTransactionGas : Hash → Except SendError Int

/-- The arguments of {lit}`send_transaction`, with the account of the transacting power. -/
structure SendArguments where
  contractFunction : ContractFunction
  account : String
  payload : Option TxDict
  transactionGasLimit : Option Int
  gasEstimationMultiplier : Option ℚ
  confirmations : Nat
  fireAndForget : Bool
  replace : Bool

/-- {lit}`use_pending_nonce`. -/
def SendArguments.usePendingNonce (arguments : SendArguments) : Bool :=
  if arguments.fireAndForget then false else arguments.replace

/-- What {lit}`send_transaction` returns. -/
inductive SendResult (Hash : Type) where
  | txhash (hash : Hash)
  | receipt (receipt : Receipt)
  deriving DecidableEq

/-- What a call did: the dictionary that the transacting power was given to sign, the raw
transaction that was broadcast, and how it ended. -/
structure SendOutcome (Raw Hash : Type) where
  handedToSigner : Option TxDict
  broadcast : Option Raw
  result : Except SendError (SendResult Hash)

def SendOutcome.failed {Raw Hash : Type} (raised : SendError) : SendOutcome Raw Hash where
  handedToSigner := none
  broadcast := none
  result := .error raised

section Send

variable {Raw Hash : Type} {library : Library}

/-! ## Building -/

/-- {lit}`build_payload`. -/
def buildPayload (client : Client Raw Hash) (senderAddress : String) (payload : Option TxDict)
    (transactionGasLimit : Option Int) (usePendingNonce : Bool) : Except SendError TxDict := do
  let nonce ← client.getTransactionCount usePendingNonce
  let payload := ((payload.getD Dict.empty).set "nonce" (.int nonce)).set "from"
    (.str senderAddress)
  match transactionGasLimit with
  | none => pure payload
  | some limit => if limit = 0 then pure payload else pure (payload.set "gas" (.int limit))

/-- The checks of the gas estimation multiplier. -/
def checkGasEstimationMultiplier (multiplier : Option ℚ) : Except SendError Unit :=
  match multiplier with
  | none => .ok ()
  | some multiplier =>
      if 1 ≤ multiplier ∧ multiplier ≤ 3 then
        .ok ()
      else
        .error (.valueError ("The gas estimation multiplier should be a float between 1 and 3, " ++
          "but we received " ++ toString multiplier ++ "."))

/-- {lit}`_handle_failed_transaction`: an error of the node with its general code is raised as
a failed transaction, and the others as they are. -/
def handleFailedTransaction {α : Type} : Except SendError α → Except SendError α
  | .error (.rpc code message) =>
      if code = -32000 then .error (.transactionFailed message) else .error (.rpc code message)
  | result => result

/-- A value that is computed with. -/
def TxValue.asInt : TxValue → Except SendError Int
  | .int value => .ok value
  | _ => .error (.typeError "unsupported operand type(s)")

/-- The integer under a key that has to be there. -/
def intAt (transaction : TxDict) (key : String) : Except SendError Int :=
  match transaction.get? key with
  | none => .error (.keyError key)
  | some value => value.asInt

/-- Raise the gas limit by the multiplier, unless a limit is given. -/
def overestimateGas (multiplier : Option ℚ) (transactionGasLimit : Option Int)
    (transaction : TxDict) : Except SendError TxDict :=
  match multiplier with
  | none => .ok transaction
  | some multiplier =>
      if transactionGasLimit.getD 0 = 0 then do
        let gasEstimation ← intAt transaction "gas"
        pure (transaction.set "gas" (.int ⌈gasEstimation * multiplier⌉))
      else
        .ok transaction

/-- Estimate the gas of a payload that has no limit. -/
def estimateGasOfPayload (client : Client Raw Hash) (contractFunction : ContractFunction)
    (payload : TxDict) : Except SendError TxDict :=
  if payload.contains "gas" then
    .ok payload
  else do
    let gas ← contractFunction.estimateGas client.node payload
    pure (payload.set "gas" (.int gas))

namespace BlockchainInterface

variable (interface : BlockchainInterface library) (client : Client Raw Hash)

/-- Build the transaction from a payload, with the gas that was estimated for it. -/
def buildFromPayload (contractFunction : ContractFunction) (payload : TxDict) :
    Except SendError TxDict := do
  let payload ← estimateGasOfPayload client contractFunction payload
  contractFunction.buildTransaction client.node interface.clientStrategy payload

/-- {lit}`build_contract_transaction`. -/
def buildContractTransaction (arguments : SendArguments) (usePendingNonce : Bool) :
    Except SendError TxDict := do
  checkGasEstimationMultiplier arguments.gasEstimationMultiplier
  let payload ← buildPayload client arguments.account arguments.payload
    arguments.transactionGasLimit usePendingNonce
  let transaction ← handleFailedTransaction
    (interface.buildFromPayload client arguments.contractFunction payload)
  overestimateGas arguments.gasEstimationMultiplier arguments.transactionGasLimit transaction

end BlockchainInterface

/-! ## Signing and broadcasting -/

/-- {lit}`max_unit_price`, which is shown to the user. -/
def maxUnitPrice (node : Node) (transaction : TxDict) : Except SendError TxValue :=
  match transaction.get? "maxFeePerGas" with
  | some price => .ok price
  | none =>
      match transaction.get? "gasPrice" with
      | some price => if price.truthy then .ok price else (node.gasPrice .shown).map TxValue.int
      | none => (node.gasPrice .shown).map TxValue.int

/-- The keys of a transaction that are signed. -/
def signedKeys : List String := ["value", "nonce", "from", "gas", "to", "data", "chainId"]

/-- What is shown of the transaction: its highest price and cost. -/
def showCost (library : Library) (node : Node) (transaction : TxDict) : Except SendError Unit := do
  let price ← maxUnitPrice node transaction
  let maxUnitPrice ← price.asInt
  let _ ← library.fromWei maxUnitPrice "gwei"
  let gas ← intAt transaction "gas"
  let _ ← library.fromWei (maxUnitPrice * gas) "ether"
  pure ()

/-- Both dictionaries are printed as JSON, which takes no bytes. -/
def printDictionary (transaction : TxDict) : Except SendError Unit :=
  if transaction.values.all TxValue.jsonSerializable then
    .ok ()
  else
    .error (.typeError "Object of type bytes is not JSON serializable")

/-- The gas price is the one that the node reports, unless the dictionary has one. -/
def priceTransaction (node : Node) (toBeSigned : TxDict) : Except SendError TxDict :=
  if toBeSigned.contains "gasPrice" then
    .ok toBeSigned
  else do
    let price ← node.gasPrice .signing
    pure (toBeSigned.set "gasPrice" (.int price))

/-- The dictionary that the transacting power is given to sign. -/
def toBeSignedTransaction (library : Library) (node : Node) (transaction : TxDict) :
    Except SendError TxDict := do
  showCost library node transaction
  printDictionary transaction
  priceTransaction node (transaction.filterKeys signedKeys.contains)

/-- The receipt checks: a failure status, or without a status all of the gas used. -/
def checkReceipt (client : Client Raw Hash) (txhash : Hash) (receipt : Receipt) :
    Except SendError (SendResult Hash) :=
  match receipt.status with
  | some status =>
      if status = 0 then
        .error (.interfaceError "Transaction transmitted, but receipt returned status code 0. ")
      else
        .ok (.receipt receipt)
  | none => do
      let gas ← client.getTransactionGas txhash
      if gas = receipt.gasUsed then
        .error (.interfaceError "Transaction consumed 100% of transaction gas.")
      else
        pure (.receipt receipt)

/-- Broadcast a raw transaction, and wait for its receipt unless it is fired and forgotten. -/
def broadcastTransaction (client : Client Raw Hash) (raw : Raw) (confirmations : Nat)
    (fireAndForget : Bool) : Except SendError (SendResult Hash) := do
  let txhash ← client.sendRawTransaction raw
  if fireAndForget = true then
    pure (.txhash txhash)
  else do
    let receipt ← client.waitForReceipt txhash confirmations
    checkReceipt client txhash receipt

/-- {lit}`sign_and_broadcast_transaction`. -/
def signAndBroadcastTransaction (library : Library) (client : Client Raw Hash)
    (transaction : TxDict) (confirmations : Nat) (fireAndForget : Bool) : SendOutcome Raw Hash :=
  match toBeSignedTransaction library client.node transaction with
  | .error raised => .failed raised
  | .ok toBeSigned =>
      match client.signTransaction toBeSigned with
      | .error raised =>
          { handedToSigner := some toBeSigned, broadcast := none, result := .error raised }
      | .ok raw =>
          { handedToSigner := some toBeSigned
            broadcast := some raw
            result := broadcastTransaction client raw confirmations fireAndForget }

namespace BlockchainInterface

variable (interface : BlockchainInterface library) (client : Client Raw Hash)

/-- {lit}`send_transaction`. -/
def sendTransaction (arguments : SendArguments) : SendOutcome Raw Hash :=
  if arguments.fireAndForget = true ∧ 0 < arguments.confirmations then
    .failed (.valueError ("Transaction Prevented: " ++
      "Cannot use 'confirmations' and 'fire_and_forget' options together."))
  else
    match interface.buildContractTransaction client arguments arguments.usePendingNonce with
    | .error raised => .failed raised
    | .ok transaction =>
        signAndBroadcastTransaction library client transaction arguments.confirmations
          arguments.fireAndForget

/-! ## What is signed -/

/-- What is signed has the gas price that the node reports, and otherwise the entries of the
built transaction under the keys that are kept. -/
theorem toBeSignedTransaction_eq_ok {library : Library} {node : Node}
    {transaction handed : TxDict}
    (h : toBeSignedTransaction library node transaction = .ok handed) :
    ∃ price, node.gasPrice .signing = .ok price ∧
      handed = (transaction.filterKeys signedKeys.contains).set "gasPrice" (.int price) := by
  have hdropped :
      (transaction.filterKeys signedKeys.contains).contains "gasPrice" = false := by
    rw [Dict.contains, Dict.get?_filterKeys]
    rfl
  rcases bind_eq_ok.mp h with ⟨-, -, hrest⟩
  rcases bind_eq_ok.mp hrest with ⟨-, -, hprice⟩
  unfold priceTransaction at hprice
  rw [hdropped, if_neg Bool.false_ne_true] at hprice
  rcases bind_eq_ok.mp hprice with ⟨price, hreading, hset⟩
  cases hset
  exact ⟨price, hreading, rfl⟩

variable {interface client}

/-- A dictionary that is handed to the signer was built first. -/
theorem sendTransaction_handed {arguments : SendArguments} {handed : TxDict}
    (h : (interface.sendTransaction client arguments).handedToSigner = some handed) :
    ∃ transaction,
      interface.buildContractTransaction client arguments arguments.usePendingNonce =
        .ok transaction ∧
      toBeSignedTransaction library client.node transaction = .ok handed := by
  unfold sendTransaction at h
  by_cases hprevented : arguments.fireAndForget = true ∧ 0 < arguments.confirmations
  · rw [if_pos hprevented] at h
    cases h
  rw [if_neg hprevented] at h
  cases hbuilt : interface.buildContractTransaction client arguments
      arguments.usePendingNonce with
  | error raised =>
      rw [hbuilt] at h
      cases h
  | ok transaction =>
      simp only [hbuilt, signAndBroadcastTransaction] at h
      cases hsigned : toBeSignedTransaction library client.node transaction with
      | error raised =>
          rw [hsigned] at h
          cases h
      | ok toBeSigned =>
          simp only [hsigned] at h
          refine ⟨transaction, rfl, ?_⟩
          rw [hsigned]
          cases hraw : client.signTransaction toBeSigned with
          | error raised =>
              rw [hraw] at h
              cases h
              rfl
          | ok raw =>
              rw [hraw] at h
              cases h
              rfl

/-! ## The gas cap -/

/-- The cap in wei, when it is set. -/
def maxGasPriceWei (interface : BlockchainInterface library) : Option Int :=
  interface.settings.maxGasPriceWei library

theorem clientStrategy_le {cap : Int} (hcap : interface.maxGasPriceWei = some cap)
    {consultation : Consultation} {transaction : TxDict} {price : Int}
    (hprice : interface.clientStrategy consultation transaction = .ok price) : price ≤ cap := by
  rcases interface.configured with ⟨_, hconfigured⟩
  exact configureGasStrategy_le hconfigured hcap hprice

/-- A gas price that building fills in is within the cap, unless the strategy answers nothing
and the price is the one of the node. -/
theorem built_gasPrice_le {cap : Int} (hcap : interface.maxGasPriceWei = some cap) {node : Node}
    {contractFunction : ContractFunction} {payload built : TxDict}
    (h : contractFunction.buildTransaction node interface.clientStrategy payload = .ok built)
    (hmissing : payload.get? "gasPrice" = none) {value : TxValue}
    (hvalue : built.get? "gasPrice" = some value) :
    ∃ price, value = .int price ∧
      (price ≤ cap ∨ node.gasPrice .defaultGasPrice = .ok price) := by
  rcases buildTransaction_eq_ok h with ⟨transaction, hfill, hsame⟩
  have htransaction : transaction.get? "gasPrice" = none := by
    rw [hsame "gasPrice" (by decide) (by decide), hmissing]
  rcases fillTransactionDefaults_gasPrice hfill htransaction hvalue with ⟨price, rfl, hanswer⟩
  refine ⟨price, rfl, ?_⟩
  rcases hanswer with hstrategy | ⟨-, hnode⟩
  · exact .inl (clientStrategy_le hcap hstrategy)
  · exact .inr hnode

/-- The gas price of a dictionary is at most the cap. -/
def GasPriceAtMost (cap : Int) (transaction : TxDict) : Prop :=
  ∃ price, transaction.get? "gasPrice" = some (.int price) ∧ price ≤ cap

/-- What is handed to the signer keeps to the cap exactly when the gas price that the node
reports at signing does. -/
theorem gas_price_capped_iff (interface : BlockchainInterface library) (client : Client Raw Hash)
    (arguments : SendArguments) {handed : TxDict}
    (h : (interface.sendTransaction client arguments).handedToSigner = some handed) :
    (∀ cap, interface.maxGasPriceWei = some cap → GasPriceAtMost cap handed) ↔
      ∀ cap, interface.maxGasPriceWei = some cap →
        ∀ price, client.node.gasPrice .signing = .ok price → price ≤ cap := by
  rcases sendTransaction_handed h with ⟨transaction, -, hhanded⟩
  rcases toBeSignedTransaction_eq_ok hhanded with ⟨price, hreading, rfl⟩
  apply forall_congr'
  intro cap
  apply imp_congr_right
  intro _
  simp [GasPriceAtMost, hreading]

end BlockchainInterface

end Send

/-! ## A call of a capped interface -/

/-- Strategies that always answer 80 gwei. -/
def sampleLibrary : Library where
  gasStrategies := fun _ => some fun _ _ => .ok 80000000000
  datafeedMedianStrategy := fun _ _ _ => .ok 80000000000
  gweiToWei := fun gwei => .ok ⌊gwei * 1000000000⌋
  fromWei := fun price unit => .ok (toString price ++ " wei in " ++ unit)

def sampleSettings : Settings where
  gasStrategy := .fast
  maxGasPrice := some 50
  isInfura := false

/-- An interface with a cap of 50 gwei. -/
def sampleInterface : BlockchainInterface sampleLibrary where
  settings := sampleSettings
  clientStrategy := maxPriceGasStrategyWrapper (fun _ _ => .ok 80000000000) 50000000000
  configured := by
    refine ⟨none, ?_⟩
    have hprice : ⌊(50 : ℚ) * 1000000000⌋ = 50000000000 := by norm_num
    simp [configureGasStrategy, chooseGasStrategy, capGasStrategy, getGasStrategy,
      sampleSettings, sampleLibrary, bind, Except.bind, hprice, pure, Except.pure]

/-- A client whose node reports one gas price, for an account with a number of mined and of
pending transactions. -/
def sampleClient (gasPrice : Int) (mined pending : Nat) : Client TxDict Unit where
  node := {
    gasPrice := fun _ => .ok gasPrice
    maxPriorityFee := .ok 1000000000
    baseFeePerGas := .ok none
    chainId := .ok 56
    estimateGas := fun _ => .ok 21000 }
  getTransactionCount := fun usePending => .ok (if usePending then mined + pending else mined)
  signTransaction := fun transaction => .ok transaction
  sendRawTransaction := fun _ => .ok ()
  waitForReceipt := fun _ _ => .ok { status := some 1, gasUsed := 21000 }
  getTransactionGas := fun _ => .ok 21000

/-- A call with the default options. -/
def sampleArguments : SendArguments where
  contractFunction := .function (some "0xC0FFEE") none "0xfeed"
  account := "0xA11CE"
  payload := none
  transactionGasLimit := none
  gasEstimationMultiplier := some (23 / 20)
  confirmations := 0
  fireAndForget := false
  replace := false

namespace BlockchainInterface

theorem gas_price_capped_iff_sample :
    ∃ handed, (sampleInterface.sendTransaction (sampleClient 40000000000 3 0)
        sampleArguments).handedToSigner = some handed ∧
      ((∀ cap, sampleInterface.maxGasPriceWei = some cap → GasPriceAtMost cap handed) ↔
        ∀ cap, sampleInterface.maxGasPriceWei = some cap →
          ∀ price, (sampleClient 40000000000 3 0).node.gasPrice .signing = .ok price →
            price ≤ cap) := by
  obtain ⟨handed, hhanded⟩ : ∃ handed, (sampleInterface.sendTransaction
      (sampleClient 40000000000 3 0) sampleArguments).handedToSigner = some handed := by
    apply Option.isSome_iff_exists.mp
    decide +kernel
  exact ⟨handed, hhanded, gas_price_capped_iff _ _ _ hhanded⟩

/-- With a cap of 50 gwei, 100 gwei are signed. -/
theorem gas_cap_exceeded :
    sampleInterface.maxGasPriceWei = some 50000000000 ∧
      ∃ handed, (sampleInterface.sendTransaction (sampleClient 100000000000 3 0)
          sampleArguments).handedToSigner = some handed ∧
        handed.get? "gasPrice" = some (.int 100000000000) ∧
        ¬ GasPriceAtMost 50000000000 handed := by
  refine ⟨by decide +kernel, ?_⟩
  obtain ⟨handed, hhanded, hprice⟩ : ∃ handed, (sampleInterface.sendTransaction
      (sampleClient 100000000000 3 0) sampleArguments).handedToSigner = some handed ∧
        handed.get? "gasPrice" = some (.int 100000000000) := by
    apply Option.map_eq_some_iff.mp
    decide +kernel
  refine ⟨handed, hhanded, hprice, ?_⟩
  rintro ⟨price, hget, hle⟩
  rw [hprice] at hget
  cases hget
  omega

end BlockchainInterface

end Interface

end NuLink
