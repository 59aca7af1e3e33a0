import NuLinkCore.Network.NodeMetadata
import NuLinkCore.Lib.Dict

/-!
# Building a transaction

The web3 library makes the dictionary of a contract transaction from a payload: it adds where
the transaction goes and its data, and fills in what is still missing, among it a gas price by
the configured strategy or the fees of a dynamic fee transaction.

Main results:

- Theorem {lit}`get?_fillTransactionDefaults`: what the transaction has is not changed by the
  defaults.
- Theorem {lit}`buildTransaction_keeps`: what the payload has, the built transaction has.
- Theorem {lit}`fillTransactionDefaults_gasPrice`: where a gas price that was filled in comes
  from.
-/

namespace NuLink

open Collections

namespace Interface

/-! ## Transaction dictionaries -/

/-- What a transaction dictionary may hold under a key. -/
inductive TxValue where
  | none
  | int (value : Int)
  | str (text : String)
  | bytes (value : Bytes)
  | accessList (items : List (String × List String))
  deriving DecidableEq

namespace TxValue

def truthy : TxValue → Bool
  | .none => false
  | .int value => decide (value ≠ 0)
  | .str text => decide (text ≠ "")
  | .bytes value => decide (value ≠ [])
  | .accessList items => decide (items ≠ [])

/-- Whether {lit}`json.dumps` takes the value. -/
def jsonSerializable : TxValue → Bool
  | .bytes _ => false
  | _ => true

end TxValue

abbrev TxDict : Type := Dict String TxValue

/-- What is raised while a transaction is built, signed or sent.  An answer of the node that
reports an error is raised with its code and message. -/
inductive SendError where
  | rpc (code : Int) (message : String)
  | valueError (message : String)
  | validationError (message : String)
  | typeError (message : String)
  | keyError (key : String)
  | transactionFailed (message : String)
  | interfaceError (message : String)
  | raised (name : String)
  deriving DecidableEq

/-! ## What the library asks for -/

/-- The places where a transaction that is sent asks the node for its gas price. -/
inductive GasPriceReading where
  | defaultGasPrice
  | defaultMaxFee
  | shown
  | signing
  deriving DecidableEq

/-- The answers of the node. -/
structure Node where
  gasPrice : GasPriceReading → Except SendError Int
  maxPriorityFee : Except SendError Int
  baseFeePerGas : Except SendError (Option Int)
  chainId : Except SendError Int
  estimateGas : TxDict → Except SendError Int

/-- A transaction that is built consults the gas strategy up to two times. -/
inductive Consultation where
  | first
  | default
  deriving DecidableEq

/-- A gas strategy, which may answer differently each time. -/
abbrev PriceStrategy : Type := Consultation → TxDict → Except SendError Int

/-! ## Transaction defaults -/

/-- {lit}`DYNAMIC_FEE_TXN_PARAMS`. -/
def dynamicFeeTxnParams : List String := ["maxFeePerGas", "maxPriorityFeePerGas"]

section Defaults

variable (node : Node) (strategy : PriceStrategy)

/-- {lit}`generate_gas_price(tx) or gas_price`. -/
def defaultGasPrice (transaction : TxDict) : Except SendError Int := do
  let price ← strategy .default transaction
  if price = 0 then node.gasPrice .defaultGasPrice else pure price

/-- Twice the base fee of the latest block, or the gas price where the block has none, on top
of the priority fee. -/
def defaultMaxFee : Except SendError Int := do
  let priorityFee ← node.maxPriorityFee
  match ← node.baseFeePerGas with
  | some baseFee =>
      if baseFee = 0 then
        let price ← node.gasPrice .defaultMaxFee
        pure (priorityFee + 2 * price)
      else
        pure (priorityFee + 2 * baseFee)
  | none =>
      let price ← node.gasPrice .defaultMaxFee
      pure (priorityFee + 2 * price)

/-- {lit}`TRANSACTION_DEFAULTS`. -/
def transactionDefaults (transaction : TxDict) : List (String × Except SendError TxValue) :=
  [("value", .ok (.int 0)),
    ("data", .ok (.bytes [])),
    ("gas", (node.estimateGas transaction).map TxValue.int),
    ("gasPrice", (defaultGasPrice node strategy transaction).map TxValue.int),
    ("maxFeePerGas", (defaultMaxFee node).map TxValue.int),
    ("maxPriorityFeePerGas", node.maxPriorityFee.map TxValue.int),
    ("chainId", node.chainId.map TxValue.int)]

/-- Whether a key gets its default: a dynamic fee transaction has no gas price, and the others
have no fees. -/
def getsDefault (dynamicFee : Bool) (transaction : TxDict) (key : String) : Bool :=
  !transaction.contains key &&
    !((dynamicFee && key == "gasPrice") || (!dynamicFee && dynamicFeeTxnParams.contains key))

/-- The loop over the defaults. -/
def collectDefaults (dynamicFee : Bool) (transaction : TxDict) :
    List (String × Except SendError TxValue) → TxDict → Except SendError TxDict
  | [], defaults => .ok defaults
  | (key, getter) :: rest, defaults =>
      if getsDefault dynamicFee transaction key = true then
        match getter with
        | .error raised => .error raised
        | .ok value => collectDefaults dynamicFee transaction rest (defaults.set key value)
      else
        collectDefaults dynamicFee transaction rest defaults

/-- {lit}`is_dynamic_fee_transaction`. -/
def isDynamicFee (strategyPrice : Int) (transaction : TxDict) : Bool :=
  decide (strategyPrice = 0) &&
    (!transaction.contains "gasPrice" || dynamicFeeTxnParams.any transaction.contains)

/-- {lit}`fill_transaction_defaults`. -/
def fillTransactionDefaults (transaction : TxDict) : Except SendError TxDict := do
  let strategyPrice ← strategy .first transaction
  let defaults ← collectDefaults (isDynamicFee strategyPrice transaction) transaction
    (transactionDefaults node strategy transaction) Dict.empty
  pure (defaults.update transaction)

end Defaults

/-! ## Contract transactions -/

/-- A bound contract function or constructor, with its encoded data. -/
inductive ContractFunction where
  | function (address : Option String) (payable : Option Bool) (data : String)
  | constructor (data : String)
  deriving DecidableEq

/-- {lit}`validate_payable`. -/
def validatePayable (payable : Option Bool) (transaction : TxDict) : Except SendError Unit :=
  match transaction.get? "value" with
  | some value =>
      if value ≠ .int 0 ∧ payable = some false then
        .error (.validationError ("Sending non-zero ether to a contract function with " ++
          "payable=False. Please ensure that transaction's value is 0."))
      else
        .ok ()
  | none => .ok ()

/-- {lit}`check_forbidden_keys_in_transaction` of a constructor. -/
def checkForbiddenKeys (transaction : TxDict) : Except SendError Unit :=
  match ["data", "to"].filter transaction.contains with
  | [] => .ok ()
  | keysFound =>
      .error (.valueError ("Cannot set '" ++ ", ".intercalate keysFound ++
        "' field(s) in transaction"))

section Build

variable (node : Node) (strategy : PriceStrategy)

/-- {lit}`estimateGas` of a contract function or constructor. -/
def ContractFunction.estimateGas (contractFunction : ContractFunction) (payload : TxDict) :
    Except SendError Int :=
  match contractFunction with
  | .constructor data => do
      checkForbiddenKeys payload
      node.estimateGas (payload.set "data" (.str data))
  | .function address payable data =>
      if payload.contains "data" then
        .error (.valueError "Cannot set 'data' field in estimateGas transaction")
      else if payload.contains "to" then
        .error (.valueError "Cannot set to in estimateGas transaction")
      else
        match address with
        | none => .error (.valueError "Please ensure that this contract instance has an address.")
        | some address => do
            validatePayable payable payload
            node.estimateGas ((payload.set "to" (.str address)).set "data" (.str data))

/-- {lit}`buildTransaction` of a contract function or constructor. -/
def ContractFunction.buildTransaction (contractFunction : ContractFunction) (payload : TxDict) :
    Except SendError TxDict :=
  match contractFunction with
  | .constructor data => do
      checkForbiddenKeys payload
      fillTransactionDefaults node strategy ((payload.set "data" (.str data)).set "to" (.bytes []))
  | .function address payable data =>
      if payload.contains "data" then
        .error (.valueError "Cannot set 'data' field in build transaction")
      else
        match address with
        | none =>
            if payload.contains "to" then do
              validatePayable payable payload
              fillTransactionDefaults node strategy (payload.set "data" (.str data))
            else
              .error (.valueError ("When using `ContractFunction.buildTransaction` from a " ++
                "contract factory you must provide a `to` address with the transaction"))
        | some address =>
            if payload.contains "to" then
              .error (.valueError "Cannot set 'to' field in contract call build transaction")
            else do
              let transaction := payload.set "to" (.str address)
              validatePayable payable transaction
              fillTransactionDefaults node strategy (transaction.set "data" (.str data))

end Build

/-! ## What a built transaction holds -/

section Keeps

variable {node : Node} {strategy : PriceStrategy}

theorem bind_eq_ok {α β : Type} {first : Except SendError α} {next : α → Except SendError β}
    {result : β} :
    (first >>= next) = .ok result ↔ ∃ value, first = .ok value ∧ next value = .ok result := by
  cases first with
  | error raised => simp [bind, Except.bind]
  | ok value => simp [bind, Except.bind]

/-- A default that was collected comes from the list. -/
theorem get?_collectDefaults {dynamicFee : Bool} {transaction : TxDict}
    {getters : List (String × Except SendError TxValue)} {before after : TxDict}
    (h : collectDefaults dynamicFee transaction getters before = .ok after)
    {key : String} {value : TxValue} (hkey : after.get? key = some value) :
    before.get? key = some value ∨ (key, .ok value) ∈ getters := by
  induction getters generalizing before with
  | nil =>
      cases h
      exact .inl hkey
  | cons entry rest ih =>
      rcases entry with ⟨name, getter⟩
      unfold collectDefaults at h
      by_cases hgets : getsDefault dynamicFee transaction name = true
      · rw [if_pos hgets] at h
        cases getter with
        | error raised => cases h
        | ok default =>
            rcases ih h with hset | hrest
            · rw [Dict.get?_set] at hset
              by_cases hname : key = name
              · rw [if_pos hname] at hset
                rw [hname, ← Option.some.inj hset]
                exact .inr List.mem_cons_self
              · rw [if_neg hname] at hset
                exact .inl hset
            · exact .inr (List.mem_cons_of_mem _ hrest)
      · rw [if_neg hgets] at h
        rcases ih h with hbefore | hrest
        · exact .inl hbefore
        · exact .inr (List.mem_cons_of_mem _ hrest)

/-- A transaction that was filled in is the defaults, overwritten by what it had. -/
theorem fillTransactionDefaults_eq_ok {transaction filled : TxDict}
    (h : fillTransactionDefaults node strategy transaction = .ok filled) :
    ∃ dynamicFee defaults,
      collectDefaults dynamicFee transaction (transactionDefaults node strategy transaction)
        Dict.empty = .ok defaults ∧
      filled = defaults.update transaction := by
  unfold fillTransactionDefaults at h
  rcases bind_eq_ok.mp h with ⟨strategyPrice, -, hrest⟩
  rcases bind_eq_ok.mp hrest with ⟨defaults, hdefaults, hfilled⟩
  cases hfilled
  exact ⟨_, defaults, hdefaults, rfl⟩

theorem get?_fillTransactionDefaults {transaction filled : TxDict}
    (h : fillTransactionDefaults node strategy transaction = .ok filled)
    {key : String} {value : TxValue} (hkey : transaction.get? key = some value) :
    filled.get? key = some value := by
  rcases fillTransactionDefaults_eq_ok h with ⟨_, defaults, -, rfl⟩
  rw [Dict.get?_update, hkey]
  rfl

/-- A gas price that was filled in is the answer of the strategy, or of the node when the
strategy has none. -/
theorem fillTransactionDefaults_gasPrice {transaction filled : TxDict}
    (h : fillTransactionDefaults node strategy transaction = .ok filled)
    (hmissing : transaction.get? "gasPrice" = none) {value : TxValue}
    (hprice : filled.get? "gasPrice" = some value) :
    ∃ price, value = .int price ∧ (strategy .default transaction = .ok price ∨
      strategy .default transaction = .ok 0 ∧ node.gasPrice .defaultGasPrice = .ok price) := by
  rcases fillTransactionDefaults_eq_ok h with ⟨_, defaults, hdefaults, rfl⟩
  rw [Dict.get?_update, hmissing, Option.none_or] at hprice
  have hmem : ("gasPrice", Except.ok value) ∈ transactionDefaults node strategy transaction := by
    rcases get?_collectDefaults hdefaults hprice with hempty | hmem
    · simp at hempty
    · exact hmem
  have hvalue : (defaultGasPrice node strategy transaction).map TxValue.int = .ok value := by
    simp [transactionDefaults] at hmem
    exact hmem.symm
  cases hdefault : defaultGasPrice node strategy transaction with
  | error raised =>
      rw [hdefault] at hvalue
      cases hvalue
  | ok price =>
      rw [hdefault] at hvalue
      cases hvalue
      refine ⟨price, rfl, ?_⟩
      rcases bind_eq_ok.mp hdefault with ⟨answer, hanswer, hrest⟩
      by_cases hzero : answer = 0
      · rw [if_pos hzero] at hrest
        rw [hzero] at hanswer
        exact .inr ⟨hanswer, hrest⟩
      · rw [if_neg hzero] at hrest
        cases hrest
        exact .inl hanswer

/-- What is filled in extends the payload, apart from where the transaction goes and its
data. -/
theorem buildTransaction_eq_ok {contractFunction : ContractFunction} {payload built : TxDict}
    (h : contractFunction.buildTransaction node strategy payload = .ok built) :
    ∃ transaction, fillTransactionDefaults node strategy transaction = .ok built ∧
      ∀ key, key ≠ "to" → key ≠ "data" → transaction.get? key = payload.get? key := by
  cases contractFunction with
  | constructor data =>
      rcases bind_eq_ok.mp h with ⟨-, -, hfill⟩
      refine ⟨_, hfill, ?_⟩
      intro key hto hdata
      rw [Dict.get?_set, if_neg hto, Dict.get?_set, if_neg hdata]
  | function address payable data =>
      simp only [ContractFunction.buildTransaction] at h
      by_cases hcontains : payload.contains "data" = true
      · rw [if_pos hcontains] at h
        cases h
      rw [if_neg hcontains] at h
      cases address with
      | none =>
          by_cases hto : payload.contains "to" = true
          · rw [if_pos hto] at h
            rcases bind_eq_ok.mp h with ⟨-, -, hfill⟩
            refine ⟨_, hfill, ?_⟩
            intro key _ hdata
            rw [Dict.get?_set, if_neg hdata]
          · rw [if_neg hto] at h
            cases h
      | some address =>
          simp only at h
          by_cases hto : payload.contains "to" = true
          · rw [if_pos hto] at h
            cases h
          · rw [if_neg hto] at h
            rcases bind_eq_ok.mp h with ⟨-, -, hfill⟩
            refine ⟨_, hfill, ?_⟩
            intro key hkey hdata
            rw [Dict.get?_set, if_neg hdata, Dict.get?_set, if_neg hkey]

/-- What the payload has, the built transaction has. -/
theorem buildTransaction_keeps {contractFunction : ContractFunction} {payload built : TxDict}
    (h : contractFunction.buildTransaction node strategy payload = .ok built)
    {key : String} {value : TxValue} (hto : key ≠ "to") (hdata : key ≠ "data")
    (hkey : payload.get? key = some value) :
    built.get? key = some value := by
  rcases buildTransaction_eq_ok h with ⟨transaction, hfill, hsame⟩
  apply get?_fillTransactionDefaults hfill
  rw [hsame key hto hdata, hkey]

end Keeps

end Interface

end NuLink
