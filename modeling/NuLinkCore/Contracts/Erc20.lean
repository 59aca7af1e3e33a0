import NuLinkCore.Contracts.Evm
import NuLinkCore.Lib.FixedWidth
import NuLinkCore.Lib.Ledger

/-!
# The token contract

The contract {lit}`ERC20` keeps the balances of all accounts, what owners allow spenders to
draw, and the number of tokens in existence.  All arithmetic is checked: a call in which an
operation leaves its type reverts and changes nothing.  The internal functions that create and
destroy tokens are reached through contracts that inherit from it.

Every call emits events.  A listener that knows nothing but the events adds and subtracts
without any checks.

Main results:

- Theorem {lit}`Erc20.run_accounts_sound`: in every state of every run the balances add up to the
  tokens in existence, and the listener has the same tables as the contract.
- Theorem {lit}`Erc20.run_accepts_iff`: exactly when a call goes through; an addition to a balance
  never leaves its type.
-/

namespace NuLink

open Evm FixedWidth Ledger

/-! ## State -/

inductive Erc20Event (Address : Type) where
  | transfer (src dst : Address) (value : BitVec 256)
  | approval (owner spender : Address) (value : BitVec 256)
deriving DecidableEq

/-- The tables of the contract. -/
structure Erc20Tables (Address : Type) where
  balances : Address → BitVec 256
  allowed : Address → Address → BitVec 256
  totalSupply : BitVec 256

/-- The contract, with the events that it has emitted. -/
structure Erc20 (Address : Type) extends Erc20Tables Address where
  log : List (Erc20Event Address)

/-- The functions of the contract, the internal ones that move tokens included. -/
inductive Erc20Call (Address : Type) where
  | transfer (dst : Address) (value : BitVec 256)
  | approve (spender : Address) (value : BitVec 256)
  | transferFrom (src dst : Address) (value : BitVec 256)
  | increaseAllowance (spender : Address) (addedValue : BitVec 256)
  | decreaseAllowance (spender : Address) (subtractedValue : BitVec 256)
  | mint (account : Address) (value : BitVec 256)
  | burn (account : Address) (value : BitVec 256)
  | burnFrom (account : Address) (value : BitVec 256)
deriving DecidableEq

structure Erc20Message (Address : Type) where
  sender : Address
  call : Erc20Call Address

namespace Erc20Tables

variable {Address : Type} [DecidableEq Address]

def empty : Erc20Tables Address := ⟨fun _ => 0, fun _ _ => 0, 0⟩

def setBalance (tables : Erc20Tables Address) (account : Address) (value : BitVec 256) :
    Erc20Tables Address :=
  { tables with balances := Function.update tables.balances account value }

def setAllowed (tables : Erc20Tables Address) (owner spender : Address) (value : BitVec 256) :
    Erc20Tables Address :=
  { tables with allowed :=
      Function.update tables.allowed owner (Function.update (tables.allowed owner) spender value) }

variable [Zero Address]

/-- Tokens leave an account; leaving the zero address, they are created. -/
def withdraw (tables : Erc20Tables Address) (account : Address)
    (value : BitVec 256) : Erc20Tables Address :=
  if account = 0 then { tables with totalSupply := tables.totalSupply + value }
  else tables.setBalance account (tables.balances account - value)

/-- Tokens come to an account; coming to the zero address, they are destroyed. -/
def deposit (tables : Erc20Tables Address) (account : Address)
    (value : BitVec 256) : Erc20Tables Address :=
  if account = 0 then { tables with totalSupply := tables.totalSupply - value }
  else tables.setBalance account (tables.balances account + value)

/-- What a listener makes of an event. -/
def observe (tables : Erc20Tables Address) : Erc20Event Address → Erc20Tables Address
  | .transfer src dst value => (tables.withdraw src value).deposit dst value
  | .approval owner spender value => tables.setAllowed owner spender value

end Erc20Tables

namespace Erc20

variable {Address : Type} [DecidableEq Address] [Zero Address]

/-! ## The functions -/

def emit (token : Erc20 Address) (event : Erc20Event Address) : Erc20 Address :=
  { token with log := token.log ++ [event] }

def setBalance (token : Erc20 Address) (account : Address) (value : BitVec 256) :
    Erc20 Address :=
  { token with toErc20Tables := token.toErc20Tables.setBalance account value }

/-- {lit}`_transfer`. -/
def internalTransfer (token : Erc20 Address) (src dst : Address) (value : BitVec 256) :
    Option (Erc20 Address) := do
  require (dst ≠ 0)
  let reduced ← subChecked (token.balances src) value
  let token := token.setBalance src reduced
  let increased ← addChecked (token.balances dst) value
  return (token.setBalance dst increased).emit (.transfer src dst value)

/-- {lit}`_mint`. -/
def internalMint (token : Erc20 Address) (account : Address) (value : BitVec 256) :
    Option (Erc20 Address) := do
  require (account ≠ 0)
  let supply ← addChecked token.totalSupply value
  let increased ← addChecked (token.balances account) value
  return ({ token with totalSupply := supply }.setBalance account increased).emit
    (.transfer 0 account value)

/-- {lit}`_burn`. -/
def internalBurn (token : Erc20 Address) (account : Address) (value : BitVec 256) :
    Option (Erc20 Address) := do
  require (account ≠ 0)
  let supply ← subChecked token.totalSupply value
  let reduced ← subChecked (token.balances account) value
  return ({ token with totalSupply := supply }.setBalance account reduced).emit
    (.transfer account 0 value)

/-- {lit}`_approve`. -/
def internalApprove (token : Erc20 Address) (owner spender : Address) (value : BitVec 256) :
    Option (Erc20 Address) := do
  require (spender ≠ 0)
  require (owner ≠ 0)
  return { token with toErc20Tables := token.toErc20Tables.setAllowed owner spender value }.emit
    (.approval owner spender value)

def transfer (token : Erc20 Address) (sender dst : Address) (value : BitVec 256) :
    Option (Erc20 Address) :=
  token.internalTransfer sender dst value

def approve (token : Erc20 Address) (sender spender : Address) (value : BitVec 256) :
    Option (Erc20 Address) := do
  require (value = 0 ∨ token.allowed sender spender = 0)
  token.internalApprove sender spender value

/-- {lit}`transferFrom`: the allowance is reduced after the tokens have moved. -/
def transferFrom (token : Erc20 Address) (sender src dst : Address) (value : BitVec 256) :
    Option (Erc20 Address) := do
  let token ← token.internalTransfer src dst value
  let remaining ← subChecked (token.allowed src sender) value
  token.internalApprove src sender remaining

def increaseAllowance (token : Erc20 Address) (sender spender : Address)
    (addedValue : BitVec 256) : Option (Erc20 Address) := do
  let increased ← addChecked (token.allowed sender spender) addedValue
  token.internalApprove sender spender increased

def decreaseAllowance (token : Erc20 Address) (sender spender : Address)
    (subtractedValue : BitVec 256) : Option (Erc20 Address) := do
  let decreased ← subChecked (token.allowed sender spender) subtractedValue
  token.internalApprove sender spender decreased

/-- {lit}`_burnFrom`. -/
def internalBurnFrom (token : Erc20 Address) (sender account : Address) (value : BitVec 256) :
    Option (Erc20 Address) := do
  let token ← token.internalBurn account value
  let remaining ← subChecked (token.allowed account sender) value
  token.internalApprove account sender remaining

/-- A call; there is no result when it reverts. -/
def call (token : Erc20 Address) (message : Erc20Message Address) : Option (Erc20 Address) :=
  match message.call with
  | .transfer dst value => token.transfer message.sender dst value
  | .approve spender value => token.approve message.sender spender value
  | .transferFrom src dst value => token.transferFrom message.sender src dst value
  | .increaseAllowance spender value => token.increaseAllowance message.sender spender value
  | .decreaseAllowance spender value => token.decreaseAllowance message.sender spender value
  | .mint account value => token.internalMint account value
  | .burn account value => token.internalBurn account value
  | .burnFrom account value => token.internalBurnFrom message.sender account value

/-- The contract after a message: a call that reverts changes nothing. -/
def transact (token : Erc20 Address) (message : Erc20Message Address) : Erc20 Address :=
  (token.call message).getD token

/-- The contract when it is deployed. -/
def deployed : Erc20 Address := ⟨Erc20Tables.empty, []⟩

/-- The contract after a sequence of messages. -/
def run (messages : List (Erc20Message Address)) : Erc20 Address :=
  messages.foldl transact deployed

/-! ## What the internal functions do -/

/-- The contract after tokens have moved. -/
def moved (token : Erc20 Address) (src dst : Address) (value : BitVec 256) : Erc20 Address :=
  let paid := token.setBalance src (token.balances src - value)
  (paid.setBalance dst (paid.balances dst + value)).emit (.transfer src dst value)

/-- The contract after tokens were created. -/
def minted (token : Erc20 Address) (account : Address) (value : BitVec 256) : Erc20 Address :=
  ({ token with totalSupply := token.totalSupply + value }.setBalance account
    (token.balances account + value)).emit (.transfer 0 account value)

/-- The contract after tokens were destroyed. -/
def burnt (token : Erc20 Address) (account : Address) (value : BitVec 256) : Erc20 Address :=
  ({ token with totalSupply := token.totalSupply - value }.setBalance account
    (token.balances account - value)).emit (.transfer account 0 value)

/-- The contract after an allowance was set. -/
def approved (token : Erc20 Address) (owner spender : Address) (value : BitVec 256) :
    Erc20 Address :=
  { token with toErc20Tables := token.toErc20Tables.setAllowed owner spender value }.emit
    (.approval owner spender value)

/-- The tokens can be taken from one account and added to the other. -/
def Movable (token : Erc20 Address) (src dst : Address) (value : BitVec 256) : Prop :=
  value.toNat ≤ (token.balances src).toNat ∧
    ((token.setBalance src (token.balances src - value)).balances dst).toNat + value.toNat < 2 ^ 256

theorem internalTransfer_eq_some_iff {token token' : Erc20 Address} {src dst : Address}
    {value : BitVec 256} :
    token.internalTransfer src dst value = some token' ↔
      dst ≠ 0 ∧ token.Movable src dst value ∧ token.moved src dst value = token' := by
  simp [internalTransfer, Movable, moved, Option.bind_eq_some_iff, require_eq_some,
    subChecked_eq_some_iff, addChecked_eq_some_iff, and_assoc]

theorem internalMint_eq_some_iff {token token' : Erc20 Address} {account : Address}
    {value : BitVec 256} :
    token.internalMint account value = some token' ↔
      account ≠ 0 ∧ token.totalSupply.toNat + value.toNat < 2 ^ 256 ∧
        (token.balances account).toNat + value.toNat < 2 ^ 256 ∧
        token.minted account value = token' := by
  simp [internalMint, minted, Option.bind_eq_some_iff, require_eq_some,
    addChecked_eq_some_iff, and_assoc]

theorem internalBurn_eq_some_iff {token token' : Erc20 Address} {account : Address}
    {value : BitVec 256} :
    token.internalBurn account value = some token' ↔
      account ≠ 0 ∧ value.toNat ≤ token.totalSupply.toNat ∧
        value.toNat ≤ (token.balances account).toNat ∧ token.burnt account value = token' := by
  simp [internalBurn, burnt, Option.bind_eq_some_iff, require_eq_some,
    subChecked_eq_some_iff, and_assoc]

theorem internalApprove_eq_some_iff {token token' : Erc20 Address} {owner spender : Address}
    {value : BitVec 256} :
    token.internalApprove owner spender value = some token' ↔
      spender ≠ 0 ∧ owner ≠ 0 ∧ token.approved owner spender value = token' := by
  simp [internalApprove, approved, Option.bind_eq_some_iff, require_eq_some]

/-! ## What a call does -/

/-- A call goes through: what it requires holds, and no operation leaves its type. -/
def Accepts (token : Erc20 Address) (message : Erc20Message Address) : Prop :=
  match message.call with
  | .transfer dst value => dst ≠ 0 ∧ token.Movable message.sender dst value
  | .approve spender value =>
      (value = 0 ∨ token.allowed message.sender spender = 0) ∧ spender ≠ 0 ∧ message.sender ≠ 0
  | .transferFrom src dst value =>
      dst ≠ 0 ∧ token.Movable src dst value ∧
        value.toNat ≤ (token.allowed src message.sender).toNat ∧ message.sender ≠ 0 ∧ src ≠ 0
  | .increaseAllowance spender value =>
      (token.allowed message.sender spender).toNat + value.toNat < 2 ^ 256 ∧ spender ≠ 0 ∧
        message.sender ≠ 0
  | .decreaseAllowance spender value =>
      value.toNat ≤ (token.allowed message.sender spender).toNat ∧ spender ≠ 0 ∧
        message.sender ≠ 0
  | .mint account value =>
      account ≠ 0 ∧ token.totalSupply.toNat + value.toNat < 2 ^ 256 ∧
        (token.balances account).toNat + value.toNat < 2 ^ 256
  | .burn account value =>
      account ≠ 0 ∧ value.toNat ≤ token.totalSupply.toNat ∧
        value.toNat ≤ (token.balances account).toNat
  | .burnFrom account value =>
      account ≠ 0 ∧ value.toNat ≤ token.totalSupply.toNat ∧
        value.toNat ≤ (token.balances account).toNat ∧
        value.toNat ≤ (token.allowed account message.sender).toNat ∧ message.sender ≠ 0

/-- The contract after a call that goes through. -/
def after (token : Erc20 Address) (message : Erc20Message Address) : Erc20 Address :=
  match message.call with
  | .transfer dst value => token.moved message.sender dst value
  | .approve spender value => token.approved message.sender spender value
  | .transferFrom src dst value =>
      (token.moved src dst value).approved src message.sender
        (token.allowed src message.sender - value)
  | .increaseAllowance spender value =>
      token.approved message.sender spender (token.allowed message.sender spender + value)
  | .decreaseAllowance spender value =>
      token.approved message.sender spender (token.allowed message.sender spender - value)
  | .mint account value => token.minted account value
  | .burn account value => token.burnt account value
  | .burnFrom account value =>
      (token.burnt account value).approved account message.sender
        (token.allowed account message.sender - value)

omit [Zero Address] in
@[simp]
theorem moved_allowed (token : Erc20 Address) (src dst : Address) (value : BitVec 256) :
    (token.moved src dst value).allowed = token.allowed := rfl

@[simp]
theorem burnt_allowed (token : Erc20 Address) (account : Address) (value : BitVec 256) :
    (token.burnt account value).allowed = token.allowed := rfl

theorem call_eq_some_iff {token token' : Erc20 Address} {message : Erc20Message Address} :
    token.call message = some token' ↔
      token.Accepts message ∧ token.after message = token' := by
  rcases message with ⟨sender, call⟩
  cases call with
  | transfer dst value =>
      simp [Erc20.call, transfer, internalTransfer_eq_some_iff, Accepts, after, and_assoc]
  | approve spender value =>
      simp [Erc20.call, approve, Option.bind_eq_some_iff, internalApprove_eq_some_iff, Accepts,
        after, and_assoc]
  | transferFrom src dst value =>
      simp [Erc20.call, transferFrom, Option.bind_eq_some_iff, internalTransfer_eq_some_iff,
        subChecked_eq_some_iff, internalApprove_eq_some_iff, Accepts, after, and_assoc]
  | increaseAllowance spender value =>
      simp [Erc20.call, increaseAllowance, Option.bind_eq_some_iff, addChecked_eq_some_iff,
        internalApprove_eq_some_iff, Accepts, after, and_assoc]
  | decreaseAllowance spender value =>
      simp [Erc20.call, decreaseAllowance, Option.bind_eq_some_iff, subChecked_eq_some_iff,
        internalApprove_eq_some_iff, Accepts, after, and_assoc]
  | mint account value =>
      simp [Erc20.call, internalMint_eq_some_iff, Accepts, after, and_assoc]
  | burn account value =>
      simp [Erc20.call, internalBurn_eq_some_iff, Accepts, after, and_assoc]
  | burnFrom account value =>
      simp [Erc20.call, internalBurnFrom, Option.bind_eq_some_iff, internalBurn_eq_some_iff,
        subChecked_eq_some_iff, internalApprove_eq_some_iff, Accepts, after, and_assoc]
      tauto

/-! ## The listener -/

/-- The tables of a listener that has heard all events. -/
def listen (log : List (Erc20Event Address)) : Erc20Tables Address :=
  log.foldl Erc20Tables.observe Erc20Tables.empty

/-- A message that goes through has its effect, and any other has none. -/
theorem transact_cases (token : Erc20 Address) (message : Erc20Message Address) :
    (token.Accepts message ∧ token.transact message = token.after message) ∨
      (¬ token.Accepts message ∧ token.transact message = token) := by
  cases hcall : token.call message with
  | some token' =>
      rcases call_eq_some_iff.mp hcall with ⟨haccepts, hafter⟩
      left
      rw [transact, hcall, hafter]
      exact ⟨haccepts, rfl⟩
  | none =>
      right
      refine ⟨fun haccepts => ?_, by rw [transact, hcall]; rfl⟩
      rw [call_eq_some_iff.mpr ⟨haccepts, rfl⟩] at hcall
      cases hcall

/-! ## The invariant -/

/-- What the accounts hold. -/
def held (token : Erc20 Address) (account : Address) : Nat := (token.balances account).toNat

/-- The balances add up to the tokens in existence, nothing is held by the zero address, and
the events tell everything. -/
structure Sound [Fintype Address] (token : Erc20 Address) : Prop where
  conserved : total token.held = token.totalSupply.toNat
  unheld : token.balances 0 = 0
  told : token.toErc20Tables = listen token.log

omit [Zero Address] in
theorem held_setBalance (token : Erc20 Address) (account : Address) (value : BitVec 256) :
    (token.setBalance account value).held = Function.update token.held account value.toNat := by
  funext other
  simp only [held, setBalance, Erc20Tables.setBalance, Function.update_apply]
  split <;> rfl

theorem listen_append (log : List (Erc20Event Address)) (event : Erc20Event Address) :
    listen (log ++ [event]) = (listen log).observe event := by
  rw [listen, List.foldl_append]
  rfl

theorem observe_moved {token : Erc20 Address} (hunheld : token.balances 0 = 0) {src dst : Address}
    {value : BitVec 256} (hdst : dst ≠ 0) (hmovable : token.Movable src dst value) :
    (token.moved src dst value).toErc20Tables =
      token.toErc20Tables.observe (.transfer src dst value) := by
  by_cases hsrc : src = 0
  · -- The zero address can only send nothing.
    have hvalue : value = 0 := by
      have hle := hmovable.1
      rw [hsrc, hunheld] at hle
      exact BitVec.eq_of_toNat_eq (by simpa using hle)
    subst hsrc hvalue
    simp [moved, setBalance, emit, Erc20Tables.observe, Erc20Tables.withdraw,
      Erc20Tables.deposit, Erc20Tables.setBalance, hdst]
  · simp [moved, setBalance, emit, Erc20Tables.observe, Erc20Tables.withdraw,
      Erc20Tables.deposit, Erc20Tables.setBalance, hdst, hsrc]

theorem observe_minted (token : Erc20 Address) {account : Address} (value : BitVec 256)
    (haccount : account ≠ 0) : (token.minted account value).toErc20Tables =
      token.toErc20Tables.observe (.transfer 0 account value) := by
  simp [minted, setBalance, emit, Erc20Tables.observe, Erc20Tables.withdraw,
    Erc20Tables.deposit, Erc20Tables.setBalance, haccount]

theorem observe_burnt (token : Erc20 Address) {account : Address} (value : BitVec 256)
    (haccount : account ≠ 0) : (token.burnt account value).toErc20Tables =
      token.toErc20Tables.observe (.transfer account 0 value) := by
  simp [burnt, setBalance, emit, Erc20Tables.observe, Erc20Tables.withdraw,
    Erc20Tables.deposit, Erc20Tables.setBalance, haccount]

section Invariant

variable [Fintype Address] {token : Erc20 Address}

theorem sound_deployed : (deployed : Erc20 Address).Sound where
  conserved := by simp [total, held, deployed, Erc20Tables.empty]
  unheld := rfl
  told := rfl

/-- An addition to a balance that is covered by another one stays in its type. -/
theorem Sound.movable_iff (h : token.Sound) {src dst : Address} {value : BitVec 256} :
    token.Movable src dst value ↔ value.toNat ≤ (token.balances src).toNat := by
  refine ⟨And.left, fun hle => ⟨hle, ?_⟩⟩
  have hsupply : total token.held < 2 ^ 256 := h.conserved ▸ token.totalSupply.isLt
  have hreduced : (token.balances src - value).toNat = (token.balances src).toNat - value.toNat :=
    BitVec.toNat_sub_of_le (BitVec.le_def.mpr hle)
  by_cases hsame : dst = src
  · have hown := le_total token.held src
    rw [held] at hown
    simp only [setBalance, Erc20Tables.setBalance, hsame, Function.update_self, hreduced]
    omega
  · have hboth := add_le_total token.held hsame
    rw [held, held] at hboth
    simp only [setBalance, Erc20Tables.setBalance, Function.update_of_ne hsame]
    omega

theorem Sound.moved (h : token.Sound) {src dst : Address} {value : BitVec 256} (hdst : dst ≠ 0)
    (hle : value.toNat ≤ (token.balances src).toNat) : (token.moved src dst value).Sound := by
  have hmovable : token.Movable src dst value := h.movable_iff.mpr hle
  have hreduced : (token.balances src - value).toNat = token.held src - value.toNat :=
    BitVec.toNat_sub_of_le (BitVec.le_def.mpr hle)
  refine ⟨?_, ?_, ?_⟩
  · have hpaid := total_update token.held src (token.held src - value.toNat)
    have hincreased := total_update (token.setBalance src (token.balances src - value)).held dst
      ((token.setBalance src (token.balances src - value)).held dst + value.toNat)
    have hsum : ((token.setBalance src (token.balances src - value)).balances dst + value).toNat =
        (token.setBalance src (token.balances src - value)).held dst + value.toNat :=
      BitVec.toNat_add_of_lt hmovable.2
    have hafter : (token.moved src dst value).held = Function.update
        (token.setBalance src (token.balances src - value)).held dst
          ((token.setBalance src (token.balances src - value)).held dst + value.toNat) := by
      rw [← hsum, ← held_setBalance]
      rfl
    have hconserved := h.conserved
    have hsupply : (token.moved src dst value).totalSupply = token.totalSupply := rfl
    rw [hsupply, hafter]
    rw [held_setBalance, hreduced] at hincreased ⊢
    have hle' : value.toNat ≤ token.held src := hle
    omega
  · -- The zero address does not receive, and can only send nothing.
    have hzero : (token.setBalance src (token.balances src - value)).balances 0 = 0 := by
      by_cases hsrc : 0 = src
      · subst hsrc
        rw [h.unheld] at hle
        have hvalue : value = 0 := BitVec.eq_of_toNat_eq (by simpa using hle)
        simp [setBalance, Erc20Tables.setBalance, hvalue, h.unheld]
      · simp [setBalance, Erc20Tables.setBalance, Function.update_of_ne hsrc, h.unheld]
    simp only [Erc20.moved, emit]
    rw [setBalance, Erc20Tables.setBalance]
    simp only [Function.update_of_ne hdst.symm, hzero]
  · rw [observe_moved h.unheld hdst hmovable, h.told]
    exact (listen_append token.log _).symm

theorem Sound.minted (h : token.Sound) {account : Address} {value : BitVec 256}
    (haccount : account ≠ 0) (hfits : token.totalSupply.toNat + value.toNat < 2 ^ 256) :
    (token.minted account value).Sound := by
  have hown := le_total token.held account
  have hconserved := h.conserved
  have hsum : (token.balances account + value).toNat = token.held account + value.toNat :=
    BitVec.toNat_add_of_lt (by rw [held] at hown; omega)
  refine ⟨?_, ?_, ?_⟩
  · have hheld : (token.minted account value).held =
        Function.update token.held account (token.held account + value.toNat) := by
      rw [← hsum, ← held_setBalance]
      rfl
    have hsupply : (token.minted account value).totalSupply.toNat =
        token.totalSupply.toNat + value.toNat := BitVec.toNat_add_of_lt hfits
    have htotal := total_update token.held account (token.held account + value.toNat)
    rw [hheld, hsupply]
    omega
  · exact (Function.update_of_ne haccount.symm _ _).trans h.unheld
  · rw [observe_minted token value haccount, h.told]
    exact (listen_append token.log _).symm

theorem Sound.burnt (h : token.Sound) {account : Address} {value : BitVec 256}
    (haccount : account ≠ 0) (hle : value.toNat ≤ (token.balances account).toNat) :
    (token.burnt account value).Sound := by
  have hown := le_total token.held account
  have hconserved := h.conserved
  have hle' : value.toNat ≤ token.held account := hle
  have hreduced : (token.balances account - value).toNat = token.held account - value.toNat :=
    BitVec.toNat_sub_of_le (BitVec.le_def.mpr hle)
  refine ⟨?_, ?_, ?_⟩
  · have hheld : (token.burnt account value).held =
        Function.update token.held account (token.held account - value.toNat) := by
      rw [← hreduced, ← held_setBalance]
      rfl
    have hsupply : (token.burnt account value).totalSupply.toNat =
        token.totalSupply.toNat - value.toNat :=
      BitVec.toNat_sub_of_le (BitVec.le_def.mpr (by omega))
    have htotal := total_update token.held account (token.held account - value.toNat)
    rw [hheld, hsupply]
    omega
  · exact (Function.update_of_ne haccount.symm _ _).trans h.unheld
  · rw [observe_burnt token value haccount, h.told]
    exact (listen_append token.log _).symm

theorem Sound.approved (h : token.Sound) (owner spender : Address) (value : BitVec 256) :
    (token.approved owner spender value).Sound where
  conserved := h.conserved
  unheld := h.unheld
  told := by
    have htold : (token.approved owner spender value).toErc20Tables =
        token.toErc20Tables.observe (.approval owner spender value) := rfl
    rw [htold, h.told]
    exact (listen_append token.log _).symm

/-- Every message keeps the invariant. -/
theorem Sound.transact (h : token.Sound) (message : Erc20Message Address) :
    (token.transact message).Sound := by
  rcases transact_cases token message with ⟨haccepts, hafter⟩ | ⟨-, hsame⟩
  · rw [hafter]
    rcases message with ⟨sender, call⟩
    cases call with
    | transfer dst value => exact h.moved haccepts.1 haccepts.2.1
    | approve spender value => exact h.approved sender spender value
    | transferFrom src dst value => exact (h.moved haccepts.1 haccepts.2.1.1).approved _ _ _
    | increaseAllowance spender value => exact h.approved sender spender _
    | decreaseAllowance spender value => exact h.approved sender spender _
    | mint account value => exact h.minted haccepts.1 haccepts.2.1
    | burn account value => exact h.burnt haccepts.1 haccepts.2.2
    | burnFrom account value => exact (h.burnt haccepts.1 haccepts.2.2.1).approved _ _ _
  · rw [hsame]
    exact h

end Invariant

/-! ## Runs -/

/-- What is asked of a call: the right addresses, enough tokens and enough allowance.  Only an
allowance and the tokens in existence can become too large. -/
def Permitted (token : Erc20 Address) (message : Erc20Message Address) : Prop :=
  match message.call with
  | .transfer dst value => dst ≠ 0 ∧ value ≤ token.balances message.sender
  | .approve spender value =>
      (value = 0 ∨ token.allowed message.sender spender = 0) ∧ spender ≠ 0 ∧ message.sender ≠ 0
  | .transferFrom src dst value =>
      dst ≠ 0 ∧ value ≤ token.balances src ∧ value ≤ token.allowed src message.sender ∧
        message.sender ≠ 0 ∧ src ≠ 0
  | .increaseAllowance spender value =>
      (token.allowed message.sender spender).toNat + value.toNat < 2 ^ 256 ∧ spender ≠ 0 ∧
        message.sender ≠ 0
  | .decreaseAllowance spender value =>
      value ≤ token.allowed message.sender spender ∧ spender ≠ 0 ∧ message.sender ≠ 0
  | .mint account value => account ≠ 0 ∧ token.totalSupply.toNat + value.toNat < 2 ^ 256
  | .burn account value => account ≠ 0 ∧ value ≤ token.balances account
  | .burnFrom account value =>
      account ≠ 0 ∧ value ≤ token.balances account ∧
        value ≤ token.allowed account message.sender ∧ message.sender ≠ 0

section Runs

variable [Fintype Address]

/-- With balances that add up, no other check than the ones asked for can fail. -/
theorem Sound.accepts_iff {token : Erc20 Address} (h : token.Sound)
    (message : Erc20Message Address) : token.Accepts message ↔ token.Permitted message := by
  have hconserved := h.conserved
  rcases message with ⟨sender, call⟩
  cases call with
  | transfer dst value =>
      simp only [Accepts, Permitted, h.movable_iff, BitVec.le_def]
  | approve spender value => exact Iff.rfl
  | transferFrom src dst value =>
      simp only [Accepts, Permitted, h.movable_iff, BitVec.le_def]
  | increaseAllowance spender value => exact Iff.rfl
  | decreaseAllowance spender value => simp only [Accepts, Permitted, BitVec.le_def]
  | mint account value =>
      have hown := le_total token.held account
      rw [held] at hown
      refine and_congr_right fun _ => ⟨And.left, fun hfits => ⟨hfits, by omega⟩⟩
  | burn account value =>
      have hown := le_total token.held account
      rw [held] at hown
      refine and_congr_right fun _ => ?_
      rw [BitVec.le_def]
      exact ⟨And.right, fun hle => ⟨by omega, hle⟩⟩
  | burnFrom account value =>
      have hown := le_total token.held account
      rw [held] at hown
      refine and_congr_right fun _ => ?_
      rw [BitVec.le_def, BitVec.le_def]
      exact ⟨And.right, fun hle => ⟨by omega, hle⟩⟩

theorem sound_foldl {token : Erc20 Address} (h : token.Sound)
    (messages : List (Erc20Message Address)) : (messages.foldl transact token).Sound := by
  induction messages generalizing token with
  | nil => exact h
  | cons message messages ih => exact ih (h.transact message)

/-- After every sequence of messages the balances add up to the tokens in existence, nothing is
held by the zero address, and a listener has the tables of the contract. -/
theorem run_accounts_sound (messages : List (Erc20Message Address)) : (run messages).Sound :=
  sound_foldl sound_deployed messages

/-- After every sequence of messages a call goes through exactly when what is asked of it holds. -/
theorem run_accepts_iff (messages : List (Erc20Message Address)) (message : Erc20Message Address) :
    ((run messages).call message).isSome = true ↔ (run messages).Permitted message := by
  have hsound : (run messages).Sound := sound_foldl sound_deployed messages
  rw [← hsound.accepts_iff, Option.isSome_iff_exists]
  exact ⟨fun ⟨_, hcall⟩ => (call_eq_some_iff.mp hcall).1,
    fun haccepts => ⟨_, call_eq_some_iff.mpr ⟨haccepts, rfl⟩⟩⟩

end Runs

end Erc20

end NuLink
