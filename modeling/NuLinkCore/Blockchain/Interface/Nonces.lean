import NuLinkCore.Blockchain.Interface.Send

/-!
# Nonces

An account has mined transactions and pending ones, whose nonces follow on each other.  Calls of
{lit}`send_transaction` come between blocks that mine some of the pending transactions, and a
broadcast transaction takes the place of the pending one with its nonce.

Main results:

- Theorem {lit}`sendTransaction_nonce`: the nonce that is signed is the transaction count that
  the call asked the node for.
- Theorem {lit}`nonce_discipline_iff`: over a run, calls that do not replace sign with a fresh
  nonce, and calls that replace with the oldest pending one, exactly when no call that waits for
  its receipt was made while a transaction was pending.
-/

namespace NuLink

open Collections

namespace Interface

/-! ## The signed nonce -/

section Nonce

variable {Raw Hash : Type} {library : Library}

theorem buildPayload_nonce {client : Client Raw Hash} {senderAddress : String}
    {payload : Option TxDict} {transactionGasLimit : Option Int} {usePendingNonce : Bool}
    {built : TxDict}
    (h : buildPayload client senderAddress payload transactionGasLimit usePendingNonce =
      .ok built) :
    ∃ nonce, client.getTransactionCount usePendingNonce = .ok nonce ∧
      built.get? "nonce" = some (.int nonce) := by
  rcases bind_eq_ok.mp h with ⟨nonce, hnonce, hbuilt⟩
  refine ⟨nonce, hnonce, ?_⟩
  have hset : (((payload.getD Dict.empty).set "nonce" (.int nonce)).set "from"
      (.str senderAddress)).get? "nonce" = some (.int (nonce : Int)) := by
    rw [Dict.get?_set, if_neg (by decide), Dict.get?_set, if_pos rfl]
  cases transactionGasLimit with
  | none =>
      cases hbuilt
      exact hset
  | some limit =>
      by_cases hzero : limit = 0
      · simp only [hzero, if_true] at hbuilt
        cases hbuilt
        exact hset
      · simp only [hzero, if_false] at hbuilt
        cases hbuilt
        rw [Dict.get?_set, if_neg (by decide), hset]

theorem estimateGasOfPayload_keeps {client : Client Raw Hash}
    {contractFunction : ContractFunction} {payload estimated : TxDict}
    (h : estimateGasOfPayload client contractFunction payload = .ok estimated) {key : String}
    (hkey : key ≠ "gas") :
    estimated.get? key = payload.get? key := by
  unfold estimateGasOfPayload at h
  by_cases hgas : payload.contains "gas" = true
  · rw [if_pos hgas] at h
    cases h
    rfl
  · rw [if_neg hgas] at h
    rcases bind_eq_ok.mp h with ⟨gas, -, hset⟩
    cases hset
    rw [Dict.get?_set, if_neg hkey]

theorem overestimateGas_keeps {multiplier : Option ℚ} {transactionGasLimit : Option Int}
    {transaction raised : TxDict}
    (h : overestimateGas multiplier transactionGasLimit transaction = .ok raised) {key : String}
    (hkey : key ≠ "gas") :
    raised.get? key = transaction.get? key := by
  unfold overestimateGas at h
  cases multiplier with
  | none =>
      cases h
      rfl
  | some multiplier =>
      by_cases hlimit : transactionGasLimit.getD 0 = 0
      · simp only [hlimit, if_true] at h
        rcases bind_eq_ok.mp h with ⟨gas, -, hset⟩
        cases hset
        rw [Dict.get?_set, if_neg hkey]
      · simp only [hlimit, if_false] at h
        cases h
        rfl

theorem handleFailedTransaction_eq_ok {α : Type} {result : Except SendError α} {value : α} :
    handleFailedTransaction result = .ok value ↔ result = .ok value := by
  cases result with
  | ok value => rfl
  | error raised =>
      cases raised with
      | rpc code message =>
          by_cases hcode : code = -32000 <;> simp [handleFailedTransaction, hcode]
      | _ => simp [handleFailedTransaction]

variable {interface : BlockchainInterface library} {client : Client Raw Hash}

theorem buildContractTransaction_nonce {arguments : SendArguments} {usePendingNonce : Bool}
    {transaction : TxDict}
    (h : interface.buildContractTransaction client arguments usePendingNonce =
      .ok transaction) :
    ∃ nonce, client.getTransactionCount usePendingNonce = .ok nonce ∧
      transaction.get? "nonce" = some (.int nonce) := by
  rcases bind_eq_ok.mp h with ⟨-, -, hrest⟩
  rcases bind_eq_ok.mp hrest with ⟨payload, hpayload, hrest⟩
  rcases bind_eq_ok.mp hrest with ⟨built, hbuilt, hraised⟩
  rcases bind_eq_ok.mp (handleFailedTransaction_eq_ok.mp hbuilt) with
    ⟨estimated, hestimated, hbuild⟩
  rcases buildPayload_nonce hpayload with ⟨nonce, hcount, hnonce⟩
  refine ⟨nonce, hcount, ?_⟩
  rw [overestimateGas_keeps hraised (by decide)]
  apply buildTransaction_keeps hbuild (by decide) (by decide)
  rw [estimateGasOfPayload_keeps hestimated (by decide), hnonce]

theorem sendTransaction_nonce {arguments : SendArguments} {handed : TxDict}
    (h : (interface.sendTransaction client arguments).handedToSigner = some handed) :
    ∃ nonce, client.getTransactionCount arguments.usePendingNonce = .ok nonce ∧
      handed.get? "nonce" = some (.int nonce) := by
  rcases BlockchainInterface.sendTransaction_handed h with ⟨transaction, hbuilt, hsigned⟩
  rcases BlockchainInterface.toBeSignedTransaction_eq_ok hsigned with ⟨price, -, rfl⟩
  rcases buildContractTransaction_nonce hbuilt with ⟨nonce, hcount, hnonce⟩
  refine ⟨nonce, hcount, ?_⟩
  rw [Dict.get?_set, if_neg (by decide), Dict.get?_filterKeys, if_pos (by decide), hnonce]

end Nonce

/-! ## Accounts -/

/-- The transactions of an account: how many are mined, and the pending ones in the order of
their nonces. -/
structure Account (Raw : Type) where
  mined : Nat
  pending : List Raw

namespace Account

variable {Raw Hash : Type}

/-- The nonces of the pending transactions. -/
def pendingNonces (account : Account Raw) : List Nat :=
  List.range' account.mined account.pending.length

/-- What {lit}`eth_getTransactionCount` answers, with or without the pending transactions. -/
def transactionCount (account : Account Raw) (usePending : Bool) : Nat :=
  if usePending then account.mined + account.pending.length else account.mined

/-- A block mines some of the pending transactions, the oldest ones first. -/
def mine (account : Account Raw) (count : Nat) : Account Raw where
  mined := account.mined + min count account.pending.length
  pending := account.pending.drop count

/-- The node takes a transaction: the next one, or one in the place of a pending one. -/
def receive (account : Account Raw) (nonce : Nat) (raw : Raw) : Account Raw :=
  if nonce < account.mined then
    account
  else if nonce = account.mined + account.pending.length then
    { account with pending := account.pending ++ [raw] }
  else
    { account with pending := account.pending.set (nonce - account.mined) raw }

/-- A client whose node counts the transactions of the account. -/
def client (account : Account Raw) (client : Client Raw Hash) : Client Raw Hash :=
  { client with getTransactionCount := fun usePending => .ok (account.transactionCount usePending) }

theorem mem_pendingNonces {account : Account Raw} {nonce : Nat} :
    nonce ∈ account.pendingNonces ↔
      account.mined ≤ nonce ∧ nonce < account.mined + account.pending.length := by
  simp [pendingNonces, List.mem_range'_1]

theorem receive_oldest {account : Account Raw} {oldest : Raw} {rest : List Raw}
    (h : account.pending = oldest :: rest) (raw : Raw) :
    (account.receive account.mined raw).pending = raw :: rest := by
  simp [receive, h]

end Account

/-! ## Runs -/

/-- A call, and whether the node takes what it broadcasts. -/
structure Call (Raw Hash : Type) where
  client : Client Raw Hash
  arguments : SendArguments
  accepted : Bool

/-- What happens to an account. -/
inductive AccountEvent (Raw Hash : Type) where
  | mine (count : Nat)
  | call (call : Call Raw Hash)

section Runs

variable {Raw Hash : Type} {library : Library} (interface : BlockchainInterface library)

/-- What a call comes to. -/
def Call.outcome (account : Account Raw) (call : Call Raw Hash) : SendOutcome Raw Hash :=
  interface.sendTransaction (account.client call.client) call.arguments

/-- The nonce of a dictionary that is signed. -/
def nonceOf (handed : TxDict) : Option Nat :=
  match handed.get? "nonce" with
  | some (.int nonce) => some nonce.toNat
  | _ => none

/-- The account after a call. -/
def Account.afterCall (account : Account Raw) (call : Call Raw Hash) : Account Raw :=
  match (call.outcome interface account).handedToSigner.bind nonceOf,
      (call.outcome interface account).broadcast with
  | some nonce, some raw => if call.accepted then account.receive nonce raw else account
  | _, _ => account

end Runs

/-- A call that had a dictionary signed, and the account that it found. -/
structure Signing (Raw Hash : Type) {library : Library} (interface : BlockchainInterface library)
    where
  account : Account Raw
  call : Call Raw Hash
  handed : TxDict
  handed_eq : (call.outcome interface account).handedToSigner = some handed

section Discipline

variable {Raw Hash : Type} {library : Library} {interface : BlockchainInterface library}

/-- The signing of a call, if it comes to it. -/
def Call.signing? (interface : BlockchainInterface library) (account : Account Raw)
    (call : Call Raw Hash) : Option (Signing Raw Hash interface) :=
  match h : (call.outcome interface account).handedToSigner with
  | some handed => some ⟨account, call, handed, h⟩
  | none => none

theorem Call.signing?_eq_some {account : Account Raw} {call : Call Raw Hash}
    {signing : Signing Raw Hash interface} (h : call.signing? interface account = some signing) :
    signing.account = account ∧ signing.call = call := by
  unfold Call.signing? at h
  split at h
  · cases h
    exact ⟨rfl, rfl⟩
  · cases h

/-- What is signed over a run. -/
def signings (interface : BlockchainInterface library) :
    Account Raw → List (AccountEvent Raw Hash) → List (Signing Raw Hash interface)
  | _, [] => []
  | account, .mine count :: rest => signings interface (account.mine count) rest
  | account, .call call :: rest =>
      (call.signing? interface account).toList ++
        signings interface (account.afterCall interface call) rest

namespace Signing

variable (signing : Signing Raw Hash interface)

/-- The account after the call. -/
def after : Account Raw := signing.account.afterCall interface signing.call

/-- The discipline of nonces: a call that does not replace takes a fresh nonce and keeps all
pending transactions, and a call that replaces takes the place of the oldest one. -/
structure Disciplined : Prop where
  fresh : signing.call.arguments.replace = false → signing.call.arguments.fireAndForget = false →
    ∃ nonce, nonceOf signing.handed = some nonce ∧ nonce ∉ signing.account.pendingNonces
  keeps : signing.call.arguments.replace = false → signing.call.arguments.fireAndForget = false →
    signing.account.pending <+: signing.after.pending
  oldest : signing.call.arguments.replace = true → signing.account.pending ≠ [] →
    nonceOf signing.handed = some signing.account.mined
  replaces : signing.call.arguments.replace = true → signing.call.accepted = true →
    ∀ oldest rest, signing.account.pending = oldest :: rest →
      ∀ raw, (signing.call.outcome interface signing.account).broadcast = some raw →
        signing.after.pending = raw :: rest

theorem nonceOf_handed :
    nonceOf signing.handed =
      some (signing.account.transactionCount signing.call.arguments.usePendingNonce) := by
  rcases sendTransaction_nonce signing.handed_eq with ⟨nonce, hcount, hnonce⟩
  cases hcount
  rw [nonceOf, hnonce]
  simp

theorem after_eq {raw : Raw}
    (h : (signing.call.outcome interface signing.account).broadcast = some raw)
    (haccepted : signing.call.accepted = true) :
    signing.after = signing.account.receive
      (signing.account.transactionCount signing.call.arguments.usePendingNonce) raw := by
  unfold after Account.afterCall
  rw [signing.handed_eq, Option.bind_some, signing.nonceOf_handed, h]
  simp [haccepted]

/-- While something is pending, a call that is not fired and forgotten is not disciplined: the
nonce counts the pending transactions exactly when it should not. -/
theorem not_disciplined (hpending : signing.account.pending ≠ [])
    (hforget : signing.call.arguments.fireAndForget = false) : ¬ signing.Disciplined := by
  intro h
  have hnonce := signing.nonceOf_handed
  have hlength : 0 < signing.account.pending.length := List.length_pos_iff.mpr hpending
  cases hreplace : signing.call.arguments.replace with
  | true =>
      -- The pending transactions are counted, so the nonce is after the oldest one.
      have holdest := h.oldest hreplace hpending
      rw [hnonce, Option.some.injEq, SendArguments.usePendingNonce, hforget, hreplace] at holdest
      simp only [Account.transactionCount, Bool.false_eq_true, if_false, if_true] at holdest
      omega
  | false =>
      -- The pending transactions are not counted, so the nonce is the oldest one's.
      rcases h.fresh hreplace hforget with ⟨nonce, heq, hfresh⟩
      rw [hnonce, Option.some.injEq, SendArguments.usePendingNonce, hforget, hreplace] at heq
      simp only [Account.transactionCount, Bool.false_eq_true, if_false] at heq
      apply hfresh
      rw [Account.mem_pendingNonces]
      omega

/-- While nothing is pending every nonce is fresh. -/
theorem disciplined_of_nothing_pending (hpending : signing.account.pending = []) :
    signing.Disciplined := by
  constructor
  · intro _ _
    refine ⟨_, signing.nonceOf_handed, ?_⟩
    simp [Account.pendingNonces, hpending]
  · intro _ _
    rw [hpending]
    exact List.nil_prefix
  · intro _ hne
    exact absurd hpending hne
  · intro _ _ oldest rest hcons
    rw [hpending] at hcons
    cases hcons

/-- A call that is fired and forgotten takes the nonce of the oldest pending transaction. -/
theorem disciplined_of_fireAndForget (hforget : signing.call.arguments.fireAndForget = true) :
    signing.Disciplined := by
  have hcount : signing.account.transactionCount signing.call.arguments.usePendingNonce =
      signing.account.mined := by
    simp [Account.transactionCount, SendArguments.usePendingNonce, hforget]
  constructor
  · intro _ hwaits
    rw [hforget] at hwaits
    cases hwaits
  · intro _ hwaits
    rw [hforget] at hwaits
    cases hwaits
  · intro _ _
    rw [signing.nonceOf_handed, hcount]
  · intro _ haccepted oldest rest hcons raw hraw
    rw [signing.after_eq hraw haccepted, hcount, Account.receive_oldest hcons]

/-- A call is disciplined exactly when nothing is pending, or it is fired and forgotten. -/
theorem disciplined_iff :
    signing.Disciplined ↔
      signing.account.pending = [] ∨ signing.call.arguments.fireAndForget = true := by
  constructor
  · intro h
    by_contra hneither
    rw [not_or, Bool.not_eq_true] at hneither
    exact signing.not_disciplined hneither.1 hneither.2 h
  · rintro (hpending | hforget)
    · exact signing.disciplined_of_nothing_pending hpending
    · exact signing.disciplined_of_fireAndForget hforget

end Signing

/-- Over a run from any state of the account, everything is signed with discipline exactly when
each call that had something signed found nothing pending, or was fired and forgotten. -/
theorem nonce_discipline_iff (interface : BlockchainInterface library) (account : Account Raw)
    (events : List (AccountEvent Raw Hash)) :
    (∀ signing ∈ signings interface account events, signing.Disciplined) ↔
      ∀ signing ∈ signings interface account events,
        signing.account.pending = [] ∨ signing.call.arguments.fireAndForget = true := by
  apply forall₂_congr
  intro signing _
  exact signing.disciplined_iff

end Discipline

/-! ## A call while a transaction is pending -/

/-- A call that waits for its receipt, which may be asked to replace. -/
def sampleCall (replace : Bool) : Call TxDict Unit where
  client := sampleClient 40000000000 0 0
  arguments := { sampleArguments with replace := replace }
  accepted := true

/-- An account with the nonce 3 pending. -/
def sampleAccount : Account TxDict where
  mined := 3
  pending := [Dict.empty]

/-- While the nonce 3 is pending, a call takes it, and a call that replaces takes another. -/
theorem pending_nonce_taken :
    3 ∈ sampleAccount.pendingNonces ∧
    (signings sampleInterface sampleAccount [.call (sampleCall false)]).map
      (fun signing => nonceOf signing.handed) = [some 3] ∧
    (signings sampleInterface sampleAccount [.call (sampleCall true)]).map
      (fun signing => nonceOf signing.handed) = [some 4] ∧
    ¬ ∀ signing ∈ signings sampleInterface sampleAccount [.call (sampleCall false)],
      signing.Disciplined := by
  have hsigned : (signings sampleInterface sampleAccount [.call (sampleCall false)]).map
      (fun signing => nonceOf signing.handed) = [some 3] := by decide +kernel
  refine ⟨by decide, hsigned, by decide +kernel, ?_⟩
  intro h
  obtain ⟨signing, hmem⟩ := List.exists_mem_of_ne_nil
    (signings sampleInterface sampleAccount [.call (sampleCall false)]) (by
      intro hnil
      rw [hnil] at hsigned
      cases hsigned)
  have hsigning : (sampleCall false).signing? sampleInterface sampleAccount = some signing := by
    simpa [signings] using hmem
  rcases Call.signing?_eq_some hsigning with ⟨haccount, hcall⟩
  have hcondition := signing.disciplined_iff.mp (h signing hmem)
  rw [haccount, hcall] at hcondition
  revert hcondition
  decide

end Interface

end NuLink
