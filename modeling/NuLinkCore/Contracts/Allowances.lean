import NuLinkCore.Contracts.Erc20

/-!
# Allowances of the token contract

An owner grants an allowance to a spender, raises and lowers it, and the spender draws on it.
An approval replaces what is left of the allowance, but it is only accepted when nothing is left
or nothing is granted anew, so that a spender never draws both an old and a new approval beyond
what was granted.

The amounts of a message count when it goes through.

Main results:

- Theorem {lit}`Erc20.allowance_balance`: over every run, what is left of an allowance, what was
  drawn and what was revoked are what it was and what was granted.
- Theorem {lit}`Erc20.held_step`: what a message does to a balance.
- Theorem {lit}`Erc20.holder_loss_le`: an account that does not transfer loses no more than the
  allowances that it has granted.
-/

namespace NuLink
namespace Erc20

open Evm FixedWidth Ledger

variable {Address : Type} [DecidableEq Address] [Zero Address]

/-! ## The amounts of a message -/

/-- An amount that counts when the message goes through. -/
def ifAccepted (token : Erc20 Address) (message : Erc20Message Address) (amount : Nat) : Nat :=
  if (token.call message).isSome then amount else 0

/-- What the owner grants the spender. -/
def granted (owner spender : Address) (token : Erc20 Address) (message : Erc20Message Address) :
    Nat :=
  token.ifAccepted message <|
    match message.call with
    | .approve approved value =>
        if message.sender = owner ∧ approved = spender then value.toNat else 0
    | .increaseAllowance approved value =>
        if message.sender = owner ∧ approved = spender then value.toNat else 0
    | _ => 0

/-- What the owner takes back: an approval replaces all that is left. -/
def revoked (owner spender : Address) (token : Erc20 Address) (message : Erc20Message Address) :
    Nat :=
  token.ifAccepted message <|
    match message.call with
    | .approve approved _ =>
        if message.sender = owner ∧ approved = spender then (token.allowed owner spender).toNat
        else 0
    | .decreaseAllowance approved value =>
        if message.sender = owner ∧ approved = spender then value.toNat else 0
    | _ => 0

/-- What the spender draws on the allowance. -/
def drawn (owner spender : Address) (token : Erc20 Address) (message : Erc20Message Address) :
    Nat :=
  token.ifAccepted message <|
    match message.call with
    | .transferFrom src _ value =>
        if src = owner ∧ message.sender = spender then value.toNat else 0
    | .burnFrom account value =>
        if account = owner ∧ message.sender = spender then value.toNat else 0
    | _ => 0

/-- What leaves an account. -/
def spent (account : Address) (token : Erc20 Address) (message : Erc20Message Address) : Nat :=
  token.ifAccepted message <|
    match message.call with
    | .transfer _ value => if message.sender = account then value.toNat else 0
    | .transferFrom src _ value => if src = account then value.toNat else 0
    | .burn burnt value => if burnt = account then value.toNat else 0
    | .burnFrom burnt value => if burnt = account then value.toNat else 0
    | _ => 0

/-- What comes to an account. -/
def received (account : Address) (token : Erc20 Address) (message : Erc20Message Address) : Nat :=
  token.ifAccepted message <|
    match message.call with
    | .transfer dst value => if dst = account then value.toNat else 0
    | .transferFrom _ dst value => if dst = account then value.toNat else 0
    | .mint minted value => if minted = account then value.toNat else 0
    | _ => 0

section Accepted

variable {token : Erc20 Address} {message : Erc20Message Address}

theorem ifAccepted_of_accepts (h : token.Accepts message) (amount : Nat) :
    token.ifAccepted message amount = amount := by
  rw [ifAccepted, call_eq_some_iff.mpr ⟨h, rfl⟩]
  rfl

theorem ifAccepted_of_not_accepts (h : ¬ token.Accepts message) (amount : Nat) :
    token.ifAccepted message amount = 0 := by
  rw [ifAccepted, if_neg]
  intro hsome
  rcases Option.isSome_iff_exists.mp hsome with ⟨_, hcall⟩
  exact h (call_eq_some_iff.mp hcall).1

end Accepted

/-! ## Allowances -/

omit [Zero Address] in
theorem approved_allowed (token : Erc20 Address) (owner spender : Address) (value : BitVec 256)
    (owner' spender' : Address) :
    (token.approved owner spender value).allowed owner' spender' =
      if owner = owner' ∧ spender = spender' then value else token.allowed owner' spender' := by
  simp only [approved, emit, Erc20Tables.setAllowed, Function.update_apply]
  by_cases howner : owner = owner'
  · subst howner
    by_cases hspender : spender = spender'
    · subst hspender
      simp
    · simp [hspender, Ne.symm hspender]
  · simp [howner, Ne.symm howner]

/-- A message accounts for the change of an allowance. -/
theorem allowance_step (owner spender : Address) (token : Erc20 Address)
    (message : Erc20Message Address) :
    ((token.transact message).allowed owner spender).toNat +
        (revoked owner spender token message + drawn owner spender token message) =
      (token.allowed owner spender).toNat + granted owner spender token message := by
  rcases transact_cases token message with ⟨haccepts, hafter⟩ | ⟨hrefused, hsame⟩
  · rw [hafter]
    simp only [revoked, drawn, granted, ifAccepted_of_accepts haccepts]
    rcases message with ⟨sender, call⟩
    cases call with
    | transfer dst value => rfl
    | approve approved value =>
        simp only [after, approved_allowed]
        by_cases hown : sender = owner ∧ approved = spender
        · simp only [hown, and_self, if_true]
          omega
        · simp [hown]
    | transferFrom src dst value =>
        simp only [after, approved_allowed, moved_allowed]
        by_cases hown : src = owner ∧ sender = spender
        · rcases hown with ⟨rfl, rfl⟩
          have hle : value.toNat ≤ (token.allowed src sender).toNat := haccepts.2.2.1
          simp [BitVec.toNat_sub_of_le (BitVec.le_def.mpr hle), hle]
        · simp [hown]
    | increaseAllowance approved value =>
        simp only [after, approved_allowed]
        by_cases hown : sender = owner ∧ approved = spender
        · rcases hown with ⟨rfl, rfl⟩
          simp [BitVec.toNat_add_of_lt haccepts.1]
        · simp [hown]
    | decreaseAllowance approved value =>
        simp only [after, approved_allowed]
        by_cases hown : sender = owner ∧ approved = spender
        · rcases hown with ⟨rfl, rfl⟩
          have hle : value.toNat ≤ (token.allowed sender approved).toNat := haccepts.1
          simp [BitVec.toNat_sub_of_le (BitVec.le_def.mpr hle), hle]
        · simp [hown]
    | mint account value => rfl
    | burn account value => rfl
    | burnFrom account value =>
        simp only [after, approved_allowed, burnt_allowed]
        by_cases hown : account = owner ∧ sender = spender
        · rcases hown with ⟨rfl, rfl⟩
          have hle : value.toNat ≤ (token.allowed account sender).toNat := haccepts.2.2.2.1
          simp [BitVec.toNat_sub_of_le (BitVec.le_def.mpr hle), hle]
        · simp [hown]
  · rw [hsame]
    simp [revoked, drawn, granted, ifAccepted_of_not_accepts hrefused]

/-- Over every run, what is left of an allowance, what was revoked and what was drawn are what it
was at first and what was granted. -/
theorem allowance_balance (owner spender : Address) (token : Erc20 Address)
    (messages : List (Erc20Message Address)) :
    ((messages.foldl transact token).allowed owner spender).toNat +
        (tally transact (revoked owner spender) token messages +
          tally transact (drawn owner spender) token messages) =
      (token.allowed owner spender).toNat +
        tally transact (granted owner spender) token messages := by
  rw [← tally_add]
  exact tally_balance (fun token => (token.allowed owner spender).toNat)
    (allowance_step owner spender) token messages

/-! ## Balances -/

omit [Zero Address] in
theorem held_moved (token : Erc20 Address) {src dst : Address} {value : BitVec 256}
    (h : token.Movable src dst value) (account : Address) :
    (token.moved src dst value).held account + (if src = account then value.toNat else 0) =
      token.held account + (if dst = account then value.toNat else 0) := by
  rcases h with ⟨hle, hfits⟩
  have hreduced : (token.balances src - value).toNat = token.held src - value.toNat :=
    BitVec.toNat_sub_of_le (BitVec.le_def.mpr hle)
  have hle' : value.toNat ≤ token.held src := hle
  have hincreased := BitVec.toNat_add_of_lt hfits
  have hpaid : ∀ other, ((token.setBalance src (token.balances src - value)).balances other).toNat =
      if other = src then token.held src - value.toNat else token.held other := by
    intro other
    rw [← hreduced, ← Function.update_apply token.held, ← held_setBalance]
    rfl
  have hafter : (token.moved src dst value).held account =
      if account = dst then
        ((token.setBalance src (token.balances src - value)).balances dst).toNat + value.toNat
      else ((token.setBalance src (token.balances src - value)).balances account).toNat := by
    rw [← hincreased]
    simp only [held, moved, emit, setBalance, Erc20Tables.setBalance, Function.update_apply]
    split <;> rfl
  rw [hafter, hpaid, hpaid]
  by_cases hsrc : account = src
  · subst hsrc
    by_cases hdst : account = dst
    · subst hdst
      simp [hle']
    · simp only [hdst, Ne.symm hdst, if_true, if_false]
      omega
  · by_cases hdst : account = dst
    · subst hdst
      simp [hsrc, Ne.symm hsrc]
    · simp [hsrc, hdst, Ne.symm hsrc, Ne.symm hdst]

theorem held_minted (token : Erc20 Address) {minted : Address} {value : BitVec 256}
    (h : (token.balances minted).toNat + value.toNat < 2 ^ 256) (account : Address) :
    (token.minted minted value).held account =
      token.held account + (if minted = account then value.toNat else 0) := by
  by_cases haccount : minted = account
  · subst haccount
    simp [held, Erc20.minted, emit, setBalance, Erc20Tables.setBalance,
      BitVec.toNat_add_of_lt h]
  · simp [held, Erc20.minted, emit, setBalance, Erc20Tables.setBalance,
      Function.update_of_ne (Ne.symm haccount), haccount]

theorem held_burnt (token : Erc20 Address) {burnt : Address} {value : BitVec 256}
    (h : value.toNat ≤ (token.balances burnt).toNat) (account : Address) :
    (token.burnt burnt value).held account + (if burnt = account then value.toNat else 0) =
      token.held account := by
  by_cases haccount : burnt = account
  · subst haccount
    simp [held, Erc20.burnt, emit, setBalance, Erc20Tables.setBalance,
      BitVec.toNat_sub_of_le (BitVec.le_def.mpr h), h]
  · simp [held, Erc20.burnt, emit, setBalance, Erc20Tables.setBalance,
      Function.update_of_ne (Ne.symm haccount), haccount]

/-- A message accounts for the change of a balance. -/
theorem held_step (account : Address) (token : Erc20 Address) (message : Erc20Message Address) :
    (token.transact message).held account + spent account token message =
      token.held account + received account token message := by
  rcases transact_cases token message with ⟨haccepts, hafter⟩ | ⟨hrefused, hsame⟩
  · rw [hafter]
    simp only [spent, received, ifAccepted_of_accepts haccepts]
    rcases message with ⟨sender, call⟩
    cases call with
    | transfer dst value => exact held_moved token haccepts.2 account
    | approve spender value => rfl
    | transferFrom src dst value => exact held_moved token haccepts.2.1 account
    | increaseAllowance spender value => rfl
    | decreaseAllowance spender value => rfl
    | mint minted value => exact held_minted token haccepts.2.2 account
    | burn burnt value => exact held_burnt token haccepts.2.2 account
    | burnFrom burnt value => exact held_burnt token haccepts.2.2.1 account
  · rw [hsame]
    simp [spent, received, ifAccepted_of_not_accepts hrefused]

/-! ## Losses -/

/-- The account itself, or a contract on its behalf, moves tokens without an allowance. -/
def Erc20Message.movesOwn (account : Address) (message : Erc20Message Address) : Prop :=
  match message.call with
  | .transfer _ _ => message.sender = account
  | .burn burnt _ => burnt = account
  | _ => False

/-- What is spent without an own move is drawn on an allowance. -/
theorem spent_eq_sum_drawn [Fintype Address] {account : Address} (token : Erc20 Address)
    {message : Erc20Message Address} (h : ¬ Erc20Message.movesOwn account message) :
    spent account token message =
      ∑ spender ∈ Finset.univ, drawn account spender token message := by
  rcases message with ⟨sender, call⟩
  by_cases haccepts : token.Accepts ⟨sender, call⟩
  · simp only [spent, drawn, ifAccepted_of_accepts haccepts]
    cases call with
    | transfer dst value =>
        have hother : sender ≠ account := h
        simp [hother]
    | burn burnt value =>
        have hother : burnt ≠ account := h
        simp [hother]
    | transferFrom src dst value => by_cases hsrc : src = account <;> simp [hsrc]
    | burnFrom burnt value => by_cases hburnt : burnt = account <;> simp [hburnt]
    | approve spender value => simp
    | increaseAllowance spender value => simp
    | decreaseAllowance spender value => simp
    | mint minted value => simp
  · simp [spent, drawn, ifAccepted_of_not_accepts haccepts]

/-- Over a run in which an account neither transfers nor is burnt without an allowance, it loses
no more than what was allowed at first and what it granted, over all spenders. -/
theorem holder_loss_le [Fintype Address] (account : Address) (token : Erc20 Address)
    (messages : List (Erc20Message Address))
    (h : ∀ message ∈ messages, ¬ Erc20Message.movesOwn account message) :
    token.held account ≤ (messages.foldl transact token).held account +
      ∑ spender, ((token.allowed account spender).toNat +
        tally transact (granted account spender) token messages) := by
  have hbalance := tally_balance (fun token => token.held account) (held_step account) token
    messages
  have hspent : tally transact (spent account) token messages ≤
      tally transact (fun token message =>
        ∑ spender ∈ Finset.univ, drawn account spender token message) token messages :=
    tally_le_tally token messages fun token message hmessage =>
      le_of_eq (spent_eq_sum_drawn token (h message hmessage))
  have hdrawn : ∑ spender, tally transact (drawn account spender) token messages ≤
      ∑ spender, ((token.allowed account spender).toNat +
        tally transact (granted account spender) token messages) := by
    refine Finset.sum_le_sum fun spender _ => ?_
    have hallowance := tally_balance (fun token => (token.allowed account spender).toNat)
      (allowance_step account spender) token messages
    rw [tally_add] at hallowance
    omega
  rw [tally_sum] at hspent
  omega

/-- An account with 100 tokens allows a spender 30 of them, who draws 10. -/
def drawingMessages : List (Erc20Message (Fin 3)) :=
  [⟨1, .approve 2 30⟩, ⟨2, .transferFrom 1 2 10⟩]

theorem holder_loss_le_drawing :
    (run [⟨1, .mint 1 100⟩] : Erc20 (Fin 3)).held 1 ≤
      (drawingMessages.foldl transact (run [⟨1, .mint 1 100⟩])).held 1 +
        ∑ spender, (((run [⟨1, .mint 1 100⟩] : Erc20 (Fin 3)).allowed 1 spender).toNat +
          tally transact (granted 1 spender) (run [⟨1, .mint 1 100⟩]) drawingMessages) :=
  holder_loss_le 1 (run [⟨1, .mint 1 100⟩]) drawingMessages (by
    simp [drawingMessages, Erc20Message.movesOwn])

end Erc20
end NuLink
