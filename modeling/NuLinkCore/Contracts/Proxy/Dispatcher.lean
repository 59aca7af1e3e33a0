import NuLinkCore.Contracts.Evm
import NuLinkCore.Lib.Program

/-!
# The dispatcher

The contract {lit}`Dispatcher` delegates every call that it does not handle itself to a
target contract, and its owner may move it to a new target and back.  The slots that it
shares with its targets are its state; the questions that it asks the outside are whether
an address has code and what a delegated call answers.

A transaction is selected by the first four bytes of its data, as the compiler lays it
out: a call without data goes to {lit}`receive`, an unknown selector to {lit}`fallback`, and
a call of a known function with arguments that cannot be decoded, or with an amount for a
function that is not payable, reverts.

Main results:

- Theorem {lit}`upgrade_establishes` and {lit}`rollback_establishes`: what the two functions do
  to the slots.
- Theorem {lit}`dispatch_keeps`: no other function changes the target.
- Theorem {lit}`dispatch_asks`: which calls are delegated.
-/

namespace NuLink
namespace Proxy

open Evm

/-! ## State and questions -/

/-- The slots of {lit}`Ownable` and {lit}`Upgradeable`.  Addresses are numbers. -/
structure Slots where
  owner : Nat
  target : Nat
  previousTarget : Nat
  isUpgrade : Nat
deriving DecidableEq, Repr

def upgradeFalse : Nat := 1
def upgradeTrue : Nat := 2

/-- What the contract asks the outside. -/
inductive Question where
  /-- Whether the code of an account is not empty. -/
  | isContract (account : Nat)
  /-- What a delegated call does: whether it succeeds, and the first word of what it returns. -/
  | delegatecall (code : Nat) (data : Bytes)

def Answer : Question → Type
  | .isContract _ => Bool
  | .delegatecall _ _ => Bool × Nat

abbrev Dispatch : Type → Type := Program Slots Question Answer

def getSlots : Dispatch Slots := .get .pure

def setSlots (slots : Slots) : Dispatch Unit := .set slots (.pure ())

def isContract (account : Nat) : Dispatch Bool := .ask (.isContract account) .pure

def delegatecall (code : Nat) (data : Bytes) : Dispatch (Bool × Nat) :=
  .ask (.delegatecall code data) .pure

/-! ## Selectors -/

def upgradeSelector : Bytes := [0x09, 0x00, 0xf0, 0x10]
def rollbackSelector : Bytes := [0x9a, 0xfd, 0x9d, 0x78]
def verifyStateSelector : Bytes := [0xb9, 0x62, 0x6d, 0x21]
def finishUpgradeSelector : Bytes := [0xe8, 0xdc, 0xcd, 0x06]
def proxyTypeSelector : Bytes := [0x45, 0x55, 0xd5, 0xc9]
def implementationSelector : Bytes := [0x5c, 0x60, 0xda, 0x1b]
def ownerSelector : Bytes := [0x8d, 0xa5, 0xcb, 0x5b]
def isOwnerSelector : Bytes := [0x8f, 0x32, 0xd5, 0x9b]
def transferOwnershipSelector : Bytes := [0xf2, 0xfd, 0xe3, 0x8b]
def renounceOwnershipSelector : Bytes := [0x71, 0x50, 0x18, 0xa6]
def targetSelector : Bytes := [0xd4, 0xb8, 0x39, 0x92]
def previousTargetSelector : Bytes := [0x4b, 0x2c, 0xd1, 0x18]
def isUpgradeSelector : Bytes := [0xe3, 0x8a, 0x30, 0x3b]

/-- {lit}`abi.encodeWithSelector` with one address. -/
def encodeWithSelector (selector : Bytes) (account : Nat) : Bytes := selector ++ wordBytes account

/-! ## Functions -/

def onlyOwner (sender : Nat) (body : Dispatch Unit) : Dispatch Unit := do
  let slots ← getSlots
  Program.require (sender = slots.owner)
  body

/-- The modifier {lit}`upgrading`. -/
def upgrading (body : Dispatch Unit) : Dispatch Unit := do
  let slots ← getSlots
  setSlots { slots with isUpgrade := upgradeTrue }
  body
  let slots ← getSlots
  setSlots { slots with isUpgrade := upgradeFalse }

/-- {lit}`delegateGet`, without parameters. -/
def delegateGet (target : Nat) (selector : Bytes) : Dispatch Nat := do
  let (callSuccess, result) ← delegatecall target selector
  Program.require callSuccess
  return result

/-- {lit}`verifyState`: the storage as the tested target sees it. -/
def verifyState (testTarget : Nat) : Dispatch Unit := do
  let slots ← getSlots
  Program.require (slots.isUpgrade = upgradeTrue)
  let owner ← delegateGet testTarget ownerSelector
  let slots ← getSlots
  Program.require (owner % 2 ^ 160 = slots.owner)
  let target ← delegateGet testTarget targetSelector
  let slots ← getSlots
  Program.require (target % 2 ^ 160 = slots.target)
  let previousTarget ← delegateGet testTarget previousTargetSelector
  let slots ← getSlots
  Program.require (previousTarget % 2 ^ 160 = slots.previousTarget)
  let isUpgrade ← delegateGet testTarget isUpgradeSelector
  let slots ← getSlots
  Program.require (isUpgrade % 2 ^ 8 = slots.isUpgrade)

def verifyUpgradeableState (source destination : Nat) : Dispatch Unit := do
  let (callSuccess, _) ← delegatecall source (encodeWithSelector verifyStateSelector destination)
  Program.require callSuccess

/-- The private {lit}`finishUpgrade`. -/
def finishUpgrade : Dispatch Unit := do
  let slots ← getSlots
  let (callSuccess, _) ←
    delegatecall slots.target (encodeWithSelector finishUpgradeSelector slots.target)
  Program.require callSuccess

/-- The constructor, on the slots that {lit}`Ownable` leaves. -/
def construct (newTarget : Nat) : Dispatch Unit := upgrading do
  Program.require (← isContract newTarget)
  verifyState newTarget
  verifyUpgradeableState newTarget newTarget
  let slots ← getSlots
  setSlots { slots with target := newTarget }
  finishUpgrade

/-- {lit}`upgrade`, after the check of the owner. -/
def upgrade (newTarget : Nat) : Dispatch Unit := upgrading do
  Program.require (← isContract newTarget)
  verifyState newTarget
  verifyUpgradeableState newTarget newTarget
  let slots ← getSlots
  if ← isContract slots.target then
    let slots ← getSlots
    verifyUpgradeableState slots.target newTarget
  let slots ← getSlots
  setSlots { slots with previousTarget := slots.target, target := newTarget }
  finishUpgrade

/-- {lit}`rollback`, after the check of the owner. -/
def rollback : Dispatch Unit := upgrading do
  let slots ← getSlots
  Program.require (← isContract slots.previousTarget)
  let slots ← getSlots
  verifyState slots.previousTarget
  let slots ← getSlots
  if ← isContract slots.target then
    let slots ← getSlots
    verifyUpgradeableState slots.previousTarget slots.target
  let slots ← getSlots
  setSlots { slots with target := slots.previousTarget, previousTarget := 0 }
  finishUpgrade

/-- {lit}`receive` and {lit}`fallback`. -/
def forward (data : Bytes) : Dispatch Unit := do
  let slots ← getSlots
  Program.require (← isContract slots.target)
  let slots ← getSlots
  let (callSuccess, _) ← delegatecall slots.target data
  Program.require callSuccess

/-- {lit}`transferOwnership`, after the check of the owner. -/
def transferOwnership (newOwner : Nat) : Dispatch Unit := do
  Program.require (newOwner ≠ 0)
  let slots ← getSlots
  setSlots { slots with owner := newOwner }

/-- {lit}`renounceOwnership`, after the check of the owner. -/
def renounceOwnership : Dispatch Unit := do
  let slots ← getSlots
  setSlots { slots with owner := 0 }

/-! ## Selection -/

structure Message where
  sender : Nat
  value : Nat
  data : Bytes
deriving DecidableEq, Repr

/-- The function that a message selects. -/
inductive Entry where
  | deploy
  | receive
  | fallback
  | upgrade (newTarget : Nat)
  | rollback
  | verifyState (testTarget : Nat)
  | finishUpgrade (target : Nat)
  | getter
  | transferOwnership (newOwner : Nat)
  | renounceOwnership
  /-- A call of a known function that reverts before its body. -/
  | malformed
deriving DecidableEq, Repr

/-- The one address that the arguments hold. -/
def decodeAddress (arguments : Bytes) : Option Nat :=
  if 32 ≤ arguments.length ∧ mload arguments 0 < 2 ^ 160 then some (mload arguments 0) else none

/-- The getters. -/
def getterSelectors : List Bytes :=
  [proxyTypeSelector, implementationSelector, ownerSelector, isOwnerSelector, targetSelector,
    previousTargetSelector, isUpgradeSelector]

/-- The functions that take one address. -/
def addressEntry (selector : Bytes) : Option (Nat → Entry) :=
  if selector = upgradeSelector then some .upgrade
  else if selector = verifyStateSelector then some .verifyState
  else if selector = finishUpgradeSelector then some .finishUpgrade
  else if selector = transferOwnershipSelector then some .transferOwnership
  else none

/-- The functions without arguments. -/
def plainEntry (selector : Bytes) : Option Entry :=
  if selector = rollbackSelector then some .rollback
  else if selector = renounceOwnershipSelector then some .renounceOwnership
  else if selector ∈ getterSelectors then some .getter
  else none

/-- The function selector at the start of the data. -/
def decode (message : Message) : Entry :=
  if message.data = [] then .receive
  else if message.data.length < 4 then .fallback
  else
    let selector := message.data.take 4
    match addressEntry selector, plainEntry selector with
    | some entry, _ =>
        if message.value ≠ 0 then .malformed
        else ((decodeAddress (message.data.drop 4)).map entry).getD .malformed
    | none, some entry => if message.value ≠ 0 then .malformed else entry
    | none, none => .fallback

/-- What a message runs. -/
def dispatch (message : Message) : Dispatch Unit :=
  match decode message with
  | .deploy => .revert
  | .receive => forward []
  | .fallback => forward message.data
  | .upgrade newTarget => onlyOwner message.sender (upgrade newTarget)
  | .rollback => onlyOwner message.sender rollback
  | .verifyState testTarget => verifyState testTarget
  | .finishUpgrade _ => return ()
  | .getter => return ()
  | .transferOwnership newOwner => onlyOwner message.sender (transferOwnership newOwner)
  | .renounceOwnership => onlyOwner message.sender renounceOwnership
  | .malformed => .revert

/-- The functions that move the target. -/
def Entry.movesTarget : Entry → Bool
  | .deploy => true
  | .upgrade _ => true
  | .rollback => true
  | _ => false

/-! ## What the functions do to the slots -/

/-- The slots that decide the target are the same. -/
structure SameTarget (slots slots' : Slots) : Prop where
  target : slots'.target = slots.target
  previousTarget : slots'.previousTarget = slots.previousTarget
  isUpgrade : slots'.isUpgrade = slots.isUpgrade

theorem SameTarget.refl (slots : Slots) : SameTarget slots slots := ⟨rfl, rfl, rfl⟩

theorem SameTarget.trans {slots slots' slots'' : Slots} (h : SameTarget slots slots')
    (h' : SameTarget slots' slots'') : SameTarget slots slots'' :=
  ⟨h'.target.trans h.target, h'.previousTarget.trans h.previousTarget,
    h'.isUpgrade.trans h.isUpgrade⟩

/-- What is assumed of the outside: delegated code does not move the target, and only accounts
of a given kind have code. -/
def Keeps (coded : Nat → Prop) : (question : Question) → Slots → Answer question → Slots → Prop
  | .isContract account, slots, answer, slots' =>
      SameTarget slots slots' ∧ (answer = true → coded account)
  | .delegatecall _ _, slots, _, slots' => SameTarget slots slots'

section Establishes

variable {coded : Nat → Prop} {slots : Slots}

theorem establishes_getSlots {post : Slots → Slots → Prop} :
    getSlots.Establishes (Keeps coded) post slots ↔ post slots slots :=
  Iff.rfl

theorem establishes_setSlots {slots' : Slots} {post : Unit → Slots → Prop} :
    (setSlots slots').Establishes (Keeps coded) post slots ↔ post () slots' :=
  Iff.rfl

theorem establishes_isContract {account : Nat} {post : Bool → Slots → Prop} :
    (isContract account).Establishes (Keeps coded) post slots ↔
      ∀ (answer : Bool) slots', SameTarget slots slots' ∧ (answer = true → coded account) →
        post answer slots' :=
  Iff.rfl

theorem establishes_delegatecall {code : Nat} {data : Bytes} {post : Bool × Nat → Slots → Prop} :
    (delegatecall code data).Establishes (Keeps coded) post slots ↔
      ∀ (answer : Bool × Nat) slots', SameTarget slots slots' → post answer slots' :=
  Iff.rfl

theorem delegateGet_establishes {target : Nat} {selector : Bytes} {post : Nat → Slots → Prop}
    (h : ∀ result slots', SameTarget slots slots' → post result slots') :
    (delegateGet target selector).Establishes (Keeps coded) post slots := by
  simp only [delegateGet, Program.establishes_bind, establishes_delegatecall,
    Program.establishes_require]
  intro answer slots' hsame _
  exact h answer.2 slots' hsame

theorem verifyState_establishes {testTarget : Nat} {post : Unit → Slots → Prop}
    (h : ∀ slots', SameTarget slots slots' → post () slots') :
    (verifyState testTarget).Establishes (Keeps coded) post slots := by
  simp only [verifyState, Program.establishes_bind, establishes_getSlots,
    Program.establishes_require]
  intro _
  apply delegateGet_establishes
  intro _ slots₁ hsame₁ _
  apply delegateGet_establishes
  intro _ slots₂ hsame₂ _
  apply delegateGet_establishes
  intro _ slots₃ hsame₃ _
  apply delegateGet_establishes
  intro _ slots₄ hsame₄ _
  exact h slots₄ (((hsame₁.trans hsame₂).trans hsame₃).trans hsame₄)

theorem verifyUpgradeableState_establishes {source destination : Nat}
    {post : Unit → Slots → Prop} (h : ∀ slots', SameTarget slots slots' → post () slots') :
    (verifyUpgradeableState source destination).Establishes (Keeps coded) post slots := by
  simp only [verifyUpgradeableState, Program.establishes_bind, establishes_delegatecall,
    Program.establishes_require]
  intro answer slots' hsame _
  exact h slots' hsame

theorem finishUpgrade_establishes {post : Unit → Slots → Prop}
    (h : ∀ slots', SameTarget slots slots' → post () slots') :
    finishUpgrade.Establishes (Keeps coded) post slots := by
  simp only [finishUpgrade, Program.establishes_bind, establishes_getSlots,
    establishes_delegatecall, Program.establishes_require]
  intro answer slots' hsame _
  exact h slots' hsame

/-- The check that is made only while the target has code, in front of what is done anyway. -/
theorem checkIfContract_establishes {isContract : Bool} {source destination : Slots → Nat}
    {rest : Dispatch Unit} {post : Unit → Slots → Prop}
    (h : ∀ slots', SameTarget slots slots' → rest.Establishes (Keeps coded) post slots') :
    (if isContract = true then do
      let slots ← getSlots
      verifyUpgradeableState (source slots) (destination slots)
      rest
    else rest).Establishes (Keeps coded) post slots := by
  cases isContract with
  | false => exact h slots (SameTarget.refl slots)
  | true =>
      rw [if_pos rfl]
      simp only [Program.establishes_bind, establishes_getSlots]
      exact verifyUpgradeableState_establishes h

theorem forward_establishes {data : Bytes} {post : Unit → Slots → Prop}
    (h : ∀ slots', SameTarget slots slots' → post () slots') :
    (forward data).Establishes (Keeps coded) post slots := by
  simp only [forward, Program.establishes_bind, establishes_getSlots, establishes_isContract,
    establishes_delegatecall, Program.establishes_require]
  intro _ slots₁ hsame₁ _ _ slots₂ hsame₂ _
  exact h slots₂ (hsame₁.1.trans hsame₂)

theorem onlyOwner_establishes {sender : Nat} {body : Dispatch Unit} {post : Unit → Slots → Prop}
    (h : sender = slots.owner → body.Establishes (Keeps coded) post slots) :
    (onlyOwner sender body).Establishes (Keeps coded) post slots := by
  simp only [onlyOwner, Program.establishes_bind, establishes_getSlots,
    Program.establishes_require, decide_eq_true_eq]
  exact h

/-- A body between raising and lowering the flag. -/
theorem upgrading_establishes {body : Dispatch Unit} {post : Slots → Prop}
    (h : body.Establishes (Keeps coded)
      (fun _ slots' => post { slots' with isUpgrade := upgradeFalse })
      { slots with isUpgrade := upgradeTrue }) :
    (upgrading body).Establishes (Keeps coded) (fun _ => post) slots := by
  simp only [upgrading, Program.establishes_bind, establishes_getSlots, establishes_setSlots]
  exact h

/-- What a successful move leaves. -/
structure Moved (newTarget newPrevious : Nat) (slots : Slots) : Prop where
  target : slots.target = newTarget
  previousTarget : slots.previousTarget = newPrevious
  isUpgrade : slots.isUpgrade = upgradeFalse

theorem construct_establishes (newTarget : Nat) :
    (construct newTarget).Establishes (Keeps coded)
      (fun _ slots' => Moved newTarget slots.previousTarget slots' ∧ coded newTarget) slots := by
  apply upgrading_establishes
  simp only [Program.establishes_bind, establishes_isContract, Program.establishes_require,
    establishes_getSlots, establishes_setSlots]
  intro answer slots₁ hanswer hcontract
  apply verifyState_establishes
  intro slots₂ hsame₂
  apply verifyUpgradeableState_establishes
  intro slots₃ hsame₃
  apply finishUpgrade_establishes
  intro slots₄ hsame₄
  have hsame := (hanswer.1.trans hsame₂).trans hsame₃
  exact ⟨⟨hsame₄.target, hsame₄.previousTarget.trans hsame.previousTarget, rfl⟩,
    hanswer.2 hcontract⟩

/-- A successful upgrade moves the target and keeps the old one as the previous target. -/
theorem upgrade_establishes (newTarget : Nat) :
    (upgrade newTarget).Establishes (Keeps coded)
      (fun _ slots' => Moved newTarget slots.target slots' ∧ coded newTarget) slots := by
  apply upgrading_establishes
  simp only [Program.establishes_bind, establishes_isContract, Program.establishes_require,
    establishes_getSlots]
  intro answer slots₁ hanswer hcontract
  have hcoded := hanswer.2 hcontract
  apply verifyState_establishes
  intro slots₂ hsame₂
  apply verifyUpgradeableState_establishes
  intro slots₃ hsame₃ isContract slots₄ hanswer₄
  -- Whether or not the old target is checked as well, the end is the same.
  apply checkIfContract_establishes
  intro slots₅ hsame₅
  simp only [Program.establishes_bind, establishes_getSlots, establishes_setSlots]
  apply finishUpgrade_establishes
  intro slots₆ hsame₆
  have hsame := (((hanswer.1.trans hsame₂).trans hsame₃).trans hanswer₄.1).trans hsame₅
  exact ⟨⟨hsame₆.target, hsame₆.previousTarget.trans hsame.target, rfl⟩, hcoded⟩

/-- A successful rollback moves the target back, once. -/
theorem rollback_establishes :
    rollback.Establishes (Keeps coded)
      (fun _ slots' => Moved slots.previousTarget 0 slots' ∧ coded slots.previousTarget) slots := by
  apply upgrading_establishes
  simp only [Program.establishes_bind, establishes_isContract, Program.establishes_require,
    establishes_getSlots]
  intro answer slots₁ hanswer hcontract
  have hcoded := hanswer.2 hcontract
  apply verifyState_establishes
  intro slots₂ hsame₂ isContract slots₃ hanswer₃
  apply checkIfContract_establishes
  intro slots₄ hsame₄
  simp only [Program.establishes_bind, establishes_getSlots, establishes_setSlots]
  apply finishUpgrade_establishes
  intro slots₅ hsame₅
  have hsame := ((hanswer.1.trans hsame₂).trans hanswer₃.1).trans hsame₄
  exact ⟨⟨hsame₅.target.trans hsame.previousTarget, hsame₅.previousTarget, rfl⟩, hcoded⟩

/-- The other functions leave the target. -/
theorem dispatch_keeps {message : Message} (h : (decode message).movesTarget = false) :
    (dispatch message).Establishes (Keeps coded) (fun _ slots' => SameTarget slots slots') slots := by
  unfold dispatch
  cases hentry : decode message with
  | deploy => trivial
  | malformed => trivial
  | receive => exact forward_establishes fun _ hsame => hsame
  | fallback => exact forward_establishes fun _ hsame => hsame
  | verifyState testTarget => exact verifyState_establishes fun _ hsame => hsame
  | finishUpgrade target => exact SameTarget.refl slots
  | getter => exact SameTarget.refl slots
  | transferOwnership newOwner =>
      apply onlyOwner_establishes
      intro _
      simp only [transferOwnership, Program.establishes_bind, Program.establishes_require,
        establishes_getSlots, establishes_setSlots]
      exact fun _ => ⟨rfl, rfl, rfl⟩
  | renounceOwnership =>
      apply onlyOwner_establishes
      intro _
      simp only [renounceOwnership, Program.establishes_bind, establishes_getSlots,
        establishes_setSlots]
      exact ⟨rfl, rfl, rfl⟩
  | upgrade newTarget =>
      rw [hentry] at h
      cases h
  | rollback =>
      rw [hentry] at h
      cases h

end Establishes

/-! ## What is delegated -/

/-- Whether data carries one of the two selectors that the dispatcher shadows. -/
def shadowed (data : Bytes) : Bool :=
  data.take 4 = verifyStateSelector || data.take 4 = finishUpgradeSelector

/-- The questions of the functions that do not move the target. -/
def Question.Unshadowed : Question → Prop
  | .isContract _ => True
  | .delegatecall _ data => shadowed data = false

theorem delegateGet_asks {target : Nat} {selector : Bytes} (h : shadowed selector = false) :
    (delegateGet target selector).Asks Question.Unshadowed := by
  have hcall : (delegatecall target selector).Asks Question.Unshadowed := ⟨h, fun _ => trivial⟩
  apply hcall.bind
  intro answer
  exact (Program.asks_require _).bind fun _ => trivial

theorem verifyState_asks (testTarget : Nat) :
    (verifyState testTarget).Asks Question.Unshadowed := by
  intro slots
  apply Program.Asks.bind (Program.asks_require _)
  intro _
  apply Program.Asks.bind (delegateGet_asks (by decide))
  intro owner slots
  apply Program.Asks.bind (Program.asks_require _)
  intro _
  apply Program.Asks.bind (delegateGet_asks (by decide))
  intro target slots
  apply Program.Asks.bind (Program.asks_require _)
  intro _
  apply Program.Asks.bind (delegateGet_asks (by decide))
  intro previousTarget slots
  apply Program.Asks.bind (Program.asks_require _)
  intro _
  apply Program.Asks.bind (delegateGet_asks (by decide))
  intro isUpgrade slots
  exact Program.asks_require _

theorem forward_asks {data : Bytes} (h : shadowed data = false) :
    (forward data).Asks Question.Unshadowed := by
  refine fun slots => ⟨trivial, fun answer => ?_⟩
  apply Program.Asks.bind (Program.asks_require _)
  intro _ slots'
  exact ⟨h, fun answer => Program.asks_require _⟩

theorem onlyOwner_asks {sender : Nat} {body : Dispatch Unit}
    (h : body.Asks Question.Unshadowed) : (onlyOwner sender body).Asks Question.Unshadowed := by
  have hget : getSlots.Asks Question.Unshadowed := fun _ => trivial
  apply hget.bind
  intro slots
  exact (Program.asks_require _).bind fun _ => h

/-- The shadowed selectors are those of two functions with one address. -/
theorem addressEntry_of_shadowed {data : Bytes} (h : shadowed data = true) :
    addressEntry (data.take 4) = some .verifyState ∨
      addressEntry (data.take 4) = some .finishUpgrade := by
  simp only [shadowed, Bool.or_eq_true, decide_eq_true_eq] at h
  rcases h with hverify | hfinish
  · rw [hverify]
    exact Or.inl rfl
  · rw [hfinish]
    exact Or.inr rfl

/-- Data that the fallback receives carries no selector of the dispatcher. -/
theorem shadowed_of_decode_fallback {message : Message} (h : decode message = .fallback) :
    shadowed message.data = false := by
  by_contra hshadowed
  rw [Bool.not_eq_false] at hshadowed
  have hentry := addressEntry_of_shadowed hshadowed
  unfold decode at h
  split at h
  · cases h
  · split at h
    · next hshort =>
        -- Data that is too short for a selector has no entry.
        have hlength : (message.data.take 4).length < 4 := by
          rw [List.length_take]
          omega
        simp only [shadowed, Bool.or_eq_true, decide_eq_true_eq] at hshadowed
        rcases hshadowed with hverify | hfinish
        · rw [hverify] at hlength
          exact absurd hlength (by decide)
        · rw [hfinish] at hlength
          exact absurd hlength (by decide)
    · rcases hentry with hverify | hfinish
      · simp only [hverify] at h
        split at h
        · cases h
        · cases hargument : decodeAddress (message.data.drop 4) <;> rw [hargument] at h <;> cases h
      · simp only [hfinish] at h
        split at h
        · cases h
        · cases hargument : decodeAddress (message.data.drop 4) <;> rw [hargument] at h <;> cases h

/-- The functions that do not move the target delegate no shadowed call. -/
theorem dispatch_asks {message : Message} (h : (decode message).movesTarget = false) :
    (dispatch message).Asks Question.Unshadowed := by
  unfold dispatch
  cases hentry : decode message with
  | deploy => trivial
  | malformed => trivial
  | receive => exact forward_asks (by decide)
  | fallback => exact forward_asks (shadowed_of_decode_fallback hentry)
  | verifyState testTarget => exact verifyState_asks testTarget
  | finishUpgrade target => trivial
  | getter => trivial
  | transferOwnership newOwner =>
      apply onlyOwner_asks
      exact Program.Asks.bind (Program.asks_require _) fun _ _ => trivial
  | renounceOwnership => exact onlyOwner_asks fun _ => trivial
  | upgrade newTarget =>
      rw [hentry] at h
      cases h
  | rollback =>
      rw [hentry] at h
      cases h

end Proxy

end NuLink
