import NuLinkCore.Contracts.Proxy.Dispatcher

/-!
# Histories of a dispatcher

A history is the list of transactions that a deployed dispatcher has gone through, each
with the slots before it, the calls it delegated and the slots after it unless it
reverted.  Delegated code may send messages back to the dispatcher while it runs, from
any sender and to any depth, as long as they do not upgrade or roll back; it does not
write the slots itself.

Main results:

- Theorem {lit}`Call.harmless`: a message that is sent back leaves the target.
- Theorem {lit}`history_disciplined`: what every transaction of a history does.
-/

namespace NuLink
namespace Proxy

open Evm

/-! ## Transactions -/

/-- A delegated call: the function that made it, the code that it ran and its data. -/
structure Delegation where
  entry : Entry
  code : Nat
  data : Bytes
deriving DecidableEq, Repr

/-- What happens when a message is sent: the delegated calls, and the slots before and after. -/
abbrev Sending : Type := Message → Slots → List Delegation → Slots → Prop

/-- Messages that are sent one after the other. -/
inductive Callbacks (call : Sending) : Slots → List Delegation → Slots → Prop where
  | nil (slots : Slots) : Callbacks call slots [] slots
  | cons {message : Message} {slots slots' slots'' : Slots} {trace traces : List Delegation}
      (hcall : call message slots trace slots') (hrest : Callbacks call slots' traces slots'') :
      Callbacks call slots (trace ++ traces) slots''

/-- The answers that a function gets.  Accounts of a given kind may have code, and delegated code
may send messages; a delegated call that fails leaves the slots. -/
def answers (coded : Nat → Prop) (call : Sending) (entry : Entry) :
    Program.Outside Slots Question Answer Delegation
  | .isContract account, slots, answer, slots', asked =>
      (answer = true → coded account) ∧ slots' = slots ∧ asked = []
  | .delegatecall code data, slots, answer, slots', asked =>
      ∃ nested after, Callbacks call slots nested after ∧ asked = ⟨entry, code, data⟩ :: nested ∧
        slots' = if answer.1 then after else slots

/-- A message that runs in the dispatcher, whether it reverts or not. -/
def Transaction (coded : Nat → Prop) (call : Sending) (message : Message) (slots : Slots)
    (trace : List Delegation) (result : Option (Unit × Slots)) : Prop :=
  Program.Runs (answers coded call (decode message)) (dispatch message) slots trace result

/-- A message that delegated code sends back, with messages to a given depth below it. -/
def Call (coded : Nat → Prop) : Nat → Sending
  | 0, _, _, _, _ => False
  | depth + 1, message, slots, trace, slots' =>
      (decode message).movesTarget = false ∧
        ∃ result, Transaction coded (Call coded depth) message slots trace result ∧
          slots' = (result.map Prod.snd).getD slots

/-- The slots of a dispatcher that a sender has deployed.  The contract has no code while its
constructor runs, so that no message reaches it. -/
def Deployed (coded : Nat → Prop) (sender newTarget : Nat) (slots : Slots) : Prop :=
  ∃ trace, Program.Runs (answers coded (fun _ _ _ _ => False) .deploy) (construct newTarget)
    ⟨sender, 0, 0, 0⟩ trace (some ((), slots))

/-- A transaction of a history. -/
structure Record where
  message : Message
  /-- The accounts that have code at some time in the transaction. -/
  coded : Nat → Prop
  before : Slots
  trace : List Delegation
  /-- The slots after it, unless it reverts. -/
  after : Option Slots

/-- The slots that a transaction leaves. -/
def Record.slots (record : Record) : Slots := record.after.getD record.before

/-- The transactions of a dispatcher, the newest first, and the slots after them. -/
inductive History (initial : Slots) : List Record → Slots → Prop where
  | nil : History initial [] initial
  | cons {records : List Record} {slots : Slots} {coded : Nat → Prop} {depth : Nat}
      {message : Message} {trace : List Delegation} {result : Option (Unit × Slots)}
      (hrecords : History initial records slots) (hzero : ¬ coded 0)
      (htransaction : Transaction coded (Call coded depth) message slots trace result) :
      History initial (⟨message, coded, slots, trace, result.map Prod.snd⟩ :: records)
        ((result.map Prod.snd).getD slots)

/-! ## What is sent back -/

/-- A sending that leaves the target and delegates no shadowed call. -/
def Harmless (call : Sending) : Prop :=
  ∀ message slots trace slots', call message slots trace slots' →
    SameTarget slots slots' ∧ ∀ delegation ∈ trace, shadowed delegation.data = false

section Harmless

variable {coded : Nat → Prop} {call : Sending}

theorem Callbacks.harmless (hcall : Harmless call) {slots slots' : Slots}
    {trace : List Delegation} (h : Callbacks call slots trace slots') :
    SameTarget slots slots' ∧ ∀ delegation ∈ trace, shadowed delegation.data = false := by
  induction h with
  | nil slots => exact ⟨SameTarget.refl slots, by simp⟩
  | cons hfirst hrest ih =>
      rcases hcall _ _ _ _ hfirst with ⟨hsame, hunshadowed⟩
      refine ⟨hsame.trans ih.1, ?_⟩
      intro delegation hdelegation
      rcases List.mem_append.mp hdelegation with htrace | htraces
      · exact hunshadowed delegation htrace
      · exact ih.2 delegation htraces

/-- The answers keep the target. -/
theorem keeps_of_answers (hcall : Harmless call) {entry : Entry} :
    ∀ question slots answer slots' asked,
      answers coded call entry question slots answer slots' asked →
        Keeps coded question slots answer slots' := by
  intro question slots answer slots' asked h
  cases question with
  | isContract account =>
      rcases h with ⟨hcoded, rfl, -⟩
      exact ⟨SameTarget.refl slots', hcoded⟩
  | delegatecall code data =>
      rcases h with ⟨nested, after, hnested, -, rfl⟩
      cases hsuccess : answer.1 with
      | false => exact SameTarget.refl slots
      | true => exact (hnested.harmless hcall).1

/-- A delegated call of a transaction carries a shadowed selector only if the transaction itself
makes it and moves the target. -/
def Delegation.Proper (delegation : Delegation) (message : Message) : Prop :=
  shadowed delegation.data = true →
    delegation.entry = decode message ∧ (decode message).movesTarget = true

theorem proper_of_answers (hcall : Harmless call) {message : Message}
    {allowed : Question → Prop}
    (hallowed : ∀ code data, allowed (.delegatecall code data) → shadowed data = true →
      (decode message).movesTarget = true) :
    ∀ question slots answer slots' asked, allowed question →
      answers coded call (decode message) question slots answer slots' asked →
        ∀ delegation ∈ asked, delegation.Proper message := by
  intro question slots answer slots' asked hquestion h delegation hdelegation
  cases question with
  | isContract account =>
      rcases h with ⟨-, -, rfl⟩
      cases hdelegation
  | delegatecall code data =>
      rcases h with ⟨nested, after, hnested, rfl, -⟩
      intro hshadowed
      rcases List.mem_cons.mp hdelegation with rfl | hinner
      · exact ⟨rfl, hallowed code data hquestion hshadowed⟩
      · rw [(hnested.harmless hcall).2 delegation hinner] at hshadowed
        cases hshadowed

theorem Transaction.proper (hcall : Harmless call) {message : Message} {slots : Slots}
    {trace : List Delegation} {result : Option (Unit × Slots)}
    (h : Transaction coded call message slots trace result) :
    ∀ delegation ∈ trace, delegation.Proper message := by
  cases hmoves : (decode message).movesTarget with
  | false =>
      refine Program.Runs.good_trace h (dispatch_asks hmoves) (proper_of_answers hcall ?_)
      intro code data hunshadowed hshadowed
      rw [show shadowed data = false from hunshadowed] at hshadowed
      cases hshadowed
  | true =>
      refine Program.Runs.good_trace h (Program.asks_true _) (proper_of_answers hcall ?_)
      intro code data _ _
      exact hmoves

/-- A message that is sent back leaves the target and delegates no shadowed call. -/
theorem Call.harmless (depth : Nat) : Harmless (Call coded depth) := by
  induction depth with
  | zero =>
      intro message slots trace slots' h
      cases h
  | succ depth ih =>
      intro message slots trace slots' h
      rcases h with ⟨hmoves, result, htransaction, rfl⟩
      constructor
      · have hpost := Program.Runs.post htransaction (keeps_of_answers ih) (dispatch_keeps hmoves)
        cases result with
        | none => exact SameTarget.refl slots
        | some final => exact hpost final.1 final.2 rfl
      · intro delegation hdelegation
        by_contra hshadowed
        rw [Bool.not_eq_false] at hshadowed
        have hproper := htransaction.proper ih delegation hdelegation hshadowed
        rw [hmoves] at hproper
        cases hproper.2

end Harmless

/-- What a transaction can do to the slots. -/
inductive Outcome (coded : Nat → Prop) (message : Message) (slots : Slots) :
    Option Slots → Prop where
  | reverted : Outcome coded message slots none
  | unmoved {slots' : Slots} (hmoves : (decode message).movesTarget = false)
      (hsame : SameTarget slots slots') : Outcome coded message slots (some slots')
  | upgraded {newTarget : Nat} {slots' : Slots} (hentry : decode message = .upgrade newTarget)
      (howner : message.sender = slots.owner) (hcoded : coded newTarget)
      (hmoved : Moved newTarget slots.target slots') : Outcome coded message slots (some slots')
  | rolledBack {slots' : Slots} (hentry : decode message = .rollback)
      (howner : message.sender = slots.owner) (hcoded : coded slots.previousTarget)
      (hmoved : Moved slots.previousTarget 0 slots') : Outcome coded message slots (some slots')

/-- A transaction has one of these outcomes. -/
theorem dispatch_outcome {coded : Nat → Prop} {message : Message} {slots : Slots} :
    (dispatch message).Establishes (Keeps coded)
      (fun _ slots' => Outcome coded message slots (some slots')) slots := by
  cases hmoves : (decode message).movesTarget with
  | false => exact (dispatch_keeps hmoves).mono fun _ _ hsame => Outcome.unmoved hmoves hsame
  | true =>
      unfold dispatch
      cases hentry : decode message with
      | deploy => trivial
      | upgrade newTarget =>
          apply onlyOwner_establishes
          intro howner
          apply (upgrade_establishes newTarget).mono
          exact fun _ _ hmoved => Outcome.upgraded hentry howner hmoved.2 hmoved.1
      | rollback =>
          apply onlyOwner_establishes
          intro howner
          apply rollback_establishes.mono
          exact fun _ _ hmoved => Outcome.rolledBack hentry howner hmoved.2 hmoved.1
      | _ =>
          rw [hentry] at hmoves
          cases hmoves

theorem Transaction.outcome {coded : Nat → Prop} {call : Sending} (hcall : Harmless call)
    {message : Message} {slots : Slots} {trace : List Delegation}
    {result : Option (Unit × Slots)} (h : Transaction coded call message slots trace result) :
    Outcome coded message slots (result.map Prod.snd) := by
  have hpost := Program.Runs.post h (keeps_of_answers hcall) dispatch_outcome
  cases result with
  | none => exact Outcome.reverted
  | some final => exact hpost final.1 final.2 rfl

/-! ## What histories do -/

/-- Whether a transaction has moved the target. -/
def Record.moved (record : Record) : Bool :=
  (decode record.message).movesTarget && record.after.isSome

/-- What a transaction does, after earlier ones. -/
structure Record.Disciplined (record : Record) (earlier : List Record) : Prop where
  /-- No upgrade is under way, before or after it. -/
  lowered : record.before.isUpgrade = upgradeFalse ∧ record.slots.isUpgrade = upgradeFalse
  /-- Only the owner moves the target. -/
  owner : record.slots.target ≠ record.before.target ∨
      record.slots.previousTarget ≠ record.before.previousTarget →
    record.message.sender = record.before.owner ∧ record.moved = true
  /-- A successful upgrade. -/
  upgrade : ∀ newTarget slots, decode record.message = .upgrade newTarget →
    record.after = some slots →
      record.message.sender = record.before.owner ∧ record.coded newTarget ∧
        slots.target = newTarget ∧ slots.previousTarget = record.before.target
  /-- A successful rollback. -/
  rollback : ∀ slots, decode record.message = .rollback → record.after = some slots →
      record.message.sender = record.before.owner ∧ record.coded record.before.previousTarget ∧
        slots.target = record.before.previousTarget ∧ slots.previousTarget = 0
  /-- A successful rollback undoes the last move, which is an upgrade. -/
  undoes : ∀ slots, decode record.message = .rollback → record.after = some slots →
    ∃ last newTarget, earlier.find? Record.moved = some last ∧
      decode last.message = .upgrade newTarget ∧ record.before.target = newTarget ∧
        slots.target = last.before.target
  /-- Shadowed calls are delegated by upgrades and rollbacks only. -/
  proper : ∀ delegation ∈ record.trace, delegation.Proper record.message

/-- What the transactions so far leave: the last move decides where a rollback goes. -/
structure Settled (records : List Record) (slots : Slots) : Prop where
  isUpgrade : slots.isUpgrade = upgradeFalse
  /-- Before the first move and after a rollback there is no previous target. -/
  previousTarget : (∀ last newTarget, records.find? Record.moved = some last →
    decode last.message ≠ .upgrade newTarget) → slots.previousTarget = 0
  /-- After an upgrade the previous target is the one before it. -/
  upgraded : ∀ last newTarget, records.find? Record.moved = some last →
    decode last.message = .upgrade newTarget →
      slots.target = newTarget ∧ slots.previousTarget = last.before.target

/-- A transaction that leaves the target leaves what is settled. -/
theorem Settled.unmoved {records : List Record} {slots slots' : Slots} {record : Record}
    (h : Settled records slots) (hmoved : record.moved = false) (hsame : SameTarget slots slots') :
    Settled (record :: records) slots' := by
  constructor
  · rw [hsame.isUpgrade, h.isUpgrade]
  · rw [List.find?_cons_of_neg (by simp [hmoved]), hsame.previousTarget]
    exact h.previousTarget
  · rw [List.find?_cons_of_neg (by simp [hmoved]), hsame.target, hsame.previousTarget]
    exact h.upgraded

/-- The slots after the constructor. -/
theorem Deployed.settled {coded : Nat → Prop} {sender newTarget : Nat} {slots : Slots}
    (h : Deployed coded sender newTarget slots) : Settled [] slots := by
  rcases h with ⟨trace, hrun⟩
  have hharmless : Harmless fun _ _ _ _ => False := fun _ _ _ _ h => h.elim
  have hpost :=
    hrun.post (keeps_of_answers hharmless) (construct_establishes newTarget) () slots rfl
  constructor
  · exact hpost.1.isUpgrade
  · exact fun _ => hpost.1.previousTarget
  · intro last newTarget hlast
    cases hlast

section Step

variable {record : Record} {earlier : List Record}

/-- A transaction that moves the target is the last move. -/
theorem Settled.moved {slots : Slots} (hmoved : record.moved = true)
    (hflag : slots.isUpgrade = upgradeFalse)
    (hprevious : (∀ newTarget, decode record.message ≠ .upgrade newTarget) →
      slots.previousTarget = 0)
    (hupgraded : ∀ newTarget, decode record.message = .upgrade newTarget →
      slots.target = newTarget ∧ slots.previousTarget = record.before.target) :
    Settled (record :: earlier) slots := by
  have hlast : (record :: earlier).find? Record.moved = some record :=
    List.find?_cons_of_pos hmoved
  constructor
  · exact hflag
  · intro hnone
    exact hprevious fun newTarget => hnone record newTarget hlast
  · intro last newTarget hfind hdecode
    rw [hlast] at hfind
    cases hfind
    exact hupgraded newTarget hdecode

/-- One transaction keeps what is settled. -/
theorem Settled.step (h : Settled earlier record.before)
    (houtcome : Outcome record.coded record.message record.before record.after) :
    Settled (record :: earlier) record.slots := by
  rcases record with ⟨message, coded, before, trace, after⟩
  cases houtcome with
  | reverted => exact h.unmoved (by simp [Record.moved]) (SameTarget.refl before)
  | unmoved hmoves hsame => exact h.unmoved (by simp [Record.moved, hmoves]) hsame
  | upgraded hentry howner hcoded hmoved =>
      dsimp only at hentry
      apply Settled.moved (by simp [Record.moved, hentry, Entry.movesTarget]) hmoved.isUpgrade
      · intro hnone
        exact absurd hentry (hnone _)
      · intro newTarget hdecode
        rw [hentry] at hdecode
        cases hdecode
        exact ⟨hmoved.target, hmoved.previousTarget⟩
  | rolledBack hentry howner hcoded hmoved =>
      dsimp only at hentry
      apply Settled.moved (by simp [Record.moved, hentry, Entry.movesTarget]) hmoved.isUpgrade
      · exact fun _ => hmoved.previousTarget
      · intro newTarget hdecode
        rw [hentry] at hdecode
        cases hdecode

/-- After what is settled, a previous target that has code comes from an upgrade. -/
theorem Settled.last_upgrade {slots : Slots} (h : Settled earlier slots)
    (hprevious : slots.previousTarget ≠ 0) :
    ∃ last newTarget, earlier.find? Record.moved = some last ∧
      decode last.message = .upgrade newTarget ∧ slots.target = newTarget ∧
        slots.previousTarget = last.before.target := by
  by_contra hnone
  apply hprevious
  apply h.previousTarget
  intro last newTarget hlast hdecode
  have hupgraded := h.upgraded last newTarget hlast hdecode
  exact hnone ⟨last, newTarget, hlast, hdecode, hupgraded.1, hupgraded.2⟩

/-- One transaction is disciplined. -/
theorem Settled.disciplined (h : Settled earlier record.before) (hzero : ¬ record.coded 0)
    (houtcome : Outcome record.coded record.message record.before record.after)
    (hproper : ∀ delegation ∈ record.trace, delegation.Proper record.message) :
    record.Disciplined earlier := by
  have hlowered := And.intro h.isUpgrade (h.step houtcome).isUpgrade
  rcases record with ⟨message, coded, before, trace, after⟩
  cases houtcome with
  | reverted => exact
      { lowered := hlowered
        owner := by simp [Record.slots]
        upgrade := by simp
        rollback := by simp
        undoes := by simp
        proper := hproper }
  | unmoved hmoves hsame => exact
      { lowered := hlowered
        owner := by simp [Record.slots, hsame.target, hsame.previousTarget]
        upgrade := by
          intro newTarget slots hentry
          simp [hentry, Entry.movesTarget] at hmoves
        rollback := by
          intro slots hentry
          simp [hentry, Entry.movesTarget] at hmoves
        undoes := by
          intro slots hentry
          simp [hentry, Entry.movesTarget] at hmoves
        proper := hproper }
  | upgraded hentry howner hcoded hmoved =>
    dsimp only at hentry
    exact
      { lowered := hlowered
        owner := fun _ => ⟨howner, by simp [Record.moved, hentry, Entry.movesTarget]⟩
        upgrade := by
          intro newTarget slots hupgrade hafter
          rw [hentry] at hupgrade
          cases hupgrade
          cases hafter
          exact ⟨howner, hcoded, hmoved.target, hmoved.previousTarget⟩
        rollback := by simp [hentry]
        undoes := by simp [hentry]
        proper := hproper }
  | rolledBack hentry howner hcoded hmoved =>
    dsimp only at hentry
    exact
      { lowered := hlowered
        owner := fun _ => ⟨howner, by simp [Record.moved, hentry, Entry.movesTarget]⟩
        upgrade := by simp [hentry]
        rollback := by
          intro slots _ hafter
          cases hafter
          exact ⟨howner, hcoded, hmoved.target, hmoved.previousTarget⟩
        undoes := by
          intro slots _ hafter
          cases hafter
          have hprevious : before.previousTarget ≠ 0 := by
            intro heq
            exact hzero (heq ▸ hcoded)
          rcases h.last_upgrade hprevious with ⟨last, newTarget, hlast, hdecode, htarget, hback⟩
          exact ⟨last, newTarget, hlast, hdecode, htarget, hmoved.target.trans hback⟩
        proper := hproper }

end Step

/-- Every history is settled. -/
theorem History.settled {initial slots : Slots} {records : List Record}
    (hinitial : Settled [] initial) (h : History initial records slots) :
    Settled records slots := by
  induction h with
  | nil => exact hinitial
  | cons hrecords hzero htransaction ih =>
      exact ih.step (htransaction.outcome (Call.harmless _))

/-- In every history of a deployed dispatcher no upgrade is under way between transactions, and
every transaction is disciplined. -/
theorem history_disciplined {coded : Nat → Prop} {sender newTarget : Nat} {initial slots : Slots}
    {records : List Record} (hdeployed : Deployed coded sender newTarget initial)
    (h : History initial records slots) :
    slots.isUpgrade = upgradeFalse ∧
      ∀ record earlier, record :: earlier <:+ records → record.Disciplined earlier := by
  refine ⟨(h.settled hdeployed.settled).isUpgrade, ?_⟩
  induction h with
  | nil =>
      intro record earlier hsuffix
      cases List.suffix_nil.mp hsuffix
  | cons hrecords hzero htransaction ih =>
      intro record earlier hsuffix
      rcases List.suffix_cons_iff.mp hsuffix with heq | hearlier
      · cases heq
        have hsettled := hrecords.settled hdeployed.settled
        exact hsettled.disciplined hzero (htransaction.outcome (Call.harmless _))
          (htransaction.proper (Call.harmless _))
      · exact ih record earlier hearlier

/-! ## A sample -/

/-- The accounts 7 and 8 have code, and their getters read the slots. -/
def sampleReply : (question : Question) → Slots → Answer question
  | .isContract account, _ => decide (account = 7 ∨ account = 8)
  | .delegatecall _ data, slots =>
      (true,
        if data = ownerSelector then slots.owner
        else if data = targetSelector then slots.target
        else if data = previousTargetSelector then slots.previousTarget
        else slots.isUpgrade)

def sampleEvent (entry : Entry) : Question → List Delegation
  | .isContract _ => []
  | .delegatecall code data => [⟨entry, code, data⟩]

def sampleCoded (account : Nat) : Prop := account = 7 ∨ account = 8

theorem sample_answers {call : Sending} (entry : Entry) (question : Question) (slots : Slots) :
    answers sampleCoded call entry question slots (sampleReply question slots) slots
      (sampleEvent entry question) := by
  cases question with
  | isContract account => exact ⟨of_decide_eq_true, rfl, rfl⟩
  | delegatecall code data => exact ⟨[], slots, Callbacks.nil slots, rfl, rfl⟩

/-- The transaction of a message in the sample. -/
def sampleRun (message : Message) (slots : Slots) : List Delegation × Option (Unit × Slots) :=
  (dispatch message).execute sampleReply (sampleEvent (decode message)) slots

def sampleRecord (message : Message) (slots : Slots) : Record :=
  ⟨message, sampleCoded, slots, (sampleRun message slots).1,
    (sampleRun message slots).2.map Prod.snd⟩

/-- The account 5 deploys the target 7, upgrades to 8 and rolls back. -/
def sampleUpgrade : Message := ⟨5, 0, encodeWithSelector upgradeSelector 8⟩
def sampleRollback : Message := ⟨5, 0, rollbackSelector⟩

theorem sample_deployed : Deployed sampleCoded 5 7 ⟨5, 7, 0, 1⟩ :=
  ⟨_, Program.runs_execute (sample_answers Entry.deploy) (construct 7) ⟨5, 0, 0, 0⟩⟩

/-- The transaction of a message in the sample leaves these slots. -/
theorem sample_cons {records : List Record} {initial slots slots' : Slots} (message : Message)
    (h : History initial records slots)
    (hslots : ((sampleRun message slots).2.map Prod.snd).getD slots = slots') :
    History initial (sampleRecord message slots :: records) slots' := by
  have hzero : ¬ sampleCoded 0 := by simp [sampleCoded]
  have htransaction : Transaction sampleCoded (Call sampleCoded 0) message slots
      (sampleRun message slots).1 (sampleRun message slots).2 :=
    Program.runs_execute (sample_answers (decode message)) (dispatch message) slots
  have hcons := h.cons hzero htransaction
  rw [hslots] at hcons
  exact hcons

theorem sample_history : History ⟨5, 7, 0, 1⟩
    [sampleRecord sampleRollback ⟨5, 8, 7, 1⟩, sampleRecord sampleUpgrade ⟨5, 7, 0, 1⟩]
    ⟨5, 7, 0, 1⟩ := by
  have hslots : ((sampleRun sampleUpgrade ⟨5, 7, 0, 1⟩).2.map Prod.snd).getD ⟨5, 7, 0, 1⟩
      = ⟨5, 8, 7, 1⟩ := by
    decide +kernel
  have hupgrade := sample_cons sampleUpgrade History.nil hslots
  exact sample_cons sampleRollback hupgrade (by decide +kernel)

theorem history_disciplined_sample :
    upgradeFalse = 1 ∧ ∀ record earlier,
      record :: earlier <:+ [sampleRecord sampleRollback ⟨5, 8, 7, 1⟩,
        sampleRecord sampleUpgrade ⟨5, 7, 0, 1⟩] → record.Disciplined earlier :=
  ⟨rfl, (history_disciplined sample_deployed sample_history).2⟩

end Proxy

end NuLink
