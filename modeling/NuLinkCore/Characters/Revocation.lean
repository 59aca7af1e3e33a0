import Mathlib.Data.String.Basic
import NuLinkCore.Lib.KeyedSet
import NuLinkCore.Lib.Sweep
import NuLinkCore.Network.Middleware
import NuLinkCore.Network.Waiting
import NuLinkCore.Characters.Alice

/-!
# Revoking a policy

Alice waits until most of the nodes of a policy are known and then asks them one by one to
revoke it, in the order in which a set of addresses is listed.  She notes the nodes that refuse.
A node that is still missing, or that cannot be reached, raises in the middle of the loop, and
the nodes that come after it are not asked.

Main results:

- Theorem {lit}`Alice.revoke_failed_iff`: what a revocation that returns has noted.
- Theorem {lit}`Alice.revoke_stops`: the node that raises is the last one that is asked.
- Theorem {lit}`Alice.revoke_reachesEveryone_iff`: exactly when everyone is reached.
- Theorem {lit}`missing_node_stops_revocation`: a missing node keeps a known one from being
  asked.
-/

namespace NuLink

open Collections

/-! ## The revocation kit -/

namespace EnactedPolicy

variable {core : NucypherCore}

/-- {lit}`RevocationKit.revokable_addresses`. -/
def revokableAddresses (codec : AddressCodec) (policy : EnactedPolicy core) :
    Finset ChecksumAddress :=
  (policy.revocationKit.keys.map codec.toChecksumAddress).toFinset

/-- {lit}`RevocationKit.__getitem__`. -/
def revocation (codec : AddressCodec) (policy : EnactedPolicy core)
    (ursulaAddress : ChecksumAddress) : Option core.RevocationOrder :=
  policy.revocationKit.get? (codec.toCanonicalAddress ursulaAddress)

/-- Every revokable address has a revocation order. -/
theorem exists_revocation {codec : AddressCodec} {policy : EnactedPolicy core}
    {address : ChecksumAddress} (h : address ∈ policy.revokableAddresses codec) :
    ∃ order, policy.revocation codec address = some order := by
  rw [revokableAddresses, List.mem_toFinset, List.mem_map] at h
  rcases h with ⟨canonical, hcanonical, rfl⟩
  rw [revocation, codec.canonical_checksum]
  exact Dict.mem_keys_iff_exists.mp hcanonical

/-- The number of nodes that Alice waits for. -/
def revocationThreshold (policy : EnactedPolicy core) : Int :=
  ((policy.shares : Int) - policy.threshold) + 1

end EnactedPolicy

/-! ## Asking the nodes -/

/-- The exception class that is noted for a node. -/
inductive RevocationFailure where
  | notFound
  | unexpectedResponse
deriving DecidableEq

/-- Why {lit}`Alice.revoke` raises. -/
inductive RevokeError where
  | valueError (message : String)
  | wait (error : WaitError)
  | keyError (nodeId : ChecksumAddress)
  | middleware (error : RequestError)
  | actorError (message : String)

/-- What a revocation meets: the turns of its wait, the order in which the set of addresses is
listed, and what comes of asking a node. -/
structure RevocationContext (core : NucypherCore) where
  rounds : List (WaitRound (KnownNode core.PublicKey))
  listing : Enumeration ChecksumAddress
  network : KnownNode core.PublicKey → core.RevocationOrder → Exchange

namespace Alice

variable {core : NucypherCore} (codec : AddressCodec)

/-- {lit}`request_revocation` and the handling of what it brings. -/
def requestRevocation (nodeId : ChecksumAddress) (exchange : Exchange)
    (revocation : core.RevocationOrder) :
    Except RevokeError (Option (core.RevocationOrder × RevocationFailure)) :=
  match exchange.request with
  | .error .notFound => .ok (some (revocation, .notFound))
  | .error error =>
      if error.isUnexpectedResponse then .ok (some (revocation, .unexpectedResponse))
      else .error (.middleware error)
  | .ok status =>
      if status ≠ 200 then
        .error (.actorError ("Failed to revocation for node " ++ nodeId ++
          " with status code " ++ toString status))
      else .ok none

/-- One turn of the loop in {lit}`Alice.revoke`. -/
def revokeNode (policy : EnactedPolicy core)
    (knownNodes : Dict ChecksumAddress (KnownNode core.PublicKey))
    (network : KnownNode core.PublicKey → core.RevocationOrder → Exchange)
    (nodeId : ChecksumAddress) : Visit (core.RevocationOrder × RevocationFailure) RevokeError :=
  match knownNodes.get? nodeId with
  | none => ⟨false, .error (.keyError nodeId)⟩
  | some ursula =>
      match policy.revocation codec nodeId with
      | none => ⟨false, .error (.keyError nodeId)⟩
      | some revocation =>
          ⟨true, requestRevocation nodeId (network ursula revocation) revocation⟩

/-- The loop in {lit}`Alice.revoke`. -/
def revokeNodes (policy : EnactedPolicy core)
    (knownNodes : Dict ChecksumAddress (KnownNode core.PublicKey))
    (context : RevocationContext core) :
    Swept ChecksumAddress (core.RevocationOrder × RevocationFailure) RevokeError :=
  sweep (revokeNode codec policy knownNodes context.network)
    (context.listing.toList (policy.revokableAddresses codec)) Dict.empty

/-- {lit}`Alice.revoke`: the nodes that were asked and the map of the failed ones.  There is no
result while it waits.  Nothing is done on chain, and the receipt is always empty. -/
def revoke (policy : EnactedPolicy core) (onchain offchain : Bool)
    (context : RevocationContext core) :
    Option (Swept ChecksumAddress (core.RevocationOrder × RevocationFailure) RevokeError) :=
  if ¬ (offchain || onchain) then
    some ⟨[], .error
      (.valueError "offchain or onchain must be True to issue revocation")⟩
  else if offchain then
    (blockUntilSpecificNodesAreKnown (policy.revokableAddresses codec)
      (policy.shares - policy.revocationThreshold) context.rounds).map fun
      | .error error => ⟨[], .error (.wait error)⟩
      | .ok round => revokeNodes codec policy round.knownNodes context
  else some ⟨[], .ok Dict.empty⟩

/-! ## What comes of asking a node -/

/-- The node is known, and what it answers is 200 or raised as an unexpected response. -/
def Answers (policy : EnactedPolicy core)
    (knownNodes : Dict ChecksumAddress (KnownNode core.PublicKey))
    (network : KnownNode core.PublicKey → core.RevocationOrder → Exchange)
    (nodeId : ChecksumAddress) : Prop :=
  ∃ ursula revocation status, knownNodes.get? nodeId = some ursula ∧
    policy.revocation codec nodeId = some revocation ∧
    (network ursula revocation).Responds status ∧ (status = 200 ∨ 300 ≤ status)

/-- The node is known and has answered with 200. -/
def Revoked (policy : EnactedPolicy core)
    (knownNodes : Dict ChecksumAddress (KnownNode core.PublicKey))
    (network : KnownNode core.PublicKey → core.RevocationOrder → Exchange)
    (nodeId : ChecksumAddress) : Prop :=
  ∃ ursula revocation, knownNodes.get? nodeId = some ursula ∧
    policy.revocation codec nodeId = some revocation ∧
    (network ursula revocation).Responds 200

variable {codec}

/-- The loop goes on after a node exactly when it answers with 200 or from 300 on. -/
theorem requestRevocation_isOk_iff (nodeId : ChecksumAddress) (exchange : Exchange)
    (revocation : core.RevocationOrder) :
    (∃ failure, requestRevocation nodeId exchange revocation = .ok failure) ↔
      ∃ status, exchange.Responds status ∧ (status = 200 ∨ 300 ≤ status) := by
  rw [requestRevocation]
  cases hrequest : exchange.request with
  | ok status =>
      rcases (exchange.request_eq_ok_iff status).mp hrequest with ⟨hresponds, hlt⟩
      have honly : (∃ other, exchange.Responds other ∧ (other = 200 ∨ 300 ≤ other)) ↔
          status = 200 := by
        constructor
        · rintro ⟨other, hother, hcode⟩
          rw [hresponds.unique hother] at hcode
          omega
        · intro hstatus
          exact ⟨status, hresponds, .inl hstatus⟩
      rw [honly]
      by_cases hstatus : status = 200 <;> simp [hstatus]
  | error error =>
      have hrefused : (∃ status, exchange.Responds status ∧ (status = 200 ∨ 300 ≤ status)) ↔
          error.isUnexpectedResponse = true := by
        constructor
        · rintro ⟨status, hresponds, hcode⟩
          by_cases hlt : status < 300
          · have hok := (exchange.request_eq_ok_iff status).mpr ⟨hresponds, hlt⟩
            rw [hrequest] at hok
            cases hok
          · rcases Exchange.request_of_le hresponds (not_lt.mp hlt) with
              ⟨other, hother, hunexpected⟩
            rw [hrequest] at hother
            cases hother
            exact hunexpected
        · intro hunexpected
          rcases exchange.request_error hrequest hunexpected with ⟨status, hresponds, hle, -⟩
          exact ⟨status, hresponds, .inr hle⟩
      rw [hrefused]
      cases error <;> simp [RequestError.isUnexpectedResponse]

/-- Nothing is noted for a node that answers with 200. -/
theorem requestRevocation_eq_none_iff (nodeId : ChecksumAddress) (exchange : Exchange)
    (revocation : core.RevocationOrder) :
    requestRevocation nodeId exchange revocation = .ok none ↔ exchange.Responds 200 := by
  have hok := exchange.request_eq_ok_iff 200
  rw [requestRevocation]
  cases hrequest : exchange.request with
  | ok status =>
      rw [hrequest, Except.ok.injEq] at hok
      by_cases hstatus : status = 200
      · simpa [hstatus] using hok
      · simpa [hstatus] using hok
  | error error =>
      rw [hrequest] at hok
      cases error <;> simpa [RequestError.isUnexpectedResponse] using hok

/-- What is noted for a node is its own order, with {lit}`NotFound` for 404 only. -/
theorem requestRevocation_eq_some {nodeId : ChecksumAddress} {exchange : Exchange}
    {revocation order : core.RevocationOrder} {failure : RevocationFailure}
    (h : requestRevocation nodeId exchange revocation = .ok (some (order, failure))) :
    order = revocation ∧ ∃ status, exchange.Responds status ∧ 300 ≤ status ∧
      (failure = .notFound ↔ status = 404) := by
  rw [requestRevocation] at h
  split at h
  · rename_i hrequest
    cases h
    rcases exchange.request_error hrequest rfl with ⟨status, hresponds, hle, hnotFound⟩
    exact ⟨rfl, status, hresponds, hle, by simpa using hnotFound⟩
  · rename_i error hother hrequest
    split_ifs at h with hunexpected
    cases h
    rcases exchange.request_error hrequest hunexpected with
      ⟨status, hresponds, hle, hnotFound⟩
    refine ⟨rfl, status, hresponds, hle, ?_⟩
    rw [← hnotFound]
    constructor
    · exact RevocationFailure.noConfusion
    · intro herror
      exact absurd herror hother
  · split_ifs at h
    cases h

section Node

variable {policy : EnactedPolicy core}
  {knownNodes : Dict ChecksumAddress (KnownNode core.PublicKey)}
  {network : KnownNode core.PublicKey → core.RevocationOrder → Exchange}
  {nodeId : ChecksumAddress}

/-- A known node that has a revocation order is asked. -/
theorem revokeNode_of_known {ursula : KnownNode core.PublicKey}
    {revocation : core.RevocationOrder} (hursula : knownNodes.get? nodeId = some ursula)
    (hrevocation : policy.revocation codec nodeId = some revocation) :
    revokeNode codec policy knownNodes network nodeId =
      ⟨true, requestRevocation nodeId (network ursula revocation) revocation⟩ := by
  simp only [revokeNode, hursula, hrevocation]

/-- A missing node raises before anything is asked. -/
theorem revokeNode_of_missing (h : knownNodes.get? nodeId = none) :
    revokeNode codec policy knownNodes network nodeId = ⟨false, .error (.keyError nodeId)⟩ := by
  simp only [revokeNode, h]

variable (hnode : nodeId ∈ policy.revokableAddresses codec)

include hnode

/-- Of the revokable nodes those are asked that are known. -/
theorem revokeNode_contacted :
    (revokeNode codec policy knownNodes network nodeId).contacted =
      knownNodes.contains nodeId := by
  rcases EnactedPolicy.exists_revocation hnode with ⟨revocation, hrevocation⟩
  rw [Dict.contains]
  cases hursula : knownNodes.get? nodeId with
  | none => simp [revokeNode_of_missing hursula]
  | some ursula => simp [revokeNode_of_known hursula hrevocation]

/-- The loop goes on after a node exactly when the node is known and answers. -/
theorem revokeNode_isOk_iff :
    (∃ failure, (revokeNode codec policy knownNodes network nodeId).outcome = .ok failure) ↔
      Answers codec policy knownNodes network nodeId := by
  rcases EnactedPolicy.exists_revocation hnode with ⟨revocation, hrevocation⟩
  cases hursula : knownNodes.get? nodeId with
  | none => simp [revokeNode_of_missing hursula, Answers, hursula]
  | some ursula =>
      rw [revokeNode_of_known hursula hrevocation]
      simp only [Answers, hursula, hrevocation, Option.some.injEq]
      rw [requestRevocation_isOk_iff]
      constructor
      · rintro ⟨status, hstatus⟩
        exact ⟨ursula, revocation, status, rfl, rfl, hstatus⟩
      · rintro ⟨_, _, status, rfl, rfl, hstatus⟩
        exact ⟨status, hstatus⟩

/-- The loop goes on without a note exactly when the node is revoked. -/
theorem revokeNode_eq_none_iff :
    (revokeNode codec policy knownNodes network nodeId).outcome = .ok none ↔
      Revoked codec policy knownNodes network nodeId := by
  rcases EnactedPolicy.exists_revocation hnode with ⟨revocation, hrevocation⟩
  cases hursula : knownNodes.get? nodeId with
  | none => simp [revokeNode_of_missing hursula, Revoked, hursula]
  | some ursula =>
      rw [revokeNode_of_known hursula hrevocation, requestRevocation_eq_none_iff]
      simp only [Revoked, hursula, hrevocation, Option.some.injEq]
      constructor
      · intro hresponds
        exact ⟨ursula, revocation, rfl, rfl, hresponds⟩
      · rintro ⟨_, _, rfl, rfl, hresponds⟩
        exact hresponds

end Node

/-! ## Revoking -/

/-- Everyone who is known is asked, and the revocation returns a map that holds every revokable
address that is not revoked. -/
def ReachesEveryone (codec : AddressCodec) (policy : EnactedPolicy core)
    (knownNodes : Dict ChecksumAddress (KnownNode core.PublicKey))
    (network : KnownNode core.PublicKey → core.RevocationOrder → Exchange)
    (run : Swept ChecksumAddress (core.RevocationOrder × RevocationFailure) RevokeError) : Prop :=
  (∀ address ∈ policy.revokableAddresses codec, knownNodes.contains address = true →
    address ∈ run.contacted) ∧
  ∃ failed, run.result = .ok failed ∧ ∀ address ∈ policy.revokableAddresses codec,
    ¬ Revoked codec policy knownNodes network address → failed.contains address = true

section Run

variable {policy : EnactedPolicy core} {context : RevocationContext core}
  {round : WaitRound (KnownNode core.PublicKey)}

/-- After its wait a revocation is the loop over the revokable addresses. -/
theorem revoke_eq (onchain : Bool)
    (hwait : blockUntilSpecificNodesAreKnown (policy.revokableAddresses codec)
      (policy.shares - policy.revocationThreshold) context.rounds = some (.ok round)) :
    revoke codec policy onchain true context =
      some (revokeNodes codec policy round.knownNodes context) := by
  simp only [revoke, hwait, Bool.true_or, not_true_eq_false, if_false, if_true, Option.map_some]

variable {knownNodes : Dict ChecksumAddress (KnownNode core.PublicKey)}
  {failed : Dict ChecksumAddress (core.RevocationOrder × RevocationFailure)}

/-- The loop returns exactly when every revokable node is known and answers. -/
theorem revokeNodes_isOk_iff :
    (∃ failed, (revokeNodes codec policy knownNodes context).result = .ok failed) ↔
      ∀ address ∈ policy.revokableAddresses codec,
        Answers codec policy knownNodes context.network address := by
  rw [revokeNodes, result_sweep_isOk_iff]
  simp only [context.listing.mem_toList]
  constructor
  · intro h address haddress
    exact (revokeNode_isOk_iff haddress).mp (h address haddress)
  · intro h address haddress
    exact (revokeNode_isOk_iff haddress).mpr (h address haddress)

/-- A loop that returns has noted the revokable nodes that are not revoked, and only those. -/
theorem revoke_failed_iff (h : (revokeNodes codec policy knownNodes context).result = .ok failed)
    (address : ChecksumAddress) :
    failed.contains address = true ↔ address ∈ policy.revokableAddresses codec ∧
      ¬ Revoked codec policy knownNodes context.network address := by
  rw [Dict.contains, get?_sweep h]
  by_cases hmem : address ∈ policy.revokableAddresses codec
  · have hlisted := (context.listing.mem_toList _ _).mpr hmem
    rw [if_pos hlisted, and_iff_right hmem, ← revokeNode_eq_none_iff hmem]
    rcases (result_sweep_isOk_iff _ _).mp ⟨failed, h⟩ address hlisted with ⟨failure, hfailure⟩
    rw [hfailure]
    cases failure <;> simp
  · have hunlisted := mt (context.listing.mem_toList _ _).mp hmem
    rw [if_neg hunlisted]
    simp [hmem]

/-- What is noted for a node is its own revocation order, with the class of its response. -/
theorem revoke_failed_entry
    (h : (revokeNodes codec policy knownNodes context).result = .ok failed)
    {address : ChecksumAddress} {order : core.RevocationOrder} {failure : RevocationFailure}
    (hget : failed.get? address = some (order, failure)) :
    policy.revocation codec address = some order ∧
      ∃ ursula status, knownNodes.get? address = some ursula ∧
        (context.network ursula order).Responds status ∧ 300 ≤ status ∧
        (failure = .notFound ↔ status = 404) := by
  have hcontains : failed.contains address = true := by simp [Dict.contains, hget]
  have hmem := ((revoke_failed_iff h address).mp hcontains).1
  rcases EnactedPolicy.exists_revocation hmem with ⟨revocation, hrevocation⟩
  rcases revokeNodes_isOk_iff.mp ⟨failed, h⟩ address hmem with ⟨ursula, _, _, hursula, -⟩
  rw [get?_sweep h, if_pos ((context.listing.mem_toList _ _).mpr hmem),
    revokeNode_of_known hursula hrevocation] at hget
  split at hget
  · rename_i noted houtcome
    cases hget
    rcases requestRevocation_eq_some houtcome with ⟨rfl, status, hstatus⟩
    exact ⟨hrevocation, ursula, status, hursula, hstatus⟩
  · cases hget

/-- A loop that returns has asked the known ones among the revokable nodes. -/
theorem revoke_contacted (h : (revokeNodes codec policy knownNodes context).result = .ok failed)
    (address : ChecksumAddress) :
    address ∈ (revokeNodes codec policy knownNodes context).contacted ↔
      address ∈ policy.revokableAddresses codec ∧ knownNodes.contains address = true := by
  rw [revokeNodes, contacted_sweep h, List.mem_filter, context.listing.mem_toList]
  constructor
  · rintro ⟨hmem, hcontacted⟩
    exact ⟨hmem, revokeNode_contacted hmem ▸ hcontacted⟩
  · rintro ⟨hmem, hknown⟩
    exact ⟨hmem, (revokeNode_contacted hmem).trans hknown⟩

section Stops

variable (onchain : Bool)
  (hwait : blockUntilSpecificNodesAreKnown (policy.revokableAddresses codec)
    (policy.shares - policy.revocationThreshold) context.rounds = some (.ok round))
  {before after : List ChecksumAddress} {nodeId : ChecksumAddress}
  (hlisting : context.listing.toList (policy.revokableAddresses codec) =
    before ++ nodeId :: after)
  (hbefore : ∀ address ∈ before, Answers codec policy round.knownNodes context.network address)
  (hnode : ¬ Answers codec policy round.knownNodes context.network nodeId)

include hwait hlisting hbefore hnode

/-- The node that raises is the last one that is asked, however many come after it. -/
theorem revoke_stops :
    ∃ error, revoke codec policy onchain true context =
      some ⟨(before ++ [nodeId]).filter (fun address => round.knownNodes.contains address),
        .error error⟩ := by
  have hmem : ∀ address ∈ before ++ [nodeId], address ∈ policy.revokableAddresses codec := by
    intro address haddress
    rw [← context.listing.mem_toList, hlisting, List.append_cons]
    exact List.mem_append_left _ haddress
  have hearlier : ∀ address ∈ before, ∃ failure,
      (revokeNode codec policy round.knownNodes context.network address).outcome =
        .ok failure := by
    intro address haddress
    exact (revokeNode_isOk_iff (hmem address (List.mem_append_left _ haddress))).mpr
      (hbefore address haddress)
  have hnodeMem := hmem nodeId (List.mem_append_right _ List.mem_cons_self)
  cases houtcome : (revokeNode codec policy round.knownNodes context.network nodeId).outcome with
  | ok failure => exact absurd ((revokeNode_isOk_iff hnodeMem).mp ⟨failure, houtcome⟩) hnode
  | error error =>
      refine ⟨error, ?_⟩
      rw [revoke_eq onchain hwait, revokeNodes, hlisting, sweep_stops hearlier houtcome]
      rw [List.filter_congr (fun address haddress => revokeNode_contacted (hmem address haddress))]

/-- No node that is listed after one that raises is asked, whether it is known or not. -/
theorem revoke_skips :
    ∃ run, revoke codec policy onchain true context = some run ∧
      ∀ address ∈ after, address ∉ run.contacted := by
  rcases revoke_stops onchain hwait hlisting hbefore hnode with ⟨error, hrun⟩
  refine ⟨_, hrun, ?_⟩
  intro address hafter hcontacted
  have hnodup := context.listing.nodup (policy.revokableAddresses codec)
  rw [hlisting, List.append_cons, List.nodup_append] at hnodup
  exact hnodup.2.2 address (List.mem_of_mem_filter hcontacted) address hafter rfl

end Stops

/-- A fleet that misses fewer nodes than the threshold satisfies the wait of a revocation, if
learning goes on. -/
theorem revocation_wait_returns
    (hrunning : ∀ round ∈ context.rounds, round.learningTaskRunning = true)
    (hmissing : ∀ round ∈ context.rounds,
      (stillUnknown (policy.revokableAddresses codec) round.knownNodes).card < policy.threshold)
    (htimeout : ∃ round ∈ context.rounds, round.seconds > learningTimeout) :
    ∃ round ∈ context.rounds, blockUntilSpecificNodesAreKnown (policy.revokableAddresses codec)
      (policy.shares - policy.revocationThreshold) context.rounds = some (.ok round) := by
  refine blockUntil_returns hrunning ?_ htimeout
  intro round hround
  have hlt := hmissing round hround
  rw [EnactedPolicy.revocationThreshold]
  omega

/-- A revocation reaches everyone exactly when every revokable node is known and answers with
200 or from 300 on. -/
theorem revoke_reachesEveryone_iff (onchain : Bool)
    (hwait : blockUntilSpecificNodesAreKnown (policy.revokableAddresses codec)
      (policy.shares - policy.revocationThreshold) context.rounds = some (.ok round)) :
    (∃ run, revoke codec policy onchain true context = some run ∧
      ReachesEveryone codec policy round.knownNodes context.network run) ↔
    ∀ address ∈ policy.revokableAddresses codec,
      Answers codec policy round.knownNodes context.network address := by
  rw [revoke_eq onchain hwait, ← revokeNodes_isOk_iff]
  constructor
  · rintro ⟨run, hrun, -, failed, hfailed, -⟩
    cases hrun
    exact ⟨failed, hfailed⟩
  · rintro ⟨failed, hfailed⟩
    refine ⟨_, rfl, ?_, failed, hfailed, ?_⟩
    · intro address haddress hknown
      exact (revoke_contacted hfailed address).mpr ⟨haddress, hknown⟩
    · intro address haddress hrevoked
      exact (revoke_failed_iff hfailed address).mpr ⟨haddress, hrevoked⟩

end Run

end Alice

/-! ## A missing node and one that is down -/

def secondNode : KnownNode Nat := ⟨⟨List.replicate 20 2, rfl⟩, 6, true⟩

def twoSharePolicy : EnactedPolicy plainCore where
  hrac := (1, 2, [])
  label := []
  publicKey := (0 : Nat)
  threshold := 2
  treasureMap := ((Dict.empty, 2), (3 : Nat))
  revocationKit := (Dict.empty.set plainNode.canonicalAddress
    (plainNode.canonicalAddress, (5, 0))).set secondNode.canonicalAddress
      (secondNode.canonicalAddress, (6, 1))
  shares := 2

def onlySecondKnown : Dict ChecksumAddress (KnownNode Nat) :=
  Dict.empty.set (secondNode.checksumAddress hexCodec) secondNode

def bothKnown : Dict ChecksumAddress (KnownNode Nat) :=
  onlySecondKnown.set (plainNode.checksumAddress hexCodec) plainNode

/-- The exchange with a node that responds with a status code. -/
def responding (status : Nat) : Exchange := ⟨true, some (.ok status), fun _ => .fetched, .ok status⟩

/-- The exchange with a node that refuses connections. -/
def refusing : Exchange :=
  ⟨true, none, fun _ => .failed .connectionError, .error .connectionError⟩

/-- A fleet after the timeout, and a network in which the first node has an exchange of its own
while the second one responds with 200. -/
def revocationContext (knownNodes : Dict ChecksumAddress (KnownNode Nat)) (first : Exchange) :
    RevocationContext plainCore where
  rounds := [⟨false, knownNodes, true, 11⟩]
  listing := .sorted ChecksumAddress
  network ursula _ := if ursula.canonicalAddress = plainNode.canonicalAddress then first
    else responding 200

theorem revocationContext_listing :
    (Enumeration.sorted ChecksumAddress).toList (twoSharePolicy.revokableAddresses hexCodec) =
      [] ++ plainNode.checksumAddress hexCodec :: [secondNode.checksumAddress hexCodec] := by
  decide +kernel

theorem revocationContext_wait {knownNodes : Dict ChecksumAddress (KnownNode Nat)}
    (first : Exchange)
    (h : (stillUnknown (twoSharePolicy.revokableAddresses hexCodec) knownNodes).card < 2) :
    blockUntilSpecificNodesAreKnown (twoSharePolicy.revokableAddresses hexCodec)
      (twoSharePolicy.shares - twoSharePolicy.revocationThreshold)
      (revocationContext knownNodes first).rounds =
        some (.ok ⟨false, knownNodes, true, 11⟩) := by
  have hrounds : (revocationContext knownNodes first).rounds =
      [⟨false, knownNodes, true, 11⟩] := rfl
  have hreturns : ∃ round ∈ (revocationContext knownNodes first).rounds,
      blockUntilSpecificNodesAreKnown (twoSharePolicy.revokableAddresses hexCodec)
        (twoSharePolicy.shares - twoSharePolicy.revocationThreshold)
        (revocationContext knownNodes first).rounds = some (.ok round) := by
    apply Alice.revocation_wait_returns
    · simp [hrounds]
    · simp only [hrounds, List.mem_singleton, forall_eq]
      exact h
    · simp [hrounds, learningTimeout]
  rcases hreturns with ⟨round, hround, hwait⟩
  rw [hrounds, List.mem_singleton] at hround
  rw [hwait, hround]

/-- Where the first node does not answer, a revocation does not reach the second one. -/
theorem second_not_reached {knownNodes : Dict ChecksumAddress (KnownNode Nat)}
    (hmissing :
      (stillUnknown (twoSharePolicy.revokableAddresses hexCodec) knownNodes).card < 2)
    (hsecond : knownNodes.contains (secondNode.checksumAddress hexCodec) = true)
    (hfirst : ∀ ursula, knownNodes.get? (plainNode.checksumAddress hexCodec) = some ursula →
      ursula = plainNode) :
    ∃ round, blockUntilSpecificNodesAreKnown (twoSharePolicy.revokableAddresses hexCodec)
        (twoSharePolicy.shares - twoSharePolicy.revocationThreshold)
        (revocationContext knownNodes refusing).rounds = some (.ok round) ∧
      ¬ ∃ run, Alice.revoke hexCodec twoSharePolicy true true
          (revocationContext knownNodes refusing) = some run ∧
        Alice.ReachesEveryone hexCodec twoSharePolicy round.knownNodes
          (revocationContext knownNodes refusing).network run := by
  have hwait := revocationContext_wait refusing hmissing
  have hdown : ¬ Alice.Answers hexCodec twoSharePolicy knownNodes
      (revocationContext knownNodes refusing).network (plainNode.checksumAddress hexCodec) := by
    rintro ⟨ursula, revocation, status, hursula, -, hresponds, -⟩
    rw [hfirst ursula hursula] at hresponds
    cases hresponds.2
  rcases Alice.revoke_skips true hwait revocationContext_listing (by simp) hdown with
    ⟨run, hrun, hskips⟩
  refine ⟨_, hwait, ?_⟩
  rintro ⟨other, hother, hreached, -⟩
  rw [hrun, Option.some.injEq] at hother
  subst hother
  exact hskips _ List.mem_cons_self (hreached _ (by decide +kernel) hsecond)

/-- A node that is missing, which the wait allows, and a node that is down keep the node after
them from being asked, though it is known and responds with 200. -/
theorem missing_node_stops_revocation :
    (∃ round, blockUntilSpecificNodesAreKnown (twoSharePolicy.revokableAddresses hexCodec)
        (twoSharePolicy.shares - twoSharePolicy.revocationThreshold)
        (revocationContext onlySecondKnown refusing).rounds = some (.ok round) ∧
      ¬ ∃ run, Alice.revoke hexCodec twoSharePolicy true true
          (revocationContext onlySecondKnown refusing) = some run ∧
        Alice.ReachesEveryone hexCodec twoSharePolicy round.knownNodes
          (revocationContext onlySecondKnown refusing).network run) ∧
    ∃ round, blockUntilSpecificNodesAreKnown (twoSharePolicy.revokableAddresses hexCodec)
        (twoSharePolicy.shares - twoSharePolicy.revocationThreshold)
        (revocationContext bothKnown refusing).rounds = some (.ok round) ∧
      ¬ ∃ run, Alice.revoke hexCodec twoSharePolicy true true
          (revocationContext bothKnown refusing) = some run ∧
        Alice.ReachesEveryone hexCodec twoSharePolicy round.knownNodes
          (revocationContext bothKnown refusing).network run := by
  constructor
  · exact second_not_reached (by decide +kernel) (by decide +kernel) (by decide +kernel)
  · exact second_not_reached (by decide +kernel) (by decide +kernel) (by decide +kernel)

/-- Where one node responds with 404 and the other with 200 everyone is reached. -/
theorem revoke_reachesEveryone_iff_sample :
    ∃ run, Alice.revoke hexCodec twoSharePolicy true true
        (revocationContext bothKnown (responding 404)) = some run ∧
      Alice.ReachesEveryone hexCodec twoSharePolicy bothKnown
        (revocationContext bothKnown (responding 404)).network run := by
  have hrevokable : twoSharePolicy.revokableAddresses hexCodec =
      {plainNode.checksumAddress hexCodec, secondNode.checksumAddress hexCodec} := by
    decide +kernel
  have hfirst : bothKnown.get? (plainNode.checksumAddress hexCodec) = some plainNode := by
    decide +kernel
  have hsecond : bothKnown.get? (secondNode.checksumAddress hexCodec) = some secondNode := by
    decide +kernel
  refine (Alice.revoke_reachesEveryone_iff true
    (revocationContext_wait (responding 404) (by decide +kernel))).mpr ?_
  intro address haddress
  rw [hrevokable, Finset.mem_insert, Finset.mem_singleton] at haddress
  rcases haddress with rfl | rfl
  · exact ⟨plainNode, (plainNode.canonicalAddress, (5, 0)), 404, hfirst, rfl,
      by decide +kernel, by omega⟩
  · exact ⟨secondNode, (secondNode.canonicalAddress, (6, 1)), 200, hsecond, rfl,
      by decide +kernel, by omega⟩

end NuLink
