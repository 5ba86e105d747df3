/-
  Whether a user may do something in a space or a channel, as a node finds out from contracts
  (core/node/auth/auth_impl.go and auth_impl_cache.go).

  The clock stands still during a call. What the contracts answer is part of the call. Which
  entries the caches drop when they are full is left open.
-/

import River.Contracts.RuleEntitlement
import River.Contracts.Space
import River.Lib.Machine
import River.Lib.TtlCache
import River.Node.Shared

namespace River.Node.Auth

open River.Lib Sourced
open River.Contracts (Address RuleData)

/-! ## Keys -/

inductive Permission where
  | undefined | read | write | invite | join | redact | ban | pinMessages | addRemoveChannels
  | modifySpaceSettings
  deriving DecidableEq

inductive ChainAuthKind where
  | space | channel | spaceEnabled | channelEnabled | isSpaceMember
  deriving DecidableEq

structure ChainAuthArgs where
  kind : ChainAuthKind
  spaceId : StreamId
  channelId : Option StreamId
  principal : Address
  permission : Permission
  linkedWallets : List Address
  deriving DecidableEq

variable (spaceId : StreamId)

def newChainAuthArgsForSpace (userId : Address) (permission : Permission) : ChainAuthArgs :=
  ⟨.space, spaceId, none, userId, permission, []⟩

def newChainAuthArgsForChannel (spaceId channelId : StreamId) (userId : Address)
    (permission : Permission) : ChainAuthArgs :=
  ⟨.channel, spaceId, some channelId, userId, permission, []⟩

def newChainAuthArgsForIsSpaceMember (userId : Address) : ChainAuthArgs :=
  ⟨.isSpaceMember, spaceId, none, userId, .undefined, []⟩

def newArgsForEnabledSpace : ChainAuthArgs :=
  ⟨.spaceEnabled, spaceId, none, 0, .undefined, []⟩

def newArgsForEnabledChannel (channelId : Option StreamId) : ChainAuthArgs :=
  ⟨.channelEnabled, spaceId, channelId, 0, .undefined, []⟩

def ChainAuthArgs.withLinkedWallets (args : ChainAuthArgs) (linkedWallets : List Address) :
    ChainAuthArgs :=
  { args with linkedWallets := linkedWallets }

def deserializeWallets : List Address → List Address
  | [] => [0]
  | wallets => wallets

/-! ## Contracts -/

inductive AuthError where
  /-- `Err_SPACE_DISABLED`, "Space is disabled". -/
  | spaceDisabled
  /-- `Err_CHANNEL_DISABLED`, "Channel is disabled". -/
  | channelDisabled
  /-- `Err_INTERNAL`, "Unknown chain auth kind". -/
  | unknownKind
  /-- `Err_INTERNAL`, "Wrong chain auth kind". -/
  | wrongKind
  /-- "too many wallets linked to the root key: %d". -/
  | tooManyWallets (linked : Nat)
  /-- An error of a contract call. -/
  | contract
  deriving DecidableEq

inductive SpaceEntitlements where
  | rule (ruleEntitlement : RuleData)
  | user (userEntitlement : List Address)
  | invalid

structure Chain where
  isSpaceDisabled : StreamId → Except AuthError Bool
  isChannelDisabled : StreamId → Option StreamId → Except AuthError Bool
  isEntitledToChannel :
    StreamId → Option StreamId → Address → Permission → Except AuthError Bool
  getSpaceEntitlementsForPermission :
    StreamId → Permission → Except AuthError (List SpaceEntitlements × Address)
  isMember : StreamId → Address → Except AuthError Bool
  /-- Absent if the contract is not set up. -/
  getWalletsByRootKey : Option (Address → Except AuthError (List Address))
  evaluateRuleData : List Address → RuleData → Except AuthError Bool

inductive ReadKind where
  | enabled | linkedWallets | membership | entitlementData | channelEntitlement | rule
  deriving DecidableEq

structure ChainRead where
  kind : ReadKind
  time : Nat
  deriving DecidableEq

/-! ## Caches -/

structure EntitlementCacheResult where
  allowed : Bool
  entitlementData : List SpaceEntitlements
  owner : Address

structure AuthCaches where
  entitlementCache : TtlCache ChainAuthArgs ChainRead Bool
  entitlementManagerCache : TtlCache ChainAuthArgs ChainRead EntitlementCacheResult

def AuthCaches.empty : AuthCaches := ⟨.empty, .empty⟩

def entitlementCache : CacheField AuthCaches ChainAuthArgs ChainRead Bool :=
  ⟨AuthCaches.entitlementCache, fun cache caches => { caches with entitlementCache := cache }⟩

def entitlementManagerCache :
    CacheField AuthCaches ChainAuthArgs ChainRead EntitlementCacheResult :=
  ⟨AuthCaches.entitlementManagerCache,
    fun cache caches => { caches with entitlementManagerCache := cache }⟩

structure AuthConfig where
  entitlementTtl : Ttl
  entitlementManagerTtl : Ttl
  linkedWalletsLimit : Nat

abbrev AuthM (α : Type) : Type := Sourced ChainRead AuthCaches AuthError α

/-! ## Calls -/

section Calls

variable (cfg : AuthConfig) (chain : Chain) (now : Nat)

def chainRead {α : Type} (kind : ReadKind) (answer : Except AuthError α) : AuthM α :=
  source [⟨kind, now⟩] answer

variable (args : ChainAuthArgs)

def isSpaceEnabledUncached : AuthM Bool := do
  let isDisabled ← chainRead now .enabled (chain.isSpaceDisabled args.spaceId)
  pure !isDisabled

def isChannelEnabledUncached : AuthM Bool := do
  let isDisabled ← chainRead now .enabled (chain.isChannelDisabled args.spaceId args.channelId)
  pure !isDisabled

def checkEnabled (onMiss : ChainAuthArgs → AuthM Bool) (disabled : AuthError) : AuthM Unit := do
  let isEnabled ← executeUsingCache entitlementCache cfg.entitlementTtl now id args (onMiss args)
  if isEnabled then pure () else fail disabled

def checkSpaceEnabled (spaceId : StreamId) : AuthM Unit :=
  checkEnabled cfg now (newArgsForEnabledSpace spaceId) (isSpaceEnabledUncached chain now)
    .spaceDisabled

def checkChannelEnabled (spaceId : StreamId) (channelId : Option StreamId) : AuthM Unit :=
  checkEnabled cfg now (newArgsForEnabledChannel spaceId channelId)
    (isChannelEnabledUncached chain now) .channelDisabled

def getSpaceEntitlementsForPermissionUncached : AuthM EntitlementCacheResult := do
  let (entitlementData, owner) ← chainRead now .entitlementData
    (chain.getSpaceEntitlementsForPermission args.spaceId args.permission)
  pure ⟨true, entitlementData, owner⟩

def everyone : Address := 1

def isEntitledByAny (wallets : List Address) (principal : Address) :
    List SpaceEntitlements → AuthM Bool
  | [] => pure false
  | .rule ruleEntitlement :: rest => do
    let result ← chainRead now .rule (chain.evaluateRuleData wallets ruleEntitlement)
    if result then pure true else isEntitledByAny wallets principal rest
  | .user userEntitlement :: rest =>
    if userEntitlement.any fun user => user = everyone ∨ user = principal then pure true
    else isEntitledByAny wallets principal rest
  | .invalid :: rest => isEntitledByAny wallets principal rest

def isEntitledToSpaceUncached : AuthM Bool := do
  let result ← executeUsingCache entitlementManagerCache cfg.entitlementManagerTtl now
    EntitlementCacheResult.allowed args (getSpaceEntitlementsForPermissionUncached chain now args)
  let wallets := deserializeWallets args.linkedWallets
  if result.owner ∈ wallets then pure true
  else isEntitledByAny chain now wallets args.principal result.entitlementData

def isEntitledToSpace : AuthM Bool :=
  if args.kind ≠ .space then fail .wrongKind
  else executeUsingCache entitlementCache cfg.entitlementTtl now id args
    (isEntitledToSpaceUncached cfg chain now args)

def isAnyEntitledToChannel (args : ChainAuthArgs) : List Address → AuthM Bool
  | [] => pure false
  | wallet :: rest => do
    let allowed ← chainRead now .channelEntitlement
      (chain.isEntitledToChannel args.spaceId args.channelId wallet args.permission)
    if allowed then pure true else isAnyEntitledToChannel args rest

def isEntitledToChannelUncached : AuthM Bool :=
  isAnyEntitledToChannel chain now args (deserializeWallets args.linkedWallets)

def isEntitledToChannel : AuthM Bool :=
  if args.kind ≠ .channel then fail .wrongKind
  else executeUsingCache entitlementCache cfg.entitlementTtl now id args
    (isEntitledToChannelUncached chain now args)

def areLinkedWalletsEntitled : AuthM Bool :=
  match args.kind with
  | .space => isEntitledToSpace cfg chain now args
  | .channel => isEntitledToChannel cfg chain now args
  | .isSpaceMember => pure true
  | .spaceEnabled | .channelEnabled => fail .unknownKind

def Chain.linkedWallets (rootKey : Address) : Except AuthError (List Address) :=
  match chain.getWalletsByRootKey with
  | none => .ok [rootKey]
  | some getWalletsByRootKey => getWalletsByRootKey rootKey

def getLinkedWallets (rootKey : Address) : AuthM (List Address) :=
  chainRead now .linkedWallets (chain.linkedWallets rootKey)

def isAnyMember (spaceId : StreamId) (wallets : List Address) : AuthM Bool :=
  source (wallets.map fun _ => ⟨.membership, now⟩)
    (.ok (wallets.any fun address =>
      match chain.isMember spaceId address with
      | .ok isMember => isMember
      | .error _ => false))

def checkWallets (wallets : List Address) : AuthM Bool := do
  let isMember ← isAnyMember chain now args.spaceId wallets
  if ¬isMember then pure false
  else if wallets.length > cfg.linkedWalletsLimit then
    fail (.tooManyWallets (wallets.length - 1))
  else areLinkedWalletsEntitled cfg chain now (args.withLinkedWallets wallets)

def checkKindEnabled : AuthM (Except AuthError Unit) :=
  match args.kind with
  | .space | .isSpaceMember => (checkSpaceEnabled cfg chain now args.spaceId).attempt
  | .channel => (checkChannelEnabled cfg chain now args.spaceId args.channelId).attempt
  | .spaceEnabled | .channelEnabled => fail .unknownKind

def checkEntitlement : AuthM Bool := do
  let enabled ← checkKindEnabled cfg chain now args
  match enabled with
  | .error _ => pure false
  | .ok () => do
    let wallets ← getLinkedWallets chain now args.principal
    checkWallets cfg chain now args (wallets ++ [args.principal])

def isEntitled : AuthM Bool :=
  executeUsingCache entitlementCache cfg.entitlementTtl now id args
    (checkEntitlement cfg chain now args)

end Calls

/-! ## The node -/

inductive AuthRequest where
  | space (spaceId : StreamId) (userId : Address) (permission : Permission)
  | channel (spaceId channelId : StreamId) (userId : Address) (permission : Permission)
  | isSpaceMember (spaceId : StreamId) (userId : Address)

def AuthRequest.args : AuthRequest → ChainAuthArgs
  | .space spaceId userId permission => newChainAuthArgsForSpace spaceId userId permission
  | .channel spaceId channelId userId permission =>
    newChainAuthArgsForChannel spaceId channelId userId permission
  | .isSpaceMember spaceId userId => newChainAuthArgsForIsSpaceMember spaceId userId

structure ChainAuth where
  now : Nat
  caches : AuthCaches

inductive AuthAction where
  | isEntitled (request : AuthRequest) (chain : Chain)
  | advance (duration : Nat)
  | evict (keep keepManager : Bool → ChainAuthArgs → Bool)

abbrev AuthAnswer : Type := Outcome ChainRead AuthError Bool

def ChainAuth.init : ChainAuth := ⟨0, .empty⟩

/-- The node's checks, with their caches. -/
def chainAuth (cfg : AuthConfig) : Machine ChainAuth AuthAction (Option AuthAnswer) where
  step s a :=
    match a with
    | .isEntitled request chain =>
      let (answer, caches) := isEntitled cfg chain s.now request.args s.caches
      ({ s with caches := caches }, some answer)
    | .advance duration => ({ s with now := s.now + duration }, none)
    | .evict keep keepManager =>
      ({ s with caches := ⟨s.caches.entitlementCache.evict keep,
          s.caches.entitlementManagerCache.evict keepManager⟩ }, none)

end River.Node.Auth
