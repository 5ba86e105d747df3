/-
  The entry points of a space that write its storage or its balance
  (contracts/src/spaces/facets/membership/MembershipFacet.sol, facets/gated/EntitlementGated.sol,
  facets/proxy/SpaceProxy.sol), as a machine.

  The reentrancy guard keeps the guarded calls from overlapping, so a call is one action.
-/

import Mathlib.Logic.Equiv.List
import River.Contracts.Space
import River.Lib.Machine

namespace River.Contracts

namespace Space

/-! ## Joining -/

variable (env : Env)

def receive (s : Space) : Space := { s with balance := s.balance + env.value }

def validateJoinSpace (receiver : Address) (s : Space) : Result Unit :=
  if receiver = 0 then .error .membershipInvalidAddress
  else if s.membershipMaxSupply ≠ 0 ∧ s.totalSupply ≥ s.membershipMaxSupply then
    .error .membershipMaxSupplyReached
  else .ok ()

variable (transactionId : Bytes32)

def payFromCaptured (tokenId membershipPrice : Nat) (s : Space) : Result Space :=
  let userValue := s.transactionBalance.get transactionId
  if userValue = 0 then .error .membershipInsufficientPayment
  else if membershipPrice > userValue then .error .membershipInsufficientPayment
  else do
    let s := s.setMembershipRenewalPrice tokenId membershipPrice
    let (protocolFee, s) ← s.collectProtocolFee env membershipPrice
    let surplus ← checkedSub membershipPrice protocolFee
    let s ← s.ifPositive surplus (transferIn surplus)
    let s ← s.releaseCapturedValue transactionId membershipPrice
    .ok (s.captureData transactionId none)

def issueToken (s : Space) : Result Space :=
  match s.transactionData transactionId with
  | none => .error .abiDecode
  | some (_, receiver) => do
    let membershipPrice ← s.getMembershipPrice env s.totalSupply
    let tokenId := s.currentIndex
    let s ← s.ifPositive membershipPrice (payFromCaptured env transactionId tokenId membershipPrice)
    let s ← s.safeMint env receiver
    s.renewSubscription env tokenId env.membershipDuration

def setTransaction (transaction : Transaction) (s : Space) : Space :=
  { s with transactions := Function.update s.transactions transactionId transaction }

def requestEntitlementCheck (entitlement : Address) (roleId : Nat) (s : Space) : Result Space :=
  let transaction := s.transactions transactionId
  if transaction.hasBenSet = true ∧ roleId ∈ transaction.roleIds then
    .error .checkAlreadyRegistered
  else
    match env.randomNodes with
    | none => .error .externalCall
    | some selectedNodes =>
      .ok (s.setTransaction transactionId
        (transaction.requested env.sender entitlement roleId selectedNodes))

inductive JoinProgress where
  | issued
  | checking (isCrosschainPending shouldRefund : Bool)
  deriving DecidableEq

def checkEntitlements (env : Env) (transactionId : Bytes32) (roleId : Nat) :
    List Entitlement → Bool → Bool → Space → Result (JoinProgress × Space)
  | [], pending, refund, s => .ok (.checking pending refund, s)
  | .localCheck isEntitled :: rest, pending, _, s =>
    if isEntitled = true then do
      let s ← s.issueToken env transactionId
      .ok (.issued, s)
    else checkEntitlements env transactionId roleId rest pending true s
  | .crosschain entitlement :: rest, _, _, s => do
    let s ← s.requestEntitlementCheck env transactionId entitlement roleId
    checkEntitlements env transactionId roleId rest true false s

def checkRoles (env : Env) (transactionId : Bytes32) :
    List Role → Bool → Bool → Space → Result (JoinProgress × Space)
  | [], pending, refund, s => .ok (.checking pending refund, s)
  | role :: rest, pending, refund, s =>
    if role.disabled = true then checkRoles env transactionId rest pending refund s
    else do
      let (progress, s) ←
        checkEntitlements env transactionId role.id role.entitlements pending refund s
      match progress with
      | .issued => .ok (.issued, s)
      | .checking pending refund => checkRoles env transactionId rest pending refund s

def rejectJoin (s : Space) : Result Space :=
  (s.captureData transactionId none).ifPositive env.value
    (releaseCapturedValue transactionId env.value)

def joinSpace (receiver : Address) (s : Space) : Result Space := do
  let s := s.receive env
  s.validateJoinSpace receiver
  let keyHash := env.keccak256 [env.sender, env.blockNumber]
  let (nonce, s) := s.useDispatchNonce keyHash
  let transactionId := makeDispatchId env keyHash env.sender nonce
  let s := s.captureData transactionId (some (env.sender, receiver))
  let s ← s.ifPositive env.value (captureValue env transactionId env.value)
  let (progress, s) ← checkRoles env transactionId env.rolesWithJoinSpace false false s
  match progress with
  | .checking false true => s.rejectJoin env transactionId
  | _ => .ok s

def payWithReferral (referrer : Address) (referralCode tokenId membershipPrice : Nat) (s : Space) :
    Result Space := do
  let s := s.setMembershipRenewalPrice tokenId membershipPrice
  let (protocolFee, s) ← s.collectProtocolFee env membershipPrice
  let surplus ← checkedSub membershipPrice protocolFee
  s.ifPositive surplus fun s => do
    let referralFee ← s.calculateReferralAmount env surplus referralCode
    let s ← s.transferCurrency env referrer referralFee
    let recipientFee ← checkedSub surplus referralFee
    s.ifPositive recipientFee (transferIn recipientFee)

def joinSpaceWithReferral (receiver referrer : Address) (referralCode : Nat) (s : Space) :
    Result Space := do
  let s := s.receive env
  s.validateJoinSpace receiver
  let tokenId := s.currentIndex
  let membershipPrice ← s.getMembershipPrice env s.totalSupply
  let s ← s.ifPositive membershipPrice
    (payWithReferral env referrer referralCode tokenId membershipPrice)
  let s ← s.safeMint env receiver
  s.renewSubscription env tokenId env.membershipDuration

/-! ## Renewal -/

def payRenewal (membershipPrice : Nat) (s : Space) : Result Space := do
  let (protocolFee, s) ← s.collectProtocolFee env membershipPrice
  let surplus ← checkedSub membershipPrice protocolFee
  s.ifPositive surplus (transferIn surplus)

def renewMembership (tokenId : Nat) (s : Space) : Result Space := do
  let s := s.receive env
  let receiver ← s.ownerOfToken tokenId
  if receiver = 0 then .error .membershipInvalidAddress
  else do
    let remaining ← checkedSub (s.expiration tokenId) env.timestamp
    if remaining ≥ env.membershipDuration then .error .membershipNotExpired
    else do
      let membershipPrice ← s.getMembershipRenewalPrice env tokenId s.totalSupply
      let s ← s.ifPositive membershipPrice (payRenewal env membershipPrice)
      s.renewSubscription env tokenId env.membershipDuration

/-! ## Votes -/

def countVotes (sender : Address) (result : NodeVoteStatus) :
    List NodeVote → Result (List NodeVote × Bool × Nat × Nat)
  | [] => .ok ([], false, 0, 0)
  | v :: votes =>
    if v.node = sender ∧ v.vote ≠ .notVoted then .error .nodeAlreadyVoted
    else do
      let vote := if v.node = sender then result else v.vote
      let (votes, found, passed, failed) ← countVotes sender result votes
      .ok (⟨v.node, vote⟩ :: votes, decide (v.node = sender) || found,
        passed + (if vote = .passed then 1 else 0), failed + (if vote = .failed then 1 else 0))

def refundBalance (sender : Address) (s : Space) : Result Space :=
  let userValue := s.transactionBalance.get transactionId
  s.ifPositive userValue fun s => do
    let s ← s.releaseCapturedValue transactionId userValue
    s.transferCurrency env sender userValue

def onEntitlementCheckResultPosted (result : NodeVoteStatus) (s : Space) : Result Space :=
  if result = .passed then s.issueToken env transactionId
  else
    match s.transactionData transactionId with
    | none => .error .abiDecode
    | some (sender, _) => (s.captureData transactionId none).refundBalance env transactionId sender

def removeTransaction (s : Space) : Space :=
  let transaction := s.transactions transactionId
  s.setTransaction transactionId
    { Transaction.zero with
      nodeVotesArray := fun roleId =>
        if roleId ∈ transaction.roleIds then [] else transaction.nodeVotesArray roleId
      isCompleted := transaction.isCompleted }

def postEntitlementCheckResult (roleId : Nat) (result : NodeVoteStatus) (s : Space) :
    Result Space :=
  let transaction := s.transactions transactionId
  if env.value ≠ 0 then .error .notPayable
  else if transaction.clientAddress = 0 ∨ transaction.hasBenSet = false then
    .error .transactionNotRegistered
  else if transaction.isCompleted roleId = true then .error .checkAlreadyCompleted
  else do
    let (votes, found, passed, failed) ←
      countVotes env.sender result (transaction.nodeVotesArray roleId)
    if found = false then .error .nodeNotFound
    else
      let transaction := transaction.withVotes roleId votes
      if passed > votes.length / 2 ∨ failed > votes.length / 2 then do
        let s := s.setTransaction transactionId (transaction.completed roleId)
        let s ← s.onEntitlementCheckResultPosted env transactionId
          (if passed > failed then .passed else .failed)
        .ok (s.removeTransaction transactionId)
      else .ok (s.setTransaction transactionId transaction)

/-! ## Withdrawal -/

def withdraw (account : Address) (s : Space) : Result Space :=
  if env.value ≠ 0 then .error .notPayable
  else if env.sender ≠ env.owner then .error .notOwner
  else if account = 0 then .error .membershipInvalidAddress
  else if s.tokenBalance = 0 then .error .membershipInsufficientPayment
  else s.transferCurrency env account s.tokenBalance

/-! ## Settings -/

def ifOwner (r : Result Space) : Result Space :=
  if env.value ≠ 0 then .error .notPayable
  else if env.sender ≠ env.owner then .error .notOwner
  else r

def setMembershipLimit (newLimit : Nat) (s : Space) : Result Space :=
  ifOwner env <|
    if newLimit < s.totalSupply then .error .membershipInvalidMaxSupply
    else .ok { s with membershipMaxSupply := newLimit }

def setMembershipFreeAllocation (newAllocation : Nat) (s : Space) : Result Space :=
  ifOwner env <|
    if s.membershipMaxSupply ≠ 0 ∧ newAllocation > s.membershipMaxSupply then
      .error .membershipInvalidFreeAllocation
    else if newAllocation > env.membershipMintLimit then .error .membershipInvalidFreeAllocation
    else .ok { s with freeAllocation := newAllocation }

def setMembershipPricingModule (pricingModule : Address) (s : Space) : Result Space :=
  ifOwner env <|
    if pricingModule = 0 then .error .membershipInvalidPricingModule
    else if env.isPricingModule pricingModule = false then .error .membershipInvalidPricingModule
    else .ok { s with pricingModule := pricingModule }

end Space

/-! ## The machine -/

inductive Call where
  | joinSpace (receiver : Address)
  | joinSpaceWithReferral (receiver referrer : Address) (referralCode : Nat)
  | renewMembership (tokenId : Nat)
  | postEntitlementCheckResult (transactionId : Bytes32) (roleId : Nat) (result : NodeVoteStatus)
  | withdraw (account : Address)
  | setMembershipLimit (newLimit : Nat)
  | setMembershipFreeAllocation (newAllocation : Nat)
  | setMembershipPricingModule (pricingModule : Address)

def Call.run (env : Env) : Call → Space → Result Space
  | .joinSpace receiver, s => s.joinSpace env receiver
  | .joinSpaceWithReferral receiver referrer referralCode, s =>
    s.joinSpaceWithReferral env receiver referrer referralCode
  | .renewMembership tokenId, s => s.renewMembership env tokenId
  | .postEntitlementCheckResult transactionId roleId result, s =>
    s.postEntitlementCheckResult env transactionId roleId result
  | .withdraw account, s => s.withdraw env account
  | .setMembershipLimit newLimit, s => s.setMembershipLimit env newLimit
  | .setMembershipFreeAllocation newAllocation, s => s.setMembershipFreeAllocation env newAllocation
  | .setMembershipPricingModule pricingModule, s => s.setMembershipPricingModule env pricingModule

/-- The membership of a space. -/
def spaceMachine : Lib.Machine Space (Env × Call) (Option Revert) :=
  .ofCall fun s a => a.2.run a.1 s

def Space.withdrawn (s : Space) : Env × Call → List Nat
  | (env, .withdraw account) =>
    match s.withdraw env account with
    | .ok _ => [s.tokenBalance]
    | .error _ => []
  | _ => []

structure Settings where
  owner : Address
  membershipMaxSupply : Nat
  freeAllocation : Nat
  pricingModule : Address
  referralCodes : Nat → Nat
  referralCodeTimes : Nat → Nat × Nat

def Space.create (settings : Settings) (balance : Nat) : Space where
  balance := balance
  received _ := 0
  tokenBalance := 0
  transactionBalance := .empty
  transactionData _ := none
  transactionNonce _ := 0
  transactions _ := .zero
  membershipMaxSupply := settings.membershipMaxSupply
  freeAllocation := settings.freeAllocation
  pricingModule := settings.pricingModule
  renewalPriceByTokenId _ := 0
  currentIndex := 1
  burnCounter := 0
  ownerOf := Function.update (fun _ => 0) 0 settings.owner
  expiration _ := 0
  referralCodes := settings.referralCodes
  referralCodeTimes := settings.referralCodeTimes

def Env.sample : Env where
  self := 1
  owner := 2
  sender := 2
  value := 0
  timestamp := 1000
  blockNumber := 1
  keccak256 := Encodable.encode
  feeRecipient := 3
  membershipBps := 1000
  membershipDuration := 500
  membershipMintLimit := 0
  membershipFee := 100
  prepaidMembershipSupply := 0
  getPrice _ _ := some 100
  isPricingModule _ := true
  rolesWithJoinSpace := [⟨1, false, [.crosschain 9]⟩]
  randomNodes := some [11, 12, 13, 14, 15]
  accepts _ := true
  acceptsToken _ := true

def Env.call (sender value : Nat) : Env := { Env.sample with sender := sender, value := value }

def Settings.sample : Settings where
  owner := 2
  membershipMaxSupply := 0
  freeAllocation := 0
  pricingModule := 5
  referralCodes _ := 0
  referralCodeTimes _ := (0, 0)

def votesOf (nodes : List Address) (transactionId : Bytes32) (roleId : Nat)
    (result : NodeVoteStatus) : List (Env × Call) :=
  nodes.map fun node => (Env.call node 0, .postEntitlementCheckResult transactionId roleId result)

theorem keccak256_of_mem_votesOf {a : Env × Call}
    (h : a ∈ votesOf nodes transactionId roleId result) :
    a.1.keccak256 = Encodable.encode := by
  obtain ⟨-, -, rfl⟩ := List.mem_map.1 h
  rfl

end River.Contracts
