/-
  The storage of a space contract and the internal functions that its membership facet calls
  (contracts/src/spaces/facets/membership/MembershipBase.sol,
  spaces/facets/dispatcher/DispatcherBase.sol, spaces/facets/gated/EntitlementGatedBase.sol,
  membership/referral/MembershipReferralBase.sol, utils/libraries/CurrencyTransfer.sol,
  utils/libraries/BasisPoints.sol, diamond/facets/token/ERC721A and ERC5643).

  The currency is the native token. What a call reads from other contracts and whether an account
  accepts ether or a token is part of the call's environment.
-/

import River.Lib.Checked
import River.Lib.Mapping

namespace River.Contracts

open Function

abbrev Address := Nat

abbrev Bytes32 := Nat

inductive Revert where
  | membershipInvalidAddress | membershipMaxSupplyReached | membershipInsufficientPayment
  | membershipNotExpired | membershipInvalidMaxSupply | membershipInvalidFreeAllocation
  | membershipInvalidPricingModule | dispatcherInvalidValue | nativeTokenTransferFailed
  | basisPointsExceeded | checkAlreadyRegistered | checkAlreadyCompleted
  | transactionNotRegistered | nodeNotFound | nodeAlreadyVoted | notOwner | notPayable
  | ownerQueryForNonexistentToken | transferToNonReceiver | panicArithmetic | abiDecode
  | externalCall
  deriving DecidableEq

inductive Entitlement where
  | localCheck (isEntitled : Bool)
  | crosschain (entitlement : Address)

structure Role where
  id : Nat
  disabled : Bool
  entitlements : List Entitlement

inductive NodeVoteStatus where
  | notVoted | passed | failed
  deriving DecidableEq

structure NodeVote where
  node : Address
  vote : NodeVoteStatus

structure Transaction where
  hasBenSet : Bool
  clientAddress : Address
  nodeVotesArray : Nat → List NodeVote
  isCompleted : Nat → Bool
  entitlement : Address
  roleIds : List Nat

def Transaction.zero : Transaction := ⟨false, 0, fun _ => [], fun _ => false, 0, []⟩

def Transaction.withVotes (roleId : Nat) (votes : List NodeVote) (transaction : Transaction) :
    Transaction :=
  { transaction with nodeVotesArray := update transaction.nodeVotesArray roleId votes }

def Transaction.requested (clientAddress entitlement : Address) (roleId : Nat)
    (selectedNodes : List Address) (transaction : Transaction) : Transaction :=
  let transaction :=
    if transaction.hasBenSet = false then
      { transaction with
        hasBenSet := true, entitlement := entitlement, clientAddress := clientAddress }
    else transaction
  let votes := selectedNodes.map fun node => (⟨node, .notVoted⟩ : NodeVote)
  let transaction := { transaction with roleIds := transaction.roleIds ++ [roleId] }
  transaction.withVotes roleId (transaction.nodeVotesArray roleId ++ votes)

def Transaction.completed (roleId : Nat) (transaction : Transaction) : Transaction :=
  { transaction with isCompleted := update transaction.isCompleted roleId true }

structure Env where
  self : Address
  owner : Address
  sender : Address
  value : Nat
  timestamp : Nat
  blockNumber : Nat
  keccak256 : List Nat → Bytes32
  feeRecipient : Address
  membershipBps : Nat
  membershipDuration : Nat
  membershipMintLimit : Nat
  membershipFee : Nat
  prepaidMembershipSupply : Nat
  getPrice : Nat → Nat → Option Nat
  isPricingModule : Address → Bool
  rolesWithJoinSpace : List Role
  randomNodes : Option (List Address)
  accepts : Address → Bool
  acceptsToken : Address → Bool

/-- The storage of a space's membership. -/
structure Space where
  balance : Nat
  /-- What each account has got by transfers of the space. -/
  received : Address → Nat
  tokenBalance : Nat
  transactionBalance : Lib.Mapping Bytes32
  transactionData : Bytes32 → Option (Address × Address)
  transactionNonce : Bytes32 → Nat
  transactions : Bytes32 → Transaction
  membershipMaxSupply : Nat
  freeAllocation : Nat
  pricingModule : Address
  renewalPriceByTokenId : Nat → Nat
  currentIndex : Nat
  burnCounter : Nat
  ownerOf : Nat → Address
  expiration : Nat → Nat
  referralCodes : Nat → Nat
  referralCodeTimes : Nat → Nat × Nat

abbrev Result := Except Revert

/-! ## Arithmetic and transfers -/

def checkedAdd (a b : Nat) (width : Nat) : Result Nat :=
  if a + b < 2 ^ width then .ok (a + b) else .error .panicArithmetic

def checkedSub (a b : Nat) : Result Nat :=
  if b ≤ a then .ok (a - b) else .error .panicArithmetic

def basisPointsCalculate (amount basisPoints : Nat) : Result Nat :=
  if basisPoints > 10000 then .error .basisPointsExceeded
  else if amount * basisPoints < 2 ^ 256 then .ok (amount * basisPoints / 10000)
  else .error .panicArithmetic

theorem checkedAdd_eq_ok (h : checkedAdd a b width = .ok c) : c = a + b := by
  unfold checkedAdd at h
  split at h
  · cases h
    rfl
  · cases h

theorem checkedSub_eq_ok (h : checkedSub a b = .ok c) : b ≤ a ∧ c = a - b := by
  unfold checkedSub at h
  split at h
  · cases h
    exact ⟨by assumption, rfl⟩
  · cases h

namespace Space

def ifPositive (amount : Nat) (f : Space → Result Space) (s : Space) : Result Space :=
  if amount > 0 then f s else .ok s

variable (env : Env)

def transferCurrency (recipient : Address) (amount : Nat) (s : Space) : Result Space :=
  if amount = 0 then .ok s
  else if amount ≤ s.balance ∧ env.accepts recipient = true then
    .ok { s with
      balance := if recipient = env.self then s.balance else s.balance - amount
      received := update s.received recipient (s.received recipient + amount) }
  else .error .nativeTokenTransferFailed

/-! ## Dispatcher -/

def captureData (transactionId : Bytes32) (data : Option (Address × Address)) (s : Space) : Space :=
  { s with transactionData := update s.transactionData transactionId data }

def captureValue (transactionId : Bytes32) (value : Nat) (s : Space) : Result Space :=
  if value = 0 then .error .dispatcherInvalidValue
  else if env.value ≠ value then .error .dispatcherInvalidValue
  else do
    let captured ← checkedAdd (s.transactionBalance.get transactionId) value 256
    .ok { s with transactionBalance := s.transactionBalance.set transactionId captured }

def releaseCapturedValue (transactionId : Bytes32) (value : Nat) (s : Space) : Result Space := do
  let captured ← checkedSub (s.transactionBalance.get transactionId) value
  .ok { s with transactionBalance := s.transactionBalance.set transactionId captured }

def useDispatchNonce (keyHash : Bytes32) (s : Space) : Nat × Space :=
  (s.transactionNonce keyHash,
    { s with transactionNonce :=
        update s.transactionNonce keyHash (s.transactionNonce keyHash + 1) })

def makeDispatchId (keyHash : Bytes32) (requester : Address) (nonce : Nat) : Bytes32 :=
  env.keccak256 [keyHash, env.keccak256 [keyHash, requester, nonce]]

/-! ## Prices and fees -/

def totalSupply (s : Space) : Nat := s.currentIndex - s.burnCounter

def getMembershipFreeAllocation (s : Space) : Nat :=
  if s.freeAllocation > 0 then s.freeAllocation else env.membershipMintLimit

def getMembershipPrice (s : Space) (totalSupply : Nat) : Result Nat :=
  let freeAllocation := s.getMembershipFreeAllocation env
  if freeAllocation > totalSupply then .ok 0
  else if env.prepaidMembershipSupply > totalSupply then .ok 0
  else if s.pricingModule ≠ 0 then
    match env.getPrice freeAllocation totalSupply with
    | some price => .ok price
    | none => .error .externalCall
  else .ok env.membershipFee

def setMembershipRenewalPrice (tokenId pricePaid : Nat) (s : Space) : Space :=
  { s with renewalPriceByTokenId := update s.renewalPriceByTokenId tokenId pricePaid }

def getMembershipRenewalPrice (s : Space) (tokenId totalSupply : Nat) : Result Nat :=
  if s.renewalPriceByTokenId tokenId > 0 then .ok (s.renewalPriceByTokenId tokenId)
  else s.getMembershipPrice env totalSupply

def collectProtocolFee (membershipPrice : Nat) (s : Space) : Result (Nat × Space) := do
  let protocolFee ← basisPointsCalculate membershipPrice env.membershipBps
  let s ← s.transferCurrency env env.feeRecipient protocolFee
  .ok (protocolFee, s)

def transferIn (amount : Nat) (s : Space) : Result Space := do
  let tokenBalance ← checkedAdd s.tokenBalance amount 256
  .ok { s with tokenBalance := tokenBalance }

def calculateReferralAmount (membershipPrice referralCode : Nat) (s : Space) : Result Nat :=
  let referralBps := s.referralCodes referralCode
  let (startTime, endTime) := s.referralCodeTimes referralCode
  if referralBps = 0 then .ok 0
  else if startTime ≠ 0 ∧ (env.timestamp < startTime ∨ env.timestamp > endTime) then .ok 0
  else basisPointsCalculate membershipPrice referralBps

/-! ## Tokens -/

def safeMint (recipient : Address) (s : Space) : Result Space :=
  if env.acceptsToken recipient = true then
    .ok { s with
      currentIndex := s.currentIndex + 1
      ownerOf := update s.ownerOf s.currentIndex recipient }
  else .error .transferToNonReceiver

def ownerOfToken (s : Space) (tokenId : Nat) : Result Address :=
  if tokenId < s.currentIndex then .ok (s.ownerOf tokenId)
  else .error .ownerQueryForNonexistentToken

def renewSubscription (tokenId duration : Nat) (s : Space) : Result Space := do
  let newExpiration ←
    if s.expiration tokenId = 0 then checkedAdd (env.timestamp % 2 ^ 64) duration 64
    else checkedAdd (s.expiration tokenId) duration 64
  .ok { s with expiration := update s.expiration tokenId newExpiration }

end Space

end River.Contracts
