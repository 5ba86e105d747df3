/-
  How rewards are distributed and claimed
  (contracts/src/base/registry/facets/distribution/RewardsDistribution.sol), and the whole diamond
  as a machine.

  Arrays that keep only some elements of another one have a zero in the place of each of the
  others.
-/

import River.Contracts.BaseRegistry

namespace River.Contracts

open River.Lib MainnetDelegationBase

variable [ERC20Votes]

namespace BaseRegistry

variable (s : BaseRegistry)

def ledgerTotal : Nat :=
  s.distributionByOperator.total + s.distributionByDelegator.total

/-! ## Who takes part -/

def isActiveSinceLastCycle (startTime : Nat) : RegistryResult Bool := do
  let lastCycle ← subChecked .panicArithmetic s.timestamp (7 * 24 * 60 * 60)
  .ok (decide (startTime < lastCycle))

def activeOnly {α : Type} (zero : α) (startTime : α → Nat) (xs : List α) :
    RegistryResult (List α) :=
  xs.mapM fun x => do
    let active ← s.isActiveSinceLastCycle (startTime x)
    .ok (if active = true then x else zero)

def getDelegatorsByDelegatee (delegatee : Address) : List Address :=
  (s.riverToken.delegatorsByDelegatee delegatee).values

variable (operator : Address)

def getValidDelegators : RegistryResult (List Address) :=
  s.activeOnly 0 s.riverToken.delegationTimeForDelegator (s.getDelegatorsByDelegatee operator)

def getValidDelegatingSpaces : RegistryResult (List Address) :=
  s.activeOnly 0 s.spaceDelegationTime (s.spacesByOperator operator).values

def getValidMainnetDelegationsByOperator : RegistryResult (List Delegation) :=
  s.activeOnly .zero Delegation.delegationTime
    (getMainnetDelegationsByOperator s.mainnetDelegation operator)

def isActiveOperator : RegistryResult Bool :=
  if s.statusByOperator operator = .approved then
    s.isActiveSinceLastCycle (s.approvalTimeByOperator operator)
  else .ok false

def getActiveOperators : RegistryResult (List Address) := do
  let active ← s.owners.mapM s.isActiveOperator
  let expectedOperators := (s.owners.zip active).map fun (operator, isActive) =>
    if isActive = true then operator else 0
  .ok (expectedOperators.take (active.count true))

/-! ## Distribution -/

def combinedDelegators : RegistryResult (List Address × List Nat) := do
  let delegators ← s.getValidDelegators operator
  let delegatingSpaces ← s.getValidDelegatingSpaces operator
  -- the source also calls this for the length of the new array
  let _ ← delegatingSpaces.mapM s.getValidDelegators
  let mainnetDelegations ← s.getValidMainnetDelegationsByOperator operator
  let onBase := delegators ++ delegatingSpaces.flatMap s.getDelegatorsByDelegatee
  .ok (onBase ++ mainnetDelegations.map Delegation.delegator,
    onBase.map s.riverToken.balanceOf ++ mainnetDelegations.map Delegation.quantity)

def stakeOf (delegator : Address) : Nat :=
  let amount := s.riverToken.balanceOf delegator
  if amount = 0 then
    (getDelegationByDelegator s.mainnetDelegation delegator).quantity
  else amount

def creditDelegators (delegatorsClaimAmount totalDelegation : Nat) :
    List Address → BaseRegistry → RegistryResult BaseRegistry
  | [], s => .ok s
  | delegator :: rest, s => do
    let product ← mulChecked .panicArithmetic 256 (s.stakeOf delegator) delegatorsClaimAmount
    let delegatorProRata ← divChecked .panicDivisionByZero product totalDelegation
    let credited ←
      addChecked .panicArithmetic 256 (s.distributionByDelegator.get delegator) delegatorProRata
    creditDelegators delegatorsClaimAmount totalDelegation rest
      { s with distributionByDelegator := s.distributionByDelegator.set delegator credited }

def distributeDelegatorsRewards (delegatorsClaimAmount : Nat) (s : BaseRegistry) :
    RegistryResult BaseRegistry := do
  let (delegators, counted) ← s.combinedDelegators operator
  let totalDelegation ← sumChecked .panicArithmetic 256 0 counted
  creditDelegators delegatorsClaimAmount totalDelegation delegators s

def calculateOperatorDistribution (amountPerOperator : Nat) : RegistryResult Nat := do
  let product ←
    mulChecked .panicArithmetic 256 (s.commissionByOperator operator) amountPerOperator
  .ok (product / 100)

def distributeRewards (sender operator : Address) (s : BaseRegistry) :
    RegistryResult BaseRegistry :=
  if sender ≠ s.owner then .error .notOwner
  else do
    let activeOperators ← s.getActiveOperators
    if activeOperators.length = 0 then .error .noActiveOperators
    else if operator ∉ activeOperators then .error .invalidOperator
    else do
      let amountPerOperator := s.weeklyDistributionAmount / activeOperators.length
      let operatorClaimAmount ← s.calculateOperatorDistribution operator amountPerOperator
      let credited ←
        addChecked .panicArithmetic 256 (s.distributionByOperator.get operator) operatorClaimAmount
      let s := { s with distributionByOperator := s.distributionByOperator.set operator credited }
      let delegatorClaimAmount ← subChecked .panicArithmetic amountPerOperator operatorClaimAmount
      s.distributeDelegatorsRewards operator delegatorClaimAmount

def setWeeklyDistributionAmount (sender : Address) (amount : Nat) (s : BaseRegistry) :
    RegistryResult BaseRegistry :=
  if sender ≠ s.owner then .error .notOwner
  else .ok { s with weeklyDistributionAmount := amount }

/-! ## Claims -/

def delegatorsForClaimer (claimer : Address) : List Address :=
  getDelegatorsByAuthorizedClaimer s.mainnetDelegation claimer

def operatorsForClaimer (claimer : Address) : List Address :=
  (s.operatorsByClaimer claimer).values

def getClaimableAmount (claimer : Address) : RegistryResult Nat := do
  let totalClaimableAmount ← sumChecked .panicArithmetic 256 0
    ((s.delegatorsForClaimer claimer).map s.distributionByDelegator.get)
  let totalClaimableAmount ← sumChecked .panicArithmetic 256 totalClaimableAmount
    ((s.operatorsForClaimer claimer).map s.distributionByOperator.get)
  addChecked .panicArithmetic 256 totalClaimableAmount (s.distributionByDelegator.get claimer)

def clear (ledger : Mapping Address) (accounts : List Address) : Mapping Address :=
  accounts.foldl (fun ledger account => ledger.set account 0) ledger

def transferCurrency (to_ : Address) (amount : Nat) (s : BaseRegistry) :
    RegistryResult BaseRegistry :=
  if amount = 0 then .ok s
  else if s.self = to_ then .ok s
  else
    match s.riverToken.transfer s.self to_ amount with
    | .ok riverToken => .ok { s with riverToken }
    | .error e => .error (.riverToken e)

def claim (sender : Address) (s : BaseRegistry) : RegistryResult BaseRegistry := do
  let amount ← s.getClaimableAmount sender
  if amount = 0 then .error .noRewardsToClaim
  else if s.riverToken.balanceOf s.self < amount then .error .insufficientRewardBalance
  else
    let s := { s with
      distributionByDelegator := s.distributionByDelegator.set sender 0
      distributionByOperator := s.distributionByOperator.set sender 0 }
    let s := { s with
      distributionByDelegator := clear s.distributionByDelegator (s.delegatorsForClaimer sender) }
    let s := { s with
      distributionByOperator := clear s.distributionByOperator (s.operatorsForClaimer sender) }
    s.transferCurrency sender amount

end BaseRegistry

/-! ## The diamond as a machine -/

inductive RegistryCall where
  | riverToken (call : TokenCall)
  | setDelegation (origin : CrossDomainSender) (delegator operator : Address) (quantity : Nat)
  | setAuthorizedClaimer (origin : CrossDomainSender) (delegator claimer : Address)
  | setProxyDelegation (sender : Account) (proxyDelegation : Address)
  | registerOperator (sender : Account) (claimer : Address)
  | setOperatorStatus (sender : Account) (operator : Address) (newStatus : NodeOperatorStatus)
  | setClaimAddressForOperator (sender : Account) (claimer operator : Address)
  | setCommissionRate (sender : Account) (rate : Nat)
  | addSpaceDelegation (sender : Account) (spaceOwner space operator : Address)
  | removeSpaceDelegation (sender : Account) (spaceOwner space : Address)
  | setWeeklyDistributionAmount (sender : Account) (amount : Nat)
  | distributeRewards (sender : Account) (operator : Address)
  | claim (sender : Account)

namespace BaseRegistry

def callMainnet (call : DelegationCall) (s : BaseRegistry) : RegistryResult BaseRegistry :=
  match s.mainnetDelegation.call call with
  | .ok mainnetDelegation => .ok { s with mainnetDelegation }
  | .error e => .error (.mainnetDelegation e)

def callToken (call : TokenCall) (s : BaseRegistry) : RegistryResult BaseRegistry :=
  match s.riverToken.call call with
  | .ok riverToken => .ok { s with riverToken }
  | .error e => .error (.riverToken e)

def call (s : BaseRegistry) : RegistryCall → RegistryResult BaseRegistry
  | .riverToken call => s.callToken call
  | .setDelegation origin delegator operator quantity =>
    s.callMainnet (.setDelegation origin delegator operator quantity s.timestamp)
  | .setAuthorizedClaimer origin delegator claimer =>
    s.callMainnet (.setAuthorizedClaimer origin delegator claimer)
  | .setProxyDelegation sender proxyDelegation =>
    s.callMainnet (.setProxyDelegation sender.address s.owner proxyDelegation)
  | .registerOperator sender claimer => s.registerOperator sender.address claimer
  | .setOperatorStatus sender operator newStatus =>
    s.setOperatorStatus sender.address operator newStatus
  | .setClaimAddressForOperator sender claimer operator =>
    s.setClaimAddressForOperator sender.address claimer operator
  | .setCommissionRate sender rate => s.setCommissionRate sender.address rate
  | .addSpaceDelegation sender spaceOwner space operator =>
    s.addSpaceDelegation sender.address spaceOwner space operator
  | .removeSpaceDelegation sender spaceOwner space =>
    s.removeSpaceDelegation sender.address spaceOwner space
  | .setWeeklyDistributionAmount sender amount =>
    s.setWeeklyDistributionAmount sender.address amount
  | .distributeRewards sender operator => s.distributeRewards sender.address operator
  | .claim sender => s.claim sender.address

end BaseRegistry

/-- The registry on Base. -/
def baseRegistryMachine : Machine BaseRegistry RegistryCall (Option BaseRegistryRevert) :=
  .ofCall BaseRegistry.call

end River.Contracts
