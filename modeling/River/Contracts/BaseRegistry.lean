/-
  The diamond on Base that registers node operators
  (contracts/src/base/registry/facets/operator/NodeOperatorFacet.sol,
  facets/delegation/SpaceDelegationFacet.sol).

  An operator owns one token of the diamond, which cannot be transferred, so the owners by token
  id are the operators in the order of their registration.
-/

import River.Contracts.MainnetDelegation
import River.Contracts.RiverToken

namespace River.Contracts

open River.Lib Function

inductive NodeOperatorStatus where
  | exiting | standby | approved | active
  deriving DecidableEq

inductive BaseRegistryRevert where
  | notOwner
  | nodeOperatorInvalidAddress | nodeOperatorAlreadyRegistered | nodeOperatorNotRegistered
  | nodeOperatorStatusNotChanged | nodeOperatorInvalidStatusTransition
  | nodeOperatorClaimAddressNotChanged | nodeOperatorNotClaimer | nodeOperatorInvalidCommissionRate
  | spaceDelegationInvalidSpace | spaceDelegationInvalidAddress
  | spaceDelegationAlreadyDelegated (operator : Address)
  | noActiveOperators | invalidOperator | noRewardsToClaim | insufficientRewardBalance
  | panicArithmetic | panicDivisionByZero
  | riverToken (e : TokenRevert)
  | mainnetDelegation (e : DelegationRevert)
  deriving DecidableEq

abbrev RegistryResult := Except BaseRegistryRevert

variable [ERC20Votes]

structure BaseRegistry where
  self : Address
  owner : Address
  riverToken : RiverToken
  mainnetDelegation : MainnetDelegation
  -- `ERC721A`: the owners by token id
  owners : List Address
  -- `NodeOperatorStorage`
  operators : EnumerableSet Address
  statusByOperator : Address → NodeOperatorStatus
  commissionByOperator : Address → Nat
  claimerByOperator : Address → Address
  operatorsByClaimer : Address → EnumerableSet Address
  approvalTimeByOperator : Address → Nat
  -- `SpaceDelegationStorage`
  spacesByOperator : Address → EnumerableSet Address
  operatorBySpace : Address → Address
  spaceDelegationTime : Address → Nat
  -- `RewardsDistributionStorage`
  distributionByOperator : Mapping Address
  distributionByDelegator : Mapping Address
  weeklyDistributionAmount : Nat

namespace BaseRegistry

def init (self owner messenger : Address) (riverToken : RiverToken) : BaseRegistry where
  self := self
  owner := owner
  riverToken := riverToken
  mainnetDelegation := .init messenger
  owners := []
  operators := .empty
  statusByOperator := fun _ => .exiting
  commissionByOperator := fun _ => 0
  claimerByOperator := fun _ => 0
  operatorsByClaimer := fun _ => .empty
  approvalTimeByOperator := fun _ => 0
  spacesByOperator := fun _ => .empty
  operatorBySpace := fun _ => 0
  spaceDelegationTime := fun _ => 0
  distributionByOperator := .empty
  distributionByDelegator := .empty
  weeklyDistributionAmount := 0

def timestamp (s : BaseRegistry) : Nat := s.riverToken.timestamp

/-! ## NodeOperatorFacet -/

def registerOperator (sender claimer : Address) (s : BaseRegistry) : RegistryResult BaseRegistry :=
  if claimer = 0 then .error .nodeOperatorInvalidAddress
  else if sender ∈ s.operators then .error .nodeOperatorAlreadyRegistered
  else
    let operators := (s.operatorsByClaimer claimer).add sender
    .ok { s with
      owners := s.owners ++ [sender]
      operators := s.operators.add sender
      statusByOperator := update s.statusByOperator sender .standby
      claimerByOperator := update s.claimerByOperator sender claimer
      operatorsByClaimer := update s.operatorsByClaimer claimer operators }

def setOperatorStatus (sender operator : Address) (newStatus : NodeOperatorStatus)
    (s : BaseRegistry) :
    RegistryResult BaseRegistry :=
  if sender ≠ s.owner then .error .notOwner
  else if operator = 0 then .error .nodeOperatorInvalidAddress
  else if operator ∉ s.operators then .error .nodeOperatorNotRegistered
  else
    let currentStatus := s.statusByOperator operator
    if currentStatus = newStatus then .error .nodeOperatorStatusNotChanged
    else if currentStatus = .exiting ∧ newStatus ≠ .standby then
      .error .nodeOperatorInvalidStatusTransition
    else if currentStatus = .standby ∧ newStatus ≠ .approved then
      .error .nodeOperatorInvalidStatusTransition
    else if currentStatus = .approved ∧ newStatus ≠ .exiting then
      .error .nodeOperatorInvalidStatusTransition
    else
      let approvalTime := if newStatus = .approved then s.timestamp else 0
      .ok { s with
        approvalTimeByOperator := update s.approvalTimeByOperator operator approvalTime
        statusByOperator := update s.statusByOperator operator newStatus }

def setClaimAddressForOperator (sender claimer operator : Address) (s : BaseRegistry) :
    RegistryResult BaseRegistry :=
  -- the modifier `onlyClaimer`
  if operator ∉ s.operatorsByClaimer sender then .error .nodeOperatorNotClaimer
  else if operator ∉ s.operators then .error .nodeOperatorNotRegistered
  else
    let currentClaimer := s.claimerByOperator operator
    if currentClaimer = claimer then .error .nodeOperatorClaimAddressNotChanged
    else
      let operatorsByClaimer :=
        if operator ∈ s.operatorsByClaimer currentClaimer then
          update s.operatorsByClaimer currentClaimer
            ((s.operatorsByClaimer currentClaimer).remove operator)
        else s.operatorsByClaimer
      .ok { s with
        claimerByOperator := update s.claimerByOperator operator claimer
        operatorsByClaimer :=
          update operatorsByClaimer claimer ((operatorsByClaimer claimer).add operator) }

def setCommissionRate (sender : Address) (rate : Nat) (s : BaseRegistry) :
    RegistryResult BaseRegistry :=
  if sender ∉ s.operators then .error .nodeOperatorNotRegistered
  else if rate > 100 then .error .nodeOperatorInvalidCommissionRate
  else .ok { s with commissionByOperator := update s.commissionByOperator sender rate }

/-! ## SpaceDelegationFacet -/

def addSpaceDelegation (sender spaceOwner space operator : Address) (s : BaseRegistry) :
    RegistryResult BaseRegistry :=
  if sender ≠ spaceOwner then .error .spaceDelegationInvalidSpace
  else if space = 0 then .error .spaceDelegationInvalidAddress
  else if operator = 0 then .error .spaceDelegationInvalidAddress
  else
    let currentOperator := s.operatorBySpace space
    if currentOperator ≠ 0 ∧ currentOperator = operator then
      .error (.spaceDelegationAlreadyDelegated currentOperator)
    else
      let spacesByOperator := update s.spacesByOperator currentOperator
        ((s.spacesByOperator currentOperator).remove space)
      .ok { s with
        operatorBySpace := update s.operatorBySpace space operator
        spacesByOperator :=
          update spacesByOperator operator ((spacesByOperator operator).add space)
        spaceDelegationTime := update s.spaceDelegationTime space s.timestamp }

def removeSpaceDelegation (sender spaceOwner space : Address) (s : BaseRegistry) :
    RegistryResult BaseRegistry :=
  if sender ≠ spaceOwner then .error .spaceDelegationInvalidSpace
  else if space = 0 then .error .spaceDelegationInvalidAddress
  else
    let operator := s.operatorBySpace space
    if operator = 0 then .error .spaceDelegationInvalidAddress
    else
      .ok { s with
        operatorBySpace := update s.operatorBySpace space 0
        spacesByOperator :=
          update s.spacesByOperator operator ((s.spacesByOperator operator).remove space)
        spaceDelegationTime := update s.spaceDelegationTime space 0 }

end BaseRegistry

end River.Contracts
