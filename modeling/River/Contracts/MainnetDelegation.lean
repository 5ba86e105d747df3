/-
  Delegations on mainnet as the Base diamond records them
  (contracts/src/tokens/river/base/delegation/MainnetDelegationBase.sol and
  MainnetDelegation.sol).
-/

import Mathlib.Algebra.BigOperators.Group.Finset.Sigma
import River.Contracts.Space
import River.Lib.EnumerableSet
import River.Lib.Machine

namespace River.Contracts

open River.Lib Function Machine Finset

inductive DelegationRevert where
  | notCrossDomainMessenger | ownableNotOwner | panicArithmetic
  deriving DecidableEq

structure Delegation where
  operator : Address
  quantity : Nat
  delegator : Address
  delegationTime : Nat

def Delegation.zero : Delegation := ⟨0, 0, 0, 0⟩

structure MainnetDelegation where
  delegatorsByOperator : Address → EnumerableSet Address
  delegationByDelegator : Address → Delegation
  claimerByDelegator : Address → Address
  proxyDelegation : Address
  messenger : Address
  delegatorsByAuthorizedClaimer : Address → EnumerableSet Address

/-! ## MainnetDelegationBase -/

namespace MainnetDelegationBase

def setDelegation (delegator operator : Address) (quantity timestamp : Nat)
    (ds : MainnetDelegation) :
    MainnetDelegation :=
  if operator = 0 then
    let delegation := ds.delegationByDelegator delegator
    -- `delete` on the copy in memory, field by field
    let delegation := { delegation with operator := 0 }
    let delegation := { delegation with quantity := 0 }
    let delegation := { delegation with delegationTime := 0 }
    let delegation := { delegation with delegator := 0 }
    let ds := { ds with
      delegationByDelegator := update ds.delegationByDelegator delegator .zero }
    let delegators := (ds.delegatorsByOperator delegation.operator).remove delegator
    { ds with
      delegatorsByOperator := update ds.delegatorsByOperator delegation.operator delegators }
  else
    let delegators := (ds.delegatorsByOperator operator).add delegator
    let delegation : Delegation := ⟨operator, quantity, delegator, timestamp⟩
    { ds with
      delegatorsByOperator := update ds.delegatorsByOperator operator delegators
      delegationByDelegator := update ds.delegationByDelegator delegator delegation }

variable (ds : MainnetDelegation)

def getDelegationByDelegator (delegator : Address) : Delegation :=
  ds.delegationByDelegator delegator

def getMainnetDelegationsByOperator (operator : Address) : List Delegation :=
  (ds.delegatorsByOperator operator).values.map ds.delegationByDelegator

def getDelegatedStakeByOperator (operator : Address) : Except DelegationRevert Nat :=
  let delegations := getMainnetDelegationsByOperator ds operator
  sumChecked .panicArithmetic 256 0 (delegations.map Delegation.quantity)

def setAuthorizedClaimer (delegator claimer : Address) (ds : MainnetDelegation) :
    MainnetDelegation :=
  let currentClaimer := ds.claimerByDelegator delegator
  let ds :=
    if delegator ∈ ds.delegatorsByAuthorizedClaimer currentClaimer then
      let delegators := (ds.delegatorsByAuthorizedClaimer currentClaimer).remove delegator
      { ds with
        delegatorsByAuthorizedClaimer :=
          update ds.delegatorsByAuthorizedClaimer currentClaimer delegators }
    else ds
  let delegators := (ds.delegatorsByAuthorizedClaimer claimer).add delegator
  { ds with
    claimerByDelegator := update ds.claimerByDelegator delegator claimer
    delegatorsByAuthorizedClaimer :=
      update ds.delegatorsByAuthorizedClaimer claimer delegators }

def getDelegatorsByAuthorizedClaimer (claimer : Address) : List Address :=
  (ds.delegatorsByAuthorizedClaimer claimer).values

end MainnetDelegationBase

open MainnetDelegationBase

/-! ## MainnetDelegation -/

structure CrossDomainSender where
  sender : Address
  xDomainMessageSender : Address

inductive DelegationCall where
  | setDelegation (origin : CrossDomainSender) (delegator operator : Address)
    (quantity timestamp : Nat)
  | setAuthorizedClaimer (origin : CrossDomainSender) (delegator claimer : Address)
  | setProxyDelegation (sender diamondOwner proxyDelegation : Address)

namespace MainnetDelegation

def init (messenger : Address) : MainnetDelegation where
  delegatorsByOperator := fun _ => .empty
  delegationByDelegator := fun _ => .zero
  claimerByDelegator := fun _ => 0
  proxyDelegation := 0
  messenger := messenger
  delegatorsByAuthorizedClaimer := fun _ => .empty

def OnlyCrossDomainMessenger (ds : MainnetDelegation) (origin : CrossDomainSender) : Prop :=
  origin.sender = ds.messenger ∧ origin.xDomainMessageSender = ds.proxyDelegation

instance (ds : MainnetDelegation) (origin : CrossDomainSender) :
    Decidable (ds.OnlyCrossDomainMessenger origin) :=
  inferInstanceAs (Decidable (_ ∧ _))

def call (ds : MainnetDelegation) : DelegationCall → Except DelegationRevert MainnetDelegation
  | .setDelegation origin delegator operator quantity timestamp =>
    if ds.OnlyCrossDomainMessenger origin then
      .ok (setDelegation delegator operator quantity timestamp ds)
    else .error .notCrossDomainMessenger
  | .setAuthorizedClaimer origin delegator claimer =>
    if ds.OnlyCrossDomainMessenger origin then
      .ok (setAuthorizedClaimer delegator claimer ds)
    else .error .notCrossDomainMessenger
  | .setProxyDelegation sender diamondOwner proxyDelegation =>
    if sender = diamondOwner then .ok { ds with proxyDelegation }
    else .error .ownableNotOwner

end MainnetDelegation

/-- Mainnet delegation on Base. -/
def delegationMachine : Machine MainnetDelegation DelegationCall (Option DelegationRevert) :=
  .ofCall MainnetDelegation.call

namespace MainnetDelegation

def operatorOf (ds : MainnetDelegation) (delegator : Address) : Address :=
  (ds.delegationByDelegator delegator).operator

def quantityOf (ds : MainnetDelegation) (delegator : Address) : Nat :=
  (ds.delegationByDelegator delegator).quantity

/-- An operator's set has exactly its delegators. -/
def Indexed (ds : MainnetDelegation) : Prop :=
  ∀ delegator operator, operator ≠ 0 →
    (delegator ∈ ds.delegatorsByOperator operator ↔ ds.operatorOf delegator = operator)

/-- The stakes of all operators add up to what is delegated. -/
def StakeConserved (ds : MainnetDelegation) : Prop :=
  ∀ (operators delegators : Finset Address) (stake : Address → Nat),
    (∀ operator ∈ operators,
      getDelegatedStakeByOperator ds operator = .ok (stake operator)) →
    (∀ operator delegator, delegator ∈ ds.delegatorsByOperator operator → operator ∈ operators) →
    (∀ delegator, ds.quantityOf delegator ≠ 0 → delegator ∈ delegators) →
    ∑ operator ∈ operators, stake operator = ∑ delegator ∈ delegators, ds.quantityOf delegator

/-- No delegator counts for two operators. -/
def CountedOnce (ds : MainnetDelegation) : Prop :=
  ∀ delegator operator operator', delegator ∈ ds.delegatorsByOperator operator →
    delegator ∈ ds.delegatorsByOperator operator' → operator = operator'

structure DelegationInv (ds : MainnetDelegation) : Prop where
  no_zero_operator : ∀ delegator, delegator ∉ ds.delegatorsByOperator 0
  no_quantity : ∀ delegator, ds.operatorOf delegator = 0 → ds.quantityOf delegator = 0

/-- No delegator goes from one operator to another. -/
def KeepsOperator (ds : MainnetDelegation) (call : DelegationCall) : Prop :=
  ∀ origin delegator operator quantity timestamp,
    call = .setDelegation origin delegator operator quantity timestamp →
    ds.OnlyCrossDomainMessenger origin →
      ds.operatorOf delegator = 0 ∨ ds.operatorOf delegator = operator

/-! ## What the index is for -/

variable {ds ds' : MainnetDelegation}

theorem stake_eq_sum (h : getDelegatedStakeByOperator ds operator = .ok stake) :
    stake = ∑ delegator ∈ (ds.delegatorsByOperator operator).values.toFinset,
      ds.quantityOf delegator := by
  rw [sumChecked_ok h, List.sum_toFinset _ (ds.delegatorsByOperator operator).nodup,
    getMainnetDelegationsByOperator, List.map_map, Nat.zero_add]
  rfl

theorem Indexed.sum_operator (h : Indexed ds) (hinv : DelegationInv ds)
    {delegators : Finset Address}
    (hall : ∀ delegator, ds.quantityOf delegator ≠ 0 → delegator ∈ delegators)
    (operator : Address) :
    ∑ delegator ∈ (ds.delegatorsByOperator operator).values.toFinset, ds.quantityOf delegator =
      ∑ delegator ∈ delegators with ds.operatorOf delegator = operator,
        ds.quantityOf delegator := by
  by_cases hzero : operator = 0
  · -- nobody is in the set of `address(0)`, and who has no operator has no quantity
    subst hzero
    have hempty : (ds.delegatorsByOperator 0).values = [] :=
      List.eq_nil_iff_forall_not_mem.2 hinv.no_zero_operator
    rw [hempty, eq_comm]
    apply sum_eq_zero
    intro delegator hmem
    exact hinv.no_quantity delegator (mem_filter.1 hmem).2
  · symm
    apply sum_subset
    · intro delegator hmem
      rw [List.mem_toFinset]
      exact (h delegator operator hzero).2 (mem_filter.1 hmem).2
    · -- a delegator of the operator that is not listed has no quantity
      intro delegator hmem hnot
      by_contra hquantity
      rw [List.mem_toFinset] at hmem
      exact hnot (mem_filter.2 ⟨hall delegator hquantity, (h delegator operator hzero).1 hmem⟩)

theorem Indexed.stakeConserved (h : Indexed ds) (hinv : DelegationInv ds) : StakeConserved ds := by
  intro operators delegators stake hstake hoperators hdelegators
  -- whoever has a quantity has an operator, and that one is listed
  have hlisted : ∀ delegator, ds.quantityOf delegator ≠ 0 →
      ds.operatorOf delegator ∈ operators := by
    intro delegator hquantity
    have hne : ds.operatorOf delegator ≠ 0 := fun hzero => hquantity (hinv.no_quantity _ hzero)
    exact hoperators _ delegator ((h delegator _ hne).2 rfl)
  calc ∑ operator ∈ operators, stake operator
      = ∑ operator ∈ operators,
          ∑ delegator ∈ delegators with ds.operatorOf delegator = operator,
            ds.quantityOf delegator := by
        apply sum_congr rfl
        intro operator hmem
        rw [stake_eq_sum (hstake operator hmem), h.sum_operator hinv hdelegators]
    _ = ∑ delegator ∈ delegators with ds.operatorOf delegator ∈ operators,
      ds.quantityOf delegator := by
        rw [sum_fiberwise_eq_sum_filter]
    _ = ∑ delegator ∈ delegators, ds.quantityOf delegator := by
        apply sum_filter_of_ne
        intro delegator _ hquantity
        exact hlisted delegator hquantity

theorem Indexed.countedOnce (h : Indexed ds) (hinv : DelegationInv ds) : CountedOnce ds := by
  intro delegator operator operator' hmem hmem'
  have hne : operator ≠ 0 := fun hzero => hinv.no_zero_operator delegator (hzero ▸ hmem)
  have hne' : operator' ≠ 0 := fun hzero => hinv.no_zero_operator delegator (hzero ▸ hmem')
  rw [← (h delegator operator hne).1 hmem, (h delegator operator' hne').1 hmem']

/-! ## One message -/

variable {delegator operator : Address}

theorem mem_setDelegation_zero (hinv : DelegationInv ds) (other operator' : Address) :
    other ∈ (setDelegation delegator 0 quantity timestamp ds).delegatorsByOperator
        operator' ↔ other ∈ ds.delegatorsByOperator operator' := by
  simp only [setDelegation, if_true]
  by_cases hzero : operator' = 0
  · subst hzero
    rw [update_self, EnumerableSet.mem_remove]
    exact ⟨fun h => h.1, fun h => absurd h (hinv.no_zero_operator other)⟩
  · rw [update_of_ne hzero]

theorem mem_setDelegation (hne : operator ≠ 0) (other operator' : Address) :
    other ∈ (setDelegation delegator operator quantity timestamp
        ds).delegatorsByOperator operator' ↔
      other ∈ ds.delegatorsByOperator operator' ∨ (other = delegator ∧ operator' = operator) := by
  simp only [setDelegation, if_neg hne]
  by_cases hsame : operator' = operator
  · subst hsame
    simp
  · simp [hsame]

theorem delegationByDelegator_setDelegation :
    (setDelegation delegator operator quantity timestamp ds).delegationByDelegator =
      update ds.delegationByDelegator delegator
        (if operator = 0 then .zero else ⟨operator, quantity, delegator, timestamp⟩) := by
  unfold setDelegation
  split
  · rfl
  · rfl

theorem operatorOf_setDelegation_self :
    (setDelegation delegator operator quantity timestamp ds).operatorOf delegator =
      operator := by
  rw [operatorOf, delegationByDelegator_setDelegation, update_self]
  split
  · rename_i hzero
    rw [hzero]
    rfl
  · rfl

theorem operatorOf_setDelegation_of_ne {other : Address} (h : other ≠ delegator) :
    (setDelegation delegator operator quantity timestamp ds).operatorOf other =
      ds.operatorOf other := by
  rw [operatorOf, delegationByDelegator_setDelegation, update_of_ne h]
  rfl

theorem DelegationInv.setDelegation (hinv : DelegationInv ds) :
    DelegationInv (setDelegation delegator operator quantity timestamp ds) := by
  constructor
  · intro other
    by_cases hzero : operator = 0
    · subst hzero
      rw [mem_setDelegation_zero hinv]
      exact hinv.no_zero_operator other
    · rw [mem_setDelegation hzero]
      rintro (hmem | ⟨-, hoperator⟩)
      · exact hinv.no_zero_operator other hmem
      · exact hzero hoperator.symm
  · intro other hoperator
    rw [quantityOf, delegationByDelegator_setDelegation]
    by_cases hsame : other = delegator
    · subst hsame
      rw [operatorOf_setDelegation_self] at hoperator
      rw [update_self, if_pos hoperator]
      rfl
    · rw [operatorOf_setDelegation_of_ne hsame] at hoperator
      rw [update_of_ne hsame]
      exact hinv.no_quantity other hoperator

theorem indexed_setDelegation_iff (hinv : DelegationInv ds) (h : Indexed ds) :
    Indexed (setDelegation delegator operator quantity timestamp ds) ↔
      ds.operatorOf delegator = 0 ∨ ds.operatorOf delegator = operator := by
  constructor
  · intro h'
    by_contra hnot
    obtain ⟨hne, hother⟩ := not_or.1 hnot
    -- the delegator is still in the set of the operator that it leaves
    have hold : delegator ∈ ds.delegatorsByOperator (ds.operatorOf delegator) :=
      (h delegator _ hne).2 rfl
    have hstill : delegator ∈ (setDelegation delegator operator quantity timestamp
        ds).delegatorsByOperator (ds.operatorOf delegator) := by
      by_cases hzero : operator = 0
      · subst hzero
        exact (mem_setDelegation_zero hinv _ _).2 hold
      · exact (mem_setDelegation hzero _ _).2 (.inl hold)
    have hnow := (h' delegator _ hne).1 hstill
    rw [operatorOf_setDelegation_self] at hnow
    exact hother hnow.symm
  · intro hkeeps other operator' hne'
    by_cases hsame : other = delegator
    · subst hsame
      rw [operatorOf_setDelegation_self]
      by_cases hzero : operator = 0
      · -- a removal of a delegator that has no operator
        subst hzero
        rw [mem_setDelegation_zero hinv, h _ _ hne', or_self_iff.1 hkeeps]
      · rw [mem_setDelegation hzero, h _ _ hne']
        constructor
        · rintro (hoperator | ⟨-, rfl⟩)
          · rcases hkeeps with hnone | hkept
            · exact absurd (hoperator.symm.trans hnone) hne'
            · exact hkept.symm.trans hoperator
          · rfl
        · exact fun hoperator => .inr ⟨rfl, hoperator.symm⟩
    · rw [operatorOf_setDelegation_of_ne hsame, ← h _ _ hne']
      by_cases hzero : operator = 0
      · subst hzero
        exact mem_setDelegation_zero hinv _ _
      · rw [mem_setDelegation hzero]
        simp [hsame]

/-! ## Whole runs -/

theorem next_cases (ds : MainnetDelegation) (call : DelegationCall) :
    (∃ origin delegator operator quantity timestamp,
      call = .setDelegation origin delegator operator quantity timestamp ∧
      ds.OnlyCrossDomainMessenger origin ∧
      delegationMachine.next ds call =
        setDelegation delegator operator quantity timestamp ds) ∨
    (KeepsOperator ds call ∧
      (delegationMachine.next ds call).delegatorsByOperator = ds.delegatorsByOperator ∧
      (delegationMachine.next ds call).delegationByDelegator = ds.delegationByDelegator) := by
  cases call with
  | setDelegation origin delegator operator quantity timestamp =>
    by_cases horigin : ds.OnlyCrossDomainMessenger origin
    · refine .inl ⟨_, _, _, _, _, rfl, horigin, ?_⟩
      simp only [next, delegationMachine, ofCall, call, if_pos horigin]
    refine .inr ⟨?_, ?_, ?_⟩
    · intro origin' _ _ _ _ heq horigin'
      cases heq
      exact absurd horigin' horigin
    · simp only [next, delegationMachine, ofCall, call, if_neg horigin]
    · simp only [next, delegationMachine, ofCall, call, if_neg horigin]
  | setAuthorizedClaimer origin delegator claimer =>
    refine .inr ⟨by simp [KeepsOperator], ?_⟩
    by_cases horigin : ds.OnlyCrossDomainMessenger origin
    · simp only [next, delegationMachine, ofCall, call, if_pos horigin, setAuthorizedClaimer]
      split <;> exact ⟨rfl, rfl⟩
    · simp only [next, delegationMachine, ofCall, call, if_neg horigin, and_self]
  | setProxyDelegation sender diamondOwner proxyDelegation =>
    refine .inr ⟨by simp [KeepsOperator], ?_⟩
    by_cases howner : sender = diamondOwner
    · simp only [next, delegationMachine, ofCall, call, if_pos howner, and_self]
    · simp only [next, delegationMachine, ofCall, call, if_neg howner, and_self]

theorem DelegationInv.next (hinv : DelegationInv ds) (call : DelegationCall) :
    DelegationInv (delegationMachine.next ds call) := by
  rcases next_cases ds call with ⟨_, _, _, _, _, -, -, hnext⟩ | ⟨-, hsets, hdelegations⟩
  · rw [hnext]
    exact hinv.setDelegation
  refine ⟨?_, ?_⟩
  · rw [hsets]
    exact hinv.no_zero_operator
  · unfold operatorOf quantityOf
    rw [hdelegations]
    exact hinv.no_quantity

theorem indexed_next_iff (call : DelegationCall) (hinv : DelegationInv ds) (h : Indexed ds) :
    Indexed (delegationMachine.next ds call) ↔ KeepsOperator ds call := by
  rcases next_cases ds call with
    ⟨origin, delegator, operator, quantity, timestamp, rfl, horigin, hnext⟩ |
    ⟨hkeeps, hsets, hdelegations⟩
  · rw [hnext, indexed_setDelegation_iff hinv h]
    constructor
    · intro hoperator _ _ _ _ _ heq _
      cases heq
      exact hoperator
    · exact fun hkeeps => hkeeps _ _ _ _ _ rfl horigin
  · refine iff_of_true ?_ hkeeps
    unfold Indexed operatorOf
    rw [hsets, hdelegations]
    exact h

/-- The index is right, the stakes add up and nobody is counted twice all along a sequence of calls
    exactly if every message that sets a delegation is about a delegator that has none or
    keeps its operator. -/
theorem delegationsAgree_iff (messenger : Address) (calls : List DelegationCall) :
    (∀ front, front <+: calls →
        let ds := delegationMachine.exec (init messenger) front
        Indexed ds ∧ StakeConserved ds ∧ CountedOnce ds) ↔
      delegationMachine.Along KeepsOperator (init messenger) calls := by
  have hinit : DelegationInv (init messenger) :=
    ⟨fun _ => EnumerableSet.not_mem_empty _, fun _ _ => rfl⟩
  have hindexed : Indexed (init messenger) := by
    intro delegator operator hne
    exact iff_of_false (EnumerableSet.not_mem_empty _) (Ne.symm hne)
  refine always_iff_along
    (I := fun ds => Indexed ds ∧ StakeConserved ds ∧ CountedOnce ds)
    (fun _ call hinv => hinv.next call) ?_ hinit
    ⟨hindexed, hindexed.stakeConserved hinit, hindexed.countedOnce hinit⟩ calls
  intro ds call hinv h
  rw [← indexed_next_iff call hinv h.1]
  exact ⟨fun h' => h'.1, fun h' =>
    ⟨h', h'.stakeConserved (hinv.next call), h'.countedOnce (hinv.next call)⟩⟩

def movedDelegation : List DelegationCall :=
  let origin : CrossDomainSender := ⟨1, 8⟩
  [.setProxyDelegation 9 9 8, .setDelegation origin 2 3 5 100, .setDelegation origin 2 4 7 200,
    .setDelegation origin 2 0 0 300]

/-- After the second delegation both operators report its stake, and after the removal it is still
    in both sets. -/
theorem not_delegationsAgree_moved :
    let moved := delegationMachine.exec (init 1) (movedDelegation.take 3)
    let removed := delegationMachine.exec (init 1) movedDelegation
    (moved.operatorOf 2 = 4 ∧ moved.quantityOf 2 = 7 ∧
      getDelegatedStakeByOperator moved 3 = .ok 7 ∧
      getDelegatedStakeByOperator moved 4 = .ok 7) ∧
    removed.operatorOf 2 = 0 ∧ 2 ∈ removed.delegatorsByOperator 3 ∧
      2 ∈ removed.delegatorsByOperator 4 := by
  decide +kernel

end MainnetDelegation

end River.Contracts
