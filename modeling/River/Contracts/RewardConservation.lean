/-
  Whether a distribution credits at most the operator's share.
-/

import River.Contracts.RewardsDistribution

namespace River.Contracts

open River.Lib

namespace BaseRegistry

/-! ## Shares that are rounded down -/

theorem sum_mul_div_bounds (amounts : List Nat) (claim : Nat) {total : Nat} (htotal : 0 < total) :
    (amounts.map fun amount => amount * claim / total).sum * total ≤ amounts.sum * claim ∧
      amounts.sum * claim ≤
        ((amounts.map fun amount => amount * claim / total).sum + amounts.length) * total := by
  induction amounts with
  | nil => simp
  | cons amount amounts ih =>
    have hlow := Nat.div_mul_le_self (amount * claim) total
    have hhigh := Nat.lt_mul_div_succ (amount * claim) htotal
    rw [Nat.mul_comm total, Nat.add_mul] at hhigh
    simp only [List.map_cons, List.sum_cons, List.length_cons, Nat.add_mul] at ih ⊢
    constructor
    · omega
    · omega

/-! ## What a distribution credits -/

section Registry

variable [ERC20Votes] {s s' : BaseRegistry}

def delegatorClaimAmount (s : BaseRegistry) (operator : Address) (amountPerOperator : Nat) : Nat :=
  amountPerOperator - s.commissionByOperator operator * amountPerOperator / 100

theorem creditDelegators_ok {claim total : Nat}
    (h : creditDelegators claim total delegators s = .ok s') :
    s' = { s with distributionByDelegator := s'.distributionByDelegator } ∧
      s'.distributionByDelegator.total = s.distributionByDelegator.total +
        ((delegators.map s.stakeOf).map fun amount => amount * claim / total).sum ∧
      (delegators ≠ [] → total ≠ 0) := by
  induction delegators generalizing s with
  | nil =>
    cases h
    exact ⟨rfl, by simp, fun hne => absurd rfl hne⟩
  | cons delegator delegators ih =>
    obtain ⟨_, hproduct, h⟩ := bind_ok.1 h
    obtain ⟨proRata, hproRata, h⟩ := bind_ok.1 h
    obtain ⟨credited, hcredited, h⟩ := bind_ok.1 h
    obtain ⟨hrest, hdelegators, -⟩ := ih h
    obtain ⟨htotal, hproRata⟩ := divChecked_ok.1 hproRata
    have hset := s.distributionByDelegator.total_set delegator credited
    rw [(mulChecked_ok.1 hproduct).2] at hproRata
    rw [(addChecked_ok.1 hcredited).2] at hset hdelegators
    refine ⟨?_, ?_, fun _ => htotal⟩
    · rw [hrest]
    -- the stakes are the same after the write
    have hstakes : delegators.map (stakeOf { s with
        distributionByDelegator :=
          s.distributionByDelegator.set delegator
            (s.distributionByDelegator.get delegator + proRata) }) = delegators.map s.stakeOf := rfl
    rw [hstakes] at hdelegators
    simp only [List.map_cons, List.sum_cons]
    simp only at hdelegators
    omega

structure Distributed (s : BaseRegistry) (operator : Address) (active delegators : List Address)
    (counted : List Nat) (s' : BaseRegistry) : Prop where
  found : s.getActiveOperators = .ok active
  listed : s.combinedDelegators operator = .ok (delegators, counted)
  commission :
    s.commissionByOperator operator * (s.weeklyDistributionAmount / active.length) / 100 ≤
      s.weeklyDistributionAmount / active.length
  credited :
    let share := s.weeklyDistributionAmount / active.length
    creditDelegators (s.delegatorClaimAmount operator share) counted.sum delegators { s with
      distributionByOperator := s.distributionByOperator.set operator
        (s.distributionByOperator.get operator + s.commissionByOperator operator * share / 100) } =
      .ok s'

theorem distributeRewards_distributed (h : s.distributeRewards sender operator = .ok s') :
    ∃ active delegators counted, Distributed s operator active delegators counted s' := by
  obtain ⟨-, h⟩ := ite_error_ok.1 h
  obtain ⟨active, hactive, h⟩ := bind_ok.1 h
  obtain ⟨-, h⟩ := ite_error_ok.1 h
  obtain ⟨-, h⟩ := ite_error_ok.1 h
  obtain ⟨_, hcommission, h⟩ := bind_ok.1 h
  obtain ⟨_, hproduct, hcommission⟩ := bind_ok.1 hcommission
  obtain ⟨_, hcredited, h⟩ := bind_ok.1 h
  obtain ⟨_, hrest, h⟩ := bind_ok.1 h
  -- the list does not depend on the ledger
  obtain ⟨⟨delegators, counted⟩, hlisted, h⟩ := bind_ok.1 h
  obtain ⟨_, htotal, h⟩ := bind_ok.1 h
  obtain ⟨hle, hrest⟩ := subChecked_ok.1 hrest
  rw [(addChecked_ok.1 hcredited).2, hrest, sumChecked_ok htotal, Nat.zero_add,
    ← Except.ok.inj hcommission, (mulChecked_ok.1 hproduct).2] at h
  rw [← Except.ok.inj hcommission, (mulChecked_ok.1 hproduct).2] at hle
  exact ⟨active, delegators, counted, hactive, hlisted, hle, h⟩

theorem distributeRewards_ok {sender operator : Address} {active delegators : List Address}
    {counted : List Nat} (h : s.distributeRewards sender operator = .ok s')
    (hactive : s.getActiveOperators = .ok active)
    (hlisted : s.combinedDelegators operator = .ok (delegators, counted)) :
    let share := s.weeklyDistributionAmount / active.length
    let claim := s.delegatorClaimAmount operator share
    s.commissionByOperator operator * share / 100 ≤ share ∧
      s'.ledgerTotal = s.ledgerTotal + s.commissionByOperator operator * share / 100 +
        ((delegators.map s.stakeOf).map fun amount => amount * claim / counted.sum).sum ∧
      (delegators ≠ [] → counted.sum ≠ 0) := by
  obtain ⟨_, _, _, hd⟩ := distributeRewards_distributed h
  cases hactive.symm.trans hd.found
  cases hlisted.symm.trans hd.listed
  intro share claim
  obtain ⟨hother, hdelegators, hne⟩ := creditDelegators_ok hd.credited
  have hoperators : s'.distributionByOperator = s.distributionByOperator.set operator
      (s.distributionByOperator.get operator + s.commissionByOperator operator * share / 100) := by
    rw [hother]
  have hset := s.distributionByOperator.total_set operator
    (s.distributionByOperator.get operator + s.commissionByOperator operator * share / 100)
  rw [← hoperators] at hset
  refine ⟨hd.commission, ?_, hne⟩
  unfold ledgerTotal
  rw [hdelegators]
  show s'.distributionByOperator.total + (s.distributionByDelegator.total +
    ((delegators.map s.stakeOf).map fun amount => amount * claim / counted.sum).sum) = _
  omega

/-- A distribution credits at most the operator's share if the amounts by which the listed
    delegators take part do not exceed the amounts that are counted for them; and only if they do
    not exceed them by more than one unit of reward for each delegator. -/
theorem distributeRewards_within_share (sender operator : Address)
    (active delegators : List Address) (counted : List Nat)
    (h : s.distributeRewards sender operator = .ok s') (hactive : s.getActiveOperators = .ok active)
    (hlisted : s.combinedDelegators operator = .ok (delegators, counted)) :
    let share := s.weeklyDistributionAmount / active.length
    let claim := s.delegatorClaimAmount operator share
    let stakes := (delegators.map s.stakeOf).sum
    (stakes ≤ counted.sum → s'.ledgerTotal ≤ s.ledgerTotal + share) ∧
      (s'.ledgerTotal ≤ s.ledgerTotal + share →
        stakes * claim ≤ (claim + delegators.length) * counted.sum) := by
  intro share claim stakes
  obtain ⟨hcommission, htotal, hne⟩ := distributeRewards_ok h hactive hlisted
  have hshare : s.commissionByOperator operator * share / 100 + claim = share :=
    Nat.add_sub_of_le hcommission
  by_cases hnil : delegators = []
  · -- nobody is listed, so only the commission is credited
    subst hnil
    refine ⟨fun _ => ?_, fun _ => ?_⟩
    · rw [htotal]
      exact Nat.add_le_add_left hcommission _
    · simp [stakes]
  · have hpos : 0 < counted.sum := Nat.pos_of_ne_zero (hne hnil)
    obtain ⟨hlow, hhigh⟩ := sum_mul_div_bounds (delegators.map s.stakeOf) claim hpos
    rw [List.length_map] at hhigh
    have hcredits : s'.ledgerTotal ≤ s.ledgerTotal + share ↔
        ((delegators.map s.stakeOf).map fun amount =>
          amount * claim / counted.sum).sum ≤ claim := by
      rw [htotal, Nat.add_assoc, Nat.add_le_add_iff_left, ← hshare, Nat.add_le_add_iff_left]
    rw [hcredits]
    constructor
    · intro hstakes
      apply Nat.le_of_mul_le_mul_right _ hpos
      calc _ ≤ stakes * claim := hlow
        _ ≤ counted.sum * claim := Nat.mul_le_mul_right _ hstakes
        _ = claim * counted.sum := Nat.mul_comm _ _
    · intro hbound
      exact hhigh.trans (Nat.mul_le_mul_right _ (Nat.add_le_add_right hbound _))

end Registry

/-! ## Two distributions -/

def beforeDistribution (balance quantity : Nat) : BaseRegistry :=
  let owner : Account := ⟨9, by decide⟩
  let operator : Account := ⟨5, by decide⟩
  let bridge : Account := ⟨1, Nat.one_ne_zero⟩
  let origin : CrossDomainSender := ⟨3, 4⟩
  baseRegistryMachine.exec (init 8 9 3 (.init 0 9 1))
    [.setProxyDelegation owner 4, .registerOperator operator 6,
      .setOperatorStatus owner 5 .approved,
      .riverToken (.mint bridge 7 balance), .setDelegation origin 7 5 quantity,
      .riverToken (.wait (8 * 24 * 60 * 60)), .setWeeklyDistributionAmount owner 100]

/-- Where the account has nothing on Base, the share is kept. -/
theorem distributeRewards_within_share_sample :
    ∃ s', (beforeDistribution 0 10).distributeRewards 9 5 = .ok s' ∧
      s'.ledgerTotal ≤ (beforeDistribution 0 10).ledgerTotal + 100 := by
  obtain ⟨s', h⟩ := exists_of_isOk (x := (beforeDistribution 0 10).distributeRewards 9 5)
    (by decide +kernel)
  refine ⟨s', h, ?_⟩
  have hwithin := distributeRewards_within_share 9 5 [5] [7] [10] h (by decide +kernel)
    (by decide +kernel)
  exact hwithin.1 (by decide +kernel)

/-- Where it has ten times as much on Base as it delegates on mainnet, ten times the share is
    credited. -/
theorem distributeRewards_beyond_share :
    (beforeDistribution 10 1).getActiveOperators = .ok [5] ∧
      (beforeDistribution 10 1).weeklyDistributionAmount = 100 ∧
      (beforeDistribution 10 1).ledgerTotal = 0 ∧
      ((beforeDistribution 10 1).distributeRewards 9 5).map ledgerTotal = .ok 1000 := by
  decide +kernel

end BaseRegistry

end River.Contracts
