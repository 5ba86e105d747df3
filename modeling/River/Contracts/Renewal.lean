/-
  When a membership can be renewed (`renewMembership` of
  contracts/src/spaces/facets/membership/MembershipFacet.sol).
-/

import River.Contracts.Joins

namespace River.Contracts

open Space

open River.Lib (bind_ok)

/-! ## Fees -/

theorem checkedAdd_eq_ok_iff : checkedAdd a b width = .ok c ↔ a + b < 2 ^ width ∧ c = a + b := by
  unfold checkedAdd
  split
  · rename_i hfits
    rw [Except.ok.injEq, eq_comm]
    exact (and_iff_right hfits).symm
  · rename_i hfits
    exact iff_of_false nofun (fun h => hfits h.1)

theorem basisPointsCalculate_eq_ok_iff :
    basisPointsCalculate amount basisPoints = .ok fee ↔
      basisPoints ≤ 10000 ∧ amount * basisPoints < 2 ^ 256 ∧
        fee = amount * basisPoints / 10000 := by
  unfold basisPointsCalculate
  split
  · rename_i hbps
    exact iff_of_false nofun (fun h => Nat.not_le.2 hbps h.1)
  rename_i hbps
  rw [and_iff_right (Nat.not_lt.1 hbps)]
  split
  · rename_i hfits
    rw [Except.ok.injEq, eq_comm]
    exact (and_iff_right hfits).symm
  · rename_i hfits
    exact iff_of_false nofun (fun h => hfits h.1)

namespace Space

variable {env : Env} {s s' : Space}

/-- The price can be collected. -/
def Collects (env : Env) (price : Nat) (s : Space) : Prop :=
  let fee := price * env.membershipBps / 10000
  price = 0 ∨
    (env.membershipBps ≤ 10000 ∧ price * env.membershipBps < 2 ^ 256 ∧
      (fee = 0 ∨ env.accepts env.feeRecipient = true) ∧
      (price - fee = 0 ∨ s.tokenBalance + (price - fee) < 2 ^ 256))

/-! ## What the parts of a call write -/

theorem transferCurrency_eq_ok (h : s.transferCurrency env recipient amount = .ok s') :
    ∃ balance, s' = { s with
      balance := balance
      received := Function.update s.received recipient (s.received recipient + amount) } := by
  unfold transferCurrency at h
  split at h
  · rename_i hzero
    cases h
    rw [hzero, Nat.add_zero, Function.update_eq_self]
    exact ⟨s.balance, rfl⟩
  split at h
  · cases h
    exact ⟨_, rfl⟩
  · cases h

theorem transferIn_eq_ok (h : s.ifPositive amount (transferIn amount) = .ok s') :
    s' = { s with tokenBalance := s.tokenBalance + amount } := by
  unfold ifPositive at h
  split at h
  · obtain ⟨tokenBalance, hadd, h⟩ := bind_ok.1 h
    cases h
    rw [checkedAdd_eq_ok hadd]
  · cases h
    rw [show amount = 0 by omega, Nat.add_zero]

theorem collectProtocolFee_eq_ok {fee : Nat} (h : s.collectProtocolFee env price = .ok (fee, s')) :
    ∃ balance, s' = { s with
      balance := balance
      received := Function.update s.received env.feeRecipient
        (s.received env.feeRecipient + fee) } := by
  obtain ⟨_, -, h⟩ := bind_ok.1 h
  obtain ⟨_, htransfer, h⟩ := bind_ok.1 h
  cases h
  exact transferCurrency_eq_ok htransfer

theorem payRenewal_eq_ok (h : s.ifPositive price (payRenewal env price) = .ok s') :
    ∃ balance received tokenBalance, s' = { s with
      balance := balance, received := received, tokenBalance := tokenBalance } := by
  unfold ifPositive at h
  split at h
  · obtain ⟨⟨_, _⟩, hcollect, h⟩ := bind_ok.1 h
    obtain ⟨_, -, h⟩ := bind_ok.1 h
    obtain ⟨balance, rfl⟩ := collectProtocolFee_eq_ok hcollect
    exact ⟨balance, _, _, transferIn_eq_ok h⟩
  · cases h
    exact ⟨s.balance, s.received, s.tokenBalance, rfl⟩

theorem safeMint_eq_ok (h : s.safeMint env recipient = .ok s') :
    ∃ ownerOf, s' = { s with currentIndex := s.currentIndex + 1, ownerOf := ownerOf } := by
  unfold safeMint at h
  split at h
  · cases h
    exact ⟨_, rfl⟩
  · cases h

theorem renewSubscription_eq_ok (h : s.renewSubscription env tokenId duration = .ok s') :
    ∃ expiration, s' = { s with expiration := expiration } := by
  unfold renewSubscription at h
  split at h
  all_goals
    obtain ⟨_, -, h⟩ := bind_ok.1 h
    cases h
    exact ⟨_, rfl⟩

/-! ## When the parts of a call succeed -/

theorem transferCurrency_succeeds (hcovered : amount ≤ s.balance) :
    (∃ s', s.transferCurrency env recipient amount = .ok s') ↔
      amount = 0 ∨ env.accepts recipient = true := by
  unfold transferCurrency
  split
  · rename_i hzero
    exact iff_of_true ⟨s, rfl⟩ (.inl hzero)
  rename_i hpositive
  rw [or_iff_right hpositive]
  split
  · rename_i hsend
    exact iff_of_true ⟨_, rfl⟩ hsend.2
  rename_i hsend
  refine iff_of_false ?_ (fun haccepts => hsend ⟨hcovered, haccepts⟩)
  rintro ⟨s', h⟩
  cases h

theorem transferIn_succeeds :
    (∃ s', s.ifPositive amount (transferIn amount) = .ok s') ↔
      amount = 0 ∨ s.tokenBalance + amount < 2 ^ 256 := by
  unfold ifPositive
  split
  · rw [or_iff_right (by omega)]
    constructor
    · rintro ⟨s', h⟩
      obtain ⟨_, hadd, -⟩ := bind_ok.1 h
      exact (checkedAdd_eq_ok_iff.1 hadd).1
    · intro hfits
      exact ⟨_, bind_ok.2 ⟨_, checkedAdd_eq_ok_iff.2 ⟨hfits, rfl⟩, rfl⟩⟩
  · exact iff_of_true ⟨s, rfl⟩ (.inl (by omega))

theorem payRenewal_succeeds (hcovered : price ≤ s.balance) :
    (∃ s', s.ifPositive price (payRenewal env price) = .ok s') ↔ s.Collects env price := by
  unfold ifPositive Collects
  split
  swap
  · exact iff_of_true ⟨s, rfl⟩ (.inl (by omega))
  have hfee : env.membershipBps ≤ 10000 → price * env.membershipBps / 10000 ≤ price := by
    intro hbps
    have hmul := Nat.mul_le_mul_left price hbps
    omega
  rw [or_iff_right (by omega)]
  constructor
  · rintro ⟨s', h⟩
    obtain ⟨⟨_, s1⟩, hcollect, h⟩ := bind_ok.1 h
    obtain ⟨_, hsurplus, h⟩ := bind_ok.1 h
    obtain ⟨_, hcalculate, hcollect⟩ := bind_ok.1 hcollect
    obtain ⟨_, htransfer, hcollect⟩ := bind_ok.1 hcollect
    cases hcollect
    obtain ⟨hbps, hfits, rfl⟩ := basisPointsCalculate_eq_ok_iff.1 hcalculate
    obtain ⟨-, rfl⟩ := checkedSub_eq_ok hsurplus
    have hsend := (transferCurrency_succeeds ((hfee hbps).trans hcovered)).1 ⟨_, htransfer⟩
    obtain ⟨balance, rfl⟩ := transferCurrency_eq_ok htransfer
    have hin := transferIn_succeeds.1 ⟨_, h⟩
    exact ⟨hbps, hfits, hsend, hin⟩
  · rintro ⟨hbps, hfits, hsend, hin⟩
    obtain ⟨s1, htransfer⟩ := (transferCurrency_succeeds ((hfee hbps).trans hcovered)).2 hsend
    have hrevenue : s1.tokenBalance = s.tokenBalance := by
      obtain ⟨balance, rfl⟩ := transferCurrency_eq_ok htransfer
      rfl
    rw [← hrevenue] at hin
    obtain ⟨s', hs'⟩ := transferIn_succeeds.2 hin
    have hcollect : s.collectProtocolFee env price = .ok (price * env.membershipBps / 10000, s1) :=
      bind_ok.2 ⟨_, basisPointsCalculate_eq_ok_iff.2 ⟨hbps, hfits, rfl⟩,
        bind_ok.2 ⟨s1, htransfer, rfl⟩⟩
    exact ⟨s', bind_ok.2 ⟨_, hcollect, bind_ok.2 ⟨_, if_pos (hfee hbps), hs'⟩⟩⟩

theorem renewSubscription_succeeds (htime : env.timestamp ≤ s.expiration tokenId) :
    (∃ s', s.renewSubscription env tokenId duration = .ok s' ∧
      s'.expiration tokenId = s.expiration tokenId + duration) ↔
      s.expiration tokenId + duration < 2 ^ 64 := by
  have hsum : s.renewSubscription env tokenId duration = (do
      let newExpiration ← checkedAdd (s.expiration tokenId) duration 64
      .ok { s with expiration := Function.update s.expiration tokenId newExpiration }) := by
    unfold renewSubscription
    split
    · rename_i hzero
      have hnow : env.timestamp = 0 := by omega
      rw [hzero, hnow, Nat.zero_mod]
    · rfl
  rw [hsum]
  constructor
  · rintro ⟨s', h, -⟩
    obtain ⟨newExpiration, hadd, -⟩ := bind_ok.1 h
    exact (checkedAdd_eq_ok_iff.1 hadd).1
  · intro hfits
    exact ⟨_, bind_ok.2 ⟨_, checkedAdd_eq_ok_iff.2 ⟨hfits, rfl⟩, rfl⟩, Function.update_self ..⟩

end Space

/-! ## Renewal -/

/-- **Renewal.** A minted token with less than a duration left, whose price the message
    carries, is renewed by the duration exactly if it has not expired yet (and the price is
    taken, and the new expiration has 64 bits). -/
theorem renewMembership_extends_iff (env : Env) (s : Space) (tokenId price : Nat)
    (hminted : tokenId < s.currentIndex) (howner : s.ownerOf tokenId ≠ 0)
    (hremaining : s.expiration tokenId < env.timestamp + env.membershipDuration)
    (hprice : s.getMembershipRenewalPrice env tokenId s.totalSupply = .ok price)
    (hvalue : price ≤ env.value) :
    (∃ s', s.renewMembership env tokenId = .ok s' ∧
      s'.expiration tokenId = s.expiration tokenId + env.membershipDuration) ↔
    env.timestamp ≤ s.expiration tokenId ∧
      s.expiration tokenId + env.membershipDuration < 2 ^ 64 ∧ s.Collects env price := by
  have hcovered : price ≤ (s.receive env).balance := by
    show price ≤ s.balance + env.value
    omega
  have hpays : (∃ s1, (s.receive env).ifPositive price (payRenewal env price) = .ok s1) ↔
      s.Collects env price := payRenewal_succeeds hcovered
  constructor
  · rintro ⟨s', h, hexpiration⟩
    obtain ⟨_, -, h⟩ := bind_ok.1 h
    split at h
    · cases h
    obtain ⟨_, hsub, h⟩ := bind_ok.1 h
    have htime : env.timestamp ≤ s.expiration tokenId := (checkedSub_eq_ok hsub).1
    split at h
    · cases h
    obtain ⟨price', hprice', h⟩ := bind_ok.1 h
    have hsame : price' = price := Except.ok.inj (hprice'.symm.trans hprice)
    subst hsame
    obtain ⟨s1, hpay, h⟩ := bind_ok.1 h
    have hexpiration1 : s1.expiration = s.expiration := by
      obtain ⟨balance, received, tokenBalance, rfl⟩ := payRenewal_eq_ok hpay
      rfl
    rw [← hexpiration1] at hexpiration htime ⊢
    exact ⟨htime, (renewSubscription_succeeds htime).1 ⟨s', h, hexpiration⟩, hpays.1 ⟨s1, hpay⟩⟩
  · rintro ⟨htime, hfits, hcollects⟩
    obtain ⟨s1, hpay⟩ := hpays.2 hcollects
    have hexpiration1 : s1.expiration = s.expiration := by
      obtain ⟨balance, received, tokenBalance, rfl⟩ := payRenewal_eq_ok hpay
      rfl
    rw [← hexpiration1] at htime hfits hremaining ⊢
    obtain ⟨s', hrenew, hexpiration⟩ := (renewSubscription_succeeds htime).2 hfits
    refine ⟨s', bind_ok.2 ⟨s.ownerOf tokenId, if_pos hminted, ?_⟩, hexpiration⟩
    rw [if_neg howner]
    refine bind_ok.2 ⟨s.expiration tokenId - env.timestamp, if_pos (hexpiration1 ▸ htime), ?_⟩
    rw [if_neg (by rw [← hexpiration1]; omega)]
    exact bind_ok.2 ⟨price, hprice, bind_ok.2 ⟨s1, hpay, hrenew⟩⟩

def renewalSpace : Space :=
  let env := { Env.call 21 100 with rolesWithJoinSpace := [⟨1, false, [.localCheck true]⟩] }
  spaceMachine.next (create Settings.sample 0) (env, .joinSpace 21)

def renewalEnv (timestamp : Nat) : Env := { Env.call 21 100 with timestamp := timestamp }

theorem renewMembership_extends_at_expiration :
    renewalSpace.expiration 1 = 1500 ∧
    ∃ s', renewalSpace.renewMembership (renewalEnv 1500) 1 = .ok s' ∧ s'.expiration 1 = 2000 := by
  refine ⟨by decide +kernel, ?_⟩
  refine (renewMembership_extends_iff (renewalEnv 1500) renewalSpace 1 100 (by decide +kernel)
    (by decide +kernel) (by decide +kernel) (by decide +kernel) (by decide)).2 ⟨?_, ?_, ?_⟩
  · decide +kernel
  · decide +kernel
  · unfold Space.Collects
    decide +kernel

/-- One second after the expiration the renewal reverts, with the price in the message. -/
theorem renewMembership_expired_reverts :
    renewalSpace.ownerOf 1 = 21 ∧ renewalSpace.expiration 1 = 1500 ∧
    renewalSpace.getMembershipRenewalPrice (renewalEnv 1501) 1 renewalSpace.totalSupply = .ok 100 ∧
    (spaceMachine.step renewalSpace (renewalEnv 1501, .renewMembership 1)).2
      = some .panicArithmetic := by
  decide +kernel

end River.Contracts
