/-
  The limit on the number of tokens, which nothing checks when a vote lets a join pass.
-/

import River.Contracts.Effects

namespace River.Contracts

namespace Space

variable {env : Env} {s s' : Space}

def WithinLimit (s : Space) : Prop :=
  s.membershipMaxSupply ≠ 0 → s.totalSupply ≤ s.membershipMaxSupply

def BelowLimit (s : Space) : Prop :=
  s.membershipMaxSupply ≠ 0 → s.totalSupply < s.membershipMaxSupply

theorem validateJoinSpace_below (h : s.validateJoinSpace receiver = .ok ()) : s.BelowLimit := by
  unfold validateJoinSpace at h
  split at h
  · cases h
  split at h
  · cases h
  rename_i hfull
  intro hlimit
  by_contra hge
  exact hfull ⟨hlimit, Nat.le_of_not_lt hge⟩

theorem WithinLimit.keep (h : s.WithinLimit) (hmax : s'.membershipMaxSupply = s.membershipMaxSupply)
    (hsupply : s'.totalSupply = s.totalSupply) : s'.WithinLimit := by
  unfold WithinLimit
  rw [hmax, hsupply]
  exact h

theorem BelowLimit.mint (h : s.BelowLimit) (hmax : s'.membershipMaxSupply = s.membershipMaxSupply)
    (hindex : s'.currentIndex = s.currentIndex + 1) (hburn : s'.burnCounter = s.burnCounter) :
    s'.WithinLimit := by
  intro hlimit
  rw [hmax] at hlimit ⊢
  have hroom : s.currentIndex - s.burnCounter < s.membershipMaxSupply := h hlimit
  show s'.currentIndex - s'.burnCounter ≤ s.membershipMaxSupply
  omega

theorem Checked.withinLimit (hwithin : s.WithinLimit) (hbelow : s.BelowLimit)
    (h : Checked env transactionId s pending entitlements progress s') :
    s'.WithinLimit := by
  cases h with
  | issued requests split unmet crosschain issue =>
    have hissues := issueToken_issues issue
    exact hbelow.mint hissues.membershipMaxSupply hissues.currentIndex hissues.burnCounter
  | checking => exact hwithin

theorem joinSpace_withinLimit (hwithin : s.WithinLimit)
    (h : s.joinSpace env receiver = .ok s') : s'.WithinLimit := by
  obtain ⟨hvalid, s1, _, s2, hcaptured, hchecked, hend⟩ := joinSpace_eq_ok h
  have hmax : s1.membershipMaxSupply = s.membershipMaxSupply := hcaptured.membershipMaxSupply
  have hsupply : s1.totalSupply = s.totalSupply := hcaptured.totalSupply
  have hbelow : s1.BelowLimit := by
    unfold BelowLimit
    rw [hmax, hsupply]
    exact validateJoinSpace_below hvalid
  have hwithin2 : s2.WithinLimit := hchecked.withinLimit (hwithin.keep hmax hsupply) hbelow
  rcases hend with ⟨-, hreject⟩ | ⟨-, rfl⟩
  · have hrejected := rejectJoin_pays hreject
    exact hwithin2.keep hrejected.membershipMaxSupply hrejected.totalSupply
  · exact hwithin2

/-- A vote lets a join pass only below the limit. -/
def PassesBelowLimit (s : Space) : Env × Call → Prop
  | (env, .postEntitlementCheckResult transactionId roleId result) =>
    s.voteDecides env transactionId roleId result = some .passed → s.BelowLimit
  | _ => True

instance (s : Space) : Decidable s.BelowLimit := inferInstanceAs (Decidable (_ → _))

instance (s : Space) : (a : Env × Call) → Decidable (s.PassesBelowLimit a)
  | (_, .postEntitlementCheckResult ..) => inferInstanceAs (Decidable (_ → _))
  | (_, .joinSpace _) | (_, .joinSpaceWithReferral ..) | (_, .renewMembership _)
  | (_, .withdraw _) | (_, .setMembershipLimit _) | (_, .setMembershipFreeAllocation _)
  | (_, .setMembershipPricingModule _) => .isTrue trivial

theorem postEntitlementCheckResult_withinLimit (hwithin : s.WithinLimit)
    (hbelow : s.voteDecides env transactionId roleId result = some .passed → s.BelowLimit)
    (h : s.postEntitlementCheckResult env transactionId roleId result = .ok s') :
    s'.WithinLimit := by
  obtain ⟨-, votes, passed, failed, -, hdecides, hvoted⟩ := postEntitlementCheckResult_eq_ok h
  generalize majority votes passed failed = decision at hdecides hvoted
  cases hvoted with
  | counted => exact hwithin
  | issued issues =>
    exact (hbelow hdecides).mint issues.membershipMaxSupply issues.currentIndex issues.burnCounter
  | rejected captured refund => exact hwithin.keep refund.membershipMaxSupply refund.totalSupply

theorem WithinLimit.step (h : s.WithinLimit) (ha : s.PassesBelowLimit a) :
    (spaceMachine.next s a).WithinLimit := by
  obtain ⟨env, call⟩ := a
  rcases s.next_cases env call with hok | ⟨-, hsame⟩
  · generalize spaceMachine.next s (env, call) = s' at hok
    cases call with
    | joinSpace receiver => exact joinSpace_withinLimit h hok
    | joinSpaceWithReferral receiver referrer referralCode =>
      obtain ⟨hvalid, price, -, hpays⟩ := joinSpaceWithReferral_eq_ok hok
      exact (validateJoinSpace_below hvalid).mint hpays.membershipMaxSupply hpays.currentIndex
        hpays.burnCounter
    | renewMembership tokenId =>
      obtain ⟨price, -, hpays⟩ := renewMembership_eq_ok hok
      exact h.keep hpays.membershipMaxSupply hpays.totalSupply
    | postEntitlementCheckResult transactionId roleId result =>
      exact postEntitlementCheckResult_withinLimit h ha hok
    | withdraw account =>
      have hpays := withdraw_pays hok
      exact h.keep hpays.membershipMaxSupply hpays.totalSupply
    | setMembershipLimit newLimit =>
      obtain ⟨hle, rfl⟩ := setMembershipLimit_eq_ok hok
      exact fun _ => hle
    | setMembershipFreeAllocation newAllocation =>
      rw [setMembershipFreeAllocation_eq_ok hok]
      exact h.keep rfl rfl
    | setMembershipPricingModule pricingModule =>
      rw [setMembershipPricingModule_eq_ok hok]
      exact h.keep rfl rfl
  · rw [hsame]
    exact h

theorem WithinLimit.create (settings : Settings) (balance : Nat) :
    (Space.create settings balance).WithinLimit :=
  fun hlimit => Nat.pos_of_ne_zero hlimit

end Space

/-- **Supply limit.** In every run in which no vote lets a join pass into a full space, the
    supply stays within the limit. -/
theorem membershipSupply_withinLimit (settings : Settings) (balance : Nat)
    (calls : List (Env × Call))
    (hbelow : spaceMachine.Along Space.PassesBelowLimit (Space.create settings balance) calls) :
    let s := spaceMachine.exec (Space.create settings balance) calls
    s.membershipMaxSupply ≠ 0 → s.totalSupply ≤ s.membershipMaxSupply :=
  Lib.Machine.exec_invariant_along (fun _ _ h ha => h.step ha)
    (Space.WithinLimit.create settings balance) hbelow

def limitedSpace : Space := Space.create { Settings.sample with membershipMaxSupply := 2 } 0

def passedJoin (account : Address) : (Env × Call) × List (Env × Call) :=
  ((Env.call account 100, .joinSpace account),
    votesOf [11, 12, 13] (limitedSpace.nextTransactionId (Env.call account 100)) 1 .passed)

theorem membershipSupply_withinLimit_one_join :
    let calls := (passedJoin 21).1 :: (passedJoin 21).2
    let s := spaceMachine.exec limitedSpace calls
    s.totalSupply = 2 ∧ s.totalSupply ≤ s.membershipMaxSupply :=
  ⟨by decide +kernel,
    membershipSupply_withinLimit _ 0 ((passedJoin 21).1 :: (passedJoin 21).2)
      (by decide +kernel) (by decide +kernel)⟩

/-- Two joins are requested while there is room for one, and the nodes let both pass. -/
theorem membershipSupply_over_limit :
    let calls := (passedJoin 21).1 :: (passedJoin 22).1 :: ((passedJoin 21).2 ++ (passedJoin 22).2)
    let s := spaceMachine.exec limitedSpace calls
    s.membershipMaxSupply = 2 ∧ s.totalSupply = 3 := by
  decide +kernel

end River.Contracts
