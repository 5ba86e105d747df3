/-
  The ether of a space covers what the space owes.
-/

import River.Contracts.Effects

namespace River.Contracts

open List Space

namespace Space

variable {env : Env} {s s' : Space}

/-! ## What the calls cost -/

structure Changes (s s' : Space) (cost : Int) : Prop where
  deficit : s'.deficit ≤ s.deficit + cost
  tokenBalance : s.tokenBalance ≤ s'.tokenBalance

theorem Pays.changes {minted : Nat} (h : Pays s s' cost minted) : Changes s s' cost :=
  ⟨h.deficit, h.tokenBalance⟩

theorem Checked.changes
    (h : Checked env transactionId s pending entitlements progress s') : Changes s s' 0 := by
  cases h with
  | @issued t _ _ s' _ _ _ _ issue =>
    have hissue := issueToken_issues issue
    have hdeficit : s'.deficit ≤ s.deficit := hissue.deficit
    exact ⟨by omega, hissue.tokenBalance⟩
  | @checking t p r =>
    have hdeficit : (s.setTransaction transactionId t).deficit = s.deficit := rfl
    exact ⟨by omega, Nat.le_refl _⟩

theorem joinSpace_changes (h : s.joinSpace env receiver = .ok s') : Changes s s' 0 := by
  obtain ⟨-, _, _, s2, hcaptured, hchecked, hend⟩ := joinSpace_eq_ok h
  have hregister : (s.register env receiver).deficit = s.deficit - env.value := by
    simp only [deficit, register, receive, useDispatchNonce, captureData]
    omega
  have hdeficit1 := hcaptured.deficit
  have hdeficit2 := hchecked.changes.deficit
  have htoken : s.tokenBalance ≤ s2.tokenBalance :=
    Nat.le_trans hcaptured.tokenBalance hchecked.changes.tokenBalance
  rcases hend with ⟨-, hreject⟩ | ⟨-, rfl⟩
  · have hrejected := rejectJoin_pays hreject
    have hdeficit3 : s'.deficit ≤ s2.deficit + 0 := hrejected.deficit
    exact ⟨by omega, Nat.le_trans htoken hrejected.tokenBalance⟩
  · exact ⟨by omega, htoken⟩

theorem postEntitlementCheckResult_changes
    (h : s.postEntitlementCheckResult env transactionId roleId result = .ok s') :
    Changes s s' 0 := by
  obtain ⟨-, votes, passed, failed, -, -, hvoted⟩ := postEntitlementCheckResult_eq_ok h
  generalize majority votes passed failed = decision at hvoted
  cases hvoted with
  | counted =>
    have hdeficit : ∀ t, (s.setTransaction transactionId t).deficit = s.deficit := fun _ => rfl
    exact ⟨by rw [hdeficit]; omega, Nat.le_refl _⟩
  | @issued s1 issues =>
    have hdeficit : s1.deficit ≤ s.deficit := issues.deficit
    exact ⟨show s1.deficit ≤ _ by omega, issues.tokenBalance⟩
  | @rejected s1 captured refund =>
    have hdeficit : s1.deficit ≤ s.deficit + 0 := refund.deficit
    exact ⟨show s1.deficit ≤ _ by omega, refund.tokenBalance⟩

/-! ## Runs -/

/-- A call that joins or renews is sent the price. -/
def PaysPrice (s : Space) : Env × Call → Prop
  | (env, .joinSpaceWithReferral ..) =>
    ∀ price, s.getMembershipPrice env s.totalSupply = .ok price → price ≤ env.value
  | (env, .renewMembership tokenId) =>
    ∀ price, s.getMembershipRenewalPrice env tokenId s.totalSupply = .ok price → price ≤ env.value
  | _ => True

theorem run_changes {call : Call} (hpays : s.PaysPrice (env, call))
    (hwithdraw : ∀ account, call ≠ .withdraw account) (h : call.run env s = .ok s') :
    Changes s s' 0 := by
  have hstored : ∀ s1 : Space, s1.deficit = s.deficit → s1.tokenBalance = s.tokenBalance →
      Changes s s1 0 := fun s1 hd ht => ⟨by omega, Nat.le_of_eq ht.symm⟩
  cases call with
  | joinSpace receiver => exact joinSpace_changes h
  | joinSpaceWithReferral receiver referrer referralCode =>
    obtain ⟨-, price, hprice, hpaid⟩ := joinSpaceWithReferral_eq_ok h
    have hle : price ≤ env.value := hpays price hprice
    exact (hpaid.mono (by omega)).changes
  | renewMembership tokenId =>
    obtain ⟨price, hprice, hpaid⟩ := renewMembership_eq_ok h
    have hle : price ≤ env.value := hpays price hprice
    exact (hpaid.mono (by omega)).changes
  | postEntitlementCheckResult transactionId roleId result =>
    exact postEntitlementCheckResult_changes h
  | withdraw account => exact absurd rfl (hwithdraw account)
  | setMembershipLimit newLimit =>
    obtain ⟨-, rfl⟩ := setMembershipLimit_eq_ok h
    exact hstored _ rfl rfl
  | setMembershipFreeAllocation newAllocation =>
    rw [setMembershipFreeAllocation_eq_ok h]
    exact hstored _ rfl rfl
  | setMembershipPricingModule pricingModule =>
    rw [setMembershipPricingModule_eq_ok h]
    exact hstored _ rfl rfl

structure Solvent (withdrawals : List Nat) (s : Space) : Prop where
  deficit : s.deficit ≤ withdrawals.sum
  revenue : withdrawals.length ≤ 1 → withdrawals.sum ≤ s.tokenBalance

theorem Solvent.unchanged (h : Solvent l s) (hc : Changes s s' cost)
    (hcost : cost ≤ 0) : Solvent l s' := by
  have hd := h.deficit
  have hd' := hc.deficit
  exact ⟨by omega, fun hl => Nat.le_trans (h.revenue hl) hc.tokenBalance⟩

theorem Solvent.withdraw (h : Solvent l s) (hc : Changes s s' s.tokenBalance) :
    Solvent (l ++ [s.tokenBalance]) s' := by
  have hd := h.deficit
  have hd' := hc.deficit
  constructor
  · rw [sum_append, sum_singleton]
    omega
  intro hl
  rw [length_append, length_singleton] at hl
  have hnil : l = [] := eq_nil_of_length_eq_zero (by omega)
  rw [hnil]
  exact hc.tokenBalance

theorem Solvent.step (h : Solvent l s) (hpays : s.PaysPrice a) :
    Solvent (l ++ s.withdrawn a) (spaceMachine.next s a) := by
  obtain ⟨env, call⟩ := a
  by_cases hwithdraw : ∃ account, call = .withdraw account
  · obtain ⟨account, rfl⟩ := hwithdraw
    rcases s.next_cases env (.withdraw account) with hok | ⟨⟨r, herror⟩, hsame⟩
    · have hrun : s.withdraw env account = .ok (spaceMachine.next s (env, .withdraw account)) := hok
      have hw : s.withdrawn (env, .withdraw account) = [s.tokenBalance] := by
        simp only [withdrawn, hrun]
      rw [hw]
      exact h.withdraw (withdraw_pays hrun).changes
    · have hrun : s.withdraw env account = .error r := herror
      have hw : s.withdrawn (env, .withdraw account) = [] := by
        simp only [withdrawn, hrun]
      rw [hw, hsame, append_nil]
      exact h
  · have hw : s.withdrawn (env, call) = [] := by
      cases call with
      | withdraw account => exact absurd ⟨account, rfl⟩ hwithdraw
      | _ => rfl
    rw [hw, append_nil]
    rcases s.next_cases env call with hok | ⟨-, hsame⟩
    · exact h.unchanged (run_changes hpays (fun account heq => hwithdraw ⟨account, heq⟩) hok)
        (Int.le_refl 0)
    · rw [hsame]
      exact h

end Space

variable (settings : Settings) (balance : Nat)

/-- **Solvency.** If every call that takes a price from its message carries it, then the
    balance covers the revenue that was not withdrawn and the captured values, at the end of
    every run. The withdrawals stay within the revenue as long as there is only one. -/
theorem membershipSolvency (calls : List (Env × Call))
    (hpays : spaceMachine.Along PaysPrice (create settings balance) calls) :
    let s := spaceMachine.exec (create settings balance) calls
    let withdrawals := spaceMachine.collect withdrawn (create settings balance) calls
    (s.tokenBalance : Int) - withdrawals.sum + s.transactionBalance.total ≤ s.balance ∧
      (withdrawals.length ≤ 1 → withdrawals.sum ≤ s.tokenBalance) := by
  have hcreated : Solvent [] (create settings balance) := by
    refine ⟨?_, fun _ => Nat.zero_le _⟩
    simp only [deficit, create, Lib.Mapping.total_empty]
    omega
  have hsolvent := Lib.Machine.collect_invariant (f := withdrawn)
    (fun _ _ _ => trivial) (fun l s a h hpays _ => h.step hpays) hcreated hpays trivial
  rw [nil_append] at hsolvent
  have hdeficit := hsolvent.deficit
  unfold deficit at hdeficit
  exact ⟨by omega, hsolvent.revenue⟩

def payingRun : List (Env × Call) :=
  [(Env.call 21 100, .joinSpaceWithReferral 21 0 0), (Env.call 22 100, .joinSpace 22),
    (Env.call 2 0, .withdraw 2)]

theorem payingRun_pays : spaceMachine.Along PaysPrice (create Settings.sample 0) payingRun := by
  refine ⟨?_, trivial, trivial, trivial⟩
  intro price hprice
  cases hprice
  decide

theorem membershipSolvency_paying :
    let s := spaceMachine.exec (create Settings.sample 0) payingRun
    (s.tokenBalance, s.transactionBalance.total, s.balance) = (90, 100, 100) ∧
      (s.tokenBalance : Int) - (spaceMachine.collect withdrawn
        (create Settings.sample 0) payingRun).sum + s.transactionBalance.total ≤ s.balance :=
  ⟨by decide +kernel, (membershipSolvency .sample 0 payingRun payingRun_pays).1⟩

/-- Two runs that spend the ether of a waiting join: a membership that is bought with a referral and
    without value, whose fee is paid from the captured value; and an owner who withdraws the same
    revenue twice. -/
theorem membership_insolvent :
    (let run : List (Env × Call) :=
        [(.call 22 100, .joinSpace 22), (.call 21 0, .joinSpaceWithReferral 21 0 0)]
      let s := spaceMachine.exec (create .sample 0) run
      spaceMachine.collect withdrawn (create .sample 0) run = [] ∧
        s.balance < s.tokenBalance + s.transactionBalance.total) ∧
    (let run := payingRun ++ [(.call 2 0, .withdraw 2)]
      let s := spaceMachine.exec (create .sample 0) run
      spaceMachine.collect withdrawn (create .sample 0) run = [90, 90] ∧
        s.balance < s.transactionBalance.total) := by
  decide +kernel

end River.Contracts
