/-
  Prepaid memberships (contracts/src/factory/facets/prepay/PrepayFacet.sol and PrepayBase.sol,
  with `_getMembershipPrice` of the spaces).
-/

import Mathlib.Order.Interval.Finset.Nat
import River.Contracts.Joins

namespace River.Contracts

open Function Lib.Machine Prod

/-! ## The factory -/

structure SpaceFactory where
  membershipFee : Nat
  membershipMintLimit : Nat
  feeRecipient : Address
  supplyByAddress : Address → Nat
  memberships : Address → Option Space

inductive PrepayRevert where
  | invalidAmount | invalidAddress | invalidMembership | panicArithmetic
  | nativeTokenTransferFailed

namespace SpaceFactory

def prepayMembership (env : Env) (membership : Address) (supply : Nat) (f : SpaceFactory) :
    Except PrepayRevert SpaceFactory :=
  if supply = 0 then .error .invalidAmount
  else if membership = 0 then .error .invalidAddress
  else
    match f.memberships membership with
    | none => .error .invalidMembership
    | some space =>
      let cost := supply * f.membershipFee
      let newSupply := space.totalSupply + supply
      if env.owner ≠ env.sender then .error .invalidAddress
      else if cost ≥ 2 ^ 256 then .error .panicArithmetic
      else if env.value < cost then .error .invalidAmount
      else if newSupply ≥ 2 ^ 256 then .error .panicArithmetic
      else if env.accepts f.feeRecipient = false then .error .nativeTokenTransferFailed
      else .ok { f with supplyByAddress := update f.supplyByAddress membership newSupply }

def envOf (env : Env) (membership : Address) (f : SpaceFactory) : Env :=
  { env with
    self := membership, feeRecipient := f.feeRecipient, membershipFee := f.membershipFee
    membershipMintLimit := f.membershipMintLimit
    prepaidMembershipSupply := f.supplyByAddress membership }

inductive Action where
  | prepayMembership (membership : Address) (supply : Nat)
  | call (membership : Address) (call : Call)

def step (f : SpaceFactory) : Env × Action → SpaceFactory × Bool
  | (env, .prepayMembership membership supply) =>
    match f.prepayMembership env membership supply with
    | .ok f' => (f', true)
    | .error _ => (f, false)
  | (env, .call membership call) =>
    match f.memberships membership with
    | none => (f, false)
    | some s =>
      match call.run (f.envOf env membership) s with
      | .ok s' => ({ f with memberships := update f.memberships membership (some s') }, true)
      | .error _ => (f, false)

end SpaceFactory

open SpaceFactory

/-- The factory, and the memberships it made. -/
def factoryMachine : Lib.Machine SpaceFactory (Env × Action) Bool :=
  ⟨step⟩

namespace SpaceFactory

variable {f : SpaceFactory} {m : Address}

/-! ## What remains -/

def allocation (f : SpaceFactory) (s : Space) : Nat :=
  if s.freeAllocation > 0 then s.freeAllocation else f.membershipMintLimit

/-- The price of a join at the supply `n`, with what the pricing module (in `env`) and the platform
    ask. -/
def priceAt (f : SpaceFactory) (m : Address) (s : Space) (prepaidSupply n : Nat) (env : Env)
    (fee : Nat) : Result Nat :=
  s.getMembershipPrice
    { f.envOf env m with prepaidMembershipSupply := prepaidSupply, membershipFee := fee } n

/-- A further join at the supply `n` is free whatever is asked, and only because of prepayment. -/
def FreeByPrepayment (f : SpaceFactory) (m : Address) (n : Nat) : Prop :=
  ∃ s, f.memberships m = some s ∧ s.totalSupply ≤ n ∧
    (∀ env fee, f.priceAt m s (f.supplyByAddress m) n env fee = .ok 0) ∧
    ¬ ∀ env fee, f.priceAt m s 0 n env fee = .ok 0

/-- The supplies at which a further join is free because of prepayment. -/
def prepaid (f : SpaceFactory) (m : Address) : Finset Nat :=
  match f.memberships m with
  | none => ∅
  | some s => Finset.Ico (max s.totalSupply (f.allocation s)) (f.supplyByAddress m)

def paidFor (m : Address) (f : SpaceFactory) (a : Env × Action) : Nat :=
  match a.2 with
  | .prepayMembership membership supply =>
    if membership = m ∧ factoryMachine.out f a = true then supply else 0
  | .call .. => 0

def supplyOf (f : SpaceFactory) (m : Address) : Nat :=
  ((f.memberships m).map (·.totalSupply)).getD 0

def mintedPrepaid (m : Address) (f : SpaceFactory) (a : Env × Action) : Nat :=
  if f.supplyOf m ∈ f.prepaid m then (factoryMachine.next f a).supplyOf m - f.supplyOf m else 0

def account (m : Address) (f : SpaceFactory) (a : Env × Action) : List (Nat × Nat) :=
  [(f.paidFor m a, f.mintedPrepaid m a)]

/-- Prepays come when the free and prepaid seats are used up. -/
def PrepaysUsedUp (f : SpaceFactory) : Env × Action → Prop
  | (_, .prepayMembership membership _) => ∀ s, f.memberships membership = some s →
    f.allocation s ≤ s.totalSupply ∧ f.supplyByAddress membership ≤ s.totalSupply
  | _ => True

/-- The free allocation is not changed. -/
def KeepsAllocation : Env × Action → Prop
  | (_, .call _ (.setMembershipFreeAllocation _)) => False
  | _ => True

end SpaceFactory

/-! ## The supply of a space -/

namespace Space

variable {env : Env} {s s' : Space}

structure Grows (s s' : Space) : Prop where
  freeAllocation : s'.freeAllocation = s.freeAllocation
  totalSupply : s'.totalSupply = s.totalSupply ∨ s'.totalSupply = s.totalSupply + 1

theorem Pays.grows (h : Pays s s' cost 0) : Grows s s' :=
  ⟨h.freeAllocation, .inl h.totalSupply⟩

theorem grows_of_mint (hallocation : s'.freeAllocation = s.freeAllocation)
    (hindex : s'.currentIndex = s.currentIndex + 1) (hburn : s'.burnCounter = s.burnCounter) :
    Grows s s' := by
  refine ⟨hallocation, ?_⟩
  unfold Space.totalSupply
  omega

theorem Issues.grows (h : Issues env transactionId s s') : Grows s s' :=
  grows_of_mint h.freeAllocation h.currentIndex h.burnCounter

theorem run_grows {call : Call} (h : call.run env s = .ok s')
    (hcall : ∀ newAllocation, call ≠ .setMembershipFreeAllocation newAllocation) : Grows s s' := by
  cases call with
  | joinSpace receiver =>
    obtain ⟨-, s1, _, s2, hcaptured, hchecked, hend⟩ := joinSpace_eq_ok h
    have hallocation : s1.freeAllocation = s.freeAllocation := hcaptured.freeAllocation
    have hsupply : s1.totalSupply = s.totalSupply := hcaptured.totalSupply
    have hgrows : Grows s s2 := by
      cases hchecked with
      | issued requests split unmet crosschain issue =>
        have hissued := (issueToken_issues issue).grows
        exact ⟨hissued.freeAllocation.trans hallocation, hsupply ▸ hissued.totalSupply⟩
      | checking => exact ⟨hallocation, .inl hsupply⟩
    rcases hend with ⟨-, hreject⟩ | ⟨-, rfl⟩
    · have hrejected := rejectJoin_pays hreject
      refine ⟨hrejected.freeAllocation.trans hgrows.freeAllocation, ?_⟩
      rw [hrejected.totalSupply]
      exact hgrows.totalSupply
    · exact hgrows
  | joinSpaceWithReferral receiver referrer referralCode =>
    obtain ⟨-, price, -, hpays⟩ := joinSpaceWithReferral_eq_ok h
    exact grows_of_mint hpays.freeAllocation hpays.currentIndex hpays.burnCounter
  | renewMembership tokenId =>
    obtain ⟨price, -, hpays⟩ := renewMembership_eq_ok h
    exact hpays.grows
  | postEntitlementCheckResult transactionId roleId result =>
    obtain ⟨-, votes, passed, failed, -, -, hvoted⟩ := postEntitlementCheckResult_eq_ok h
    generalize majority votes passed failed = decision at hvoted
    cases hvoted with
    | counted => exact ⟨rfl, .inl rfl⟩
    | issued issues => exact ⟨issues.grows.freeAllocation, issues.grows.totalSupply⟩
    | rejected captured refund => exact ⟨refund.grows.freeAllocation, refund.grows.totalSupply⟩
  | withdraw account => exact (withdraw_pays h).grows
  | setMembershipLimit newLimit =>
    obtain ⟨-, rfl⟩ := setMembershipLimit_eq_ok h
    exact ⟨rfl, .inl rfl⟩
  | setMembershipFreeAllocation newAllocation => exact absurd rfl (hcall newAllocation)
  | setMembershipPricingModule pricingModule =>
    rw [setMembershipPricingModule_eq_ok h]
    exact ⟨rfl, .inl rfl⟩

end Space

/-! ## Accumulation -/

namespace SpaceFactory

variable {f f' : SpaceFactory} {m : Address}

theorem prepayMembership_eq_ok (h : f.prepayMembership env membership supply = .ok f') :
    ∃ s, f.memberships membership = some s ∧
      f' = { f with
        supplyByAddress := update f.supplyByAddress membership (s.totalSupply + supply) } := by
  unfold prepayMembership at h
  split at h
  · cases h
  split at h
  · cases h
  split at h
  · cases h
  rename_i s hs
  simp only at h
  iterate 5
    split at h
    · cases h
  cases h
  exact ⟨s, hs, rfl⟩

theorem priceAt_eq_zero_iff (f : SpaceFactory) (m : Address) (s : Space) (prepaidSupply n : Nat) :
    (∀ env fee, f.priceAt m s prepaidSupply n env fee = .ok 0) ↔
      n < f.allocation s ∨ n < prepaidSupply := by
  have hallocation : ∀ env fee, s.getMembershipFreeAllocation
      { f.envOf env m with prepaidMembershipSupply := prepaidSupply, membershipFee := fee } =
      f.allocation s := fun _ _ => rfl
  constructor
  · intro hfree
    by_contra hno
    rw [not_or, not_lt, not_lt] at hno
    -- a module or a platform that asks for one wei
    have hone := hfree { Env.sample with getPrice := fun _ _ => some 1 } 1
    rw [priceAt, Space.getMembershipPrice] at hone
    simp only [hallocation] at hone
    rw [if_neg (not_lt.2 hno.1), if_neg (not_lt.2 hno.2)] at hone
    by_cases hmodule : s.pricingModule ≠ 0
    · rw [if_pos hmodule] at hone
      cases hone
    · rw [if_neg hmodule] at hone
      cases hone
  · intro hfree env fee
    simp only [priceAt, Space.getMembershipPrice, hallocation]
    split
    · rfl
    split
    · rfl
    · omega

theorem mem_prepaid_iff (f : SpaceFactory) (m : Address) (n : Nat) :
    n ∈ f.prepaid m ↔ f.FreeByPrepayment m n := by
  unfold prepaid FreeByPrepayment
  cases f.memberships m with
  | none => simp
  | some s =>
    simp only [Finset.mem_Ico, priceAt_eq_zero_iff, Option.some.injEq, exists_eq_left']
    omega

theorem card_prepaid (hs : f.memberships m = some s) :
    (f.prepaid m).card = f.supplyByAddress m - max s.totalSupply (f.allocation s) := by
  rw [prepaid, hs, Nat.card_Ico]

theorem remaining_of_same {g : SpaceFactory} (hnext : factoryMachine.next f a = g)
    (hmemberships : g.memberships m = f.memberships m)
    (hsupply : g.supplyByAddress m = f.supplyByAddress m)
    (hlimit : g.membershipMintLimit = f.membershipMintLimit) (hpaid : f.paidFor m a = 0) :
    ((factoryMachine.next f a).prepaid m).card + f.mintedPrepaid m a
      = (f.prepaid m).card + f.paidFor m a := by
  have hsame : g.supplyOf m = f.supplyOf m := by
    unfold supplyOf
    rw [hmemberships]
  have hprepaid : g.prepaid m = f.prepaid m := by
    unfold prepaid allocation
    rw [hmemberships, hsupply, hlimit]
  rw [hpaid, mintedPrepaid, hnext, hsame, hprepaid, Nat.sub_self, ite_self]

theorem remaining_next (husedUp : f.PrepaysUsedUp a) (hkeeps : KeepsAllocation a) :
    ((factoryMachine.next f a).prepaid m).card + f.mintedPrepaid m a
      = (f.prepaid m).card + f.paidFor m a := by
  obtain ⟨env, action⟩ := a
  cases action with
  | prepayMembership membership supply =>
    cases hprepay : f.prepayMembership env membership supply with
    | error r =>
      have hstep : factoryMachine.step f (env, .prepayMembership membership supply) =
          (f, false) := by
        simp only [factoryMachine, step, hprepay]
      refine remaining_of_same (congrArg fst hstep) rfl rfl rfl (if_neg ?_)
      rw [Lib.Machine.out, hstep]
      exact fun h => Bool.noConfusion h.2
    | ok f' =>
      have hstep : factoryMachine.step f (env, .prepayMembership membership supply) =
          (f', true) := by
        simp only [factoryMachine, step, hprepay]
      obtain ⟨s, hs, rfl⟩ := prepayMembership_eq_ok hprepay
      by_cases hm : membership = m
      · subst hm
        obtain ⟨hallocation, hsupply⟩ := husedUp s hs
        have hnext := congrArg fst hstep
        have hs' : (factoryMachine.next f (env, .prepayMembership membership supply)).memberships
            membership = some s := by
          rw [Lib.Machine.next, hnext]
          exact hs
        have hpaid : f.paidFor membership (env, .prepayMembership membership supply) = supply :=
          if_pos ⟨rfl, congrArg snd hstep⟩
        have hminted : f.mintedPrepaid membership (env, .prepayMembership membership supply) =
            0 := by
          rw [mintedPrepaid, Lib.Machine.next, hnext, supplyOf, supplyOf, Nat.sub_self, ite_self]
        rw [hpaid, hminted, card_prepaid hs, card_prepaid hs', Lib.Machine.next, hnext]
        show update f.supplyByAddress membership (s.totalSupply + supply) membership
          - max s.totalSupply (f.allocation s) + 0 = _
        rw [update_self]
        omega
      · refine remaining_of_same (congrArg fst hstep) rfl ?_ rfl (if_neg fun h => hm h.1)
        exact update_of_ne (.symm hm) ..
  | call membership call =>
    cases hs : f.memberships membership with
    | none =>
      refine remaining_of_same (g := f) ?_ rfl rfl rfl rfl
      simp only [Lib.Machine.next, factoryMachine, step, hs]
    | some s =>
      cases hrun : call.run (f.envOf env membership) s with
      | error r =>
        refine remaining_of_same (g := f) ?_ rfl rfl rfl rfl
        simp only [Lib.Machine.next, factoryMachine, step, hs, hrun]
      | ok s' =>
        have hnext : factoryMachine.next f (env, .call membership call)
            = { f with memberships := update f.memberships membership (some s') } := by
          simp only [Lib.Machine.next, factoryMachine, step, hs, hrun]
        by_cases hm : membership = m
        · subst hm
          have hgrows : Space.Grows s s' := by
            refine Space.run_grows hrun ?_
            rintro _ rfl
            exact hkeeps
          have hs' : (factoryMachine.next f (env, .call membership call)).memberships membership
              = some s' := by
            rw [hnext]
            exact update_self ..
          have hallocation : f.allocation s' = f.allocation s := by
            rw [allocation, hgrows.freeAllocation, allocation]
          have hpaid : f.paidFor membership (env, .call membership call) = 0 := rfl
          rw [hpaid, mintedPrepaid, card_prepaid hs, card_prepaid hs', supplyOf, supplyOf, hs, hs',
            prepaid, hs, hnext]
          simp only [Option.map_some, Option.getD_some, Finset.mem_Ico]
          show f.supplyByAddress membership - max s'.totalSupply (f.allocation s') + _ = _
          rcases hgrows.totalSupply with hsupply | hsupply
          all_goals
            rw [hsupply]
            split <;> omega
        · refine remaining_of_same hnext ?_ rfl rfl rfl
          exact update_of_ne (.symm hm) ..

end SpaceFactory

/-- **Prepaid memberships.** In every run in which a prepayment finds the free allocation and
    the prepaid supply of the space used up, the number of further memberships that are free
    because of prepayment is what was paid for minus what was minted since. The supplies that are
    counted are those at which `getMembershipPrice` is zero only because of prepayment. -/
theorem prepaid_accumulates (f : SpaceFactory) (m : Address) (hnew : f.supplyByAddress m = 0)
    (actions : List (Env × Action)) (hkeeps : ∀ a ∈ actions, KeepsAllocation a)
    (husedUp : factoryMachine.Along PrepaysUsedUp f actions) :
    let counts := factoryMachine.collect (account m) f actions
    ((factoryMachine.exec f actions).prepaid m).card + (counts.map snd).sum
        = (counts.map fst).sum ∧
      ∀ g n, n ∈ prepaid g m ↔ g.FreeByPrepayment m n := by
  refine ⟨?_, fun g n => g.mem_prepaid_iff m n⟩
  have hstart : (f.prepaid m).card = 0 := by
    rw [Finset.card_eq_zero, prepaid]
    split
    · rfl
    · rw [hnew]
      exact Finset.Ico_eq_empty (Nat.not_lt_zero _)
  have hrun := collect_invariant (f := account m)
    (J := fun counts f => (f.prepaid m).card + (counts.map snd).sum
      = (counts.map fst).sum)
    (fun _ _ _ => trivial) ?_ (l := []) hstart
    ((along_of_mem hkeeps f).and husedUp) trivial
  · exact hrun
  intro counts g a hcounts ha _
  have hstep := remaining_next (m := m) ha.2 ha.1
  simp only [account, List.map_append, List.sum_append, List.map_cons, List.map_nil,
    List.sum_singleton]
  omega

def sampleFactory : SpaceFactory :=
  ⟨100, 0, 3, fun _ => 0, update (fun _ => none) 1 (some (Space.create Settings.sample 0))⟩

def prepayCall (supply : Nat) : Env × Action :=
  (Env.call 2 (supply * 100), .prepayMembership 1 supply)

theorem prepaid_accumulates_once :
    let join : Env × Action :=
      ({ Env.call 21 0 with rolesWithJoinSpace := [⟨1, false, [.localCheck true]⟩] },
        .call 1 (.joinSpace 21))
    let counts := factoryMachine.collect (account 1) sampleFactory
      [prepayCall 5, join]
    counts = [(5, 0), (0, 1)] ∧
    ((factoryMachine.exec sampleFactory [prepayCall 5, join]).prepaid 1).card
        + (counts.map snd).sum = (counts.map fst).sum := by
  refine ⟨by decide +kernel, (prepaid_accumulates sampleFactory 1 rfl _ ?_ ?_).1⟩
  · intro a ha
    rcases List.mem_cons.1 ha with rfl | ha
    · trivial
    · cases List.mem_singleton.1 ha
      trivial
  · refine ⟨?_, trivial, trivial⟩
    rintro s hs
    cases hs
    decide

/-- Two prepayments for five memberships each leave five. -/
theorem prepaid_overwritten :
    let actions := [prepayCall 5, prepayCall 5]
    (factoryMachine.collect (account 1) sampleFactory actions) = [(5, 0), (5, 0)] ∧
    ((factoryMachine.exec sampleFactory actions).prepaid 1).card = 5 := by
  decide +kernel

end River.Contracts
