/-
  Where the value of a join goes.
-/

import River.Contracts.Renewal

namespace River.Contracts

open Space Settings Lib.Mapping List

open River.Lib (bind_ok)

namespace Space

variable {env : Env} {s s' : Space}

/-! ## What the calls do to the captured values -/

def captured (s : Space) (id : Bytes32) : Nat := s.transactionBalance.get id

/-- The check of a join is open. -/
def Pending (s : Space) (id : Bytes32) : Prop := (s.transactions id).hasBenSet = true

variable {tid : Bytes32}

theorem captureValue_captured
    (h : s.ifPositive value (captureValue env tid value) = .ok s') (id : Bytes32) :
    s'.tokenBalance = s.tokenBalance ∧ s'.received = s.received ∧
      s'.captured id = s.captured id + if id = tid then value else 0 := by
  unfold ifPositive at h
  split at h
  · unfold captureValue at h
    split at h
    · cases h
    split at h
    · cases h
    obtain ⟨_, hadd, h⟩ := bind_ok.1 h
    cases h
    refine ⟨rfl, rfl, ?_⟩
    unfold captured
    split
    · rename_i hid
      rw [hid, get_set_self, checkedAdd_eq_ok hadd]
    · rename_i hid
      exact get_set_of_ne _ _ hid
  · cases h
    rw [show value = 0 by omega, ite_self]
    exact ⟨rfl, rfl, rfl⟩

theorem releaseCapturedValue_captured (h : s.releaseCapturedValue tid value = .ok s')
    (id : Bytes32) :
    s'.tokenBalance = s.tokenBalance ∧ s'.received = s.received ∧
      s.captured id = s'.captured id + if id = tid then value else 0 := by
  obtain ⟨_, hsub, h⟩ := bind_ok.1 h
  obtain ⟨_, rfl⟩ := checkedSub_eq_ok hsub
  cases h
  refine ⟨rfl, rfl, ?_⟩
  unfold captured
  split
  · rename_i hid
    rw [hid, get_set_self]
    omega
  · rename_i hid
    exact (get_set_of_ne _ _ hid).symm

/-- What an account has got between two states. -/
def gained (account : Address) (s s' : Space) : Nat := s'.received account - s.received account

theorem gained_of_update {amount : Nat}
    (h : s'.received = Function.update s.received account (s.received account + amount)) :
    gained account s s' = amount := by
  rw [gained, h, Function.update_self]
  omega

theorem gained_of_eq (h : s'.received = s.received) (account : Address) :
    gained account s s' = 0 := by
  rw [gained, h, Nat.sub_self]

theorem issueToken_captured (h : s.issueToken env tid = .ok s') :
    ∃ price, s.getMembershipPrice env s.totalSupply = .ok price ∧
      gained env.feeRecipient s s' + (s'.tokenBalance - s.tokenBalance) = price ∧
      ∀ id, s.captured id = s'.captured id + if id = tid then price else 0 := by
  unfold issueToken at h
  split at h
  · cases h
  obtain ⟨price, hprice, h⟩ := bind_ok.1 h
  obtain ⟨_, hpay, h⟩ := bind_ok.1 h
  obtain ⟨_, hmint, h⟩ := bind_ok.1 h
  obtain ⟨_, rfl⟩ := safeMint_eq_ok hmint
  obtain ⟨-, rfl⟩ := renewSubscription_eq_ok h
  refine ⟨price, hprice, ?_⟩
  unfold ifPositive at hpay
  split at hpay
  · unfold payFromCaptured at hpay
    simp only at hpay
    split at hpay
    · cases hpay
    split at hpay
    · cases hpay
    obtain ⟨⟨fee, _⟩, hcollect, hpay⟩ := bind_ok.1 hpay
    obtain ⟨_, hsurplus, hpay⟩ := bind_ok.1 hpay
    obtain ⟨_, hin, hpay⟩ := bind_ok.1 hpay
    obtain ⟨s5, hrelease, hpay⟩ := bind_ok.1 hpay
    cases hpay
    obtain ⟨_, rfl⟩ := collectProtocolFee_eq_ok hcollect
    obtain ⟨_, rfl⟩ := checkedSub_eq_ok hsurplus
    have hreleased := releaseCapturedValue_captured hrelease
    rw [transferIn_eq_ok hin] at hreleased
    constructor
    · obtain ⟨hrevenue, hreceived, -⟩ := hreleased 0
      have hfee : gained env.feeRecipient s s5 = fee := gained_of_update hreceived
      change s5.tokenBalance = s.tokenBalance + (price - fee) at hrevenue
      show gained env.feeRecipient s s5 + (s5.tokenBalance - s.tokenBalance) = price
      omega
    · exact fun id => (hreleased id).2.2
  · cases hpay
    have hfree : price = 0 := by omega
    subst hfree
    refine ⟨by simp [gained], fun id => ?_⟩
    rw [ite_self]
    rfl

theorem refundBalance_captured (h : s.refundBalance env tid sender = .ok s') :
    gained sender s s' = s.captured tid ∧
      ∀ id, s'.captured id = if id = tid then 0 else s.captured id := by
  unfold refundBalance ifPositive at h
  simp only at h
  split at h
  · obtain ⟨s1, hrelease, htransfer⟩ := bind_ok.1 h
    obtain ⟨-, rfl⟩ := transferCurrency_eq_ok htransfer
    have hreleased := releaseCapturedValue_captured hrelease
    refine ⟨gained_of_update (by rw [(hreleased 0).2.1]; rfl), fun id => ?_⟩
    have hreleased := (hreleased id).2.2
    show s1.captured id = _
    split at hreleased
    · rename_i hid
      have hall : s.captured id = s.transactionBalance.get tid := by rw [hid]; rfl
      rw [if_pos hid]
      omega
    · rename_i hid
      rw [if_neg hid]
      omega
  · rename_i hzero
    have hzero : s.captured tid = 0 := Nat.eq_zero_of_not_pos hzero
    cases h
    refine ⟨by rw [gained_of_eq rfl, hzero], fun id => ?_⟩
    split
    · rename_i hid
      rw [hid]
      exact hzero
    · rfl

theorem captured_of_settledId_eq_none {call : Call} (h : call.run env s = .ok s')
    (hquiet : s.settledId (env, call) = none) : s'.transactionBalance = s.transactionBalance := by
  cases call with
  | joinSpaceWithReferral receiver referrer referralCode =>
    obtain ⟨_, -, h⟩ := bind_ok.1 h
    obtain ⟨price, -, h⟩ := bind_ok.1 h
    obtain ⟨s1, hpay, h⟩ := bind_ok.1 h
    obtain ⟨_, hmint, h⟩ := bind_ok.1 h
    obtain ⟨_, rfl⟩ := safeMint_eq_ok hmint
    obtain ⟨expiration, rfl⟩ := renewSubscription_eq_ok h
    unfold ifPositive at hpay
    split at hpay
    swap
    · cases hpay
      rfl
    obtain ⟨⟨_, _⟩, hcollect, hpay⟩ := bind_ok.1 hpay
    obtain ⟨_, -, hpay⟩ := bind_ok.1 hpay
    obtain ⟨balance, rfl⟩ := collectProtocolFee_eq_ok hcollect
    unfold ifPositive at hpay
    split at hpay
    swap
    · cases hpay
      rfl
    obtain ⟨_, -, hpay⟩ := bind_ok.1 hpay
    obtain ⟨_, htransfer, hpay⟩ := bind_ok.1 hpay
    obtain ⟨_, rfl⟩ := transferCurrency_eq_ok htransfer
    obtain ⟨_, -, hpay⟩ := bind_ok.1 hpay
    rw [transferIn_eq_ok hpay]
    rfl
  | renewMembership tokenId =>
    obtain ⟨receiver, -, h⟩ := bind_ok.1 h
    split at h
    · cases h
    obtain ⟨_, -, h⟩ := bind_ok.1 h
    split at h
    · cases h
    obtain ⟨price, -, h⟩ := bind_ok.1 h
    obtain ⟨s1, hpay, h⟩ := bind_ok.1 h
    obtain ⟨balance, _, _, rfl⟩ := payRenewal_eq_ok hpay
    obtain ⟨expiration, rfl⟩ := renewSubscription_eq_ok h
    rfl
  | withdraw account =>
    change s.withdraw env account = .ok s' at h
    unfold withdraw at h
    iterate 4
      split at h
      · cases h
    obtain ⟨balance, rfl⟩ := transferCurrency_eq_ok h
    rfl
  | setMembershipLimit newLimit =>
    obtain ⟨-, rfl⟩ := setMembershipLimit_eq_ok h
    rfl
  | setMembershipFreeAllocation newAllocation =>
    rw [setMembershipFreeAllocation_eq_ok h]
  | setMembershipPricingModule pricingModule =>
    rw [setMembershipPricingModule_eq_ok h]
  | _ => cases hquiet

/-! ## When a check is pending -/

theorem Requests.hasBenSet (h : Requests env t t')
    (hset : t.hasBenSet = true) : t'.hasBenSet = true := by
  induction h with
  | refl => exact hset
  | tail _ hstep =>
    obtain ⟨-, -, -, rfl⟩ := hstep
    exact requested_hasBenSet ..

theorem checkRoles_pending (h : checkRoles env tid roles pending refund s = .ok (.checking p r, s'))
    (hpending : (pending = true ∧ s.Pending tid) ∨ ∃ e, .crosschain e ∈ enabledEntitlements roles) :
    p = true ∧ s'.Pending tid := by
  rw [checkRoles_eq_checkAll] at h
  rw [← map_enabledChecks] at hpending
  generalize enabledChecks roles = checks at h hpending
  induction checks generalizing pending refund s with
  | nil =>
    cases h
    rcases hpending with hpending | ⟨e, he⟩
    · exact hpending
    · cases he
  | cons check rest ih =>
    obtain ⟨_, entitlement⟩ := check
    cases entitlement with
    | localCheck isEntitled =>
      rw [checkAll] at h
      split at h
      · obtain ⟨s1, -, h⟩ := bind_ok.1 h
        cases h
      refine ih h (hpending.imp_right ?_)
      rintro ⟨e, he⟩
      rcases mem_cons.1 he with habsurd | he
      · cases habsurd
      · exact ⟨e, he⟩
    | crosschain entitlement =>
      obtain ⟨s1, hrequest, h⟩ := bind_ok.1 h
      obtain ⟨_, rfl⟩ := requestEntitlementCheck_eq_ok hrequest
      refine ih h (.inl ⟨rfl, ?_⟩)
      rw [Pending, setTransaction_transactions_self]
      exact requested_hasBenSet ..

/-! ## Sent, paid and refunded -/

structure Settlement where
  sent : Nat
  paid : Nat
  refunded : Nat

def sent (id : Bytes32) (s : Space) (a : Env × Call) : Nat :=
  match a.2 with
  | .joinSpace _ =>
    if s.nextTransactionId a.1 = id ∧ spaceMachine.out s a = none then a.1.value else 0
  | _ => 0

/-- The protocol fee and the revenue of the owner, if the call mints a token for the id. -/
def paid (id : Bytes32) (s : Space) (a : Env × Call) : Nat :=
  let s' := spaceMachine.next s a
  if id ∈ s.minted a then gained a.1.feeRecipient s s' + (s'.tokenBalance - s.tokenBalance) else 0

/-- The account that sent the value of the transaction that the call settles. -/
def joiner (s : Space) : Env × Call → Option Address
  | (env, .joinSpace _) => some env.sender
  | (_, .postEntitlementCheckResult tid _ _) =>
    (s.transactionData tid).map Prod.fst
  | _ => none

/-- What the joiner gets from the call, if it is about the id and mints no token. -/
def refunded (id : Bytes32) (s : Space) (a : Env × Call) : Nat :=
  if s.settledId a = some id ∧ id ∉ s.minted a then
    ((s.joiner a).map fun account => gained account s (spaceMachine.next s a)).getD 0
  else 0

def settlement (id : Bytes32) (s : Space) (a : Env × Call) : List Settlement :=
  [⟨s.sent id a, s.paid id a, s.refunded id a⟩]

/-- A join captures at most the price, and leaves nothing over. -/
def SettlesExactly (s : Space) : Env × Call → Prop
  | (env, .joinSpace _) => env.value > 0 →
    (.localCheck true ∈ enabledEntitlements env.rolesWithJoinSpace →
      ∀ price, s.getMembershipPrice env s.totalSupply = .ok price →
        s.captured (s.nextTransactionId env) + env.value ≤ price) ∧
    (.localCheck true ∉ enabledEntitlements env.rolesWithJoinSpace →
      ∃ e, .crosschain e ∈ enabledEntitlements env.rolesWithJoinSpace)
  | (env, .postEntitlementCheckResult tid roleId result) =>
    s.voteDecides env tid roleId result = some .passed →
      ∀ price, s.getMembershipPrice env s.totalSupply = .ok price → s.captured tid ≤ price
  | _ => True

/-- What was sent is paid, refunded or still captured. -/
structure Settled (id : Bytes32) (settlements : List Settlement) (s : Space) : Prop where
  balance : (settlements.map (·.sent)).sum
    = (settlements.map (·.paid)).sum + (settlements.map (·.refunded)).sum + s.captured id
  captured : ¬ s.Pending id → s.captured id = 0

/-- A call that mints a token for a price, or none and sends the refund to the joiner. -/
def Settles (env : Env) (joiner : Option Address) (s s' : Space) (price refund : Nat) : Prop :=
  (s'.currentIndex = s.currentIndex + 1 ∧
    gained env.feeRecipient s s' + (s'.tokenBalance - s.tokenBalance) = price ∧ refund = 0) ∨
  (s'.currentIndex = s.currentIndex ∧
    price = 0 ∧ (joiner.map fun account => gained account s s').getD 0 = refund)

theorem Settles.of_eq (hindex : s'.currentIndex = s.currentIndex)
    (hreceived : s'.received = s.received) (joiner : Option Address) :
    Settles env joiner s s' 0 0 := by
  refine .inr ⟨hindex, rfl, ?_⟩
  simp only [gained_of_eq hreceived]
  cases joiner <;> rfl

theorem joinSpace_captured (h : s.joinSpace env receiver = .ok s')
    (hexact : s.SettlesExactly (env, .joinSpace receiver)) :
    ∃ price, Settles env (some env.sender) s s' price 0 ∧
      (∀ id, s.captured id + (if id = s.nextTransactionId env then env.value else 0)
        = s'.captured id + if id = s.nextTransactionId env then price else 0) ∧
      ((¬ s.Pending (s.nextTransactionId env) → s.captured (s.nextTransactionId env) = 0) →
        ¬ s'.Pending (s.nextTransactionId env) → s'.captured (s.nextTransactionId env) = 0) := by
  obtain ⟨_, -, h⟩ := bind_ok.1 h
  obtain ⟨s1, hcapture, h⟩ := bind_ok.1 h
  obtain ⟨⟨_, _⟩, hroles, h⟩ := bind_ok.1 h
  change checkRoles env (s.nextTransactionId env) _ _ _ _ = _ at hroles
  have hadded := captureValue_captured hcapture
  have hpays : Pays (s.register env receiver) s1 env.value 0 :=
    ifPositive_pays (fun _ => captureValue_pays) (by omega) hcapture
  obtain ⟨htx, -, hsupply, hprice⟩ := hpays.of_register
  have hindex : s1.currentIndex = s.currentIndex := hpays.currentIndex
  change ∀ id, s1.tokenBalance = s.tokenBalance ∧ s1.received = s.received ∧
    s1.captured id = s.captured id + if id = s.nextTransactionId env then env.value else 0 at hadded
  obtain ⟨hrevenue, hreceived, -⟩ := hadded 0
  have hadded := fun id => (hadded id).2.2
  simp only [SettlesExactly] at hexact
  generalize s.nextTransactionId env = tid at *
  cases checkRoles_checked hroles with
  | @issued t before after _ requests split unmet crosschain issue =>
    cases h
    obtain ⟨price, hp, hpaid, htaken⟩ := issueToken_captured issue
    have hp' : s.getMembershipPrice env s.totalSupply = .ok price := by
      rw [← hprice, ← hsupply]
      exact hp
    refine ⟨price, .inl ⟨?_, ?_, rfl⟩, fun id => ?_, fun hsettled hdone => ?_⟩
    · rw [(issueToken_issues issue).currentIndex]
      exact congrArg (· + 1) hindex
    · rw [gained, ← hreceived, ← hrevenue]
      exact hpaid
    · rw [← hadded id]
      exact htaken id
    have htaken := htaken tid
    have hadded := hadded tid
    rw [if_pos rfl] at htaken hadded
    change s1.captured tid = s'.captured tid + price at htaken
    by_cases hvalue : env.value > 0
    · have hle := (hexact hvalue).1 (by simp [split]) price hp'
      omega
    have hbefore : ¬ s.Pending tid := by
      intro hset
      refine hdone ?_
      rw [Pending, (issueToken_issues issue).transactions, setTransaction_transactions_self]
      exact requests.hasBenSet (by rwa [htx])
    have hzero := hsettled hbefore
    omega
  | @checking t p r requests unmet crosschain =>
    -- with a value the nodes are asked, so only a join without a value can be rejected
    have hend : s'.currentIndex = s1.currentIndex ∧ s'.received = s1.received ∧
        (∀ id, s'.captured id = s1.captured id) ∧ s'.transactions tid = t ∧
        (env.value > 0 → t.hasBenSet = true) := by
      by_cases hvalue : env.value > 0
      · obtain ⟨rfl, hset⟩ := checkRoles_pending hroles (.inr ((hexact hvalue).2 unmet))
        rw [Pending, setTransaction_transactions_self] at hset
        have hs' : s' = s1.setTransaction tid t := by
          cases r <;> exact (Except.ok.inj h).symm
        subst hs'
        exact ⟨rfl, rfl, fun _ => rfl, setTransaction_transactions_self .., fun _ => hset⟩
      · have hs' : s' = s1.setTransaction tid t ∨
            ∃ id, s' = (s1.setTransaction tid t).captureData id none := by
          rcases p with _ | _ <;> rcases r with _ | _
          case false.true =>
            right
            change ifPositive _ _ _ = _ at h
            rw [ifPositive, if_neg hvalue] at h
            exact ⟨_, (Except.ok.inj h).symm⟩
          all_goals exact .inl (Except.ok.inj h).symm
        rcases hs' with rfl | ⟨id, rfl⟩
        all_goals
          exact ⟨rfl, rfl, fun _ => rfl, setTransaction_transactions_self ..,
            fun h => absurd h hvalue⟩
    obtain ⟨hindex', hreceived', hcaptured, htx', hset⟩ := hend
    refine ⟨0, .of_eq (hindex'.trans hindex) (hreceived'.trans hreceived) _, fun id => ?_,
      fun hsettled hdone => ?_⟩
    · rw [hcaptured id, hadded id, ite_self, Nat.add_zero]
    rw [Pending, htx'] at hdone
    have hvalue : ¬ env.value > 0 := fun hvalue => hdone (hset hvalue)
    have hbefore : ¬ s.Pending tid := fun hset => hdone (requests.hasBenSet (by rwa [htx]))
    rw [hcaptured tid, hadded tid, hsettled hbefore, if_pos rfl]
    omega

theorem postEntitlementCheckResult_captured
    (h : s.postEntitlementCheckResult env tid roleId result = .ok s')
    (hexact : s.SettlesExactly (env, .postEntitlementCheckResult tid roleId result)) :
    ∃ price refund,
      Settles env ((s.transactionData tid).map Prod.fst) s s' price refund ∧
      (∀ id, s.captured id = s'.captured id + if id = tid then price + refund else 0) ∧
      (¬ s'.Pending tid → s'.captured tid = 0) := by
  obtain ⟨hset, _, passed, failed, -, hdecides, hend⟩ := postEntitlementCheckResult_counted h
  simp only [SettlesExactly] at hexact
  rw [hdecides] at hexact
  rcases hend with ⟨-, rfl⟩ | ⟨decision, s1, hsome, hvoted, hposted, rfl⟩
  · refine ⟨0, 0, .of_eq rfl rfl _, fun id => ?_, fun hdone => ?_⟩
    · rw [ite_self]
      rfl
    · rw [Pending, setTransaction_transactions_self] at hdone
      exact absurd hset hdone
  rw [hsome] at hexact
  cases decision with
  | notVoted => exact absurd rfl hvoted
  | passed =>
    obtain ⟨price, hprice, hpaid, htaken⟩ := issueToken_captured hposted
    refine ⟨price, 0, .inl ⟨(issueToken_issues hposted).currentIndex, hpaid, rfl⟩,
      fun id => htaken id, fun _ => ?_⟩
    have hle := hexact rfl price hprice
    have htaken := htaken tid
    rw [if_pos rfl] at htaken
    change s.captured tid = s1.captured tid + price at htaken
    show s1.captured tid = 0
    omega
  | failed =>
    rw [onEntitlementCheckResultPosted, if_neg NodeVoteStatus.noConfusion] at hposted
    split at hposted
    · cases hposted
    rename_i sender receiver hdata
    obtain ⟨hgained, hrefunded⟩ := refundBalance_captured hposted
    have hdata : s.transactionData tid = some (sender, receiver) := hdata
    have hindex : s1.currentIndex = s.currentIndex := (refundBalance_pays hposted).currentIndex
    refine ⟨0, s.captured tid, .inr ⟨hindex, rfl, ?_⟩, fun id => ?_,
      fun _ => (hrefunded _).trans (if_pos rfl)⟩
    · rw [hdata]
      exact hgained
    show s.captured id = s1.captured id + _
    rw [hrefunded id]
    split
    · rename_i hid
      rw [hid]
      omega
    · rfl

theorem Settled.step {id : Bytes32} {a : Env × Call} (h : Settled id settlements s)
    (hexact : s.SettlesExactly a) :
    Settled id (settlements ++ s.settlement id a) (spaceMachine.next s a) := by
  -- it is enough that the call keeps the balance and settles what it leaves
  suffices hcall : s.captured id + s.sent id a
      = s.paid id a + s.refunded id a + (spaceMachine.next s a).captured id ∧
      (¬ (spaceMachine.next s a).Pending id → (spaceMachine.next s a).captured id = 0) by
    refine ⟨?_, hcall.2⟩
    have hbalance := h.balance
    simp only [settlement, map_append, sum_append, map_cons, map_nil, sum_singleton]
    omega
  obtain ⟨env, call⟩ := a
  -- what is paid and refunded for the id, if the call settles it
  have hsettles : ∀ {price refund : Nat}, Settles env (s.joiner (env, call)) s
      (spaceMachine.next s (env, call)) price refund →
        s.paid id (env, call) = (if s.settledId (env, call) = some id then price else 0) ∧
        s.refunded id (env, call) = if s.settledId (env, call) = some id then refund else 0 := by
    rintro price refund (⟨hindex, hprice, rfl⟩ | ⟨hindex, rfl, hrefund⟩)
    · rw [paid, refunded, minted_of_succ hindex, hprice, ite_self]
      simp only [Option.mem_toList, true_and]
      exact if_neg fun h => h.2 h.1
    · rw [paid, refunded, minted_of_le hindex, hrefund, ite_self, if_neg not_mem_nil]
      simp only [not_mem_nil, not_false_eq_true, and_true, and_self]
  rcases s.next_cases env call with hok | ⟨⟨r, herror⟩, hsame⟩
  swap
  · obtain ⟨hpaid, hrefunded⟩ := hsettles (.of_eq (by rw [hsame]) (by rw [hsame]) _)
    have hsent : s.sent id (env, call) = 0 := by
      cases call <;> simp [sent, out_of_error herror]
    rw [hpaid, hrefunded, ite_self, hsame]
    exact ⟨by omega, h.captured⟩
  have hout := out_of_ok hok
  generalize spaceMachine.next s (env, call) = s' at *
  rcases run_cases hok with ⟨receiver, rfl, hjoined⟩ | ⟨tid, roleId, result, rfl, hpost⟩ |
    ⟨hid, hquiet⟩
  · obtain ⟨price, hissued, hcaptured, hsettled⟩ := joinSpace_captured hok hexact
    obtain ⟨hpaid, hrefunded⟩ := hsettles hissued
    have hcaptured := hcaptured id
    have hsent : s.sent id (env, .joinSpace receiver)
        = if id = s.nextTransactionId env then env.value else 0 := by
      simp only [sent, hout, and_true, eq_comm]
    rw [ite_self] at hrefunded
    simp only [settledId, Option.some.injEq, eq_comm] at hpaid
    refine ⟨by omega, fun hdone => ?_⟩
    by_cases hid : id = s.nextTransactionId env
    · subst hid
      exact hsettled h.captured hdone
    rw [if_neg hid] at hcaptured
    rw [Pending, (hjoined.others id hid).1] at hdone
    have hzero := h.captured hdone
    omega
  · obtain ⟨price, refund, hissued, hcaptured, hsettled⟩ :=
      postEntitlementCheckResult_captured hpost hexact
    obtain ⟨-, _, _, _, -, -, hvoted⟩ := postEntitlementCheckResult_eq_ok hpost
    obtain ⟨hpaid, hrefunded⟩ := hsettles hissued
    have hcaptured := hcaptured id
    have hsent : s.sent id (env, .postEntitlementCheckResult tid roleId result) = 0 := rfl
    simp only [settledId, Option.some.injEq, eq_comm] at hpaid hrefunded
    by_cases hid : id = tid
    · subst hid
      rw [if_pos rfl] at hcaptured hpaid hrefunded
      exact ⟨by omega, hsettled⟩
    · rw [if_neg hid] at hcaptured hpaid hrefunded
      refine ⟨by omega, fun hdone => ?_⟩
      rw [Pending, (hvoted.others hid).1] at hdone
      have hzero := h.captured hdone
      omega
  · have hsame : s'.captured id = s.captured id := by
      rw [Space.captured, captured_of_settledId_eq_none hok hid]
      rfl
    have hpaid : s.paid id (env, call) = 0 := by
      rw [paid, minted_of_none hid]
      exact if_neg not_mem_nil
    have hrefunded : s.refunded id (env, call) = 0 := by
      rw [refunded, hid]
      exact if_neg fun h => nomatch h.1
    have hsent : s.sent id (env, call) = 0 := by
      cases call with
      | joinSpace receiver => cases hid
      | _ => rfl
    refine ⟨by omega, fun hdone => ?_⟩
    rw [Pending, hquiet.transactions] at hdone
    rw [hsame]
    exact h.captured hdone

end Space

/-! ## Every wei is settled -/

def settledSum (entry : Settlement → Nat) (settings : Settings) (balance : Nat)
    (calls : List (Env × Call)) (id : Bytes32) : Nat :=
  ((spaceMachine.collect (settlement id) (create settings balance) calls).map entry).sum

/-- **Settlement.** In every run whose calls leave no value behind, once no check is pending
    for a transaction id, nothing is captured for it, and what was sent for it is what was
    paid as price and what was sent back. -/
theorem joinSpace_value_settled (settings : Settings) (balance : Nat) (calls : List (Env × Call))
    (hexact : spaceMachine.Along SettlesExactly (create settings balance) calls)
    (id : Bytes32) (hdone : ¬ (spaceMachine.exec (create settings balance) calls).Pending id) :
    (spaceMachine.exec (create settings balance) calls).captured id = 0 ∧
    settledSum (·.sent) settings balance calls id
      = settledSum (·.paid) settings balance calls id
        + settledSum (·.refunded) settings balance calls id := by
  have hsettled := Lib.Machine.collect_invariant
    (J := Settled id) (fun _ _ _ => trivial)
    (fun _ _ _ h ha _ => h.step ha) (l := [])
    ⟨rfl, fun _ => rfl⟩ hexact trivial
  have hzero := hsettled.captured hdone
  have hbalance := hsettled.balance
  rw [hzero] at hbalance
  exact ⟨hzero, hbalance⟩

/-- A join for the exact price that the votes admit. -/
theorem joinSpace_value_settled_by_votes :
    let calls := (Env.call 21 100, .joinSpace 21) :: votesOf [11, 12, 13] firstId 1 .passed
    settledSum (·.sent) sample 0 calls firstId = 100 ∧
    (spaceMachine.exec (create sample 0) calls).captured firstId = 0 ∧
    settledSum (·.sent) sample 0 calls firstId
      = settledSum (·.paid) sample 0 calls firstId
        + settledSum (·.refunded) sample 0 calls firstId := by
  refine ⟨by decide +kernel, joinSpace_value_settled sample 0 _ ?_ firstId ?_⟩
  · have hvote : ∀ s : Space, s.captured firstId ≤ 100 →
        s.getMembershipPrice .sample s.totalSupply = .ok 100 → ∀ node,
        s.SettlesExactly (.call node 0, .postEntitlementCheckResult firstId 1 .passed) := by
      intro s hcaptured hsample node _ price hprice
      have hsame : price = 100 := Except.ok.inj (hprice.symm.trans hsample)
      rwa [hsame]
    refine ⟨fun _ => ⟨fun hmet => ?_, fun _ => ⟨9, .head _⟩⟩, ?_, ?_, ?_, trivial⟩
    · cases mem_singleton.1 hmet
    all_goals exact hvote _ (by decide +kernel) (by decide +kernel) _
  · unfold Space.Pending
    decide +kernel

/-- A role that is local and not met, one that is met, and no role: the value of a join that
    is rejected, of one that pays too much, of one that is free, and of one that nothing
    decides is neither paid nor sent back. -/
theorem joinSpace_value_left :
    let settledBy (settings : Settings) (roles : List Role) (value : Nat) :=
      let calls := [({ Env.call 21 value with rolesWithJoinSpace := roles }, .joinSpace 21)]
      (settledSum (·.sent) settings 0 calls firstId, settledSum (·.paid) settings 0 calls firstId,
        settledSum (·.refunded) settings 0 calls firstId,
        (spaceMachine.exec (create settings 0) calls).captured firstId,
        ((spaceMachine.exec (create settings 0) calls).transactions firstId).hasBenSet)
    settledBy sample [⟨1, false, [.localCheck false]⟩] 100 = (100, 0, 0, 0, false) ∧
    settledBy sample [⟨1, false, [.localCheck true]⟩] 150 = (150, 100, 0, 50, false) ∧
    settledBy { sample with freeAllocation := 10 } [⟨1, false, [.localCheck true]⟩] 100
      = (100, 0, 0, 100, false) ∧
    settledBy sample [] 100 = (100, 0, 0, 100, false) := by
  decide +kernel

end River.Contracts
