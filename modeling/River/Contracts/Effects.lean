/-
  What the functions of a space do, once for all results about its runs.
-/

import River.Contracts.MembershipFacet

namespace River.Contracts

open Function List Lib.Machine Nat

open River.Lib (bind_ok)

namespace Space

/-! ## Payments -/

def deficit (s : Space) : Int := s.tokenBalance + s.transactionBalance.total - s.balance

structure Pays (s s' : Space) (cost : Int) (minted : Nat) : Prop where
  deficit : s'.deficit ≤ s.deficit + cost
  tokenBalance : s.tokenBalance ≤ s'.tokenBalance
  transactionData : s'.transactionData = s.transactionData
  transactionNonce : s'.transactionNonce = s.transactionNonce
  transactions : s'.transactions = s.transactions
  membershipMaxSupply : s'.membershipMaxSupply = s.membershipMaxSupply
  freeAllocation : s'.freeAllocation = s.freeAllocation
  currentIndex : s'.currentIndex = s.currentIndex + minted
  burnCounter : s'.burnCounter = s.burnCounter
  getMembershipPrice : ∀ env totalSupply,
    s'.getMembershipPrice env totalSupply = s.getMembershipPrice env totalSupply

namespace Pays

theorem refl (s : Space) : Pays s s 0 0 :=
  ⟨by omega, le_refl _, rfl, rfl, rfl, rfl, rfl, rfl, rfl, fun _ _ => rfl⟩

theorem trans (h : Pays s s' c n) (h' : Pays s' s'' c' n') : Pays s s'' (c + c') (n + n') where
  deficit := by
    have hd := h.deficit
    have hd' := h'.deficit
    omega
  tokenBalance := le_trans h.tokenBalance h'.tokenBalance
  transactionData := h'.transactionData.trans h.transactionData
  transactionNonce := h'.transactionNonce.trans h.transactionNonce
  transactions := h'.transactions.trans h.transactions
  membershipMaxSupply := h'.membershipMaxSupply.trans h.membershipMaxSupply
  freeAllocation := h'.freeAllocation.trans h.freeAllocation
  currentIndex := by
    rw [h'.currentIndex, h.currentIndex]
    omega
  burnCounter := h'.burnCounter.trans h.burnCounter
  getMembershipPrice env totalSupply :=
    (h'.getMembershipPrice env totalSupply).trans (h.getMembershipPrice env totalSupply)

theorem totalSupply (h : Pays s s' c 0) : s'.totalSupply = s.totalSupply := by
  rw [Space.totalSupply, h.currentIndex, h.burnCounter]
  rfl

theorem mono (h : Pays s s' c n) (hc : c ≤ c') : Pays s s' c' n :=
  { h with
    deficit := by
      have hd := h.deficit
      omega }

end Pays

variable {env : Env} {s s' : Space}

theorem ifPositive_pays {f : Space → Result Space} (hf : ∀ s', f s = .ok s' → Pays s s' cost 0)
    (hcost : amount = 0 → 0 ≤ cost) (h : s.ifPositive amount f = .ok s') : Pays s s' cost 0 := by
  unfold ifPositive at h
  split at h
  · exact hf s' h
  · cases h
    exact (Pays.refl s).mono (hcost (by omega))

theorem receive_pays (env : Env) (s : Space) : Pays s (s.receive env) (-env.value) 0 := by
  refine ⟨?_, le_refl _, rfl, rfl, rfl, rfl, rfl, rfl, rfl, fun _ _ => rfl⟩
  simp only [deficit, receive]
  omega

theorem transferCurrency_pays (h : s.transferCurrency env recipient amount = .ok s') :
    Pays s s' amount 0 := by
  unfold transferCurrency at h
  split at h
  · cases h
    exact (Pays.refl s).mono (by omega)
  split at h
  · cases h
    refine ⟨?_, le_refl _, rfl, rfl, rfl, rfl, rfl, rfl, rfl, fun _ _ => rfl⟩
    simp only [deficit]
    split <;> omega
  · cases h

variable {id : Bytes32}

theorem captureValue_pays (h : s.captureValue env id value = .ok s') : Pays s s' value 0 := by
  unfold captureValue at h
  split at h
  · cases h
  split at h
  · cases h
  obtain ⟨captured, hadd, h⟩ := bind_ok.1 h
  cases h
  have htotal := s.transactionBalance.total_set id captured
  rw [checkedAdd_eq_ok hadd] at htotal ⊢
  refine ⟨?_, le_refl _, rfl, rfl, rfl, rfl, rfl, rfl, rfl, fun _ _ => rfl⟩
  simp only [deficit]
  omega

theorem releaseCapturedValue_pays (h : s.releaseCapturedValue id value = .ok s') :
    Pays s s' (-value) 0 := by
  obtain ⟨_, hsub, h⟩ := bind_ok.1 h
  cases h
  obtain ⟨_, rfl⟩ := checkedSub_eq_ok hsub
  have htotal := s.transactionBalance.total_set id (s.transactionBalance.get id - value)
  refine ⟨?_, le_refl _, rfl, rfl, rfl, rfl, rfl, rfl, rfl, fun _ _ => rfl⟩
  simp only [deficit]
  omega

theorem transferIn_pays (h : s.transferIn amount = .ok s') : Pays s s' amount 0 := by
  obtain ⟨_, hadd, h⟩ := bind_ok.1 h
  cases h
  rw [checkedAdd_eq_ok hadd]
  refine ⟨?_, le_add_right _ _, rfl, rfl, rfl, rfl, rfl, rfl, rfl, fun _ _ => rfl⟩
  simp only [deficit]
  omega

theorem setMembershipRenewalPrice_pays (tokenId pricePaid : Nat) (s : Space) :
    Pays s (s.setMembershipRenewalPrice tokenId pricePaid) 0 0 := by
  refine ⟨?_, le_refl _, rfl, rfl, rfl, rfl, rfl, rfl, rfl, fun _ _ => rfl⟩
  simp only [deficit, setMembershipRenewalPrice]
  omega

theorem renewSubscription_pays
    (h : s.renewSubscription env tokenId duration = .ok s') : Pays s s' 0 0 := by
  unfold renewSubscription at h
  split at h
  all_goals
    obtain ⟨_, -, h⟩ := bind_ok.1 h
    cases h
    refine ⟨?_, le_refl _, rfl, rfl, rfl, rfl, rfl, rfl, rfl, fun _ _ => rfl⟩
    simp only [deficit]
    omega

theorem collectProtocolFee_pays {fee : Nat}
    (h : s.collectProtocolFee env membershipPrice = .ok (fee, s')) : Pays s s' fee 0 := by
  obtain ⟨_, -, h⟩ := bind_ok.1 h
  obtain ⟨_, htransfer, h⟩ := bind_ok.1 h
  cases h
  exact transferCurrency_pays htransfer

theorem payWithReferral_pays
    (h : s.payWithReferral env referrer referralCode tokenId membershipPrice = .ok s') :
    Pays s s' membershipPrice 0 := by
  obtain ⟨⟨fee, s1⟩, hfee, h⟩ := bind_ok.1 h
  obtain ⟨_, hsurplus, h⟩ := bind_ok.1 h
  obtain ⟨_, rfl⟩ := checkedSub_eq_ok hsurplus
  have hrest : Pays s1 s' (membershipPrice - fee : Nat) 0 := by
    refine ifPositive_pays ?_ (by omega) h
    intro s2 hsplit
    obtain ⟨referralFee, -, hsplit⟩ := bind_ok.1 hsplit
    obtain ⟨s3, htransfer, hsplit⟩ := bind_ok.1 hsplit
    obtain ⟨_, hrecipient, hin⟩ := bind_ok.1 hsplit
    obtain ⟨_, rfl⟩ := checkedSub_eq_ok hrecipient
    have hreceived : Pays s3 s2 (membershipPrice - fee - referralFee : Nat) 0 :=
      ifPositive_pays (fun _ => transferIn_pays) (by omega) hin
    exact ((transferCurrency_pays htransfer).trans hreceived).mono (by omega)
  have hrenewal := setMembershipRenewalPrice_pays tokenId membershipPrice s
  exact ((hrenewal.trans (collectProtocolFee_pays hfee)).trans hrest).mono (by omega)

theorem payRenewal_pays (h : s.payRenewal env membershipPrice = .ok s') :
    Pays s s' membershipPrice 0 := by
  obtain ⟨⟨fee, s1⟩, hfee, h⟩ := bind_ok.1 h
  obtain ⟨_, hsurplus, h⟩ := bind_ok.1 h
  obtain ⟨_, rfl⟩ := checkedSub_eq_ok hsurplus
  have hreceived : Pays s1 s' (membershipPrice - fee : Nat) 0 :=
    ifPositive_pays (fun _ => transferIn_pays) (by omega) h
  exact ((collectProtocolFee_pays hfee).trans hreceived).mono (by omega)

theorem refundBalance_pays (h : s.refundBalance env id sender = .ok s') : Pays s s' 0 0 := by
  unfold refundBalance at h
  refine ifPositive_pays ?_ (fun _ => Int.le_refl 0) h
  intro s2 hrefund
  obtain ⟨_, hrelease, htransfer⟩ := bind_ok.1 hrefund
  have hall := (releaseCapturedValue_pays hrelease).trans (transferCurrency_pays htransfer)
  exact hall.mono (by omega)

theorem safeMint_pays (h : s.safeMint env recipient = .ok s') : Pays s s' 0 1 := by
  unfold safeMint at h
  split at h
  · cases h
    refine ⟨?_, le_refl _, rfl, rfl, rfl, rfl, rfl, rfl, rfl, fun _ _ => rfl⟩
    simp only [deficit]
    omega
  · cases h

/-! ## Issuing a token -/

theorem payFromCaptured_pays (h : s.payFromCaptured env id tokenId membershipPrice = .ok s') :
    ∃ s1, Pays s s1 0 0 ∧ s' = s1.captureData id none := by
  unfold payFromCaptured at h
  simp only at h
  split at h
  · cases h
  split at h
  · cases h
  obtain ⟨⟨fee, s1⟩, hfee, h⟩ := bind_ok.1 h
  obtain ⟨_, hsurplus, h⟩ := bind_ok.1 h
  obtain ⟨_, rfl⟩ := checkedSub_eq_ok hsurplus
  obtain ⟨s2, hin, h⟩ := bind_ok.1 h
  obtain ⟨s3, hrelease, h⟩ := bind_ok.1 h
  cases h
  have hrenewal := setMembershipRenewalPrice_pays tokenId membershipPrice s
  have hreceived : Pays s1 s2 (membershipPrice - fee : Nat) 0 :=
    ifPositive_pays (fun _ => transferIn_pays) (by omega) hin
  have hall := ((hrenewal.trans (collectProtocolFee_pays hfee)).trans hreceived).trans
    (releaseCapturedValue_pays hrelease)
  exact ⟨s3, hall.mono (by omega), rfl⟩

structure Issues (env : Env) (id : Bytes32) (s s' : Space) : Prop where
  captured : ∃ sender receiver, s.transactionData id = some (sender, receiver)
  deficit : s'.deficit ≤ s.deficit
  tokenBalance : s.tokenBalance ≤ s'.tokenBalance
  transactionData : ∃ price, s.getMembershipPrice env s.totalSupply = .ok price ∧
    s'.transactionData =
      if price > 0 then update s.transactionData id none
      else s.transactionData
  transactionNonce : s'.transactionNonce = s.transactionNonce
  transactions : s'.transactions = s.transactions
  membershipMaxSupply : s'.membershipMaxSupply = s.membershipMaxSupply
  freeAllocation : s'.freeAllocation = s.freeAllocation
  currentIndex : s'.currentIndex = s.currentIndex + 1
  burnCounter : s'.burnCounter = s.burnCounter

theorem issueToken_issues (h : s.issueToken env id = .ok s') : Issues env id s s' := by
  unfold issueToken at h
  split at h
  · cases h
  rename_i sender receiver hdata
  obtain ⟨price, hprice, h⟩ := bind_ok.1 h
  obtain ⟨_, hpay, h⟩ := bind_ok.1 h
  obtain ⟨_, hmint, h⟩ := bind_ok.1 h
  have hafter := (safeMint_pays hmint).trans (renewSubscription_pays h)
  -- a positive price is paid from the captured value
  unfold ifPositive at hpay
  split at hpay
  · rename_i hpositive
    obtain ⟨s0, hpaid, rfl⟩ := payFromCaptured_pays hpay
    refine ⟨⟨sender, receiver, hdata⟩, ?_, ?_, ⟨price, hprice, ?_⟩, ?_, ?_, ?_, ?_, ?_, ?_⟩
    · have hd : s'.deficit ≤ s0.deficit + (0 + 0) := hafter.deficit
      have hd0 := hpaid.deficit
      omega
    · exact le_trans hpaid.tokenBalance hafter.tokenBalance
    · rw [if_pos hpositive, hafter.transactionData, ← hpaid.transactionData]
      rfl
    · exact hafter.transactionNonce.trans hpaid.transactionNonce
    · exact hafter.transactions.trans hpaid.transactions
    · exact hafter.membershipMaxSupply.trans hpaid.membershipMaxSupply
    · exact hafter.freeAllocation.trans hpaid.freeAllocation
    · rw [hafter.currentIndex, ← add_zero s.currentIndex, ← hpaid.currentIndex]
      rfl
    · exact hafter.burnCounter.trans hpaid.burnCounter
  · rename_i hzero
    cases hpay
    have hd := hafter.deficit
    refine ⟨⟨sender, receiver, hdata⟩, by omega, hafter.tokenBalance, ⟨price, hprice, ?_⟩,
      hafter.transactionNonce, hafter.transactions, hafter.membershipMaxSupply,
      hafter.freeAllocation, hafter.currentIndex, hafter.burnCounter⟩
    rw [if_neg hzero]
    exact hafter.transactionData

/-! ## The loops of `joinSpace` -/

def Requests (env : Env) : Transaction → Transaction → Prop :=
  Relation.ReflTransGen fun t t' => ∃ entitlement roleId selectedNodes,
    t' = t.requested env.sender entitlement roleId selectedNodes

theorem requested_hasBenSet (clientAddress entitlement : Address) (roleId : Nat)
    (selectedNodes : List Address) (t : Transaction) :
    (t.requested clientAddress entitlement roleId selectedNodes).hasBenSet = true := by
  unfold Transaction.requested
  split
  · rfl
  · rename_i hset
    exact (Bool.not_eq_false _).mp hset

theorem setTransaction_self (id : Bytes32) (s : Space) :
    s.setTransaction id (s.transactions id) = s := by
  unfold setTransaction
  rw [update_eq_self]

@[simp] theorem setTransaction_transactions_self (id : Bytes32)
    (transaction : Transaction) (s : Space) :
    (s.setTransaction id transaction).transactions id = transaction :=
  update_self ..

theorem setTransaction_setTransaction (id : Bytes32) (t t' : Transaction) (s : Space) :
    (s.setTransaction id t).setTransaction id t'
      = s.setTransaction id t' := by
  unfold setTransaction
  simp only [update_idem]

inductive Checked (env : Env) (id : Bytes32) (s : Space) (pending : Bool)
    (entitlements : List Entitlement) : JoinProgress → Space → Prop where
  | issued {t : Transaction} {before after : List Entitlement} {s' : Space}
      (requests : Requests env (s.transactions id) t)
      (split : entitlements = before ++ .localCheck true :: after)
      (unmet : .localCheck true ∉ before)
      (crosschain : t = s.transactions id ∨ ∃ e, .crosschain e ∈ before)
      (issue : (s.setTransaction id t).issueToken env id = .ok s') :
      Checked env id s pending entitlements .issued s'
  | checking {t : Transaction} {p r : Bool}
      (requests : Requests env (s.transactions id) t)
      (unmet : .localCheck true ∉ entitlements)
      (crosschain : (p = pending ∧ t = s.transactions id) ∨
        (p = true ∧ ∃ e, .crosschain e ∈ entitlements)) :
      Checked env id s pending entitlements (.checking p r)
        (s.setTransaction id t)

variable {pending : Bool} {refund : Bool}

theorem Checked.nil : Checked env id s pending [] (.checking pending refund) s := by
  have hnone : Checked env id s pending [] (.checking pending refund)
      (s.setTransaction id (s.transactions id)) :=
    .checking .refl not_mem_nil (.inl ⟨rfl, rfl⟩)
  rwa [setTransaction_self] at hnone

theorem Checked.append {es es' : List Entitlement} {p : Bool}
    (hrequests : Requests env (s.transactions id) t) (hunmet : .localCheck true ∉ es)
    (hcrosschain : (p = pending ∧ t = s.transactions id) ∨ (p = true ∧ ∃ e, .crosschain e ∈ es))
    (h : Checked env id (s.setTransaction id t) p es' progress s') :
    Checked env id s pending (es ++ es') progress s' := by
  cases h with
  | @issued t' before after s' requests split unmet crosschain issue =>
    rw [setTransaction_transactions_self] at requests crosschain
    rw [setTransaction_setTransaction] at issue
    refine .issued (hrequests.trans requests) (by rw [split, append_assoc]) ?_ ?_ issue
    · rw [mem_append]
      exact fun hmem => hmem.elim hunmet unmet
    rcases crosschain with rfl | ⟨e, he⟩
    · rcases hcrosschain with ⟨-, ht⟩ | ⟨-, e, he⟩
      · exact .inl ht
      · exact .inr ⟨e, mem_append_left _ he⟩
    · exact .inr ⟨e, mem_append_right _ he⟩
  | @checking t' p' r requests unmet crosschain =>
    rw [setTransaction_transactions_self] at requests crosschain
    rw [setTransaction_setTransaction]
    refine .checking (hrequests.trans requests) ?_ ?_
    · rw [mem_append]
      exact fun hmem => hmem.elim hunmet unmet
    rcases crosschain with ⟨rfl, rfl⟩ | ⟨hp, e, he⟩
    · rcases hcrosschain with ⟨hp, ht⟩ | ⟨hp, e, he⟩
      · exact .inl ⟨hp, ht⟩
      · exact .inr ⟨hp, e, mem_append_left _ he⟩
    · exact .inr ⟨hp, e, mem_append_right _ he⟩

variable {roleId : Nat}

theorem requestEntitlementCheck_eq_ok
    (h : s.requestEntitlementCheck env id entitlement roleId = .ok s') :
    ∃ selectedNodes, s' = s.setTransaction id
      ((s.transactions id).requested env.sender entitlement roleId selectedNodes) := by
  unfold requestEntitlementCheck at h
  simp only at h
  split at h
  · cases h
  split at h
  · cases h
  · rename_i selectedNodes _
    cases h
    exact ⟨selectedNodes, rfl⟩

def enabledEntitlements (roles : List Role) : List Entitlement :=
  roles.flatMap fun role => if role.disabled = true then [] else role.entitlements

def enabledChecks (roles : List Role) : List (Nat × Entitlement) :=
  roles.flatMap fun role =>
    if role.disabled = true then [] else role.entitlements.map fun e => (role.id, e)

theorem map_enabledChecks (roles : List Role) :
    (enabledChecks roles).map Prod.snd = enabledEntitlements roles := by
  unfold enabledChecks enabledEntitlements
  rw [map_flatMap]
  congr 1
  funext role
  split
  · rfl
  · rw [map_map]
    exact map_id _

def checkAll (env : Env) (id : Bytes32) :
    List (Nat × Entitlement) → Bool → Bool → Space → Result (JoinProgress × Space)
  | [], pending, refund, s => .ok (.checking pending refund, s)
  | (_, .localCheck isEntitled) :: rest, pending, _, s =>
    if isEntitled = true then do
      let s ← s.issueToken env id
      .ok (.issued, s)
    else checkAll env id rest pending true s
  | (roleId, .crosschain entitlement) :: rest, _, _, s => do
    let s ← s.requestEntitlementCheck env id entitlement roleId
    checkAll env id rest true false s

theorem checkAll_append (id : Bytes32) (roleId : Nat) (entitlements : List Entitlement)
    (rest : List (Nat × Entitlement)) (pending refund : Bool) :
    checkAll env id (entitlements.map (fun e => (roleId, e)) ++ rest) pending refund s
      = (do
        let (progress, s) ← checkEntitlements env id roleId entitlements pending refund s
        match progress with
        | .issued => .ok (.issued, s)
        | .checking pending refund => checkAll env id rest pending refund s) := by
  induction entitlements generalizing pending refund s with
  | nil => rfl
  | cons entitlement entitlements ih =>
    cases entitlement with
    | localCheck isEntitled =>
      rw [map_cons, cons_append, checkAll, checkEntitlements]
      split
      · cases s.issueToken env id <;> rfl
      · exact ih ..
    | crosschain entitlement =>
      rw [map_cons, cons_append, checkAll, checkEntitlements]
      cases s.requestEntitlementCheck env id entitlement roleId with
      | error r => rfl
      | ok s1 => exact ih ..

theorem checkRoles_eq_checkAll (id : Bytes32) (roles : List Role) (pending refund : Bool) :
    checkRoles env id roles pending refund s
      = checkAll env id (enabledChecks roles) pending refund s := by
  induction roles generalizing pending refund s with
  | nil => rfl
  | cons role rest ih =>
    rw [checkRoles, enabledChecks, flatMap_cons]
    split
    · exact ih ..
    · rw [checkAll_append]
      simp only [ih]
      rfl

theorem checkRoles_checked (h : checkRoles env id roles pending refund s = .ok (progress, s')) :
    Checked env id s pending (enabledEntitlements roles) progress s' := by
  rw [checkRoles_eq_checkAll] at h
  rw [← map_enabledChecks]
  generalize enabledChecks roles = checks at h ⊢
  induction checks generalizing pending refund s with
  | nil =>
    cases h
    exact .nil
  | cons check rest ih =>
    obtain ⟨roleId, entitlement⟩ := check
    cases entitlement with
    | localCheck isEntitled =>
      rw [checkAll] at h
      split at h
      · rename_i hmet
        subst hmet
        obtain ⟨s1, hissue, h⟩ := bind_ok.1 h
        cases h
        rw [← setTransaction_self id s] at hissue
        exact .issued .refl (nil_append _).symm not_mem_nil (.inl rfl) hissue
      · rename_i hunmet
        have hhead : Entitlement.localCheck true ∉ [.localCheck isEntitled] := by
          intro hmem
          cases mem_singleton.1 hmem
          exact hunmet rfl
        have hrest := ih h
        rw [← setTransaction_self id s] at hrest
        exact .append .refl hhead (.inl ⟨rfl, rfl⟩) hrest
    | crosschain entitlement =>
      obtain ⟨s1, hrequest, h⟩ := bind_ok.1 h
      obtain ⟨selectedNodes, rfl⟩ := requestEntitlementCheck_eq_ok hrequest
      have hhead : Entitlement.localCheck true ∉ [.crosschain entitlement] := by
        intro hmem
        cases mem_singleton.1 hmem
      exact .append (.single ⟨entitlement, roleId, selectedNodes, rfl⟩) hhead
        (.inr ⟨rfl, entitlement, mem_singleton.2 rfl⟩) (ih h)

/-! ## The calls that settle joins -/

def nextTransactionId (env : Env) (s : Space) : Bytes32 :=
  let keyHash := env.keccak256 [env.sender, env.blockNumber]
  makeDispatchId env keyHash env.sender (s.transactionNonce keyHash)

def register (env : Env) (receiver : Address) (s : Space) : Space :=
  ((s.receive env).useDispatchNonce (env.keccak256 [env.sender, env.blockNumber])).2.captureData
    (s.nextTransactionId env) (some (env.sender, receiver))

variable {receiver : Address}

theorem joinSpace_eq_ok (h : s.joinSpace env receiver = .ok s') :
    s.validateJoinSpace receiver = .ok () ∧
    ∃ s1 progress s2,
      Pays (s.register env receiver) s1 env.value 0 ∧
      Checked env (s.nextTransactionId env) s1 false (enabledEntitlements env.rolesWithJoinSpace)
        progress s2 ∧
      ((progress = .checking false true ∧ s2.rejectJoin env (s.nextTransactionId env) = .ok s') ∨
        (progress ≠ .checking false true ∧ s' = s2)) := by
  obtain ⟨_, hvalid, h⟩ := bind_ok.1 h
  obtain ⟨s1, hcapture, h⟩ := bind_ok.1 h
  obtain ⟨⟨progress, s2⟩, hroles, h⟩ := bind_ok.1 h
  refine ⟨hvalid, s1, progress, s2, ?_, checkRoles_checked hroles, ?_⟩
  · exact ifPositive_pays (fun _ => captureValue_pays) (by omega) hcapture
  by_cases hprogress : progress = .checking false true
  · subst hprogress
    exact .inl ⟨rfl, h⟩
  refine .inr ⟨hprogress, ?_⟩
  rcases progress with _ | ⟨_ | _, _ | _⟩
  case checking.false.true => exact absurd rfl hprogress
  all_goals
    cases h
    rfl

theorem rejectJoin_pays (h : s.rejectJoin env id = .ok s') : Pays (s.captureData id none) s' 0 0 :=
  ifPositive_pays (fun _ hrelease => (releaseCapturedValue_pays hrelease).mono (by omega))
    (fun _ => Int.le_refl 0) h

theorem joinSpaceWithReferral_eq_ok
    (h : s.joinSpaceWithReferral env receiver referrer referralCode = .ok s') :
    s.validateJoinSpace receiver = .ok () ∧
    ∃ price : Nat, s.getMembershipPrice env s.totalSupply = .ok price ∧
      Pays s s' (price - env.value) 1 := by
  obtain ⟨_, hvalid, h⟩ := bind_ok.1 h
  obtain ⟨price, hprice, h⟩ := bind_ok.1 h
  obtain ⟨_, hpay, h⟩ := bind_ok.1 h
  obtain ⟨_, hmint, h⟩ := bind_ok.1 h
  have hpaid := (receive_pays env s).trans
    (ifPositive_pays (fun _ => payWithReferral_pays) (by omega) hpay)
  have hminted := (hpaid.trans (safeMint_pays hmint)).trans (renewSubscription_pays h)
  exact ⟨hvalid, price, hprice, hminted.mono (by omega)⟩

theorem renewMembership_eq_ok (h : s.renewMembership env tokenId = .ok s') :
    ∃ price : Nat, s.getMembershipRenewalPrice env tokenId s.totalSupply = .ok price ∧
      Pays s s' (price - env.value) 0 := by
  obtain ⟨_, -, h⟩ := bind_ok.1 h
  split at h
  · cases h
  obtain ⟨_, -, h⟩ := bind_ok.1 h
  split at h
  · cases h
  obtain ⟨price, hprice, h⟩ := bind_ok.1 h
  obtain ⟨_, hpay, h⟩ := bind_ok.1 h
  have hpaid := (receive_pays env s).trans
    (ifPositive_pays (fun _ => payRenewal_pays) (by omega) hpay)
  exact ⟨price, hprice, (hpaid.trans (renewSubscription_pays h)).mono (by omega)⟩

theorem withdraw_pays (h : s.withdraw env account = .ok s') : Pays s s' s.tokenBalance 0 := by
  unfold withdraw at h
  iterate 4
    split at h
    · cases h
  exact transferCurrency_pays h

def majority (votes : List NodeVote) (passed failed : Nat) : Option NodeVoteStatus :=
  if passed > votes.length / 2 ∨ failed > votes.length / 2 then
    some (if passed > failed then .passed else .failed)
  else none

def voteDecides (env : Env) (id : Bytes32) (roleId : Nat) (result : NodeVoteStatus)
    (s : Space) : Option NodeVoteStatus :=
  match countVotes env.sender result ((s.transactions id).nodeVotesArray roleId) with
  | .ok (votes, _, passed, failed) => majority votes passed failed
  | .error _ => none

def decided (id : Bytes32) (roleId : Nat) (votes : List NodeVote) (s : Space) : Space :=
  s.setTransaction id
    (((s.transactions id).withVotes roleId votes).completed roleId)

inductive Voted (env : Env) (id : Bytes32) (roleId : Nat) (s : Space)
    (votes : List NodeVote) : Option NodeVoteStatus → Space → Prop where
  | counted :
      Voted env id roleId s votes none
        (s.setTransaction id ((s.transactions id).withVotes roleId votes))
  | issued {s1 : Space} (issues : Issues env id (s.decided id roleId votes) s1) :
      Voted env id roleId s votes (some .passed) (s1.removeTransaction id)
  | rejected {s1 : Space}
      (captured : ∃ sender receiver, s.transactionData id = some (sender, receiver))
      (refund : Pays ((s.decided id roleId votes).captureData id none) s1 0 0) :
      Voted env id roleId s votes (some .failed) (s1.removeTransaction id)

theorem onEntitlementCheckResultPosted_voted (hresult : result ≠ .notVoted)
    (h : (s.decided id roleId votes).onEntitlementCheckResultPosted env id result = .ok s') :
    Voted env id roleId s votes (some result) (s'.removeTransaction id) := by
  unfold onEntitlementCheckResultPosted at h
  cases result with
  | notVoted => exact absurd rfl hresult
  | passed =>
    exact .issued (issueToken_issues h)
  | failed =>
    rw [if_neg NodeVoteStatus.noConfusion] at h
    split at h
    · cases h
    · rename_i sender receiver hdata
      exact .rejected ⟨sender, receiver, hdata⟩ (refundBalance_pays h)

theorem postEntitlementCheckResult_counted
    (h : s.postEntitlementCheckResult env id roleId result = .ok s') :
    (s.transactions id).hasBenSet = true ∧
    ∃ votes passed failed,
      countVotes env.sender result ((s.transactions id).nodeVotesArray roleId)
        = .ok (votes, true, passed, failed) ∧
      s.voteDecides env id roleId result = majority votes passed failed ∧
      ((majority votes passed failed = none ∧ s' = s.setTransaction id
          ((s.transactions id).withVotes roleId votes)) ∨
        ∃ decision s1, majority votes passed failed = some decision ∧ decision ≠ .notVoted ∧
          (s.decided id roleId votes).onEntitlementCheckResultPosted env id
            decision = .ok s1 ∧
          s' = s1.removeTransaction id) := by
  unfold postEntitlementCheckResult at h
  simp only at h
  split at h
  · cases h
  split at h
  · cases h
  rename_i hset
  split at h
  · cases h
  obtain ⟨⟨votes, _, passed, failed⟩, hcount, h⟩ := bind_ok.1 h
  split at h
  · cases h
  rename_i hfound
  rw [Bool.not_eq_false] at hfound
  subst hfound
  rw [not_or, Bool.not_eq_false] at hset
  refine ⟨hset.2, votes, passed, failed, hcount, by rw [voteDecides, hcount], ?_⟩
  by_cases hmajority : passed > votes.length / 2 ∨ failed > votes.length / 2
  · rw [if_pos hmajority] at h
    rw [majority, if_pos hmajority]
    obtain ⟨s1, hposted, h⟩ := bind_ok.1 h
    cases h
    refine .inr ⟨_, s1, rfl, ?_, hposted, rfl⟩
    split <;> exact NodeVoteStatus.noConfusion
  · rw [if_neg hmajority] at h
    rw [majority, if_neg hmajority]
    cases h
    exact .inl ⟨rfl, rfl⟩

theorem postEntitlementCheckResult_eq_ok
    (h : s.postEntitlementCheckResult env id roleId result = .ok s') :
    (s.transactions id).hasBenSet = true ∧
    ∃ votes passed failed,
      countVotes env.sender result ((s.transactions id).nodeVotesArray roleId)
        = .ok (votes, true, passed, failed) ∧
      s.voteDecides env id roleId result = majority votes passed failed ∧
      Voted env id roleId s votes (majority votes passed failed) s' := by
  obtain ⟨hset, votes, passed, failed, hcount, hdecides, hend⟩ :=
    postEntitlementCheckResult_counted h
  refine ⟨hset, votes, passed, failed, hcount, hdecides, ?_⟩
  rcases hend with ⟨hnone, rfl⟩ | ⟨_, _, hsome, hvoted, hposted, rfl⟩
  · rw [hnone]
    exact .counted
  · rw [hsome]
    exact onEntitlementCheckResultPosted_voted hvoted hposted

/-! ## Settings, and calls in general -/

theorem ifOwner_eq_ok (h : ifOwner env r = .ok s') : r = .ok s' := by
  unfold ifOwner at h
  split at h
  · cases h
  split at h
  · cases h
  · exact h

theorem setMembershipLimit_eq_ok (h : s.setMembershipLimit env newLimit = .ok s') :
    s.totalSupply ≤ newLimit ∧ s' = { s with membershipMaxSupply := newLimit } := by
  have h := ifOwner_eq_ok h
  split at h
  · cases h
  · rename_i hlimit
    cases h
    exact ⟨not_lt.1 hlimit, rfl⟩

theorem setMembershipFreeAllocation_eq_ok
    (h : s.setMembershipFreeAllocation env newAllocation = .ok s') :
    s' = { s with freeAllocation := newAllocation } := by
  have h := ifOwner_eq_ok h
  split at h
  · cases h
  split at h
  · cases h
  · cases h
    rfl

theorem setMembershipPricingModule_eq_ok {pricingModule : Address}
    (h : s.setMembershipPricingModule env pricingModule = .ok s') :
    s' = { s with pricingModule := pricingModule } := by
  have h := ifOwner_eq_ok h
  split at h
  · cases h
  split at h
  · cases h
  · cases h
    rfl

theorem out_of_ok (h : call.run env s = .ok s') : spaceMachine.out s (env, call) = none :=
  Lib.Machine.out_ofCall_ok h

theorem out_of_error (h : call.run env s = .error r) : spaceMachine.out s (env, call) = some r :=
  Lib.Machine.out_ofCall_error h

theorem next_cases (s : Space) (env : Env) (call : Call) :
    call.run env s = .ok (spaceMachine.next s (env, call)) ∨
    ((∃ r, call.run env s = .error r) ∧ spaceMachine.next s (env, call) = s) := by
  cases h : call.run env s with
  | ok s' =>
    have hnext : spaceMachine.next s (env, call) = s' := Lib.Machine.next_ofCall_ok h
    rw [hnext]
    exact .inl rfl
  | error r => exact .inr ⟨⟨r, rfl⟩, Lib.Machine.next_ofCall_error h⟩

end Space

end River.Contracts
