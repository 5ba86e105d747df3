/-
  A join leads to one token at most.

  After a token was issued for an id, its votes must not find both the registered transaction and
  the captured data (`IssuedOnce.settled`).
-/

import River.Contracts.Effects

namespace River.Contracts

open Function List Space

/-! ## Transaction ids -/

def dispatchId (keccak256 : List Nat → Bytes32) (sender : Address) (blockNumber nonce : Nat) :
    Bytes32 :=
  keccak256 [keccak256 [sender, blockNumber],
    keccak256 [keccak256 [sender, blockNumber], sender, nonce]]

namespace Space

variable {env : Env} {s s' : Space} {keccak256 : List Nat → Bytes32}

def Used (keccak256 : List Nat → Bytes32) (s : Space) (tid : Bytes32) : Prop :=
  ∃ sender blockNumber nonce, tid = dispatchId keccak256 sender blockNumber nonce ∧
    nonce < s.transactionNonce (keccak256 [sender, blockNumber])

theorem not_used_nextTransactionId (hinj : Injective keccak256)
    (henv : env.keccak256 = keccak256) : ¬ s.Used keccak256 (s.nextTransactionId env) := by
  rintro ⟨_, _, _, hid, hlt⟩
  have hdispatch : s.nextTransactionId env = dispatchId keccak256 env.sender env.blockNumber
      (s.transactionNonce (keccak256 [env.sender, env.blockNumber])) := by
    rw [← henv]
    rfl
  rw [hdispatch] at hid
  have houter := hinj hid
  simp only [cons.injEq, and_true] at houter
  obtain ⟨hkey, hseed⟩ := houter
  have hinner := hinj hseed
  simp only [cons.injEq, and_true] at hinner
  obtain ⟨-, -, hnonce⟩ := hinner
  rw [← hkey, ← hnonce] at hlt
  exact Nat.lt_irrefl _ hlt

variable {tid : Bytes32}

theorem Used.mono (h : s.Used keccak256 tid)
    (hnonce : ∀ keyHash, s.transactionNonce keyHash ≤ s'.transactionNonce keyHash) :
    s'.Used keccak256 tid := by
  obtain ⟨sender, blockNumber, nonce, hid, hlt⟩ := h
  exact ⟨sender, blockNumber, nonce, hid, Nat.lt_of_lt_of_le hlt (hnonce _)⟩

/-! ## What a join does to the storage of joins -/

def metAfterRequest : List Entitlement → Bool
  | [] => false
  | .localCheck isEntitled :: rest => if isEntitled then false else metAfterRequest rest
  | .crosschain _ :: rest => rest.any fun e => e matches .localCheck true

theorem metAfterRequest_of_split {before after : List Entitlement}
    (hunmet : .localCheck true ∉ before) (hcrosschain : .crosschain e ∈ before) :
    metAfterRequest (before ++ .localCheck true :: after) = true := by
  induction before with
  | nil => exact absurd hcrosschain not_mem_nil
  | cons entitlement before ih =>
    have hrest : .localCheck true ∉ before := fun hmem => hunmet (mem_cons_of_mem _ hmem)
    cases entitlement with
    | localCheck isEntitled =>
      have hfalse : isEntitled = false := by
        rw [← Bool.not_eq_true]
        rintro rfl
        exact hunmet mem_cons_self
      have hmem : .crosschain e ∈ before := by
        rcases mem_cons.1 hcrosschain with heq | hmem
        · cases heq
        · exact hmem
      rw [hfalse]
      exact ih hrest hmem
    | crosschain entitlement =>
      rw [cons_append, metAfterRequest]
      simp

structure Joined (env : Env) (receiver : Address) (s s' : Space) : Prop where
  transactionNonce : s'.transactionNonce =
    update s.transactionNonce (env.keccak256 [env.sender, env.blockNumber])
      (s.transactionNonce (env.keccak256 [env.sender, env.blockNumber]) + 1)
  others : ∀ id, id ≠ s.nextTransactionId env →
    s'.transactions id = s.transactions id ∧ s'.transactionData id = s.transactionData id
  outcome :
    (s'.currentIndex = s.currentIndex + 1 ∧
      (∃ price, s.getMembershipPrice env s.totalSupply = .ok price ∧
        (price > 0 → s'.transactionData (s.nextTransactionId env) = none)) ∧
      (s'.transactions (s.nextTransactionId env) = s.transactions (s.nextTransactionId env) ∨
        metAfterRequest (enabledEntitlements env.rolesWithJoinSpace) = true)) ∨
    (s'.currentIndex = s.currentIndex ∧
      (s'.transactions (s.nextTransactionId env) = s.transactions (s.nextTransactionId env) ∨
        s'.transactionData (s.nextTransactionId env) = some (env.sender, receiver)))

theorem Pays.of_register (h : Pays (s.register env receiver) s' cost 0) :
    s'.transactions = s.transactions ∧
    s'.transactionData = update s.transactionData (s.nextTransactionId env)
      (some (env.sender, receiver)) ∧
    s'.totalSupply = s.totalSupply ∧
    ∀ n, s'.getMembershipPrice env n = s.getMembershipPrice env n :=
  ⟨h.transactions, h.transactionData, h.totalSupply, fun n => h.getMembershipPrice env n⟩

variable {id : Bytes32}

theorem setTransaction_transactions_of_ne (h : id ≠ tid) (transaction : Transaction) (s : Space) :
    (s.setTransaction tid transaction).transactions id = s.transactions id :=
  update_of_ne h ..

theorem joinSpace_joined (h : s.joinSpace env receiver = .ok s') : Joined env receiver s s' := by
  obtain ⟨-, s1, _, s2, hcaptured, hchecked, hend⟩ := joinSpace_eq_ok h
  obtain ⟨htx, hdata, hsupply, hprice⟩ := hcaptured.of_register
  cases hchecked with
  | @issued t before after _ _ split unmet crosschain issue =>
    have hs' : s' = s2 := by
      rcases hend with ⟨habsurd, -⟩ | ⟨-, hs'⟩
      · cases habsurd
      · exact hs'
    subst hs'
    have hissues := issueToken_issues issue
    obtain ⟨price, hp, hdata'⟩ := hissues.transactionData
    have hp' : s.getMembershipPrice env s.totalSupply = .ok price := by
      rw [← hprice, ← hsupply]
      exact hp
    have htx' : s'.transactions (s.nextTransactionId env) = t := by
      rw [hissues.transactions, setTransaction_transactions_self]
    refine ⟨?_, ?_, .inl ⟨?_, ⟨price, hp', ?_⟩, ?_⟩⟩
    · exact hissues.transactionNonce.trans hcaptured.transactionNonce
    · intro id hid
      rw [hissues.transactions, setTransaction_transactions_of_ne hid, htx, hdata']
      refine ⟨rfl, ?_⟩
      have hdata1 : s1.transactionData id = s.transactionData id := by
        rw [hdata, update_of_ne hid]
      split
      · rw [update_of_ne hid]
        exact hdata1
      · exact hdata1
    · rw [hissues.currentIndex]
      exact congrArg (· + 1) hcaptured.currentIndex
    · intro hpositive
      rw [hdata', if_pos hpositive, update_self]
    · rw [htx', ← htx, split]
      rcases crosschain with hsame | ⟨e, he⟩
      · exact .inl hsame
      · exact .inr (metAfterRequest_of_split unmet he)
  | @checking t p r _ unmet crosschain =>
    rw [htx] at crosschain
    rcases hend with ⟨hreject, hrejected⟩ | ⟨-, rfl⟩
    · -- a rejected join has made no requests
      cases hreject
      have hsame : t = s.transactions (s.nextTransactionId env) := by
        rcases crosschain with ⟨-, hsame⟩ | ⟨hpending, -⟩
        · exact hsame
        · cases hpending
      have hpays := rejectJoin_pays hrejected
      have htx' : s'.transactions (s.nextTransactionId env)
          = s.transactions (s.nextTransactionId env) := by
        rw [hpays.transactions, ← hsame]
        exact setTransaction_transactions_self ..
      refine ⟨?_, ?_, .inr ⟨?_, .inl htx'⟩⟩
      · exact hpays.transactionNonce.trans hcaptured.transactionNonce
      · intro id hid
        rw [hpays.transactions, hpays.transactionData]
        constructor
        · rw [← htx]
          exact setTransaction_transactions_of_ne hid ..
        · refine (update_of_ne hid ..).trans ?_
          exact (congrFun hdata id).trans (update_of_ne hid ..)
      · exact hpays.currentIndex.trans hcaptured.currentIndex
    · refine ⟨hcaptured.transactionNonce, ?_, .inr ⟨hcaptured.currentIndex, .inr ?_⟩⟩
      · intro id hid
        rw [setTransaction_transactions_of_ne hid, htx]
        exact ⟨rfl, (congrFun hdata id).trans (update_of_ne hid ..)⟩
      · exact (congrFun hdata _).trans (update_self ..)

/-! ## The storage of ids that were not used -/

structure Quiet (s s' : Space) : Prop where
  transactions : s'.transactions = s.transactions
  transactionData : s'.transactionData = s.transactionData
  transactionNonce : s'.transactionNonce = s.transactionNonce

theorem Pays.quiet (h : Pays s s' cost minted) : Quiet s s' :=
  ⟨h.transactions, h.transactionData, h.transactionNonce⟩

def settledId (s : Space) : Env × Call → Option Bytes32
  | (env, .joinSpace _) => some (s.nextTransactionId env)
  | (_, .postEntitlementCheckResult tid _ _) => some tid
  | _ => none

theorem run_cases {call : Call} (h : call.run env s = .ok s') :
    (∃ receiver, call = .joinSpace receiver ∧ Joined env receiver s s') ∨
    (∃ tid roleId result,
      call = .postEntitlementCheckResult tid roleId result ∧
      s.postEntitlementCheckResult env tid roleId result = .ok s') ∨
    (s.settledId (env, call) = none ∧ Quiet s s') := by
  cases call with
  | joinSpace receiver => exact .inl ⟨receiver, rfl, joinSpace_joined h⟩
  | postEntitlementCheckResult tid roleId result =>
    exact .inr (.inl ⟨tid, roleId, result, rfl, h⟩)
  | joinSpaceWithReferral receiver referrer referralCode =>
    obtain ⟨-, price, -, hpays⟩ := joinSpaceWithReferral_eq_ok h
    exact .inr (.inr ⟨rfl, hpays.quiet⟩)
  | renewMembership tokenId =>
    obtain ⟨price, -, hpays⟩ := renewMembership_eq_ok h
    exact .inr (.inr ⟨rfl, hpays.quiet⟩)
  | withdraw account => exact .inr (.inr ⟨rfl, (withdraw_pays h).quiet⟩)
  | setMembershipLimit newLimit =>
    obtain ⟨-, rfl⟩ := setMembershipLimit_eq_ok h
    exact .inr (.inr ⟨rfl, rfl, rfl, rfl⟩)
  | setMembershipFreeAllocation newAllocation =>
    rw [setMembershipFreeAllocation_eq_ok h]
    exact .inr (.inr ⟨rfl, rfl, rfl, rfl⟩)
  | setMembershipPricingModule pricingModule =>
    rw [setMembershipPricingModule_eq_ok h]
    exact .inr (.inr ⟨rfl, rfl, rfl, rfl⟩)

theorem Voted.others (h : Voted env tid roleId s votes decision s') (hid : id ≠ tid) :
    s'.transactions id = s.transactions id ∧ s'.transactionData id = s.transactionData id := by
  cases h with
  | counted => exact ⟨setTransaction_transactions_of_ne hid .., rfl⟩
  | @issued s1 issues =>
    have htx : (s1.removeTransaction tid).transactions id = s1.transactions id :=
      setTransaction_transactions_of_ne hid ..
    rw [htx, issues.transactions]
    refine ⟨setTransaction_transactions_of_ne hid .., ?_⟩
    show s1.transactionData id = s.transactionData id
    obtain ⟨_, -, hdata⟩ := issues.transactionData
    rw [hdata]
    split
    · exact update_of_ne hid ..
    · rfl
  | @rejected s1 captured refund =>
    have htx : (s1.removeTransaction tid).transactions id = s1.transactions id :=
      setTransaction_transactions_of_ne hid ..
    rw [htx, refund.transactions]
    refine ⟨setTransaction_transactions_of_ne hid .., ?_⟩
    show s1.transactionData id = s.transactionData id
    rw [refund.transactionData]
    exact update_of_ne hid ..

theorem Voted.transactionNonce (h : Voted env tid roleId s votes decision s') :
    s'.transactionNonce = s.transactionNonce := by
  cases h with
  | counted => rfl
  | issued issues => exact issues.transactionNonce
  | rejected captured refund => exact refund.transactionNonce

theorem Joined.nonce_le (h : Joined env receiver s s') (keyHash : Bytes32) :
    s.transactionNonce keyHash ≤ s'.transactionNonce keyHash := by
  rw [h.transactionNonce]
  by_cases hkey : keyHash = env.keccak256 [env.sender, env.blockNumber]
  · rw [hkey, update_self]
    exact Nat.le_succ _
  · rw [update_of_ne hkey]

theorem Joined.used (h : Joined env receiver s s') (henv : env.keccak256 = keccak256) :
    s'.Used keccak256 (s.nextTransactionId env) := by
  refine ⟨env.sender, env.blockNumber,
    s.transactionNonce (keccak256 [env.sender, env.blockNumber]), ?_, ?_⟩
  · rw [← henv]
    rfl
  · rw [h.transactionNonce, henv, update_self]
    exact Nat.lt_succ_self _

def FreshIds (keccak256 : List Nat → Bytes32) (s : Space) : Prop :=
  ∀ id, ¬ s.Used keccak256 id → s.transactions id = .zero

theorem FreshIds.used (h : FreshIds keccak256 s) (hset : (s.transactions id).hasBenSet = true) :
    s.Used keccak256 id := by
  by_contra hunused
  rw [h id hunused] at hset
  cases hset

theorem nonce_le_next (s : Space) (a : Env × Call) (keyHash : Bytes32) :
    s.transactionNonce keyHash ≤ (spaceMachine.next s a).transactionNonce keyHash := by
  obtain ⟨env, call⟩ := a
  rcases s.next_cases env call with hok | ⟨-, hsame⟩
  · rcases run_cases hok with ⟨_, rfl, hjoined⟩ | ⟨_, _, _, rfl, hpost⟩ | ⟨-, hquiet⟩
    · exact hjoined.nonce_le keyHash
    · obtain ⟨-, _, _, _, -, -, hvoted⟩ := postEntitlementCheckResult_eq_ok hpost
      exact Nat.le_of_eq (congrFun hvoted.transactionNonce keyHash).symm
    · exact Nat.le_of_eq (congrFun hquiet.transactionNonce keyHash).symm
  · rw [hsame]

variable {a : Env × Call}

theorem FreshIds.step (h : FreshIds keccak256 s) (ha : a.1.keccak256 = keccak256) :
    FreshIds keccak256 (spaceMachine.next s a) := by
  intro id hunused
  have hbefore : ¬ s.Used keccak256 id :=
    fun hused => hunused (hused.mono (s.nonce_le_next a))
  obtain ⟨env, call⟩ := a
  rcases s.next_cases env call with hok | ⟨-, hsame⟩
  · rcases run_cases hok with ⟨_, rfl, hjoined⟩ | ⟨tid, _, _, rfl, hpost⟩ | ⟨-, hquiet⟩
    · have hid : id ≠ s.nextTransactionId env := by
        rintro rfl
        exact hunused (hjoined.used ha)
      rw [(hjoined.others id hid).1, h id hbefore]
    · obtain ⟨hset, _, _, _, -, -, hvoted⟩ := postEntitlementCheckResult_eq_ok hpost
      have hid : id ≠ tid := by
        rintro rfl
        exact hbefore (h.used hset)
      rw [(hvoted.others hid).1, h id hbefore]
    · rw [hquiet.transactions, h id hbefore]
  · rw [hsame, h id hbefore]

/-! ## Tokens for transaction ids -/

/-- The transaction id of the call, once for each token that it mints. -/
def minted (s : Space) (a : Env × Call) : List Bytes32 :=
  (s.settledId a).toList.flatMap
    (replicate ((spaceMachine.next s a).currentIndex - s.currentIndex))

/-- A join that is settled at once has a price. -/
def SettlesPaid (s : Space) : Env × Call → Prop
  | (env, .joinSpace _) =>
    metAfterRequest (enabledEntitlements env.rolesWithJoinSpace) = true →
      ∀ price, s.getMembershipPrice env s.totalSupply = .ok price → price > 0
  | _ => True

structure IssuedOnce (keccak256 : List Nat → Bytes32) (ids : List Bytes32) (s : Space) : Prop where
  fresh : FreshIds keccak256 s
  nodup : ids.Nodup
  used : ∀ id ∈ ids, s.Used keccak256 id
  settled : ∀ id ∈ ids, s.transactionData id = none ∨ (s.transactions id).hasBenSet = false

theorem minted_of_none (h : s.settledId a = none) : s.minted a = [] := by
  rw [minted, h]
  rfl

theorem minted_of_le (h : (spaceMachine.next s a).currentIndex = s.currentIndex) :
    s.minted a = [] := by
  rw [minted, h, Nat.sub_self]
  cases s.settledId a <;> rfl

theorem minted_of_succ (h : (spaceMachine.next s a).currentIndex = s.currentIndex + 1) :
    s.minted a = (s.settledId a).toList := by
  rw [minted, h, Nat.add_sub_cancel_left]
  cases s.settledId a <;> rfl

theorem removeTransaction_hasBenSet (tid : Bytes32) (s : Space) :
    ((s.removeTransaction tid).transactions tid).hasBenSet = false := by
  rw [removeTransaction, setTransaction_transactions_self]
  rfl

theorem IssuedOnce.join (h : IssuedOnce keccak256 ids s) (hinj : Injective keccak256)
    (henv : env.keccak256 = keccak256) (hpaid : s.SettlesPaid (env, .joinSpace receiver))
    (hjoined : Joined env receiver s (spaceMachine.next s (env, .joinSpace receiver))) :
    IssuedOnce keccak256 (ids ++ s.minted (env, .joinSpace receiver))
      (spaceMachine.next s (env, .joinSpace receiver)) := by
  have hnew : ¬ s.Used keccak256 (s.nextTransactionId env) := not_used_nextTransactionId hinj henv
  have hfresh := h.fresh.step (a := (env, .joinSpace receiver)) henv
  have hnonce := s.nonce_le_next (env, .joinSpace receiver)
  have hold : ∀ id ∈ ids, id ≠ s.nextTransactionId env := by
    rintro id hid rfl
    exact hnew (h.used _ hid)
  have hsettled : ∀ id ∈ ids,
      (spaceMachine.next s (env, .joinSpace receiver)).transactionData id = none ∨
      ((spaceMachine.next s (env, .joinSpace receiver)).transactions id).hasBenSet = false := by
    intro id hid
    rw [(hjoined.others id (hold id hid)).1, (hjoined.others id (hold id hid)).2]
    exact h.settled id hid
  have hused : ∀ id ∈ ids, (spaceMachine.next s (env, .joinSpace receiver)).Used keccak256 id :=
    fun id hid => (h.used id hid).mono hnonce
  rcases hjoined.outcome with ⟨hindex, ⟨price, hprice, hdata⟩, hrequest⟩ | ⟨hindex, -⟩
  · have hminted : s.minted (env, .joinSpace receiver) = [s.nextTransactionId env] :=
      minted_of_succ hindex
    rw [hminted]
    refine ⟨hfresh, ?_, ?_, ?_⟩
    · exact concat_eq_append ▸ h.nodup.concat fun hid => hold _ hid rfl
    · exact forall_mem_append.2 ⟨hused, forall_mem_singleton.2 (hjoined.used henv)⟩
    refine forall_mem_append.2 ⟨hsettled, forall_mem_singleton.2 ?_⟩
    -- without a request the transaction is the empty one; after a request the price is paid
    rcases hrequest with hsame | hmet
    · right
      rw [hsame, h.fresh _ hnew]
      rfl
    · left
      exact hdata (hpaid hmet price hprice)
  · rw [minted_of_le hindex, append_nil]
    exact ⟨hfresh, h.nodup, hused, hsettled⟩

theorem IssuedOnce.vote (h : IssuedOnce keccak256 ids s) (henv : env.keccak256 = keccak256)
    (hset : (s.transactions tid).hasBenSet = true)
    (hvoted : Voted env tid roleId s votes decision
      (spaceMachine.next s (env, .postEntitlementCheckResult tid roleId result))) :
    IssuedOnce keccak256
      (ids ++ s.minted (env, .postEntitlementCheckResult tid roleId result))
      (spaceMachine.next s (env, .postEntitlementCheckResult tid roleId result)) := by
  have hfresh := h.fresh.step (a := (env, .postEntitlementCheckResult tid roleId result)) henv
  have hnonce := s.nonce_le_next (env, .postEntitlementCheckResult tid roleId result)
  generalize ha : (env, Call.postEntitlementCheckResult tid roleId result) = a at *
  generalize hs' : spaceMachine.next s a = s' at *
  have hused : ∀ id ∈ ids, s'.Used keccak256 id := fun id hid => (h.used id hid).mono hnonce
  have hothers : ∀ id ∈ ids, id ≠ tid →
      s'.transactionData id = none ∨ (s'.transactions id).hasBenSet = false := by
    intro id hid hne
    rw [(hvoted.others hne).1, (hvoted.others hne).2]
    exact h.settled id hid
  cases hvoted with
  | counted =>
    rw [minted_of_le (by rw [hs']; rfl), append_nil]
    refine ⟨hfresh, h.nodup, hused, ?_⟩
    intro id hid
    by_cases hne : id = tid
    · -- the vote found the transaction registered, so the data was dropped
      rcases h.settled id hid with hdata | hclosed
      · exact .inl hdata
      · rw [hne, hset] at hclosed
        cases hclosed
    · exact hothers id hid hne
  | @issued s1 issues =>
    have hminted : s.minted a = [tid] := by
      rw [minted_of_succ (by rw [hs']; exact issues.currentIndex), ← ha]
      rfl
    have hnew : tid ∉ ids := by
      intro hmem
      obtain ⟨sender, receiver, hdata⟩ := issues.captured
      rcases h.settled _ hmem with hnone | hclosed
      · have hsome : s.transactionData tid = some (sender, receiver) := hdata
        rw [hnone] at hsome
        cases hsome
      · rw [hset] at hclosed
        cases hclosed
    rw [hminted]
    refine ⟨hfresh, ?_, ?_, ?_⟩
    · exact concat_eq_append ▸ h.nodup.concat hnew
    · exact forall_mem_append.2 ⟨hused, forall_mem_singleton.2 ((h.fresh.used hset).mono hnonce)⟩
    refine forall_mem_append.2 ⟨fun id hid => hothers id hid ?_,
      forall_mem_singleton.2 (.inr (removeTransaction_hasBenSet ..))⟩
    rintro rfl
    exact hnew hid
  | @rejected s1 captured refund =>
    rw [minted_of_le (by rw [hs']; exact refund.currentIndex), append_nil]
    refine ⟨hfresh, h.nodup, hused, ?_⟩
    intro id hid
    by_cases hne : id = tid
    · rw [hne]
      exact .inr (removeTransaction_hasBenSet ..)
    · exact hothers id hid hne

theorem IssuedOnce.step (h : IssuedOnce keccak256 ids s) (hinj : Injective keccak256)
    (ha : a.1.keccak256 = keccak256) (hpaid : s.SettlesPaid a) :
    IssuedOnce keccak256 (ids ++ s.minted a) (spaceMachine.next s a) := by
  obtain ⟨env, call⟩ := a
  rcases s.next_cases env call with hok | ⟨-, hsame⟩
  · rcases run_cases hok with ⟨_, rfl, hjoined⟩ | ⟨id, _, _, rfl, hpost⟩ | ⟨hid, hquiet⟩
    · exact h.join hinj ha hpaid hjoined
    · obtain ⟨hset, _, _, _, -, -, hvoted⟩ := postEntitlementCheckResult_eq_ok hpost
      exact h.vote ha hset hvoted
    rw [minted_of_none hid, append_nil]
    refine ⟨h.fresh.step ha, h.nodup, fun id hid => (h.used id hid).mono (s.nonce_le_next _), ?_⟩
    intro id hid
    rw [hquiet.transactions, hquiet.transactionData]
    exact h.settled id hid
  · rw [minted_of_le (by rw [hsame]), append_nil, hsame]
    exact h

theorem IssuedOnce.create (keccak256 : List Nat → Bytes32) (settings : Settings) (balance : Nat) :
    IssuedOnce keccak256 [] (create settings balance) :=
  ⟨fun _ _ => rfl, nodup_nil, fun _ h => absurd h not_mem_nil,
    fun _ h => absurd h not_mem_nil⟩

end Space

/-- **One token per join.** If no free join is settled by a local entitlement after a request
    to the nodes, then every transaction id has at most one token, in every run. -/
theorem joinSpace_issuedOnce (keccak256 : List Nat → Bytes32) (hinj : Injective keccak256)
    (settings : Settings) (balance : Nat) (calls : List (Env × Call))
    (hkeccak : ∀ a ∈ calls, a.1.keccak256 = keccak256)
    (hpaid : spaceMachine.Along SettlesPaid (create settings balance) calls) (tid : Bytes32) :
    (spaceMachine.collect minted (create settings balance) calls).count tid
      ≤ 1 := by
  have hall := (Lib.Machine.along_of_mem hkeccak (create settings balance)).and hpaid
  have honce := Lib.Machine.collect_invariant (M := spaceMachine) (f := minted)
    (G := fun _ => True) (J := IssuedOnce keccak256) (fun _ _ _ => trivial)
    (fun ids s a h ha _ => h.step hinj ha.1 ha.2) (.create keccak256 settings balance) hall trivial
  exact nodup_iff_count_le_one.1 honce.nodup tid

def firstId : Bytes32 := (create Settings.sample 0).nextTransactionId (Env.call 21 100)

theorem joinSpace_issuedOnce_by_votes :
    let calls := (Env.call 21 100, .joinSpace 21) :: votesOf [11, 12, 13] firstId 1 .passed
    (spaceMachine.exec (create Settings.sample 0) calls).currentIndex = 2 ∧
      (spaceMachine.collect minted (create Settings.sample 0) calls).count firstId
        ≤ 1 := by
  refine ⟨by decide +kernel, ?_⟩
  refine joinSpace_issuedOnce Encodable.encode Encodable.encode_injective .sample 0 _ ?_ ?_ _
  · intro a ha
    rcases mem_cons.1 ha with rfl | ha
    · rfl
    · exact keccak256_of_mem_votesOf ha
  · refine ⟨fun hmet => ?_, trivial, trivial, trivial, trivial⟩
    cases hmet

/-- A free space whose first role asks the nodes and whose second role is local and met: the
    join is settled on the spot and the request stays, so that the votes issue a second token. -/
theorem joinSpace_issued_twice :
    let settings := { Settings.sample with freeAllocation := 10 }
    let env := { Env.call 21 0 with
      rolesWithJoinSpace := [⟨1, false, [.crosschain 9]⟩, ⟨2, false, [.localCheck true]⟩] }
    let id := (create settings 0).nextTransactionId env
    let calls := (env, .joinSpace 21) :: votesOf [11, 12, 13] id 1 .passed
    spaceMachine.collect minted (create settings 0) calls = [id, id] ∧
      (spaceMachine.exec (create settings 0) calls).ownerOf 1 = 21 ∧
      (spaceMachine.exec (create settings 0) calls).ownerOf 2 = 21 := by
  decide +kernel

end River.Contracts
