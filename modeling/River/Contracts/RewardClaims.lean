/-
  Whether a claim pays exactly the entries of the ledger that it clears.
-/

import River.Contracts.RewardConservation
import River.Lib.ReverseIndex

namespace River.Contracts

open River.Lib Function List EnumerableSet MainnetDelegationBase Mapping

inductive LedgerEntry where
  | operator (account : Address)
  | delegator (account : Address)
  deriving DecidableEq

namespace BaseRegistry

/-! ## Clearing entries -/

section Clear

variable (ledger : Mapping Address)

theorem get_clear (accounts : List Address) (account : Address) :
    (clear ledger accounts).get account = if account ∈ accounts then 0 else ledger.get account := by
  unfold clear
  induction accounts generalizing ledger with
  | nil => simp
  | cons first accounts ih =>
    rw [foldl_cons, ih]
    by_cases hfirst : account = first
    · subst hfirst
      simp
    · simp [hfirst, get_set_of_ne _ _ hfirst]

theorem get_clear_set (accounts : List Address) (claimer account : Address) :
    (clear (ledger.set claimer 0) accounts).get account =
      if account = claimer ∨ account ∈ accounts then 0 else ledger.get account := by
  rw [get_clear]
  by_cases hown : account = claimer
  · subst hown
    simp
  · simp [hown, get_set_of_ne _ _ hown]

theorem total_clear {accounts : List Address} (hnodup : accounts.Nodup) :
    (clear ledger accounts).total + (accounts.map ledger.get).sum = ledger.total := by
  unfold clear
  induction accounts generalizing ledger with
  | nil => simp
  | cons first accounts ih =>
    obtain ⟨hnew, hnodup⟩ := nodup_cons.1 hnodup
    have hset := ledger.total_set first 0
    have hrest := ih (ledger.set first 0) hnodup
    have hget : accounts.map (ledger.set first 0).get = accounts.map ledger.get := by
      apply map_congr_left
      intro account hmem
      exact ledger.get_set_of_ne 0 fun heq => hnew (heq ▸ hmem)
    rw [hget] at hrest
    rw [foldl_cons, map_cons, sum_cons]
    omega

theorem total_clear_own (own : Address) {accounts : List Address} (hnodup : accounts.Nodup) :
    (clear (ledger.set own 0) accounts).total + ledger.get own + (accounts.map ledger.get).sum =
      ledger.total + (if own ∈ accounts then ledger.get own else 0) := by
  have hclear := total_clear (ledger.set own 0) hnodup
  have hset := ledger.total_set own 0
  have hsum :
      (accounts.map (ledger.set own 0).get).sum + (if own ∈ accounts then ledger.get own else 0) =
      (accounts.map ledger.get).sum := by
    clear hclear
    induction accounts with
    | nil => simp
    | cons first accounts ih =>
      obtain ⟨hnew, hnodup⟩ := nodup_cons.1 hnodup
      have hrest := ih hnodup
      by_cases hfirst : own = first
      · subst hfirst
        rw [if_neg hnew] at hrest
        simp only [map_cons, sum_cons, mem_cons_self, if_true, get_set_self]
        omega
      · simp only [map_cons, sum_cons, mem_cons, hfirst, false_or,
          ledger.get_set_of_ne 0 (.symm hfirst)]
        omega
  omega

end Clear

section Registry

variable [ERC20Votes]

def entry (s : BaseRegistry) : LedgerEntry → Nat
  | .operator account => s.distributionByOperator.get account
  | .delegator account => s.distributionByDelegator.get account

def paidEntries (s : BaseRegistry) (claimer : Address) : List LedgerEntry :=
  (s.delegatorsForClaimer claimer).map .delegator ++
    (s.operatorsForClaimer claimer).map .operator ++
    [.delegator claimer]

/-- A claim pays what it clears, every entry once. -/
structure ClaimExact (s : BaseRegistry) (claimer : Address) (s' : BaseRegistry) : Prop where
  transferred : s.riverToken.balanceOf s.self + s'.ledgerTotal =
    s'.riverToken.balanceOf s.self + s.ledgerTotal
  once : ∀ e, s.entry e ≠ 0 → s'.entry e = 0 → (s.paidEntries claimer).count e = 1
  cleared : ∀ e ∈ s.paidEntries claimer, s'.entry e = 0

structure RegistryInv (I : RiverToken → Prop) (s : BaseRegistry) : Prop where
  token : I s.riverToken
  operators : Lists s.operatorsByClaimer s.claimerByOperator 0
  unregistered : ∀ operator, operator ∉ s.operators → s.claimerByOperator operator = 0
  unclaimed : ∀ operator, operator ∈ s.operatorsByClaimer 0 ↔
    operator ∈ s.operators ∧ s.claimerByOperator operator = 0
  owners : s.owners = s.operators.values
  ne_zero : 0 ∉ s.operators
  spaces : Lists s.spacesByOperator s.operatorBySpace 0
  delegators : Lists s.mainnetDelegation.delegatorsByAuthorizedClaimer
    s.mainnetDelegation.claimerByDelegator 0

/-! ## The ledger after a claim -/

variable {s s' : BaseRegistry}

theorem sum_paidEntries (s : BaseRegistry) (claimer : Address) :
    ((s.paidEntries claimer).map s.entry).sum =
      ((s.delegatorsForClaimer claimer).map s.distributionByDelegator.get).sum +
        ((s.operatorsForClaimer claimer).map s.distributionByOperator.get).sum +
        s.distributionByDelegator.get claimer := by
  simp only [paidEntries, map_append, map_map, sum_append]
  rfl

theorem getClaimableAmount_ok (h : s.getClaimableAmount claimer = .ok amount) :
    amount = ((s.paidEntries claimer).map s.entry).sum := by
  obtain ⟨_, hdelegators, h⟩ := bind_ok.1 h
  obtain ⟨_, hoperators, h⟩ := bind_ok.1 h
  rw [(addChecked_ok.1 h).2, sumChecked_ok hoperators, sumChecked_ok hdelegators, sum_paidEntries,
    Nat.zero_add]

structure Claimed (s : BaseRegistry) (claimer : Address) (s' : BaseRegistry) : Prop where
  ne_zero : ((s.paidEntries claimer).map s.entry).sum ≠ 0
  delegators : s'.distributionByDelegator =
    clear (s.distributionByDelegator.set claimer 0) (s.delegatorsForClaimer claimer)
  operators : s'.distributionByOperator =
    clear (s.distributionByOperator.set claimer 0) (s.operatorsForClaimer claimer)
  paid : s.self ≠ claimer → s.riverToken.transfer s.self claimer
    ((s.paidEntries claimer).map s.entry).sum = .ok s'.riverToken
  unpaid : s.self = claimer → s'.riverToken = s.riverToken
  rest : s' = { s with
    riverToken := s'.riverToken
    distributionByOperator := s'.distributionByOperator
    distributionByDelegator := s'.distributionByDelegator }

theorem balanceOf_transfer {token token' : RiverToken}
    (h : token.transfer from_ to_ value = .ok token') (hne : from_ ≠ to_) :
    token.balanceOf from_ = token'.balanceOf from_ + value := by
  obtain ⟨hfrom, -, hmoved⟩ := RiverToken.transfer_ok h
  have hsum := hmoved.balances.sums fun account => account = from_
  rw [totalWhere_eq_key, totalWhere_eq_key, if_pos ⟨hfrom, rfl⟩,
    if_neg fun hto => hne hto.2.symm] at hsum
  exact hsum.symm

theorem claim_ok (h : s.claim claimer = .ok s') : Claimed s claimer s' := by
  obtain ⟨_, hamount, h⟩ := bind_ok.1 h
  obtain ⟨hne, h⟩ := ite_error_ok.1 h
  obtain ⟨-, h⟩ := ite_error_ok.1 h
  have hamount := getClaimableAmount_ok hamount
  simp only [transferCurrency, if_neg hne] at h
  by_cases hself : s.self = claimer
  · rw [if_pos hself] at h
    cases h
    exact ⟨hamount ▸ hne, rfl, rfl, fun hother => absurd hself hother, fun _ => rfl, rfl⟩
  · rw [if_neg hself] at h
    split at h
    · rename_i riverToken htransfer
      cases h
      exact ⟨hamount ▸ hne, rfl, rfl, fun _ => hamount ▸ htransfer,
        fun hother => absurd hother hself, rfl⟩
    · cases h

/-! ## When a claim is exact -/

variable {claimer : Address}

theorem delegatorsForClaimer_nodup (s : BaseRegistry) (claimer : Address) :
    (s.delegatorsForClaimer claimer).Nodup :=
  (s.mainnetDelegation.delegatorsByAuthorizedClaimer claimer).nodup

theorem operatorsForClaimer_nodup (s : BaseRegistry) (claimer : Address) :
    (s.operatorsForClaimer claimer).Nodup :=
  (s.operatorsByClaimer claimer).nodup

def listedEntries (s : BaseRegistry) (claimer : Address) : List LedgerEntry :=
  (s.delegatorsForClaimer claimer).map .delegator ++ (s.operatorsForClaimer claimer).map .operator

theorem nodup_listedEntries (s : BaseRegistry) (claimer : Address) :
    (s.listedEntries claimer).Nodup := by
  refine nodup_append.2 ⟨?_, ?_, by simp⟩
  · exact (s.delegatorsForClaimer_nodup claimer).map fun _ _ h => by cases h; rfl
  · exact (s.operatorsForClaimer_nodup claimer).map fun _ _ h => by cases h; rfl

theorem delegator_mem_listedEntries :
    .delegator account ∈ s.listedEntries claimer ↔ account ∈ s.delegatorsForClaimer claimer := by
  simp [listedEntries]

theorem operator_mem_listedEntries :
    .operator account ∈ s.listedEntries claimer ↔ account ∈ s.operatorsForClaimer claimer := by
  simp [listedEntries]

theorem count_paidEntries (e : LedgerEntry) :
    (s.paidEntries claimer).count e =
      (if e ∈ s.listedEntries claimer then 1 else 0) + if .delegator claimer = e then 1 else 0 := by
  show (s.listedEntries claimer ++ [_]).count e = _
  rw [count_append, (s.nodup_listedEntries claimer).count, count_singleton]
  simp only [beq_iff_eq]

variable (h : Claimed s claimer s')

include h

theorem Claimed.entry_eq (e : LedgerEntry) :
    s'.entry e = if e = .delegator claimer ∨ e = .operator claimer ∨ e ∈ s.listedEntries claimer
      then 0 else s.entry e := by
  cases e with
  | delegator account => simp [entry, h.delegators, get_clear_set, delegator_mem_listedEntries]
  | operator account => simp [entry, h.operators, get_clear_set, operator_mem_listedEntries]

theorem Claimed.once_iff :
    (∀ e, s.entry e ≠ 0 → s'.entry e = 0 → (s.paidEntries claimer).count e = 1) ↔
      (claimer ∈ s.delegatorsForClaimer claimer → s.distributionByDelegator.get claimer = 0) ∧
        (s.distributionByOperator.get claimer ≠ 0 → claimer ∈ s.operatorsForClaimer claimer) := by
  constructor
  · intro honce
    constructor
    · intro hmem
      by_contra hne
      have hcount := honce (.delegator claimer) hne (by rw [h.entry_eq, if_pos (.inl rfl)])
      rw [count_paidEntries, if_pos rfl, if_pos (delegator_mem_listedEntries.2 hmem)] at hcount
      omega
    · intro hne
      have hcount := honce (.operator claimer) hne (by rw [h.entry_eq, if_pos (.inr (.inl rfl))])
      by_contra hnot
      simp [count_paidEntries, operator_mem_listedEntries, hnot] at hcount
  · rintro ⟨hdelegator, hoperator⟩ e hne hzero
    rw [h.entry_eq, ite_eq_left_iff] at hzero
    rw [count_paidEntries]
    by_cases hown : .delegator claimer = e
    · -- its own rewards as a delegator are paid at the end of the list
      subst hown
      rw [if_pos rfl, if_neg fun hmem => hne (hdelegator (delegator_mem_listedEntries.1 hmem))]
    · rw [if_neg hown, if_pos]
      by_contra hnot
      by_cases hoperator' : e = .operator claimer
      · subst hoperator'
        exact hnot (operator_mem_listedEntries.2 (hoperator hne))
      · exact hne (hzero (not_or.2 ⟨Ne.symm hown, not_or.2 ⟨hoperator', hnot⟩⟩))

theorem Claimed.cleared : ∀ e ∈ s.paidEntries claimer, s'.entry e = 0 := by
  intro e hmem
  rw [h.entry_eq]
  rcases mem_append.1 hmem with hmem | hmem
  · exact if_pos (.inr (.inr hmem))
  · exact if_pos (.inl (mem_singleton.1 hmem))

theorem Claimed.ledgerTotal_eq
    (hdelegator : claimer ∈ s.delegatorsForClaimer claimer →
      s.distributionByDelegator.get claimer = 0)
    (hoperator : s.distributionByOperator.get claimer ≠ 0 →
      claimer ∈ s.operatorsForClaimer claimer) :
    s.ledgerTotal = s'.ledgerTotal + ((s.paidEntries claimer).map s.entry).sum := by
  have hdelegators := total_clear_own s.distributionByDelegator claimer
    (s.delegatorsForClaimer_nodup claimer)
  have hoperators := total_clear_own s.distributionByOperator claimer
    (s.operatorsForClaimer_nodup claimer)
  rw [← h.delegators] at hdelegators
  rw [← h.operators] at hoperators
  have htwice :
      (if claimer ∈ s.delegatorsForClaimer claimer then s.distributionByDelegator.get claimer
      else 0) = 0 := by
    split
    · rename_i hmem
      exact hdelegator hmem
    · rfl
  have hown : (if claimer ∈ s.operatorsForClaimer claimer then s.distributionByOperator.get claimer
      else 0) = s.distributionByOperator.get claimer := by
    split
    · rfl
    · rename_i hnot
      by_contra hne
      exact hnot (hoperator (.symm hne))
  rw [sum_paidEntries]
  unfold ledgerTotal
  omega

theorem Claimed.exact_iff :
    ClaimExact s claimer s' ↔
      s.self ≠ claimer ∧
        (claimer ∈ s.delegatorsForClaimer claimer → s.distributionByDelegator.get claimer = 0) ∧
        (s.distributionByOperator.get claimer ≠ 0 → claimer ∈ s.operatorsForClaimer claimer) := by
  constructor
  · intro hexact
    obtain ⟨hdelegator, hoperator⟩ := h.once_iff.1 hexact.once
    refine ⟨fun hself => ?_, hdelegator, hoperator⟩
    have htotal := h.ledgerTotal_eq hdelegator hoperator
    have htransferred := hexact.transferred
    rw [h.unpaid hself] at htransferred
    have hne := h.ne_zero
    omega
  · rintro ⟨hself, hdelegator, hoperator⟩
    refine ⟨?_, h.once_iff.2 ⟨hdelegator, hoperator⟩, h.cleared⟩
    have htotal := h.ledgerTotal_eq hdelegator hoperator
    have hpaid := balanceOf_transfer (h.paid hself) hself
    omega

omit h

/-! ## Who may claim, in every run -/

variable {I : RiverToken → Prop}

theorem RegistryInv.registerOperator {sender : Account} (hinv : RegistryInv I s)
    (h : s.registerOperator sender.address claimer = .ok s') : RegistryInv I s' := by
  obtain ⟨_, h⟩ := ite_error_ok.1 h
  obtain ⟨hnew, h⟩ := ite_error_ok.1 h
  cases h
  refine { hinv with
    operators := hinv.operators.add (hinv.unregistered _ hnew) claimer
    unregistered := fun operator hnot => ?_
    unclaimed := fun operator => ?_
    owners := ?_
    ne_zero := ?_ }
  · have hkept := hinv.unregistered operator
    simp only [mem_add] at hnot ⊢
    grind
  · have hkept := hinv.unclaimed operator
    simp only [mem_add]
    grind
  · rw [hinv.owners, add, dif_neg (mem_values.not.2 hnew)]
  · rw [mem_add]
    exact not_or.2 ⟨hinv.ne_zero, sender.ne_zero.symm⟩

theorem RegistryInv.setClaimAddressForOperator (hinv : RegistryInv I s)
    (h : s.setClaimAddressForOperator sender claimer operator = .ok s') : RegistryInv I s' := by
  obtain ⟨-, h⟩ := ite_error_ok.1 h
  obtain ⟨-, h⟩ := ite_error_ok.1 h
  obtain ⟨-, h⟩ := ite_error_ok.1 h
  cases h
  -- a set without the operator is not changed by its removal
  have hremoved : (if operator ∈ s.operatorsByClaimer (s.claimerByOperator operator) then _
      else s.operatorsByClaimer) = update s.operatorsByClaimer (s.claimerByOperator operator)
        ((s.operatorsByClaimer (s.claimerByOperator operator)).remove operator) :=
    ite_eq_left_iff.2 fun hnot => (update_remove_of_not_mem hnot).symm
  refine { hinv with
    operators := ?_, unregistered := fun other hnot => ?_, unclaimed := fun other => ?_ }
  · simp only [hremoved]
    exact hinv.operators.move operator claimer
  · have hkept := hinv.unregistered other
    grind
  · have hkept := hinv.unclaimed other
    simp only [hremoved, mem_update, mem_add, mem_remove]
    grind

omit [ERC20Votes] in
theorem lists_setAuthorizedClaimer {ds : MainnetDelegation} {delegator : Address}
    (h : Lists ds.delegatorsByAuthorizedClaimer ds.claimerByDelegator 0) :
    let ds' := setAuthorizedClaimer delegator claimer ds
    Lists ds'.delegatorsByAuthorizedClaimer ds'.claimerByDelegator 0 := by
  have hmove := h.move delegator claimer
  simp only [setAuthorizedClaimer]
  split
  · exact hmove
  · rename_i hnot
    simp only [update_remove_of_not_mem hnot] at hmove
    exact hmove

theorem RegistryInv.callMainnet {call : DelegationCall} (hinv : RegistryInv I s)
    (h : s.callMainnet call = .ok s') : RegistryInv I s' := by
  unfold BaseRegistry.callMainnet at h
  split at h
  · rename_i ds hds
    cases h
    refine { hinv with delegators := ?_ }
    cases call with
    | setDelegation origin delegator operator quantity timestamp =>
      simp only [MainnetDelegation.call] at hds
      split at hds
      · cases hds
        unfold setDelegation
        split <;> exact hinv.delegators
      · cases hds
    | setAuthorizedClaimer origin delegator claimer =>
      simp only [MainnetDelegation.call] at hds
      split at hds
      · cases hds
        exact lists_setAuthorizedClaimer hinv.delegators
      · cases hds
    | setProxyDelegation sender diamondOwner proxyDelegation =>
      simp only [MainnetDelegation.call] at hds
      split at hds
      · cases hds
        exact hinv.delegators
      · cases hds
  · cases h

variable (hI : ∀ token call token', I token → RiverToken.call token call = .ok token' → I token')
include hI

theorem RegistryInv.call {call : RegistryCall} (hinv : RegistryInv I s) (h : s.call call = .ok s') :
    RegistryInv I s' := by
  cases call with
  | riverToken call =>
    simp only [BaseRegistry.call, callToken] at h
    split at h
    · rename_i riverToken htoken
      cases h
      exact { hinv with token := hI _ call _ hinv.token htoken }
    · cases h
  | registerOperator => exact hinv.registerOperator h
  | setOperatorStatus sender operator newStatus =>
    simp only [BaseRegistry.call, setOperatorStatus, ite_error_ok] at h
    obtain ⟨-, -, -, -, -, -, -, h⟩ := h
    cases h
    exact { hinv with }
  | setClaimAddressForOperator => exact hinv.setClaimAddressForOperator h
  | setCommissionRate sender rate =>
    iterate 2 obtain ⟨-, h⟩ := ite_error_ok.1 h
    cases h
    exact { hinv with }
  | addSpaceDelegation sender spaceOwner space operator =>
    simp only [BaseRegistry.call, addSpaceDelegation, ite_error_ok] at h
    obtain ⟨-, -, -, -, h⟩ := h
    cases h
    exact { hinv with spaces := hinv.spaces.move space operator }
  | removeSpaceDelegation sender spaceOwner space =>
    simp only [BaseRegistry.call, removeSpaceDelegation, ite_error_ok] at h
    obtain ⟨-, -, -, h⟩ := h
    cases h
    exact { hinv with spaces := hinv.spaces.remove space }
  | setWeeklyDistributionAmount sender amount =>
    obtain ⟨-, h⟩ := ite_error_ok.1 h
    cases h
    exact { hinv with }
  | distributeRewards =>
    obtain ⟨_, _, _, hd⟩ := distributeRewards_distributed h
    rw [(creditDelegators_ok hd.credited).1]
    exact { hinv with }
  | claim sender =>
    have hclaimed := claim_ok h
    rw [hclaimed.rest]
    refine { hinv with token := ?_ }
    by_cases hself : s.self = sender.address
    · rw [hclaimed.unpaid hself]
      exact hinv.token
    · have hpaid := hclaimed.paid hself
      have hne := (RiverToken.transfer_ok hpaid).1
      exact hI _ (.transfer ⟨s.self, hne⟩ sender.address _) _ hinv.token hpaid
  | _ => exact hinv.callMainnet h

theorem RegistryInv.next (hinv : RegistryInv I s) (call : RegistryCall) :
    RegistryInv I (baseRegistryMachine.next s call) :=
  Machine.next_ofCall hinv fun _ => hinv.call hI

theorem registryInv_exec (self owner messenger : Address) {riverToken : RiverToken}
    (htoken : I riverToken) (calls : List RegistryCall) :
    RegistryInv I (baseRegistryMachine.exec (init self owner messenger riverToken) calls) :=
  Machine.exec_invariant (fun _ call hinv => hinv.next hI call)
    ⟨htoken, lists_empty 0, fun _ _ => rfl, fun _ => by simp [init], rfl, not_mem_empty 0,
      lists_empty 0, lists_empty 0⟩ calls

omit hI

/-- **Operator indexes.** After every run, the set of an operator has exactly the spaces that
    delegate to it, and the set of a claimer exactly the registered operators whose claimer it
    is. -/
theorem operatorIndexes (self owner messenger : Address) (riverToken : RiverToken)
    (calls : List RegistryCall) :
    let s := baseRegistryMachine.exec (init self owner messenger riverToken) calls
    (∀ space operator, operator ≠ 0 →
      (space ∈ s.spacesByOperator operator ↔ s.operatorBySpace space = operator)) ∧
    ∀ operator claimer, operator ∈ s.operatorsByClaimer claimer ↔
      operator ∈ s.operators ∧ s.claimerByOperator operator = claimer := by
  intro s
  have hinv : RegistryInv (fun _ => True) s :=
    registryInv_exec (fun _ _ _ _ _ => trivial) self owner messenger trivial calls
  refine ⟨hinv.spaces, fun operator claimer => ?_⟩
  by_cases hclaimer : claimer = 0
  · rw [hclaimer]
    exact hinv.unclaimed operator
  rw [hinv.operators operator claimer hclaimer, iff_and_self]
  rintro rfl
  by_contra hnot
  exact hclaimer (hinv.unregistered operator hnot)

/-- After every run, a claim is exact exactly if the caller is not the diamond itself, has not
    authorized itself to claim its rewards as a delegator, and claims its own rewards as an
    operator; where there are such rewards. -/
theorem claimExact_iff (self owner messenger : Address) (riverToken : RiverToken)
    (calls : List RegistryCall) (claimer : Account) (s' : BaseRegistry)
    (h : (baseRegistryMachine.exec (init self owner messenger riverToken) calls).claim
      claimer.address =
      .ok s') :
    let s := baseRegistryMachine.exec (init self owner messenger riverToken) calls
    ClaimExact s claimer.address s' ↔
      s.self ≠ claimer.address ∧
        (s.mainnetDelegation.claimerByDelegator claimer.address = claimer.address →
          s.distributionByDelegator.get claimer.address = 0) ∧
        (s.distributionByOperator.get claimer.address ≠ 0 →
          s.claimerByOperator claimer.address = claimer.address) := by
  intro s
  have hinv : RegistryInv (fun _ => True) s :=
    registryInv_exec (fun _ _ _ _ _ => trivial) self owner messenger trivial calls
  have hdelegator := hinv.delegators claimer.address claimer.address claimer.ne_zero
  have hoperator := hinv.operators claimer.address claimer.address claimer.ne_zero
  rw [(claim_ok h).exact_iff, ← hdelegator, ← hoperator]
  rfl

end Registry

/-! ## Three claims -/

def ledgerCalls : List RegistryCall :=
  let owner : Account := ⟨9, Nat.succ_ne_zero 8⟩
  let operator : Account := ⟨5, Nat.succ_ne_zero 4⟩
  let bridge : Account := ⟨1, Nat.one_ne_zero⟩
  let origin : CrossDomainSender := ⟨3, 4⟩
  [.setProxyDelegation owner 4, .registerOperator operator 6, .setOperatorStatus owner 5 .approved,
    .setCommissionRate operator 50, .riverToken (.mint bridge 8 1000),
    .riverToken (.mint bridge 5 (10 ^ 19)), .riverToken (.delegate operator 5),
    .setDelegation origin 7 5 (10 ^ 19), .setAuthorizedClaimer origin 7 7,
    .riverToken (.wait (8 * 24 * 60 * 60)), .setWeeklyDistributionAmount owner 200,
    .distributeRewards owner 5]

/-- The claimer of the operator is paid the commission, which is cleared. -/
theorem claimExact_claimer :
    let s := baseRegistryMachine.exec (init 8 9 3 (.init 0 9 1)) ledgerCalls
    ∃ s', s.claim 6 = .ok s' ∧ ClaimExact s 6 s' := by
  intro s
  obtain ⟨s', h⟩ : ∃ s', s.claim 6 = .ok s' := exists_of_isOk (by decide +kernel)
  exact ⟨s', h, (claimExact_iff 8 9 3 (.init 0 9 1) ledgerCalls ⟨6, by decide⟩ s' h).2
    (by decide +kernel)⟩

/-- The operator's own claim is paid its share as a delegator and clears the commission as well, and
    account 7 is paid its share twice. -/
theorem not_claimExact :
    let s := baseRegistryMachine.exec (init 8 9 3 (.init 0 9 1)) ledgerCalls
    (s.entry (.operator 5) = 100 ∧ s.entry (.delegator 5) = 50 ∧
      (s.claim 5).map (fun s' => (s'.riverToken.balanceOf 5, s'.entry (.operator 5),
        s'.entry (.delegator 5))) = .ok (10 ^ 19 + 50, 0, 0)) ∧
    (s.entry (.delegator 7) = 50 ∧
      (s.claim 7).map (fun s' => s'.riverToken.balanceOf 7) = .ok 100) := by
  decide +kernel

end BaseRegistry

end River.Contracts
