/-
  The rule data that the nodes are given for a check (`_requestEntitlementCheck` and
  `_getRuleData` of contracts/src/spaces/facets/gated/EntitlementGatedBase.sol).
-/

import Mathlib.Data.List.Pairwise
import River.Contracts.Joins

namespace River.Contracts

open List Space

open River.Lib (bind_ok bind_error bind_ne_error)

namespace Space

variable {env : Env} {s s' : Space} {keccak256 : List Nat → Bytes32} {α : Type}

def getRuleData (ruleData : Address → Nat → α) (transactionId : Bytes32) (roleId : Nat)
    (s : Space) : Result α :=
  let transaction := s.transactions transactionId
  if transaction.hasBenSet = false then .error .transactionNotRegistered
  else .ok (ruleData transaction.entitlement roleId)

def requestsOf : List (Nat × Entitlement) → List (Nat × Address)
  | [] => []
  | (_, .localCheck isEntitled) :: rest => if isEntitled = true then [] else requestsOf rest
  | (roleId, .crosschain entitlement) :: rest => (roleId, entitlement) :: requestsOf rest

def requestsMade (s : Space) (a : Env × Call) : List (Bytes32 × Nat × Address) :=
  match a.2 with
  | .joinSpace _ =>
    if spaceMachine.out s a = none then
      (requestsOf (enabledChecks a.1.rolesWithJoinSpace)).map (s.nextTransactionId a.1, ·)
    else []
  | _ => []

/-- The requests of a join are of one module and different roles. -/
def RequestsOneModule : Env × Call → Prop
  | (env, .joinSpace _) => (requestsOf (enabledChecks env.rolesWithJoinSpace)).Pairwise
      fun request request' => request.1 ≠ request'.1 ∧ request.2 = request'.2
  | _ => True

/-! ## The module of a transaction -/

theorem checkAll_entitlement {progress : JoinProgress} {entitlement : Address}
    (h : checkAll env tid checks pending refund s = .ok (progress, s'))
    (hone : ∀ request ∈ requestsOf checks, request.2 = entitlement)
    (hs : (s.transactions tid).hasBenSet = true → (s.transactions tid).entitlement = entitlement) :
    (s'.transactions tid).hasBenSet = true →
      (s'.transactions tid).entitlement = entitlement := by
  induction checks generalizing pending refund s with
  | nil =>
    cases h
    exact hs
  | cons check rest ih =>
    obtain ⟨roleId, _ | e⟩ := check
    · rw [checkAll] at h
      split at h
      · obtain ⟨s1, hissue, h⟩ := bind_ok.1 h
        cases h
        rw [(issueToken_issues hissue).transactions]
        exact hs
      · rename_i hunmet
        rw [requestsOf, if_neg hunmet] at hone
        exact ih h hone hs
    · obtain ⟨s1, hrequest, h⟩ := bind_ok.1 h
      obtain ⟨_, rfl⟩ := requestEntitlementCheck_eq_ok hrequest
      refine ih h (fun request hmem => hone request (mem_cons_of_mem _ hmem)) fun _ => ?_
      -- the first request sets the module, and the others find it set
      rw [setTransaction_transactions_self, Transaction.requested]
      split
      · exact hone (roleId, e) mem_cons_self
      · rename_i hset
        exact hs ((Bool.not_eq_false _).mp hset)

theorem joinSpace_entitlement {receiver entitlement : Address}
    (h : s.joinSpace env receiver = .ok s')
    (hone : ∀ request ∈ requestsOf (enabledChecks env.rolesWithJoinSpace), request.2 = entitlement)
    (hnew : s.transactions (s.nextTransactionId env) = .zero)
    (hset : (s'.transactions (s.nextTransactionId env)).hasBenSet = true) :
    (s'.transactions (s.nextTransactionId env)).entitlement = entitlement := by
  obtain ⟨_, -, h⟩ := bind_ok.1 h
  obtain ⟨s1, hcapture, h⟩ := bind_ok.1 h
  obtain ⟨⟨progress, s2⟩, hroles, h⟩ := bind_ok.1 h
  have hcaptured : s1.transactions = s.transactions :=
    (ifPositive_pays (fun _ => captureValue_pays) (by omega) hcapture).transactions
  have hend : s'.transactions = s2.transactions := by
    rcases progress with _ | ⟨_ | _, _ | _⟩
    case checking.false.true => exact (rejectJoin_pays h).transactions
    all_goals
      cases h
      rfl
  rw [checkRoles_eq_checkAll] at hroles
  rw [hend] at hset ⊢
  refine checkAll_entitlement hroles hone (fun hset1 => ?_) hset
  rw [hcaptured, hnew] at hset1
  cases hset1

structure ModuleKept (keccak256 : List Nat → Bytes32)
    (requests : List (Bytes32 × Nat × Address)) (s : Space) : Prop where
  fresh : FreshIds keccak256 s
  used : ∀ request ∈ requests, s.Used keccak256 request.1
  kept : ∀ request ∈ requests, (s.transactions request.1).hasBenSet = true →
    (s.transactions request.1).entitlement = request.2.2

theorem Voted.entitlement (h : Voted env tid roleId s votes decision s') (id : Bytes32)
    (hset : (s'.transactions id).hasBenSet = true) :
    (s.transactions id).hasBenSet = true ∧
      (s'.transactions id).entitlement = (s.transactions id).entitlement := by
  by_cases hid : id = tid
  · subst hid
    cases h with
    | counted =>
      rw [setTransaction_transactions_self] at hset ⊢
      exact ⟨hset, rfl⟩
    | _ => exact absurd hset (by rw [removeTransaction_hasBenSet]; nofun)
  · rw [(h.others hid).1] at hset ⊢
    exact ⟨hset, rfl⟩

theorem ModuleKept.step (h : ModuleKept keccak256 requests s) (hinj : Function.Injective keccak256)
    {a : Env × Call} (ha : a.1.keccak256 = keccak256) (hone : RequestsOneModule a) :
    ModuleKept keccak256 (requests ++ s.requestsMade a) (spaceMachine.next s a) := by
  have hfresh := h.fresh.step ha
  have hused : ∀ request ∈ requests, (spaceMachine.next s a).Used keccak256 request.1 :=
    fun request hmem => (h.used request hmem).mono (s.nonce_le_next a)
  -- it is enough that the old requests keep their module where no request is made
  have hquiet : s.requestsMade a = [] →
      (∀ id, ((spaceMachine.next s a).transactions id).hasBenSet = true →
        (s.transactions id).hasBenSet = true ∧
        ((spaceMachine.next s a).transactions id).entitlement = (s.transactions id).entitlement) →
      ModuleKept keccak256 (requests ++ s.requestsMade a) (spaceMachine.next s a) := by
    intro hnone hsame
    rw [hnone, append_nil]
    refine ⟨hfresh, hused, fun request hmem hset => ?_⟩
    rw [(hsame _ hset).2]
    exact h.kept request hmem (hsame _ hset).1
  obtain ⟨env, call⟩ := a
  rcases s.next_cases env call with hok | ⟨⟨r, herror⟩, hsame⟩
  swap
  · refine hquiet ?_ fun id hset => ?_
    · have hout := out_of_error herror
      cases call <;> simp [requestsMade, hout]
    · rw [hsame] at hset ⊢
      exact ⟨hset, rfl⟩
  have hout := out_of_ok hok
  rcases run_cases hok with ⟨receiver, rfl, hjoined⟩ | ⟨_, _, _, rfl, hpost⟩ | ⟨hid, hsame⟩
  · have hmade : s.requestsMade (env, .joinSpace receiver)
        = (requestsOf (enabledChecks env.rolesWithJoinSpace)).map (s.nextTransactionId env, ·) :=
      if_pos hout
    rw [hmade]
    have hnew : ¬ s.Used keccak256 (s.nextTransactionId env) := not_used_nextTransactionId hinj ha
    refine ⟨hfresh, fun request hmem => ?_, fun request hmem => ?_⟩
    · rcases mem_append.1 hmem with hmem | hmem
      · exact hused request hmem
      · obtain ⟨made, -, rfl⟩ := mem_map.1 hmem
        exact hjoined.used ha
    · rcases mem_append.1 hmem with hmem | hmem
      · have hold : request.1 ≠ s.nextTransactionId env := by
          intro heq
          exact hnew (heq ▸ h.used request hmem)
        rw [(hjoined.others _ hold).1]
        exact h.kept request hmem
      · obtain ⟨made, hmade, rfl⟩ := mem_map.1 hmem
        refine joinSpace_entitlement hok (fun request hmem => ?_) (h.fresh _ hnew)
        exact Pairwise.forall_of_forall (R := fun r r' : Nat × Address => r.2 = r'.2)
          (fun _ _ => rfl) (hone.imp And.right) hmem hmade
  · obtain ⟨-, _, _, _, -, -, hvoted⟩ := postEntitlementCheckResult_eq_ok hpost
    exact hquiet rfl hvoted.entitlement
  · refine hquiet ?_ fun id hset => ?_
    · cases call with
      | joinSpace receiver => cases hid
      | _ => rfl
    · rw [hsame.transactions] at hset ⊢
      exact ⟨hset, rfl⟩

/-! ## Joins that ask for a role once -/

theorem ifPositive_ne {f : Space → Result Space} (hf : f s ≠ .error .checkAlreadyRegistered) :
    s.ifPositive amount f ≠ .error .checkAlreadyRegistered := by
  unfold ifPositive
  split
  · exact hf
  · nofun

theorem releaseCapturedValue_ne :
    s.releaseCapturedValue tid value ≠ .error .checkAlreadyRegistered := by
  simp [releaseCapturedValue, checkedSub, bind_error, ite_eq_iff]

theorem payFromCaptured_ne :
    s.payFromCaptured env tid tokenId price ≠ .error .checkAlreadyRegistered := by
  simp [payFromCaptured, collectProtocolFee, basisPointsCalculate, transferCurrency, transferIn,
    ifPositive, releaseCapturedValue, checkedAdd, checkedSub, bind_error, ite_eq_iff]

theorem issueToken_ne : s.issueToken env tid ≠ .error .checkAlreadyRegistered := by
  unfold issueToken
  split
  · nofun
  refine bind_ne_error ?_ fun _ => bind_ne_error (ifPositive_ne payFromCaptured_ne) fun _ =>
    bind_ne_error ?_ fun _ => ?_
  · cases hprice : env.getPrice (getMembershipFreeAllocation env s) s.totalSupply <;>
      simp [getMembershipPrice, hprice, ite_eq_iff]
  · simp [safeMint, ite_eq_iff]
  · simp [renewSubscription, checkedAdd, bind_error, ite_eq_iff]

theorem checkAll_ne
    (honce : (requestsOf checks).Pairwise fun request request' => request.1 ≠ request'.1)
    (hnew : ∀ request ∈ requestsOf checks, request.1 ∉ (s.transactions tid).roleIds) :
    checkAll env tid checks pending refund s ≠ .error .checkAlreadyRegistered := by
  induction checks generalizing pending refund s with
  | nil => exact nofun
  | cons check rest ih =>
    obtain ⟨roleId, _ | e⟩ := check
    · rw [checkAll]
      split
      · exact bind_ne_error issueToken_ne (by simp)
      · rename_i hunmet
        rw [requestsOf, if_neg hunmet] at honce hnew
        exact ih honce hnew
    · rw [requestsOf, pairwise_cons] at honce
      rw [checkAll]
      cases hrequest : s.requestEntitlementCheck env tid e roleId with
      | error r =>
        rintro hclash
        cases hclash
        unfold requestEntitlementCheck at hrequest
        simp only at hrequest
        split at hrequest
        · rename_i hregistered
          exact hnew _ mem_cons_self hregistered.2
        · split at hrequest <;> cases hrequest
      | ok s1 =>
        obtain ⟨selectedNodes, rfl⟩ := requestEntitlementCheck_eq_ok hrequest
        refine ih honce.2 fun request hmem => ?_
        rw [setTransaction_transactions_self]
        have hroles : ((s.transactions tid).requested env.sender e roleId
            selectedNodes).roleIds = (s.transactions tid).roleIds ++ [roleId] := by
          unfold Transaction.requested
          split <;> rfl
        rw [hroles, mem_append, mem_singleton, not_or]
        exact ⟨hnew request (mem_cons_of_mem _ hmem), (honce.1 request hmem).symm⟩

theorem joinSpace_ne (honce : (requestsOf (enabledChecks env.rolesWithJoinSpace)).Pairwise
      fun request request' => request.1 ≠ request'.1)
    (hnew : s.transactions (s.nextTransactionId env) = .zero) :
    s.joinSpace env receiver ≠ .error .checkAlreadyRegistered := by
  intro h
  rcases bind_error.1 h with h | ⟨_, -, h⟩
  · unfold validateJoinSpace at h
    split at h
    · cases h
    · split at h <;> cases h
  rcases bind_error.1 h with h | ⟨s1, hcapture, h⟩
  · refine ifPositive_ne ?_ h
    simp [captureValue, checkedAdd, bind_error, ite_eq_iff]
  have hcaptured : s1.transactions = s.transactions :=
    (ifPositive_pays (fun _ => captureValue_pays) (by omega) hcapture).transactions
  rcases bind_error.1 h with h | ⟨⟨progress, _⟩, -, h⟩
  · rw [checkRoles_eq_checkAll] at h
    refine checkAll_ne honce (fun request _ => ?_) h
    change request.1 ∉ (s1.transactions (s.nextTransactionId env)).roleIds
    rw [hcaptured, hnew]
    exact not_mem_nil
  · rcases progress with _ | ⟨_ | _, _ | _⟩
    case checking.false.true => exact ifPositive_ne releaseCapturedValue_ne h
    all_goals cases h

end Space

/-- **Rule data.** In every run whose joins ask for different roles and for one module, the
    rule data of a pending check is that of the module that was passed for its role, and no
    such join reverts because of its roles. -/
theorem getRuleData_of_requested {α : Type} (ruleData : Address → Nat → α)
    (keccak256 : List Nat → Bytes32) (hinj : Function.Injective keccak256) (settings : Settings)
    (balance : Nat) (calls : List (Env × Call)) (hkeccak : ∀ a ∈ calls, a.1.keccak256 = keccak256)
    (hone : ∀ a ∈ calls, RequestsOneModule a) :
    let s := spaceMachine.exec (create settings balance) calls
    (∀ tid roleId entitlement,
      (tid, roleId, entitlement) ∈
        spaceMachine.collect requestsMade (create settings balance) calls →
      (s.transactions tid).hasBenSet = true →
      s.getRuleData ruleData tid roleId = .ok (ruleData entitlement roleId)) ∧
    ∀ env receiver, env.keccak256 = keccak256 →
      RequestsOneModule (env, .joinSpace receiver) →
      spaceMachine.out s (env, .joinSpace receiver) ≠ some .checkAlreadyRegistered := by
  have hkept := Lib.Machine.collect_invariant
    (J := ModuleKept keccak256)
    (P := fun _ a => a.1.keccak256 = keccak256 ∧ RequestsOneModule a)
    (fun _ _ _ => trivial) (fun _ _ _ h ha _ => h.step hinj ha.1 ha.2)
    (s := create settings balance)
    ⟨fun _ _ => rfl, fun _ h => absurd h not_mem_nil, fun _ h => absurd h not_mem_nil⟩
    (Lib.Machine.along_of_mem (fun a ha => ⟨hkeccak a ha, hone a ha⟩) _) trivial
  constructor
  · intro tid roleId entitlement hmade hset
    rw [getRuleData, if_neg (by rw [hset]; nofun), hkept.kept _ hmade hset]
  intro env receiver henv hjoin hout
  have hnew := hkept.fresh _ (not_used_nextTransactionId hinj henv)
  cases hrun : Call.run env (.joinSpace receiver)
      (spaceMachine.exec (create settings balance) calls) with
  | ok s' =>
    rw [out_of_ok hrun] at hout
    cases hout
  | error r =>
    rw [out_of_error hrun] at hout
    cases hout
    exact joinSpace_ne (hjoin.imp And.left) hnew hrun

def joinWithRoles (roles : List Role) : Env × Call :=
  ({ Env.call 21 100 with rolesWithJoinSpace := roles }, .joinSpace 21)

theorem getRuleData_of_two_roles :
    let join := joinWithRoles [⟨1, false, [.crosschain 9]⟩, ⟨2, false, [.crosschain 9]⟩]
    (spaceMachine.exec (create Settings.sample 0) [join]).getRuleData Prod.mk firstId 2
      = .ok (9, 2) :=
  (getRuleData_of_requested Prod.mk Encodable.encode Encodable.encode_injective .sample 0
    [joinWithRoles [⟨1, false, [.crosschain 9]⟩, ⟨2, false, [.crosschain 9]⟩]]
    (by
      intro a ha
      cases mem_singleton.1 ha
      rfl)
    (by
      intro a ha
      cases mem_singleton.1 ha
      unfold joinWithRoles RequestsOneModule
      decide)).1 firstId 2 9 (by decide +kernel) (by decide +kernel)

/-- Two roles with a module each: the rule data of the second role is asked of the module of
    the first. One role with two modules: the join reverts. -/
theorem getRuleData_of_first_module :
    let join := joinWithRoles [⟨1, false, [.crosschain 9]⟩, ⟨2, false, [.crosschain 8]⟩]
    spaceMachine.collect requestsMade (create Settings.sample 0) [join]
      = [(firstId, 1, 9), (firstId, 2, 8)] ∧
    (spaceMachine.exec (create Settings.sample 0) [join]).getRuleData Prod.mk firstId 2
      = .ok (9, 2) ∧
    spaceMachine.out (create Settings.sample 0)
      (joinWithRoles [⟨1, false, [.crosschain 9, .crosschain 8]⟩]) =
        some .checkAlreadyRegistered := by
  decide +kernel

end River.Contracts
