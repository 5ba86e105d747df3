/-
  What the wallets of a user count for (core/node/auth/auth_impl.go and
  core/xchain/entitlement/check_operation.go).
-/

import Mathlib.Algebra.BigOperators.Group.Finset.Basic
import Mathlib.Algebra.Order.BigOperators.Group.List
import River.Node.Auth.Freshness

namespace River.Node.Auth

open River.Lib List
open River.Contracts (Address RuleData CheckOperation)

/-! ## The entitlements of a space -/

section Space

variable {chain : Chain} {wallets linked : List Address} {entitlements : List SpaceEntitlements}

/-- What a module of a space says about the wallets, if `listed` are those it is asked for. -/
def SpaceEntitlements.Grants (chain : Chain) (wallets : List Address) (listed : Address → Prop) :
    SpaceEntitlements → Prop
  | .rule ruleEntitlement => chain.evaluateRuleData wallets ruleEntitlement = .ok true
  | .user userEntitlement => ∃ user ∈ userEntitlement, user = everyone ∨ listed user
  | .invalid => False

/-- No rule ends in an error. -/
def Evaluated (chain : Chain) (wallets : List Address) (entitlements : List SpaceEntitlements) :
    Prop :=
  ∀ ruleEntitlement, .rule ruleEntitlement ∈ entitlements →
    ∃ result, chain.evaluateRuleData wallets ruleEntitlement = .ok result

/-- An entitlement grants the user before any rule ends in an error. -/
def GrantsFirst (chain : Chain) (wallets : List Address) (principal : Address)
    (entitlements : List SpaceEntitlements) : Prop :=
  ∃ before e after, entitlements = before ++ e :: after ∧ Evaluated chain wallets before ∧
    e.Grants chain wallets (· = principal)

theorem grantsFirst_cons (e : SpaceEntitlements) :
    GrantsFirst chain wallets principal (e :: entitlements) ↔
      e.Grants chain wallets (· = principal) ∨
        Evaluated chain wallets [e] ∧ GrantsFirst chain wallets principal entitlements := by
  constructor
  · rintro ⟨_ | ⟨first, before⟩, granting, after, heq, hbefore, hgrants⟩
    · cases heq
      exact .inl hgrants
    · cases heq
      refine .inr ⟨fun rule hrule => hbefore rule ?_, before, granting, after, rfl,
        fun rule hrule => hbefore rule (mem_cons_of_mem _ hrule), hgrants⟩
      rw [mem_singleton.1 hrule]
      exact mem_cons_self
  · rintro (hgrants | ⟨he, before, granting, after, rfl, hbefore, hgrants⟩)
    · exact ⟨[], e, entitlements, rfl, fun _ h => absurd h not_mem_nil, hgrants⟩
    · refine ⟨e :: before, granting, after, rfl, fun rule hrule => ?_, hgrants⟩
      rcases mem_cons.1 hrule with rfl | hrule
      · exact he rule (mem_singleton_self _)
      · exact hbefore rule hrule

theorem isEntitledByAny_iff :
    (isEntitledByAny chain now wallets principal entitlements caches).1.result = .ok true ↔
      GrantsFirst chain wallets principal entitlements := by
  induction entitlements with
  | nil => simp [isEntitledByAny, pure, GrantsFirst]
  | cons e entitlements ih =>
    rw [grantsFirst_cons, ← ih]
    cases e with
    | rule ruleEntitlement =>
      rw [SpaceEntitlements.Grants]
      cases hresult : chain.evaluateRuleData wallets ruleEntitlement with
      | ok result =>
        have hstep : (isEntitledByAny chain now wallets principal
            (.rule ruleEntitlement :: entitlements) caches).1.result =
            ((if result then pure true
              else isEntitledByAny chain now wallets principal entitlements : AuthM Bool)
                caches).1.result := by
          simp only [isEntitledByAny, hresult]
          rfl
        rw [hstep]
        cases result <;> simp [pure, Evaluated, hresult]
      | error e =>
        refine iff_of_false ?_ ?_
        · simp only [isEntitledByAny, hresult]
          nofun
        · simp [Evaluated, hresult]
    | user userEntitlement =>
      rw [isEntitledByAny, SpaceEntitlements.Grants]
      split
      · rename_i hany
        simpa [pure] using .inl (by simpa using hany)
      · rename_i hany
        simp only [Evaluated, mem_singleton, reduceCtorEq, false_imp_iff, implies_true, true_and]
        exact (or_iff_right (by simpa using hany)).symm
    | invalid => simp [isEntitledByAny, Evaluated, SpaceEntitlements.Grants]

theorem isEntitledToSpaceUncached_iff {allowed : Bool}
    (hwallets : args.linkedWallets = linked ++ [args.principal])
    (hdata : (executeUsingCache entitlementManagerCache cfg.entitlementManagerTtl now
      EntitlementCacheResult.allowed args (getSpaceEntitlementsForPermissionUncached chain now args)
        caches).1.result = .ok ⟨allowed, entitlements, owner⟩) :
    (isEntitledToSpaceUncached cfg chain now args caches).1.result = .ok true ↔
      owner ∈ args.linkedWallets ∨
        GrantsFirst chain args.linkedWallets args.principal entitlements := by
  have hlist : deserializeWallets args.linkedWallets = args.linkedWallets := by
    rw [hwallets]
    cases linked <;> rfl
  simp only [isEntitledToSpaceUncached, bind, Sourced.andThen]
  generalize executeUsingCache entitlementManagerCache cfg.entitlementManagerTtl now
    EntitlementCacheResult.allowed args (getSpaceEntitlementsForPermissionUncached chain now args)
      caches = loaded at hdata
  obtain ⟨⟨_, _⟩, _⟩ := loaded
  cases hdata
  simp only [hlist]
  split
  · rename_i howner
    simp [howner, pure]
  · rename_i howner
    rw [isEntitledByAny_iff, or_iff_right howner]

end Space

/-- **Modules.** Let the entitlements of a space be known. The check of the space allows exactly
    what the modules allow if and only if an entitlement of one of the wallets never stands alone:
    the owner is one of them, or the user is entitled too, before a rule ends in an error. -/
theorem entitled_to_space_iff (cfg : AuthConfig) (chain : Chain) (now : Nat) (args : ChainAuthArgs)
    (linked : List Address) (caches : AuthCaches) {allowed : Bool} {owner : Address}
    {entitlements : List SpaceEntitlements}
    (hwallets : args.linkedWallets = linked ++ [args.principal])
    (hdata : (executeUsingCache entitlementManagerCache cfg.entitlementManagerTtl now
      EntitlementCacheResult.allowed args (getSpaceEntitlementsForPermissionUncached chain now args)
        caches).1.result = .ok ⟨allowed, entitlements, owner⟩) :
    ((isEntitledToSpaceUncached cfg chain now args caches).1.result = .ok true ↔
        owner ∈ args.linkedWallets ∨
          ∃ e ∈ entitlements, e.Grants chain args.linkedWallets (· ∈ args.linkedWallets)) ↔
      ((∃ e ∈ entitlements, e.Grants chain args.linkedWallets (· ∈ args.linkedWallets)) →
        owner ∈ args.linkedWallets ∨
          GrantsFirst chain args.linkedWallets args.principal entitlements) := by
  have hown : GrantsFirst chain args.linkedWallets args.principal entitlements →
      ∃ e ∈ entitlements, e.Grants chain args.linkedWallets (· ∈ args.linkedWallets) := by
    rintro ⟨before, e, after, rfl, -, hgrants⟩
    refine ⟨e, by simp, ?_⟩
    cases e with
    | user userEntitlement =>
      obtain ⟨user, huser, hlisted⟩ := hgrants
      refine ⟨user, huser, hlisted.imp id ?_⟩
      rintro rfl
      simp [hwallets]
    | _ => exact hgrants
  rw [isEntitledToSpaceUncached_iff hwallets hdata]
  constructor
  · intro hsame hgrants
    exact hsame.2 (.inr hgrants)
  · intro h
    exact ⟨.imp_right hown, fun hallowed => hallowed.elim .inl h⟩

/-- Wallet 6 is linked to user 5, and the space lists user 5. -/
theorem entitled_to_space_own :
    let args := { newChainAuthArgsForSpace sampleAuthSpace 5 .write with linkedWallets := [6, 5] }
    (isEntitledToSpaceUncached sampleAuthConfig (sampleChain false [5]) 0 args .empty).1.result =
      .ok true := by
  intro args
  have hiff := @entitled_to_space_iff sampleAuthConfig (sampleChain false [5]) 0 args [6] .empty
    true 0 [.user [5]] rfl rfl
  exact (hiff.2 fun _ => .inr ⟨[], _, [], rfl, by simp [Evaluated], 5, by decide⟩).2
    (.inr ⟨_, mem_singleton_self _, 5, by decide⟩)

/-- The space lists wallet 6, which is linked to user 5: the module entitles the user on chain, and
    the node does not. -/
theorem not_entitled_to_space_linked :
    let args := { newChainAuthArgsForSpace sampleAuthSpace 5 .write with linkedWallets := [6, 5] }
    (isEntitledToSpaceUncached sampleAuthConfig (sampleChain false [6]) 0 args .empty).1.result =
        .ok false ∧
      SpaceEntitlements.Grants (sampleChain false [6]) [6, 5] (· ∈ args.linkedWallets)
        (.user [6]) :=
  ⟨by decide, 6, by decide⟩

/-! ## Balances -/

/-- By chain, contract and wallet; a chain may be unknown, and a call may fail. -/
abbrev Clients : Type := Nat → Option (Address → Address → Option Nat)

inductive CheckError where
  | chainNotFound | balanceOf
  deriving DecidableEq

def addBalances (enough : Nat → Bool) (balanceOf : Address → Option Nat) :
    Nat → List Address → Except CheckError Bool
  | _, [] => .ok false
  | total, wallet :: wallets =>
    match balanceOf wallet with
    | none => .error .balanceOf
    | some balance =>
      if enough (total + balance) then .ok true
      else addBalances enough balanceOf (total + balance) wallets

def evaluateTokenOperation (enough : Nat → Bool) (clients : Clients) (op : CheckOperation)
    (linkedWallets : List Address) : Except CheckError Bool :=
  match clients (op.chainId % 2 ^ 64) with
  | none => .error .chainNotFound
  | some balanceOf => addBalances enough (balanceOf op.contractAddress) 0 linkedWallets

def evaluateErc20Operation (clients : Clients) (op : CheckOperation) :
    List Address → Except CheckError Bool :=
  evaluateTokenOperation (fun total => 0 < op.threshold ∧ 0 < total ∧ op.threshold ≤ total) clients
    op

def evaluateErc721Operation (clients : Clients) (op : CheckOperation) :
    List Address → Except CheckError Bool :=
  evaluateTokenOperation (fun total => op.threshold ≤ total) clients op

theorem addBalances_eq {enough : Nat → Bool} {threshold total : Nat}
    {balanceOf : Address → Option Nat} {balance : Address → Nat} {wallets : List Address}
    (henough : ∀ total, enough total = decide (threshold ≤ total)) (htotal : total < threshold)
    (h : ∀ wallet ∈ wallets, balanceOf wallet = some (balance wallet)) :
    addBalances enough balanceOf total wallets =
      .ok (decide (threshold ≤ total + (wallets.map balance).sum)) := by
  induction wallets generalizing total with
  | nil => simp [addBalances, htotal]
  | cons wallet wallets ih =>
    rw [forall_mem_cons] at h
    rw [addBalances, h.1, map_cons, sum_cons]
    simp only [henough, decide_eq_true_eq]
    split
    · rw [decide_eq_true (by omega)]
    · rw [ih (by omega) h.2, Nat.add_assoc]

theorem evaluateTokenOperation_iff {enough : Nat → Bool} {clients : Clients} {op : CheckOperation}
    (henough : ∀ total, enough total = decide (op.threshold ≤ total))
    (hthreshold : 0 < op.threshold) {balanceOf : Address → Address → Option Nat}
    (hclient : clients (op.chainId % 2 ^ 64) = some balanceOf) {balance : Address → Nat}
    {wallets : List Address}
    (hbalance : ∀ wallet ∈ wallets, balanceOf op.contractAddress wallet = some (balance wallet)) :
    evaluateTokenOperation enough clients op wallets =
        .ok (decide (op.threshold ≤ ∑ wallet ∈ wallets.toFinset, balance wallet)) ↔
      ¬ (∑ wallet ∈ wallets.toFinset, balance wallet < op.threshold ∧
        op.threshold ≤ (wallets.map balance).sum) := by
  -- the sum over the set is the one over the list without its duplicates
  have hle : ∑ wallet ∈ wallets.toFinset, balance wallet ≤ (wallets.map balance).sum :=
    ((dedup_sublist wallets).map balance).sum_le_sum fun _ _ => Nat.zero_le _
  rw [evaluateTokenOperation, hclient]
  simp only
  rw [addBalances_eq henough hthreshold hbalance, Except.ok.injEq, decide_eq_decide]
  omega

/-- **Token thresholds.** If no call fails, then a check of ERC20 or ERC721 tokens passes exactly
    if the balances of the user's wallets, each counted once, reach the threshold: unless they do
    so only by counting a wallet of the list twice. -/
theorem token_checks_count_once (principal : Address) (linked : List Address) {clients : Clients}
    {op : CheckOperation} (hthreshold : 0 < op.threshold)
    {balanceOf : Address → Address → Option Nat}
    (hclient : clients (op.chainId % 2 ^ 64) = some balanceOf) {balance : Address → Nat}
    (hbalance : ∀ wallet ∈ linked ++ [principal],
      balanceOf op.contractAddress wallet = some (balance wallet)) :
    let wallets := linked ++ [principal]
    let once := ∑ wallet ∈ wallets.toFinset, balance wallet
    (evaluateErc20Operation clients op wallets = .ok (decide (op.threshold ≤ once)) ↔
      ¬ (once < op.threshold ∧ op.threshold ≤ (wallets.map balance).sum)) ∧
    (evaluateErc721Operation clients op wallets = .ok (decide (op.threshold ≤ once)) ↔
      ¬ (once < op.threshold ∧ op.threshold ≤ (wallets.map balance).sum)) := by
  refine ⟨evaluateTokenOperation_iff (fun total => ?_) hthreshold hclient hbalance,
    evaluateTokenOperation_iff (fun total => rfl) hthreshold hclient hbalance⟩
  rw [decide_eq_decide]
  omega

/-- Wallet 6 is linked to user 5, and together they have eleven tokens. -/
theorem token_checks_linked :
    evaluateErc20Operation (fun _ => some fun _ wallet => some wallet) ⟨.erc20, 1, 9, 10⟩
      ([6] ++ [5]) = .ok true :=
  ((token_checks_count_once 5 [6] (by decide) rfl fun _ _ => rfl).1.2 (by decide)).trans
    (by decide)

/-- Without a contract for links the user 5 stands in the list twice: five tokens pass for ten. -/
theorem token_checks_count_twice :
    (sampleChain false []).linkedWallets 5 = .ok [5] ∧
      evaluateErc20Operation (fun _ => some fun _ wallet => some wallet) ⟨.erc20, 1, 9, 10⟩
        ([5] ++ [5]) = .ok true ∧
      ∑ wallet ∈ ([5] ++ [5] : List Address).toFinset, wallet < 10 := by
  refine ⟨rfl, by decide, by decide⟩

end River.Node.Auth
