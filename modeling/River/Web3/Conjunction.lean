/-
  Rule data for a list of checks that all have to pass (`createOperationsTree` and
  `createContractCheckOperationFromTree` of core/web3/src/entitlement.ts).
-/

import River.Web3.Entitlement

namespace River.Web3

open List

open Contracts (RuleData CheckOperation CheckOperationType)
open Lib (LogicTree Token)

structure ContractCheckOperation (τ : Type) where
  type : CheckOperationType
  chainId : Nat
  address : Nat
  threshold : τ

def ContractCheckOperation.toCheck (op : ContractCheckOperation (Option Nat)) : CheckOperation :=
  ⟨op.type, op.chainId, op.address, op.threshold.getD 1⟩

def pairUp : List Operation → List Operation
  | left :: right :: operations => .logical .and left right :: pairUp operations
  | operations => operations

theorem length_pairUp (operations : List Operation) :
    (pairUp operations).length = (operations.length + 1) / 2 := by
  fun_induction pairUp with
  | case1 left right operations ih =>
    simp only [length_cons]
    omega
  | case2 operations hshort =>
    match operations, hshort with
    | [], _ => simp
    | [_], _ => simp
    | left :: right :: rest, hshort => exact (hshort left right rest rfl).elim

def joinAll (operations : List Operation) : List Operation :=
  if operations.length > 1 then joinAll (pairUp operations) else operations
termination_by operations.length
decreasing_by
  rw [length_pairUp]
  omega

def createOperationsTree (checkOp : List (ContractCheckOperation (Option Nat))) :
    Except JsError RuleData :=
  if checkOp.length = 0 then .ok ⟨[⟨.none, 0⟩], [], []⟩
  else treeToRuleData ((joinAll (checkOp.map fun op => .check op.toCheck)).headD .undefined)

def createContractCheckOperationFromTree (entitlementData : RuleData) :
    Except JsError (List (ContractCheckOperation Nat)) := do
  let operations ← ruleDataToOperations [entitlementData]
  .ok (operations.filterMap fun operation =>
    match operation with
    | .check op => some ⟨op.opType, op.chainId, op.contractAddress, op.threshold⟩
    | _ => none)

/-! ## One level -/

/-- The operations are trees that check everything in `checks`, in order. -/
inductive Conjoined : List Operation → List CheckOperation → Prop where
  | nil : Conjoined [] []
  | cons {t : LogicTree CheckOperation} {operations : List Operation} {checks : List CheckOperation}
      (eval : ∀ value, t.eval value = (checksOf t.postOrder).all value)
      (rest : Conjoined operations checks) :
      Conjoined (ofTree t :: operations) (checksOf t.postOrder ++ checks)

theorem Conjoined.pairUp {operations : List Operation} {checks : List CheckOperation}
    (h : Conjoined operations checks) : Conjoined (pairUp operations) checks := by
  rcases h with - | @⟨left, _, _, hleft, - | @⟨right, _, _, hright, rest⟩⟩
  · exact .nil
  · exact .cons hleft .nil
  · have hboth : checksOf (LogicTree.node .and left right).postOrder =
        checksOf left.postOrder ++ checksOf right.postOrder := by
      simp [LogicTree.postOrder, checksOf_append, checksOf]
    rw [← append_assoc, ← hboth]
    refine .cons (t := .node .and left right) (fun value => ?_) rest.pairUp
    rw [hboth, all_append, ← hleft, ← hright]
    rfl

theorem Conjoined.joinAll {operations : List Operation} {checks : List CheckOperation}
    (h : Conjoined operations checks) (hsome : operations ≠ []) :
    ∃ t, joinAll operations = [ofTree t] ∧ checksOf t.postOrder = checks ∧
      ∀ value, t.eval value = checks.all value := by
  fun_induction Web3.joinAll operations with
  | case1 operations hlong ih =>
    refine ih h.pairUp fun hnil => ?_
    have hlength := length_pairUp operations
    rw [hnil, length_nil] at hlength
    omega
  | case2 operations hshort =>
    cases h with
    | nil => exact absurd rfl hsome
    | cons eval rest =>
      cases rest with
      | nil => exact ⟨_, rfl, (append_nil _).symm, by simpa using eval⟩
      | cons => exact absurd (by simp) hshort

theorem conjoined_checks (checks : List CheckOperation) : Conjoined (checks.map .check) checks := by
  induction checks with
  | nil => exact .nil
  | cons check checks ih =>
    refine .cons (t := .leaf check) (fun value => ?_) ih
    simp [LogicTree.eval, LogicTree.postOrder, checksOf]

theorem filterMap_decodeTokens {β : Type} (f : CheckOperation → β)
    (ts : List (Token CheckOperation)) (logicals : Nat) (decoded : List Operation) :
    (decodeTokens ts logicals decoded).filterMap (fun | .check op => some (f op) | _ => none) =
      decoded.filterMap (fun | .check op => some (f op) | _ => none) ++ (checksOf ts).map f := by
  induction ts generalizing logicals decoded with
  | nil => simp [decodeTokens, checksOf]
  | cons token ts ih => cases token <;> simp [decodeTokens, ih, decodeToken, checksOf]

/-- **Conjunction.** For every list of checks but the empty one, the tree that is encoded is a
    conjunction of all of them, and the checks are read back in their order. -/
theorem createOperationsTree_conjunction (checkOp : List (ContractCheckOperation (Option Nat)))
    (hsome : checkOp ≠ []) :
    ∃ data t, createOperationsTree checkOp = .ok data ∧
      (ruleDataToOperations [data] >>= postOrderArrayToTree) = .ok (ofTree t) ∧
      (∀ value, t.eval value = checkOp.all fun op => value op.toCheck) ∧
      createContractCheckOperationFromTree data = .ok (checkOp.map fun op =>
        ⟨op.type, op.chainId, op.address, op.threshold.getD 1⟩) := by
  obtain ⟨t, htree, hchecks, heval⟩ := (conjoined_checks (checkOp.map (·.toCheck))).joinAll
    (by simpa using hsome)
  refine ⟨encode t, t, ?_, postOrderArrayToTree_encode t, fun value => ?_, ?_⟩
  · rw [map_map] at htree
    rw [createOperationsTree, if_neg (by simpa using hsome)]
    exact (congrArg (fun ops => treeToRuleData (ops.headD .undefined)) htree).trans
      (treeToRuleData_ofTree t)
  · rw [heval, all_map]
    rfl
  · rw [createContractCheckOperationFromTree, ruleDataToOperations_encode]
    refine congrArg Except.ok ?_
    rw [filterMap_decodeTokens, hchecks]
    simp [ContractCheckOperation.toCheck]

theorem createOperationsTree_conjunction_two :
    ∃ data t, createOperationsTree [⟨.erc20, 1, 10, some 5⟩, ⟨.erc721, 1, 20, none⟩] = .ok data ∧
      (ruleDataToOperations [data] >>= postOrderArrayToTree) = .ok (ofTree t) ∧
      (∀ value, t.eval value = ([⟨.erc20, 1, 10, 5⟩, ⟨.erc721, 1, 20, 1⟩].all value)) ∧
      createContractCheckOperationFromTree data = .ok [⟨.erc20, 1, 10, 5⟩, ⟨.erc721, 1, 20, 1⟩] :=
  createOperationsTree_conjunction [⟨.erc20, 1, 10, some 5⟩, ⟨.erc721, 1, 20, none⟩] (by simp)

end River.Web3
