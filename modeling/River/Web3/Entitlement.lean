/-
  Rule data in the client (core/web3/src/entitlement.ts).
-/

import River.Contracts.RuleEntitlement
import Mathlib.Data.List.GetD

namespace River.Web3

open List

open Contracts (RuleData CheckOperation LogicalOperationType logicalType)
open Lib (LogicTree LogicOp Token opCount)

inductive Operation where
  | undefined
  | noop
  | check (operation : CheckOperation)
  | logical (logicalType : LogicalOperationType) (leftOperation rightOperation : Operation)

inductive JsError where
  | typeError
  | missingOperations
  | invalidPostOrderArray

def Operation.isUndefined : Operation → Bool
  | .undefined => true
  | _ => false

/-! ## The functions -/

def postOrderTraversal : Operation → RuleData → Except JsError RuleData
  | .undefined, _ => .error .typeError
  | .noop, data => .ok data
  | .check operation, data =>
    .ok { data with
      checkOperations := data.checkOperations ++ [operation]
      operations := data.operations ++ [⟨.check, data.checkOperations.length⟩] }
  | .logical type left right, data => do
    let data ← postOrderTraversal left data
    let data ← postOrderTraversal right data
    .ok { data with
      logicalOperations := data.logicalOperations ++
        [⟨type, data.logicalOperations.length, data.logicalOperations.length + 1⟩]
      operations := data.operations ++ [⟨.logical, data.logicalOperations.length⟩] }

def treeToRuleData (root : Operation) : Except JsError RuleData :=
  postOrderTraversal root ⟨[], [], []⟩

def decodeOperation (data : RuleData) (decoded : List Operation) (operation : Contracts.Operation) :
    Except JsError Operation :=
  match operation.opType with
  | .check =>
    match data.checkOperations[operation.index]? with
    | none => .error .typeError
    | some checkOperation => .ok (.check checkOperation)
  | .logical =>
    match data.logicalOperations[operation.index]? with
    | none => .error .typeError
    | some logicalOperation =>
      .ok (.logical logicalOperation.logOpType
        (decoded.getD logicalOperation.leftOperationIndex .undefined)
        (decoded.getD logicalOperation.rightOperationIndex .undefined))
  | .none => .ok .noop

def decodeOperations (data : RuleData) :
    List Contracts.Operation → List Operation → Except JsError (List Operation)
  | [], decoded => .ok decoded
  | operation :: rest, decoded => do
    let op ← decodeOperation data decoded operation
    decodeOperations data rest (decoded ++ [op])

def ruleDataToOperations : List RuleData → Except JsError (List Operation)
  | [] => .ok []
  | firstData :: _ => decodeOperations firstData firstData.operations []

def stackStep (stack : List Operation) : Operation → Except JsError (List Operation)
  | .undefined => .error .typeError
  | .noop => .ok (.noop :: stack)
  | .check operation => .ok (.check operation :: stack)
  | .logical type _ _ =>
    match stack with
    | right :: left :: stack =>
      if left.isUndefined = true ∨ right.isUndefined = true then .error .missingOperations
      else .ok (.logical type left right :: stack)
    | _ => .error .missingOperations

def stackLoop : List Operation → List Operation → Except JsError (List Operation)
  | [], stack => .ok stack
  | op :: operations, stack => do
    let stack ← stackStep stack op
    stackLoop operations stack

def postOrderArrayToTree (operations : List Operation) : Except JsError Operation := do
  let stack ← stackLoop operations []
  match stack with
  | root :: _ => if root.isUndefined = true then .error .invalidPostOrderArray else .ok root
  | [] => .error .invalidPostOrderArray

def ofTree : LogicTree CheckOperation → Operation
  | .leaf operation => .check operation
  | .node op left right => .logical (logicalType op) (ofTree left) (ofTree right)

/-! ## What the encoder writes -/

def operationsFrom : List (Token CheckOperation) → Nat → Nat → List Contracts.Operation
  | [], _, _ => []
  | .leaf _ :: tokens, checks, logicals =>
    ⟨.check, checks⟩ :: operationsFrom tokens (checks + 1) logicals
  | .op _ :: tokens, checks, logicals =>
    ⟨.logical, logicals⟩ :: operationsFrom tokens checks (logicals + 1)

def checksOf : List (Token CheckOperation) → List CheckOperation
  | [] => []
  | .leaf operation :: tokens => operation :: checksOf tokens
  | .op _ :: tokens => checksOf tokens

def logicalsFrom : List (Token CheckOperation) → Nat → List Contracts.LogicalOperation
  | [], _ => []
  | .leaf _ :: tokens, logicals => logicalsFrom tokens logicals
  | .op o :: tokens, logicals =>
    ⟨logicalType o, logicals, logicals + 1⟩ :: logicalsFrom tokens (logicals + 1)

def pushTokens (tokens : List (Token CheckOperation)) (data : RuleData) : RuleData :=
  ⟨data.operations ++ operationsFrom tokens data.checkOperations.length
    data.logicalOperations.length,
    data.checkOperations ++ checksOf tokens,
    data.logicalOperations ++ logicalsFrom tokens data.logicalOperations.length⟩

theorem checksOf_append (ts us : List (Token CheckOperation)) :
    checksOf (ts ++ us) = checksOf ts ++ checksOf us := by
  induction ts with
  | nil => rfl
  | cons token ts ih =>
    cases token with
    | leaf operation => rw [cons_append, checksOf, checksOf, ih, cons_append]
    | op o => rw [cons_append, checksOf, checksOf, ih]

theorem pushTokens_cons (token : Token CheckOperation) (ts : List (Token CheckOperation))
    (data : RuleData) :
    pushTokens (token :: ts) data = pushTokens ts (pushTokens [token] data) := by
  cases token <;> simp [pushTokens, operationsFrom, checksOf, logicalsFrom]

theorem pushTokens_append (ts us : List (Token CheckOperation)) (data : RuleData) :
    pushTokens (ts ++ us) data = pushTokens us (pushTokens ts data) := by
  induction ts generalizing data with
  | nil => simp [pushTokens, operationsFrom, checksOf, logicalsFrom]
  | cons token ts ih => rw [cons_append, pushTokens_cons, ih, ← pushTokens_cons]

variable (t : LogicTree CheckOperation)

theorem postOrderTraversal_ofTree (data : RuleData) :
    postOrderTraversal (ofTree t) data = .ok (pushTokens t.postOrder data) := by
  induction t generalizing data with
  | leaf operation =>
    simp [postOrderTraversal, ofTree, LogicTree.postOrder, pushTokens, operationsFrom, checksOf,
      logicalsFrom]
  | node op left right ihl ihr =>
    rw [ofTree, postOrderTraversal, ihl]
    show (postOrderTraversal (ofTree right) (pushTokens left.postOrder data) >>= _) = _
    rw [ihr, LogicTree.postOrder, pushTokens_append, pushTokens_append]
    show Except.ok _ = .ok _
    simp [pushTokens, operationsFrom, checksOf, logicalsFrom]

def encode : RuleData :=
  ⟨operationsFrom t.postOrder 0 0, checksOf t.postOrder, logicalsFrom t.postOrder 0⟩

theorem treeToRuleData_ofTree : treeToRuleData (ofTree t) = .ok (encode t) := by
  rw [treeToRuleData, postOrderTraversal_ofTree]
  simp [pushTokens, encode]

/-! ## What the decoder returns -/

def decodeToken (decoded : List Operation) (logicals : Nat) : Token CheckOperation → Operation
  | .leaf operation => .check operation
  | .op o => .logical (logicalType o) (decoded.getD logicals .undefined)
      (decoded.getD (logicals + 1) .undefined)

def decodeTokens : List (Token CheckOperation) → Nat → List Operation → List Operation
  | [], _, decoded => decoded
  | token :: tokens, logicals, decoded =>
    decodeTokens tokens (logicals + opCount [token])
      (decoded ++ [decodeToken decoded logicals token])

theorem decodeTokens_append (ts us : List (Token CheckOperation)) (logicals : Nat)
    (decoded : List Operation) :
    decodeTokens (ts ++ us) logicals decoded
      = decodeTokens us (logicals + opCount ts) (decodeTokens ts logicals decoded) := by
  induction ts generalizing logicals decoded with
  | nil => rfl
  | cons token ts ih =>
    rw [cons_append, decodeTokens, ih, decodeTokens, Lib.opCount_cons token ts, Nat.add_assoc]

variable (ts : List (Token CheckOperation))

theorem length_decodeTokens (logicals : Nat) (decoded : List Operation) :
    (decodeTokens ts logicals decoded).length = decoded.length + ts.length := by
  induction ts generalizing logicals decoded with
  | nil => rfl
  | cons token ts ih =>
    rw [decodeTokens, ih, length_append, length_singleton, length_cons]
    omega

theorem getD_decodeTokens (logicals : Nat) {decoded : List Operation} {i : Nat}
    (hi : i < decoded.length) :
    (decodeTokens ts logicals decoded).getD i .undefined = decoded.getD i .undefined := by
  induction ts generalizing logicals decoded with
  | nil => rfl
  | cons token ts ih =>
    have hlength : i < (decoded ++ [decodeToken decoded logicals token]).length := by
      rw [length_append]
      omega
    rw [decodeTokens, ih _ hlength, getD_append _ _ _ _ hi]

theorem getD_decodeTokens_split {before after : List (Token CheckOperation)}
    (token : Token CheckOperation) :
    (decodeTokens (before ++ token :: after) 0 []).getD before.length .undefined
      = decodeToken (decodeTokens before 0 []) (opCount before) token := by
  have hlength : (decodeTokens before 0 []).length = before.length := by
    rw [length_decodeTokens, length_nil, Nat.zero_add]
  rw [decodeTokens_append, decodeTokens, Nat.zero_add, getD_decodeTokens]
  · rw [getD_append_right _ _ _ _ (by omega), hlength, Nat.sub_self]
    rfl
  · rw [length_append, length_singleton]
    omega

theorem decodeOperations_operationsFrom (data : RuleData) (decoded : List Operation)
    (hchecks : data.checkOperations.drop checks = checksOf tokens)
    (hlogicals : data.logicalOperations.drop logicals = logicalsFrom tokens logicals) :
    decodeOperations data (operationsFrom tokens checks logicals) decoded
      = .ok (decodeTokens tokens logicals decoded) := by
  induction tokens generalizing checks logicals decoded with
  | nil => rfl
  | cons token tokens ih =>
    cases token with
    | leaf operation =>
      rw [checksOf] at hchecks
      have hget : data.checkOperations[checks]? = some operation := by
        have hhead := congrArg (·[0]?) hchecks
        simpa using hhead
      have hdrop : data.checkOperations.drop (checks + 1) = checksOf tokens := by
        rw [← drop_drop, hchecks]
        rfl
      have hdecode : decodeOperation data decoded ⟨.check, checks⟩ = .ok (.check operation) := by
        simp only [decodeOperation, hget]
      rw [operationsFrom, decodeOperations, hdecode]
      exact ih _ hdrop hlogicals
    | op o =>
      rw [logicalsFrom] at hlogicals
      have hget : data.logicalOperations[logicals]?
          = some ⟨logicalType o, logicals, logicals + 1⟩ := by
        have hhead := congrArg (·[0]?) hlogicals
        simpa using hhead
      have hdrop : data.logicalOperations.drop (logicals + 1)
          = logicalsFrom tokens (logicals + 1) := by
        rw [← drop_drop, hlogicals]
        rfl
      have hdecode : decodeOperation data decoded ⟨.logical, logicals⟩
          = .ok (decodeToken decoded logicals (.op o)) := by
        simp only [decodeOperation, hget, decodeToken]
      rw [operationsFrom, decodeOperations, hdecode]
      exact ih _ hchecks hdrop

theorem ruleDataToOperations_encode :
    ruleDataToOperations [encode t] = .ok (decodeTokens t.postOrder 0 []) :=
  decodeOperations_operationsFrom (encode t) [] rfl rfl

/-! ## The stack returns the tree -/

theorem ofTree_isUndefined : (ofTree t).isUndefined = false := by
  cases t <;> rfl

theorem stackLoop_append (ops ops' stack : List Operation) :
    stackLoop (ops ++ ops') stack = stackLoop ops stack >>= stackLoop ops' := by
  induction ops generalizing stack with
  | nil => rfl
  | cons op ops ih =>
    rw [cons_append, stackLoop, stackLoop]
    cases stackStep stack op with
    | error e => rfl
    | ok stack' => exact ih stack'

def Operation.kind : Operation → Option (Token CheckOperation)
  | .check operation => some (.leaf operation)
  | .logical .and _ _ => some (.op .and)
  | .logical .or _ _ => some (.op .or)
  | .logical .none _ _ | .noop | .undefined => none

theorem Operation.eq_of_kind_leaf {op : Operation}
    (h : op.kind = some (.leaf operation)) : op = .check operation := by
  cases op with
  | check c =>
    cases h
    rfl
  | logical type left right => cases type <;> cases h
  | _ => cases h

theorem Operation.eq_of_kind_op {op : Operation} (h : op.kind = some (.op o)) :
    ∃ left right, op = .logical (logicalType o) left right := by
  cases op with
  | logical type left right =>
    refine ⟨left, right, ?_⟩
    cases type with
    | none => cases h
    | _ =>
      cases h
      rfl
  | _ => cases h

open Operation

theorem stackLoop_postOrder {ops : List Operation}
    (hops : ops.map kind = t.postOrder.map some) (stack : List Operation) :
    stackLoop ops stack = .ok (ofTree t :: stack) := by
  induction t generalizing ops stack with
  | leaf operation =>
    rw [LogicTree.postOrder, map_singleton, map_eq_singleton_iff] at hops
    obtain ⟨op, rfl, hkind⟩ := hops
    rw [eq_of_kind_leaf hkind]
    rfl
  | node o left right ihl ihr =>
    rw [LogicTree.postOrder, map_append, map_append, map_eq_append_iff] at hops
    obtain ⟨_, _, rfl, hops', hlast⟩ := hops
    obtain ⟨_, rights, rfl, hlefts, hrights⟩ := map_eq_append_iff.1 hops'
    rw [map_singleton, map_eq_singleton_iff] at hlast
    obtain ⟨op, rfl, hkind⟩ := hlast
    obtain ⟨l, r, rfl⟩ := eq_of_kind_op hkind
    rw [stackLoop_append, stackLoop_append, ihl hlefts]
    show (stackLoop rights (ofTree left :: stack) >>= _) = _
    rw [ihr hrights]
    show stackLoop [.logical (logicalType o) l r] (ofTree right :: ofTree left :: stack) = _
    rw [stackLoop, stackStep, if_neg]
    · rfl
    · rw [ofTree_isUndefined, ofTree_isUndefined]
      decide

theorem map_kind_decodeTokens (logicals : Nat) (decoded : List Operation) :
    (decodeTokens ts logicals decoded).map kind
      = decoded.map kind ++ ts.map some := by
  induction ts generalizing logicals decoded with
  | nil => simp [decodeTokens]
  | cons token ts ih =>
    have hkind : (decodeToken decoded logicals token).kind = some token := by
      cases token with
      | leaf operation => rfl
      | op o => cases o <;> rfl
    rw [decodeTokens, ih, map_append, map_singleton, hkind, append_assoc]
    rfl

theorem postOrderArrayToTree_encode :
    (ruleDataToOperations [encode t] >>= postOrderArrayToTree) = .ok (ofTree t) := by
  rw [ruleDataToOperations_encode]
  show postOrderArrayToTree (decodeTokens t.postOrder 0 []) = .ok (ofTree t)
  have hkinds : (decodeTokens t.postOrder 0 []).map kind = t.postOrder.map some :=
    map_kind_decodeTokens t.postOrder 0 []
  have hstack := stackLoop_postOrder t hkinds []
  rw [postOrderArrayToTree, hstack]
  show (if (ofTree t).isUndefined = true then _ else Except.ok (ofTree t)) = _
  rw [if_neg (by rw [ofTree_isUndefined]; decide)]

end River.Web3
