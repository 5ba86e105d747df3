/-
  From a tree in the client to the tree in the nodes: the client encodes the tree, the rule
  entitlement accepts the data, and the stack of the node and that of the client return the tree.
-/

import River.Web3.Entitlement
import River.Xchain.OperationTree

namespace River.Xchain

open List

open Contracts (RuleData CheckOperation logicalType)
open Lib (LogicTree Token opCount)
open Web3 (checksOf checksOf_append logicalsFrom operationsFrom encode)

/-! ## The encoding, entry by entry -/

variable (ts us : List (Token CheckOperation))

theorem length_checksOf (ts : List (Token CheckOperation)) :
    (checksOf ts).length + opCount ts = ts.length := by
  induction ts with
  | nil => rfl
  | cons token ts ih =>
    rw [Lib.opCount_cons, length_cons]
    cases token with
    | leaf operation =>
      rw [checksOf, length_cons, Lib.opCount_leaf]
      omega
    | op o =>
      rw [checksOf, Lib.opCount_op]
      omega

theorem logicalsFrom_append (logicals : Nat) : logicalsFrom (ts ++ us) logicals
      = logicalsFrom ts logicals ++ logicalsFrom us (logicals + opCount ts) := by
  induction ts generalizing logicals with
  | nil => rfl
  | cons token ts ih =>
    cases token with
    | leaf operation =>
      rw [cons_append, logicalsFrom, logicalsFrom, ih, Lib.opCount_cons, Lib.opCount_leaf,
        Nat.zero_add]
    | op o =>
      rw [cons_append, logicalsFrom, logicalsFrom, ih, Lib.opCount_cons, Lib.opCount_op,
        cons_append, Nat.add_assoc]

theorem length_logicalsFrom (ts : List (Token CheckOperation)) (logicals : Nat) :
    (logicalsFrom ts logicals).length = opCount ts := by
  induction ts generalizing logicals with
  | nil => rfl
  | cons token ts ih =>
    cases token with
    | leaf operation => rw [logicalsFrom, ih, Lib.opCount_cons, Lib.opCount_leaf, Nat.zero_add]
    | op o => rw [logicalsFrom, length_cons, ih, Lib.opCount_cons, Lib.opCount_op, Nat.add_comm]

theorem operationsFrom_append (checks logicals : Nat) : operationsFrom (ts ++ us) checks logicals
      = operationsFrom ts checks logicals
        ++ operationsFrom us (checks + (checksOf ts).length) (logicals + opCount ts) := by
  induction ts generalizing checks logicals with
  | nil => rfl
  | cons token ts ih =>
    cases token with
    | leaf operation =>
      rw [cons_append, operationsFrom, operationsFrom, ih, checksOf, length_cons, Lib.opCount_cons,
        Lib.opCount_leaf, Nat.zero_add, cons_append, Nat.add_assoc, Nat.add_comm 1]
    | op o =>
      rw [cons_append, operationsFrom, operationsFrom, ih, checksOf, Lib.opCount_cons,
        Lib.opCount_op,
        cons_append, Nat.add_assoc]

theorem length_operationsFrom (ts : List (Token CheckOperation)) (checks logicals : Nat) :
    (operationsFrom ts checks logicals).length = ts.length := by
  induction ts generalizing checks logicals with
  | nil => rfl
  | cons token ts ih =>
    cases token <;> rw [operationsFrom, length_cons, ih, length_cons]

theorem getElem?_append_cons (xs ys : List α) (y : α) : (xs ++ y :: ys)[xs.length]? = some y := by
  rw [getElem?_append_right (Nat.le_refl _), Nat.sub_self]
  rfl

variable {t : LogicTree CheckOperation} {before after : List (Token CheckOperation)}

theorem encode_leaf {operation : CheckOperation}
    (h : t.postOrder = before ++ .leaf operation :: after) :
    (encode t).operations[before.length]? = some ⟨.check, (checksOf before).length⟩ ∧
    (encode t).checkOperations[(checksOf before).length]? = some operation := by
  unfold encode
  rw [h]
  constructor
  · rw [operationsFrom_append, Nat.zero_add, ← length_operationsFrom before 0 0]
    exact getElem?_append_cons _ _ _
  · rw [checksOf_append]
    exact getElem?_append_cons _ _ _

theorem encode_op {o : Lib.LogicOp} (h : t.postOrder = before ++ .op o :: after) :
    (encode t).operations[before.length]? = some ⟨.logical, opCount before⟩ ∧
    (encode t).logicalOperations[opCount before]?
      = some ⟨logicalType o, opCount before, opCount before + 1⟩ := by
  unfold encode
  rw [h]
  constructor
  · rw [operationsFrom_append, operationsFrom, Nat.zero_add, ← length_operationsFrom before 0 0]
    exact getElem?_append_cons _ _ _
  · have hlength := length_logicalsFrom before 0
    rw [logicalsFrom_append, Nat.zero_add]
    rw [← hlength]
    exact getElem?_append_cons _ _ _

theorem length_encode (t : LogicTree CheckOperation) : (encode t).operations.length = t.size := by
  rw [encode, length_operationsFrom, LogicTree.length_postOrder]

theorem encode_at {p : Nat} {operation : Contracts.Operation}
    (h : (encode t).operations[p]? = some operation) :
    p < t.size ∧ ∃ before token after, t.postOrder = before ++ token :: after ∧
      before.length = p := by
  have hp : p < t.size := by
    rw [← length_encode]
    exact (List.getElem?_eq_some_iff.1 h).1
  exact ⟨hp, LogicTree.exists_split hp⟩

/-! ## What the rule entitlement and the node see -/

theorem lists_encode (t : LogicTree CheckOperation) : Lists (encode t) t.postOrder := by
  apply ext_getElem?
  intro p
  rw [getElem?_map, getElem?_map]
  by_cases hp : p < t.size
  · obtain ⟨before, token, _, hsplit, rfl⟩ := LogicTree.exists_split hp
    have htoken : t.postOrder[before.length]? = some token := by
      rw [hsplit]
      exact getElem?_append_cons _ _ _
    rw [htoken]
    cases token with
    | leaf operation =>
      obtain ⟨hop, hcheck⟩ := encode_leaf hsplit
      rw [hop]
      simp only [Option.map_some, tokenOf, hcheck]
    | op o =>
      obtain ⟨hop, hlogical⟩ := encode_op hsplit
      rw [hop]
      simp only [Option.map_some, tokenOf, hlogical]
      cases o with
      | and => rfl
      | or => rfl
  · have hlength : t.size ≤ p := Nat.le_of_not_lt hp
    rw [getElem?_eq_none (by rw [length_encode]; exact hlength),
      getElem?_eq_none (by rw [LogicTree.length_postOrder]; exact hlength)]
    rfl

theorem Lists.onlyChecksAndLogic (h : Lists data tokens) : OnlyChecksAndLogic data := by
  intro operation hop
  have htoken : tokenOf data operation ∈ tokens.map some := h ▸ mem_map_of_mem hop
  obtain ⟨_, -, htoken⟩ := mem_map.1 htoken
  obtain ⟨opType, index⟩ := operation
  cases opType with
  | none => cases htoken
  | check => rfl
  | logical =>
    unfold tokenOf at htoken
    unfold isCheckOrLogic
    match data.logicalOperations[index]?, htoken with
    | some ⟨.and, _, _⟩, _ => rfl
    | some ⟨.or, _, _⟩, _ => rfl

theorem logicalsFrom_indices_le {ts : List (Token CheckOperation)} {logicals : Nat}
    {operation : Contracts.LogicalOperation} (h : operation ∈ logicalsFrom ts logicals) :
    operation.leftOperationIndex + 1 ≤ logicals + opCount ts ∧
      operation.rightOperationIndex ≤ logicals + opCount ts := by
  induction ts generalizing logicals with
  | nil => cases h
  | cons token ts ih =>
    rw [Lib.opCount_cons]
    cases token with
    | leaf c =>
      rw [Lib.opCount_leaf, Nat.zero_add]
      exact ih h
    | op o =>
      rw [Lib.opCount_op]
      rcases mem_cons.1 h with rfl | hrest
      · simp only
        omega
      · have hle := ih hrest
        omega

theorem fitsUint8_encode (hsize : t.size ≤ 256) : (encode t).fitsUint8 = true := by
  rw [RuleData.fitsUint8, Bool.and_eq_true, all_eq_true, all_eq_true]
  constructor
  · intro operation hmem
    obtain ⟨p, hop⟩ := mem_iff_getElem?.1 hmem
    obtain ⟨_, before, token, _, hsplit, rfl⟩ := encode_at hop
    have hbefore := length_checksOf before
    -- the index counts some of the operations before
    cases token with
    | leaf c =>
      rw [(encode_leaf hsplit).1] at hop
      cases hop
      have hindex : (checksOf before).length < 256 := by omega
      exact decide_eq_true hindex
    | op o =>
      rw [(encode_op hsplit).1] at hop
      cases hop
      have hindex : opCount before < 256 := by omega
      exact decide_eq_true hindex
  · intro operation hmem
    have hle := logicalsFrom_indices_le hmem
    rw [Lib.opCount_postOrder] at hle
    have hnodes := t.size_eq
    rw [Bool.and_eq_true]
    exact ⟨decide_eq_true (by omega), decide_eq_true (by omega)⟩

theorem accepted_encode (hsize : t.size ≤ 256) : (encode t).Accepted := by
  rw [RuleData.accepted_iff]
  refine ⟨fitsUint8_encode hsize, ?_⟩
  intro p operation hop
  obtain ⟨-, before, token, _, hsplit, rfl⟩ := encode_at hop
  cases token with
  | leaf c =>
    obtain ⟨hop', hcheck⟩ := encode_leaf hsplit
    rw [hop'] at hop
    cases hop
    exact RuleData.validateOperation_check.2 ⟨_, hcheck⟩
  | op o =>
    obtain ⟨hop', hlogical⟩ := encode_op hsplit
    rw [hop'] at hop
    cases hop
    -- two operands at least come before, so the position is larger than both indices
    have hoperands := Lib.two_operands hsplit
    refine RuleData.validateOperation_logical.2 ⟨_, hlogical, ?_, ?_⟩
    · show opCount before < before.length
      omega
    · show opCount before + 1 < before.length
      omega

theorem getOperationTree_encode (hsize : t.size ≤ 256) :
    getOperationTree (encode t) = .ok (ofTree t) := by
  have hlists := lists_encode t
  obtain ⟨_, htokens, hresult⟩ :=
    getOperationTree_eq (accepted_encode hsize) hlists.onlyChecksAndLogic
  rw [hresult, htokens.unique hlists]
  exact treeOfListing_eq_ok.2 rfl

/-- A tree with at most 256 operations is encoded to data that the rule entitlement accepts and
    that both the node and the client read back as the tree. -/
theorem ruleData_pipeline (t : LogicTree CheckOperation) (hsize : t.size ≤ 256) :
    ∃ data, Web3.treeToRuleData (Web3.ofTree t) = .ok data ∧ data.Accepted ∧
      getOperationTree data = .ok (ofTree t) ∧
      (Web3.ruleDataToOperations [data] >>= Web3.postOrderArrayToTree) = .ok (Web3.ofTree t) :=
  ⟨encode t, Web3.treeToRuleData_ofTree t, accepted_encode hsize, getOperationTree_encode hsize,
    Web3.postOrderArrayToTree_encode t⟩

/-- An OR of an AND of two checks and a third check. -/
theorem ruleData_pipeline_three_checks :
    ∃ data,
      Web3.treeToRuleData (Web3.ofTree (.node .or
        (.node .and (.leaf ⟨.erc20, 1, 10, 5⟩) (.leaf ⟨.erc721, 1, 20, 1⟩))
        (.leaf ⟨.erc721, 1, 30, 1⟩))) = .ok data ∧
      data.Accepted ∧
      getOperationTree data = .ok (.or
        (.and (.check ⟨.erc20, 1, 10, 5⟩) (.check ⟨.erc721, 1, 20, 1⟩))
        (.check ⟨.erc721, 1, 30, 1⟩)) := by
  obtain ⟨data, hencode, haccepted, hnode, -⟩ := ruleData_pipeline (.node .or
    (.node .and (.leaf ⟨.erc20, 1, 10, 5⟩) (.leaf ⟨.erc721, 1, 20, 1⟩))
    (.leaf ⟨.erc721, 1, 30, 1⟩)) (by decide)
  exact ⟨data, hencode, haccepted, hnode⟩

end River.Xchain
