/-
  The operand indices of the client: operation number `j` gets the operands at `j` and `j + 1`.
-/

import River.Web3.Entitlement

namespace River.Web3

open List

open Contracts (RuleData CheckOperation logicalType)
open Lib (LogicTree Token opCount)

def Operation.logicals : Operation → Nat
  | .logical _ left right => left.logicals + right.logicals + 1
  | .check _ | .noop | .undefined => 0

theorem logicals_ofTree (t : LogicTree CheckOperation) : (ofTree t).logicals = t.nodes := by
  induction t with
  | leaf operation => rfl
  | node op left right ihl ihr => rw [ofTree, Operation.logicals, ihl, ihr, LogicTree.nodes]

section Decoded

variable (t : LogicTree CheckOperation)

def decodedAt (p : Nat) : Operation := (decodeTokens t.postOrder 0 []).getD p .undefined

variable {t}

theorem decodedAt_cases {before after : List (Token CheckOperation)} {token : Token CheckOperation}
    (h : t.postOrder = before ++ token :: after) :
    (∃ operation, decodedAt t before.length = .check operation) ∨
    (2 * opCount before + 2 ≤ before.length ∧ (∃ o, token = .op o) ∧
      ∃ type, decodedAt t before.length =
        .logical type (decodedAt t (opCount before)) (decodedAt t (opCount before + 1))) := by
  have hdecoded : decodedAt t before.length
      = decodeToken (decodeTokens before 0 []) (opCount before) token := by
    unfold decodedAt
    rw [h]
    exact getD_decodeTokens_split token
  cases token with
  | leaf operation => exact .inl ⟨operation, hdecoded⟩
  | op o =>
    right
    have hoperands := Lib.two_operands h
    have hlength : (decodeTokens before 0 []).length = before.length := by
      rw [length_decodeTokens, length_nil, Nat.zero_add]
    -- both operands were decoded before the operation
    have hearlier : ∀ i, i < before.length →
        decodedAt t i = (decodeTokens before 0 []).getD i .undefined := by
      intro i hi
      unfold decodedAt
      rw [h, decodeTokens_append]
      exact getD_decodeTokens _ _ (by omega)
    refine ⟨hoperands, ⟨o, rfl⟩, logicalType o, ?_⟩
    rw [hdecoded, hearlier _ (by omega), hearlier _ (by omega)]
    rfl

theorem decodedAt_of_le {p : Nat} (hp : t.size ≤ p) : decodedAt t p = .undefined := by
  apply getD_eq_default
  rw [length_decodeTokens, length_nil, LogicTree.length_postOrder, Nat.zero_add]
  exact hp

theorem logicals_le (p : Nat) : (decodedAt t p).logicals ≤ p / 2 := by
  induction p using Nat.strongRecOn with
  | _ p ih =>
    by_cases hp : p < t.size
    · obtain ⟨before, _, _, hsplit, rfl⟩ := LogicTree.exists_split hp
      rcases decodedAt_cases hsplit with ⟨_, hcheck⟩ | ⟨_, -, _, hlogical⟩
      · rw [hcheck]
        exact Nat.zero_le _
      have hleft := ih (opCount before) (by omega)
      have hright := ih (opCount before + 1) (by omega)
      rw [hlogical, Operation.logicals]
      omega
    · rw [decodedAt_of_le (Nat.le_of_not_lt hp)]
      exact Nat.zero_le _

def Tight (t : LogicTree CheckOperation) (p : Nat) : Prop := (decodedAt t p).logicals = p / 2

theorem Tight.operands {p : Nat} (h : Tight t p) (hp : 2 ≤ p) :
    ∃ before token after, t.postOrder = before ++ token :: after ∧ before.length = p ∧
      (∃ o, token = .op o) ∧ opCount before + 1 = p / 2 ∧
      Tight t (opCount before) ∧ Tight t (opCount before + 1) := by
  unfold Tight at h
  have hsize : p < t.size := by
    by_contra hge
    rw [decodedAt_of_le (Nat.le_of_not_lt hge)] at h
    have hzero : (0 : Nat) = p / 2 := h
    omega
  obtain ⟨before, token, after, hsplit, rfl⟩ := LogicTree.exists_split hsize
  refine ⟨before, token, after, hsplit, rfl, ?_⟩
  rcases decodedAt_cases hsplit with ⟨_, hcheck⟩ | ⟨_, hop, _, hlogical⟩
  · rw [hcheck] at h
    have hzero : (0 : Nat) = before.length / 2 := h
    omega
  · have hleft := logicals_le (t := t) (opCount before)
    have hright := logicals_le (t := t) (opCount before + 1)
    rw [hlogical, Operation.logicals] at h
    refine ⟨hop, by omega, ?_, ?_⟩
    · unfold Tight
      omega
    · unfold Tight
      omega

theorem not_tight_even {k : Nat} (hk : 1 ≤ k) (h : Tight t (2 * k)) (h' : Tight t (2 * k + 1)) :
    False := by
  obtain ⟨before, -, _, hsplit, hlength, ⟨o, rfl⟩, _, -⟩ := h.operands (by omega)
  obtain ⟨before', _, _, hsplit', hlength', -, hcount', -⟩ := h'.operands (by omega)
  have hbefore : before' = before ++ [.op o] := by
    have htake : before' = t.postOrder.take before'.length := by
      rw [hsplit', take_left']
      rfl
    rw [htake, hlength', hsplit, append_cons, ← hlength]
    rw [take_left']
    simp
  rw [hbefore, Lib.opCount_append, Lib.opCount_op] at hcount'
  omega

theorem not_tight_pair {i : Nat} (hi : 2 ≤ i) (h : Tight t i) (h' : Tight t (i + 1)) : False := by
  induction i using Nat.strongRecOn with
  | _ i ih =>
    obtain ⟨k, rfl | rfl⟩ : ∃ k, i = 2 * k ∨ i = 2 * k + 1 := ⟨i / 2, by omega⟩
    · exact not_tight_even (by omega) h h'
    -- an odd position: the operands of the next one are neighbours as well
    obtain ⟨before, -, -, -, -, -, _, hleft, hright⟩ := h'.operands (by omega)
    have hk : opCount before = k := by omega
    rw [hk] at hleft hright
    by_cases hlarge : 2 ≤ k
    · exact ih k (by omega) hlarge hleft hright
    · have hone : k = 1 := by omega
      subst hone
      exact not_tight_even (Nat.le_refl 1) hright h

theorem getLast?_decodeTokens (t : LogicTree CheckOperation) :
    (decodeTokens t.postOrder 0 []).getLast? = some (decodedAt t (2 * t.nodes)) := by
  have hlength : (decodeTokens t.postOrder 0 []).length = 2 * t.nodes + 1 := by
    rw [length_decodeTokens, length_nil, LogicTree.length_postOrder, LogicTree.size_eq,
      Nat.zero_add]
  have hlast : 2 * t.nodes < (decodeTokens t.postOrder 0 []).length := by omega
  unfold decodedAt
  rw [getLast?_eq_getElem?, hlength, Nat.add_sub_cancel, getElem?_eq_getElem hlast,
    getD_eq_getElem _ _ hlast]

theorem eq_leaf_of_nodes {t : LogicTree CheckOperation} (h : t.nodes = 0) :
    ∃ operation, t = .leaf operation := by
  cases t with
  | leaf operation => exact ⟨operation, rfl⟩
  | node op left right =>
    rw [LogicTree.nodes] at h
    omega

theorem eq_node_of_nodes {t : LogicTree CheckOperation} (h : t.nodes = 1) :
    ∃ op a b, t = .node op (.leaf a) (.leaf b) := by
  cases t with
  | leaf operation => cases h
  | node op left right =>
    rw [LogicTree.nodes] at h
    obtain ⟨a, rfl⟩ := eq_leaf_of_nodes (t := left) (by omega)
    obtain ⟨b, rfl⟩ := eq_leaf_of_nodes (t := right) (by omega)
    exact ⟨op, a, b, rfl⟩

theorem not_decoded_two {t : LogicTree CheckOperation} (hnodes : t.nodes = 2)
    (h : decodedAt t 4 = ofTree t) : False := by
  have htight : Tight t 4 := by
    unfold Tight
    rw [h, logicals_ofTree, hnodes]
  obtain ⟨before, -, _, hsplit, hlength, ⟨o, rfl⟩, _, -, hright⟩ :=
    htight.operands (by omega)
  have hone : opCount before = 1 := by omega
  rw [hone] at hright
  -- position 2 holds an operation
  obtain ⟨_, -, _, hsplit2, hlength2, ⟨o2, rfl⟩, -⟩ := hright.operands (by omega)
  have hat2 : t.postOrder[2]? = some (.op o2) := by
    rw [hsplit2, getElem?_append_right (Nat.le_of_eq hlength2), hlength2]
    rfl
  rcases decodedAt_cases hsplit with ⟨operation, hcheck⟩ | ⟨-, -, _, hlogical⟩
  · rw [hlength, h] at hcheck
    have hnone := congrArg Operation.logicals hcheck
    rw [logicals_ofTree, hnodes] at hnone
    cases hnone
  · rw [hlength, h, hone] at hlogical
    cases t with
    | leaf operation => cases hnodes
    | node op left right =>
      -- the right operand is the operation at position 2, the left one a leaf
      injection hlogical with _ hleft hright'
      have hone_right : right.nodes = 1 := by
        rw [← logicals_ofTree, hright']
        exact hright
      rw [LogicTree.nodes] at hnodes
      obtain ⟨a, rfl⟩ := eq_leaf_of_nodes (t := left) (by omega)
      obtain ⟨_, b, c, rfl⟩ := eq_node_of_nodes hone_right
      cases hat2

end Decoded

/-- The operation that the client evaluates after encoding and decoding a tree, the last one,
    is the tree again if and only if it has at most one AND or OR. -/
theorem ruleData_roundTrip (t : LogicTree CheckOperation) :
    (∃ data operations, treeToRuleData (ofTree t) = .ok data ∧
      ruleDataToOperations [data] = .ok operations ∧ operations.getLast? = some (ofTree t))
    ↔ t.nodes ≤ 1 := by
  constructor
  · rintro ⟨data, operations, hencode, hdecode, hlast⟩
    rw [treeToRuleData_ofTree] at hencode
    injection hencode with hencode
    rw [← hencode, ruleDataToOperations_encode] at hdecode
    injection hdecode with hdecode
    rw [← hdecode, getLast?_decodeTokens] at hlast
    injection hlast with hroot
    by_contra hmany
    by_cases htwo : t.nodes = 2
    · rw [htwo] at hroot
      exact not_decoded_two htwo hroot
    have htight : Tight t (2 * t.nodes) := by
      unfold Tight
      rw [hroot, logicals_ofTree]
      omega
    obtain ⟨_, -, after, -, -, -, _, hleft, hright⟩ := htight.operands (by omega)
    exact not_tight_pair (by omega) hleft hright
  · intro hfew
    refine ⟨encode t, decodeTokens t.postOrder 0 [], treeToRuleData_ofTree t,
      ruleDataToOperations_encode t, ?_⟩
    by_cases hnone : t.nodes = 0
    · obtain ⟨operation, rfl⟩ := eq_leaf_of_nodes hnone
      rfl
    · obtain ⟨-, a, b, rfl⟩ := eq_node_of_nodes (t := t) (by omega)
      rfl

/-- Three ERC20 checks: an AND of an AND and a check is decoded with the second check for its
    left operand and the inner AND for its right operand. The third check is lost. -/
theorem ruleData_roundTrip_nested :
    treeToRuleData (ofTree (.node .and
        (.node .and (.leaf ⟨.erc20, 1, 10, 5⟩) (.leaf ⟨.erc20, 1, 20, 5⟩))
        (.leaf ⟨.erc20, 1, 30, 5⟩)))
      = .ok ⟨[⟨.check, 0⟩, ⟨.check, 1⟩, ⟨.logical, 0⟩, ⟨.check, 2⟩, ⟨.logical, 1⟩],
          [⟨.erc20, 1, 10, 5⟩, ⟨.erc20, 1, 20, 5⟩, ⟨.erc20, 1, 30, 5⟩],
          [⟨.and, 0, 1⟩, ⟨.and, 1, 2⟩]⟩ ∧
    ((ruleDataToOperations
        [⟨[⟨.check, 0⟩, ⟨.check, 1⟩, ⟨.logical, 0⟩, ⟨.check, 2⟩, ⟨.logical, 1⟩],
          [⟨.erc20, 1, 10, 5⟩, ⟨.erc20, 1, 20, 5⟩, ⟨.erc20, 1, 30, 5⟩],
          [⟨.and, 0, 1⟩, ⟨.and, 1, 2⟩]⟩]).map getLast?)
      = .ok (some (ofTree (.node .and
          (.leaf ⟨.erc20, 1, 20, 5⟩)
          (.node .and (.leaf ⟨.erc20, 1, 10, 5⟩) (.leaf ⟨.erc20, 1, 20, 5⟩))))) := by
  exact ⟨rfl, rfl⟩

end River.Web3
