/-
  Rule data in the nodes (`getOperationTree` of core/xchain/entitlement/entitlement.go).
-/

import River.Contracts.RuleEntitlement

namespace River.Xchain

open List

open Contracts (RuleData CheckOperation LogicalOperation LogicalOperationType logicalType)
open Lib (LogicTree LogicOp Token)

inductive Operation where
  | check (operation : CheckOperation)
  | and (leftOperation rightOperation : Operation)
  | or (leftOperation rightOperation : Operation)

inductive TreeError where
  | indexOutOfRange
  | unknownLogicalOperationType
  | notEnoughOperands
  | invalidPostOrderArray

/-! ## The function -/

def elementAt {α : Type} (array : List α) (index : Nat) : Except TreeError α :=
  match array[index]? with
  | some element => .ok element
  | none => .error .indexOutOfRange

def decodeOperation (ruleData : RuleData) (decodedOperations : List Operation)
    (operation : Contracts.Operation) : Except TreeError Operation :=
  match operation.opType with
  | .check => do
    let checkOperation ← elementAt ruleData.checkOperations operation.index
    .ok (.check checkOperation)
  | .logical => do
    let logicalOperation ← elementAt ruleData.logicalOperations operation.index
    match logicalOperation.logOpType with
    | .and => do
      let left ← elementAt decodedOperations logicalOperation.leftOperationIndex
      let right ← elementAt decodedOperations logicalOperation.rightOperationIndex
      .ok (.and left right)
    | .or => do
      let left ← elementAt decodedOperations logicalOperation.leftOperationIndex
      let right ← elementAt decodedOperations logicalOperation.rightOperationIndex
      .ok (.or left right)
    | .none => .error .unknownLogicalOperationType
  | .none => .error .unknownLogicalOperationType

def decodeOperations (ruleData : RuleData) :
    List Contracts.Operation → List Operation → Except TreeError (List Operation)
  | [], decodedOperations => .ok decodedOperations
  | operation :: rest, decodedOperations => do
    let op ← decodeOperation ruleData decodedOperations operation
    decodeOperations ruleData rest (decodedOperations ++ [op])

def stackStep (stack : List Operation) : Operation → Except TreeError (List Operation)
  | .check operation => .ok (.check operation :: stack)
  | .and _ _ =>
    match stack with
    | right :: left :: stack => .ok (.and left right :: stack)
    | _ => .error .notEnoughOperands
  | .or _ _ =>
    match stack with
    | right :: left :: stack => .ok (.or left right :: stack)
    | _ => .error .notEnoughOperands

def stackLoop : List Operation → List Operation → Except TreeError (List Operation)
  | [], stack => .ok stack
  | op :: operations, stack => do
    let stack ← stackStep stack op
    stackLoop operations stack

def getOperationTree (ruleData : RuleData) : Except TreeError Operation := do
  let decodedOperations ← decodeOperations ruleData ruleData.operations []
  let stack ← stackLoop decodedOperations []
  match stack with
  | [root] => .ok root
  | _ => .error .invalidPostOrderArray

/-! ## What the rule data means -/

def ofTree : LogicTree CheckOperation → Operation
  | .leaf operation => .check operation
  | .node .and left right => .and (ofTree left) (ofTree right)
  | .node .or left right => .or (ofTree left) (ofTree right)

/-- The tree of the operation at a place. -/
inductive TreeAt (data : RuleData) : Nat → LogicTree CheckOperation → Prop where
  | check {p i : Nat} {operation : CheckOperation}
      (hop : data.operations[p]? = some ⟨.check, i⟩)
      (hcheck : data.checkOperations[i]? = some operation) : TreeAt data p (.leaf operation)
  | logical {p i l r : Nat} {o : LogicOp} {left right : LogicTree CheckOperation}
      (hop : data.operations[p]? = some ⟨.logical, i⟩)
      (hlogical : data.logicalOperations[i]? = some ⟨logicalType o, l, r⟩)
      (hleft : TreeAt data l left) (hright : TreeAt data r right) :
      TreeAt data p (.node o left right)

def tokenOf (data : RuleData) (operation : Contracts.Operation) : Option (Token CheckOperation) :=
  match operation.opType with
  | .check => data.checkOperations[operation.index]?.map .leaf
  | .logical =>
    match data.logicalOperations[operation.index]? with
    | some ⟨.and, _, _⟩ => some (.op .and)
    | some ⟨.or, _, _⟩ => some (.op .or)
    | _ => none
  | .none => none

/-- The operations, written as tokens. -/
def Lists (data : RuleData) (tokens : List (Token CheckOperation)) : Prop :=
  data.operations.map (tokenOf data) = tokens.map some

def isCheckOrLogic (data : RuleData) (operation : Contracts.Operation) : Bool :=
  match operation.opType with
  | .check => true
  | .logical =>
    match data.logicalOperations[operation.index]? with
    | some logicalOperation => logicalOperation.logOpType != .none
    | none => true
  | .none => false

/-- There is no operation of another kind. -/
def OnlyChecksAndLogic (data : RuleData) : Prop :=
  ∀ operation ∈ data.operations, isCheckOrLogic data operation = true

def rootToken : LogicTree CheckOperation → Token CheckOperation
  | .leaf operation => .leaf operation
  | .node o _ _ => .op o

variable {t : LogicTree CheckOperation}

theorem ofTree_injective (h : ofTree t = ofTree u) : t = u := by
  induction t generalizing u with
  | leaf operation =>
    match u, h with
    | .leaf _, h =>
      injection h with h
      rw [h]
    | .node .and _ _, h => cases h
    | .node .or _ _, h => cases h
  | node o left right ihl ihr =>
    cases o with
    | and =>
      match u, h with
      | .node .and _ _, h =>
        injection h with hleft hright
        rw [ihl hleft, ihr hright]
      | .leaf _, h => cases h
      | .node .or _ _, h => cases h
    | or =>
      match u, h with
      | .node .or _ _, h =>
        injection h with hleft hright
        rw [ihl hleft, ihr hright]
      | .leaf _, h => cases h
      | .node .and _ _, h => cases h

/-! ## The first loop: the tree of the indices -/

section Decode

variable {data : RuleData} {trees : List (LogicTree CheckOperation)}

theorem elementAt_map {i : Nat} (h : trees[i]? = some t) :
    elementAt (trees.map ofTree) i = .ok (ofTree t) := by
  rw [elementAt, getElem?_map, h]
  rfl

theorem decodeOperation_of_valid (hvalid : data.validateOperation trees.length operation = .ok ())
    (hlogic : isCheckOrLogic data operation = true)
    (hop : data.operations[trees.length]? = some operation)
    (htrees : ∀ k t, trees[k]? = some t → TreeAt data k t) :
    ∃ t, decodeOperation data (trees.map ofTree) operation = .ok (ofTree t) ∧
      tokenOf data operation = some (rootToken t) ∧ TreeAt data trees.length t := by
  obtain ⟨opType, _⟩ := operation
  cases opType with
  | none => cases hlogic
  | check =>
    obtain ⟨check, hcheck⟩ := RuleData.validateOperation_check.1 hvalid
    refine ⟨.leaf check, ?_, ?_, .check hop hcheck⟩
    · simp only [decodeOperation, elementAt, hcheck]
      rfl
    · simp only [tokenOf, hcheck]
      rfl
  | logical =>
    obtain ⟨⟨type, l, r⟩, hlogical, hl, hr⟩ := RuleData.validateOperation_logical.1 hvalid
    -- both operands stand before the operation, so they are decoded already
    have hleft : trees[l]? = some trees[l] := getElem?_eq_getElem hl
    have hright : trees[r]? = some trees[r] := getElem?_eq_getElem hr
    simp only [isCheckOrLogic, hlogical] at hlogic
    obtain ⟨o, rfl⟩ : ∃ o, type = logicalType o := by
      cases type with
      | none => cases hlogic
      | and => exact ⟨.and, rfl⟩
      | or => exact ⟨.or, rfl⟩
    refine ⟨.node o trees[l] trees[r], ?_, ?_,
      .logical hop hlogical (htrees l _ hleft) (htrees r _ hright)⟩
    · simp only [decodeOperation, elementAt, hlogical]
      cases o with
      | and | or =>
        show (elementAt (trees.map ofTree) l >>= _) = _
        rw [elementAt_map hleft]
        show (elementAt (trees.map ofTree) r >>= _) = _
        rw [elementAt_map hright]
        rfl
    · simp only [tokenOf, hlogical]
      cases o with
      | and | or => rfl

structure Decoded (data : RuleData) (operations : List Contracts.Operation)
    (trees : List (LogicTree CheckOperation)) : Prop where
  tokens : operations.map (tokenOf data) = (trees.map rootToken).map some
  treeAt : ∀ k t, trees[k]? = some t → TreeAt data k t

theorem Decoded.length (h : Decoded data operations trees) : trees.length = operations.length := by
  have hlength := congrArg List.length h.tokens
  simpa using hlength.symm

theorem Decoded.concat (h : Decoded data operations trees)
    (htoken : tokenOf data operation = some (rootToken t)) (htree : TreeAt data trees.length t) :
    Decoded data (operations ++ [operation]) (trees ++ [t]) where
  tokens := by simp [h.tokens, htoken]
  treeAt := by
    intro k u hu
    by_cases hk : k < trees.length
    · rw [getElem?_append_left hk] at hu
      exact h.treeAt k u hu
    obtain ⟨hlt, hu⟩ := List.getElem?_eq_some_iff.1 hu
    rw [length_append, length_singleton] at hlt
    have hlast : k = trees.length := by omega
    subst hlast
    rw [getElem_concat_length rfl] at hu
    exact hu ▸ htree

theorem decodeOperations_of_accepted (haccepted : data.Accepted) (hlogic : OnlyChecksAndLogic data)
    {done rest : List Contracts.Operation} (hsplit : data.operations = done ++ rest)
    (hdone : Decoded data done trees) :
    ∃ trees', decodeOperations data rest (trees.map ofTree) = .ok (trees'.map ofTree) ∧
      Decoded data data.operations trees' := by
  induction rest generalizing done trees with
  | nil =>
    rw [append_nil] at hsplit
    exact ⟨trees, rfl, hsplit ▸ hdone⟩
  | cons operation rest ih =>
    have hop : data.operations[trees.length]? = some operation := by
      rw [hsplit, hdone.length, getElem?_append_right (Nat.le_refl _), Nat.sub_self]
      rfl
    have hvalid := (RuleData.accepted_iff.1 haccepted).2 _ _ hop
    obtain ⟨t, hdecode, htoken, htree⟩ :=
      decodeOperation_of_valid hvalid (hlogic operation (mem_of_getElem? hop)) hop hdone.treeAt
    have hsplit' : data.operations = (done ++ [operation]) ++ rest := by
      rw [hsplit, append_assoc]
      rfl
    obtain ⟨trees', hrest, hall⟩ := ih hsplit' (hdone.concat htoken htree)
    refine ⟨trees', ?_, hall⟩
    rw [map_append] at hrest
    rw [decodeOperations, hdecode]
    exact hrest

end Decode

/-! ## The second loop: the tree of the listing -/

theorem stackStep_ofTree (t : LogicTree CheckOperation) (stack : List (LogicTree CheckOperation)) :
    stackStep (stack.map ofTree) (ofTree t) =
      match (rootToken t).push stack with
      | some stack' => .ok (stack'.map ofTree)
      | none => .error .notEnoughOperands := by
  match t, stack with
  | .leaf operation, stack => rfl
  | .node .and _ _, [] => rfl
  | .node .and _ _, [_] => rfl
  | .node .and _ _, right :: left :: stack => rfl
  | .node .or _ _, [] => rfl
  | .node .or _ _, [_] => rfl
  | .node .or _ _, right :: left :: stack => rfl

theorem stackLoop_map (trees stack : List (LogicTree CheckOperation)) :
    stackLoop (trees.map ofTree) (stack.map ofTree) =
      match Lib.read (trees.map rootToken) stack with
      | some stack' => .ok (stack'.map ofTree)
      | none => .error .notEnoughOperands := by
  induction trees generalizing stack with
  | nil => rfl
  | cons t trees ih =>
    rw [map_cons, map_cons, stackLoop, stackStep_ofTree, Lib.read]
    cases (rootToken t).push stack with
    | none => rfl
    | some stack' => exact ih stack'

def treeOfListing (tokens : List (Token CheckOperation)) : Except TreeError Operation :=
  match Lib.read tokens [] with
  | some [t] => .ok (ofTree t)
  | some _ => .error .invalidPostOrderArray
  | none => .error .notEnoughOperands

theorem treeOfListing_ne_indexOutOfRange (tokens : List (Token CheckOperation)) :
    treeOfListing tokens ≠ .error .indexOutOfRange := by
  unfold treeOfListing
  match Lib.read tokens [] with
  | none => exact nofun
  | some [] => exact nofun
  | some [t] => exact nofun
  | some (t :: u :: rest) => exact nofun

theorem treeOfListing_eq_ok : treeOfListing tokens = .ok (ofTree t) ↔ tokens = t.postOrder := by
  rw [← Lib.read_eq_singleton_iff]
  unfold treeOfListing
  generalize Lib.read tokens [] = result
  constructor
  · intro h
    match result, h with
    | some [u], h =>
      injection h with h
      rw [ofTree_injective h]
    | none, h => cases h
    | some [], h => cases h
    | some (_ :: _ :: _), h => cases h
  · intro h
    rw [h]

theorem getOperationTree_eq {data : RuleData} (haccepted : data.Accepted)
    (hlogic : OnlyChecksAndLogic data) :
    ∃ tokens, Lists data tokens ∧ getOperationTree data = treeOfListing tokens := by
  have hnothing : Decoded data [] [] := ⟨rfl, fun _ _ h => by cases h⟩
  obtain ⟨trees, hdecode, hdecoded⟩ := decodeOperations_of_accepted haccepted hlogic rfl hnothing
  refine ⟨trees.map rootToken, hdecoded.tokens, ?_⟩
  rw [map_nil] at hdecode
  rw [getOperationTree, hdecode]
  show (stackLoop (trees.map ofTree) ([].map ofTree) >>= _) = _
  rw [stackLoop_map, treeOfListing]
  match Lib.read (trees.map rootToken) [] with
  | none => rfl
  | some [] => rfl
  | some [t] => rfl
  | some (t :: u :: rest) => rfl

theorem Lists.unique (h : Lists data tokens) (h' : Lists data tokens') : tokens = tokens' :=
  map_injective_iff.2 (fun _ _ => Option.some.inj) (h.symm.trans h')

/-- On data that the rule entitlement accepts and whose operations are CHECK, AND and OR, the
    node never reads outside an array, and it returns the tree that the operand indices define
    from the last operation if and only if the operations list that tree in post-order. -/
theorem getOperationTree_follows_indices (data : RuleData) (haccepted : data.Accepted)
    (hlogic : OnlyChecksAndLogic data) :
    getOperationTree data ≠ .error .indexOutOfRange ∧
    ((∃ t, TreeAt data (data.operations.length - 1) t ∧ getOperationTree data = .ok (ofTree t)) ↔
      ∃ t, TreeAt data (data.operations.length - 1) t ∧ Lists data t.postOrder) := by
  obtain ⟨tokens, htokens, hresult⟩ := getOperationTree_eq haccepted hlogic
  rw [hresult]
  refine ⟨treeOfListing_ne_indexOutOfRange tokens, ?_⟩
  constructor
  · rintro ⟨t, htree, hok⟩
    exact ⟨t, htree, treeOfListing_eq_ok.1 hok ▸ htokens⟩
  · rintro ⟨t, htree, hlists⟩
    exact ⟨t, htree, treeOfListing_eq_ok.2 (htokens.unique hlists)⟩

/-- Two checks and their AND, with the indices of the two checks. -/
theorem getOperationTree_follows_indices_and :
    getOperationTree ⟨[⟨.check, 0⟩, ⟨.check, 1⟩, ⟨.logical, 0⟩],
      [⟨.erc20, 1, 10, 5⟩, ⟨.erc20, 1, 20, 5⟩], [⟨.and, 0, 1⟩]⟩ ≠ .error .indexOutOfRange ∧
    ∃ t, TreeAt ⟨[⟨.check, 0⟩, ⟨.check, 1⟩, ⟨.logical, 0⟩],
        [⟨.erc20, 1, 10, 5⟩, ⟨.erc20, 1, 20, 5⟩], [⟨.and, 0, 1⟩]⟩ 2 t ∧
      getOperationTree ⟨[⟨.check, 0⟩, ⟨.check, 1⟩, ⟨.logical, 0⟩],
        [⟨.erc20, 1, 10, 5⟩, ⟨.erc20, 1, 20, 5⟩], [⟨.and, 0, 1⟩]⟩ = .ok (ofTree t) := by
  have hboth := getOperationTree_follows_indices
    ⟨[⟨.check, 0⟩, ⟨.check, 1⟩, ⟨.logical, 0⟩], [⟨.erc20, 1, 10, 5⟩, ⟨.erc20, 1, 20, 5⟩],
      [⟨.and, 0, 1⟩]⟩
    (fun stored => (RuleData.setEntitlement_eq_ok stored).2 ⟨rfl, rfl⟩)
    (by unfold OnlyChecksAndLogic; decide)
  refine ⟨hboth.1, hboth.2.2 ⟨.node .and (.leaf ⟨.erc20, 1, 10, 5⟩) (.leaf ⟨.erc20, 1, 20, 5⟩),
    ?_, rfl⟩⟩
  exact .logical rfl rfl (.check rfl rfl) (.check rfl rfl)

/-- The rule entitlement accepts an AND of the first of two checks with itself, the AND of a single
    check with itself, and two checks without an operation; the node returns the AND of the two, and
    refuses the others. -/
theorem getOperationTree_against_indices :
    (RuleData.Accepted ⟨[⟨.check, 0⟩, ⟨.check, 1⟩, ⟨.logical, 0⟩],
        [⟨.erc20, 1, 10, 5⟩, ⟨.erc20, 1, 20, 5⟩], [⟨.and, 0, 0⟩]⟩ ∧
      TreeAt ⟨[⟨.check, 0⟩, ⟨.check, 1⟩, ⟨.logical, 0⟩],
        [⟨.erc20, 1, 10, 5⟩, ⟨.erc20, 1, 20, 5⟩], [⟨.and, 0, 0⟩]⟩ 2
        (.node .and (.leaf ⟨.erc20, 1, 10, 5⟩) (.leaf ⟨.erc20, 1, 10, 5⟩)) ∧
      getOperationTree ⟨[⟨.check, 0⟩, ⟨.check, 1⟩, ⟨.logical, 0⟩],
        [⟨.erc20, 1, 10, 5⟩, ⟨.erc20, 1, 20, 5⟩], [⟨.and, 0, 0⟩]⟩
        = .ok (ofTree (.node .and (.leaf ⟨.erc20, 1, 10, 5⟩) (.leaf ⟨.erc20, 1, 20, 5⟩)))) ∧
    (RuleData.Accepted ⟨[⟨.check, 0⟩, ⟨.logical, 0⟩], [⟨.erc20, 1, 10, 5⟩], [⟨.and, 0, 0⟩]⟩ ∧
      getOperationTree ⟨[⟨.check, 0⟩, ⟨.logical, 0⟩], [⟨.erc20, 1, 10, 5⟩], [⟨.and, 0, 0⟩]⟩
        = .error .notEnoughOperands) ∧
    (RuleData.Accepted ⟨[⟨.check, 0⟩, ⟨.check, 0⟩], [⟨.erc20, 1, 10, 5⟩], []⟩ ∧
      getOperationTree ⟨[⟨.check, 0⟩, ⟨.check, 0⟩], [⟨.erc20, 1, 10, 5⟩], []⟩
        = .error .invalidPostOrderArray) := by
  refine ⟨⟨?_, ?_, rfl⟩, ⟨?_, rfl⟩, ⟨?_, rfl⟩⟩
  · exact fun stored => (RuleData.setEntitlement_eq_ok stored).2 ⟨rfl, rfl⟩
  · exact .logical rfl rfl (.check rfl rfl) (.check rfl rfl)
  · exact fun stored => (RuleData.setEntitlement_eq_ok stored).2 ⟨rfl, rfl⟩
  · exact fun stored => (RuleData.setEntitlement_eq_ok stored).2 ⟨rfl, rfl⟩

end River.Xchain
