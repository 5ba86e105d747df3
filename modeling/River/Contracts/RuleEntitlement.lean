/-
  The rule data of a crosschain entitlement, and the checks with which a rule entitlement accepts
  it (contracts/src/spaces/entitlements/rule/RuleEntitlement.sol and IRuleEntitlement.sol).

  Indices have eight bits: what does not fit is refused when the data is decoded.
-/

import River.Lib.LogicTree

namespace River.Contracts

inductive CheckOperationType where
  | none | mock | erc20 | erc721 | erc1155 | isEntitled
  deriving DecidableEq

inductive LogicalOperationType where
  | none | and | or
  deriving DecidableEq

inductive CombinedOperationType where
  | none | check | logical
  deriving DecidableEq

structure CheckOperation where
  opType : CheckOperationType
  chainId : Nat
  contractAddress : Nat
  threshold : Nat
  deriving DecidableEq

structure LogicalOperation where
  logOpType : LogicalOperationType
  leftOperationIndex : Nat
  rightOperationIndex : Nat
  deriving DecidableEq

structure Operation where
  opType : CombinedOperationType
  index : Nat
  deriving DecidableEq

structure RuleData where
  operations : List Operation
  checkOperations : List CheckOperation
  logicalOperations : List LogicalOperation
  deriving DecidableEq

def logicalType : Lib.LogicOp → LogicalOperationType
  | .and => .and
  | .or => .or

inductive RuleError where
  | notAllowed
  | abiDecode
  | invalidCheckOperationIndex (operationIndex checkOperationsLength : Nat)
  | invalidLogicalOperationIndex (operationIndex logicalOperationsLength : Nat)
  | invalidLeftOperationIndex (leftOperationIndex currentOperationIndex : Nat)
  | invalidRightOperationIndex (rightOperationIndex currentOperationIndex : Nat)
  deriving DecidableEq

namespace RuleData

def fitsUint8 (data : RuleData) : Bool :=
  data.operations.all (fun o => o.index < 256) &&
    data.logicalOperations.all fun l => l.leftOperationIndex < 256 && l.rightOperationIndex < 256

def validateOperation (data : RuleData) (i : Nat) (operation : Operation) : Except RuleError Unit :=
  match operation.opType with
  | .check =>
    if operation.index ≥ data.checkOperations.length then
      .error (.invalidCheckOperationIndex operation.index (data.checkOperations.length % 256))
    else .ok ()
  | .logical =>
    match data.logicalOperations[operation.index]? with
    | none =>
      .error (.invalidLogicalOperationIndex operation.index (data.logicalOperations.length % 256))
    | some logicalOp =>
      if logicalOp.leftOperationIndex ≥ i then
        .error (.invalidLeftOperationIndex logicalOp.leftOperationIndex (i % 256))
      else if logicalOp.rightOperationIndex ≥ i then
        .error (.invalidRightOperationIndex logicalOp.rightOperationIndex (i % 256))
      else .ok ()
  | .none => .ok ()

def validate (data : RuleData) : Nat → List Operation → Except RuleError Unit
  | _, [] => .ok ()
  | i, operation :: rest => do
    data.validateOperation i operation
    data.validate (i + 1) rest

def setEntitlement (isSpace : Bool) (data stored : RuleData) : Except RuleError RuleData :=
  if isSpace = false then .error .notAllowed
  else if data.fitsUint8 = false then .error .abiDecode
  else if data.operations.length = 0 then .ok stored
  else do
    data.validate 0 data.operations
    .ok ⟨stored.operations ++ data.operations, stored.checkOperations ++ data.checkOperations,
      stored.logicalOperations ++ data.logicalOperations⟩

/-- `setEntitlement` accepts the data, whatever is stored. -/
def Accepted (data : RuleData) : Prop :=
  ∀ stored, ∃ stored', data.setEntitlement true stored = .ok stored'

/-! ## What acceptance says -/

variable {data : RuleData}

theorem validate_eq_ok {i : Nat} {operations : List Operation} :
    data.validate i operations = .ok () ↔
      ∀ k operation, operations[k]? = some operation →
        data.validateOperation (i + k) operation = .ok () := by
  induction operations generalizing i with
  | nil => simp [validate]
  | cons operation rest ih =>
    have hstep : data.validate i (operation :: rest) = .ok () ↔
        data.validateOperation i operation = .ok () ∧ data.validate (i + 1) rest = .ok () := by
      rw [validate]
      cases data.validateOperation i operation with
      | error e => exact ⟨nofun, nofun⟩
      | ok u => exact ⟨fun h => ⟨rfl, h⟩, fun h => h.2⟩
    rw [hstep, ih]
    constructor
    · rintro ⟨hhead, hrest⟩ k op hop
      cases k with
      | zero =>
        cases hop
        exact hhead
      | succ k =>
        have hk := hrest k op hop
        rwa [show i + 1 + k = i + (k + 1) by omega] at hk
    · intro h
      refine ⟨h 0 operation rfl, fun k op hop => ?_⟩
      have hk := h (k + 1) op hop
      rwa [show i + (k + 1) = i + 1 + k by omega] at hk

theorem setEntitlement_eq_ok (stored : RuleData) :
    (∃ stored', data.setEntitlement true stored = .ok stored') ↔
      data.fitsUint8 = true ∧ data.validate 0 data.operations = .ok () := by
  unfold setEntitlement
  by_cases hfits : data.fitsUint8 = false
  · rw [hfits]
    constructor
    · rintro ⟨_, habsurd⟩
      cases habsurd
    · rintro ⟨habsurd, -⟩
      cases habsurd
  rw [if_neg hfits]
  rw [Bool.not_eq_false] at hfits
  by_cases hempty : data.operations.length = 0
  · rw [List.eq_nil_of_length_eq_zero hempty]
    exact ⟨fun _ => ⟨hfits, rfl⟩, fun _ => ⟨stored, rfl⟩⟩
  rw [if_neg hempty]
  cases hv : data.validate 0 data.operations with
  | error e =>
    constructor
    · rintro ⟨_, habsurd⟩
      cases habsurd
    · rintro ⟨-, habsurd⟩
      cases habsurd
  | ok u => exact ⟨fun _ => ⟨hfits, rfl⟩, fun _ => ⟨_, rfl⟩⟩

theorem accepted_iff :
    data.Accepted ↔ data.fitsUint8 = true ∧
      ∀ k operation, data.operations[k]? = some operation →
        data.validateOperation k operation = .ok () := by
  unfold Accepted
  simp only [setEntitlement_eq_ok, validate_eq_ok, Nat.zero_add]
  exact ⟨fun h => h data, fun h _ => h⟩

theorem validateOperation_check {i index : Nat} :
    data.validateOperation i ⟨.check, index⟩ = .ok () ↔
      ∃ operation, data.checkOperations[index]? = some operation := by
  rw [validateOperation]
  by_cases hindex : index ≥ data.checkOperations.length
  · rw [if_pos hindex, List.getElem?_eq_none hindex]
    exact ⟨nofun, nofun⟩
  · rw [if_neg hindex, List.getElem?_eq_getElem (Nat.lt_of_not_le hindex)]
    exact ⟨fun _ => ⟨_, rfl⟩, fun _ => rfl⟩

theorem validateOperation_logical {i index : Nat} :
    data.validateOperation i ⟨.logical, index⟩ = .ok () ↔
      ∃ operation, data.logicalOperations[index]? = some operation ∧
        operation.leftOperationIndex < i ∧ operation.rightOperationIndex < i := by
  rw [validateOperation]
  cases data.logicalOperations[index]? with
  | none => exact ⟨nofun, nofun⟩
  | some operation =>
    simp only [Option.some.injEq, exists_eq_left']
    by_cases hleft : operation.leftOperationIndex ≥ i
    · rw [if_pos hleft]
      exact ⟨nofun, fun h => absurd h.1 (Nat.not_lt.2 hleft)⟩
    rw [if_neg hleft]
    by_cases hright : operation.rightOperationIndex ≥ i
    · rw [if_pos hright]
      exact ⟨nofun, fun h => absurd h.2 (Nat.not_lt.2 hright)⟩
    rw [if_neg hright]
    exact ⟨fun _ => ⟨Nat.lt_of_not_le hleft, Nat.lt_of_not_le hright⟩, fun _ => rfl⟩

end RuleData

end River.Contracts
