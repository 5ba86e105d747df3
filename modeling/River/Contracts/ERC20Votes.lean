/-
  OpenZeppelin's ERC20Votes as a parameter: what the Base River token reads of it, the calls that
  it makes, and what is assumed of them.
-/

import River.Contracts.Space
import River.Lib.EnumerableSet
import River.Lib.Machine

namespace River.Contracts

open River.Lib Function

def amountAt (x y : Address) (amount : Nat) : Nat := if x = y then amount else 0

/-- What can be read of the storage. -/
structure Holdings where
  balances : Mapping Address
  totalSupply : Nat
  delegatee : Address → Address
  votes : Address → Nat
  totalVotes : Nat

namespace Holdings

def empty : Holdings := ⟨.empty, 0, fun _ => 0, fun _ => 0, 0⟩

variable (from_ to_ : Address) (value : Nat) (h h' : Holdings)

/-- `value` moves between two balances, or to or from the supply at `address(0)`. -/
structure BalancesMoved : Prop where
  enough : from_ ≠ 0 → value ≤ h.balances.get from_
  sums : ∀ (p : Address → Prop) [DecidablePred p],
    h'.balances.totalWhere p + (if from_ ≠ 0 ∧ p from_ then value else 0) =
      h.balances.totalWhere p + (if to_ ≠ 0 ∧ p to_ then value else 0)
  supply : h'.totalSupply = h.totalSupply + amountAt 0 from_ value - amountAt 0 to_ value

/-- `value` moves between the votes of two delegates. -/
def VotesMoved : Prop :=
  ∀ x, x ≠ 0 → h'.votes x + amountAt x from_ value = h.votes x + amountAt x to_ value

/-- The voting units of a movement of tokens follow it. -/
structure UnitsTransferred : Prop where
  delegatee : h'.delegatee = h.delegatee
  votes : VotesMoved (h.delegatee from_) (h.delegatee to_) value h h'
  total : h'.totalVotes + amountAt 0 to_ value = h.totalVotes + amountAt 0 from_ value

end Holdings

open Holdings (BalancesMoved VotesMoved UnitsTransferred)

/-- The contract; a call that reverts gives nothing. -/
class ERC20Votes where
  Storage : Type
  holdings : Storage → Holdings
  deployed : Storage
  update (clock : Nat) (from_ to_ : Address) (value : Nat) : Storage → Option Storage
  transferVotingUnits (clock : Nat) (from_ to_ : Address) (amount : Nat) : Storage → Option Storage
  delegate (clock : Nat) (account delegatee : Address) : Storage → Option Storage
  approve (tokenOwner spender : Address) (value : Nat) : Storage → Option Storage
  spendAllowance (tokenOwner spender : Address) (value : Nat) : Storage → Option Storage
  holdings_deployed : holdings deployed = .empty
  update_some {s s'} : update clock from_ to_ value s = some s' →
    BalancesMoved from_ to_ value (holdings s) (holdings s') ∧
      UnitsTransferred from_ to_ value (holdings s) (holdings s')
  transferVotingUnits_some {s s'} : transferVotingUnits clock from_ to_ value s = some s' →
    holdings s' = { holdings s with
      votes := (holdings s').votes, totalVotes := (holdings s').totalVotes } ∧
      UnitsTransferred from_ to_ value (holdings s) (holdings s')
  delegate_some {s s'} : delegate clock account delegatee s = some s' →
    holdings s' = { holdings s with
      delegatee := Function.update (holdings s).delegatee account delegatee
      votes := (holdings s').votes } ∧
      VotesMoved ((holdings s).delegatee account) delegatee ((holdings s).balances.get account)
        (holdings s) (holdings s')
  approve_some {s s'} : approve tokenOwner spender value s = some s' → holdings s' = holdings s
  spendAllowance_some {s s'} : spendAllowance tokenOwner spender value s = some s' →
    holdings s' = holdings s

/-! ## A plain token

  It has no history of votes and no allowances. -/

namespace Holdings

variable {from_ to_ : Address} {value : Nat} {h h' : Holdings}

def moveBalances (from_ to_ : Address) (value : Nat) (h : Holdings) : Option Holdings :=
  let debited := h.balances.set from_ (h.balances.get from_ - value)
  let middle := if from_ = 0 then h.balances else debited
  let balances := if to_ = 0 then middle else middle.set to_ (middle.get to_ + value)
  let totalSupply := h.totalSupply + amountAt 0 from_ value - amountAt 0 to_ value
  if from_ ≠ 0 ∧ h.balances.get from_ < value then none
  else some { h with balances, totalSupply }

def moveVotes (from_ to_ : Address) (value : Nat) (h : Holdings) : Option Holdings :=
  if from_ ≠ 0 ∧ from_ ≠ to_ ∧ h.votes from_ < value then none
  else some { h with votes := fun x => h.votes x + amountAt x to_ value - amountAt x from_ value }

def transferUnits (from_ to_ : Address) (value : Nat) (h : Holdings) : Option Holdings :=
  if h.totalVotes + amountAt 0 from_ value < amountAt 0 to_ value then none
  else moveVotes (h.delegatee from_) (h.delegatee to_) value
    { h with totalVotes := h.totalVotes + amountAt 0 from_ value - amountAt 0 to_ value }

def delegateTo (account delegatee : Address) (h : Holdings) : Option Holdings :=
  moveVotes (h.delegatee account) delegatee (h.balances.get account)
    { h with delegatee := Function.update h.delegatee account delegatee }

theorem moveBalances_some (hmove : moveBalances from_ to_ value h = some h') :
    h' = { h with balances := h'.balances, totalSupply := h'.totalSupply } ∧
      BalancesMoved from_ to_ value h h' := by
  simp only [moveBalances] at hmove
  split at hmove
  · cases hmove
  rename_i henough
  have henough : from_ ≠ 0 → value ≤ h.balances.get from_ := by simpa using henough
  cases hmove
  refine ⟨rfl, henough, fun p _ => ?_, rfl⟩
  simp only
  generalize hmiddle : (if from_ = 0 then h.balances else _) = middle
  have hdebit : middle.totalWhere p + (if from_ ≠ 0 ∧ p from_ then value else 0) =
      h.balances.totalWhere p := by
    have hset := h.balances.totalWhere_set p from_ (h.balances.get from_ - value)
    have hpart := h.balances.totalWhere_eq p from_
    rw [← hmiddle]
    grind
  have hcredit :
      (if to_ = 0 then middle else middle.set to_ (middle.get to_ + value)).totalWhere p =
      middle.totalWhere p + (if to_ ≠ 0 ∧ p to_ then value else 0) := by
    have hset := middle.totalWhere_set p to_ (middle.get to_ + value)
    grind
  omega

theorem moveVotes_some (hmove : moveVotes from_ to_ value h = some h') :
    h' = { h with votes := h'.votes } ∧ VotesMoved from_ to_ value h h' := by
  unfold moveVotes at hmove
  split at hmove
  · cases hmove
  cases hmove
  refine ⟨rfl, fun x hx => ?_⟩
  simp only [amountAt]
  grind

theorem transferUnits_some (hmove : transferUnits from_ to_ value h = some h') :
    h' = { h with votes := h'.votes, totalVotes := h'.totalVotes } ∧
      UnitsTransferred from_ to_ value h h' := by
  unfold transferUnits at hmove
  split at hmove
  · cases hmove
  obtain ⟨hrest, hvotes⟩ := moveVotes_some hmove
  refine ⟨by rw [hrest], by rw [hrest], hvotes, ?_⟩
  have htotal := congrArg totalVotes hrest
  simp only at htotal
  omega

theorem transfer_some
    (hmove : (moveBalances from_ to_ value h).bind (transferUnits from_ to_ value) = some h') :
    BalancesMoved from_ to_ value h h' ∧ UnitsTransferred from_ to_ value h h' := by
  obtain ⟨middle, hbalances, hunits⟩ := Option.bind_eq_some_iff.1 hmove
  obtain ⟨hrest, henough, hsums, hsupply⟩ := moveBalances_some hbalances
  obtain ⟨hrest', hunits⟩ := transferUnits_some hunits
  have hbalances : h'.balances = middle.balances := by rw [hrest']
  have htotalSupply : h'.totalSupply = middle.totalSupply := by rw [hrest']
  rw [← hbalances] at hsums
  rw [← htotalSupply] at hsupply
  rw [hrest] at hunits
  exact ⟨⟨henough, hsums, hsupply⟩, ⟨hunits.delegatee, hunits.votes, hunits.total⟩⟩

end Holdings

open Holdings

instance plainERC20Votes : ERC20Votes where
  Storage := Holdings
  holdings := id
  deployed := .empty
  update _ from_ to_ value h :=
    (h.moveBalances from_ to_ value).bind (transferUnits from_ to_ value)
  transferVotingUnits _ := transferUnits
  delegate _ := delegateTo
  approve _ _ _ := some
  spendAllowance _ _ _ _ := none
  holdings_deployed := rfl
  update_some := transfer_some
  transferVotingUnits_some := transferUnits_some
  delegate_some := moveVotes_some
  approve_some h := (Option.some.inj h).symm
  spendAllowance_some h := by cases h

end River.Contracts
