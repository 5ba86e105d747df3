/-
  The accounts that delegate Base River tokens, as the token lists them
  (contracts/src/diamond/facets/governance/votes/enumerable/VotesEnumerable.sol).
-/

import River.Contracts.RiverToken
import River.Lib.ReverseIndex

namespace River.Contracts.RiverToken

open River.Lib Function EnumerableSet

variable [ERC20Votes]

structure DelegatorInv (token : RiverToken) : Prop where
  byDelegatee : Lists token.delegatorsByDelegatee token.holdings.delegatee 0
  zero : ∀ account, account ∉ token.delegatorsByDelegatee 0
  delegators : ∀ account, account ∈ token.delegators ↔ token.holdings.delegatee account ≠ 0

variable {token token' : RiverToken}

theorem DelegatorInv.congr (h : DelegatorInv token)
    (hdelegatee : token'.holdings.delegatee = token.holdings.delegatee)
    (hdelegators : token'.delegators = token.delegators)
    (hsets : token'.delegatorsByDelegatee = token.delegatorsByDelegatee) : DelegatorInv token' := by
  obtain ⟨hlists, hzero, hall⟩ := h
  rw [← hsets, ← hdelegatee] at hlists
  rw [← hsets] at hzero
  rw [← hdelegators, ← hdelegatee] at hall
  exact ⟨hlists, hzero, hall⟩

theorem DelegatorInv.delegated {account delegatee : Address} (h : DelegatorInv token)
    (hcall : Delegated account delegatee token token') : DelegatorInv token' := by
  obtain ⟨hdelegators, hsets⟩ := Prod.ext_iff.1 hcall.listed
  simp only [setDelegators] at hdelegators hsets
  by_cases hzero : delegatee = 0
  · simp only [hzero, ne_eq, not_true_eq_false, if_false] at hdelegators hsets
    refine ⟨?_, fun other => ?_, fun other => ?_⟩
    · rw [hsets, hcall.written, hzero]
      exact h.byDelegatee.remove account
    · have hother := h.zero other
      rw [hsets, mem_update, mem_remove]
      grind
    · have hother := h.delegators other
      rw [hdelegators, hcall.written, mem_remove]
      grind
  · simp only [hzero, ne_eq, not_false_eq_true, if_true] at hdelegators hsets
    refine ⟨?_, fun other => ?_, fun other => ?_⟩
    · rw [hsets, hcall.written]
      exact h.byDelegatee.move account delegatee
    · have hother := h.zero other
      rw [hsets, mem_update, mem_update, mem_remove]
      grind
    · have hother := h.delegators other
      rw [hdelegators, hcall.written, mem_add, mem_remove]
      grind

theorem DelegatorInv.call {call : TokenCall} (h : DelegatorInv token)
    (hcall : token.call call = .ok token') : DelegatorInv token' := by
  cases call_effect hcall with
  | moved _ _ hmoved => exact h.congr hmoved.delegatee (by rw [hmoved.rest]) (by rw [hmoved.rest])
  | delegated hdelegated => exact h.delegated hdelegated
  | kept _ _ hsame =>
    exact h.congr (by rw [hsame.holdings]) hsame.delegators hsame.delegatorsByDelegatee

theorem delegatorInv_init (timestamp : Nat) (deployer bridge : Address) :
    DelegatorInv (init timestamp deployer bridge) := by
  refine ⟨?_, not_mem_empty, fun account => ?_⟩
  · rw [holdings_init]
    exact lists_empty 0
  · rw [holdings_init]
    simp [init, Holdings.empty]

/-- **Delegator enumeration.** After every run of the token, the set of a delegatee has exactly the
    accounts that delegate to it, and the set of all delegators those that delegate at all. -/
theorem delegators_listed (timestamp : Nat) (deployer bridge : Address) (calls : List TokenCall) :
    let token := tokenMachine.exec (init timestamp deployer bridge) calls
    (∀ account delegatee, delegatee ≠ 0 →
      (account ∈ token.delegatorsByDelegatee delegatee ↔ token.delegates account = delegatee)) ∧
    ∀ account, account ∈ token.delegators ↔ token.delegates account ≠ 0 :=
  have hinv := Machine.exec_invariant (I := DelegatorInv)
    (fun _ _ h => Machine.next_ofCall h fun _ => h.call)
    (delegatorInv_init timestamp deployer bridge) calls
  ⟨hinv.byDelegatee, hinv.delegators⟩

end River.Contracts.RiverToken
