/-
  Whether the votes of the Base River token are the delegated balances.

  `ERC20Votes._update` already moves the voting units of a transfer, and `River._update` moves
  them a second time.
-/

import River.Contracts.RiverToken

namespace River.Contracts

open River.Lib Function

namespace RiverToken

section Token

variable [ERC20Votes]

def delegatedBalance (token : RiverToken) (x : Address) : Nat :=
  token.holdings.balances.totalWhere fun account => token.delegates account = x

/-- Votes are the balances delegated to an address. -/
def VotesAgree (token : RiverToken) : Prop :=
  ∀ x, x ≠ 0 → token.getVotes x = token.delegatedBalance x

/-- The total of the votes is the supply. -/
def TotalAgrees (token : RiverToken) : Prop := token.getTotalVotes = token.totalSupply

/-- What holds of the token after every run. -/
structure TokenInv (token : RiverToken) : Prop where
  supply_eq_total : token.totalSupply = token.holdings.balances.total
  undelegated : token.delegates 0 = 0
  doubled : token.getTotalVotes = 2 * token.totalSupply

theorem tokenInv_init (timestamp : Nat) (deployer bridge : Address) :
    TokenInv (init timestamp deployer bridge) := by
  refine ⟨?_, ?_, ?_⟩ <;> simp only [totalSupply, delegates, getTotalVotes, holdings_init] <;> rfl

/-! ## One call -/

variable {token token' : RiverToken}

theorem SameHoldings.tokenInv (h : SameHoldings token token') (hinv : TokenInv token) :
    TokenInv token' := by
  obtain ⟨hsupply, hzero, hdouble⟩ := hinv
  unfold totalSupply delegates getTotalVotes at *
  rw [← h.holdings] at hsupply hzero hdouble
  exact ⟨hsupply, hzero, hdouble⟩

theorem SameHoldings.votesAgree_iff (h : SameHoldings token token') :
    VotesAgree token' ↔ VotesAgree token := by
  unfold VotesAgree getVotes delegatedBalance delegates
  rw [h.holdings]

variable {m : Movement} (h : Moved m.from_ m.to_ m.value token token')

include h

theorem Moved.tokenInv (hproper : m.from_ ≠ 0 ∨ m.to_ ≠ 0) (hinv : TokenInv token) :
    TokenInv token' := by
  obtain ⟨_, hzero, _⟩ := hinv
  have hsum := h.balances.sums fun _ => True
  have htotal := h.total
  have hnew := h.supply
  rw [Mapping.totalWhere_true, Mapping.totalWhere_true] at hsum
  simp only [amountAt] at hsum htotal hnew
  refine ⟨?_, ?_, ?_⟩
  · split_ifs at hsum hnew <;> simp_all <;> omega
  · rw [delegates, h.delegatee]
    exact hzero
  · split_ifs at hsum htotal hnew <;> simp_all <;> omega

theorem Moved.delegatedBalance (hinv : TokenInv token) {x : Address} (hx : x ≠ 0) :
    token'.delegatedBalance x + amountAt x (token.delegates m.from_) m.value =
      token.delegatedBalance x + amountAt x (token.delegates m.to_) m.value := by
  have hdelegates : token'.delegates = token.delegates := by
    funext account
    rw [delegates, h.delegatee]
    rfl
  -- what comes from `address(0)` or goes there is delegated to nobody
  have hpart : ∀ y value, (if y ≠ 0 ∧ token.delegates y = x then value else 0) =
      amountAt x (token.delegates y) value := by
    intro y value
    refine if_congr ⟨fun hy => hy.2.symm, fun hy => ⟨?_, hy.symm⟩⟩ rfl rfl
    rintro rfl
    exact hx (hy.trans hinv.undelegated)
  have hsum := h.balances.sums fun account => token.delegates account = x
  rw [hpart, hpart] at hsum
  unfold RiverToken.delegatedBalance
  rw [hdelegates]
  exact hsum

theorem Moved.votesAgree_iff (hinv : TokenInv token) (hagree : VotesAgree token) :
    VotesAgree token' ↔ m.value = 0 ∨ token.delegates m.from_ = token.delegates m.to_ := by
  have hbalance := fun x hx => h.delegatedBalance hinv (x := x) hx
  constructor
  · intro hagree'
    by_contra hne
    obtain ⟨hvalue, hdelegate⟩ := not_or.1 hne
    -- one of the two delegates is not zero, and its votes have moved twice
    have hone : ∀ x, x ≠ 0 →
        amountAt x (token.delegates m.from_) m.value =
          amountAt x (token.delegates m.to_) m.value := by
      intro x hx
      have h1 := hagree x hx
      have h2 := hagree' x hx
      have h3 := h.votes x hx
      have h4 := hbalance x hx
      omega
    by_cases hzero : token.delegates m.from_ = 0
    · have hto := hone (token.delegates m.to_) (fun h0 => hdelegate (hzero.trans h0.symm))
      simp [amountAt, Ne.symm hdelegate] at hto
      exact hvalue hto.symm
    · have hfrom := hone (token.delegates m.from_) hzero
      simp [amountAt, hdelegate] at hfrom
      exact hvalue hfrom
  · intro hcond x hx
    have h1 := hagree x hx
    have h3 := h.votes x hx
    have h4 := hbalance x hx
    have hone : amountAt x (token.delegates m.from_) m.value =
        amountAt x (token.delegates m.to_) m.value := by
      rcases hcond with hvalue | hdelegate
      · simp [amountAt, hvalue]
      · rw [hdelegate]
    omega

omit h

theorem Delegated.tokenInv {account : Account} {delegatee : Address}
    (h : Delegated account.address delegatee token token') (hinv : TokenInv token) :
    TokenInv token' := by
  obtain ⟨hsupply, hzero, hdouble⟩ := hinv
  refine ⟨?_, ?_, ?_⟩
  · rw [totalSupply, h.holdings]
    exact hsupply
  · rw [delegates, h.written, update_of_ne account.ne_zero.symm]
    exact hzero
  · rw [getTotalVotes, totalSupply, h.holdings]
    exact hdouble

theorem Delegated.votesAgree {account : Account} {delegatee : Address}
    (h : Delegated account.address delegatee token token') (hagree : VotesAgree token) :
    VotesAgree token' := by
  intro x hx
  have hbalances : token'.holdings.balances = token.holdings.balances := by rw [h.holdings]
  have hothers : ∀ other, other ≠ account.address →
      (token.delegates other = x ↔ token'.delegates other = x) := by
    intro other hother
    rw [delegates, delegates, h.written, update_of_ne hother]
  have hmoved := token.holdings.balances.totalWhere_congr (fun other => token.delegates other = x)
    (fun other => token'.delegates other = x) account.address hothers
  have hself : token'.delegates account.address = delegatee := by
    rw [delegates, h.written, update_self]
  have hvotes := h.votes x hx
  have hbefore := hagree x hx
  unfold getVotes delegatedBalance at hbefore ⊢
  rw [hbalances]
  simp only [amountAt, balanceOf, eq_comm (a := x)] at hvotes
  rw [hself] at hmoved
  omega

/-! ## Whole runs -/

/-- Tokens move between accounts of one delegate. -/
def SameDelegate (token : RiverToken) (call : TokenCall) : Prop :=
  ∀ m token', call.movement = some m → token.call call = .ok token' →
    m.value = 0 ∨ token.delegates m.from_ = token.delegates m.to_

/-- The call mints nothing. -/
def NothingMinted (token : RiverToken) (call : TokenCall) : Prop :=
  ∀ sender account amount token', call = .mint sender account amount →
    token.call call = .ok token' → amount = 0

theorem TokenInv.next (hinv : TokenInv token) (call : TokenCall) :
    TokenInv (tokenMachine.next token call) := by
  refine Machine.next_ofCall hinv fun token' hcall => ?_
  cases call_effect hcall with
  | moved _ hproper hmoved => exact hmoved.tokenInv hproper hinv
  | delegated hdelegated => exact hdelegated.tokenInv hinv
  | kept _ _ hsame => exact hsame.tokenInv hinv

/-- The supply is the sum of the balances, and the total of the votes twice the supply. -/
theorem token_ledger (timestamp : Nat) (deployer bridge : Address) (calls : List TokenCall) :
    TokenInv (tokenMachine.exec (init timestamp deployer bridge) calls) :=
  Machine.exec_invariant (fun _ call h => h.next call) (tokenInv_init ..) calls

theorem votesAgree_next_iff (call : TokenCall) (hinv : TokenInv token) (hagree : VotesAgree token) :
    VotesAgree (tokenMachine.next token call) ↔ SameDelegate token call := by
  unfold SameDelegate
  cases hcall : token.call call with
  | error e =>
    rw [tokenMachine_next_error hcall]
    exact iff_of_true hagree fun _ _ _ => nofun
  | ok token' =>
    rw [tokenMachine_next_ok hcall]
    cases call_effect hcall with
    | moved hmovement _ hmoved =>
      rw [hmoved.votesAgree_iff hinv hagree]
      constructor
      · intro h m' _ hm' _
        rw [hmovement] at hm'
        cases hm'
        exact h
      · exact fun h => h _ _ hmovement rfl
    | delegated hdelegated =>
      exact iff_of_true (hdelegated.votesAgree hagree) fun _ _ => nofun
    | kept hmovement _ hsame =>
      refine iff_of_true (hsame.votesAgree_iff.2 hagree) fun _ _ hm => ?_
      rw [hmovement] at hm
      cases hm

theorem TokenInv.empty (hinv : TokenInv token) (htotal : TotalAgrees token) :
    token.totalSupply = 0 ∧ ∀ account, token.balanceOf account = 0 := by
  have hdouble := hinv.doubled
  rw [htotal] at hdouble
  have hsupply : token.totalSupply = 0 := by omega
  refine ⟨hsupply, fun account => ?_⟩
  have hle := token.holdings.balances.get_le_total account
  rw [← hinv.supply_eq_total, hsupply] at hle
  exact Nat.le_zero.1 hle

theorem agree_next_iff (call : TokenCall) (hinv : TokenInv token)
    (hagree : VotesAgree token ∧ TotalAgrees token) :
    (VotesAgree (tokenMachine.next token call) ∧ TotalAgrees (tokenMachine.next token call)) ↔
      NothingMinted token call := by
  obtain ⟨hsupply, hempty⟩ := hinv.empty hagree.2
  rw [votesAgree_next_iff call hinv hagree.1]
  have hdouble := (hinv.next call).doubled
  constructor
  · rintro ⟨-, htotal⟩ sender account amount token' rfl hcall
    -- the supply is zero afterwards too, and it is the amount that was minted
    have hzero := ((hinv.next (.mint sender account amount)).empty htotal).1
    rw [tokenMachine_next_ok hcall] at hzero
    cases call_effect hcall with
    | moved hmovement hproper hmoved =>
      cases hmovement
      have hnew := hmoved.supply
      have hne : (0 : Address) ≠ account := by
        rcases hproper with h | h
        · exact absurd rfl h
        · exact .symm h
      simp only [amountAt, if_true, if_neg hne] at hnew
      omega
    | kept hmovement => cases hmovement
  · intro hmint
    -- nothing but a mint can move an amount
    have hmoves : ∀ m token', call.movement = some m → token.call call = .ok token' →
        m.value = 0 := by
      intro m token' hmovement hcall
      cases call_effect hcall with
      | moved hm hproper hmoved =>
        rw [hmovement] at hm
        cases hm
        by_cases hfrom : m.from_ = 0
        · -- only a mint comes from `address(0)`
          cases call with
          | mint sender account amount =>
            cases hmovement
            exact hmint sender account amount token' rfl hcall
          | burn sender account amount =>
            cases hmovement
            exact absurd hfrom (hproper.resolve_right (fun h => h rfl))
          | transfer sender to_ value =>
            cases hmovement
            exact absurd hfrom sender.ne_zero
          | transferFrom sender from_ to_ value =>
            cases hmovement
            obtain ⟨_, -, htransfer⟩ := bind_ok.1 hcall
            exact absurd hfrom (transfer_ok htransfer).1
          | _ => cases hmovement
        · exact Nat.le_zero.1 (hempty m.from_ ▸ hmoved.balances.enough hfrom)
      | delegated => cases hmovement
      | kept hm =>
        rw [hm] at hmovement
        cases hmovement
    refine ⟨fun m token' hm hcall => .inl (hmoves m token' hm hcall), ?_⟩
    have hsame : (tokenMachine.next token call).totalSupply = 0 := by
      refine Machine.next_ofCall (P := fun token : RiverToken => token.totalSupply = 0) hsupply
        fun token' hcall => ?_
      cases call_effect hcall with
      | moved hm _ hmoved =>
        rw [hmoved.supply, hmoves _ _ hm hcall]
        simp [amountAt, hsupply]
      | delegated hdelegated =>
        rw [totalSupply, hdelegated.holdings]
        exact hsupply
      | kept _ _ hkept =>
        rw [totalSupply, hkept.holdings]
        exact hsupply
    rw [TotalAgrees, hdouble, hsame]

/-- The votes are the delegated balances all along a run exactly if no amount moves between
    accounts with different delegates, and the total is the supply as well exactly if nothing is
    ever minted. -/
theorem votingPower_iff (timestamp : Nat) (deployer bridge : Address) (calls : List TokenCall) :
    ((∀ front, front <+: calls →
        VotesAgree (tokenMachine.exec (init timestamp deployer bridge) front)) ↔
      tokenMachine.Along SameDelegate (init timestamp deployer bridge) calls) ∧
    ((∀ front, front <+: calls →
        VotesAgree (tokenMachine.exec (init timestamp deployer bridge) front) ∧
          TotalAgrees (tokenMachine.exec (init timestamp deployer bridge) front)) ↔
      tokenMachine.Along NothingMinted (init timestamp deployer bridge) calls) := by
  have hinit : VotesAgree (init timestamp deployer bridge) := by
    unfold VotesAgree getVotes delegatedBalance
    rw [holdings_init]
    exact fun _ _ => rfl
  have htotal : TotalAgrees (init timestamp deployer bridge) := by
    rw [TotalAgrees, getTotalVotes, totalSupply, holdings_init]
    rfl
  constructor
  · exact Machine.always_iff_along (fun _ call hinv => hinv.next call)
      (fun _ call hinv hagree => votesAgree_next_iff call hinv hagree)
      (tokenInv_init _ _ _) hinit calls
  · exact Machine.always_iff_along (I := fun token => VotesAgree token ∧ TotalAgrees token)
      (fun _ call hinv => hinv.next call)
        (fun _ call hinv hagree => agree_next_iff call hinv hagree)
      (tokenInv_init _ _ _) ⟨hinit, htotal⟩ calls

end Token

def mintTwice : List TokenCall :=
  let bridge : Account := ⟨1, Nat.one_ne_zero⟩
  let alice : Account := ⟨2, Nat.succ_ne_zero 1⟩
  [.mint bridge 2 (10 * 10 ^ 18), .delegate alice 3, .mint bridge 2 (10 * 10 ^ 18)]

/-- The first mint is counted twice in the total, and the second one twice for the delegate. -/
theorem votingPower_mintTwice :
    (tokenMachine.exec (init 0 9 1) (mintTwice.take 1)).getTotalVotes = 20 * 10 ^ 18 ∧
      (tokenMachine.exec (init 0 9 1) (mintTwice.take 1)).totalSupply = 10 * 10 ^ 18 ∧
      (tokenMachine.exec (init 0 9 1) mintTwice).getVotes 3 = 30 * 10 ^ 18 ∧
      (tokenMachine.exec (init 0 9 1) mintTwice).delegatedBalance 3 = 20 * 10 ^ 18 := by
  decide +kernel

end RiverToken

end River.Contracts
