/-
  The Base River token (contracts/src/tokens/river/base/River.sol) with the lock
  (contracts/src/tokens/lock/LockBase.sol) and the enumerable votes
  (contracts/src/diamond/facets/governance/votes/enumerable/VotesEnumerable.sol).

  A signed delegation or approval is the signer's own call. Nobody sends or signs as `address(0)`,
  so a sender is an `Account`.
-/

import River.Contracts.ERC20Votes

namespace River.Contracts

open River.Lib Function

inductive TokenRevert where
  | onlyBridge | ownableUnauthorizedAccount | ownableInvalidOwner
  | transferLockEnabled | delegateeSameAsCurrent | invalidTokenAmount
  | lockAlreadyEnabled | lockAlreadyDisabled
  | erc20InvalidSender | erc20InvalidReceiver | panicArithmetic
  /-- A call of `ERC20Votes` reverts. -/
  | erc20Votes
  deriving DecidableEq

abbrev TokenResult := Except TokenRevert

structure Account where
  address : Address
  ne_zero : address ≠ 0

variable [ERC20Votes] {value : Nat}

/-! ## Storage -/

structure RiverToken where
  timestamp : Nat
  -- `Ownable` and the immutables of `River`
  owner : Address
  bridge : Address
  minTokenThreshold : Nat
  erc20Votes : ERC20Votes.Storage
  -- `LockStorage`
  defaultCooldown : Nat
  enabledByAddress : Address → Bool
  cooldownByAddress : Address → Nat
  -- `VotesEnumerableStorage`
  delegators : EnumerableSet Address
  delegatorsByDelegatee : Address → EnumerableSet Address
  delegationTimeForDelegator : Address → Nat

namespace RiverToken

def init (timestamp : Nat) (deployer bridge : Address) : RiverToken where
  timestamp := timestamp
  owner := deployer
  bridge := bridge
  minTokenThreshold := 10 * 10 ^ 18
  erc20Votes := ERC20Votes.deployed
  defaultCooldown := 30 * 24 * 60 * 60
  enabledByAddress := fun _ => false
  cooldownByAddress := fun _ => 0
  delegators := .empty
  delegatorsByDelegatee := fun _ => .empty
  delegationTimeForDelegator := fun _ => 0

variable (token : RiverToken) (account : Address)

def holdings : Holdings := ERC20Votes.holdings token.erc20Votes

def totalSupply : Nat := token.holdings.totalSupply

def balanceOf : Nat := token.holdings.balances.get account

def delegates : Address := token.holdings.delegatee account

def getVotes : Nat := token.holdings.votes account

def getTotalVotes : Nat := token.holdings.totalVotes

def clock : Nat := token.timestamp % 2 ^ 48

def callVotes (f : ERC20Votes.Storage → Option ERC20Votes.Storage) (token : RiverToken) :
    TokenResult RiverToken :=
  match f token.erc20Votes with
  | some erc20Votes => .ok { token with erc20Votes }
  | none => .error .erc20Votes

variable (from_ to_ : Address)

/-! ## LockBase -/

def lockEnabled (caller : Address) : Bool :=
  token.enabledByAddress caller || decide (token.timestamp < token.cooldownByAddress caller)

def enableLock (caller : Address) (token : RiverToken) : TokenResult RiverToken :=
  if token.enabledByAddress caller = true then .error .lockAlreadyEnabled
  else .ok { token with enabledByAddress := update token.enabledByAddress caller true }

def disableLock (caller : Address) (token : RiverToken) : TokenResult RiverToken :=
  if token.enabledByAddress caller = false then .error .lockAlreadyDisabled
  else do
    let cooldown ← addChecked .panicArithmetic 256 token.timestamp token.defaultCooldown
    .ok { token with
      enabledByAddress := update token.enabledByAddress caller false
      cooldownByAddress := update token.cooldownByAddress caller cooldown }

/-! ## VotesEnumerable -/

def setDelegators (account newDelegatee currentDelegatee : Address) (token : RiverToken) :
    RiverToken :=
  let removed := (token.delegatorsByDelegatee currentDelegatee).remove account
  let token := { token with
    delegators := token.delegators.remove account
    delegatorsByDelegatee := update token.delegatorsByDelegatee currentDelegatee removed }
  if newDelegatee ≠ 0 then
    let added := (token.delegatorsByDelegatee newDelegatee).add account
    { token with
      delegators := token.delegators.add account
      delegatorsByDelegatee := update token.delegatorsByDelegatee newDelegatee added
      delegationTimeForDelegator :=
        update token.delegationTimeForDelegator account token.timestamp }
  else token

/-! ## River -/

def update (value : Nat) (token : RiverToken) : TokenResult RiverToken :=
  if from_ ≠ 0 ∧ token.lockEnabled from_ = true then .error .transferLockEnabled
  else do
    let token ← token.callVotes (ERC20Votes.update token.clock from_ to_ value)
    token.callVotes (ERC20Votes.transferVotingUnits token.clock from_ to_ value)

def delegateLock (account delegatee : Address) (token : RiverToken) : TokenResult RiverToken :=
  if delegatee = 0 then token.disableLock account
  else if token.lockEnabled account = false then token.enableLock account
  else .ok token

def delegate (account delegatee : Address) (token : RiverToken) : TokenResult RiverToken :=
  if token.delegates account = delegatee then .error .delegateeSameAsCurrent
  else if token.balanceOf account < token.minTokenThreshold then .error .invalidTokenAmount
  else do
    let token ← token.delegateLock account delegatee
    let currentDelegatee := token.delegates account
    let token ← token.callVotes (ERC20Votes.delegate token.clock account delegatee)
    .ok (token.setDelegators account delegatee currentDelegatee)

def mint (sender account : Address) (amount : Nat) (token : RiverToken) : TokenResult RiverToken :=
  if sender ≠ token.bridge then .error .onlyBridge
  else if account = 0 then .error .erc20InvalidReceiver
  else token.update 0 account amount

def burn (sender account : Address) (amount : Nat) (token : RiverToken) : TokenResult RiverToken :=
  if sender ≠ token.bridge then .error .onlyBridge
  else if account = 0 then .error .erc20InvalidSender
  else token.update account 0 amount

def transfer (value : Nat) (token : RiverToken) : TokenResult RiverToken :=
  if from_ = 0 then .error .erc20InvalidSender
  else if to_ = 0 then .error .erc20InvalidReceiver
  else token.update from_ to_ value

def approve (tokenOwner spender : Address) (value : Nat) (token : RiverToken) :
    TokenResult RiverToken :=
  token.callVotes (ERC20Votes.approve tokenOwner spender value)

def transferFrom (spender from_ to_ : Address) (value : Nat) (token : RiverToken) :
    TokenResult RiverToken := do
  let token ← token.callVotes (ERC20Votes.spendAllowance from_ spender value)
  token.transfer from_ to_ value

variable (sender : Address)

def onlyOwner (token : RiverToken) : TokenResult Unit :=
  if sender = token.owner then .ok () else .error .ownableUnauthorizedAccount

def setTokenThreshold (threshold : Nat) (token : RiverToken) : TokenResult RiverToken := do
  token.onlyOwner sender
  if threshold > token.totalSupply then .error .invalidTokenAmount
  else .ok { token with minTokenThreshold := threshold }

def setLockCooldown (cooldown : Nat) (token : RiverToken) : TokenResult RiverToken := do
  token.onlyOwner sender
  .ok { token with defaultCooldown := cooldown }

def transferOwnership (newOwner : Option Address) (token : RiverToken) :
    TokenResult RiverToken := do
  token.onlyOwner sender
  match newOwner with
  | none => .ok { token with owner := 0 }
  | some newOwner =>
    if newOwner = 0 then .error .ownableInvalidOwner else .ok { token with owner := newOwner }

end RiverToken

/-! ## The token as a machine -/

inductive TokenCall where
  | mint (sender : Account) (account : Address) (amount : Nat)
  | burn (sender : Account) (account : Address) (amount : Nat)
  | transfer (sender : Account) (to_ : Address) (value : Nat)
  | transferFrom (sender : Account) (from_ to_ : Address) (value : Nat)
  | approve (sender : Account) (spender : Address) (value : Nat)
  | delegate (account : Account) (delegatee : Address)
  | setTokenThreshold (sender : Account) (threshold : Nat)
  | setLockCooldown (sender : Account) (cooldown : Nat)
  | transferOwnership (sender : Account) (newOwner : Option Address)
  /-- A later block. -/
  | wait (seconds : Nat)

namespace RiverToken

def call (token : RiverToken) : TokenCall → TokenResult RiverToken
  | .mint sender account amount => token.mint sender.address account amount
  | .burn sender account amount => token.burn sender.address account amount
  | .transfer sender to_ value => token.transfer sender.address to_ value
  | .transferFrom sender from_ to_ value => token.transferFrom sender.address from_ to_ value
  | .approve sender spender value => token.approve sender.address spender value
  | .delegate account delegatee => token.delegate account.address delegatee
  | .setTokenThreshold sender threshold => token.setTokenThreshold sender.address threshold
  | .setLockCooldown sender cooldown => token.setLockCooldown sender.address cooldown
  | .transferOwnership sender newOwner => token.transferOwnership sender.address newOwner
  | .wait seconds => .ok { token with timestamp := token.timestamp + seconds }

end RiverToken

/-- The River token on Base. -/
def tokenMachine : Machine RiverToken TokenCall (Option TokenRevert) := .ofCall RiverToken.call

variable {token token' : RiverToken} {call : TokenCall}

theorem tokenMachine_next_ok (h : token.call call = .ok token') :
    tokenMachine.next token call = token' := Machine.next_ofCall_ok h

theorem tokenMachine_next_error (h : token.call call = .error e) :
    tokenMachine.next token call = token := Machine.next_ofCall_error h

/-! ## What a call moves -/

variable {from_ to_ account : Address}

namespace RiverToken

@[simp] theorem holdings_init (timestamp : Nat) (deployer bridge : Address) :
    (init timestamp deployer bridge).holdings = .empty := ERC20Votes.holdings_deployed

theorem callVotes_ok (h : token.callVotes f = .ok token') :
    token' = { token with erc20Votes := token'.erc20Votes } ∧
      f token.erc20Votes = some token'.erc20Votes := by
  unfold callVotes at h
  split at h
  · rename_i hf
    cases h
    exact ⟨rfl, hf⟩
  · cases h

structure Moved (from_ to_ : Address) (value : Nat) (token token' : RiverToken) : Prop where
  unlocked : from_ ≠ 0 → token.lockEnabled from_ = false
  rest : token' = { token with erc20Votes := token'.erc20Votes }
  balances : token.holdings.BalancesMoved from_ to_ value token'.holdings
  delegatee : token'.holdings.delegatee = token.holdings.delegatee
  votes : ∀ x, x ≠ 0 →
    token'.getVotes x + 2 * amountAt x (token.delegates from_) value =
      token.getVotes x + 2 * amountAt x (token.delegates to_) value
  total : token'.getTotalVotes + 2 * amountAt 0 to_ value =
    token.getTotalVotes + 2 * amountAt 0 from_ value

theorem Moved.supply (h : Moved from_ to_ value token token') : token'.totalSupply =
    token.totalSupply + amountAt 0 from_ value - amountAt 0 to_ value := h.balances.supply

theorem update_ok (h : token.update from_ to_ value = .ok token') :
    Moved from_ to_ value token token' := by
  obtain ⟨hlock, h⟩ := ite_error_ok.1 h
  obtain ⟨voted, hsuper, hagain⟩ := bind_ok.1 h
  obtain ⟨hrest, hsuper⟩ := callVotes_ok hsuper
  obtain ⟨hrest', hagain⟩ := callVotes_ok hagain
  obtain ⟨⟨henough, hsums, hsupply⟩, hfirst⟩ := ERC20Votes.update_some hsuper
  obtain ⟨hkept, hsecond⟩ := ERC20Votes.transferVotingUnits_some hagain
  -- the second call moves the votes only
  have hbalances := congrArg Holdings.balances hkept
  have htotalSupply := congrArg Holdings.totalSupply hkept
  refine ⟨?_, ?_, ⟨henough, ?_, ?_⟩, hsecond.delegatee.trans hfirst.delegatee, fun x hx => ?_, ?_⟩
  · intro hne
    by_contra hlocked
    exact hlock ⟨hne, by simpa using hlocked⟩
  · rw [hrest', hrest]
  · intro p _
    rw [holdings, hbalances]
    exact hsums p
  · rw [holdings, htotalSupply]
    exact hsupply
  · have h1 := hfirst.votes x hx
    have h2 := hsecond.votes x hx
    rw [hfirst.delegatee] at h2
    simp only [getVotes, delegates, holdings]
    omega
  · have h1 := hfirst.total
    have h2 := hsecond.total
    simp only [getTotalVotes, holdings]
    omega

structure Delegated (account delegatee : Address) (token token' : RiverToken) : Prop where
  enough : token.minTokenThreshold ≤ token.balanceOf account
  lock : token.delegateLock account delegatee = .ok { token with
    enabledByAddress := token'.enabledByAddress
    cooldownByAddress := token'.cooldownByAddress }
  listed : (token'.delegators, token'.delegatorsByDelegatee) =
    let listed := token.setDelegators account delegatee (token.delegates account)
    (listed.delegators, listed.delegatorsByDelegatee)
  votes : token.holdings.VotesMoved (token.delegates account) delegatee (token.balanceOf account)
    token'.holdings
  holdings : token'.holdings = { token.holdings with
    delegatee := Function.update token.holdings.delegatee account delegatee
    votes := token'.holdings.votes }
  rest : token' = { token with
    erc20Votes := token'.erc20Votes
    enabledByAddress := token'.enabledByAddress
    cooldownByAddress := token'.cooldownByAddress
    delegators := token'.delegators
    delegatorsByDelegatee := token'.delegatorsByDelegatee
    delegationTimeForDelegator := token'.delegationTimeForDelegator }

theorem Delegated.written (h : Delegated account delegatee token token') :
    token'.holdings.delegatee = Function.update token.holdings.delegatee account delegatee :=
  congrArg Holdings.delegatee h.holdings

theorem delegateLock_rest {delegatee : Address}
    (h : token.delegateLock account delegatee = .ok token') :
    token' = { token with
      enabledByAddress := token'.enabledByAddress
      cooldownByAddress := token'.cooldownByAddress } := by
  unfold delegateLock at h
  split at h
  · obtain ⟨-, h⟩ := ite_error_ok.1 h
    obtain ⟨_, -, h⟩ := bind_ok.1 h
    cases h
    rfl
  · split at h
    · obtain ⟨-, h⟩ := ite_error_ok.1 h
      cases h
      rfl
    · cases h
      rfl

theorem delegate_ok {delegatee : Address} (h : token.delegate account delegatee = .ok token') :
    Delegated account delegatee token token' := by
  obtain ⟨-, h⟩ := ite_error_ok.1 h
  obtain ⟨henough, h⟩ := ite_error_ok.1 h
  obtain ⟨locked, hlock, h⟩ := bind_ok.1 h
  obtain ⟨voted, hvotes, h⟩ := bind_ok.1 h
  have hset : token' = { voted with
      delegators := token'.delegators
      delegatorsByDelegatee := token'.delegatorsByDelegatee
      delegationTimeForDelegator := token'.delegationTimeForDelegator } := by
    rw [← Except.ok.inj h]
    unfold setDelegators
    split <;> rfl
  have hlocked := delegateLock_rest hlock
  obtain ⟨hvoted, hvotes⟩ := callVotes_ok hvotes
  obtain ⟨hkept, hmoved⟩ := ERC20Votes.delegate_some hvotes
  have hbefore : locked.erc20Votes = token.erc20Votes := by rw [hlocked]
  have hafter : voted.erc20Votes = token'.erc20Votes := by rw [hset]
  have henabled : token'.enabledByAddress = locked.enabledByAddress := by rw [hset, hvoted]
  have hcooldown : token'.cooldownByAddress = locked.cooldownByAddress := by rw [hset, hvoted]
  rw [hbefore, hafter] at hkept hmoved
  refine ⟨Nat.not_lt.1 henough, ?_, ?_, hmoved, hkept, ?_⟩
  · rw [hlock, henabled, hcooldown, ← hlocked]
  · rw [← Except.ok.inj h, hvoted, hlocked]
    unfold setDelegators
    split <;> rfl
  · rw [hset, hvoted, hlocked]

end RiverToken

/-! ## What a call can do -/

structure Movement where
  from_ : Address
  to_ : Address
  value : Nat

def TokenCall.movement : TokenCall → Option Movement
  | .mint _ account amount => some ⟨0, account, amount⟩
  | .burn _ account amount => some ⟨account, 0, amount⟩
  | .transfer sender to_ value => some ⟨sender.address, to_, value⟩
  | .transferFrom _ from_ to_ value => some ⟨from_, to_, value⟩
  | _ => none

namespace RiverToken

structure SameHoldings (token token' : RiverToken) : Prop where
  holdings : token'.holdings = token.holdings
  enabledByAddress : token'.enabledByAddress = token.enabledByAddress
  delegators : token'.delegators = token.delegators
  delegatorsByDelegatee : token'.delegatorsByDelegatee = token.delegatorsByDelegatee

inductive CallEffect (token token' : RiverToken) : TokenCall → Prop where
  | moved {call : TokenCall} {m : Movement} (movement : call.movement = some m)
      (proper : m.from_ ≠ 0 ∨ m.to_ ≠ 0) (moved : Moved m.from_ m.to_ m.value token token') :
      CallEffect token token' call
  | delegated {account : Account} {delegatee : Address}
      (delegated : Delegated account.address delegatee token token') :
      CallEffect token token' (.delegate account delegatee)
  | kept {call : TokenCall} (movement : call.movement = none)
      (other : ∀ account delegatee, call ≠ .delegate account delegatee)
      (same : SameHoldings token token') : CallEffect token token' call

theorem onlyOwner_ok {f : Unit → TokenResult RiverToken}
    (h : (token.onlyOwner sender >>= f) = .ok token') : f () = .ok token' := by
  obtain ⟨⟨⟩, -, h⟩ := bind_ok.1 h
  exact h

theorem transfer_ok (h : token.transfer from_ to_ value = .ok token') :
    from_ ≠ 0 ∧ to_ ≠ 0 ∧ Moved from_ to_ value token token' := by
  obtain ⟨hfrom, h⟩ := ite_error_ok.1 h
  obtain ⟨hto, h⟩ := ite_error_ok.1 h
  exact ⟨hfrom, hto, update_ok h⟩

theorem Moved.of_spent {spent : RiverToken} (h : Moved from_ to_ value spent token')
    (hrest : spent = { token with erc20Votes := spent.erc20Votes })
    (hsame : spent.holdings = token.holdings) : Moved from_ to_ value token token' := by
  obtain ⟨hunlocked, hrest', hbalances, hdelegatee, hvotes, htotal⟩ := h
  simp only [getVotes, delegates, getTotalVotes, hsame] at hbalances hdelegatee hvotes htotal
  rw [hrest] at hunlocked hrest'
  exact ⟨hunlocked, hrest', hbalances, hdelegatee, hvotes, htotal⟩

theorem call_effect (h : token.call call = .ok token') : CallEffect token token' call := by
  cases call with
  | mint sender account amount =>
    obtain ⟨-, h⟩ := ite_error_ok.1 h
    obtain ⟨hne, h⟩ := ite_error_ok.1 h
    exact .moved rfl (.inr hne) (update_ok h)
  | burn sender account amount =>
    obtain ⟨-, h⟩ := ite_error_ok.1 h
    obtain ⟨hne, h⟩ := ite_error_ok.1 h
    exact .moved rfl (.inl hne) (update_ok h)
  | transfer sender to_ value =>
    obtain ⟨hfrom, -, hmoved⟩ := transfer_ok h
    exact .moved rfl (.inl hfrom) hmoved
  | transferFrom sender from_ to_ value =>
    obtain ⟨_, hspend, h⟩ := bind_ok.1 h
    obtain ⟨hrest, hspend⟩ := callVotes_ok hspend
    obtain ⟨hfrom, -, hmoved⟩ := transfer_ok h
    exact .moved rfl (.inl hfrom) (hmoved.of_spent hrest (ERC20Votes.spendAllowance_some hspend))
  | approve sender spender value =>
    obtain ⟨hrest, happrove⟩ := callVotes_ok h
    refine .kept rfl (fun _ _ => nofun) ⟨ERC20Votes.approve_some happrove, ?_, ?_, ?_⟩
    all_goals rw [hrest]
  | delegate account delegatee => exact .delegated (delegate_ok h)
  | setTokenThreshold sender threshold =>
    obtain ⟨-, h⟩ := ite_error_ok.1 (onlyOwner_ok h)
    cases h
    exact .kept rfl (fun _ _ => nofun) ⟨rfl, rfl, rfl, rfl⟩
  | setLockCooldown sender cooldown =>
    cases onlyOwner_ok h
    exact .kept rfl (fun _ _ => nofun) ⟨rfl, rfl, rfl, rfl⟩
  | transferOwnership sender newOwner =>
    replace h := onlyOwner_ok h
    refine .kept rfl (fun _ _ => nofun) ?_
    cases newOwner with
    | none =>
      cases h
      exact ⟨rfl, rfl, rfl, rfl⟩
    | some newOwner =>
      obtain ⟨-, h⟩ := ite_error_ok.1 h
      cases h
      exact ⟨rfl, rfl, rfl, rfl⟩
  | wait seconds =>
    cases h
    exact .kept rfl (fun _ _ => nofun) ⟨rfl, rfl, rfl, rfl⟩

end RiverToken

end River.Contracts
