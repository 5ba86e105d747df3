/-
  Whether delegated tokens of the Base River token stay locked and can be undelegated.
-/

import River.Contracts.RiverToken

namespace River.Contracts

open River.Lib Function RiverToken

namespace RiverToken

section Token

variable [ERC20Votes]

def atTime (token : RiverToken) (timestamp : Nat) : RiverToken := { token with timestamp }

/-- Who has a delegate cannot transfer, now or later. -/
def StaysLocked (token : RiverToken) : Prop :=
  ∀ account : Account, token.delegates account.address ≠ 0 →
    ∀ timestamp, token.timestamp ≤ timestamp →
    (∀ call m, TokenCall.movement call = some m → m.from_ = account.address →
      ∃ e, (token.atTime timestamp).call call = .error e) ∧
    (token.atTime timestamp).call (.delegate account 0) ≠ .error .lockAlreadyDisabled

def Secured (token : RiverToken) : Prop :=
  ∀ account, token.delegates account ≠ 0 → token.enabledByAddress account = true

/-- Nobody delegates while cooling down. -/
def NotCoolingDown (token : RiverToken) (call : TokenCall) : Prop :=
  ∀ account delegatee token', call = .delegate account delegatee → delegatee ≠ 0 →
    token.call call = .ok token' →
      ¬(token.enabledByAddress account.address = false ∧
        token.timestamp < token.cooldownByAddress account.address)

theorem secured_init (timestamp : Nat) (deployer bridge : Address) :
    Secured (init timestamp deployer bridge) := by
  intro account h
  rw [delegates, holdings_init] at h
  exact absurd rfl h

/-! ## What a lock is for -/

variable {token token' : RiverToken}

theorem callVotes_ne_disabled (f : ERC20Votes.Storage → Option ERC20Votes.Storage)
    (token : RiverToken) : token.callVotes f ≠ .error .lockAlreadyDisabled := by
  unfold callVotes
  split
  · exact nofun
  · exact nofun

theorem disableLock_ne_disabled (h : token.enabledByAddress account = true) :
    token.disableLock account ≠ .error .lockAlreadyDisabled := by
  unfold disableLock
  rw [if_neg (by simp [h])]
  refine bind_ne_error ?_ fun _ => nofun
  unfold addChecked
  split
  · exact nofun
  · exact nofun

theorem delegate_zero_ne_disabled (h : token.enabledByAddress account = true) :
    token.delegate account 0 ≠ .error .lockAlreadyDisabled := by
  unfold delegate
  split_ifs
  · exact nofun
  · exact nofun
  refine bind_ne_error ?_ fun locked =>
    bind_ne_error (callVotes_ne_disabled _ _) fun _ => nofun
  exact disableLock_ne_disabled h

theorem Secured.staysLocked (h : Secured token) : StaysLocked token := by
  intro account hdelegate timestamp _
  have henabled := h account.address hdelegate
  constructor
  · intro call m hmovement hfrom
    cases hcall : (token.atTime timestamp).call call with
    | error e => exact ⟨e, rfl⟩
    | ok token' =>
      exfalso
      cases call_effect hcall with
      | moved hm _ hmoved =>
        rw [hmovement] at hm
        cases hm
        have hunlocked := hmoved.unlocked (hfrom ▸ account.ne_zero)
        simp [lockEnabled, atTime, hfrom, henabled] at hunlocked
      | delegated => cases hmovement
      | kept hm =>
        rw [hmovement] at hm
        cases hm
  · exact delegate_zero_ne_disabled henabled

/-! ## One call -/

theorem Delegated.enabled_other {account delegatee other : Address}
    (h : Delegated account delegatee token token') (hother : other ≠ account) :
    token'.enabledByAddress other = token.enabledByAddress other := by
  have hlock := h.lock
  unfold delegateLock at hlock
  split at hlock
  · obtain ⟨-, hlock⟩ := ite_error_ok.1 hlock
    obtain ⟨_, -, hlock⟩ := bind_ok.1 hlock
    have henabled := congrArg enabledByAddress (Except.ok.inj hlock)
    rw [← henabled]
    exact update_of_ne hother _ _
  · split at hlock
    · obtain ⟨-, hlock⟩ := ite_error_ok.1 hlock
      have henabled := congrArg enabledByAddress (Except.ok.inj hlock)
      rw [← henabled]
      exact update_of_ne hother _ _
    · have henabled := congrArg enabledByAddress (Except.ok.inj hlock)
      rw [← henabled]

theorem Delegated.enabled_iff {account delegatee : Address}
    (h : Delegated account delegatee token token') (hne : delegatee ≠ 0) :
    token'.enabledByAddress account = true ↔
      ¬(token.enabledByAddress account = false ∧
        token.timestamp < token.cooldownByAddress account) := by
  have hlock := h.lock
  unfold delegateLock at hlock
  rw [if_neg hne] at hlock
  split at hlock
  · -- the lock is off and is enabled now
    rename_i hoff
    obtain ⟨-, hlock⟩ := ite_error_ok.1 hlock
    have henabled := congrArg enabledByAddress (Except.ok.inj hlock)
    rw [← henabled]
    simp only [update_self, true_iff]
    rintro ⟨-, hcooling⟩
    simp [lockEnabled, hcooling] at hoff
  · -- the lock counts as on and is left as it is
    rename_i hon
    have henabled := congrArg enabledByAddress (Except.ok.inj hlock)
    rw [← henabled]
    simp only [lockEnabled, Bool.or_eq_false_iff, decide_eq_false_iff_not, not_and, not_not] at hon
    constructor
    · rintro henabled ⟨hdisabled, -⟩
      rw [hdisabled] at henabled
      cases henabled
    · intro hnot
      by_contra hdisabled
      have hdisabled := eq_false_of_ne_true hdisabled
      exact hnot ⟨hdisabled, hon hdisabled⟩

theorem Secured.next {call : TokenCall} (h : Secured token) (hcall : NotCoolingDown token call) :
    Secured (tokenMachine.next token call) := by
  refine Machine.next_ofCall h fun token' hresult => ?_
  cases call_effect hresult with
  | moved _ _ hmoved =>
    intro account hdelegate
    rw [delegates, hmoved.delegatee] at hdelegate
    rw [hmoved.rest]
    exact h account hdelegate
  | @delegated account delegatee hdelegated =>
    intro other hother
    rw [delegates, hdelegated.written] at hother
    by_cases hsame : other = account.address
    · subst hsame
      rw [update_self] at hother
      exact (hdelegated.enabled_iff hother).2 (hcall account delegatee token' rfl hother hresult)
    · rw [update_of_ne hsame] at hother
      rw [hdelegated.enabled_other hsame]
      exact h other hother
  | kept _ _ hsame =>
    intro account hdelegate
    rw [hsame.enabledByAddress]
    rw [delegates, hsame.holdings] at hdelegate
    exact h account hdelegate

theorem not_staysLocked_of_coolingDown {call : TokenCall} (hcall : ¬NotCoolingDown token call) :
    ¬StaysLocked (tokenMachine.next token call) := by
  unfold NotCoolingDown at hcall
  push Not at hcall
  obtain ⟨account, delegatee, token', rfl, hne, hresult, hcooling⟩ := hcall
  rw [tokenMachine_next_ok hresult]
  have hdelegated := delegate_ok hresult
  have hdelegatee : token'.delegates account.address = delegatee := by
    rw [delegates, hdelegated.written, update_self]
  have hdisabled : token'.enabledByAddress account.address = false := by
    apply eq_false_of_ne_true
    intro htrue
    exact (hdelegated.enabled_iff hne).1 htrue hcooling
  -- the balance and the threshold are those that let the account delegate
  have henough : ¬token'.balanceOf account.address < token'.minTokenThreshold := by
    rw [balanceOf, hdelegated.holdings, hdelegated.rest]
    exact Nat.not_lt.2 hdelegated.enough
  have hrevert : token'.delegate account.address 0 = .error .lockAlreadyDisabled := by
    unfold delegate delegateLock disableLock
    rw [if_neg (hdelegatee ▸ hne), if_neg henough, if_pos hdisabled]
    rfl
  intro hlocked
  exact (hlocked account (hdelegatee ▸ hne) token'.timestamp (Nat.le_refl _)).2 hrevert

/-! ## Whole runs -/

/-- Delegated tokens stay locked and can be undelegated all along a run exactly if no account
    delegates while its lock is disabled and its cooldown runs. -/
theorem staysLocked_iff (timestamp : Nat) (deployer bridge : Address) (calls : List TokenCall) :
    (∀ front, front <+: calls →
        StaysLocked (tokenMachine.exec (init timestamp deployer bridge) front)) ↔
      tokenMachine.Along NotCoolingDown (init timestamp deployer bridge) calls :=
  Machine.always_iff_along_of_stronger (fun _ h => h.staysLocked) (fun _ _ h hcall => h.next hcall)
    (fun _ _ _ hcall => not_staysLocked_of_coolingDown hcall) (secured_init _ _ _) calls

end Token

def redelegation : List TokenCall :=
  let bridge : Account := ⟨1, by decide⟩
  let alice : Account := ⟨2, by decide⟩
  [.mint bridge 2 (10 * 10 ^ 18), .delegate alice 3, .delegate alice 0, .wait 1, .delegate alice 4]

/-- It cannot undelegate any more, and thirty days later its tokens move. -/
theorem not_staysLocked_redelegation :
    let token := tokenMachine.exec (init 0 9 1) redelegation
    let alice : Account := ⟨2, by decide⟩
    token.delegates 2 = 4 ∧
      tokenMachine.out token (.delegate alice 0) = some .lockAlreadyDisabled ∧
      tokenMachine.out (tokenMachine.next token (.wait (30 * 24 * 60 * 60)))
        (.transfer alice 5 1) = none := by
  decide +kernel

end RiverToken

end River.Contracts
