/-
  Who may claim rewards, on mainnet and on Base
  (contracts/src/tokens/river/mainnet/delegation/ProxyDelegation.sol,
  mainnet/claimer/AuthorizedClaimers.sol and base/delegation/MainnetDelegationBase.sol).

  Whether the token accepts a delegation, and the balance it reports, are parts of the call.
-/

import River.Contracts.MainnetDelegation

namespace River.Contracts

open River.Lib Function MainnetDelegationBase

inductive TypedData where
  | delegation (delegatee : Address) (nonce expiry : Nat)
  | authorize (owner claimer : Address) (nonce expiry : Nat)

structure BridgeParams where
  Signature : Type
  /-- `ECDSA.recover` of the typed data; it reverts for what is no signature. -/
  recover : TypedData → Signature → Option Address
  /-- The messenger on Base. -/
  messenger : Address
  /-- The address of `ProxyDelegation`. -/
  proxy : Address

inductive BridgeMessage where
  | setDelegation (delegator operator : Address) (quantity : Nat)
  | setAuthorizedClaimer (owner claimer : Address)

structure ClaimerBridge where
  authorizedClaimers : Address → Address
  nonces : Address → Nat
  queue : List BridgeMessage
  base : MainnetDelegation

inductive ClaimerRevert where
  | claimerAlreadyAuthorized | invalidSignature | expiredSignature | ecdsaInvalidSignature
  | invalidAccountNonce (account : Address) (currentNonce : Nat)
  | river

variable (p : BridgeParams)

inductive BridgeAction where
  /-- `ProxyDelegation.delegateBySig`, with the answers of the token. -/
  | delegateBySig (delegatee : Address) (nonce expiry : Nat) (signature : p.Signature)
      (riverAccepts : Bool) (balance : Nat)
  /-- `ProxyDelegation.authorizeBySig`. -/
  | authorizeBySig (owner claimer : Address) (nonce expiry : Nat) (signature : p.Signature)
      (timestamp : Nat)
  /-- `AuthorizedClaimers.authorizeClaimerBySig`. -/
  | authorizeClaimerBySig (owner claimer : Address) (nonce expiry : Nat) (signature : p.Signature)
      (timestamp : Nat)
  /-- `AuthorizedClaimers.authorizeClaimer`. -/
  | authorizeClaimer (msgSender claimer : Address)
  /-- `AuthorizedClaimers.removeAuthorizedClaimer`. -/
  | removeAuthorizedClaimer (msgSender : Address)
  | deliver (timestamp : Nat)

namespace ClaimerBridge

def init : ClaimerBridge where
  authorizedClaimers _ := 0
  nonces _ := 0
  queue := []
  base := { MainnetDelegation.init p.messenger with proxyDelegation := p.proxy }

/-! ## AuthorizedClaimers -/

variable (s : ClaimerBridge)

def setClaimer (signer claimer : Address) : Except ClaimerRevert ClaimerBridge :=
  if claimer = 0 then
    .ok { s with authorizedClaimers := update s.authorizedClaimers signer 0 }
  else if s.authorizedClaimers signer = claimer then .error .claimerAlreadyAuthorized
  else .ok { s with authorizedClaimers := update s.authorizedClaimers signer claimer }

def useCheckedNonce (owner : Address) (nonce : Nat) : Except ClaimerRevert ClaimerBridge :=
  if nonce ≠ s.nonces owner then .error (.invalidAccountNonce owner (s.nonces owner))
  else .ok { s with nonces := update s.nonces owner (s.nonces owner + 1) }

def authorizeClaimerBySig (owner claimer : Address) (nonce expiry : Nat) (signature : p.Signature)
    (timestamp : Nat) : Except ClaimerRevert ClaimerBridge :=
  if expiry ≠ 0 ∧ timestamp ≥ expiry then .error .expiredSignature
  else
    match p.recover (.authorize owner claimer nonce expiry) signature with
    | none => .error .ecdsaInvalidSignature
    | some signer =>
      if signer ≠ owner then .error .invalidSignature
      else do
        let s ← s.useCheckedNonce owner nonce
        s.setClaimer owner claimer

/-! ## ProxyDelegation -/

def sendMessage (message : BridgeMessage) : ClaimerBridge :=
  { s with queue := s.queue ++ [message] }

def delegateBySig (delegatee : Address) (nonce expiry : Nat) (signature : p.Signature)
    (riverAccepts : Bool) (balance : Nat) : Except ClaimerRevert ClaimerBridge :=
  if ¬riverAccepts then .error .river
  else
    match p.recover (.delegation delegatee nonce expiry) signature with
    | none => .error .ecdsaInvalidSignature
    | some delegator => .ok (s.sendMessage (.setDelegation delegator delegatee balance))

def authorizeBySig (owner claimer : Address) (nonce expiry : Nat) (signature : p.Signature)
    (timestamp : Nat) : Except ClaimerRevert ClaimerBridge := do
  let s ← s.authorizeClaimerBySig p owner claimer nonce expiry signature timestamp
  .ok (s.sendMessage (.setAuthorizedClaimer owner claimer))

/-! ## Base -/

def relay (timestamp : Nat) : BridgeMessage → DelegationCall
  | .setDelegation delegator operator quantity =>
    .setDelegation ⟨p.messenger, p.proxy⟩ delegator operator quantity timestamp
  | .setAuthorizedClaimer owner claimer =>
    .setAuthorizedClaimer ⟨p.messenger, p.proxy⟩ owner claimer

def deliver (timestamp : Nat) : ClaimerBridge :=
  match s.queue with
  | [] => s
  | message :: queue =>
    { s with queue := queue, base := delegationMachine.next s.base (relay p timestamp message) }

def call : BridgeAction p → Except ClaimerRevert ClaimerBridge
  | .delegateBySig delegatee nonce expiry signature riverAccepts balance =>
    s.delegateBySig p delegatee nonce expiry signature riverAccepts balance
  | .authorizeBySig owner claimer nonce expiry signature timestamp =>
    s.authorizeBySig p owner claimer nonce expiry signature timestamp
  | .authorizeClaimerBySig owner claimer nonce expiry signature timestamp =>
    s.authorizeClaimerBySig p owner claimer nonce expiry signature timestamp
  | .authorizeClaimer msgSender claimer => s.setClaimer msgSender claimer
  | .removeAuthorizedClaimer msgSender => s.setClaimer msgSender 0
  | .deliver timestamp => .ok (s.deliver p timestamp)

end ClaimerBridge

/-- Claimers on mainnet, and their messages to Base. -/
def claimerBridge : Machine ClaimerBridge (BridgeAction p) (Option ClaimerRevert) :=
  .ofCall (ClaimerBridge.call p)

variable {p}

def BridgeAction.direct? : BridgeAction p → Option (Address × Address)
  | .authorizeClaimerBySig owner claimer _ _ _ _ => some (owner, claimer)
  | .authorizeClaimer msgSender claimer => some (msgSender, claimer)
  | .removeAuthorizedClaimer msgSender => some (msgSender, 0)
  | _ => none

namespace ClaimerBridge

def claimersAfter (claimers : Address → Address) : List BridgeMessage → Address → Address
  | [] => claimers
  | .setDelegation _ _ _ :: messages => claimersAfter claimers messages
  | .setAuthorizedClaimer owner claimer :: messages =>
    claimersAfter (update claimers owner claimer) messages

def Agrees (s : ClaimerBridge) : Prop :=
  claimersAfter s.base.claimerByDelegator s.queue = s.authorizedClaimers

/-- A direct call only repeats the claimer there is. -/
def ThroughProxy (s : ClaimerBridge) (a : BridgeAction p) : Prop :=
  ∀ owner claimer, a.direct? = some (owner, claimer) → (s.call p a).isOk = true →
    s.authorizedClaimers owner = claimer

/-! ## One step -/

section Step

variable {s s' : ClaimerBridge} {owner claimer : Address}

theorem claimersAfter_append (claimers : Address → Address) (messages : List BridgeMessage)
    (message : BridgeMessage) : claimersAfter claimers (messages ++ [message]) =
      claimersAfter (claimersAfter claimers messages) [message] := by
  induction messages generalizing claimers with
  | nil => rfl
  | cons first messages ih =>
    cases first with
    | setDelegation delegator operator quantity => exact ih claimers
    | setAuthorizedClaimer owner claimer => exact ih (update claimers owner claimer)

inductive BridgeStep (s : ClaimerBridge) : BridgeAction p → ClaimerBridge → Prop where
  | reverted {a : BridgeAction p} (reverts : (s.call p a).isOk = false) : BridgeStep s a s
  | delegated {a : BridgeAction p} {delegator operator : Address} {quantity : Nat}
      (notDirect : a.direct? = none) :
      BridgeStep s a (s.sendMessage (.setDelegation delegator operator quantity))
  | authorized {a : BridgeAction p} {owner claimer : Address} {nonces : Address → Nat}
      (notDirect : a.direct? = none) :
      BridgeStep s a { s with
        authorizedClaimers := update s.authorizedClaimers owner claimer
        nonces := nonces
        queue := s.queue ++ [.setAuthorizedClaimer owner claimer] }
  | direct {a : BridgeAction p} {owner claimer : Address} {nonces : Address → Nat}
      (isDirect : a.direct? = some (owner, claimer)) (accepted : (s.call p a).isOk = true) :
      BridgeStep s a { s with
        authorizedClaimers := update s.authorizedClaimers owner claimer
        nonces := nonces }
  | delivered {timestamp : Nat} : BridgeStep s (.deliver timestamp) (s.deliver p timestamp)

theorem setClaimer_ok (h : s.setClaimer owner claimer = .ok s') :
    s' = { s with authorizedClaimers := update s.authorizedClaimers owner claimer } := by
  unfold setClaimer at h
  split at h
  · rename_i hzero
    cases h
    rw [hzero]
  · obtain ⟨-, h⟩ := ite_error_ok.1 h
    cases h
    rfl

theorem authorizeClaimerBySig_ok
    (h : s.authorizeClaimerBySig p owner claimer nonce expiry signature timestamp = .ok s') :
    ∃ nonces, s' = { s with
      authorizedClaimers := update s.authorizedClaimers owner claimer
      nonces := nonces } := by
  obtain ⟨-, h⟩ := ite_error_ok.1 h
  split at h
  · cases h
  obtain ⟨-, h⟩ := ite_error_ok.1 h
  obtain ⟨_, hnonce, h⟩ := bind_ok.1 h
  obtain ⟨-, hnonce⟩ := ite_error_ok.1 hnonce
  cases hnonce
  rw [setClaimer_ok h]
  exact ⟨_, rfl⟩

theorem call_ok (h : s.call p a = .ok s') : BridgeStep s a s' := by
  have haccepted : (s.call p a).isOk = true := by
    rw [h]
    rfl
  cases a with
  | delegateBySig delegatee nonce expiry signature riverAccepts balance =>
    obtain ⟨-, h⟩ := ite_error_ok.1 h
    split at h
    · cases h
    · cases h
      exact .delegated rfl
  | authorizeBySig owner claimer nonce expiry signature timestamp =>
    obtain ⟨_, hs1, h⟩ := bind_ok.1 h
    obtain ⟨nonces, rfl⟩ := authorizeClaimerBySig_ok hs1
    cases h
    exact .authorized rfl
  | authorizeClaimerBySig owner claimer nonce expiry signature timestamp =>
    obtain ⟨nonces, rfl⟩ := authorizeClaimerBySig_ok h
    exact .direct rfl haccepted
  | deliver timestamp =>
    cases h
    exact .delivered
  | _ =>
    rw [setClaimer_ok h]
    exact .direct rfl haccepted

theorem bridgeStep_next (s : ClaimerBridge) (a : BridgeAction p) :
    BridgeStep s a ((claimerBridge p).next s a) := by
  unfold Machine.next claimerBridge Machine.ofCall
  simp only
  cases h : s.call p a with
  | error e => exact .reverted (by rw [h]; rfl)
  | ok s' => exact call_ok h

def Connected (p : BridgeParams) (s : ClaimerBridge) : Prop :=
  s.base.messenger = p.messenger ∧ s.base.proxyDelegation = p.proxy

theorem next_relay (hc : s.Connected p) (timestamp : Nat) (message : BridgeMessage) :
    let base := delegationMachine.next s.base (relay p timestamp message)
    base.messenger = p.messenger ∧ base.proxyDelegation = p.proxy ∧
      base.claimerByDelegator = claimersAfter s.base.claimerByDelegator [message] := by
  have honly : s.base.OnlyCrossDomainMessenger ⟨p.messenger, p.proxy⟩ := ⟨hc.1.symm, hc.2.symm⟩
  cases message with
  | setDelegation delegator operator quantity =>
    have hnext : delegationMachine.next s.base (relay p timestamp (.setDelegation delegator operator
        quantity)) =
        setDelegation delegator operator quantity timestamp s.base := by
      simp [Machine.next, delegationMachine, Machine.ofCall, relay, MainnetDelegation.call, honly]
    rw [hnext]
    unfold setDelegation
    split <;> exact ⟨hc.1, hc.2, rfl⟩
  | setAuthorizedClaimer owner claimer =>
    have hnext : delegationMachine.next s.base (relay p timestamp (.setAuthorizedClaimer owner
        claimer)) = setAuthorizedClaimer owner claimer s.base := by
      simp [Machine.next, delegationMachine, Machine.ofCall, relay, MainnetDelegation.call, honly]
    rw [hnext]
    unfold setAuthorizedClaimer
    simp only
    split <;> exact ⟨hc.1, hc.2, rfl⟩

theorem Connected.next (hc : s.Connected p) (a : BridgeAction p) :
    ((claimerBridge p).next s a).Connected p := by
  have hstep := bridgeStep_next s a
  generalize (claimerBridge p).next s a = s' at hstep ⊢
  cases hstep with
  | @delivered timestamp =>
    unfold deliver
    split
    · exact hc
    · rename_i message queue hqueue
      obtain ⟨hmessenger, hproxy, -⟩ := next_relay hc timestamp message
      exact ⟨hmessenger, hproxy⟩
  | _ => exact hc

theorem agrees_next_iff (hc : s.Connected p) (h : s.Agrees) (a : BridgeAction p) :
    ((claimerBridge p).next s a).Agrees ↔ ThroughProxy s a := by
  have hstep := bridgeStep_next s a
  generalize (claimerBridge p).next s a = s' at hstep ⊢
  have hthrough : a.direct? = none → ThroughProxy s a := by
    intro hnone owner claimer hsome
    rw [hnone] at hsome
    cases hsome
  cases hstep with
  | reverted reverts =>
    refine iff_of_true h fun owner claimer _ haccepted => ?_
    rw [reverts] at haccepted
    cases haccepted
  | @delegated _ delegator operator quantity notDirect =>
    refine iff_of_true ?_ (hthrough notDirect)
    show claimersAfter s.base.claimerByDelegator (s.queue ++ [.setDelegation delegator operator
      quantity]) = s.authorizedClaimers
    rw [claimersAfter_append, h]
    rfl
  | @authorized _ owner claimer nonces notDirect =>
    refine iff_of_true ?_ (hthrough notDirect)
    show claimersAfter s.base.claimerByDelegator
      (s.queue ++ [.setAuthorizedClaimer owner claimer]) =
      update s.authorizedClaimers owner claimer
    rw [claimersAfter_append, h]
    rfl
  | @direct _ owner claimer nonces isDirect accepted =>
    -- the right side has changed alone
    show claimersAfter s.base.claimerByDelegator s.queue =
      update s.authorizedClaimers owner claimer ↔ _
    rw [h, eq_comm, update_eq_self_iff]
    constructor
    · intro heq owner' claimer' hdirect _
      rw [isDirect] at hdirect
      cases hdirect
      exact heq.symm
    · exact fun hproxy => (hproxy owner claimer isDirect accepted).symm
  | @delivered timestamp =>
    refine iff_of_true ?_ (hthrough rfl)
    unfold deliver
    split
    · exact h
    rename_i message queue hqueue
    obtain ⟨-, -, hclaimers⟩ := next_relay hc timestamp message
    unfold Agrees at h ⊢
    rw [hqueue] at h
    rw [← h, hclaimers]
    cases message <;> rfl

end Step

end ClaimerBridge

open ClaimerBridge

theorem claimersAfter_always_iff (p : BridgeParams) (run : List (BridgeAction p)) :
    (∀ front, front <+: run → ((claimerBridge p).exec (.init p) front).Agrees) ↔
      (claimerBridge p).Along ThroughProxy (.init p) run := by
  have hagrees : (ClaimerBridge.init p).Agrees := rfl
  exact Machine.always_iff_along (J := Connected p) (fun _ a hc => hc.next a)
    (fun _ a hc h => agrees_next_iff hc h a) ⟨rfl, rfl⟩ hagrees run

/-- **Claimers.** In every run in which no claimer is changed directly, once all messages that were
    sent have arrived, every account with an active delegation has the same claimer on Base and
    on mainnet. -/
theorem claimers_agree (p : BridgeParams) (run : List (BridgeAction p))
    (h : (claimerBridge p).Along ThroughProxy (.init p) run) :
    let s := (claimerBridge p).exec (.init p) run
    s.queue = [] → ∀ delegator, s.base.operatorOf delegator ≠ 0 →
      s.base.claimerByDelegator delegator = s.authorizedClaimers delegator := by
  intro s hqueue delegator _
  have hagrees : claimersAfter s.base.claimerByDelegator s.queue = s.authorizedClaimers :=
    (claimersAfter_always_iff p run).2 h run (List.prefix_refl run)
  rw [hqueue] at hagrees
  exact congrFun hagrees delegator

/-! ## Sample bridge -/

def sampleBridge : BridgeParams := ⟨Address, fun _ signer => some signer, 8, 9⟩

def sampleBridgeRun : List (BridgeAction sampleBridge) :=
  [.delegateBySig 5 0 0 (1 : Address) true 100, .authorizeBySig 1 7 0 0 (1 : Address) 0, .deliver 0,
    .deliver 0]

theorem claimers_agree_sample :
    let s := (claimerBridge sampleBridge).exec (.init sampleBridge) sampleBridgeRun
    s.queue = [] ∧ s.base.operatorOf 1 = 5 ∧ s.authorizedClaimers 1 = 7 ∧
      s.base.claimerByDelegator 1 = s.authorizedClaimers 1 := by
  intro s
  have hqueue : s.queue = [] := rfl
  have hoperator : s.base.operatorOf 1 = 5 := by decide
  have hproxy : (claimerBridge sampleBridge).Along ThroughProxy (.init sampleBridge)
      sampleBridgeRun := by
    -- no action of the run is a direct call
    refine ⟨?_, ?_, ?_, ?_, trivial⟩ <;>
      exact fun _ _ hdirect _ => nomatch hdirect
  exact ⟨hqueue, hoperator, by decide,
    claimers_agree sampleBridge sampleBridgeRun hproxy hqueue 1 (by rw [hoperator]; decide)⟩

/-- The account then removes its claimer: on Base it still has one. -/
theorem claimers_disagree_removed :
    let s := (claimerBridge sampleBridge).exec (.init sampleBridge)
      (sampleBridgeRun ++ [.removeAuthorizedClaimer 1])
    s.queue = [] ∧ s.base.operatorOf 1 = 5 ∧ s.authorizedClaimers 1 = 0 ∧
      s.base.claimerByDelegator 1 = 7 := by
  intro s
  exact ⟨rfl, by decide, by decide, by decide⟩

end River.Contracts
