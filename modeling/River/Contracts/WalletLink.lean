/-
  Links between wallets (contracts/src/factory/facets/wallet-link/WalletLinkBase.sol, with
  diamond/utils/Nonces.sol).

  A nonce grows by one with each link, so it does not wrap, and nonces are numbers here.
-/

import River.Contracts.Space
import River.Lib.Machine
import River.Lib.ReverseIndex

namespace River.Contracts

open River.Lib Function

/-! ## Signatures -/

structure Ecdsa where
  Signature : Type
  messageHash : Address → Nat → Bytes32
  recover : Bytes32 → Signature → Option Address

structure LinkedWallet (e : Ecdsa) where
  addr : Address
  signature : e.Signature

inductive WalletLinkError where
  | invalidAddress | invalidSignature | cannotRemoveRootWallet | cannotLinkToSelf
  | linkAlreadyExists (wallet rootKey : Address)
  | linkedToAnotherRootKey (wallet rootKey : Address)
  | notLinked (wallet rootKey : Address)
  | cannotLinkToRootWallet (wallet rootKey : Address)
  | invalidAccountNonce (account : Address) (currentNonce : Nat)
  | ecdsaInvalidSignature

inductive WalletLinkEvent where
  | linkWalletToRootKey (wallet rootKey : Address)
  | removeLink (wallet secondWallet : Address)

variable {e : Ecdsa}

def LinkedWallet.checkSignature (signer : LinkedWallet e) (wallet : Address) (nonce : Nat) :
    Except WalletLinkError Unit :=
  match e.recover (e.messageHash wallet nonce) signer.signature with
  | none => .error .ecdsaInvalidSignature
  | some addr => if addr ≠ signer.addr then .error .invalidSignature else .ok ()

def LinkedWallet.Signed (signer : LinkedWallet e) (wallet : Address) (nonce : Nat) : Prop :=
  e.recover (e.messageHash wallet nonce) signer.signature = some signer.addr

variable {wallet : Address} {nonce : Nat}

open LinkedWallet

theorem LinkedWallet.checkSignature_ok {signer : LinkedWallet e} :
    signer.checkSignature wallet nonce = .ok () ↔ signer.Signed wallet nonce := by
  unfold checkSignature LinkedWallet.Signed
  cases h : e.recover (e.messageHash wallet nonce) signer.signature with
  | none => simp
  | some addr =>
    rw [ite_error_ok, not_not, Option.some.injEq]
    exact and_iff_left rfl

/-! ## Storage and functions -/

structure WalletLinks where
  walletsByRootKey : Address → EnumerableSet Address
  rootKeyByWallet : Address → Address
  nonces : Address → Nat

abbrev WalletLinkAnswer := Except WalletLinkError (WalletLinks × WalletLinkEvent)

namespace WalletLinks

def empty : WalletLinks := ⟨fun _ => .empty, fun _ => 0, fun _ => 0⟩

variable (ds : WalletLinks)

def verifyWallets (wallet rootWallet : Address) : Except WalletLinkError Unit :=
  if wallet = 0 ∨ rootWallet = 0 then .error .invalidAddress
  else if wallet = rootWallet then .error .cannotLinkToSelf
  else if ds.rootKeyByWallet wallet ≠ 0 then .error (.linkAlreadyExists wallet rootWallet)
  else if ds.rootKeyByWallet rootWallet ≠ 0 then
    .error (.linkedToAnotherRootKey wallet (ds.rootKeyByWallet rootWallet))
  else if (ds.walletsByRootKey wallet).values.length > 0 then
    .error (.cannotLinkToRootWallet wallet rootWallet)
  else .ok ()

def useNonce (owner : Address) : WalletLinks :=
  { ds with nonces := update ds.nonces owner (ds.nonces owner + 1) }

def useCheckedNonce (owner : Address) (nonce : Nat) : Except WalletLinkError WalletLinks :=
  if nonce ≠ ds.nonces owner then .error (.invalidAccountNonce owner (ds.nonces owner))
  else .ok (ds.useNonce owner)

def link (wallet rootWallet : Address) : WalletLinks :=
  let wallets := (ds.walletsByRootKey rootWallet).add wallet
  { ds with
    walletsByRootKey := update ds.walletsByRootKey rootWallet wallets
    rootKeyByWallet := update ds.rootKeyByWallet wallet rootWallet }

def unlink (walletToRemove rootWallet : Address) : WalletLinks :=
  let wallets := (ds.walletsByRootKey rootWallet).remove walletToRemove
  { ds with
    rootKeyByWallet := update ds.rootKeyByWallet walletToRemove 0
    walletsByRootKey := update ds.walletsByRootKey rootWallet wallets }

def linkCallerToRootWallet (msgSender : Address) (rootWallet : LinkedWallet e) (nonce : Nat) :
    WalletLinkAnswer := do
  ds.verifyWallets msgSender rootWallet.addr
  rootWallet.checkSignature msgSender nonce
  let ds ← ds.useCheckedNonce rootWallet.addr nonce
  .ok (ds.link msgSender rootWallet.addr, .linkWalletToRootKey msgSender rootWallet.addr)

def linkWalletToRootWallet (wallet rootWallet : LinkedWallet e) (nonce : Nat) :
    WalletLinkAnswer := do
  ds.verifyWallets wallet.addr rootWallet.addr
  rootWallet.checkSignature wallet.addr nonce
  wallet.checkSignature rootWallet.addr nonce
  let ds ← ds.useCheckedNonce rootWallet.addr nonce
  .ok (ds.link wallet.addr rootWallet.addr, .linkWalletToRootKey wallet.addr rootWallet.addr)

def removeLink (msgSender walletToRemove : Address) (rootWallet : LinkedWallet e) (nonce : Nat) :
    WalletLinkAnswer :=
  if walletToRemove = 0 ∨ rootWallet.addr = 0 then .error .invalidAddress
  else if walletToRemove = rootWallet.addr then .error .cannotRemoveRootWallet
  else if ds.rootKeyByWallet walletToRemove ≠ rootWallet.addr then
    .error (.notLinked walletToRemove rootWallet.addr)
  else do
    -- the nonce is a part of the message and is compared with nothing
    rootWallet.checkSignature walletToRemove nonce
    .ok (ds.unlink walletToRemove rootWallet.addr, .removeLink walletToRemove msgSender)

end WalletLinks

inductive WalletLinkCall (e : Ecdsa) where
  | linkCallerToRootKey (rootWallet : LinkedWallet e) (nonce : Nat)
  | linkWalletToRootKey (wallet rootWallet : LinkedWallet e) (nonce : Nat)
  | removeLink (wallet : Address) (rootWallet : LinkedWallet e) (nonce : Nat)

structure WalletLinkMessage (e : Ecdsa) where
  msgSender : Address
  call : WalletLinkCall e

def WalletLinks.answer (ds : WalletLinks) (msg : WalletLinkMessage e) : WalletLinkAnswer :=
  match msg.call with
  | .linkCallerToRootKey rootWallet nonce =>
    ds.linkCallerToRootWallet msg.msgSender rootWallet nonce
  | .linkWalletToRootKey wallet rootWallet nonce =>
    ds.linkWalletToRootWallet wallet rootWallet nonce
  | .removeLink wallet rootWallet nonce => ds.removeLink msg.msgSender wallet rootWallet nonce

/-- The wallet links. -/
def walletLink (e : Ecdsa) :
    Machine WalletLinks (WalletLinkMessage e) (Except WalletLinkError WalletLinkEvent) where
  step ds msg :=
    match ds.answer msg with
    | .ok (ds', event) => (ds', .ok event)
    | .error err => (ds, .error err)

/-! ## What an accepted message changes -/

namespace WalletLinks

structure Linkable (ds : WalletLinks) (wallet rootWallet : Address) : Prop where
  wallet_ne_zero : wallet ≠ 0
  root_ne_zero : rootWallet ≠ 0
  ne : wallet ≠ rootWallet
  unlinked : ds.rootKeyByWallet wallet = 0
  root_unlinked : ds.rootKeyByWallet rootWallet = 0
  not_root : ∀ w, w ∉ ds.walletsByRootKey wallet

inductive Accepted (ds : WalletLinks) : WalletLinkMessage e → WalletLinks → Prop where
  | linkCallerToRootKey {msgSender : Address} {rootWallet : LinkedWallet e}
      (linkable : ds.Linkable msgSender rootWallet.addr)
      (signed : rootWallet.Signed msgSender (ds.nonces rootWallet.addr)) :
      Accepted ds ⟨msgSender, .linkCallerToRootKey rootWallet (ds.nonces rootWallet.addr)⟩
        ((ds.useNonce rootWallet.addr).link msgSender rootWallet.addr)
  | linkWalletToRootKey {msgSender : Address} {wallet rootWallet : LinkedWallet e}
      (linkable : ds.Linkable wallet.addr rootWallet.addr)
      (signed : rootWallet.Signed wallet.addr (ds.nonces rootWallet.addr))
      (consent : wallet.Signed rootWallet.addr (ds.nonces rootWallet.addr)) :
      Accepted ds ⟨msgSender, .linkWalletToRootKey wallet rootWallet (ds.nonces rootWallet.addr)⟩
        ((ds.useNonce rootWallet.addr).link wallet.addr rootWallet.addr)
  | removeLink {msgSender wallet : Address} {rootWallet : LinkedWallet e} {nonce : Nat}
      (linked : ds.rootKeyByWallet wallet = rootWallet.addr)
      (signed : rootWallet.Signed wallet nonce) :
      Accepted ds ⟨msgSender, .removeLink wallet rootWallet nonce⟩
        (ds.unlink wallet rootWallet.addr)

section Calls

variable {ds ds' : WalletLinks} {event : WalletLinkEvent}

theorem verifyWallets_ok (h : ds.verifyWallets wallet rootWallet = .ok ()) :
    ds.Linkable wallet rootWallet := by
  obtain ⟨hzero, h⟩ := ite_error_ok.1 h
  obtain ⟨hne, h⟩ := ite_error_ok.1 h
  obtain ⟨hwallet, h⟩ := ite_error_ok.1 h
  obtain ⟨hroot, h⟩ := ite_error_ok.1 h
  obtain ⟨hlength, -⟩ := ite_error_ok.1 h
  refine ⟨fun hz => hzero (.inl hz), fun hz => hzero (.inr hz), hne, not_not.1 hwallet,
    not_not.1 hroot, fun w hw => ?_⟩
  exact hlength (List.length_pos_of_mem hw)

theorem useCheckedNonce_ok (h : ds.useCheckedNonce owner nonce = .ok ds') :
    nonce = ds.nonces owner ∧ ds' = ds.useNonce owner := by
  obtain ⟨hnonce, h⟩ := ite_error_ok.1 h
  cases h
  exact ⟨not_not.1 hnonce, rfl⟩

variable {rootWallet : LinkedWallet e} {msgSender : Address}

theorem linkCallerToRootWallet_ok
    (h : ds.linkCallerToRootWallet msgSender rootWallet nonce = .ok (ds', event)) :
    ds.Accepted ⟨msgSender, .linkCallerToRootKey rootWallet nonce⟩ ds' := by
  obtain ⟨hverify, h⟩ := guard_ok.1 h
  obtain ⟨hsigned, h⟩ := guard_ok.1 h
  obtain ⟨_, hnonce, h⟩ := bind_ok.1 h
  obtain ⟨rfl, rfl⟩ := useCheckedNonce_ok hnonce
  cases h
  exact .linkCallerToRootKey (verifyWallets_ok hverify) (checkSignature_ok.1 hsigned)

theorem linkWalletToRootWallet_ok {wallet : LinkedWallet e}
    (h : ds.linkWalletToRootWallet wallet rootWallet nonce = .ok (ds', event)) :
    ds.Accepted ⟨msgSender, .linkWalletToRootKey wallet rootWallet nonce⟩ ds' := by
  obtain ⟨hverify, h⟩ := guard_ok.1 h
  obtain ⟨hsigned, h⟩ := guard_ok.1 h
  obtain ⟨hconsent, h⟩ := guard_ok.1 h
  obtain ⟨_, hnonce, h⟩ := bind_ok.1 h
  obtain ⟨rfl, rfl⟩ := useCheckedNonce_ok hnonce
  cases h
  exact .linkWalletToRootKey (verifyWallets_ok hverify) (checkSignature_ok.1 hsigned)
    (checkSignature_ok.1 hconsent)

theorem removeLink_ok (h : ds.removeLink msgSender wallet rootWallet nonce = .ok (ds', event)) :
    ds.Accepted ⟨msgSender, .removeLink wallet rootWallet nonce⟩ ds' := by
  iterate 2 obtain ⟨-, h⟩ := ite_error_ok.1 h
  obtain ⟨hlinked, h⟩ := ite_error_ok.1 h
  obtain ⟨hsigned, h⟩ := guard_ok.1 h
  cases h
  exact .removeLink (not_not.1 hlinked) (checkSignature_ok.1 hsigned)

theorem answer_ok (h : ds.answer msg = .ok (ds', event)) : ds.Accepted msg ds' := by
  obtain ⟨_, call⟩ := msg
  cases call with
  | linkCallerToRootKey rootWallet nonce => exact linkCallerToRootWallet_ok h
  | linkWalletToRootKey wallet rootWallet nonce => exact linkWalletToRootWallet_ok h
  | removeLink wallet rootWallet nonce => exact removeLink_ok h

end Calls

def Accepts (ds : WalletLinks) (msg : WalletLinkMessage e) : Prop := (ds.answer msg).isOk = true

instance (ds : WalletLinks) (msg : WalletLinkMessage e) : Decidable (ds.Accepts msg) :=
  inferInstanceAs (Decidable (_ = true))

theorem next_cases (ds : WalletLinks) (msg : WalletLinkMessage e) :
    (¬ds.Accepts msg ∧ (walletLink e).next ds msg = ds) ∨
      (ds.Accepts msg ∧ ds.Accepted msg ((walletLink e).next ds msg)) := by
  unfold Accepts Machine.next walletLink
  simp only
  cases h : ds.answer msg with
  | error err => exact .inl ⟨by simp [Except.toBool], rfl⟩
  | ok res =>
    exact .inr ⟨rfl, answer_ok h⟩

/-! ## The forest -/

/-- The two indexes agree, and links are one level deep. -/
structure Forest (ds : WalletLinks) : Prop where
  mem_iff : ∀ wallet root, root ≠ 0 →
    (wallet ∈ ds.walletsByRootKey root ↔ ds.rootKeyByWallet wallet = root)
  not_self : ∀ wallet, ds.rootKeyByWallet wallet ≠ 0 → ds.rootKeyByWallet wallet ≠ wallet
  not_root : ∀ wallet, ds.rootKeyByWallet wallet ≠ 0 → ∀ w,
    w ∉ ds.walletsByRootKey wallet ∧ ds.rootKeyByWallet w ≠ wallet
  zero_unlinked : ds.rootKeyByWallet 0 = 0

section Forest

variable {ds : WalletLinks} {root : Address}

theorem Forest.link (h : ds.Forest) (hlink : ds.Linkable wallet root) :
    (ds.link wallet root).Forest where
  mem_iff := Lists.add h.mem_iff hlink.unlinked root
  not_self :=
    (forall_update_iff ds.rootKeyByWallet fun w rootKey => rootKey ≠ 0 → rootKey ≠ w).2
      ⟨fun _ => hlink.ne.symm, fun w _ => h.not_self w⟩
  not_root := by
    intro w hw x
    change update ds.rootKeyByWallet wallet root w ≠ 0 at hw
    show x ∉ update ds.walletsByRootKey root _ w ∧ update ds.rootKeyByWallet wallet root x ≠ w
    -- the root is not linked, so it is not the wallet in question
    have hroot : w ≠ root := by
      rintro rfl
      rw [update_of_ne hlink.ne.symm] at hw
      exact hw hlink.root_unlinked
    rw [update_of_ne hroot]
    have hbefore : x ∉ ds.walletsByRootKey w ∧ ds.rootKeyByWallet x ≠ w := by
      by_cases heq : w = wallet
      · subst heq
        exact ⟨hlink.not_root x, fun hx =>
          hlink.not_root x ((h.mem_iff x w hlink.wallet_ne_zero).2 hx)⟩
      · rw [update_of_ne heq] at hw
        exact h.not_root w hw x
    refine ⟨hbefore.1, ?_⟩
    by_cases hx : x = wallet
    · subst hx
      rw [update_self]
      exact hroot.symm
    · rw [update_of_ne hx]
      exact hbefore.2
  zero_unlinked := by
    show update ds.rootKeyByWallet wallet root 0 = 0
    rw [update_of_ne hlink.wallet_ne_zero.symm]
    exact h.zero_unlinked

theorem Forest.unlink (h : ds.Forest) (hlinked : ds.rootKeyByWallet wallet = root) :
    (ds.unlink wallet root).Forest where
  mem_iff := by
    subst hlinked
    exact Lists.remove h.mem_iff wallet
  not_self :=
    (forall_update_iff ds.rootKeyByWallet fun w rootKey => rootKey ≠ 0 → rootKey ≠ w).2
      ⟨fun hne => absurd rfl hne, fun w _ => h.not_self w⟩
  not_root := by
    intro w hw x
    change update ds.rootKeyByWallet wallet 0 w ≠ 0 at hw
    show x ∉ update ds.walletsByRootKey root _ w ∧ update ds.rootKeyByWallet wallet 0 x ≠ w
    have hne : w ≠ wallet := by
      rintro rfl
      rw [update_self] at hw
      exact hw rfl
    rw [update_of_ne hne] at hw
    obtain ⟨hset, hkey⟩ := h.not_root w hw x
    constructor
    · by_cases hroot : w = root
      · subst hroot
        rw [update_self, EnumerableSet.mem_remove]
        exact fun hmem => hset hmem.1
      · rw [update_of_ne hroot]
        exact hset
    · by_cases hx : x = wallet
      · subst hx
        rw [update_self]
        rintro rfl
        exact hw h.zero_unlinked
      · rw [update_of_ne hx]
        exact hkey
  zero_unlinked := by
    show update ds.rootKeyByWallet wallet 0 0 = 0
    by_cases heq : 0 = wallet
    · subst heq
      rw [update_self]
    · rw [update_of_ne heq]
      exact h.zero_unlinked

theorem Forest.useNonce (h : ds.Forest) (owner : Address) : (ds.useNonce owner).Forest :=
  ⟨h.mem_iff, h.not_self, h.not_root, h.zero_unlinked⟩

theorem Linkable.useNonce (h : ds.Linkable wallet root) (owner : Address) :
    (ds.useNonce owner).Linkable wallet root :=
  ⟨h.wallet_ne_zero, h.root_ne_zero, h.ne, h.unlinked, h.root_unlinked, h.not_root⟩

theorem Forest.next (h : ds.Forest) (msg : WalletLinkMessage e) :
    ((walletLink e).next ds msg).Forest := by
  rcases ds.next_cases msg with ⟨-, hnext⟩ | ⟨-, hstep⟩
  · rw [hnext]
    exact h
  generalize (walletLink e).next ds msg = ds' at hstep ⊢
  cases hstep with
  | linkCallerToRootKey linkable signed | linkWalletToRootKey linkable signed consent =>
    exact (h.useNonce _).link (linkable.useNonce _)
  | removeLink linked signed => exact h.unlink linked

end Forest

end WalletLinks

/-- **Wallet links.** After every run the two directions agree, and links have depth one. -/
theorem walletLinks_forest (e : Ecdsa) (run : List (WalletLinkMessage e)) :
    ((walletLink e).exec .empty run).Forest := by
  apply Machine.exec_invariant (fun ds msg (h : ds.Forest) => h.next msg)
  refine ⟨lists_empty 0, ?_, ?_, rfl⟩
  · exact fun wallet hlinked => absurd rfl hlinked
  · exact fun wallet hlinked => absurd rfl hlinked

end River.Contracts
