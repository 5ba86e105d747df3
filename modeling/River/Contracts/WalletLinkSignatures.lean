/-
  How often a signature is accepted by the wallet links.

  `removeLink` takes signatures over the same messages and consumes nothing.
-/

import Mathlib.Data.Nat.Pairing
import River.Contracts.WalletLink

namespace River.Contracts

open River.Lib Function List

/-- The signature is the one of `signer` on the message of a wallet and a nonce, and it is none of
    `signer` on another message. Recovery answers for other messages as well, with other
    addresses. -/
structure Ecdsa.Produced (e : Ecdsa) (signature : e.Signature) (signer wallet : Address)
    (nonce : Nat) : Prop where
  recovered : e.recover (e.messageHash wallet nonce) signature = some signer
  unforgeable : ∀ {wallet' nonce'},
    e.recover (e.messageHash wallet' nonce') signature = some signer →
      wallet' = wallet ∧ nonce' = nonce

variable {e : Ecdsa}

def WalletLinkCall.signatures : WalletLinkCall e → List e.Signature
  | .linkCallerToRootKey rootWallet _ => [rootWallet.signature]
  | .linkWalletToRootKey wallet rootWallet _ => [rootWallet.signature, wallet.signature]
  | .removeLink _ rootWallet _ => [rootWallet.signature]

def WalletLinkCall.IsRemoval : WalletLinkCall e → Prop
  | .removeLink _ _ _ => True
  | _ => False

namespace WalletLinks

def accepted (ds : WalletLinks) (msg : WalletLinkMessage e) : List (WalletLinkCall e) :=
  if ds.Accepts msg then [msg.call] else []

/-- If the message is accepted and has the signature, it makes a link, and the signature stands
    there for the root, which is the wallet that signed. -/
def OnlyLinks (signature : e.Signature) (signer : Address) (ds : WalletLinks)
    (msg : WalletLinkMessage e) : Prop :=
  ds.Accepts msg → signature ∈ msg.call.signatures →
    match msg.call with
    | .linkCallerToRootKey rootWallet _ => rootWallet.addr = signer
    | .linkWalletToRootKey wallet rootWallet _ =>
      rootWallet.addr = signer ∧ wallet.signature ≠ signature
    | .removeLink _ _ _ => False

/-- At most one of the calls has the signature, and none that removes a link if one makes it. -/
structure SingleUse (signature : e.Signature) (calls : List (WalletLinkCall e)) : Prop where
  once : calls.Pairwise fun call call' =>
    ¬(signature ∈ call.signatures ∧ signature ∈ call'.signatures)
  link_or_remove : ∀ call ∈ calls, ∀ call' ∈ calls, ¬call.IsRemoval → call'.IsRemoval →
    signature ∈ call.signatures → signature ∉ call'.signatures

/-! ## Nonces -/

section Nonces

variable {ds ds' : WalletLinks}

theorem Accepted.nonces_le (h : ds.Accepted msg ds') (owner : Address) :
    ds.nonces owner ≤ ds'.nonces owner := by
  have hused (root : Address) : ds.nonces owner ≤ (ds.useNonce root).nonces owner :=
    (forall_update_iff ds.nonces fun owner nonce => ds.nonces owner ≤ nonce).2
      ⟨Nat.le_succ _, fun _ _ => Nat.le_refl _⟩ owner
  cases h with
  | removeLink linked signed => exact Nat.le_refl _
  | _ => exact hused _

variable {signature : e.Signature} {signer wallet : Address} {nonce : Nat}

theorem Accepted.consumes (honest : e.Produced signature signer wallet nonce)
    (h : ds.Accepted msg ds') (haccepts : ds.Accepts msg)
    (honly : OnlyLinks signature signer ds msg) (hmem : signature ∈ msg.call.signatures) :
    ds.nonces signer = nonce ∧ nonce < ds'.nonces signer := by
  have honly := honly haccepts hmem
  -- the nonce that a link consumes is the one of the message
  have hlink : ∀ {newWallet : Address} {rootWallet : LinkedWallet e},
      rootWallet.Signed newWallet (ds.nonces rootWallet.addr) → rootWallet.addr = signer →
        rootWallet.signature = signature →
          ds.nonces signer = nonce ∧ nonce < (ds.useNonce rootWallet.addr).nonces signer := by
    rintro newWallet rootWallet hsigned rfl rfl
    have hnonce := (honest.unforgeable hsigned).2
    refine ⟨hnonce, ?_⟩
    show nonce < update ds.nonces rootWallet.addr _ rootWallet.addr
    rw [update_self]
    omega
  cases h with
  | linkCallerToRootKey linkable signed => exact hlink signed honly (mem_singleton.1 hmem).symm
  | linkWalletToRootKey linkable signed consent =>
    obtain ⟨hroot, hconsent⟩ := honly
    rcases mem_cons.1 hmem with heq | hmem
    · exact hlink signed hroot heq.symm
    · exact absurd (mem_singleton.1 hmem).symm hconsent
  | removeLink linked signed => exact honly.elim

structure Consumed (signature : e.Signature) (signer : Address) (nonce : Nat)
    (calls : List (WalletLinkCall e)) (ds : WalletLinks) : Prop where
  passed : ∀ call ∈ calls, signature ∈ call.signatures → nonce < ds.nonces signer
  once : calls.Pairwise fun call call' =>
    ¬(signature ∈ call.signatures ∧ signature ∈ call'.signatures)
  no_removal : ∀ call ∈ calls, call.IsRemoval → signature ∉ call.signatures

theorem Consumed.next (honest : e.Produced signature signer wallet nonce)
    (h : Consumed signature signer nonce calls ds) (msg : WalletLinkMessage e)
    (honly : OnlyLinks signature signer ds msg) :
    Consumed signature signer nonce (calls ++ ds.accepted msg) ((walletLink e).next ds msg) := by
  rcases ds.next_cases msg with ⟨hnot, hnext⟩ | ⟨haccepts, hstep⟩
  · rw [hnext, accepted, if_neg hnot, append_nil]
    exact h
  rw [accepted, if_pos haccepts]
  have hconsumes := hstep.consumes honest haccepts honly
  refine ⟨?_, ?_, ?_⟩
  · intro call hcall hmem
    rcases mem_append.1 hcall with hcall | hcall
    · have hpassed := h.passed call hcall hmem
      have hle := hstep.nonces_le signer
      omega
    · rw [mem_singleton.1 hcall] at hmem
      exact (hconsumes hmem).2
  · rw [pairwise_append]
    refine ⟨h.once, pairwise_singleton _ _, ?_⟩
    rintro call hcall _ hcall' ⟨hmem, hmem'⟩
    rw [mem_singleton.1 hcall'] at hmem'
    have hpassed := h.passed call hcall hmem
    have hcurrent := (hconsumes hmem').1
    omega
  · intro call hcall hremoval hmem
    rcases mem_append.1 hcall with hcall | hcall
    · exact h.no_removal call hcall hremoval hmem
    rw [mem_singleton.1 hcall] at hremoval hmem
    have honly := honly haccepts hmem
    obtain ⟨_, call⟩ := msg
    cases call with
    | removeLink wallet rootWallet nonce => exact honly
    | _ => exact hremoval

end Nonces

end WalletLinks

open WalletLinks

/-- **Single use.** In every run that uses the signature of a wallet neither to remove a link, nor
    as the consent of the wallet that is linked, nor for another root, at most one message with the
    signature is accepted. -/
theorem signature_accepted_once {signature : e.Signature} {signer wallet : Address} {nonce : Nat}
    (honest : e.Produced signature signer wallet nonce) (run : List (WalletLinkMessage e))
    (h : (walletLink e).Along (OnlyLinks signature signer) .empty run) :
    SingleUse signature ((walletLink e).collect accepted .empty run) := by
  have hconsumed : Consumed signature signer nonce
      ([] ++ (walletLink e).collect accepted .empty run) ((walletLink e).exec .empty run) := by
    refine Machine.collect_invariant (fun _ _ _ => trivial)
      (fun calls ds msg hcalls honly _ => hcalls.next honest msg honly) ?_ h trivial
    exact ⟨fun call hcall => (nomatch hcall), .nil, fun call hcall => (nomatch hcall)⟩
  exact ⟨hconsumed.once, fun _ _ call' hcall' _ hremoval _ =>
    hconsumed.no_removal call' hcall' hremoval⟩

/-! ## Signatures that recover to an address for every message -/

/-- A signature is its signer and the hash it is for; for another hash it recovers to another
    address. -/
def plainEcdsa : Ecdsa where
  Signature := Address × Bytes32
  messageHash wallet nonce := Nat.pair wallet nonce
  recover hash signature :=
    some (if hash = signature.2 then signature.1 else signature.1 + hash + 1)

def plainSignature (signer wallet nonce : Nat) : plainEcdsa.Signature :=
  (signer, Nat.pair wallet nonce)

theorem plainSignature_produced (signer wallet nonce : Nat) :
    plainEcdsa.Produced (plainSignature signer wallet nonce) signer wallet nonce where
  recovered := congrArg some (if_pos rfl)
  unforgeable := by
    intro wallet' nonce' h
    have h := Option.some.inj h
    split at h
    · rename_i hpair
      exact Nat.pair_eq_pair.1 hpair
    · change signer + Nat.pair wallet' nonce' + 1 = signer at h
      omega

/-- Root 1 signs for wallet 2, which links itself and is removed with another signature of the root;
    the first signature is refused then. -/
theorem signature_accepted_once_plain :
    let root : LinkedWallet plainEcdsa := ⟨1, plainSignature 1 2 0⟩
    SingleUse root.signature ((walletLink plainEcdsa).collect accepted .empty
      [⟨2, .linkCallerToRootKey root 0⟩, ⟨2, .removeLink 2 ⟨1, plainSignature 1 2 7⟩ 7⟩,
        ⟨2, .linkCallerToRootKey root 0⟩]) := by
  intro root
  refine signature_accepted_once (plainSignature_produced 1 2 0) _
    ⟨fun _ _ => rfl, fun _ hmem => ?_, fun _ _ => rfl, trivial⟩
  have hhash : Nat.pair 2 0 = Nat.pair 2 7 := congrArg Prod.snd (mem_singleton.1 hmem)
  exact absurd hhash (by decide)

/-- Root 1 signs once that wallet 2 may be linked. Wallet 2 links itself, and 3 removes the link
    with the same signature; or 3 links itself with it to the address that it recovers to for 3. -/
theorem not_singleUse_removed :
    let root : LinkedWallet plainEcdsa := ⟨1, plainSignature 1 2 0⟩
    let other : LinkedWallet plainEcdsa := ⟨1 + Nat.pair 3 0 + 1, root.signature⟩
    let removed := (walletLink plainEcdsa).collect accepted .empty
      [⟨2, .linkCallerToRootKey root 0⟩, ⟨3, .removeLink 2 root 0⟩]
    let linked := (walletLink plainEcdsa).collect accepted .empty
      [⟨2, .linkCallerToRootKey root 0⟩, ⟨3, .linkCallerToRootKey other 0⟩]
    plainEcdsa.Produced root.signature 1 2 0 ∧
      (removed = [.linkCallerToRootKey root 0, .removeLink 2 root 0] ∧
        ¬SingleUse root.signature removed) ∧
      linked = [.linkCallerToRootKey root 0, .linkCallerToRootKey other 0] ∧
        ¬SingleUse root.signature linked := by
  intro root other removed linked
  have hremoved : removed = [.linkCallerToRootKey root 0, .removeLink 2 root 0] := rfl
  have hlinked : linked = [.linkCallerToRootKey root 0, .linkCallerToRootKey other 0] := rfl
  refine ⟨plainSignature_produced 1 2 0, ⟨hremoved, fun h => ?_⟩, hlinked, fun h => ?_⟩
  · have honce := h.once
    rw [hremoved, pairwise_pair] at honce
    exact honce ⟨mem_singleton.2 rfl, mem_singleton.2 rfl⟩
  · have honce := h.once
    rw [hlinked, pairwise_pair] at honce
    exact honce ⟨mem_singleton.2 rfl, mem_singleton.2 rfl⟩

end River.Contracts
