/-
  Whether a user has a permission in a space (contracts/src/spaces/facets/Entitled.sol,
  spaces/entitlements/user/UserEntitlement.sol).
-/

import River.Contracts.EntitlementModules

namespace River.Contracts

inductive InstalledModule where
  | user (module : UserEntitlement)
  | crosschain

/-- What `_isEntitled` reads. A channel without an entry does not exist, and its roles revert. -/
structure EntitledSpace where
  owner : Address
  getWalletsByRootKey : Address → List Address
  bannedTokenIds : List Nat
  -- only tokens that exist are banned, and tokens are not burned
  ownerOf : Nat → Address
  entitlements : List InstalledModule
  getPermissionsByRoleId : Nat → List Bytes32
  getRolesByChannel : Bytes32 → Option (List Nat)

namespace EntitledSpace

def everyoneAddress : Address := 1

variable (s : EntitledSpace)

def getRoleIdsByUser (module : UserEntitlement) (wallets : List Address) : List Nat :=
  wallets.flatMap module.roleIdsByUser ++ module.roleIdsByUser everyoneAddress

/-- `isEntitled` of the module for users, or `none` if it reverts. -/
def isEntitledByModule (module : UserEntitlement) (channelId : Bytes32) (wallets : List Address)
    (permission : Bytes32) : Option Bool :=
  let roleIds := getRoleIdsByUser module wallets
  if channelId ≠ 0 then do
    let channelRoles ← s.getRolesByChannel channelId
    some (channelRoles.any fun roleId => roleIds.any fun userRole =>
      userRole = roleId ∧ permission ∈ s.getPermissionsByRoleId userRole)
  else some (roleIds.any fun roleId => permission ∈ s.getPermissionsByRoleId roleId)

def isEntitledByAny (channelId : Bytes32) (wallets : List Address) (permission : Bytes32) :
    List InstalledModule → Option Bool
  | [] => some false
  | .crosschain :: rest => isEntitledByAny channelId wallets permission rest
  | .user module :: rest => do
    let entitled ← s.isEntitledByModule module channelId wallets permission
    if entitled then some true else isEntitledByAny channelId wallets permission rest

/-- The wallet owns a banned token. -/
def Banned (wallet : Address) : Prop := ∃ tokenId ∈ s.bannedTokenIds, s.ownerOf tokenId = wallet

instance (wallet : Address) : Decidable (s.Banned wallet) :=
  inferInstanceAs (Decidable (∃ tokenId ∈ s.bannedTokenIds, s.ownerOf tokenId = wallet))

/-- The loop over the wallets: nothing is decided if none is the owner or banned. -/
def decidedByWallet : List Address → Option Bool
  | [] => none
  | wallet :: rest =>
    if wallet = s.owner then some true
    else if s.Banned wallet then some false
    else decidedByWallet rest

def areEntitled (channelId : Bytes32) (wallets : List Address) (permission : Bytes32) :
    Option Bool :=
  match s.decidedByWallet wallets with
  | some answer => some answer
  | none => s.isEntitledByAny channelId wallets permission s.entitlements

def isEntitled (channelId : Bytes32) (user : Address) (permission : Bytes32) : Option Bool :=
  s.areEntitled channelId (s.getWalletsByRootKey user ++ [user]) permission

/-! ## The order of the wallets -/

variable {s}

theorem decidedByWallet_owner (howner : s.owner ∈ wallets ++ [user])
    (h : ∀ wallet ∈ wallets, wallet ≠ s.owner → ¬s.Banned wallet) :
    s.decidedByWallet (wallets ++ [user]) = some true := by
  induction wallets with
  | nil => exact if_pos (List.mem_singleton.1 howner).symm
  | cons wallet wallets ih =>
    rw [List.forall_mem_cons] at h
    rw [List.cons_append, decidedByWallet]
    by_cases heq : wallet = s.owner
    · exact if_pos heq
    · rw [if_neg heq, if_neg (h.1 heq)]
      exact ih ((List.mem_cons.1 howner).resolve_left (Ne.symm heq)) h.2

theorem decidedByWallet_other (howner : s.owner ∉ wallets) :
    s.decidedByWallet wallets =
      if ∃ wallet ∈ wallets, s.Banned wallet then some false else none := by
  induction wallets with
  | nil => simp [decidedByWallet]
  | cons wallet wallets ih =>
    rw [List.mem_cons, not_or] at howner
    rw [decidedByWallet, if_neg (Ne.symm howner.1), ih howner.2]
    by_cases hbanned : s.Banned wallet
    · simp [hbanned]
    · simp [hbanned]

theorem isEntitledByModule_perm (h : wallets.Perm wallets') (module : UserEntitlement) :
    s.isEntitledByModule module channelId wallets permission =
      s.isEntitledByModule module channelId wallets' permission := by
  have hroles : (getRoleIdsByUser module wallets).Perm (getRoleIdsByUser module wallets') :=
    (h.flatMap_right _).append_right _
  simp only [isEntitledByModule, hroles.any_eq]

theorem isEntitledByAny_perm (h : wallets.Perm wallets') (modules : List InstalledModule) :
    s.isEntitledByAny channelId wallets permission modules =
      s.isEntitledByAny channelId wallets' permission modules := by
  induction modules with
  | nil => rfl
  | cons module modules ih =>
    cases module with
    | crosschain => exact ih
    | user module => rw [isEntitledByAny, isEntitledByAny, isEntitledByModule_perm h, ih]

theorem areEntitled_perm (howner : s.owner ∉ wallets) (h : wallets.Perm wallets') :
    s.areEntitled channelId wallets permission = s.areEntitled channelId wallets' permission := by
  unfold areEntitled
  rw [decidedByWallet_other howner, decidedByWallet_other (h.mem_iff.not.1 howner),
    isEntitledByAny_perm h]
  simp only [h.mem_iff]

end EntitledSpace

open EntitledSpace

/-- **Wallets.** Whether a user has a permission is the same for all orders of the linked wallets,
    and the owner has it with each wallet, if and only if no linked wallet of a user who is the
    owner by one of the wallets has a banned token, the owner's own apart. -/
theorem entitled_order_iff (s : EntitledSpace) (channelId : Bytes32) (user : Address)
    (permission : Bytes32) :
    ((∀ linked, linked.Perm (s.getWalletsByRootKey user) →
        s.areEntitled channelId (linked ++ [user]) permission =
          s.isEntitled channelId user permission) ∧
      (s.owner ∈ s.getWalletsByRootKey user ++ [user] →
        s.isEntitled channelId user permission = some true)) ↔
    (s.owner ∈ s.getWalletsByRootKey user ++ [user] →
      ∀ wallet ∈ s.getWalletsByRootKey user, wallet ≠ s.owner → ¬s.Banned wallet) := by
  constructor
  · rintro ⟨horder, htrue⟩ howner wallet hwallet hne hbanned
    -- another order has the banned wallet in front
    have hfirst := horder _ (List.perm_cons_erase hwallet).symm
    rw [htrue howner, areEntitled, List.cons_append, decidedByWallet, if_neg hne,
      if_pos hbanned] at hfirst
    cases hfirst
  · intro h
    by_cases howner : s.owner ∈ s.getWalletsByRootKey user ++ [user]
    · have htrue : ∀ linked, linked.Perm (s.getWalletsByRootKey user) →
          s.areEntitled channelId (linked ++ [user]) permission = some true := by
        intro linked hperm
        have hmem : s.owner ∈ linked ++ [user] := (hperm.append_right [user]).mem_iff.2 howner
        rw [areEntitled, decidedByWallet_owner hmem fun wallet hwallet =>
          h howner wallet (hperm.mem_iff.1 hwallet)]
      have hown := htrue _ (.refl _)
      exact ⟨fun linked hperm => (htrue linked hperm).trans hown.symm, fun _ => hown⟩
    · refine ⟨fun linked hperm => ?_, fun hmem => absurd hmem howner⟩
      have hall := hperm.append_right [user]
      exact areEntitled_perm (hall.mem_iff.not.2 howner) hall

/-- The wallets 6 and 7 are linked to user 5. Wallet 7 is the owner of the space and wallet 6 the
    owner of the banned token 1: with wallet 7 first the user has every permission, with wallet 6
    first none. -/
theorem entitled_order_banned :
    let s : EntitledSpace := ⟨7, fun _ => [6, 7], [1], fun _ => 6, [], fun _ => [], fun _ => none⟩
    s.isEntitled 0 5 9 = some false ∧ s.areEntitled 0 ([7, 6] ++ [5]) 9 = some true := by
  decide

end River.Contracts
