/-
  The roles of a space and of its channels
  (contracts/src/spaces/facets/channels/ChannelService.sol, roles/RolesBase.sol).

  Calls are those of a caller who is allowed to make them. Whether the name, the permissions and
  the entitlement modules let a call about a role pass is part of the call.
-/

import River.Contracts.Space
import River.Lib.EnumerableSet
import River.Lib.Machine

namespace River.Contracts

open River.Lib Function EnumerableSet

inductive ChannelError where
  | channelAlreadyExists | channelDoesNotExist | channelDisabled
  | roleAlreadyExists | roleDoesNotExist
  /-- The name, a permission or an entitlement. -/
  | refused

structure ChannelRoles where
  -- `RolesStorage`
  roleCount : Nat
  roles : EnumerableSet Nat
  -- `ChannelStorage`
  channelIds : EnumerableSet Bytes32
  disabled : Bytes32 → Bool
  rolesByChannelId : Bytes32 → EnumerableSet Nat

inductive ChannelCall where
  | createChannel (channelId : Bytes32) (roleIds : List Nat)
  | updateChannel (channelId : Bytes32) (disabled : Bool)
  | removeChannel (channelId : Bytes32)
  | addRoleToChannel (channelId : Bytes32) (roleId : Nat)
  | removeRoleFromChannel (channelId : Bytes32) (roleId : Nat)
  | createRole (passes : Bool)
  | removeRole (roleId : Nat) (passes : Bool)

/-- The roles that a call puts into a channel. -/
def ChannelCall.attached : ChannelCall → List Nat
  | .createChannel _ roleIds => roleIds
  | .addRoleToChannel _ roleId => [roleId]
  | _ => []

namespace ChannelRoles

abbrev Result : Type := Except ChannelError ChannelRoles

def init : ChannelRoles := ⟨0, .empty, .empty, fun _ => false, fun _ => .empty⟩

variable (s : ChannelRoles) (channelId : Bytes32)

def checkChannelExists : Except ChannelError Unit :=
  if channelId ∉ s.channelIds then .error .channelDoesNotExist else .ok ()

def checkChannelNotDisabled : Except ChannelError Unit :=
  if s.disabled channelId then .error .channelDisabled else .ok ()

def addRole (roles : EnumerableSet Nat) (roleId : Nat) : Except ChannelError (EnumerableSet Nat) :=
  if roleId ∈ roles then .error .roleAlreadyExists else .ok (roles.add roleId)

def setRoles (roles : EnumerableSet Nat) : ChannelRoles :=
  { s with rolesByChannelId := update s.rolesByChannelId channelId roles }

def createChannel (roleIds : List Nat) : Result :=
  if channelId ∈ s.channelIds then .error .channelAlreadyExists
  else do
    let roles ← roleIds.foldlM addRole (s.rolesByChannelId channelId)
    .ok { s.setRoles channelId roles with
      channelIds := s.channelIds.add channelId
      disabled := update s.disabled channelId false }

def updateChannel (disabled : Bool) : Result := do
  s.checkChannelExists channelId
  .ok { s with disabled := update s.disabled channelId disabled }

def removeChannel : Result := do
  s.checkChannelExists channelId
  let roles := s.rolesByChannelId channelId
  .ok { s.setRoles channelId (roles.values.foldl remove roles) with
    channelIds := s.channelIds.remove channelId
    disabled := update s.disabled channelId false }

def addRoleToChannel (roleId : Nat) : Result := do
  s.checkChannelExists channelId
  s.checkChannelNotDisabled channelId
  let roles ← addRole (s.rolesByChannelId channelId) roleId
  .ok (s.setRoles channelId roles)

def removeRoleFromChannel (roleId : Nat) (channelId : Bytes32) : Result := do
  s.checkChannelExists channelId
  s.checkChannelNotDisabled channelId
  let roles := s.rolesByChannelId channelId
  if roleId ∉ roles then .error .roleDoesNotExist
  else .ok (s.setRoles channelId (roles.remove roleId))

def getChannelIdsByRole (roleId : Nat) : List Bytes32 :=
  s.channelIds.values.filter fun channelId => roleId ∈ s.rolesByChannelId channelId

def createRole (passes : Bool) : Result :=
  if passes = false then .error .refused
  else .ok { s with roleCount := s.roleCount + 1, roles := s.roles.add (s.roleCount + 1) }

def removeRole (roleId : Nat) (passes : Bool) : Result :=
  if roleId ∉ s.roles then .error .roleDoesNotExist
  else do
    let s := { s with roles := s.roles.remove roleId }
    let s ← (s.getChannelIdsByRole roleId).foldlM (removeRoleFromChannel · roleId) s
    if passes = false then .error .refused else .ok s

def answer : ChannelCall → Result
  | .createChannel channelId roleIds => s.createChannel channelId roleIds
  | .updateChannel channelId disabled => s.updateChannel channelId disabled
  | .removeChannel channelId => s.removeChannel channelId
  | .addRoleToChannel channelId roleId => s.addRoleToChannel channelId roleId
  | .removeRoleFromChannel channelId roleId => s.removeRoleFromChannel roleId channelId
  | .createRole passes => s.createRole passes
  | .removeRole roleId passes => s.removeRole roleId passes

end ChannelRoles

/-- Channels and roles of a space. -/
def channelRoles : Machine ChannelRoles ChannelCall (Option ChannelError) :=
  .ofCall ChannelRoles.answer

namespace ChannelRoles

variable {s s' : ChannelRoles} {channelId c : Bytes32} {roleId r : Nat} {attached : List Nat}
  {roles : EnumerableSet Nat} {call : ChannelCall}

structure Inv (s : ChannelRoles) : Prop where
  ids : ∀ r ∈ s.roles, r ≤ s.roleCount
  channels : ∀ c r, r ∈ s.rolesByChannelId c → c ∈ s.channelIds

/-- Channels name only roles that exist. -/
def Consistent (s : ChannelRoles) : Prop :=
  ∀ c ∈ s.channelIds, ∀ r ∈ s.rolesByChannelId c, r ∈ s.roles

/-! ## What a call can do -/

structure Effect (s : ChannelRoles) (attached : List Nat) (s' : ChannelRoles) : Prop where
  inv : s'.Inv
  kept : ∀ c r, r ∈ s'.rolesByChannelId c →
    (r ∈ s.rolesByChannelId c ∨ r ∈ attached) ∧ (r ∈ s.roles → r ∈ s'.roles)
  new : ∀ r ∈ attached, (∃ c, r ∈ s'.rolesByChannelId c) ∧ (r ∈ s'.roles → r ∈ s.roles)

theorem Effect.consistent_iff (h : s.Effect attached s') (hs : s.Inv) (hcon : s.Consistent) :
    s'.Consistent ↔ ∀ r ∈ attached, r ∈ s.roles := by
  constructor
  · intro hcon' r hr
    obtain ⟨⟨c, hc⟩, hback⟩ := h.new r hr
    exact hback (hcon' c (h.inv.channels c r hc) r hc)
  · intro hexist c _ r hr
    obtain ⟨hold | hnew, hkeep⟩ := h.kept c r hr
    · exact hkeep (hcon c (hs.channels c r hold) r hold)
    · exact hkeep (hexist r hnew)

theorem mem_setRoles : r ∈ (s.setRoles channelId roles).rolesByChannelId c ↔
    if c = channelId then r ∈ roles else r ∈ s.rolesByChannelId c := by
  unfold setRoles
  by_cases heq : c = channelId
  · subst heq
    rw [if_pos rfl]
    simp only [update_self]
  · rw [if_neg heq]
    simp only [update_of_ne heq]

/-- All calls about one channel: what its roles come to decides. -/
theorem Inv.setRoles (hs : s.Inv) {channelIds : EnumerableSet Bytes32} {disabled : Bytes32 → Bool}
    (hroles : ∀ r, r ∈ roles → channelId ∈ channelIds ∧
      (r ∈ s.rolesByChannelId channelId ∨ r ∈ attached))
    (hattached : ∀ r ∈ attached, r ∈ roles)
    (hids : ∀ c ∈ s.channelIds, c ≠ channelId → c ∈ channelIds) :
    s.Effect attached { s.setRoles channelId roles with
      channelIds := channelIds, disabled := disabled } := by
  refine ⟨⟨hs.ids, fun c r hr => ?_⟩, fun c r hr => ⟨?_, fun h => h⟩,
    fun r hr => ⟨⟨channelId, mem_setRoles.2 ?_⟩, fun h => h⟩⟩
  · replace hr := mem_setRoles.1 hr
    split at hr
    · rename_i heq
      exact heq ▸ (hroles r hr).1
    · rename_i hne
      exact hids c (hs.channels c r hr) hne
  · replace hr := mem_setRoles.1 hr
    split at hr
    · rename_i heq
      exact heq ▸ (hroles r hr).2
    · exact .inl hr
  · rw [if_pos rfl]
    exact hattached r hr

theorem foldlM_addRole {ids : List Nat}
    (h : ids.foldlM addRole roles = .ok roles') : r ∈ roles' ↔ r ∈ roles ∨ r ∈ ids := by
  induction ids generalizing roles with
  | nil =>
    cases h
    simp
  | cons id ids ih =>
    obtain ⟨_, hfirst, hrest⟩ := bind_ok.1 h
    obtain ⟨-, hfirst⟩ := ite_error_ok.1 hfirst
    cases hfirst
    rw [ih hrest, mem_add, List.mem_cons, or_assoc]

theorem checkChannelExists_ok (h : s.checkChannelExists channelId = .ok ()) :
    channelId ∈ s.channelIds :=
  not_not.1 (ite_error_ok.1 h).1

theorem removeRoleFromChannel_ok (h : s.removeRoleFromChannel roleId channelId = .ok s') :
    channelId ∈ s.channelIds ∧
      s' = s.setRoles channelId ((s.rolesByChannelId channelId).remove roleId) := by
  obtain ⟨hexists, h⟩ := guard_ok.1 h
  obtain ⟨-, h⟩ := guard_ok.1 h
  obtain ⟨-, h⟩ := ite_error_ok.1 h
  cases h
  exact ⟨checkChannelExists_ok hexists, rfl⟩

/-- The loop over the channels of a role takes it out of them, and out of nothing else. -/
theorem foldlM_removeRoleFromChannel {cs : List Bytes32}
    (h : cs.foldlM (removeRoleFromChannel · roleId) s = .ok s') :
    ∃ rolesByChannelId, s' = { s with rolesByChannelId := rolesByChannelId } ∧
      ∀ c r, r ∈ rolesByChannelId c → r ∈ s.rolesByChannelId c ∧ (c ∈ cs → r ≠ roleId) := by
  induction cs generalizing s with
  | nil =>
    cases h
    exact ⟨_, rfl, fun c r hr => ⟨hr, nofun⟩⟩
  | cons channelId cs ih =>
    obtain ⟨_, hfirst, hrest⟩ := bind_ok.1 h
    obtain ⟨-, rfl⟩ := removeRoleFromChannel_ok hfirst
    obtain ⟨rolesByChannelId, rfl, hkept⟩ := ih hrest
    refine ⟨rolesByChannelId, rfl, fun c r hr => ?_⟩
    obtain ⟨hmem, hne⟩ := hkept c r hr
    replace hmem := mem_setRoles.1 hmem
    rw [List.mem_cons]
    split at hmem
    · rename_i heq
      subst heq
      obtain ⟨hold, hgone⟩ := mem_remove.1 hmem
      exact ⟨hold, fun _ => hgone⟩
    · rename_i hother
      exact ⟨hmem, fun hc => hne (hc.resolve_left hother)⟩

theorem removeRole_effect (hs : s.Inv) (h : s.removeRole roleId passes = .ok s') :
    s.Effect [] s' := by
  obtain ⟨-, h⟩ := ite_error_ok.1 h
  obtain ⟨_, hloop, h⟩ := bind_ok.1 h
  obtain ⟨-, h⟩ := ite_error_ok.1 h
  cases h
  obtain ⟨_, rfl, hkept⟩ := foldlM_removeRoleFromChannel hloop
  refine ⟨⟨fun r hr => hs.ids r (mem_remove.1 hr).1, fun c r hr =>
    hs.channels c r (hkept c r hr).1⟩, fun c r hr => ?_, nofun⟩
  obtain ⟨hold, hne⟩ := hkept c r hr
  refine ⟨.inl hold, fun hr => mem_remove.2 ⟨hr, fun heq => ?_⟩⟩
  subst heq
  -- the role is in the channel, so the loop comes to it
  exact hne (List.mem_filter.2 ⟨hs.channels c r hold, decide_eq_true hold⟩) rfl

theorem Inv.answer (hs : s.Inv) (h : s.answer call = .ok s') : s.Effect call.attached s' := by
  cases call with
  | createChannel channelId roleIds =>
    obtain ⟨-, h⟩ := ite_error_ok.1 h
    obtain ⟨roles, hroles, h⟩ := bind_ok.1 h
    cases h
    exact hs.setRoles (fun r hr => ⟨mem_add.2 (.inr rfl), (foldlM_addRole hroles).1 hr⟩)
      (fun r hr => (foldlM_addRole hroles).2 (.inr hr))
      fun c hc _ => mem_add.2 (.inl hc)
  | addRoleToChannel channelId roleId =>
    obtain ⟨hexists, h⟩ := guard_ok.1 h
    obtain ⟨-, h⟩ := guard_ok.1 h
    obtain ⟨roles, hadd, h⟩ := bind_ok.1 h
    cases h
    obtain ⟨-, hadd⟩ := ite_error_ok.1 hadd
    cases hadd
    refine hs.setRoles (fun r hr => ⟨checkChannelExists_ok hexists, ?_⟩) (fun r hr => ?_)
      fun c hc _ => hc
    · rw [ChannelCall.attached, List.mem_singleton]
      exact mem_add.1 hr
    · exact mem_add.2 (.inr (List.mem_singleton.1 hr))
  | removeRoleFromChannel channelId roleId =>
    obtain ⟨hchannel, rfl⟩ := removeRoleFromChannel_ok h
    exact hs.setRoles (fun r hr => ⟨hchannel, .inl (mem_remove.1 hr).1⟩) nofun
      fun c hc _ => hc
  | removeChannel channelId =>
    obtain ⟨-, h⟩ := guard_ok.1 h
    cases h
    refine hs.setRoles (fun r hr => ?_) nofun fun c hc hne => mem_remove.2 ⟨hc, hne⟩
    have hboth := mem_foldl_remove.1 hr
    exact absurd hboth.1 hboth.2
  | updateChannel channelId disabled =>
    obtain ⟨-, h⟩ := guard_ok.1 h
    cases h
    exact ⟨⟨hs.ids, hs.channels⟩, fun c r hr => ⟨.inl hr, fun h => h⟩, nofun⟩
  | createRole passes =>
    obtain ⟨-, h⟩ := ite_error_ok.1 h
    cases h
    refine ⟨⟨fun r hr => ?_, hs.channels⟩,
      fun c r hr => ⟨.inl hr, fun h => mem_add.2 (.inl h)⟩, nofun⟩
    rcases mem_add.1 hr with hr | rfl
    · exact Nat.le_succ_of_le (hs.ids r hr)
    · exact Nat.le_refl _
  | removeRole roleId passes => exact removeRole_effect hs h

/-! ## Runs -/

/-- A call that succeeds puts only roles into channels that exist. -/
def NamesRoles (s : ChannelRoles) (call : ChannelCall) : Prop :=
  channelRoles.out s call = none → ∀ r ∈ call.attached, r ∈ s.roles

theorem next_cases (s : ChannelRoles) (call : ChannelCall) :
    (channelRoles.out s call = none ∧ s.answer call = .ok (channelRoles.next s call)) ∨
      (channelRoles.out s call ≠ none ∧ channelRoles.next s call = s) := by
  cases h : s.answer call with
  | ok s' =>
    exact .inl ⟨Machine.out_ofCall_ok h, congrArg _ (Machine.next_ofCall_ok h).symm⟩
  | error e =>
    have hout : channelRoles.out s call = some e := Machine.out_ofCall_error h
    exact .inr ⟨by simp [hout], Machine.next_ofCall_error h⟩

theorem Inv.next (hs : s.Inv) (call : ChannelCall) : (channelRoles.next s call).Inv := by
  rcases s.next_cases call with ⟨-, hok⟩ | ⟨-, hsame⟩
  · exact (hs.answer hok).inv
  · rw [hsame]
    exact hs

theorem Inv.next_consistent_iff (hs : s.Inv) (hcon : s.Consistent) (call : ChannelCall) :
    (channelRoles.next s call).Consistent ↔ s.NamesRoles call := by
  rcases s.next_cases call with ⟨hout, hok⟩ | ⟨hout, hsame⟩
  · rw [(hs.answer hok).consistent_iff hs hcon]
    exact ⟨fun h _ => h, fun h => h hout⟩
  · rw [hsame]
    exact ⟨fun _ h => absurd h hout, fun _ => hcon⟩

theorem inv_init : init.Inv := ⟨nofun, fun _ _ => nofun⟩

end ChannelRoles

open ChannelRoles

/-- **Channels and roles.** In a run channels name only roles that exist exactly if every call that
    puts roles into a channel does, and then the next role to be created is in no channel. -/
theorem channels_consistent_iff (run : List ChannelCall) :
    ((∀ front, front <+: run → (channelRoles.exec .init front).Consistent) ↔
      channelRoles.Along NamesRoles .init run) ∧
    ((channelRoles.exec .init run).Consistent → ∀ c ∈ (channelRoles.exec .init run).channelIds,
      (channelRoles.exec .init run).roleCount + 1 ∉
        (channelRoles.exec .init run).rolesByChannelId c) := by
  refine ⟨Machine.always_iff_along (fun _ call hs => hs.next call)
    (fun _ call hs hcon => hs.next_consistent_iff hcon call) inv_init (fun _ => nofun) run,
    fun hcon c hc hmem => ?_⟩
  have hinv : (channelRoles.exec .init run).Inv :=
    Machine.exec_invariant (fun _ call hs => hs.next call) inv_init run
  exact absurd (hinv.ids _ (hcon c hc _ hmem)) (Nat.not_succ_le_self _)

/-- Channel 5 gets role 1 before it is created, so the role starts out in the channel. -/
theorem channel_names_missing_role :
    let s := channelRoles.exec .init [.createChannel 5 [1]]
    let s' := channelRoles.next s (.createRole true)
    (5 ∈ s.channelIds ∧ 1 ∈ s.rolesByChannelId 5 ∧ 1 ∉ s.roles) ∧
      1 ∈ s'.roles ∧ 1 ∈ s'.rolesByChannelId 5 := by
  decide

end River.Contracts
