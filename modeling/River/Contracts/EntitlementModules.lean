/-
  The two modules in which a space keeps who is entitled to a role
  (contracts/src/spaces/entitlements/rule/RuleEntitlement.sol and user/UserEntitlement.sol).
-/

import River.Contracts.RuleEntitlement
import River.Contracts.Space
import River.Lib.EnumerableSet
import River.Lib.Machine

namespace River.Contracts

open River.Lib Function List

inductive EntitlementError where
  | notAllowed | invalidValue | abiDecode | alreadyInitialized
  | rule (e : RuleError)
  | roleIdNotFound

inductive ModuleCall (α : Type) where
  | initializeModule (space : Address)
  | setEntitlement (roleId : Nat) (entitlementData : Option α)
  | removeEntitlement (roleId : Nat)

/-! ## RuleEntitlement -/

structure RuleGrant where
  grantedBy : Address
  grantedTime : Nat
  data : RuleData

def RuleGrant.deleted : RuleGrant := ⟨0, 0, ⟨[], [], []⟩⟩

structure RuleEntitlement where
  entitlementsByRoleId : Nat → RuleGrant
  spaceAddress : Address
  initialized : Bool

namespace RuleEntitlement

def init : RuleEntitlement := ⟨fun _ => .deleted, 0, false⟩

variable (s : RuleEntitlement)

def initializeModule (space : Address) : Except EntitlementError RuleEntitlement :=
  if s.initialized then .error .alreadyInitialized
  else .ok { s with spaceAddress := space, initialized := true }

def onlySpace (msgSender : Address) : Except EntitlementError Unit :=
  if msgSender ≠ s.spaceAddress then .error .notAllowed else .ok ()

def setEntitlement (msgSender : Address) (timestamp roleId : Nat)
    (entitlementData : Option RuleData) : Except EntitlementError RuleEntitlement := do
  s.onlySpace msgSender
  match entitlementData with
  | none => .error .abiDecode
  | some data =>
    match data.setEntitlement true (s.entitlementsByRoleId roleId).data with
    | .error e => .error (.rule e)
    | .ok stored =>
      if data.operations.length = 0 then .ok s
      else .ok { s with
        entitlementsByRoleId :=
          update s.entitlementsByRoleId roleId ⟨msgSender, timestamp, stored⟩ }

def removeEntitlement (roleId : Nat) : Except EntitlementError RuleEntitlement :=
  if (s.entitlementsByRoleId roleId).grantedBy = 0 then .error .invalidValue
  else .ok { s with
    entitlementsByRoleId := update s.entitlementsByRoleId roleId .deleted }

def answer (msgSender : Address) (timestamp : Nat) :
    ModuleCall RuleData → Except EntitlementError RuleEntitlement
  | .initializeModule space => s.initializeModule space
  | .setEntitlement roleId entitlementData =>
    s.setEntitlement msgSender timestamp roleId entitlementData
  | .removeEntitlement roleId => s.removeEntitlement roleId

end RuleEntitlement

/-! ## UserEntitlement -/

structure UserGrant where
  grantedBy : Address
  grantedTime : Nat
  users : List Address

def UserGrant.deleted : UserGrant := ⟨0, 0, []⟩

structure UserEntitlement where
  entitlementsByRoleId : Nat → UserGrant
  roleIdsByUser : Address → List Nat
  spaceAddress : Address
  initialized : Bool

namespace UserEntitlement

def init : UserEntitlement := ⟨fun _ => .deleted, fun _ => [], 0, false⟩

variable (s : UserEntitlement)

def initializeModule (space : Address) : Except EntitlementError UserEntitlement :=
  if s.initialized then .error .alreadyInitialized
  else .ok { s with spaceAddress := space, initialized := true }

variable (msgSender : Address)

def onlySpace : Except EntitlementError Unit :=
  if msgSender ≠ s.spaceAddress then .error .notAllowed else .ok ()

def removeRoleIdFromUser (roleId : Nat) (roleIdsByUser : Address → List Nat) (user : Address) :
    Except EntitlementError (Address → List Nat) :=
  let roles := roleIdsByUser user
  if roleId ∉ roles then .error .roleIdNotFound
  else .ok (update roleIdsByUser user (swapRemoveAt roles (roles.idxOf roleId)))

def removePrior (roleId : Nat) : Except EntitlementError UserEntitlement := do
  let roleIdsByUser ← (s.entitlementsByRoleId roleId).users.reverse.foldlM
    (removeRoleIdFromUser roleId) s.roleIdsByUser
  .ok { s with
    entitlementsByRoleId := update s.entitlementsByRoleId roleId .deleted
    roleIdsByUser := roleIdsByUser }

def pushRoleId (roleId : Nat) (roleIdsByUser : Address → List Nat) (user : Address) :
    Address → List Nat :=
  update roleIdsByUser user (roleIdsByUser user ++ [roleId])

def setEntitlement (timestamp roleId : Nat) (entitlementData : Option (List Address)) :
    Except EntitlementError UserEntitlement := do
  s.onlySpace msgSender
  match entitlementData with
  | none => .error .abiDecode
  | some users =>
    if 0 ∈ users then .error .invalidValue
    else do
      let s ← s.removePrior roleId
      .ok { s with
        entitlementsByRoleId :=
          update s.entitlementsByRoleId roleId ⟨msgSender, timestamp, users⟩
        roleIdsByUser := users.foldl (pushRoleId roleId) s.roleIdsByUser }

def removeEntitlement (roleId : Nat) : Except EntitlementError UserEntitlement := do
  s.onlySpace msgSender
  if (s.entitlementsByRoleId roleId).grantedBy = 0 then .error .invalidValue
  else s.removePrior roleId

def answer (timestamp : Nat) : ModuleCall (List Address) → Except EntitlementError UserEntitlement
  | .initializeModule space => s.initializeModule space
  | .setEntitlement roleId entitlementData =>
    s.setEntitlement msgSender timestamp roleId entitlementData
  | .removeEntitlement roleId => s.removeEntitlement msgSender roleId

end UserEntitlement

/-! ## Both modules -/

structure EntitlementModules where
  rule : RuleEntitlement
  user : UserEntitlement

inductive EntitlementCall where
  | rule (call : ModuleCall RuleData)
  | user (call : ModuleCall (List Address))

structure EntitlementMessage where
  msgSender : Address
  timestamp : Nat
  call : EntitlementCall

namespace EntitlementModules

def init : EntitlementModules := ⟨.init, .init⟩

def spaceAddress (s : EntitlementModules) : EntitlementCall → Address
  | .rule _ => s.rule.spaceAddress
  | .user _ => s.user.spaceAddress

def answer (s : EntitlementModules) (m : EntitlementMessage) :
    Except EntitlementError EntitlementModules :=
  match m.call with
  | .rule call => do
    let rule ← s.rule.answer m.msgSender m.timestamp call
    .ok { s with rule := rule }
  | .user call => do
    let user ← s.user.answer m.msgSender m.timestamp call
    .ok { s with user := user }

end EntitlementModules

/-- The entitlement modules of a space. -/
def entitlementModules : Machine EntitlementModules EntitlementMessage (Option EntitlementError) :=
  .ofCall EntitlementModules.answer

namespace EntitlementModules

structure SameGrants (s s' : EntitlementModules) : Prop where
  rules : s'.rule.entitlementsByRoleId = s.rule.entitlementsByRoleId
  users : s'.user.entitlementsByRoleId = s.user.entitlementsByRoleId
  roleIds : s'.user.roleIdsByUser = s.user.roleIdsByUser

theorem SameGrants.refl (s : EntitlementModules) : s.SameGrants s := ⟨rfl, rfl, rfl⟩

/-- Grants change by calls of the space only. -/
def ChangedBySpace (s : EntitlementModules) (m : EntitlementMessage) : Prop :=
  ¬s.SameGrants (entitlementModules.next s m) → m.msgSender = s.spaceAddress m.call

/-- Only the space removes a granted rule. -/
def BySpace (s : EntitlementModules) (m : EntitlementMessage) : Prop :=
  ∀ roleId, m.call = .rule (.removeEntitlement roleId) →
    (s.rule.entitlementsByRoleId roleId).grantedBy ≠ 0 → m.msgSender = s.rule.spaceAddress

variable {s s' : EntitlementModules} {m : EntitlementMessage}

theorem next_ok (h : s.answer m = .ok s') : entitlementModules.next s m = s' :=
  Machine.next_ofCall_ok h

theorem next_error (h : s.answer m = .error e) :
    entitlementModules.next s m = s := Machine.next_ofCall_error h

/-! ## Calls of others -/

inductive OtherStep (s : EntitlementModules) (m : EntitlementMessage) :
    EntitlementModules → Prop where
  | reverted : OtherStep s m s
  | initialized {s' : EntitlementModules} (same : s.SameGrants s')
      (fresh : s.rule.initialized = false ∨ s.user.initialized = false) : OtherStep s m s'
  | removed {roleId : Nat} (call : m.call = .rule (.removeEntitlement roleId))
      (granted : (s.rule.entitlementsByRoleId roleId).grantedBy ≠ 0) :
      OtherStep s m { s with rule := { s.rule with
        entitlementsByRoleId := update s.rule.entitlementsByRoleId roleId .deleted } }

theorem otherStep_next (hother : m.msgSender ≠ s.spaceAddress m.call) :
    OtherStep s m (entitlementModules.next s m) := by
  cases h : s.answer m with
  | error e =>
    rw [next_error h]
    exact .reverted
  | ok s' =>
    rw [next_ok h]
    obtain ⟨_, _, call⟩ := m
    cases call with
    | rule call =>
      obtain ⟨rule, hrule, h⟩ := bind_ok.1 h
      cases h
      cases call with
      | initializeModule space =>
        obtain ⟨hfresh, hrule⟩ := ite_error_ok.1 hrule
        cases hrule
        exact .initialized ⟨rfl, rfl, rfl⟩ (.inl (Bool.not_eq_true _ ▸ hfresh))
      | setEntitlement roleId entitlementData =>
        obtain ⟨honly, -⟩ := guard_ok.1 hrule
        exact absurd (not_not.1 (ite_error_ok.1 honly).1) hother
      | removeEntitlement roleId =>
        obtain ⟨hgranted, hrule⟩ := ite_error_ok.1 hrule
        cases hrule
        exact .removed rfl hgranted
    | user call =>
      obtain ⟨user, huser, h⟩ := bind_ok.1 h
      cases h
      cases call with
      | initializeModule space =>
        obtain ⟨hfresh, huser⟩ := ite_error_ok.1 huser
        cases huser
        exact .initialized ⟨rfl, rfl, rfl⟩ (.inr (Bool.not_eq_true _ ▸ hfresh))
      | _ =>
        obtain ⟨honly, -⟩ := guard_ok.1 huser
        exact absurd (not_not.1 (ite_error_ok.1 honly).1) hother

theorem changedBySpace_iff (s : EntitlementModules) (m : EntitlementMessage) :
    s.ChangedBySpace m ↔ s.BySpace m := by
  constructor
  · intro hchanged roleId hcall hgranted
    have hnext : entitlementModules.next s m = { s with rule := { s.rule with
        entitlementsByRoleId :=
          update s.rule.entitlementsByRoleId roleId .deleted } } := by
      refine next_ok ?_
      unfold answer
      rw [hcall]
      simp only [RuleEntitlement.answer, RuleEntitlement.removeEntitlement, if_neg hgranted]
      rfl
    have hspace := hchanged fun hsame => hgranted ?_
    · rw [hcall] at hspace
      exact hspace
    -- who granted the entitlement is deleted too
    have hrules := congrFun hsame.rules roleId
    rw [hnext] at hrules
    simp only [update_self] at hrules
    rw [← hrules]
    rfl
  · intro hspace hchanged
    by_contra hother
    have hstep := otherStep_next hother
    generalize entitlementModules.next s m = s' at hstep hchanged
    cases hstep with
    | reverted => exact hchanged (.refl s)
    | initialized same fresh => exact hchanged same
    | removed call granted =>
      rw [call] at hother
      exact hother (hspace _ call granted)

end EntitlementModules

open EntitlementModules

/-- **Authority.** In a run from any state every change of the rule data, the users or the role
    index is made by a call of the space exactly if no one else removes a rule that is there. -/
theorem changed_by_space_iff (s : EntitlementModules) (run : List EntitlementMessage) :
    entitlementModules.Along ChangedBySpace s run ↔ entitlementModules.Along BySpace s run := by
  constructor
  · exact .mono fun s m => (changedBySpace_iff s m).1
  · exact .mono fun s m => (changedBySpace_iff s m).2

/-- The space 9 sets a rule for role 3; then 5 removes it. -/
theorem not_changed_by_space_stranger :
    let check : RuleData := ⟨[⟨.check, 0⟩], [⟨.mock, 1, 0, 0⟩], []⟩
    let s := entitlementModules.exec .init [⟨9, 0, .rule (.initializeModule 9)⟩,
      ⟨9, 10, .rule (.setEntitlement 3 (some check))⟩]
    let m : EntitlementMessage := ⟨5, 20, .rule (.removeEntitlement 3)⟩
    (s.rule.entitlementsByRoleId 3).data = check ∧
      ((entitlementModules.next s m).rule.entitlementsByRoleId 3).data = ⟨[], [], []⟩ ∧
      ¬s.ChangedBySpace m := by
  intro check s m
  refine ⟨by decide, by decide, fun hchanged => ?_⟩
  have hspace := (changedBySpace_iff s m).1 hchanged 3 rfl
  exact absurd (hspace (by decide)) (by decide)

/-! ## The role index -/

namespace UserEntitlement

variable {u u' : UserEntitlement} {roleId : Nat} {users : List Address}
  {index index' : Address → List Nat}

def Indexed (u : UserEntitlement) : Prop :=
  ∀ user roleId,
    (u.roleIdsByUser user).count roleId = (u.entitlementsByRoleId roleId).users.count user

theorem removeRoleIdFromUser_ok {user : Address} (h : roleId ∈ index user) :
    ∃ index', removeRoleIdFromUser roleId index user = .ok index' ∧ ∀ user' roleId',
      (index' user').count roleId' + (if user' = user ∧ roleId' = roleId then 1 else 0) =
        (index user').count roleId' := by
  refine ⟨_, if_neg (not_not.2 h), fun user' roleId' => ?_⟩
  by_cases huser : user' = user
  · subst huser
    have hperm := swapRemoveAt_perm (idxOf_lt_length_of_mem h)
    rw [update_self, hperm.count_eq, ← erase_eq_eraseIdx_of_idxOf rfl]
    by_cases hrole : roleId' = roleId
    · subst hrole
      have hpos := count_pos_iff.2 h
      rw [count_erase_self, if_pos ⟨rfl, rfl⟩]
      omega
    · rw [count_erase_of_ne hrole, if_neg fun hboth => hrole hboth.2]
      rfl
  · rw [update_of_ne huser, if_neg fun hboth => huser hboth.1]
    rfl

theorem foldlM_removeRoleIdFromUser (h : ∀ user, users.count user ≤ (index user).count roleId) :
    ∃ index', users.foldlM (removeRoleIdFromUser roleId) index = .ok index' ∧ ∀ user' roleId',
      (index' user').count roleId' + (if roleId' = roleId then users.count user' else 0) =
        (index user').count roleId' := by
  induction users generalizing index with
  | nil =>
    refine ⟨index, rfl, fun user' roleId' => ?_⟩
    rw [count_nil, ite_self]
    rfl
  | cons user users ih =>
    have hmem : roleId ∈ index user := by
      rw [← count_pos_iff]
      have huser := h user
      rw [count_cons_self] at huser
      omega
    obtain ⟨index1, hfirst, hcount1⟩ := removeRoleIdFromUser_ok hmem
    have hrest : ∀ user', users.count user' ≤ (index1 user').count roleId := by
      intro user'
      have hbefore := h user'
      have hafter := hcount1 user' roleId
      rw [count_cons] at hbefore
      by_cases heq : user' = user
      · subst heq
        simp at hbefore hafter
        omega
      · rw [if_neg fun hboth => heq hboth.1] at hafter
        omega
    obtain ⟨index', hloop, hcount⟩ := ih hrest
    refine ⟨index', ?_, fun user' roleId' => ?_⟩
    · rw [foldlM_cons, hfirst]
      exact hloop
    rw [← hcount1, ← hcount]
    by_cases hrole : roleId' = roleId
    · by_cases heq : user' = user
      · simp [hrole, heq]
        omega
      · have hne : ¬user = user' := fun h => heq h.symm
        simp [heq, hne]
    · simp [hrole]

theorem count_foldl_pushRoleId (roleId : Nat) (users : List Address) (index : Address → List Nat)
    (user' : Address) (roleId' : Nat) :
    (users.foldl (pushRoleId roleId) index user').count roleId' =
      (index user').count roleId' + (if roleId' = roleId then users.count user' else 0) := by
  induction users generalizing index with
  | nil => simp
  | cons user users ih =>
    rw [foldl_cons, ih, pushRoleId]
    by_cases heq : user' = user
    · subst heq
      by_cases hrole : roleId' = roleId
      · simp [hrole]
        omega
      · have hne : ¬roleId = roleId' := fun h => hrole h.symm
        simp [hrole, hne]
    · rw [update_of_ne heq]
      have hne : ¬user = user' := fun h => heq h.symm
      simp [hne]

theorem Indexed.removePrior (h : u.Indexed) (roleId : Nat) :
    ∃ u', u.removePrior roleId = .ok u' ∧ u'.Indexed ∧
      u'.entitlementsByRoleId = update u.entitlementsByRoleId roleId .deleted := by
  have hle : ∀ user, (u.entitlementsByRoleId roleId).users.reverse.count user ≤
      (u.roleIdsByUser user).count roleId := by
    intro user
    have heq : (u.entitlementsByRoleId roleId).users.reverse.count user =
        (u.roleIdsByUser user).count roleId := by
      rw [count_reverse, h user roleId]
    exact Nat.le_of_eq heq
  obtain ⟨index', hloop, hcount⟩ := foldlM_removeRoleIdFromUser hle
  refine ⟨_, bind_ok.2 ⟨index', hloop, rfl⟩, fun user' roleId' => ?_, rfl⟩
  have hafter := hcount user' roleId'
  rw [h user' roleId', count_reverse] at hafter
  show (index' user').count roleId' = _
  by_cases hrole : roleId' = roleId
  · subst hrole
    rw [if_pos rfl] at hafter
    show _ = (update u.entitlementsByRoleId roleId' .deleted roleId').users.count user'
    rw [update_self]
    show _ = count user' []
    rw [count_nil]
    omega
  · rw [if_neg hrole] at hafter
    show _ = (update u.entitlementsByRoleId roleId .deleted roleId').users.count user'
    rw [update_of_ne hrole]
    omega

theorem Indexed.answer (h : u.Indexed) (hok : u.answer msgSender timestamp call = .ok u') :
    u'.Indexed := by
  cases call with
  | initializeModule space =>
    obtain ⟨-, hok⟩ := ite_error_ok.1 hok
    cases hok
    exact h
  | setEntitlement roleId entitlementData =>
    obtain ⟨-, hok⟩ := guard_ok.1 hok
    cases entitlementData with
    | none => cases hok
    | some users =>
      obtain ⟨-, hok⟩ := ite_error_ok.1 hok
      obtain ⟨u1, hprior, hindexed, hentitlements⟩ := h.removePrior roleId
      rw [hprior] at hok
      cases hok
      intro user' roleId'
      show (users.foldl (pushRoleId roleId) u1.roleIdsByUser user').count roleId' =
        (update u1.entitlementsByRoleId roleId ⟨msgSender, timestamp, users⟩
          roleId').users.count user'
      rw [count_foldl_pushRoleId, hindexed user' roleId']
      by_cases hrole : roleId' = roleId
      · -- nothing is left of the prior users
        subst hrole
        rw [if_pos rfl, hentitlements, update_self, update_self]
        show count user' [] + _ = _
        rw [count_nil, Nat.zero_add]
      · rw [if_neg hrole, update_of_ne hrole]
        rfl
  | removeEntitlement roleId =>
    obtain ⟨-, hok⟩ := guard_ok.1 hok
    obtain ⟨-, hok⟩ := ite_error_ok.1 hok
    obtain ⟨u1, hprior, hindexed, -⟩ := h.removePrior roleId
    rw [hprior] at hok
    cases hok
    exact hindexed

theorem Indexed.answer_ne (h : u.Indexed) (msgSender : Address) (timestamp : Nat)
    (call : ModuleCall (List Address)) :
    u.answer msgSender timestamp call ≠ .error .roleIdNotFound := by
  have honly : u.onlySpace msgSender ≠ .error .roleIdNotFound := by
    unfold onlySpace
    split <;> simp
  cases call with
  | initializeModule space =>
    simp only [UserEntitlement.answer, initializeModule]
    split <;> simp
  | setEntitlement roleId entitlementData =>
    refine bind_ne_error honly fun _ => ?_
    obtain ⟨u1, hprior, -⟩ := h.removePrior roleId
    cases entitlementData with
    | none => simp
    | some users =>
      simp only [hprior]
      split
      · simp
      · rintro ⟨⟩
  | removeEntitlement roleId =>
    refine bind_ne_error honly fun _ => ?_
    obtain ⟨u1, hprior, -⟩ := h.removePrior roleId
    rw [hprior]
    split <;> simp

end UserEntitlement

namespace EntitlementModules

variable {s : EntitlementModules}

theorem indexed_next (hs : s.user.Indexed) (m : EntitlementMessage) :
    (entitlementModules.next s m).user.Indexed := by
  refine Machine.next_ofCall (P := fun s : EntitlementModules => s.user.Indexed) hs
    fun s' hanswer => ?_
  obtain ⟨_, _, call⟩ := m
  cases call with
  | rule call =>
    obtain ⟨rule, -, hanswer⟩ := bind_ok.1 hanswer
    cases hanswer
    exact hs
  | user call =>
    obtain ⟨user, huser, hanswer⟩ := bind_ok.1 hanswer
    cases hanswer
    exact hs.answer huser

theorem answer_ne_roleIdNotFound (hs : s.user.Indexed) (m : EntitlementMessage) :
    s.answer m ≠ .error .roleIdNotFound := by
  obtain ⟨msgSender, timestamp, call⟩ := m
  cases call with
  | rule call =>
    refine bind_ne_error ?_ fun _ h => nomatch h
    cases call with
    | initializeModule space =>
      simp only [RuleEntitlement.answer, RuleEntitlement.initializeModule]
      split <;> simp
    | setEntitlement roleId entitlementData =>
      refine bind_ne_error ?_ fun _ => ?_
      · unfold RuleEntitlement.onlySpace
        split <;> simp
      · repeat' split
        all_goals simp
    | removeEntitlement roleId =>
      simp only [RuleEntitlement.answer, RuleEntitlement.removeEntitlement]
      split <;> simp
  | user call => exact bind_ne_error (hs.answer_ne msgSender timestamp call) fun _ h => nomatch h

theorem out_ne_roleIdNotFound (hs : s.user.Indexed) (m : EntitlementMessage) :
    entitlementModules.out s m ≠ some .roleIdNotFound := by
  simp only [Machine.out, entitlementModules, Machine.ofCall]
  cases hanswer : s.answer m with
  | ok s' => simp
  | error e =>
    rintro ⟨⟩
    exact answer_ne_roleIdNotFound hs m hanswer

end EntitlementModules

/-- **Role index.** After every run of messages to the modules a user has a role as often as the
    entitlement of the role has the user, and no further message fails for want of an entry of the
    index. -/
theorem role_index_agrees (run : List EntitlementMessage) :
    (∀ user roleId,
        ((entitlementModules.exec .init run).user.roleIdsByUser user).count roleId =
          ((entitlementModules.exec .init run).user.entitlementsByRoleId roleId).users.count user) ∧
      ∀ m, entitlementModules.out (entitlementModules.exec .init run) m ≠ some .roleIdNotFound := by
  have hindexed : (entitlementModules.exec .init run).user.Indexed :=
    Machine.exec_invariant (I := fun s : EntitlementModules => s.user.Indexed)
      (fun _ m hs => indexed_next hs m) (fun _ _ => rfl) run
  exact ⟨hindexed, out_ne_roleIdNotFound hindexed⟩

end River.Contracts
