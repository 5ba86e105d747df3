/-
  The members of a stream in a client (core/sdk/src/streamStateView_Members.ts and
  streamStateView_Members_Membership.ts).
-/

import Mathlib.Data.List.DropRight
import River.Lib.Machine
import River.Node.Protocol

namespace River.Sdk

open River.Node (MembershipOp)

structure Membership where
  userId : String
  op : MembershipOp

structure Members where
  joined : Finset String
  joinedUsers : Finset String
  invitedUsers : Finset String
  leftUsers : Finset String
  pendingJoinedUsers : Finset String
  pendingInvitedUsers : Finset String
  pendingLeftUsers : Finset String
  pendingMembershipEvents : String → Option Membership

inductive MembersAction where
  | appendEvent (hashStr : String) (membership : Membership)
  | onConfirmedEvent (hashStr : String)

namespace Members

def new : Members := ⟨∅, ∅, ∅, ∅, ∅, ∅, ∅, fun _ => none⟩

variable (s : Members)

def isMember (membership : MembershipOp) (userId : String) : Bool :=
  match membership with
  | .invite => userId ∈ s.invitedUsers
  | .join => userId ∈ s.joinedUsers
  | .leave => userId ∉ s.invitedUsers ∧ userId ∉ s.joinedUsers
  | _ => false

def applyMembershipEvent (userId : String) (op : MembershipOp) (confirmed : Bool) : Members :=
  match op, confirmed with
  | .invite, true =>
    { s with
      pendingInvitedUsers := s.pendingInvitedUsers.erase userId
      invitedUsers := insert userId s.invitedUsers }
  | .invite, false => { s with pendingInvitedUsers := insert userId s.pendingInvitedUsers }
  | .join, true =>
    { s with
      pendingJoinedUsers := s.pendingJoinedUsers.erase userId
      joinedUsers := insert userId s.joinedUsers }
  | .join, false => { s with pendingJoinedUsers := insert userId s.pendingJoinedUsers }
  | .leave, true =>
    { s with
      joinedUsers := s.joinedUsers.erase userId
      invitedUsers := s.invitedUsers.erase userId
      pendingLeftUsers := s.pendingLeftUsers.erase userId
      leftUsers := insert userId s.leftUsers }
  | .leave, false => { s with pendingLeftUsers := insert userId s.pendingLeftUsers }
  | _, _ => s

def appendEvent (hashStr : String) (m : Membership) : Members × Option String :=
  let s := { s with
    pendingMembershipEvents := Function.update s.pendingMembershipEvents hashStr (some m) }
  match m.op with
  | .join =>
    -- the check throws after the event was stored
    if m.userId ∈ s.joined then (s, some "user already joined")
    else
      let s := { s with joined := insert m.userId s.joined }
      (s.applyMembershipEvent m.userId m.op false, none)
  | .leave =>
    (applyMembershipEvent { s with joined := s.joined.erase m.userId } m.userId m.op false, none)
  | _ => (s.applyMembershipEvent m.userId m.op false, none)

def onConfirmedEvent (hashStr : String) : Members :=
  match s.pendingMembershipEvents hashStr with
  | none => s
  | some m =>
    applyMembershipEvent { s with
      pendingMembershipEvents := Function.update s.pendingMembershipEvents hashStr none }
      m.userId m.op true

/-- Members of a stream, as a client has them. -/
def machine : Lib.Machine Members MembersAction (Option String) where
  step s
    | .appendEvent hashStr m => s.appendEvent hashStr m
    | .onConfirmedEvent hashStr => (s.onConfirmedEvent hashStr, none)

def confirms (userId : String) (s : Members) : MembersAction → List MembershipOp
  | .appendEvent _ _ => []
  | .onConfirmedEvent hashStr =>
    match s.pendingMembershipEvents hashStr with
    | none => []
    | some m => if m.userId = userId then [m.op] else []

def users : MembershipOp → Finset String
  | .invite => s.invitedUsers
  | .join => s.joinedUsers
  | .leave => s.leftUsers
  | _ => ∅

/-- The operations after the last leave. -/
def sinceLeave (ops : List MembershipOp) : List MembershipOp := ops.rtakeWhile (· ≠ .leave)

/-- Whether the confirmed operations of a user leave it in the set of an operation. A leave is never
    forgotten, and takes back the joins and invites before it. -/
def StaysIn (ops : List MembershipOp) : MembershipOp → Prop
  | .leave => .leave ∈ ops
  | .join => .join ∈ sinceLeave ops
  | .invite => .invite ∈ sinceLeave ops
  | .unspecified | .unrecognized _ => False

/-- The operation is a leave, or a join or an invite beside which there is no other of the three. -/
def Settled (ops : List MembershipOp) (op : MembershipOp) : Prop :=
  op = .leave ∨ (op = .join ∨ op = .invite) ∧
    ∀ o ∈ ops, o = .leave ∨ o = .join ∨ o = .invite → o = op

instance : Decidable (Settled ops op) := inferInstanceAs (Decidable (_ ∨ _))

def Follows (u : String) (ops : List MembershipOp) (s : Members) : Prop :=
  ∀ op, u ∈ s.users op ↔ StaysIn ops op

variable {s}

theorem users_pending (userId : String) (op : MembershipOp) :
    (s.applyMembershipEvent userId op false).users = s.users := by
  cases op <;> rfl

theorem users_appendEvent (hashStr : String) (m : Membership) :
    (s.appendEvent hashStr m).1.users = s.users := by
  unfold appendEvent
  dsimp only
  split
  · split
    · rfl
    · exact users_pending ..
  · exact users_pending ..
  · exact users_pending ..

theorem users_of_ne (h : userId ≠ u) (op op' : MembershipOp) :
    u ∈ (s.applyMembershipEvent userId op true).users op' ↔ u ∈ s.users op' := by
  cases op <;> cases op' <;> simp [applyMembershipEvent, users, h.symm]

theorem Follows.confirm (hs : Follows u ops s) (o : MembershipOp) :
    Follows u (ops ++ [o]) (s.applyMembershipEvent u o true) := by
  intro op
  have hop := hs op
  cases o <;> cases op <;> simp_all [applyMembershipEvent, users, StaysIn, sinceLeave]

theorem Follows.next (hs : Follows u ops s) (a : MembersAction) :
    Follows u (ops ++ s.confirms u a) (machine.next s a) := by
  cases a with
  | appendEvent hashStr m =>
    show Follows u (ops ++ []) (s.appendEvent hashStr m).1
    rw [Follows, users_appendEvent, List.append_nil]
    exact hs
  | onConfirmedEvent hashStr =>
    show Follows u _ (s.onConfirmedEvent hashStr)
    unfold confirms onConfirmedEvent
    dsimp only
    cases s.pendingMembershipEvents hashStr with
    | none => exact (List.append_nil ops).symm ▸ hs
    | some m =>
      dsimp only
      split
      · rename_i hm
        subst hm
        refine Follows.confirm ?_ m.op
        exact hs
      · rename_i hm
        rw [List.append_nil]
        exact fun op => (users_of_ne hm m.op op).trans (hs op)

theorem settled_iff (hlast : ops.getLast? = some op) :
    Settled ops op ↔ ∀ op', StaysIn ops op' ↔ op' = op := by
  have hsub : ∀ o ∈ sinceLeave ops, o ∈ ops := fun o ho => (List.rtakeWhile_suffix _ _).subset ho
  constructor
  · obtain ⟨front, rfl⟩ := List.getLast?_eq_some_iff.1 hlast
    rintro (rfl | ⟨hop, hall⟩) op'
    · cases op' <;> simp [StaysIn, sinceLeave]
    constructor
    · intro hleft
      cases op' with
      | leave => exact hall _ hleft (.inl rfl)
      | join => exact hall _ (hsub _ hleft) (.inr (.inl rfl))
      | invite => exact hall _ (hsub _ hleft) (.inr (.inr rfl))
      | _ => exact hleft.elim
    · rintro rfl
      rcases hop with rfl | rfl <;> simp [StaysIn, sinceLeave]
  · intro hleft
    by_cases hleave : .leave ∈ ops
    · exact .inl ((hleft .leave).1 hleave).symm
    -- without a leave all joins and invites stay
    have hall : sinceLeave ops = ops :=
      List.rtakeWhile_eq_self_iff.2 fun o ho => by simpa using ne_of_mem_of_not_mem ho hleave
    have hop := (hleft op).2 rfl
    refine .inr ⟨?_, ?_⟩
    · cases op <;> simp_all [StaysIn]
    · rintro o ho (rfl | rfl | rfl)
      · exact absurd ho hleave
      · exact (hleft .join).1 (by rwa [StaysIn, hall])
      · exact (hleft .invite).1 (by rwa [StaysIn, hall])

/-- **Client membership sets.** A user is in the set of the last confirmed operation only, and
    `isMember` says so, exactly if that is a leave or the only operation the user ever had. -/
theorem members_follow_confirmed (acts : List MembersAction) (u : String) (op : MembershipOp)
    (hlast : (machine.collect (confirms u) .new acts).getLast? = some op) :
    let s := machine.exec .new acts
    (∀ op', (u ∈ s.users op' ↔ op' = op) ∧ (s.isMember op' u = true ↔ op' = op)) ↔
      Settled (machine.collect (confirms u) .new acts) op := by
  intro s
  have hs : Follows u (machine.collect (confirms u) .new acts) s :=
    Lib.Machine.collect_invariant (l := [])
      (fun _ _ _ => trivial) (fun ops s a hs _ _ => hs.next a)
      (fun op => by cases op <;> simp [users, new, StaysIn, sinceLeave])
      (Lib.Machine.along_of_forall (fun _ _ => trivial) _ _) trivial
  rw [settled_iff hlast]
  refine ⟨fun h op' => (hs op').symm.trans (h op').1, fun h op' => ?_⟩
  have husers : ∀ op', u ∈ s.users op' ↔ op' = op := fun op' => (hs op').trans (h op')
  refine ⟨husers op', ?_⟩
  have hinvite := husers .invite
  have hjoin := husers .join
  have hop := (h op).2 rfl
  cases op with
  | unspecified | unrecognized => exact hop.elim
  | _ => cases op' <;> simp_all [isMember, users]

theorem members_follow_confirmed_sample :
    let s := machine.exec .new
      [.appendEvent "1" ⟨"a", .invite⟩, .onConfirmedEvent "1",
        .appendEvent "2" ⟨"a", .leave⟩, .onConfirmedEvent "2"]
    "a" ∈ s.leftUsers ∧ s.isMember .leave "a" = true :=
  have h := (members_follow_confirmed _ "a" .leave (by decide)).2 (by decide) .leave
  ⟨h.1.2 rfl, h.2.2 rfl⟩

/-- An invited user who joins stays among the invited, and one who comes back stays among those
    who left. -/
theorem members_in_two_sets :
    let s := machine.exec .new
      [.appendEvent "1" ⟨"a", .invite⟩, .onConfirmedEvent "1",
        .appendEvent "2" ⟨"a", .join⟩, .onConfirmedEvent "2",
        .appendEvent "3" ⟨"b", .leave⟩, .onConfirmedEvent "3",
        .appendEvent "4" ⟨"b", .join⟩, .onConfirmedEvent "4"]
    "a" ∈ s.invitedUsers ∧ "a" ∈ s.joinedUsers ∧ s.isMember .invite "a" = true ∧
      "b" ∈ s.leftUsers ∧ "b" ∈ s.joinedUsers := by
  decide

end Members

end River.Sdk
