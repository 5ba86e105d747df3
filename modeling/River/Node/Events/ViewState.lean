/-
  The state queries of a view (core/node/events/stream_viewstate_joinable.go,
  stream_viewstate_space.go and stream_viewstate_user.go).

  `GetKeySolicitations` is the only one that writes.
-/

import River.Node.Events.StreamView

namespace River.Node

namespace StreamView

variable (r : StreamView)

def joined : Res (List MemberSnapshot) :=
  match r.snapshot.value.members with
  | none => .panic "nil pointer dereference"
  | some members => .ok members

def foldState {σ : Type} (op : σ → ParsedEvent → Res σ) (state : σ) : Res σ :=
  r.forEachEvent (r.snapshotIndex + 1) op state

theorem foldState_eq {σ : Type} (op : σ → ParsedEvent → Res σ) (state : σ) :
    r.foldState op state = (r.eventsFrom (r.snapshotIndex + 1)).foldlM op state := by
  unfold foldState forEachEvent
  rw [if_neg]
  exact Nat.not_lt.2 r.snapshotIndex_lt

/-! ## Members -/

def memberIds : List MemberSnapshot → Finset Bytes → Res (Finset Bytes)
  | [], members => .ok members
  | m :: ms, members => do
    let userId ← addressHex m.userAddress
    memberIds ms (insert userId members)

def channelMembersOp (members : Finset Bytes) (e : ParsedEvent) : Res (Finset Bytes) :=
  match e.event.payload with
  | .member (.membership m) => do
    let user ← addressHex m.userAddress
    match m.op with
    | .join => .ok (insert user members)
    | .leave => .ok (members.erase user)
    | _ => .ok members
  | _ => .ok members

def getChannelMembers : Res (Finset Bytes) := do
  let members ← memberIds (← r.joined) ∅
  r.foldState channelMembersOp members

variable (userAddress : Bytes)

def membershipOp (op : MembershipOp) (e : ParsedEvent) : Res MembershipOp :=
  match e.event.payload with
  | .member (.membership m) => .ok (if m.userAddress = userAddress then m.op else op)
  | _ => .ok op

def getMembership : Res MembershipOp := do
  let retValue : MembershipOp :=
    if (findMember (← r.joined) userAddress).isSome then .join else .unspecified
  r.foldState (membershipOp userAddress) retValue

def isMember : Res Bool := do
  let membership ← r.getMembership userAddress
  .ok (membership = .join)

/-! ## Key solicitations -/

def keySolicitationsOp (state : Option MemberSnapshot × Heap) (e : ParsedEvent) :
    Res (Option MemberSnapshot × Heap) :=
  let (member, heap) := state
  match e.event.payload with
  | .member (.membership m) =>
    if m.userAddress = userAddress then
      match m.op with
      | .join => .ok (some (.new m.userAddress 0 0), heap)
      | .leave => .ok (none, heap)
      | _ => .ok (member, heap)
    else .ok (member, heap)
  | .member (.keySolicitation ks) =>
    if e.event.creatorAddress = userAddress then
      .ok (member.map fun m =>
        { m with solicitations := applyKeySolicitation m.solicitations (.event e.ref ks) }, heap)
    else .ok (member, heap)
  | .member (.keyFulfillment kf) =>
    match member with
    | none => .ok (none, heap)
    | some m =>
      if kf.userAddress = userAddress then
        let (heap', solicitations) := applyKeyFulfillment heap kf m.solicitations
        .ok (some { m with solicitations := solicitations }, heap')
      else .ok (some m, heap)
  | _ => .ok (member, heap)

def getKeySolicitations (heap : Heap) (userAddress : Bytes) :
    Res (List KeySolicitation × Heap) := do
  let member := (findMember (← r.joined) userAddress).map (·.clone heap)
  let (member, heap) ← r.foldState (keySolicitationsOp userAddress) (member, heap)
  .ok ((member.map (·.solicitations.map (·.read heap))).getD [], heap)

/-! ## Channels and user memberships -/

def getSpaceSnapshotContent : Res SpaceSnapshot :=
  match r.snapshot.value.content with
  | .space c => .ok c
  | _ => riverError .wrongStreamType "Expected space stream"

def channelInfoOp (channelId : StreamId) (channel : Option SpaceChannel) (e : ParsedEvent) :
    Res (Option SpaceChannel) :=
  match e.event.payload with
  | .space (.channel c) => .ok (if channelId.equalsBytes c.channelId then some c else channel)
  | _ => .ok channel

def getChannelInfo (channelId : StreamId) : Res (Option SpaceChannel) := do
  let snap ← r.getSpaceSnapshotContent
  r.foldState (channelInfoOp channelId) (findChannel snap.channels channelId.bytes)

def getUserSnapshotContent : Res UserSnapshot :=
  match r.snapshot.value.content with
  | .user c => .ok c
  | _ => riverError .wrongStreamType "Expected user stream"

def userMembershipOp (streamId : StreamId) (op : MembershipOp) (e : ParsedEvent) :
    Res MembershipOp :=
  match e.event.payload with
  | .user (.userMembership m) => .ok (if streamId.equalsBytes m.streamId then m.op else op)
  | _ => .ok op

def getUserMembership (streamId : StreamId) : Res MembershipOp := do
  let snap ← r.getUserSnapshotContent
  let retValue : MembershipOp :=
    match findUserMembership snap.memberships streamId.bytes with
    | some membership => membership.op
    | none => .unspecified
  r.foldState (userMembershipOp streamId) retValue

/-! ## Inception -/

def inceptionPayload : Option InceptionPayload :=
  r.snapshot.value.getInceptionPayload

def streamParentId : Res (Option StreamId) :=
  match r.inceptionPayload with
  | some (.channel i) =>
    if i.spaceId = [] then .ok none
    else match StreamId.fromBytes i.spaceId with
      | .ok id => .ok (some id)
      | _ => .panic "bad stream parent id"
  | _ => .ok none

def getChannelInception : Res ChannelInception :=
  match r.inceptionPayload with
  | some (.channel i) => .ok i
  | _ => riverError .wrongStreamType "Expected channel stream"

def getDMChannelInception : Res DmChannelInception :=
  match r.inceptionPayload with
  | some (.dmChannel i) => .ok i
  | _ => riverError .wrongStreamType "Expected dm stream"

def getMediaInception : Res MediaInception :=
  match r.inceptionPayload with
  | some (.media i) => .ok i
  | _ => riverError .wrongStreamType "Expected media stream"

end StreamView

end River.Node
