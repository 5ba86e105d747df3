/-
  What the queries of a view depend on: the snapshot and the events after it.
-/

import River.Node.Events.ViewState
import River.Node.Events.Window

namespace River.Node

open List

structure Replay where
  snapshot : Snapshot
  events : List ParsedEvent

/-! ## Queries -/

namespace Replay

open StreamView (memberIds channelMembersOp membershipOp keySolicitationsOp channelInfoOp
  userMembershipOp)

variable (r : Replay)

def joined : Res (List MemberSnapshot) :=
  match r.snapshot.members with
  | none => .panic "nil pointer dereference"
  | some members => .ok members

def getChannelMembers : Res (Finset Bytes) := do
  let members ← memberIds (← r.joined) ∅
  r.events.foldlM channelMembersOp members

def getMembership (userAddress : Bytes) : Res MembershipOp := do
  let retValue : MembershipOp :=
    if (findMember (← r.joined) userAddress).isSome then .join else .unspecified
  r.events.foldlM (membershipOp userAddress) retValue

def isMember (userAddress : Bytes) : Res Bool := do
  let membership ← r.getMembership userAddress
  .ok (membership = .join)

def getKeySolicitations (heap : Heap) (userAddress : Bytes) :
    Res (List KeySolicitation × Heap) := do
  let member := (findMember (← r.joined) userAddress).map (·.clone heap)
  let (member, heap) ← r.events.foldlM (keySolicitationsOp userAddress) (member, heap)
  .ok ((member.map (·.solicitations.map (·.read heap))).getD [], heap)

def getChannelInfo (channelId : StreamId) : Res (Option SpaceChannel) :=
  match r.snapshot.content with
  | .space c => r.events.foldlM (channelInfoOp channelId) (findChannel c.channels channelId.bytes)
  | _ => riverError .wrongStreamType "Expected space stream"

def getUserMembership (streamId : StreamId) : Res MembershipOp :=
  match r.snapshot.content with
  | .user c =>
    let retValue : MembershipOp :=
      match findUserMembership c.memberships streamId.bytes with
      | some membership => membership.op
      | none => .unspecified
    r.events.foldlM (userMembershipOp streamId) retValue
  | _ => riverError .wrongStreamType "Expected user stream"

end Replay

/-! ## Views -/

namespace StreamView

def window (v : StreamView) : List ParsedEvent :=
  (v.blocks.drop (v.snapshotIndex + 1)).flatMap (·.events) ++ v.minipool.events.values

def replay (v : StreamView) : Replay := ⟨v.snapshot.value, v.window⟩

def SkipsHeaders {σ : Type} (op : σ → ParsedEvent → Res σ) : Prop :=
  ∀ s e h, e.event.payload = .miniblockHeader h → op s e = .ok s

theorem foldState_eq_window {σ : Type} {op : σ → ParsedEvent → Res σ} (hop : SkipsHeaders op)
    (v : StreamView) (state : σ) : v.foldState op state = v.window.foldlM op state := by
  have hblocks : ∀ (bs : List MiniblockInfo) (state : σ),
      (bs.flatMap MiniblockInfo.allEvents).foldlM op state =
        (bs.flatMap (·.events)).foldlM op state := by
    intro bs
    induction bs with
    | nil => intro state; rfl
    | cons b bs ih =>
      intro state
      have hheader : ∀ s, op s b.headerEvent = .ok s := fun s => hop s _ _ b.header_eq
      have hall : b.allEvents.foldlM op state = b.events.foldlM op state := by
        simp only [MiniblockInfo.allEvents, foldlM_append, foldlM_cons, hheader]
        exact bind_pure _
      simp only [flatMap_cons, foldlM_append, hall, ih]
  rw [foldState_eq, eventsFrom, window, foldlM_append, foldlM_append, hblocks]

theorem skipsHeaders_channelMembersOp : SkipsHeaders channelMembersOp := by
  intro s e h he
  simp [channelMembersOp, he]

variable (userAddress : Bytes)

theorem skipsHeaders_membershipOp : SkipsHeaders (membershipOp userAddress) := by
  intro s e h he
  simp [membershipOp, he]

theorem skipsHeaders_keySolicitationsOp : SkipsHeaders (keySolicitationsOp userAddress) := by
  intro s e h he
  simp [keySolicitationsOp, he]

theorem skipsHeaders_channelInfoOp (channelId : StreamId) :
    SkipsHeaders (channelInfoOp channelId) := by
  intro s e h he
  simp [channelInfoOp, he]

theorem skipsHeaders_userMembershipOp (streamId : StreamId) :
    SkipsHeaders (userMembershipOp streamId) := by
  intro s e h he
  simp [userMembershipOp, he]

variable (v : StreamView)

theorem joined_eq_replay : v.joined = v.replay.joined := rfl

theorem getChannelMembers_eq_replay : v.getChannelMembers = v.replay.getChannelMembers := by
  simp only [getChannelMembers, Replay.getChannelMembers,
    foldState_eq_window skipsHeaders_channelMembersOp, joined_eq_replay, replay]

theorem getMembership_eq_replay :
    v.getMembership userAddress = v.replay.getMembership userAddress := by
  simp only [getMembership, Replay.getMembership,
    foldState_eq_window (skipsHeaders_membershipOp userAddress), joined_eq_replay, replay]

theorem isMember_eq_replay : v.isMember userAddress = v.replay.isMember userAddress := by
  rw [isMember, getMembership_eq_replay, Replay.isMember]

theorem getKeySolicitations_eq_replay (heap : Heap) (userAddress : Bytes) :
    v.getKeySolicitations heap userAddress = v.replay.getKeySolicitations heap userAddress := by
  simp only [getKeySolicitations, Replay.getKeySolicitations,
    foldState_eq_window (skipsHeaders_keySolicitationsOp userAddress), joined_eq_replay, replay]

theorem getChannelInfo_eq_replay (channelId : StreamId) :
    v.getChannelInfo channelId = v.replay.getChannelInfo channelId := by
  simp only [getChannelInfo, getSpaceSnapshotContent, Replay.getChannelInfo, replay,
    foldState_eq_window (skipsHeaders_channelInfoOp channelId)]
  cases v.snapshot.value.content <;> rfl

theorem getUserMembership_eq_replay (streamId : StreamId) :
    v.getUserMembership streamId = v.replay.getUserMembership streamId := by
  simp only [getUserMembership, getUserSnapshotContent, Replay.getUserMembership, replay,
    foldState_eq_window (skipsHeaders_userMembershipOp streamId)]
  cases v.snapshot.value.content <;> rfl

end StreamView

/-! ## Events that go into a snapshot -/

/-- Events applied to a snapshot one by one. -/
inductive Updates : List ParsedEvent → Snapshot × Heap → Snapshot × Heap → Prop where
  | nil (sh : Snapshot × Heap) : Updates [] sh sh
  | cons {e : ParsedEvent} {es : List ParsedEvent} {s : Snapshot} {heap : Heap}
      {miniblockNum eventNum : Int} {sh1 sh2 : Snapshot × Heap} {err : Option RiverError}
      (first : updateSnapshot s heap e miniblockNum eventNum = .ok (sh1, err))
      (rest : Updates es sh1 sh2) : Updates (e :: es) (s, heap) sh2

namespace Updates

theorem append (h : Updates es sh sh1) (h' : Updates es' sh1 sh2) : Updates (es ++ es') sh sh2 := by
  induction h with
  | nil sh => exact h'
  | cons first rest ih => exact .cons first (ih h')

theorem invariant {I : Snapshot × Heap → Prop}
    (hstep : ∀ e ∈ es, ∀ s heap miniblockNum eventNum sh err, I (s, heap) →
      updateSnapshot s heap e miniblockNum eventNum = .ok (sh, err) → I sh) (h : Updates es sh sh')
    (hI : I sh) : I sh' := by
  induction h with
  | nil sh => exact hI
  | @cons e es s heap m n sh1 sh2 err first rest ih =>
    refine ih (fun e' he' => hstep e' (mem_cons_of_mem _ he')) ?_
    exact hstep e mem_cons_self s heap m n sh1 err hI first

theorem getInceptionPayload (h : Updates es sh sh') :
    sh'.1.getInceptionPayload = sh.1.getInceptionPayload := by
  refine h.invariant (I := fun sh1 => sh1.1.getInceptionPayload = sh.1.getInceptionPayload) ?_ rfl
  intro e _ s heap miniblockNum eventNum sh1 err hI hupdate
  exact (updateSnapshot_getInceptionPayload hupdate).trans hI

end Updates

theorem updates_of_updateSnapshotWith
    (h : StreamView.updateSnapshotWith miniblockNum es n sh = .ok sh') :
    Updates es sh sh' := by
  induction es generalizing n sh with
  | nil =>
    cases h
    exact .nil _
  | cons e es ih =>
    obtain ⟨⟨_, _⟩, hfirst, h⟩ := Res.bind_eq_ok.1 h
    exact .cons hfirst (ih h)

theorem updates_of_updateSnapshotWithBlocks
    (h : StreamView.updateSnapshotWithBlocks bs sh = .ok sh') :
    Updates (bs.flatMap (·.events)) sh sh' := by
  induction bs generalizing sh with
  | nil =>
    cases h
    exact .nil _
  | cons b bs ih =>
    obtain ⟨_, hfirst, h⟩ := Res.bind_eq_ok.1 h
    exact (updates_of_updateSnapshotWith hfirst).append (ih h)

theorem updates_of_updateGenesisSnapshot (h : updateGenesisSnapshot es n s heap = .ok sh) :
    Updates es (s, heap) sh := by
  induction es generalizing n s heap with
  | nil =>
    cases h
    exact .nil _
  | cons e es ih =>
    obtain ⟨⟨⟨_, _⟩, err⟩, hfirst, h⟩ := Res.bind_eq_ok.1 h
    cases err with
    | some err => cases h
    | none => exact .cons hfirst (ih h)

namespace StreamView

theorem updates_of_nextSnapshot {v : StreamView} (h : v.nextSnapshot heap es = .ok sh) :
    Updates ((v.blocks.drop (v.snapshotIndex + 1)).flatMap (·.events) ++ es)
      (v.snapshot.value.clone heap, heap) sh := by
  obtain ⟨_, hblocks, h⟩ := Res.bind_eq_ok.1 h
  exact (updates_of_updateSnapshotWithBlocks hblocks).append (updates_of_updateSnapshotWith h)

/-! ## Steps of a view -/

theorem replay_copyAndAddEvent {v : StreamView} (h : v.copyAndAddEvent e = .ok v') :
    v'.replay = ⟨v.replay.snapshot, v.replay.events ++ [e]⟩ := by
  obtain ⟨-, -, m, hvalues, rfl⟩ := copyAndAddEvent_eq_ok.1 h
  simp [replay, window, hvalues]

theorem minipool_copyAndApplyBlock {v : StreamView} {front : List ParsedEvent}
    (hpool : v.minipool.events.values = front ++ rest)
    (hfront : front.map (·.hash) = b.events.map (·.hash)) (h : v.copyAndApplyBlock b cfg = .ok v') :
    v'.minipool.events.values = rest := by
  obtain ⟨-, -, -, ⟨_, htake, hpool'⟩, -⟩ := copyAndApplyBlock_eq_ok h
  have hhashes : v.minipool.events.hashes = b.events.map (·.hash) ++ rest.map (·.hash) := by
    rw [EventMap.hashes, hpool, map_append, hfront]
  rw [hhashes, takeBlockEvents_append, Res.ok.injEq] at htake
  have hnodup : ((front ++ rest).map (·.hash)).Nodup := by
    rw [← hpool]
    exact v.minipool.events.hashes_nodup
  rw [hpool', EventMap.values_filter, hpool, ← htake]
  exact filter_mem_of_nodup hnodup

theorem window_copyAndApplyBlock {v : StreamView} {front : List ParsedEvent}
    (hpool : v.minipool.events.values = front ++ rest)
    (hfront : front.map (·.hash) = b.events.map (·.hash)) (h : v.copyAndApplyBlock b cfg = .ok v') :
    (b.header.snapshot = none ∧ v'.snapshot = v.snapshot ∧
        v'.window = (v.blocks.drop (v.snapshotIndex + 1)).flatMap (·.events) ++ b.events ++ rest) ∨
      (b.header.snapshot = some v'.snapshot.value ∧ v'.window = rest) := by
  have hrest := minipool_copyAndApplyBlock hpool hfront h
  obtain ⟨-, -, -, -, ⟨hnone, hblocks, hsnapshot, hindex⟩ | ⟨hsome, -, hblocks, hindex⟩⟩ :=
    copyAndApplyBlock_eq_ok h
  · left
    refine ⟨by simpa [MiniblockInfo.snapshot?] using hnone, hsnapshot, ?_⟩
    have hle : v.snapshotIndex + 1 ≤ v.blocks.length := v.snapshotIndex_lt
    simp [window, hrest, hblocks, hindex, drop_append_of_le_length hle]
  · right
    obtain ⟨s, hs, hptr⟩ := Option.map_eq_some_iff.1 hsome
    have hdrop : v'.blocks.drop (v'.snapshotIndex + 1) = [] := by
      rw [hblocks, hindex]
      simp
    refine ⟨by rw [hs, ← hptr], ?_⟩
    simp [window, hrest, hdrop]

theorem replay_copyAndApplyBlock {v : StreamView}
    (hpool : v.minipool.events.values = b.events ++ rest) (h : v.copyAndApplyBlock b cfg = .ok v') :
    (b.header.snapshot = none ∧ v'.replay = v.replay) ∨
      (∃ s, b.header.snapshot = some s ∧ v'.replay = ⟨s, rest⟩) := by
  obtain ⟨hnone, hsnapshot, hwindow⟩ | ⟨hsome, hwindow⟩ := window_copyAndApplyBlock hpool rfl h
  · refine .inl ⟨hnone, ?_⟩
    rw [replay, replay, hsnapshot, hwindow, window, hpool, append_assoc]
  · refine .inr ⟨_, hsome, ?_⟩
    rw [replay, hwindow]

end StreamView

end River.Node
