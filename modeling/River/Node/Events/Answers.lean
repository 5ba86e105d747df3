/-
  The answers of a replay depend on the whole history only, not on where its snapshot is.
-/

import River.Node.Events.Members
import River.Node.Events.SharedLog

namespace River.Node

open River.Lib River.Lib.SortedList List StreamView

variable {u : Bytes} {heap : Heap}

namespace Replay

variable {r : Replay}

/-! ## Channels and user memberships -/

def channelsAfter (es : List ParsedEvent) (cs : List SpaceChannel) : List SpaceChannel :=
  es.foldl (fun cs e => channelsStep e cs) cs

def membershipsAfter (es : List ParsedEvent) (ms : List UserMembership) : List UserMembership :=
  es.foldl (fun ms e => membershipsStep e ms) ms

theorem channelsAfter_comp (es es' : List ParsedEvent) :
    channelsAfter es' ∘ channelsAfter es = channelsAfter (es ++ es') :=
  funext fun _ => foldl_append.symm

theorem membershipsAfter_comp (es es' : List ParsedEvent) :
    membershipsAfter es' ∘ membershipsAfter es = membershipsAfter (es ++ es') :=
  funext fun _ => foldl_append.symm

variable {cs : List SpaceChannel}

theorem channelInfoOp_lookup (channelId : StreamId) (hasc : Ascending (·.channelId) cs)
    (e : ParsedEvent) :
    channelInfoOp channelId (lookup (·.channelId) cs channelId.bytes) e =
      .ok (lookup (·.channelId) (channelsStep e cs) channelId.bytes) := by
  unfold channelInfoOp
  split
  · rename_i c hc
    simp only [channelsStep, hc, insertChannel, lookup_insertSorted hasc]
    simp [StreamId.equalsBytes]
  · rename_i hno
    have hsame : channelsStep e cs = cs := by
      unfold channelsStep
      split
      · exact absurd ‹_› (hno _)
      · rfl
    rw [hsame]

theorem foldlM_channelInfoOp (channelId : StreamId) (hasc : Ascending (·.channelId) cs)
    (es : List ParsedEvent) :
    es.foldlM (channelInfoOp channelId) (lookup (·.channelId) cs channelId.bytes) =
      .ok (lookup (·.channelId) (channelsAfter es cs) channelId.bytes) :=
  Res.foldlM_of_steps (fun cs => lookup SpaceChannel.channelId cs channelId.bytes)
    (fun _ e _ hasc => channelInfoOp_lookup channelId hasc e)
    (fun _ e hasc => ascending_channelsStep e hasc) hasc

theorem getChannelInfo_eq (h : r.snapshot.WellFormed) (channelId : StreamId) :
    r.getChannelInfo channelId =
      match r.snapshot.content.channels?.map (channelsAfter r.events) with
      | some cs => .ok (lookup (·.channelId) cs channelId.bytes)
      | none => riverError .wrongStreamType "Expected space stream" := by
  have hchannels := h.channels
  unfold getChannelInfo
  cases hc : r.snapshot.content with
  | space c =>
    have hasc := hchannels c.channels (by rw [hc]; rfl)
    simp only [findChannel, findSorted_eq_lookup hasc, foldlM_channelInfoOp channelId hasc]
    rfl
  | _ => rfl

def membershipIn (ms : List UserMembership) (streamId : StreamId) : MembershipOp :=
  ((lookup (·.streamId) ms streamId.bytes).map (·.op)).getD .unspecified

variable {ms : List UserMembership}

theorem userMembershipOp_membershipIn (sid : StreamId) (hasc : Ascending (·.streamId) ms)
    (e : ParsedEvent) :
    userMembershipOp sid (membershipIn ms sid) e =
      .ok (membershipIn (membershipsStep e ms) sid) := by
  unfold userMembershipOp
  split
  · rename_i m hm
    simp only [membershipsStep, hm, insertUserMembership, membershipIn, lookup_insertSorted hasc]
    by_cases hid : sid.bytes = m.streamId <;> simp [StreamId.equalsBytes, hid]
  · rename_i hno
    have hsame : membershipsStep e ms = ms := by
      unfold membershipsStep
      split
      · exact absurd ‹_› (hno _)
      · rfl
    rw [hsame]

theorem foldlM_userMembershipOp (sid : StreamId) (hasc : Ascending (·.streamId) ms)
    (es : List ParsedEvent) :
    es.foldlM (userMembershipOp sid) (membershipIn ms sid) =
      .ok (membershipIn (membershipsAfter es ms) sid) :=
  Res.foldlM_of_steps (membershipIn · sid)
    (fun _ e _ hasc => userMembershipOp_membershipIn sid hasc e)
    (fun _ e hasc => ascending_membershipsStep e hasc) hasc

theorem op_findUserMembership (sid : StreamId) (hasc : Ascending (·.streamId) ms) :
    (match findUserMembership ms sid.bytes with
      | some membership => membership.op
      | none => .unspecified) = membershipIn ms sid := by
  rw [findUserMembership, findSorted_eq_lookup hasc, membershipIn]
  cases lookup (·.streamId) ms sid.bytes <;> rfl

theorem getUserMembership_eq (h : r.snapshot.WellFormed) (sid : StreamId) :
    r.getUserMembership sid =
      match r.snapshot.content.memberships?.map (membershipsAfter r.events) with
      | some ms => .ok (membershipIn ms sid)
      | none => riverError .wrongStreamType "Expected user stream" := by
  have hmemberships := h.memberships
  unfold getUserMembership
  cases hc : r.snapshot.content with
  | user c =>
    have hasc := hmemberships c.memberships (by rw [hc]; rfl)
    refine (congrArg (fun op => r.events.foldlM (userMembershipOp sid) op)
      (op_findUserMembership sid hasc)).trans ?_
    exact foldlM_userMembershipOp sid hasc r.events
  | _ => rfl

/-! ## Members -/

variable {es : List ParsedEvent}

theorem mem_foldl_memberStep_of_length_ne (hes : ∀ e ∈ es, HasAddress e) (hu : u.length ≠ 20)
    (members : Finset Bytes) :
    u ∈ es.foldl memberStep members ↔ u ∈ members := by
  induction es generalizing members with
  | nil => rfl
  | cons e es ih =>
    rw [foldl_cons, ih fun e' he' => hes e' (mem_cons_of_mem _ he')]
    obtain ⟨m, hm⟩ | hno := membership_cases e
    · have hne : m.userAddress ≠ u := by
        rintro rfl
        exact hu (hes e mem_cons_self m hm)
      rw [mem_memberStep hm]
      simp [hne]
    · rw [memberStep_of_ne hno]

theorem foldlM_channelMembersOp (hes : ∀ e ∈ es, HasAddress e) (members : Finset Bytes) :
    es.foldlM channelMembersOp members = .ok (es.foldl memberStep members) :=
  Res.foldlM_of_steps (I := fun _ => True) id
    (fun members e he _ => channelMembersOp_of_hasAddress (hes e he) members)
    (fun _ _ _ => trivial) trivial

theorem getChannelMembers_eq (h : r.snapshot.WellFormed) (hes : ∀ e ∈ r.events, HasAddress e) :
    r.getChannelMembers =
      if ∀ u ∈ r.members, u.length = 20 then .ok r.members
      else riverError .badAddress "wrong length" := by
  obtain ⟨joined, hjoined, -⟩ := h.members
  have hset : r.snapshot.joinedSet = (joined.map (·.userAddress)).toFinset := by
    rw [Snapshot.joinedSet, hjoined, Option.getD_some]
  have hlengths : (∀ u ∈ r.members, u.length = 20) ↔ ∀ m ∈ joined, m.userAddress.length = 20 := by
    constructor
    · intro hall m hm
      by_contra hne
      refine hne (hall m.userAddress ?_)
      rw [members, mem_foldl_memberStep_of_length_ne hes hne, hset]
      exact mem_toFinset.2 (mem_map_of_mem hm)
    · intro hall u hu
      by_contra hne
      rw [members, mem_foldl_memberStep_of_length_ne hes hne, hset, mem_toFinset] at hu
      obtain ⟨m, hm, rfl⟩ := mem_map.1 hu
      exact hne (hall m hm)
  rw [getChannelMembers, Replay.joined, hjoined, Res.ok_bind, memberIds_eq]
  simp only [hlengths]
  split
  · rw [Res.ok_bind, foldlM_channelMembersOp hes, Finset.union_empty, members, hset]
  · rfl

/-! ## Condensed histories -/

structure Condenses (r : Replay) (s0 : Snapshot) (done : List ParsedEvent) : Prop where
  wellFormed : r.snapshot.WellFormed
  joinedSet : r.snapshot.joinedSet = done.foldl memberStep s0.joinedSet
  channels : r.snapshot.content.channels? = s0.content.channels?.map (channelsAfter done)
  memberships : r.snapshot.content.memberships? =
    s0.content.memberships?.map (membershipsAfter done)

namespace Condenses

variable {s0 : Snapshot} {done : List ParsedEvent}

theorem refl (h : r.snapshot.WellFormed) : r.Condenses r.snapshot [] where
  wellFormed := h
  joinedSet := rfl
  channels := (Option.map_id_apply).symm
  memberships := (Option.map_id_apply).symm

theorem takeIn (h : r.Condenses s0 done) {rest : List ParsedEvent} {heap' : Heap} {s : Snapshot}
    (hupdates : Updates es (r.snapshot.clone heap, heap) (s, heap')) :
    Condenses ⟨s, rest⟩ s0 (done ++ es) := by
  have hwf := h.wellFormed.clone heap
  obtain ⟨hchannels, hmemberships⟩ := hupdates.content hwf
  refine ⟨hupdates.wellFormed hwf, ?_, ?_, ?_⟩
  · rw [(hupdates.joinedSet hwf).2, Snapshot.joinedSet_clone, h.joinedSet, foldl_append]
  · have hafter : s.content.channels? = r.snapshot.content.channels?.map (channelsAfter es) :=
      hchannels
    rw [hafter, h.channels, Option.map_map, channelsAfter_comp]
  · have hafter : s.content.memberships? =
        r.snapshot.content.memberships?.map (membershipsAfter es) := hmemberships
    rw [hafter, h.memberships, Option.map_map, membershipsAfter_comp]

theorem members (h : r.Condenses s0 done) : r.members = Replay.members ⟨s0, done ++ r.events⟩ := by
  rw [Replay.members, Replay.members, h.joinedSet, foldl_append]

end Condenses

end Replay

/-- The view answers as the replay does. -/
structure StreamView.AnswersAs (v : StreamView) (heap : Heap) (r : Replay) : Prop where
  isMember : ∀ u, v.isMember u = r.isMember u
  getChannelMembers : v.getChannelMembers = r.getChannelMembers
  getChannelInfo : ∀ channelId, v.getChannelInfo channelId = r.getChannelInfo channelId
  getUserMembership : ∀ streamId, v.getUserMembership streamId = r.getUserMembership streamId
  getKeySolicitations : ∀ u, Prod.fst <$> v.getKeySolicitations heap u =
    Prod.fst <$> r.getKeySolicitations Heap.empty u

theorem Replay.Condenses.answersAs {v : StreamView} (h : v.replay.Condenses s0 done) {L : Ledger}
    (hat : L.ViewAt base k v) (hend : k + v.window.length = L.log.length)
    (hlog : L.log = done ++ v.replay.events) (h0 : ∀ L0 : Ledger, L0.SnapshotAt base 0 s0)
    (hrefs : (L.log.map (·.ref)).Nodup) (hregular : Regular s0.joinedSet (done ++ v.replay.events))
    (haddress : ∀ e ∈ done ++ v.replay.events, HasAddress e) :
    v.AnswersAs L.heap ⟨s0, done ++ v.replay.events⟩ := by
  have hwf0 := (h0 L).wellFormed
  constructor
  · intro u
    have hsound0 : Replay.Sound ⟨s0, done ++ v.replay.events⟩ := ⟨hwf0, hregular⟩
    have hsound : v.replay.Sound := by
      refine ⟨h.wellFormed, ?_⟩
      rw [h.joinedSet]
      exact (regular_append.1 hregular).2
    rw [v.isMember_eq_replay, hsound.isMember, hsound0.isMember, h.members]
  · have hwindow : ∀ e ∈ v.replay.events, HasAddress e :=
      fun e he => haddress e (mem_append_right _ he)
    rw [v.getChannelMembers_eq_replay, getChannelMembers_eq h.wellFormed hwindow,
      getChannelMembers_eq hwf0 haddress, h.members]
  · intro channelId
    rw [v.getChannelInfo_eq_replay, getChannelInfo_eq h.wellFormed, getChannelInfo_eq hwf0,
      h.channels, Option.map_map, channelsAfter_comp]
  · intro streamId
    rw [v.getUserMembership_eq_replay, getUserMembership_eq h.wellFormed,
      getUserMembership_eq hwf0, h.memberships, Option.map_map, membershipsAfter_comp]
  · -- both are the state of the log, one of them read from objects that nothing was written to
    intro u
    obtain ⟨L0, hlog0, hheap0, hwindow0⟩ := Ledger.exists_of_window ⟨hrefs, L.sorted⟩
    rw [hlog] at hlog0 hwindow0
    have hat0 : L0.ReplayAt base 0 ⟨s0, done ++ v.replay.events⟩ := ⟨h0 L0, hwindow0⟩
    obtain ⟨_, _, hanswer, -, hwhole⟩ := hat.getKeySolicitations u
    obtain ⟨_, _, hanswer0, -, hwhole0⟩ := hat0.getKeySolicitations u
    rw [hheap0] at hanswer0
    rw [hanswer, hanswer0, hwhole hend, hwhole0 (by rw [hlog0]; exact Nat.zero_add _)]
    unfold Ledger.state
    rw [hlog, hlog0]
    rfl

/-! ## The genesis snapshot -/

theorem makeSnapshotMembers_solicitations (h : makeSnapshotMembers i creatorAddress = .ok members)
    (hm : lookup (·.userAddress) members u = some m) :
    m.solicitations = [] := by
  have hnil : Ascending (fun m : MemberSnapshot => m.userAddress) [] := .nil
  have hone : ∀ a, lookup (·.userAddress) (insertMember [] (.new a 0 0)) u = some m →
      m.solicitations = [] := by
    intro a ha
    rw [insertMember, lookup_insertSorted hnil] at ha
    split at ha
    · cases ha
      rfl
    · cases ha
  cases i with
  | user i | userSettings i | userInbox i | userDeviceKey i =>
    obtain ⟨address, -, h⟩ := Res.bind_eq_ok.1 h
    cases h
    exact hone address hm
  | dmChannel i =>
    cases h
    have hasc : Ascending (·.userAddress) (insertMember [] (.new i.firstPartyAddress 0 0)) :=
      hnil.insertSorted _
    rw [insertMember, lookup_insertSorted hasc] at hm
    split at hm
    · cases hm
      rfl
    · exact hone _ hm
  | media i =>
    cases h
    exact hone _ hm
  | _ =>
    cases h
    cases hm

variable {events : List ParsedEvent} {snapshot : Snapshot}

theorem makeGenesisSnapshot_solicitations
    (h : makeGenesisSnapshot events Heap.empty = .ok (snapshot, heap)) (hw : OrderlyWindow events)
    (hl : snapshot.solicitations u = some l) :
    (l.map (·.deviceKey)).Nodup ∧ ∀ p ∈ l, (p.read heap).Sorted := by
  obtain ⟨e, es, i, members, rfl, -, hmembers, hwf, hupdates⟩ := makeGenesisSnapshot_eq_ok h
  have hes : OrderlyWindow es :=
    ⟨(nodup_cons.1 hw.refs).2, fun e' he' => hw.sortedIds e' (mem_cons_of_mem _ he')⟩
  obtain ⟨L, hlog, hheap, hwindow⟩ := Ledger.exists_of_window hes
  -- nobody has solicitations before the first event
  have hstart : L.StandsFor (fun _ => True)
      (fun u => (lookup (·.userAddress) members u).map fun _ => [])
      0 (Snapshot.solicitations ⟨some members, currentSnapshotVersion, makeSnapshotContent i⟩) := by
    refine ⟨Nat.zero_le _, fun u _ => ?_, fun u hu => absurd trivial hu⟩
    show Option.Rel _ _ ((lookup (·.userAddress) members u).map fun _ => [])
    rw [Snapshot.solicitations, Option.getD_some]
    cases hm : lookup (·.userAddress) members u with
    | none => exact .none
    | some m =>
      rw [Option.map_some, makeSnapshotMembers_solicitations hmembers hm]
      exact .some (.nil L u 0)
  obtain ⟨L', hwrites, hheap', hstands⟩ :=
    Ledger.StandsFor.updates hupdates hwf hheap hstart hwindow
  have huser := hstands.users u trivial
  simp only [hl] at huser
  generalize L'.state _ _ u = y at huser
  obtain ⟨huser⟩ := huser
  have hend : 0 + es.length = L'.log.length := by rw [hwrites.log_eq, hlog, Nat.zero_add]
  rw [hend] at huser
  have hheap' : L'.heap = heap := hheap'
  refine ⟨huser.devices, fun p hp => ?_⟩
  obtain ⟨n, hn⟩ := getElem?_of_mem hp
  obtain ⟨y, -, hpointer⟩ := forall₂_getElem? huser.pointers hn
  rw [← hheap', hpointer.read_eq]
  exact hpointer.sorted

theorem Ledger.snapshotAt_genesis (h : makeGenesisSnapshot events Heap.empty = .ok (snapshot, heap))
    (hw : OrderlyWindow events) (L : Ledger) :
    L.SnapshotAt ((snapshot.clone heap).solicitationsNow Heap.empty) 0 (snapshot.clone heap) := by
  refine ⟨(makeGenesisSnapshot_joinedSet h).1.clone heap, Nat.zero_le _, fun u _ => ?_,
    fun u hu => absurd trivial hu⟩
  show Option.Rel _ _ ((snapshot.clone heap).solicitationsNow .empty u)
  rw [Snapshot.solicitationsNow, Snapshot.solicitations_clone]
  cases hl : snapshot.solicitations u with
  | none => exact .none
  | some l =>
    obtain ⟨hdevices, hids⟩ := makeGenesisSnapshot_solicitations h hw hl
    refine .some ⟨?_, ?_⟩
    · rw [forall₂_map_right_iff]
      refine forall₂_same.2 fun q hq => ?_
      obtain ⟨p, hp, rfl⟩ := mem_map.1 hq
      exact ⟨.refl _ _, hids p hp, by simp⟩
    · have hkeys : ∀ p : SolicitationPtr,
          (SolicitationPtr.own (p.read heap)).deviceKey = p.deviceKey :=
        fun p => p.read_deviceKey heap
      simpa [Function.comp_def, hkeys] using hdevices

end River.Node
