/-
  Two views of the same stored chain, in different objects.
-/

import River.Node.Events.RemoteView
import River.Node.Events.SharedLog

namespace River.Node

open River.Lib River.Lib.SortedList List Res Snapshot MiniblockHeader

/-! ## Snapshots without solicitations -/

def MemberSnapshot.bare (m : MemberSnapshot) : MemberSnapshot := { m with solicitations := [] }

def Snapshot.bare (s : Snapshot) : Snapshot :=
  { s with members := s.members.map fun ms => ms.map (·.bare) }

@[simp] theorem MemberSnapshot.bare_userAddress (m : MemberSnapshot) :
    m.bare.userAddress = m.userAddress := rfl

@[simp] theorem MemberSnapshot.bare_clone (heap : Heap) (m : MemberSnapshot) :
    (m.clone heap).bare = m.bare := rfl

@[simp] theorem Snapshot.bare_clone (heap : Heap) (s : Snapshot) :
    (s.clone heap).bare = s.bare := by
  simp [bare, clone, Function.comp_def]

@[simp] theorem Snapshot.bare_setContent (s : Snapshot) (c : SnapshotContent) :
    (s.setContent c).bare = s.bare.setContent c := rfl

@[simp] theorem Snapshot.bare_setJoined (s : Snapshot) (joined : List MemberSnapshot) :
    (s.setJoined joined).bare = s.bare.setJoined (joined.map (·.bare)) := rfl

variable {s s' : Snapshot}

theorem Snapshot.content_eq_of_bare (h : s.bare = s'.bare) : s.content = s'.content :=
  (congrArg content h :)

theorem Snapshot.members_of_bare (h : s.bare = s'.bare) :
    (s.members = none ∧ s'.members = none) ∨
      ∃ joined joined', s.members = some joined ∧ s'.members = some joined' ∧
        joined.map (·.bare) = joined'.map (·.bare) := by
  have hmembers := congrArg members h
  simp only [bare] at hmembers
  cases hs : s.members <;> cases hs' : s'.members <;> simp_all

/-! ## Updates -/

abbrev SameBare : Snapshot × Heap → Snapshot × Heap → Prop := fun sh sh' => sh.1.bare = sh'.1.bare

theorem findMember_map_bare (ms : List MemberSnapshot) (address : Bytes) :
    findMember (ms.map (·.bare)) address = (findMember ms address).map (·.bare) :=
  findSorted_map (fun _ => rfl) ms address

theorem insertMember_map_bare (ms : List MemberSnapshot) (m : MemberSnapshot) :
    insertMember (ms.map (·.bare)) m.bare = (insertMember ms m).map (·.bare) :=
  insertSorted_map (fun _ => rfl) ms m

theorem removeMember_map_bare (ms : List MemberSnapshot) (address : Bytes) :
    removeMember (ms.map (·.bare)) address = (removeMember ms address).map (·.bare) :=
  removeSorted_map (fun _ => rfl) ms address

variable {f g : MemberSnapshot → MemberSnapshot}

theorem modifySorted_map_bare (hf : ∀ m, (f m).bare = g m.bare) (ms : List MemberSnapshot)
    (address : Bytes) :
    modifySorted (·.userAddress) (ms.map (·.bare)) address g =
      (modifySorted (·.userAddress) ms address f).map (·.bare) :=
  modifySorted_map (fun _ => rfl) hf ms address

theorem findMember_cases {joined joined' : List MemberSnapshot}
    (hjoined : joined.map (·.bare) = joined'.map (·.bare)) (address : Bytes) :
    (findMember joined address = none ∧ findMember joined' address = none) ∨
      ∃ m m', findMember joined address = some m ∧ findMember joined' address = some m' := by
  have hfind := congrArg (findMember · address) hjoined
  simp only [findMember_map_bare] at hfind
  cases hm : findMember joined address <;> cases hm' : findMember joined' address <;> simp_all

theorem updateMember_bare (h : s.bare = s'.bare) {joined joined' : List MemberSnapshot}
    (hjoined : joined.map (·.bare) = joined'.map (·.bare)) (address : Bytes)
    {f' : MemberSnapshot → MemberSnapshot} (hf : ∀ m, (f m).bare = g m.bare)
    (hf' : ∀ m, (f' m).bare = g m.bare) :
    Rel (fun t t' => t.bare = t'.bare) (updateMember s joined address f)
      (updateMember s' joined' address f') := by
  unfold updateMember
  obtain ⟨hm, hm'⟩ | ⟨m, _, hm, hm'⟩ := findMember_cases hjoined address
  · rw [hm, hm']
    exact rfl
  rw [hm, hm']
  show (s.setJoined _).bare = (s'.setJoined _).bare
  rw [bare_setJoined, bare_setJoined, h, ← modifySorted_map_bare hf,
    ← modifySorted_map_bare hf', hjoined]

theorem updateSnapshotMember_bare (h : s.bare = s'.bare) (heap heap' : Heap) (p : MemberPayload)
    (ref ref' : Nat) (creatorAddress : Bytes) (miniblockNum eventNum : Int) (eventHash : Bytes) :
    Rel SameBare
      (updateSnapshotMember s heap p ref creatorAddress miniblockNum eventNum eventHash)
      (updateSnapshotMember s' heap' p ref' creatorAddress miniblockNum eventNum eventHash) := by
  unfold updateSnapshotMember
  obtain ⟨hs, hs'⟩ | ⟨joined, joined', hs, hs', hjoined⟩ := members_of_bare h
  · rw [hs, hs']
    exact rfl
  rw [hs, hs']
  -- the five events that write a field of one member
  have hupdate : ∀ {f f' g : MemberSnapshot → MemberSnapshot}, (∀ m, (f m).bare = g m.bare) →
      (∀ m, (f' m).bare = g m.bare) →
      Rel SameBare (updateMember s joined creatorAddress f >>= fun t => .ok (t, heap))
        (updateMember s' joined' creatorAddress f' >>= fun t => .ok (t, heap')) :=
    fun hf hf' => (updateMember_bare h hjoined creatorAddress hf hf').bind fun t t' ht => ht
  cases p with
  | membership m =>
    obtain ⟨op, -, -⟩ := m
    cases op with
    | join =>
      show (s.setJoined _).bare = (s'.setJoined _).bare
      rw [bare_setJoined, bare_setJoined, h, ← insertMember_map_bare,
        ← insertMember_map_bare, hjoined]
    | leave =>
      show (s.setJoined _).bare = (s'.setJoined _).bare
      rw [bare_setJoined, bare_setJoined, h, ← removeMember_map_bare,
        ← removeMember_map_bare, hjoined]
    | invite => exact h
    | _ => exact rfl
  | keySolicitation ks => exact hupdate (g := id) (fun _ => rfl) (fun _ => rfl)
  | keyFulfillment kf =>
    simp only
    obtain ⟨hm, hm'⟩ | ⟨m, _, hm, hm'⟩ := findMember_cases hjoined kf.userAddress
    · rw [hm, hm']
      exact rfl
    rw [hm, hm']
    have hbare : ∀ (l : List SolicitationPtr) (m : MemberSnapshot),
        ({ m with solicitations := l } : MemberSnapshot).bare = id m.bare := fun _ _ => rfl
    show (s.setJoined _).bare = (s'.setJoined _).bare
    rw [bare_setJoined, bare_setJoined, h, ← modifySorted_map_bare (hbare _),
      ← modifySorted_map_bare (hbare _), hjoined]
  | displayName data =>
    exact hupdate (g := fun m => { m with displayName := some ⟨data, eventNum, eventHash⟩ })
      (fun _ => rfl) (fun _ => rfl)
  | username data =>
    exact hupdate (g := fun m => { m with username := some ⟨data, eventNum, eventHash⟩ })
      (fun _ => rfl) (fun _ => rfl)
  | ensAddress address =>
    exact hupdate (g := fun m => { m with ensAddress := address }) (fun _ => rfl) (fun _ => rfl)
  | nft nft =>
    exact hupdate (g := fun m => { m with nft := some nft }) (fun _ => rfl) (fun _ => rfl)
  | unset => exact rfl

variable {e e' : ParsedEvent}

theorem updateMigratedSnapshot_bare (h : s.bare = s'.bare) (heap heap' : Heap)
    (he : e.SameContent e') (miniblockNum eventNum : Int) :
    Rel SameBare (updateMigratedSnapshot s heap e miniblockNum eventNum)
      (updateMigratedSnapshot s' heap' e' miniblockNum eventNum) := by
  have hcontent := content_eq_of_bare h
  have hset : ∀ c, (s.setContent c).bare = (s'.setContent c).bare := fun c => by
    rw [bare_setContent, bare_setContent, h]
  unfold updateMigratedSnapshot
  rw [← he.event, ← he.hash]
  cases e.event.payload with
  | member p => exact updateSnapshotMember_bare h heap heap' p _ _ _ _ _ _
  | media p => exact rfl
  | miniblockHeader p => exact rfl
  | unset => exact rfl
  | _ p =>
    refine .bind ?_ fun t t' ht => ht
    simp only [updateSnapshotSpace, updateSnapshotChannel, updateSnapshotDmChannel,
      updateSnapshotGdmChannel, updateSnapshotUser, updateSnapshotUserSettings,
      updateSnapshotUserDeviceKey, updateSnapshotUserInbox]
    rw [← hcontent]
    cases s.content <;> cases p <;> first | exact rfl | exact h | exact hset _

structure Snapshot.Alike (s s' : Snapshot) : Prop where
  left : s.WellFormed
  right : s'.WellFormed
  bare : s.bare = s'.bare

theorem updateSnapshot_alike (h : s.Alike s') (heap heap' : Heap) (he : e.SameContent e')
    (miniblockNum eventNum : Int) :
    Rel (fun r r' => r.1.1.Alike r'.1.1) (updateSnapshot s heap e miniblockNum eventNum)
      (updateSnapshot s' heap' e' miniblockNum eventNum) := by
  have hbare : Rel (fun r r' => r.1.1.bare = r'.1.1.bare)
      (updateSnapshot s heap e miniblockNum eventNum)
      (updateSnapshot s' heap' e' miniblockNum eventNum) := by
    have hupdate := updateMigratedSnapshot_bare h.bare heap heap' he miniblockNum eventNum
    unfold updateSnapshot
    rw [h.left.migrateSnapshot, h.right.migrateSnapshot, ok_bind, ok_bind]
    generalize updateMigratedSnapshot s heap e miniblockNum eventNum = x,
      updateMigratedSnapshot s' heap' e' miniblockNum eventNum = y at hupdate
    cases x <;> cases y <;> first | exact hupdate | exact h.bare | exact hupdate.elim
  refine hbare.withEq.imp ?_
  rintro ⟨_, _⟩ ⟨_, _⟩ ⟨heq, hs, hs'⟩
  exact ⟨(updateSnapshot_stepped h.left hs).wellFormed,
    (updateSnapshot_stepped h.right hs').wellFormed,
    heq⟩

theorem Snapshot.Alike.clone_eq (h : s.Alike s')
    (hsolicitations : ∀ u, s.solicitationsNow heap u = s'.solicitationsNow heap' u) :
    s.clone heap = s'.clone heap' := by
  obtain ⟨joined, hjoined, hasc⟩ := h.left.members
  obtain ⟨joined', hjoined', hasc'⟩ := h.right.members
  have hbare : joined.map (·.bare) = joined'.map (·.bare) := by
    have hmembers : s.bare.members = s'.bare.members := by rw [h.bare]
    simpa [Snapshot.bare, hjoined, hjoined'] using hmembers
  -- the members stand at the same positions, and a member's solicitations are found by address
  have hmember : ∀ {m m' : MemberSnapshot}, m ∈ joined → m' ∈ joined' → m.bare = m'.bare →
      m.clone heap = m'.clone heap' := by
    intro m m' hm hm' hmm'
    have haddress : m'.userAddress = m.userAddress := by
      rw [← m.bare_userAddress, hmm', m'.bare_userAddress]
    have hread := hsolicitations m.userAddress
    have hlookup' := hasc'.lookup_of_mem hm'
    rw [haddress] at hlookup'
    simp only [Snapshot.solicitationsNow, Snapshot.solicitations, hjoined, hjoined',
      Option.getD_some, hasc.lookup_of_mem hm, hlookup', Option.map_some,
        Option.some.injEq] at hread
    have hown : ∀ (heap : Heap) (m : MemberSnapshot), m.clone heap =
        { m.bare with solicitations := (m.solicitations.map (·.read heap)).map .own } := by
      intro heap m
      rw [map_map]
      rfl
    rw [hown, hown, hmm', hread]
  have hclone : joined.map (·.clone heap) = joined'.map (·.clone heap') := by
    refine ext_getElem? fun i => ?_
    have hi := congrArg (·[i]?) hbare
    simp only [getElem?_map] at hi ⊢
    cases hm : joined[i]? with
    | none => simp_all
    | some m =>
      rw [hm, Option.map_some, eq_comm, Option.map_eq_some_iff] at hi
      obtain ⟨m', hm', hmm'⟩ := hi
      rw [hm', Option.map_some, Option.map_some, Option.some.injEq]
      exact hmember (mem_of_getElem? hm) (mem_of_getElem? hm') hmm'.symm
  have hrest : ∀ (s : Snapshot) (heap : Heap) (joined : List MemberSnapshot), s.members =
      some joined →
      s.clone heap = { s.bare with members := some (joined.map (·.clone heap)) } := by
    intro s heap joined hs
    simp [Snapshot.clone, Snapshot.bare, hs]
  rw [hrest s heap joined hjoined, hrest s' heap' joined' hjoined', h.bare, hclone]

/-! ## Blocks -/

theorem sameContent_of_envelopes (h : es.map (·.envelope) = es'.map (·.envelope))
    (hes : ∀ e ∈ es, e.Decoded C) (hes' : ∀ e ∈ es', e.Decoded C) :
    Forall₂ ParsedEvent.SameContent es es' := by
  have hboth : Forall₂ (fun e envelope => e.envelope = envelope ∧ e.Decoded C) es
      (es.map (·.envelope)) :=
    forall₂_map_right_iff.2 (forall₂_same.2 fun e he => ⟨rfl, hes e he⟩)
  have hboth' : Forall₂ (fun e envelope => e.envelope = envelope ∧ e.Decoded C) es'
      (es.map (·.envelope)) := by
    rw [h]
    exact forall₂_map_right_iff.2 (forall₂_same.2 fun e he => ⟨rfl, hes' e he⟩)
  refine forall₂_common hboth hboth' ?_
  rintro e _ envelope ⟨rfl, hdecoded⟩ ⟨henvelope, hdecoded'⟩
  rw [ParsedEvent.Decoded, henvelope] at hdecoded'
  exact ⟨ok.inj (hdecoded.symm.trans hdecoded'), henvelope.symm⟩

def MiniblockHeader.bare (h : MiniblockHeader) : MiniblockHeader :=
  { h with snapshot := h.snapshot.map (·.bare) }

structure MiniblockInfo.Twin (b b' : MiniblockInfo) : Prop where
  hash : b.hash = b'.hash
  header : b.header.bare = b'.header.bare
  events : Forall₂ ParsedEvent.SameContent b.events b'.events

namespace MiniblockInfo.Twin

variable {b b' : MiniblockInfo} (h : b.Twin b')

include h

theorem miniblockNum : b.header.miniblockNum = b'.header.miniblockNum :=
  (congrArg MiniblockHeader.miniblockNum h.header :)

theorem eventNumOffset : b.header.eventNumOffset = b'.header.eventNumOffset :=
  (congrArg MiniblockHeader.eventNumOffset h.header :)

theorem timestamp : b.header.timestamp = b'.header.timestamp :=
  (congrArg MiniblockHeader.timestamp h.header :)

theorem prevSnapshotMiniblockNum :
    b.header.prevSnapshotMiniblockNum = b'.header.prevSnapshotMiniblockNum :=
  (congrArg MiniblockHeader.prevSnapshotMiniblockNum h.header :)

theorem snapshot : b.header.snapshot.map (·.bare) = b'.header.snapshot.map (·.bare) :=
  (congrArg MiniblockHeader.snapshot h.header :)

theorem isSome_snapshot : b.header.snapshot.isSome = b'.header.snapshot.isSome := by
  have hsome := congrArg Option.isSome h.snapshot
  rw [Option.isSome_map, Option.isSome_map] at hsome
  exact hsome

theorem length_events : b.events.length = b'.events.length := h.events.length_eq

end MiniblockInfo.Twin

/-! ## Views -/

namespace StreamView

structure Twin (v v' : StreamView) : Prop where
  streamId : v.streamId = v'.streamId
  blocks : Forall₂ MiniblockInfo.Twin (v.blocks.drop v.snapshotIndex)
    (v'.blocks.drop v'.snapshotIndex)
  generation : v.minipool.generation = v'.minipool.generation
  minipool : v.minipool.events.SameContent v'.minipool.events
  hashLength : ∀ e ∈ v.minipool.events.values, e.hash.length = 32
  atIndex : v.SnapshotAtIndex
  atIndex' : v'.SnapshotAtIndex

theorem SnapshotAtIndex.header {v : StreamView} (h : v.SnapshotAtIndex) :
    ∃ b, v.blocks[v.snapshotIndex]? = some b ∧ b.header.snapshot = some v.snapshot.value := by
  obtain ⟨b, hb, hsnapshot⟩ := Option.bind_eq_some_iff.1 (snapshotAtIndex_iff.1 h)
  obtain ⟨s, hs, hptr⟩ := Option.map_eq_some_iff.1 hsnapshot
  exact ⟨b, hb, by rw [hs, ← hptr]⟩

theorem memberIds_map_bare (ms : List MemberSnapshot) (members : Finset Bytes) :
    memberIds (ms.map (·.bare)) members = memberIds ms members := by
  induction ms generalizing members with
  | nil => rfl
  | cons m ms ih =>
    rw [memberIds]
    exact congrArg _ (funext fun userId => ih _)

theorem enoughEvents_twin (minEventsPerSnapshot : Int) (h : Forall₂ MiniblockInfo.Twin bs bs')
    (count : Int) :
    enoughEvents minEventsPerSnapshot bs count = enoughEvents minEventsPerSnapshot bs' count := by
  induction h generalizing count with
  | nil => rfl
  | cons hb _ ih => rw [enoughEvents, enoughEvents, hb.isSome_snapshot, hb.length_events, ih]

theorem enoughEvents_append (minEventsPerSnapshot : Int) (bs : List MiniblockInfo)
    {b : MiniblockInfo} (hb : b.header.snapshot.isSome = true) (rest : List MiniblockInfo)
    (count : Int) :
    enoughEvents minEventsPerSnapshot (bs ++ b :: rest) count =
      enoughEvents minEventsPerSnapshot (bs ++ [b]) count := by
  induction bs generalizing count with
  | nil => rw [nil_append, nil_append, enoughEvents, enoughEvents, if_pos hb, if_pos hb]
  | cons b' bs ih =>
    rw [cons_append, cons_append, enoughEvents, enoughEvents, ih]

theorem enoughEvents_blocks {v : StreamView} (h : v.SnapshotAtIndex)
    (minEventsPerSnapshot count : Int) :
    enoughEvents minEventsPerSnapshot v.blocks.reverse count =
      enoughEvents minEventsPerSnapshot (v.blocks.drop v.snapshotIndex).reverse count := by
  obtain ⟨b, hb, hs⟩ := h.header
  have hsome : b.header.snapshot.isSome = true := by rw [hs]; rfl
  have hdrop : v.blocks.drop v.snapshotIndex = b :: v.blocks.drop (v.snapshotIndex + 1) := by
    obtain ⟨hlt, rfl⟩ := List.getElem?_eq_some_iff.1 hb
    exact drop_eq_getElem_cons hlt
  have hblocks : v.blocks.reverse = (v.blocks.drop (v.snapshotIndex + 1)).reverse ++
      b :: (v.blocks.take v.snapshotIndex).reverse := by
    conv_lhs => rw [← take_append_drop v.snapshotIndex v.blocks, hdrop]
    simp
  rw [hblocks, enoughEvents_append _ _ hsome, hdrop, reverse_cons]

namespace Twin

variable {v v' : StreamView} (h : v.Twin v')

include h

theorem snapshot : v.snapshot.value.bare = v'.snapshot.value.bare := by
  obtain ⟨b, hb, hs⟩ := h.atIndex.header
  obtain ⟨_, hb', hs'⟩ := h.atIndex'.header
  have hfirst : (v.blocks.drop v.snapshotIndex)[0]? = some b := by
    rw [getElem?_drop]
    exact hb
  obtain ⟨_, hb1, htwin⟩ := forall₂_getElem? h.blocks hfirst
  rw [getElem?_drop, Nat.add_zero, hb', Option.some.injEq] at hb1
  subst hb1
  have hbare := htwin.snapshot
  rw [hs, hs', Option.map_some, Option.map_some, Option.some.injEq] at hbare
  exact hbare

theorem lastBlock : v.lastBlock.Twin v'.lastBlock := by
  have hlast : ∀ v : StreamView, (v.blocks.drop v.snapshotIndex).getLast? = some v.lastBlock := by
    intro v
    rw [getLast?_drop, if_neg (Nat.not_le.2 v.snapshotIndex_lt)]
    exact getLast?_eq_some_getLast v.blocks_ne
  have hget := hlast v
  rw [getLast?_eq_getElem?] at hget
  obtain ⟨b, hb, htwin⟩ := forall₂_getElem? h.blocks hget
  rw [h.blocks.length_eq, ← getLast?_eq_getElem?, hlast v', Option.some.injEq] at hb
  rw [hb]
  exact htwin

theorem laterBlocks :
    Forall₂ MiniblockInfo.Twin (v.blocks.drop (v.snapshotIndex + 1))
      (v'.blocks.drop (v'.snapshotIndex + 1)) := by
  rw [← drop_drop, ← drop_drop]
  exact forall₂_drop 1 h.blocks

theorem window : Forall₂ ParsedEvent.SameContent v.window v'.window := by
  refine rel_append ?_ h.minipool
  exact rel_flatMap h.laterBlocks fun _ _ hb => hb.events

theorem len : v.minipool.events.len = v'.minipool.events.len := by
  exact h.minipool.length_eq

theorem minipoolEnvelopes : v.minipoolEnvelopes = v'.minipoolEnvelopes := by
  have heq : Forall₂ (· = ·) v.minipoolEnvelopes v'.minipoolEnvelopes :=
    forall₂_map_left_iff.2 (forall₂_map_right_iff.2
      (h.minipool.imp fun _ _ he => he.envelope))
  rw [forall₂_eq_eq_eq] at heq
  exact heq

theorem syncCookie (localNodeAddress : Bytes) :
    v.syncCookie localNodeAddress = v'.syncCookie localNodeAddress := by
  unfold StreamView.syncCookie
  rw [h.streamId, h.generation, h.len, h.lastBlock.hash]

/-! ## Queries -/

theorem foldlM_window {σ : Type} {op : σ → ParsedEvent → Res σ}
    (hop : ∀ s e e', e.SameContent e' → op s e = op s e') (s : σ) :
    v.replay.events.foldlM op s = v'.replay.events.foldlM op s :=
  foldlM_sameContent hop h.window s

theorem joined :
    Rel (fun ms ms' => ms.map (·.bare) = ms'.map (·.bare)) v.replay.joined v'.replay.joined := by
  unfold Replay.joined replay
  obtain ⟨hs, hs'⟩ | ⟨joined, _, hs, hs', hjoined⟩ := members_of_bare h.snapshot <;>
    simp only [hs, hs']
  · exact rfl
  · exact hjoined

theorem getMembership (userAddress : Bytes) :
    v.getMembership userAddress = v'.getMembership userAddress := by
  rw [v.getMembership_eq_replay, v'.getMembership_eq_replay]
  refine rel_eq.1 (h.joined.bind fun ms ms' hms => rel_eq.2 ?_)
  have hfind : (findMember ms userAddress).isSome = (findMember ms' userAddress).isSome := by
    have hsome := congrArg (fun ms => (findMember ms userAddress).isSome) hms
    simp only [findMember_map_bare, Option.isSome_map] at hsome
    exact hsome
  rw [hfind]
  refine h.foldlM_window (fun s e e' he => ?_) _
  unfold membershipOp
  rw [he.event]

theorem getChannelMembers : v.getChannelMembers = v'.getChannelMembers := by
  rw [v.getChannelMembers_eq_replay, v'.getChannelMembers_eq_replay]
  refine rel_eq.1 (h.joined.bind fun ms ms' hms => rel_eq.2 ?_)
  rw [← memberIds_map_bare ms, hms, memberIds_map_bare]
  refine congrArg _ (funext fun members => h.foldlM_window (fun s e e' he => ?_) _)
  unfold channelMembersOp
  rw [he.event]

theorem content : v.replay.snapshot.content = v'.replay.snapshot.content :=
  content_eq_of_bare h.snapshot

theorem getChannelInfo (channelId : StreamId) :
    v.getChannelInfo channelId = v'.getChannelInfo channelId := by
  rw [v.getChannelInfo_eq_replay, v'.getChannelInfo_eq_replay, Replay.getChannelInfo,
    Replay.getChannelInfo, h.content]
  cases v'.replay.snapshot.content with
  | space c =>
    refine h.foldlM_window (fun s e e' he => ?_) _
    unfold channelInfoOp
    rw [he.event]
  | _ => rfl

theorem getUserMembership (streamId : StreamId) :
    v.getUserMembership streamId = v'.getUserMembership streamId := by
  rw [v.getUserMembership_eq_replay, v'.getUserMembership_eq_replay, Replay.getUserMembership,
    Replay.getUserMembership, h.content]
  cases v'.replay.snapshot.content with
  | user c =>
    refine h.foldlM_window (fun s e e' he => ?_) _
    unfold userMembershipOp
    rw [he.event]
  | _ => rfl

theorem sameAnswers : v.SameAnswers v' where
  isMember userAddress := by rw [isMember, isMember, h.getMembership]
  getChannelMembers := h.getChannelMembers
  getChannelInfo := h.getChannelInfo
  getUserMembership := h.getUserMembership

/-! ## Proposals -/

theorem shouldSnapshot (cfg : StreamConfig) : v.shouldSnapshot cfg = v'.shouldSnapshot cfg := by
  unfold StreamView.shouldSnapshot getMinEventsPerSnapshot
  rw [h.streamId, h.len]
  simp only [enoughEvents_blocks h.atIndex, enoughEvents_blocks h.atIndex',
    enoughEvents_twin _ (rel_reverse h.blocks)]

theorem proposeNextMiniblock (cfg : StreamConfig) (forceSnapshot : Bool) :
    v.proposeNextMiniblock cfg forceSnapshot = v'.proposeNextMiniblock cfg forceSnapshot := by
  unfold StreamView.proposeNextMiniblock
  rw [h.len, h.minipool.hashes, h.generation, h.lastBlock.hash, h.shouldSnapshot]

theorem prevSnapshotMiniblockNum : v.prevSnapshotMiniblockNum = v'.prevSnapshotMiniblockNum := by
  unfold StreamView.prevSnapshotMiniblockNum
  rw [h.lastBlock.isSome_snapshot, h.lastBlock.miniblockNum, h.lastBlock.prevSnapshotMiniblockNum]

theorem nextEventNumOffset : v.nextEventNumOffset = v'.nextEventNumOffset := by
  unfold StreamView.nextEventNumOffset
  rw [h.lastBlock.eventNumOffset, h.lastBlock.length_events]

end Twin

/-! ## The next snapshot -/

variable {sh sh' : Snapshot × Heap}

theorem updateSnapshotWith_alike (hes : Forall₂ ParsedEvent.SameContent es es')
    (miniblockNum n : Int) (h : sh.1.Alike sh'.1) :
    Rel (fun sh sh' => sh.1.Alike sh'.1) (updateSnapshotWith miniblockNum es n sh)
      (updateSnapshotWith miniblockNum es' n sh') := by
  induction hes generalizing n sh sh' with
  | nil => exact h
  | cons he _ ih =>
    exact (updateSnapshot_alike h _ _ he _ _).bind fun r r' hr => ih (n + 1) hr

theorem updateSnapshotWithBlocks_alike (hbs : Forall₂ MiniblockInfo.Twin bs bs')
    (h : sh.1.Alike sh'.1) :
    Rel (fun sh sh' => sh.1.Alike sh'.1) (updateSnapshotWithBlocks bs sh)
      (updateSnapshotWithBlocks bs' sh') := by
  induction hbs generalizing sh sh' with
  | nil => exact h
  | cons hb _ ih =>
    rw [updateSnapshotWithBlocks, hb.miniblockNum, hb.eventNumOffset]
    exact (updateSnapshotWith_alike hb.events _ _ h).bind fun sh sh' hsh => ih hsh

theorem Twin.nextSnapshot {v v' : StreamView} (h : v.Twin v') (hwf : v.snapshot.value.WellFormed)
    (hwf' : v'.snapshot.value.WellFormed) (heap : Heap) :
    Rel (fun sh sh' => sh.1.Alike sh'.1) (v.nextSnapshot heap v.minipool.events.values)
      (v'.nextSnapshot heap v'.minipool.events.values) := by
  have hstart : (v.snapshot.value.clone heap).Alike (v'.snapshot.value.clone heap) := by
    refine ⟨hwf.clone heap, hwf'.clone heap, ?_⟩
    rw [bare_clone, bare_clone, h.snapshot]
  unfold StreamView.nextSnapshot
  rw [h.lastBlock.miniblockNum, h.nextEventNumOffset]
  exact (updateSnapshotWithBlocks_alike h.laterBlocks hstart).bind fun sh sh' hsh =>
    updateSnapshotWith_alike h.minipool _ _ hsh

/-! ## The next header -/

def writtenHeader (v : StreamView) (heap : Heap) (proposal : MiniblockProposal) (now : Timestamp) :
    Res (MiniblockHeader × List Envelope) := do
  let ((header, events), heap) ← v.makeMiniblockHeader heap proposal now
  .ok (header.resolve heap, events.map (·.envelope))

def writtenSnapshot (v : StreamView) (heap : Heap) (shouldSnapshot : Bool) :
    Res (Option Snapshot) :=
  if shouldSnapshot then do
    let sh ← v.nextSnapshot heap v.minipool.events.values
    .ok (some (sh.1.clone sh.2))
  else .ok none

theorem writtenHeader_eq {v : StreamView} (h : ∀ e ∈ v.minipool.events.values, e.hash.length = 32)
    (heap : Heap) (shouldSnapshot : Bool) (now : Timestamp) :
    v.writtenHeader heap ⟨v.minipool.events.hashes, v.minipool.generation, v.lastBlock.hash,
        shouldSnapshot⟩ now = (do
      let snapshot ← v.writtenSnapshot heap shouldSnapshot
      .ok (⟨v.lastBlock.header.miniblockNum + 1, v.lastBlock.hash,
        some (nextMiniblockTimestamp v.lastBlock.header.timestamp now), v.minipool.events.hashes,
        snapshot, v.nextEventNumOffset, v.prevSnapshotMiniblockNum⟩, v.minipoolEnvelopes)) := by
  unfold writtenHeader makeMiniblockHeader writtenSnapshot
  have hproposed : proposedEvents v.minipool.events v.minipool.events.hashes = .ok _ :=
    proposedEvents_append (append_nil _).symm h
  rw [if_neg (by simp), hproposed, ok_bind]
  cases shouldSnapshot with
  | false => rfl
  | true =>
    cases v.nextSnapshot heap v.minipool.events.values <;> rfl

section WholeLog

variable {v v' : StreamView} {L : Ledger} {base : Bytes → Option (List KeySolicitation)}
  {k k' : Nat} (h : v.Twin v') (hat : L.ViewAt base k v) (hat' : L.ViewAt base k' v')
  (hend : k + v.window.length = L.log.length) (hend' : k' + v'.window.length = L.log.length)

include h hat hat' hend hend'

theorem Twin.nextSnapshot_content :
    Rel (fun sh sh' => sh.1.clone sh.2 = sh'.1.clone sh'.2)
      (v.nextSnapshot L.heap v.minipool.events.values)
      (v'.nextSnapshot L.heap v'.minipool.events.values) := by
  -- what the solicitations of a next snapshot read as
  have hsolicitations : ∀ {v : StreamView} {k : Nat}, L.ViewAt base k v →
      k + v.window.length = L.log.length → ∀ {s : Snapshot} {heap : Heap},
      v.nextSnapshot L.heap v.minipool.events.values = .ok (s, heap) →
        ∀ u, s.solicitationsNow heap u = L.state base L.log.length u := by
    intro v k hat hend s heap hnext u
    obtain ⟨_, hwrites, rfl, n, hn, hsnapshot⟩ :=
      hat.nextSnapshot (append_nil v.minipool.events.values).symm hnext
    rw [hend, ← hwrites.log_eq] at hn
    subst hn
    rw [hsnapshot.solicitationsNow u]
    unfold Ledger.state
    rw [hwrites.log_eq]
  have halike := h.nextSnapshot hat.snapshot.wellFormed hat'.snapshot.wellFormed L.heap
  refine halike.withEq.imp ?_
  rintro ⟨s, heap⟩ ⟨_, _⟩ ⟨hs, hnext, hnext'⟩
  refine hs.clone_eq fun u => ?_
  rw [hsolicitations hat hend hnext, hsolicitations hat' hend' hnext']

theorem Twin.writtenSnapshot (shouldSnapshot : Bool) :
    v.writtenSnapshot L.heap shouldSnapshot = v'.writtenSnapshot L.heap shouldSnapshot := by
  cases shouldSnapshot with
  | false => rfl
  | true =>
    apply rel_eq.1
    exact (h.nextSnapshot_content hat hat' hend hend').bind fun sh sh' hsh => congrArg some hsh

theorem Twin.writtenHeader
    (hproposal : v.proposeNextMiniblock cfg forceSnapshot = some proposal) (now : Timestamp) :
    v.writtenHeader L.heap proposal now = v'.writtenHeader L.heap proposal now := by
  have hlength' : ∀ e ∈ v'.minipool.events.values, e.hash.length = 32 := by
    intro e' he'
    obtain ⟨i, hi⟩ := getElem?_of_mem he'
    obtain ⟨e, he, hsame⟩ := forall₂_getElem? h.minipool.flip hi
    rw [← hsame.hash]
    exact h.hashLength e (mem_of_getElem? he)
  unfold StreamView.proposeNextMiniblock at hproposal
  split at hproposal
  · cases hproposal
  rw [Option.some.injEq] at hproposal
  subst hproposal
  rw [writtenHeader_eq h.hashLength, h.minipool.hashes, h.generation, h.lastBlock.hash,
    writtenHeader_eq hlength', h.writtenSnapshot hat hat' hend hend', h.lastBlock.miniblockNum,
    h.lastBlock.timestamp, h.nextEventNumOffset, h.prevSnapshotMiniblockNum, h.minipoolEnvelopes]

end WholeLog

end StreamView

end River.Node
