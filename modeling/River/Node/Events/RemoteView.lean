/-
  The view of a remote stream against the view of the same data in storage.

  The two loops choose different snapshots as soon as a block after the first carries one.
-/

import River.Node.Events.Chain
import River.Node.Events.ViewState

namespace River.Node

open List MiniblockInfo Crypto

/-! ## Parsing the same bytes twice -/

structure ParsedEvent.SameContent (e e' : ParsedEvent) : Prop where
  event : e.event = e'.event
  envelope : e.envelope = e'.envelope

structure MiniblockInfo.SameContent (b b' : MiniblockInfo) : Prop where
  headerEvent : b.headerEvent.SameContent b'.headerEvent
  header : b.header = b'.header
  events : Forall₂ ParsedEvent.SameContent b.events b'.events

theorem ParsedEvent.SameContent.hash {e e' : ParsedEvent} (h : e.SameContent e') :
    e.hash = e'.hash := by
  unfold ParsedEvent.hash
  rw [h.envelope]

variable (C : Crypto)

theorem parseEvent_sameContent (envelope : Envelope) (ref ref' : Nat) :
    Res.Rel ParsedEvent.SameContent (parseEvent C envelope ref) (parseEvent C envelope ref') := by
  unfold parseEvent
  cases authenticate C envelope with
  | ok event => exact ⟨rfl, rfl⟩
  | _ => rfl

variable (envelopes : List Envelope)

theorem parseEvents_sameContent (ref ref' : Nat) : Res.Rel (Forall₂ ParsedEvent.SameContent)
      (parseEvents C envelopes ref) (parseEvents C envelopes ref') := by
  induction envelopes generalizing ref ref' with
  | nil => exact .nil
  | cons envelope envelopes ih =>
    refine (parseEvent_sameContent C envelope ref ref').bind fun e e' he => ?_
    refine (ih (ref + 1) (ref' + 1)).bind fun es es' hes => ?_
    exact .cons he hes

theorem newMiniblockInfoFromProto_sameContent (pb : Miniblock)
    (opts : NewMiniblockInfoFromProtoOpts) (ref ref' : Nat) :
    Res.Rel SameContent (newMiniblockInfoFromProto C pb opts ref)
      (newMiniblockInfoFromProto C pb opts ref') := by
  have hevents : Res.Rel (Forall₂ ParsedEvent.SameContent)
      (parseBlockEvents C pb opts (ref + 1)) (parseBlockEvents C pb opts (ref' + 1)) := by
    unfold parseBlockEvents
    split
    · exact .nil
    · exact parseEvents_sameContent C pb.events (ref + 1) (ref' + 1)
  refine (parseEvent_sameContent C pb.header ref ref').bind fun e e' he => ?_
  obtain ⟨event, _, r⟩ := e
  obtain ⟨rfl, rfl⟩ := he
  -- both calls now look at the payload of one event
  simp only
  split
  · split
    · exact rfl
    · refine hevents.bind fun es es' hes => ?_
      exact ⟨⟨rfl, rfl⟩, rfl, hes⟩
  · exact rfl

theorem parseMiniblocks_sameContent (pbs : List Miniblock) (n : Int) (ref ref' : Nat) :
    Res.Rel (Forall₂ SameContent)
      (parseMiniblocks C pbs n ref) (parseMiniblocks C pbs n ref') := by
  induction pbs generalizing n ref ref' with
  | nil => exact .nil
  | cons pb pbs ih =>
    refine (newMiniblockInfoFromProto_sameContent C pb _ ref ref').bind fun b b' hb => ?_
    rw [hb.header]
    refine (ih _ (ref + pb.refCount) (ref' + pb.refCount)).bind fun bs bs' hbs => ?_
    exact .cons hb hbs

def EventMap.SameContent (m m' : EventMap) : Prop :=
  Forall₂ ParsedEvent.SameContent m.values m'.values

variable {m m' : EventMap}

theorem EventMap.SameContent.hashes (h : m.SameContent m') : m.hashes = m'.hashes := by
  have hmap : Forall₂ (· = ·) (m.values.map (·.hash)) (m'.values.map (·.hash)) :=
    forall₂_map_left_iff.2 (forall₂_map_right_iff.2 (h.imp fun _ _ he => he.hash))
  exact forall₂_eq_eq_eq ▸ hmap

theorem EventMap.set_sameContent {e e' : ParsedEvent} (hm : m.SameContent m')
    (he : e.SameContent e') : Res.Rel EventMap.SameContent (m.set e) (m'.set e') := by
  by_cases hmem : e.hash ∈ m.hashes
  · have hmem' : e'.hash ∈ m'.hashes := by rwa [← he.hash, ← hm.hashes]
    rw [EventMap.set_of_mem hmem, EventMap.set_of_mem hmem']
    rfl
  · have hmem' : e'.hash ∉ m'.hashes := by rwa [← he.hash, ← hm.hashes]
    obtain ⟨m1, hset, hvalues⟩ := EventMap.set_of_notMem hmem
    obtain ⟨m1', hset', hvalues'⟩ := EventMap.set_of_notMem hmem'
    rw [hset, hset']
    show Forall₂ _ m1.values m1'.values
    rw [hvalues, hvalues']
    exact rel_append hm (.cons he .nil)

theorem parseMinipool_sameContent (ref ref' : Nat) (hm : m.SameContent m') :
    Res.Rel EventMap.SameContent (parseMinipool C envelopes ref m)
      (parseMinipool C envelopes ref' m') := by
  induction envelopes generalizing ref ref' m m' with
  | nil => exact hm
  | cons envelope envelopes ih =>
    refine (parseEvent_sameContent C envelope ref ref').bind fun e e' he => ?_
    refine (EventMap.set_sameContent hm he).bind fun m1 m1' hm1 => ?_
    exact ih (ref + 1) (ref' + 1) hm1

/-! ## Queries -/

structure StreamView.SameContent (v w : StreamView) : Prop where
  blocks : Forall₂ MiniblockInfo.SameContent v.blocks w.blocks
  minipool : v.minipool.events.SameContent w.minipool.events
  snapshot : v.snapshot.value = w.snapshot.value
  snapshotIndex : v.snapshotIndex = w.snapshotIndex

/-- The views answer the same. -/
structure StreamView.SameAnswers (v w : StreamView) : Prop where
  isMember : ∀ userAddress, v.isMember userAddress = w.isMember userAddress
  getChannelMembers : v.getChannelMembers = w.getChannelMembers
  getChannelInfo : ∀ channelId, v.getChannelInfo channelId = w.getChannelInfo channelId
  getUserMembership : ∀ streamId, v.getUserMembership streamId = w.getUserMembership streamId

theorem MiniblockInfo.SameContent.allEvents {b b' : MiniblockInfo} (h : b.SameContent b') :
    Forall₂ ParsedEvent.SameContent b.allEvents b'.allEvents :=
  rel_append h.events (.cons h.headerEvent .nil)

theorem forall₂_allEvents (h : Forall₂ SameContent bs bs') :
    Forall₂ ParsedEvent.SameContent (bs.flatMap allEvents)
      (bs'.flatMap allEvents) := by
  induction h with
  | nil => exact .nil
  | cons hb _ ih =>
    exact rel_append hb.allEvents ih

variable {v w : StreamView}

theorem StreamView.SameContent.eventsFrom (h : v.SameContent w) (i : Nat) :
    Forall₂ ParsedEvent.SameContent (v.eventsFrom i) (w.eventsFrom i) :=
  rel_append (forall₂_allEvents (forall₂_drop i h.blocks)) h.minipool

theorem foldlM_sameContent {σ : Type} {op : σ → ParsedEvent → Res σ}
    (hop : ∀ s e e', e.SameContent e' → op s e = op s e')
    (h : Forall₂ ParsedEvent.SameContent es es') (s : σ) :
    es.foldlM op s = es'.foldlM op s := by
  induction h generalizing s with
  | nil => rfl
  | cons he _ ih =>
    rw [foldlM_cons, hop s _ _ he]
    exact congrArg _ (funext ih)

theorem StreamView.SameContent.foldState (h : v.SameContent w) {σ : Type}
    {op : σ → ParsedEvent → Res σ} (hop : ∀ s e e', e.SameContent e' → op s e = op s e') (s : σ) :
    v.foldState op s = w.foldState op s := by
  rw [v.foldState_eq, w.foldState_eq, h.snapshotIndex]
  exact foldlM_sameContent hop (h.eventsFrom _) s

theorem StreamView.SameContent.sameAnswers (h : v.SameContent w) : v.SameAnswers w where
  isMember userAddress := by
    unfold isMember getMembership joined
    rw [h.snapshot]
    refine congrArg (· >>= _) (congrArg _ (funext fun members => h.foldState ?_ _))
    intro s e e' he
    unfold membershipOp
    rw [he.event]
  getChannelMembers := by
    unfold getChannelMembers joined
    rw [h.snapshot]
    refine congrArg _ (funext fun joined => congrArg _ (funext fun members => h.foldState ?_ _))
    intro s e e' he
    unfold channelMembersOp
    rw [he.event]
  getChannelInfo channelId := by
    unfold getChannelInfo getSpaceSnapshotContent
    rw [h.snapshot]
    refine congrArg _ (funext fun snap => h.foldState ?_ _)
    intro s e e' he
    unfold channelInfoOp
    rw [he.event]
  getUserMembership streamId := by
    unfold getUserMembership getUserSnapshotContent
    rw [h.snapshot]
    refine congrArg _ (funext fun snap => h.foldState ?_ _)
    intro s e e' he
    unfold userMembershipOp
    rw [he.event]

/-! ## Which snapshot the constructors choose -/

variable {pbs : List Miniblock}

theorem parseMiniblocks_eq_ok {C : Crypto} {n : Int} {ref : Nat}
    (h : parseMiniblocks C pbs n ref = .ok bs) :
    bs.map (·.header.snapshot.isSome) = pbs.map Miniblock.hasSnapshot ∧
      (∀ b ∈ bs, ref ≤ b.headerEvent.ref) ∧
      bs.Pairwise (fun b b' => b.headerEvent.ref < b'.headerEvent.ref) := by
  induction pbs generalizing n ref bs with
  | nil =>
    cases h
    simp
  | cons pb pbs ih =>
    obtain ⟨b, hb, h⟩ := Res.bind_eq_ok.1 h
    obtain ⟨bs', hbs', h⟩ := Res.bind_eq_ok.1 h
    cases h
    obtain ⟨hsnap, hge, hpair⟩ := ih hbs'
    have href : b.headerEvent.ref = ref := by
      obtain ⟨hheader, -, -, -⟩ := newMiniblockInfoFromProto_eq_ok hb
      exact (parseEvent_eq_ok.1 hheader).2.2
    have hlt : ∀ b' ∈ bs', ref < b'.headerEvent.ref := by
      intro b' hb'
      have := hge b' hb'
      unfold Miniblock.refCount at this
      omega
    refine ⟨?_, ?_, ?_⟩
    · rw [map_cons, map_cons, hsnap, hasSnapshot_of_parsed hb]
    · intro b' hb'
      rcases mem_cons.1 hb' with rfl | hb'
      · exact href.ge
      · exact (hlt b' hb').le
    · rw [pairwise_cons]
      exact ⟨fun b' hb' => href.symm ▸ hlt b' hb', hpair⟩

theorem remoteSnapshotIndex_of_none (h : ∀ b ∈ bs, b.header.snapshot.isSome = false)
    (i snapshotIndex : Nat) :
    remoteSnapshotIndex bs i snapshotIndex = snapshotIndex := by
  induction bs generalizing i snapshotIndex with
  | nil => rfl
  | cons b bs ih =>
    rw [remoteSnapshotIndex, h b mem_cons_self]
    exact ih (fun b' hb' => h b' (mem_cons_of_mem _ hb')) (i + 1) snapshotIndex

theorem le_remoteSnapshotIndex (h : ∃ b ∈ bs, b.header.snapshot.isSome = true)
    (i snapshotIndex : Nat) :
    i ≤ remoteSnapshotIndex bs i snapshotIndex := by
  induction bs generalizing i snapshotIndex with
  | nil =>
    obtain ⟨b, hb, -⟩ := h
    exact absurd hb not_mem_nil
  | cons b bs ih =>
    rw [remoteSnapshotIndex]
    by_cases hrest : ∃ b' ∈ bs, b'.header.snapshot.isSome = true
    · have := ih hrest (i + 1) (if b.header.snapshot.isSome then i else snapshotIndex)
      omega
    have hnone : ∀ b' ∈ bs, b'.header.snapshot.isSome = false := by
      intro b' hb'
      exact Bool.eq_false_iff.2 fun hsome => hrest ⟨b', hb', hsome⟩
    obtain ⟨b', hb', hsome⟩ := h
    have hsome : b.header.snapshot.isSome = true := by
      rcases mem_cons.1 hb' with rfl | hb'
      · exact hsome
      · exact absurd ⟨b', hb', hsome⟩ hrest
    rw [remoteSnapshotIndex_of_none hnone, if_pos hsome]

structure BuiltAlike (v w : StreamView) : Prop where
  blocks : Forall₂ SameContent v.blocks w.blocks
  minipool : v.minipool.events.SameContent w.minipool.events
  snapshot : v.snapshot.value = w.snapshot.value
  indexLocal : v.snapshotIndex = 0
  indexRemote : w.snapshotIndex = remoteSnapshotIndex w.blocks 0 0
  atIndexLocal : v.SnapshotAtIndex
  headRemote : (w.blocks.head w.blocks_ne).snapshot? = some w.snapshot

theorem assembleStreamView_rel {bs' : List MiniblockInfo} {hne' : bs' ≠ []} {s s' : SnapshotPtr}
    {i' : Nat} {hlt : 0 < bs.length} {hlt' : i' < bs'.length} (ref ref' : Nat)
    (hbs : Forall₂ SameContent bs bs') (hs : s.value = s'.value)
    (hhead : (bs.get ⟨0, hlt⟩).snapshot? = some s) (hhead' : (bs'.head hne').snapshot? = some s')
    (hi' : i' = remoteSnapshotIndex bs' 0 0) :
    Res.Rel BuiltAlike (assembleStreamView C bs hne s 0 hlt envelopes ref)
      (assembleStreamView C bs' hne' s' i' hlt' envelopes ref') := by
  unfold assembleStreamView
  rw [hs]
  cases streamIdOfSnapshot s'.value with
  | ok streamId =>
    have hempty : EventMap.empty.SameContent .empty := .nil
    refine (parseMinipool_sameContent C envelopes ref ref' hempty).bind ?_
    intro m m' hm
    exact ⟨hbs, hm, hs, rfl, hi', hhead, hhead'⟩
  | _ => rfl

theorem makeStreamView_rel {pb : Miniblock} (hfirst : pb.hasSnapshot = true) (start : Int)
    (envelopes : List Envelope) (ref ref' : Nat) :
    Res.Rel BuiltAlike (makeStreamView C ⟨start, pb :: pbs, envelopes⟩ ref)
      (makeRemoteStreamView C (pb :: pbs) envelopes ref') := by
  refine (parseMiniblocks_sameContent C (pb :: pbs) (-2) ref ref').withEq.bind ?_
  rintro _ _ ⟨hrel, hbs, -⟩
  have hmap := (parseMiniblocks_eq_ok hbs).1
  cases hrel with
  | nil => simp at hmap
  | @cons b b' rest rest' hb hrest =>
    obtain ⟨s, hs⟩ : ∃ s, b.header.snapshot = some s := by
      rw [map_cons, map_cons, cons.injEq, hfirst] at hmap
      exact Option.isSome_iff_exists.1 hmap.1
    have hs' : b'.header.snapshot = some s := hb.header ▸ hs
    have hidx : (b :: rest).findIdx (·.header.snapshot.isSome) = 0 := by
      simp [findIdx_cons, hs]
    simp only [hidx, get_eq_getElem, getElem_cons_zero, snapshot?, hs, hs', head_cons]
    exact assembleStreamView_rel C envelopes _ _ (.cons hb hrest) rfl
      (by simp [snapshot?, hs]) (by simp [snapshot?, hs']) rfl

theorem makeRemoteStreamView_blocks {C : Crypto} {envelopes : List Envelope}
    (h : makeRemoteStreamView C pbs envelopes ref = .ok w) :
    parseMiniblocks C pbs (-2) ref = .ok w.blocks := by
  unfold makeRemoteStreamView at h
  split at h
  · simp [riverError] at h
  obtain ⟨_, hblocks, h⟩ := Res.bind_eq_ok.1 h
  split at h
  · simp at h
  split at h
  · simp [riverError] at h
  obtain ⟨_, -, h⟩ := Res.bind_eq_ok.1 h
  obtain ⟨_, -, h⟩ := Res.bind_eq_ok.1 h
  cases h
  exact hblocks

/-! ## Agreement -/

theorem BuiltAlike.agree (h : BuiltAlike v w)
    (hlater : ∀ b ∈ w.blocks.tail, b.header.snapshot.isSome = false) :
    v.SameAnswers w ∧ v.SnapshotAtIndex ∧ w.SnapshotAtIndex := by
  obtain ⟨_, _, hne, _, _, snapshotIndex, _⟩ := w
  obtain ⟨b, bs, rfl⟩ := exists_cons_of_ne_nil hne
  have hzero : snapshotIndex = 0 := by
    have hindex : snapshotIndex = remoteSnapshotIndex (b :: bs) 0 0 := h.indexRemote
    have hbs : ∀ b' ∈ bs, b'.header.snapshot.isSome = false := hlater
    rw [hindex, remoteSnapshotIndex, remoteSnapshotIndex_of_none hbs, ite_self]
  subst hzero
  exact ⟨StreamView.SameContent.sameAnswers ⟨h.blocks, h.minipool, h.snapshot, h.indexLocal⟩,
    h.atIndexLocal, h.headRemote⟩

theorem BuiltAlike.not_snapshotAtIndex (h : BuiltAlike v w)
    (hrefs : w.blocks.Pairwise fun b b' => b.headerEvent.ref < b'.headerEvent.ref)
    (hlater : ∃ b ∈ w.blocks.tail, b.header.snapshot.isSome = true) : ¬ w.SnapshotAtIndex := by
  obtain ⟨_, _, hne, _, snapshot, snapshotIndex, hlt⟩ := w
  obtain ⟨b, bs, rfl⟩ := exists_cons_of_ne_nil hne
  intro hat
  have hpos : 1 ≤ snapshotIndex := by
    have hindex : snapshotIndex = remoteSnapshotIndex (b :: bs) 0 0 := h.indexRemote
    rw [hindex]
    exact le_remoteSnapshotIndex hlater 1 _
  obtain ⟨i, rfl⟩ : ∃ i, snapshotIndex = i + 1 := ⟨snapshotIndex - 1, by omega⟩
  have hi : i < bs.length := Nat.lt_of_succ_lt_succ hlt
  -- the block at the index and block 0 would hold the same snapshot object
  have hhead : b.snapshot? = some snapshot := h.headRemote
  obtain ⟨s, -, hs⟩ := Option.map_eq_some_iff.1 hhead
  obtain ⟨_, -, hs'⟩ := Option.map_eq_some_iff.1 hat
  have href : b.headerEvent.ref = bs[i].headerEvent.ref := by
    have := hs.trans hs'.symm
    exact congrArg SnapshotPtr.ref this
  have hlt' := (pairwise_cons.1 hrefs).1 bs[i] (getElem_mem hi)
  omega

/-- For miniblocks whose first one has a snapshot, the two constructors succeed together,
    and the views they build agree, each with the snapshot of the block at its index,
    exactly when no later miniblock carries a snapshot. -/
theorem remoteView_agrees_iff (C : Crypto) (pb : Miniblock) (pbs : List Miniblock)
    (hfirst : pb.hasSnapshot = true) (start : Int) (envelopes : List Envelope) (ref ref' : Nat) :
    (makeStreamView C ⟨start, pb :: pbs, envelopes⟩ ref).isOk =
        (makeRemoteStreamView C (pb :: pbs) envelopes ref').isOk ∧
      ∀ v w, makeStreamView C ⟨start, pb :: pbs, envelopes⟩ ref = .ok v →
        makeRemoteStreamView C (pb :: pbs) envelopes ref' = .ok w →
        ((v.SameAnswers w ∧ v.SnapshotAtIndex ∧ w.SnapshotAtIndex) ↔
          ∀ pb' ∈ pbs, pb'.hasSnapshot = false) := by
  have hrel : Res.Rel BuiltAlike (makeStreamView C ⟨start, pb :: pbs, envelopes⟩ ref)
      (makeRemoteStreamView C (pb :: pbs) envelopes ref') :=
    makeStreamView_rel C hfirst start envelopes ref ref'
  refine ⟨hrel.isOk_eq, fun v w hv hw => ?_⟩
  have hbuilt : BuiltAlike v w := by
    rw [hv, hw] at hrel
    exact hrel
  obtain ⟨hsnap, -, hrefs⟩ := parseMiniblocks_eq_ok (makeRemoteStreamView_blocks hw)
  -- the later blocks carry snapshots where the later messages do
  have htail : w.blocks.tail.map (·.header.snapshot.isSome) = pbs.map Miniblock.hasSnapshot := by
    rw [map_tail, hsnap, map_cons, tail_cons]
  constructor
  · rintro ⟨-, -, hat⟩ pb' hpb'
    refine Bool.eq_false_iff.2 fun hsome => ?_
    have hmem : true ∈ w.blocks.tail.map (·.header.snapshot.isSome) := by
      rw [htail]
      exact mem_map.2 ⟨pb', hpb', hsome⟩
    obtain ⟨b, hb, hbsome⟩ := mem_map.1 hmem
    exact hbuilt.not_snapshotAtIndex hrefs ⟨b, hb, hbsome⟩ hat
  · intro hnone
    refine hbuilt.agree fun b hb => ?_
    have hmem : b.header.snapshot.isSome ∈ pbs.map Miniblock.hasSnapshot := by
      rw [← htail]
      exact mem_map.2 ⟨b, hb, rfl⟩
    obtain ⟨pb', hpb', heq⟩ := mem_map.1 hmem
    exact heq ▸ hnone pb' hpb'

-- A space in which one user joins in block 1.

def exampleUser : Bytes := replicate 20 7

def exampleInception : PlainInception :=
  ⟨StreamType.space.bin :: replicate 20 1 ++ replicate 11 0, none⟩

def exampleEnvelope (payload : Payload) (salt : Fin 256) : Envelope :=
  makeEnvelopeWithEvent salted Heap.empty
    (makeStreamEvent salted payload none [salt] 0)

def exampleSnapshot (members : List MemberSnapshot) : Snapshot :=
  ⟨some members, currentSnapshotVersion, .space ⟨some exampleInception, []⟩⟩

def exampleBlock0 : Miniblock :=
  let inception := exampleEnvelope (.space (.inception exampleInception)) 1
  ⟨[inception], exampleEnvelope (.miniblockHeader ⟨0, [], some ⟨1, 0⟩, [inception.hash],
    some (exampleSnapshot []), 0, 0⟩) 2⟩

def exampleBlock1 (withSnapshot : Bool) : Miniblock :=
  let join := exampleEnvelope (.member (.membership ⟨.join, exampleUser, exampleUser, none⟩)) 3
  ⟨[join], exampleEnvelope (.miniblockHeader ⟨1, exampleBlock0.header.hash, some ⟨2, 0⟩,
    [join.hash],
    if withSnapshot then some (exampleSnapshot [.new exampleUser 1 2]) else none, 2, 0⟩) 4⟩

/-- With a snapshot in block 1 the stored view knows the user and the remote view does
    not: it starts from the members of block 0 and folds nothing of block 1. -/
theorem remoteView_misses_member :
    exampleBlock0.hasSnapshot = true ∧
      (makeStreamView salted ⟨0, [exampleBlock0, exampleBlock1 true], []⟩ 0 >>=
        (·.isMember exampleUser)) = .ok true ∧
      (makeRemoteStreamView salted [exampleBlock0, exampleBlock1 true] [] 4 >>=
        (·.isMember exampleUser)) = .ok false := by
  refine ⟨by decide +kernel, by decide +kernel, by decide +kernel⟩

/-- Without it both views are built and agree. -/
theorem remoteView_agrees_one_snapshot :
    exampleBlock0.hasSnapshot = true ∧
      ∃ v w, makeStreamView salted ⟨0, [exampleBlock0, exampleBlock1 false], []⟩ 0 = .ok v ∧
        makeRemoteStreamView salted [exampleBlock0, exampleBlock1 false] [] 4 = .ok w ∧
        v.SameAnswers w ∧ v.SnapshotAtIndex ∧ w.SnapshotAtIndex := by
  have hfirst : exampleBlock0.hasSnapshot = true := by decide +kernel
  obtain ⟨hok, hiff⟩ := remoteView_agrees_iff .salted exampleBlock0 [exampleBlock1 false]
    hfirst 0 [] 0 4
  obtain ⟨v, hv⟩ : ∃ v, makeStreamView .salted
      ⟨0, [exampleBlock0, exampleBlock1 false], []⟩ 0 = .ok v := by
    refine Res.isOk_iff.1 ?_
    decide +kernel
  obtain ⟨w, hw⟩ := Res.isOk_iff.1 (hok ▸ Res.isOk_iff.2 ⟨v, hv⟩)
  refine ⟨hfirst, v, w, hv, hw, (hiff v w hv hw).2 ?_⟩
  decide +kernel

end River.Node
