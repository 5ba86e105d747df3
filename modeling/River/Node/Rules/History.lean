/-
  One stream from its creation on, with its requests served one after the other.

  On-chain entitlements and parent events are taken as given.
-/

import River.Node.Events.Members
import River.Node.Rules.CanCreateStream

namespace River.Node.Rules

open River.Lib List RuleBuilder StreamView Res

/-! ## Creation -/

structure Creation where
  crypto : Crypto
  cfg : Config
  dmHash : Bytes → Bytes
  currentTime : Int
  streamId : StreamId
  envelopes : List Envelope
  spaceIdMetadata : Option Bytes
  now : Timestamp
  salt : Bytes
  epochMillis : Int

structure History where
  view : StreamView
  heap : Heap
  nextRef : Nat

namespace Creation

variable (c : Creation)

def parsedEvents : Res (List ParsedEvent) := parseEvents c.crypto c.envelopes 0

def createStream : Res History := do
  let events ← c.parsedEvents
  let _ ← canCreateStream c.cfg c.dmHash c.currentTime c.streamId events c.spaceIdMetadata
  let miniblock ← makeGenesisMiniblock c.crypto events c.now c.salt c.epochMillis
  let view ← makeStreamView c.crypto ⟨0, [miniblock], []⟩ events.length
  .ok ⟨view, Heap.empty, events.length + miniblock.refCount⟩

end Creation

/-! ## Actions -/

inductive HistoryAction where
  /-- An event is offered; it is added if the rules accept it. -/
  | addEvent (envelope : Envelope) (validNodeAddresses : List Bytes) (currentTime : Int)
  /-- The key solicitations of a user are read. -/
  | getKeySolicitations (userAddress : Bytes)
  /-- A miniblock is made of the first events of the minipool and applied. -/
  | makeMiniblock (count : Nat) (shouldSnapshot : Bool) (now : Timestamp) (salt : Bytes)
      (epochMillis : Int)

namespace History

variable (C : Crypto) (cfg : StreamConfig)

def addEvent (s : History) (envelope : Envelope) (validNodeAddresses : List Bytes)
    (currentTime : Int) : History × Option ParsedEvent :=
  match parseEvent C envelope s.nextRef with
  | .ok e =>
    match canAddEvent ⟨cfg, validNodeAddresses, currentTime, s.view, e⟩ s.heap with
    | (.ok (some _), heap) =>
      match s.view.copyAndAddEvent e with
      | .ok view => (⟨view, heap, s.nextRef + 1⟩, some e)
      | _ => (⟨s.view, heap, s.nextRef + 1⟩, none)
    | (_, heap) => (⟨s.view, heap, s.nextRef + 1⟩, none)
  | _ => (s, none)

def getKeySolicitations (s : History) (userAddress : Bytes) : History :=
  match s.view.getKeySolicitations s.heap userAddress with
  | .ok (_, heap) => { s with heap := heap }
  | _ => s

def proposal (s : History) (count : Nat) (shouldSnapshot : Bool) : MiniblockProposal :=
  ⟨s.view.minipool.events.hashes.take count, s.view.minipool.generation, s.view.lastBlock.hash,
    shouldSnapshot⟩

def headerEvent (s : History) (heap : Heap) (header : MiniblockHeader) (salt : Bytes)
    (epochMillis : Int) : ParsedEvent :=
  makeParsedEventWithPayload C heap (.miniblockHeader header) (some header.prevMiniblockHash) salt
    epochMillis s.nextRef

def makeMiniblock (s : History) (count : Nat) (shouldSnapshot : Bool) (now : Timestamp)
    (salt : Bytes) (epochMillis : Int) : History :=
  match s.view.makeMiniblockHeader s.heap (s.proposal count shouldSnapshot) now with
  | .ok ((header, events), heap) =>
    match (do
      let miniblock ←
        newMiniblockInfoFromParsed (s.headerEvent C heap header salt epochMillis) events
      s.view.copyAndApplyBlock miniblock cfg) with
    | .ok view => ⟨view, heap, s.nextRef + 1⟩
    | _ => ⟨s.view, heap, s.nextRef + 1⟩
  | _ => s

end History

/-- One stream: its events and its miniblocks. -/
def historyMachine (C : Crypto) (cfg : StreamConfig) :
    Machine History HistoryAction (Option ParsedEvent) where
  step s
    | .addEvent envelope validNodeAddresses currentTime =>
      s.addEvent C cfg envelope validNodeAddresses currentTime
    | .getKeySolicitations userAddress => (s.getKeySolicitations userAddress, none)
    | .makeMiniblock count shouldSnapshot now salt epochMillis =>
      (s.makeMiniblock C cfg count shouldSnapshot now salt epochMillis, none)

/-! ## What a check may write -/

def Asked (v : StreamView) (heap heap' : Heap) : Prop :=
  heap' = heap ∨ ∃ userAddress ks, v.getKeySolicitations heap userAddress = .ok (ks, heap')

def Check.ReadsOnly (f : Check) : Prop := ∀ heap, (f heap).2 = heap

theorem Check.readsOnly_pure (answer : Res Bool) : (Check.pure answer).ReadsOnly := fun _ => rfl

theorem runOneOf_heap {fs : List Check} (h : ∀ f ∈ fs, f.ReadsOnly) (errors : Nat) (heap : Heap) :
    (runOneOf fs errors heap).2 = heap := by
  induction fs generalizing errors with
  | nil =>
    unfold runOneOf
    split <;> simp_all
  | cons f fs ih =>
    have hf := h f mem_cons_self heap
    have ih := fun n => ih (fun g hg => h g (mem_cons_of_mem _ hg)) n
    unfold runOneOf
    generalize f heap = r at hf
    obtain ⟨answer, heap'⟩ := r
    obtain rfl : heap' = heap := hf
    cases answer with
    | ok b => cases b <;> simp [ih]
    | error e => simp [ih]
    | panic m => rfl

theorem runChecksAE_heap {checks : List (List Check)}
    (h : ∀ fs ∈ checks, ∀ f ∈ fs, f.ReadsOnly) (heap : Heap) :
    (runChecksAE checks heap).2 = heap := by
  induction checks with
  | nil => rfl
  | cons fs checks ih =>
    have hfs := runOneOf_heap (h fs mem_cons_self) 0 heap
    have ih := ih fun gs hgs => h gs (mem_cons_of_mem _ hgs)
    unfold runChecksAE
    generalize runOneOf fs 0 heap = r at hfs
    obtain ⟨answer, heap'⟩ := r
    obtain rfl : heap' = heap := hfs
    cases answer with
    | ok b => cases b <;> simp [ih]
    | _ => rfl

theorem runOneOf_singleton_heap (f : Check) (errors : Nat) (heap : Heap) :
    (runOneOf [f] errors heap).2 = (f heap).2 := by
  have hnil : ∀ n heap, (runOneOf [] n heap).2 = heap := runOneOf_heap (by simp)
  unfold runOneOf
  generalize f heap = r
  obtain ⟨answer, -⟩ := r
  cases answer with
  | ok b => cases b <;> simp [hnil]
  | error e => simp [hnil]
  | panic m => rfl

theorem runChecksAE_pair_heap {f g : Check} (hf : f.ReadsOnly) (heap : Heap) :
    (runChecksAE [[f], [g]] heap).2 = heap ∨ (runChecksAE [[f], [g]] heap).2 = (g heap).2 := by
  have hfirst := runOneOf_singleton_heap f 0 heap
  have hsecond := runOneOf_singleton_heap g 0 heap
  rw [hf heap] at hfirst
  unfold runChecksAE
  generalize runOneOf [f] 0 heap = r at hfirst
  obtain ⟨answer, heap'⟩ := r
  obtain rfl : heap' = heap := hfirst
  cases answer with
  | ok b =>
    cases b with
    | false => exact .inl rfl
    | true =>
      right
      rw [← hsecond]
      simp only [runChecksAE]
      generalize runOneOf [g] 0 heap' = r
      obtain ⟨answer, -⟩ := r
      cases answer with
      | ok b => cases b <;> rfl
      | _ => rfl
  | _ => exact .inl rfl

theorem RuleBuilder.run_heap (re : RuleBuilder) (heap : Heap) :
    (re.run heap).2 = heap ∨ (re.run heap).2 = (runChecksAE re.checks heap).2 := by
  unfold run
  split
  · exact .inl rfl
  · right
    split <;> simp_all

def RuleBuilder.ReadsOnly (re : RuleBuilder) : Prop :=
  ∀ fs ∈ re.checks, ∀ f ∈ fs, f.ReadsOnly

theorem RuleBuilder.ReadsOnly.run_heap {re : RuleBuilder} (h : re.ReadsOnly) (heap : Heap) :
    (re.run heap).2 = heap := by
  rcases re.run_heap heap with hrun | hrun
  · exact hrun
  · rw [hrun, runChecksAE_heap h]

namespace AeParams

variable (params : AeParams)

theorem keyFulfillment_heap (kf : KeyFulfillment) (heap : Heap) :
    Asked params.streamView heap
      (((params.memberRule.check (params.validKeyFulfillment kf)).run heap).2) := by
  have hchecks : (params.memberRule.check (params.validKeyFulfillment kf)).checks =
      [[.pure params.creatorIsMember], [params.validKeyFulfillment kf]] := rfl
  rcases run_heap (params.memberRule.check (params.validKeyFulfillment kf)) heap with
    hrun | hrun
  · exact .inl hrun
  rw [hrun, hchecks]
  rcases runChecksAE_pair_heap (Check.readsOnly_pure params.creatorIsMember) heap with hheap | hheap
  · exact .inl hheap
  rw [hheap]
  unfold validKeyFulfillment
  split
  · rename_i ks heap' hask
    exact .inr ⟨kf.userAddress, ks, hask⟩
  · exact .inl rfl
  · exact .inl rfl

theorem canAddEvent_heap (heap : Heap) :
    Asked params.streamView heap (params.canAddEvent.run heap).2 := by
  have hreads : ∀ {re : RuleBuilder}, re.ReadsOnly →
      Asked params.streamView heap (re.run heap).2 := fun h => .inl (h.run_heap heap)
  unfold canAddEvent
  cases params.parsedEvent.event.payload with
  | member p =>
    cases p with
    | keyFulfillment kf => exact params.keyFulfillment_heap kf heap
    | membership m =>
      refine hreads ?_
      unfold canAddMemberPayload canAddMembership
      simp only
      split <;> simp [ReadsOnly, membershipRule, check,
        checkOneOf, requireChainAuth, requireParentEvent,
        fail, aeBuilder, Check.readsOnly_pure]
    | _ =>
      refine hreads ?_
      simp [canAddMemberPayload, ReadsOnly, memberRule, check,
        checkOneOf, fail, aeBuilder, Check.readsOnly_pure]
  | space p =>
    refine hreads ?_
    cases p with
    | channel ch =>
      unfold canAddSpacePayload
      simp only
      split <;> simp [ReadsOnly, memberRule, check,
        checkOneOf, aeBuilder, Check.readsOnly_pure]
    | _ => simp [canAddSpacePayload, ReadsOnly, fail, aeBuilder]
  | miniblockHeader h | unset => exact hreads (by simp [ReadsOnly, fail, aeBuilder])
  | _ p =>
    refine hreads ?_
    cases p <;> simp [canAddChannelPayload, canAddDmChannelPayload, canAddGdmChannelPayload,
      canAddUserPayload, canAddUserDeviceKeyPayload, canAddUserSettingsPayload,
      canAddUserInboxPayload, canAddMediaPayload, ReadsOnly, memberRule,
      check, checkOneOf, requireChainAuth,
      requireParentEvent, fail, aeBuilder, Check.readsOnly_pure]

end AeParams

theorem canAddEvent_asked (params : AeParams) (heap : Heap) :
    Asked params.streamView heap (canAddEvent params heap).2 := by
  unfold canAddEvent
  simp only
  split
  · exact .inl rfl
  split
  · exact .inl rfl
  split
  · exact .inl rfl
  · exact .inl rfl
  split
  · exact .inl rfl
  · exact .inl rfl
  exact params.canAddEvent_heap heap

/-! ## What a step can do -/

def History.Decoded (C : Crypto) (s : History) : Prop := ∀ e ∈ s.view.replay.events, e.Decoded C

inductive HistoryStep (C : Crypto) (cfg : StreamConfig) (s : History) :
    History → Option ParsedEvent → Prop where
  /-- A query, or an event that was not added. -/
  | asked {heap : Heap} {nextRef : Nat} (asked : Asked s.view s.heap heap)
      (nextRef_le : s.nextRef ≤ nextRef) : HistoryStep C cfg s ⟨s.view, heap, nextRef⟩ none
  /-- An event was added. -/
  | added {e : ParsedEvent} {validNodeAddresses : List Bytes} {currentTime : Int}
      {requirements : Requirements} {heap : Heap} {view : StreamView} (decoded : e.Decoded C)
      (ref_eq : e.ref = s.nextRef)
      (canAdd : canAddEvent ⟨cfg, validNodeAddresses, currentTime, s.view, e⟩ s.heap =
        (.ok (some requirements), heap))
      (add : s.view.copyAndAddEvent e = .ok view) :
      HistoryStep C cfg s ⟨view, heap, s.nextRef + 1⟩ (some e)
  /-- A block without a snapshot. -/
  | block {view : StreamView} {nextRef : Nat} (replay : view.replay = s.view.replay)
      (streamId : view.streamId = s.view.streamId) (nextRef_le : s.nextRef ≤ nextRef) :
      HistoryStep C cfg s ⟨view, s.heap, nextRef⟩ none
  /-- A block with a snapshot; it is not applied if the number of generations is negative. -/
  | snapshot {view : StreamView} {snapshot : Snapshot} {heap : Heap} {nextRef : Nat}
      {es rest : List ParsedEvent} (events : s.view.replay.events = es ++ rest)
      (updates : Updates es (s.view.replay.snapshot.clone s.heap, s.heap) (snapshot, heap))
      (replay : view = s.view ∨
        (view.replay = ⟨snapshot, rest⟩ ∧ view.streamId = s.view.streamId))
      (nextRef_le : s.nextRef ≤ nextRef) : HistoryStep C cfg s ⟨view, heap, nextRef⟩ none

namespace History

variable {C : Crypto} {cfg : StreamConfig} {s : History}

theorem addEvent_step (envelope : Envelope) (validNodeAddresses : List Bytes) (currentTime : Int) :
    HistoryStep C cfg s (s.addEvent C cfg envelope validNodeAddresses currentTime).1
      (s.addEvent C cfg envelope validNodeAddresses currentTime).2 := by
  unfold addEvent
  split
  · rename_i e he
    obtain ⟨-, -, href⟩ := parseEvent_eq_ok.1 he
    have hdecoded : e.Decoded C := .of_parseEvent he
    have hasked := canAddEvent_asked ⟨cfg, validNodeAddresses, currentTime, s.view, e⟩ s.heap
    split
    · rename_i reqs heap hcan
      rw [hcan] at hasked
      split
      · rename_i view hadd
        exact .added hdecoded href hcan hadd
      · exact .asked hasked (Nat.le_succ _)
    · rename_i answer heap hno hcan
      rw [hcan] at hasked
      exact .asked hasked (Nat.le_succ _)
  · exact .asked (.inl rfl) (Nat.le_refl _)

theorem getKeySolicitations_step (userAddress : Bytes) :
    HistoryStep C cfg s (s.getKeySolicitations userAddress) none := by
  unfold getKeySolicitations
  split
  · rename_i ks heap hask
    exact .asked (.inr ⟨userAddress, ks, hask⟩) (Nat.le_refl _)
  · exact .asked (.inl rfl) (Nat.le_refl _)

theorem proposedEvents_proposal (h : s.Decoded C) (count : Nat) (shouldSnapshot : Bool) :
    proposedEvents s.view.minipool.events (s.proposal count shouldSnapshot).hashes =
      .ok (s.view.minipool.events.values.take count) := by
  have hhashes : (s.proposal count shouldSnapshot).hashes =
      (s.view.minipool.events.values.take count).map (·.hash) := by
    simp [proposal, EventMap.hashes]
  rw [hhashes]
  refine proposedEvents_append (take_append_drop count _).symm ?_
  intro e he
  have hmem : e ∈ s.view.replay.events := mem_append_right _ (mem_of_mem_take he)
  rw [(h e hmem).authentic.hash_eq]
  exact C.riverHash_length _

theorem makeMiniblock_step (h : s.Decoded C) (count : Nat) (shouldSnapshot : Bool)
    (now : Timestamp) (salt : Bytes) (epochMillis : Int) :
    HistoryStep C cfg s (s.makeMiniblock C cfg count shouldSnapshot now salt epochMillis) none := by
  unfold makeMiniblock
  split
  swap
  · exact .asked (.inl rfl) (Nat.le_refl _)
  rename_i header events heap hheader
  obtain ⟨-, -, hevents, -, hsnapshot⟩ := makeMiniblockHeader_eq_ok hheader
  rw [proposedEvents_proposal h, ok.injEq] at hevents
  -- the window, cut behind the events of the block
  have hpool : s.view.minipool.events.values =
      events ++ s.view.minipool.events.values.drop count := by
    rw [← hevents, take_append_drop]
  have hwindow : s.view.replay.events =
      ((s.view.blocks.drop (s.view.snapshotIndex + 1)).flatMap (·.events) ++ events) ++
        s.view.minipool.events.values.drop count := by
    rw [append_assoc, ← hpool]
    rfl
  -- the block is applied to the view it was made from
  have happly : ∀ view, (do
      let miniblock ←
        newMiniblockInfoFromParsed (s.headerEvent C heap header salt epochMillis) events
      s.view.copyAndApplyBlock miniblock cfg) = .ok view →
      view.streamId = s.view.streamId ∧
        ((header.snapshot = none ∧ view.replay = s.view.replay) ∨
          ∃ snap, header.snapshot = some snap ∧
            view.replay = ⟨snap, s.view.minipool.events.values.drop count⟩) := by
    intro view hview
    obtain ⟨b, hb, hview⟩ := bind_eq_ok.1 hview
    obtain ⟨hheaderEvent, hb_events, -⟩ := newMiniblockInfoFromParsed_eq_ok hb
    have hb_header : b.header = header := by
      have hpayload := b.header_eq
      rw [hheaderEvent] at hpayload
      exact (Payload.miniblockHeader.inj hpayload).symm
    rw [← hb_events] at hpool
    refine ⟨(copyAndApplyBlock_eq_ok hview).2.2.1, ?_⟩
    rw [← hb_header]
    exact replay_copyAndApplyBlock hpool hview
  split at hsnapshot
  · -- the header has a snapshot
    obtain ⟨snap, hnext, hsnap⟩ := hsnapshot
    have hupdates := updates_of_nextSnapshot hnext
    split
    · rename_i view hview
      obtain ⟨hsid, ⟨hnone, -⟩ | ⟨snap', hsome, hreplay⟩⟩ := happly view hview
      · rw [hsnap] at hnone
        cases hnone
      · rw [hsnap, Option.some.injEq] at hsome
        subst hsome
        exact .snapshot hwindow hupdates (.inr ⟨hreplay, hsid⟩) (Nat.le_succ _)
    · exact .snapshot hwindow hupdates (.inl rfl) (Nat.le_succ _)
  · obtain ⟨hsnap, rfl⟩ := hsnapshot
    split
    · rename_i view hview
      obtain ⟨hsid, ⟨-, hreplay⟩ | ⟨snap', hsome, -⟩⟩ := happly view hview
      · exact .block hreplay hsid (Nat.le_succ _)
      · rw [hsnap] at hsome
        cases hsome
    · exact .asked (.inl rfl) (Nat.le_succ _)

theorem step (h : s.Decoded C) (a : HistoryAction) :
    HistoryStep C cfg s ((historyMachine C cfg).next s a) ((historyMachine C cfg).out s a) := by
  cases a with
  | addEvent envelope validNodeAddresses currentTime =>
    exact addEvent_step envelope validNodeAddresses currentTime
  | getKeySolicitations userAddress => exact getKeySolicitations_step userAddress
  | makeMiniblock count shouldSnapshot now salt epochMillis =>
    exact makeMiniblock_step h count shouldSnapshot now salt epochMillis

end History

theorem HistoryStep.events {cfg : StreamConfig} {added : Option ParsedEvent}
    (h : HistoryStep C cfg s s' added) :
    ∀ e ∈ s'.view.replay.events, e ∈ s.view.replay.events ∨ some e = added := by
  intro e he
  cases h with
  | asked _ _ => exact .inl he
  | added _ _ _ add =>
    rw [replay_copyAndAddEvent add] at he
    exact (mem_append.1 he).imp_right fun he => congrArg some (mem_singleton.1 he)
  | block replay _ _ =>
    rw [replay] at he
    exact .inl he
  | snapshot events _ replay _ =>
    rcases replay with rfl | ⟨hreplay, -⟩
    · exact .inl he
    · rw [hreplay] at he
      rw [events]
      exact .inl (mem_append_right _ he)

theorem HistoryStep.decoded {cfg : StreamConfig} {added : Option ParsedEvent}
    (h : HistoryStep C cfg s s' added) (hs : s.Decoded C) :
    s'.Decoded C := by
  intro e he
  rcases h.events e he with hold | hnew
  · exact hs e hold
  cases h with
  | added decoded _ _ _ =>
    cases hnew
    exact decoded
  | _ => cases hnew

theorem history_invariant {I : History → Prop}
    (hstep : ∀ s s' added, I s → HistoryStep C cfg s s' added → I s') {s : History}
    (hdecoded : s.Decoded C) (hs : I s) (acts : List HistoryAction) :
    I ((historyMachine C cfg).exec s acts) := by
  refine (Machine.exec_invariant (I := fun s => s.Decoded C ∧ I s) ?_ ⟨hdecoded, hs⟩ acts).2
  rintro s a ⟨hdecoded, hs⟩
  have h : HistoryStep C cfg s _ _ := History.step hdecoded a
  exact ⟨h.decoded hdecoded, hstep _ _ _ hs h⟩

/-! ## The beginning -/

theorem makeStreamView_singleton {pb : Miniblock} {ref : Nat}
    (h : makeStreamView C ⟨0, [pb], []⟩ ref = .ok view) :
    ∃ b snapshot, newMiniblockInfoFromProto C pb ⟨-1, false⟩ ref = .ok b ∧
      b.header.snapshot = some snapshot ∧ view.replay = ⟨snapshot, []⟩ ∧
      streamIdOfSnapshot snapshot = .ok view.streamId := by
  simp only [makeStreamView] at h
  obtain ⟨_, hbs, h⟩ := bind_eq_ok.1 h
  obtain ⟨b, hb, hbs⟩ := bind_eq_ok.1 hbs
  cases hbs
  split at h
  swap
  · cases h
  rename_i hlt
  have hindex : [b].findIdx (·.header.snapshot.isSome) = 0 := by
    rw [length_singleton] at hlt
    omega
  split at h
  · cases h
  rename_i ptr hptr
  simp only [hindex] at hptr
  obtain ⟨snapshot, hsnapshot, hptr⟩ := Option.map_eq_some_iff.1 hptr
  obtain ⟨_, hsid, h⟩ := bind_eq_ok.1 h
  obtain ⟨_, hevents, h⟩ := bind_eq_ok.1 h
  cases hevents
  cases h
  subst hptr
  refine ⟨b, snapshot, hb, hsnapshot, ?_, hsid⟩
  simp [replay, window]

theorem Creation.createStream_eq_ok {c : Creation} (h : c.createStream = .ok s) :
    ∃ events rules snapshot heap, c.parsedEvents = .ok events ∧
      canCreateStream c.cfg c.dmHash c.currentTime c.streamId events c.spaceIdMetadata =
        .ok rules ∧
      makeGenesisSnapshot events Heap.empty = .ok (snapshot, heap) ∧
      s.view.replay = ⟨snapshot.clone heap, []⟩ ∧
      streamIdOfSnapshot snapshot = .ok s.view.streamId ∧ s.heap = Heap.empty := by
  obtain ⟨events, hevents, h⟩ := bind_eq_ok.1 h
  obtain ⟨rules, hrules, h⟩ := bind_eq_ok.1 h
  obtain ⟨_, hminiblock, h⟩ := bind_eq_ok.1 h
  obtain ⟨_, hview, h⟩ := bind_eq_ok.1 h
  cases h
  obtain ⟨b, snapshot, hb, hsnapshot, hreplay, hsid⟩ := makeStreamView_singleton hview
  obtain ⟨⟨header, heap⟩, hheader, hminiblock⟩ := bind_eq_ok.1 hminiblock
  -- the block that is parsed is the one that was signed
  have hb_header : b.header = header.resolve heap := by
    obtain ⟨hparse, -, -, -⟩ := newMiniblockInfoFromProto_eq_ok hb
    obtain ⟨hauth, -, -⟩ := parseEvent_eq_ok.1 hparse
    rw [← ok.inj hminiblock] at hauth
    have hsigned := authenticate_makeEnvelopeWithEvent c.crypto heap (.miniblockHeader header) none
      c.salt c.epochMillis
    have hevent := ok.inj (hauth.symm.trans hsigned)
    have hpayload := b.header_eq
    rw [hevent] at hpayload
    exact (Payload.miniblockHeader.inj hpayload).symm
  -- what `Make_GenesisMiniblockHeader` put into the header
  unfold makeGenesisMiniblockHeader at hheader
  split at hheader
  · cases hheader
  split at hheader
  · cases hheader
  obtain ⟨-, -, hheader⟩ := bind_eq_ok.1 hheader
  obtain ⟨⟨genesis, _⟩, hgenesis, hheader⟩ := bind_eq_ok.1 hheader
  cases hheader
  have hclone : snapshot = genesis.clone heap := by
    rw [hb_header] at hsnapshot
    exact (Option.some.inj hsnapshot).symm
  subst hclone
  exact ⟨_, rules, genesis, heap, hevents, hrules, hgenesis, hreplay, hsid, rfl⟩

theorem Creation.sound {c : Creation} (h : c.createStream = .ok s)
    (hevents : c.parsedEvents = .ok events) :
    s.view.replay.Sound ∧ s.view.replay.members = genesisMembers events ∧ s.Decoded c.crypto := by
  obtain ⟨_, -, _, heap, hevents', -, hgenesis, hreplay, -, -⟩ :=
    createStream_eq_ok h
  obtain rfl := ok.inj (hevents.symm.trans hevents')
  obtain ⟨hwf, hjoined⟩ := makeGenesisSnapshot_joinedSet hgenesis
  refine ⟨?_, ?_, ?_⟩
  · rw [hreplay]
    exact ⟨hwf.clone heap, trivial⟩
  · rw [hreplay, Replay.members, Snapshot.joinedSet_clone]
    exact hjoined
  · intro e he
    rw [hreplay] at he
    cases he

end River.Node.Rules
