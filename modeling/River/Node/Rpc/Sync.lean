/-
  What a subscriber receives.
-/

import River.Node.Events.Subscription
import River.Node.Rpc.ReplayProtection

namespace River.Node

open List NodeState StreamImpl Lib.Machine

/-! ## Growth -/

structure Log.GrownFrom (l1 : Log) (accepted : List Envelope) (applied : List Miniblock) (l : Log) :
    Prop where
  blocks : l.blocks = l1.blocks ++ applied
  events : ∃ added, l1.pool ++ added = chainEvents applied ++ l.pool ∧ accepted.Sublist added

theorem Log.GrownFrom.refl (l : Log) : l.GrownFrom [] [] l :=
  ⟨(append_nil _).symm, [], append_nil _, .refl _⟩

variable {l l1 : Log} {accepted : List Envelope} {applied : List Miniblock}

theorem Log.GrownFrom.effect {accepted' : List Envelope} {adding : Option ParsedEvent}
    (h : l1.GrownFrom accepted applied l) (he : Effect adding l l' accepted' applied') :
    l1.GrownFrom (accepted ++ accepted') (applied ++ applied') l' := by
  obtain ⟨hblocks, added, hevents, hsub⟩ := h
  cases he with
  | quiet hpre =>
    obtain ⟨more, rfl⟩ := hpre
    rw [append_nil, append_nil]
    refine ⟨hblocks, added ++ more, ?_, hsub.trans (sublist_append_left _ _)⟩
    rw [← append_assoc, hevents, append_assoc]
  | @event e _ _ _ _ =>
    rw [append_nil]
    refine ⟨hblocks, added ++ [e.envelope], ?_, hsub.append (.refl _)⟩
    rw [← append_assoc, hevents, append_assoc]
  | refused _ _ _ =>
    rw [append_nil, append_nil]
    exact ⟨hblocks, added, hevents, hsub⟩
  | @block pb pool' hsplit =>
    rw [append_nil]
    refine ⟨?_, added, ?_, hsub⟩
    · rw [hblocks, append_assoc]
    · rw [hevents, chainEvents_concat, hsplit, append_assoc]

theorem Log.GrownFrom.length_blocks_le (h : l1.GrownFrom accepted applied l) :
    l1.blocks.length ≤ l.blocks.length := by
  rw [h.blocks, length_append]
  omega

theorem Log.GrownFrom.length_pool_le (h : l1.GrownFrom accepted applied l)
    (hlen : l1.blocks.length = l.blocks.length) : l1.pool.length ≤ l.pool.length := by
  obtain ⟨added, hadded, -⟩ := h.events
  rw [h.blocks, length_append, Nat.left_eq_add, length_eq_zero_iff] at hlen
  have hpool : l1.pool ++ added = l.pool := by
    rw [hlen] at hadded
    exact hadded
  rw [← hpool, length_append]
  omega

variable {s : NodeState}

theorem Inv.grownFrom {hashed : List EventBytes} (h : Inv p hashed s r) (acts : List Action)
    (hfree : p.crypto.CollisionFree
      (hashed ++ (streamMachine p).collect (NodeState.hashed p) s acts)) :
    (s.stream.log p).GrownFrom ((streamMachine p).collect (NodeState.accepted p) s acts)
      ((streamMachine p).collect (NodeState.applied p) s acts)
      (((streamMachine p).exec s acts).stream.log p) := by
  have halong := along_of_forall (M := streamMachine p) (P := fun _ _ => True)
    (fun _ _ => trivial) s acts
  have hevents := Inv.collect (f := accepted p) (P := fun _ _ => True)
    (J := fun l s' => ∃ applied, (s.stream.log p).GrownFrom l applied (s'.stream.log p))
    (fun _ _ _ _ _ _ _ ⟨_, _, heffect⟩ ⟨_, hJ⟩ _ => ⟨_, hJ.effect heffect⟩) h
    ⟨_, .refl _⟩ halong hfree
  have hblocks := Inv.collect (f := applied p) (P := fun _ _ => True)
    (J := fun l s' => ∃ accepted, (s.stream.log p).GrownFrom accepted l (s'.stream.log p))
    (fun _ _ _ _ _ _ _ ⟨_, _, heffect⟩ ⟨_, hJ⟩ _ => ⟨_, hJ.effect heffect⟩) h
    ⟨_, .refl _⟩ halong hfree
  obtain ⟨applied, hgrown⟩ := hevents
  obtain ⟨accepted, hgrown'⟩ := hblocks
  have happlied : applied = (streamMachine p).collect (NodeState.applied p) s acts :=
    append_cancel_left (hgrown.blocks.symm.trans hgrown'.blocks)
  exact happlied ▸ hgrown

/-! ## Subscribers -/

def Action.unsubscribes (receiver : Nat) : Action → Bool
  | .unsub receiver' => receiver' = receiver
  | .forceFlush => true
  | _ => false

namespace NodeState

variable (p : StreamParams)

def added (s : NodeState) (a : Action) : List Envelope :=
  s.accepted p a ++ (s.applied p a).map (·.header)

def notified (receiver : Nat) (s : NodeState) : Action → List Envelope
  | .sub _ _ _ => []
  | a => received receiver (s.step p a).2.updates

variable {p}

theorem receivers_next (s : NodeState) (a : Action) :
    ((streamMachine p).next s a).stream.receivers = s.stream.receivers ∨
      (∃ receiver, ((streamMachine p).next s a).stream.receivers =
        s.stream.receivers.insert receiver) ∨
      (∃ receiver, a = .unsub receiver ∧ ((streamMachine p).next s a).stream.receivers =
        s.stream.receivers.erase receiver) ∨
      (a = .forceFlush ∧ ((streamMachine p).next s a).stream.receivers = []) := by
  have h := s.transition p a
  generalize (streamMachine p).next s a = s' at h ⊢
  cases h with
  | getStream hparse hrequests => exact .inl (loadInternal_receivers _)
  | addEvent hq hdue | newEventReceived hparse => exact .inl (addEvent_notifies _ _).receivers
  | applyMiniblock hb => exact .inl (applyMiniblock_notifies _ _).receivers
  | tryCleanup expired =>
    left
    simp only [tryCleanup]
    repeat' split
    all_goals rfl
  | forceFlush => exact .inr (.inr (.inr ⟨rfl, rfl⟩))
  | sub cookie receiver faults =>
    rcases sub_receivers (p := p) (s := s.stream) cookie receiver faults with h | h
    · exact .inl h
    · exact .inr (.inl ⟨receiver, h⟩)
  | unsub receiver => exact .inr (.inr (.inl ⟨receiver, rfl, rfl⟩))
  | _ => exact .inl rfl

structure Publishes (s : NodeState) : Prop where
  nodup : s.stream.receivers.Nodup
  header : ∀ b ∈ s.miniblocks, b.proto.header = b.headerEvent.envelope

theorem Publishes.next (h : s.Publishes) (a : Action) : ((streamMachine p).next s a).Publishes := by
  refine ⟨?_, ?_⟩
  · rcases s.receivers_next (p := p) a with heq | ⟨receiver, heq⟩ | ⟨receiver, -, heq⟩ | ⟨-, heq⟩
    · exact heq ▸ h.nodup
    · exact heq ▸ h.nodup.insert
    · exact heq ▸ h.nodup.erase receiver
    · exact heq ▸ nodup_nil
  · intro b hb
    rcases s.miniblocks_next p a with hsame | ⟨i, _, _, x, _, -, -, hmake, hnew⟩
    · exact h.header b (hsame ▸ hb)
    rw [hnew] at hb
    rcases mem_append.1 hb with hb | hb
    · exact h.header b hb
    · obtain rfl := mem_singleton.1 hb
      obtain ⟨hheader, -, hproto⟩ := newMiniblockInfoFromParsed_eq_ok hmake
      rw [hproto, hheader]

variable {receiver : Nat}

theorem mem_receivers_next (h : receiver ∈ s.stream.receivers) {a : Action}
    (ha : a.unsubscribes receiver = false) :
    receiver ∈ ((streamMachine p).next s a).stream.receivers := by
  rcases s.receivers_next (p := p) a with heq | ⟨receiver', heq⟩ | ⟨receiver', rfl, heq⟩ | ⟨rfl, -⟩
  · exact heq ▸ h
  · exact heq ▸ mem_insert_of_mem h
  · refine (mem_erase_of_ne ?_).2 h
    rintro rfl
    simp [Action.unsubscribes] at ha
  · cases ha

theorem notified_eq_added (h : s.Publishes) (hmem : receiver ∈ s.stream.receivers) (a : Action) :
    s.notified p receiver a = s.added p a := by
  cases a with
  | getStream envelope faults =>
    simp only [notified, step, getStream, parse]
    cases parseEvent p.crypto envelope s.stream.nextRef with
    | ok event =>
      simp only
      split <;> rfl
    | _ => rfl
  | canAddEvent | makeMiniblockHeader | makeMiniblock | storeMiniblockCandidate =>
    simp only [notified, step, canAddEvent, makeMiniblockHeader, makeMiniblock]
    repeat' split
    all_goals rfl
  | addEvent i faults =>
    simp only [notified, added, accepted, adding, applied, step, addEvent, map_nil, append_nil]
    cases hq : s.requests[i]? with
    | none => rfl
    | some q =>
      by_cases hstatus : q.status = .adding
      · simp only [hstatus]
        exact (addEvent_notifies q.event faults).received hmem h.nodup
      · simp only [hstatus, ne_eq]
        rfl
  | newEventReceived envelope faults =>
    simp only [notified, added, accepted, adding, applied, step, newEventReceived, parse,
      map_nil, append_nil]
    cases he : parseEvent p.crypto envelope s.stream.nextRef with
    | ok event =>
      exact (addEvent_notifies (s := s.allocRef.stream) event faults).received hmem h.nodup
    | _ => rfl
  | applyMiniblock i faults =>
    simp only [notified, added, applied, step]
    cases hb : s.miniblocks[i]? with
    | none => rfl
    | some b =>
      have hheader := h.header b (mem_of_getElem? hb)
      have hreceived := (applyMiniblock_notifies (p := p) b faults).received hmem h.nodup
      simp only [withStream]
      rw [hreceived, Outcome.onSuccess, Outcome.onSuccess, ← hheader]
      split <;> rfl
  | _ => rfl

theorem collect_notified (h : s.Publishes) (hmem : receiver ∈ s.stream.receivers)
    {acts : List Action} (hstay : ∀ a ∈ acts, a.unsubscribes receiver = false) :
    (streamMachine p).collect (notified p receiver) s acts =
      (streamMachine p).collect (added p) s acts := by
  refine collect_congr (P := fun _ a => a.unsubscribes receiver = false)
    (I := fun s => s.Publishes ∧ receiver ∈ s.stream.receivers) ?_ ?_ ⟨h, hmem⟩
    (along_of_mem hstay _)
  · intro s a h ha
    exact ⟨h.1.next a, mem_receivers_next h.2 ha⟩
  · intro s a h _
    exact notified_eq_added h.1 h.2 a

end NodeState

/-! ## Runs -/

theorem StreamAndCookie.IsTail.sublist {reply : StreamAndCookie}
    (h : reply.IsTail l.blocks l.pool l1.blocks.length l1.pool.length)
    (hgrown : l1.GrownFrom accepted applied l) :
    accepted.Sublist reply.events ∧ (applied.map (·.header)).Sublist reply.events := by
  obtain ⟨added, hadded, hsub⟩ := hgrown.events
  rw [h.2, hgrown.blocks]
  cases applied with
  | nil =>
    -- the cookie is of the current generation: its slot is where the new events begin
    have hpool : l.pool = l1.pool ++ added := by rw [hadded]; rfl
    rw [if_neg (by simp), hpool, drop_left]
    exact ⟨hsub, nil_sublist _⟩
  | cons pb pbs =>
    have hchain : ∀ pbs : List Miniblock, (chainEvents pbs).Sublist (chainEnvelopes pbs) ∧
        (pbs.map (·.header)).Sublist (chainEnvelopes pbs) := by
      intro pbs
      induction pbs with
      | nil => exact ⟨.refl _, .refl _⟩
      | cons pb pbs ih =>
        exact ⟨(sublist_append_left _ _).append ih.1,
          (sublist_append_right pb.events [pb.header]).append ih.2⟩
    rw [if_pos (by simp), drop_left]
    refine ⟨hsub.trans ?_, (hchain _).2.trans (sublist_append_left _ _)⟩
    have hall : (l1.pool ++ added).Sublist (chainEnvelopes (pb :: pbs) ++ l.pool) := by
      rw [hadded]
      exact (hchain _).1.append (.refl _)
    exact (sublist_append_right _ _).trans hall

/-- **Sync.** A cookie was issued after `acts1`; after `acts2` a receiver subscribes with it, and
    stays subscribed through `acts3`. The cookie is never refused, and `Sub` succeeds if the stream
    can be loaded. The reply is a reset, or reply and updates contain all events accepted since the
    cookie was issued, in this order, and the headers of all blocks applied since then. -/
theorem syncComplete {p : StreamParams} (g : Genesis p) (acts1 acts2 acts3 : List Action)
    (v : StreamView) (hv : (g.run acts1).stream.view = some v) (receiver : Nat) (faults : Faults)
    (hfree : p.crypto.CollisionFree (g.hashedBy (acts1 ++ (acts2 ++
      .sub (v.syncCookie p.crypto.walletAddress) receiver faults :: acts3))))
    (hstay : ∀ a ∈ acts3, a.unsubscribes receiver = false) :
    let sub := Action.sub (v.syncCookie p.crypto.walletAddress) receiver faults
    let s := g.run (acts1 ++ acts2)
    let out := (streamMachine p).out s sub
    let later := (streamMachine p).collect (notified p receiver)
      ((streamMachine p).next s sub) acts3
    (∀ m, out.result ≠ .error ⟨.badSyncCookie, m⟩) ∧
    ((s.stream.loadInternal p faults).2.isOk = true → out.result = .ok ()) ∧
    (out.result = .ok () → ∃ reply, out.updates = [(receiver, reply)] ∧
      later = (streamMachine p).collect (added p) ((streamMachine p).next s sub) acts3 ∧
      (reply.IsReset (s.stream.storedBlocks p) (s.stream.minipool p) ∨
        reply.IsTail (s.stream.storedBlocks p) (s.stream.minipool p)
          v.minipool.generation.toNat v.minipool.events.len ∧
        ((streamMachine p).collect (NodeState.accepted p) (g.run acts1)
          (acts2 ++ sub :: acts3)).Sublist (reply.events ++ later) ∧
        (((streamMachine p).collect (NodeState.applied p) (g.run acts1)
          (acts2 ++ sub :: acts3)).map (·.header)).Sublist (reply.events ++ later))) := by
  intro sub s out later
  rw [g.hashedBy_append, collect_append, ← append_assoc] at hfree
  have hfree2 := hfree.mono (subset_append_left _ _)
  obtain ⟨r1, hinv1⟩ := g.inv_run acts1 (hfree2.mono (subset_append_left _ _))
  obtain ⟨r, hinv⟩ : ∃ r, Inv p (g.hashedBy (acts1 ++ acts2)) s r := by
    refine g.inv_run (acts1 ++ acts2) ?_
    rw [g.hashedBy_append]
    exact hfree2
  have hgrown := hinv1.grownFrom acts2 hfree2
  rw [← g.run_append] at hgrown
  have hblocks1 := hinv1.sound.storedBlocks
  have hblocks := hinv.sound.storedBlocks
  -- the cookie is the length of the chain and of the minipool when it was issued
  obtain ⟨hwindow, -⟩ := hinv1.sound.view v hv
  have hgen : v.minipool.generation = r1.blocks.length := hwindow.generation
  have hslot : v.minipool.events.len = ((g.run acts1).stream.minipool p).length := by
    rw [minipool_of_view hv, v.length_minipoolEnvelopes]
  have hn : r1.blocks.length ≤ r.blocks.length := by
    rw [← hblocks, ← hblocks1]
    exact hgrown.length_blocks_le
  have hk : r1.blocks.length = r.blocks.length →
      v.minipool.events.len ≤ (s.stream.minipool p).length := by
    rw [hslot, ← hblocks, ← hblocks1]
    exact hgrown.length_pool_le
  have hnode : (v.syncCookie p.crypto.walletAddress).nodeAddress = p.crypto.walletAddress := rfl
  have hsub := sub_reply hinv.sound hnode
    (congrArg StreamId.bytes hwindow.streamId) hgen rfl hn hk receiver faults
  have hout : out = (s.stream.sub p (v.syncCookie p.crypto.walletAddress) receiver faults).2 := rfl
  rw [← hout] at hsub
  rcases hsub with ⟨reply, hreply, hreceivers, hcases⟩ | ⟨hload, hcookie, hfail⟩
  swap
  · refine ⟨hcookie, fun hok => ?_, fun hok => ?_⟩
    · rw [hload] at hok
      cases hok
    · rw [hok] at hfail
      cases hfail
  have hlater : later = (streamMachine p).collect (added p)
      ((streamMachine p).next s sub) acts3 := by
    have hpub : s.Publishes :=
      exec_invariant (fun _ a h => h.next a) ⟨nodup_nil, fun b hb => by cases hb⟩ _
    refine collect_notified (hpub.next sub) ?_ hstay
    have hrec : ((streamMachine p).next s sub).stream.receivers =
      s.stream.receivers.insert receiver := hreceivers
    rw [hrec]
    exact mem_insert_self
  refine ⟨fun m hm => ?_, fun _ => by rw [hreply], fun _ => ⟨reply, by rw [hreply], hlater, ?_⟩⟩
  · rw [hreply] at hm
    cases hm
  rw [hblocks]
  rcases hcases with htail | hreset
  swap
  · exact .inl hreset
  have hgen' : v.minipool.generation.toNat = r1.blocks.length := by rw [hgen, Int.toNat_natCast]
  refine .inr ⟨hgen' ▸ htail, ?_⟩
  -- what was added before the subscription is in the reply, what is added later in the updates
  have htail' : reply.IsTail (s.stream.log p).blocks (s.stream.log p).pool
      ((g.run acts1).stream.log p).blocks.length ((g.run acts1).stream.log p).pool.length := by
    rw [hslot, ← hblocks, ← hblocks1] at htail
    exact htail
  obtain ⟨hevents, hheaders⟩ := htail'.sublist hgrown
  rw [hlater]
  refine ⟨?_, ?_⟩
  · rw [collect_append, collect_cons]
    refine hevents.append ?_
    rw [← g.run_append]
    exact collect_sublist (fun _ _ => sublist_append_left _ _) _ _
  · rw [map_collect] at hheaders
    rw [map_collect, collect_append, collect_cons]
    refine hheaders.append ?_
    rw [← g.run_append]
    exact collect_sublist (fun _ _ => sublist_append_right _ _) _ _

def genesisCookie : SyncCookie :=
  ⟨Crypto.salted.walletAddress, sampleStreamId.bytes, 1, 0, sampleMiniblock.hash⟩

def loadRun : List Action := [.getStream (sampleEvent none 7) ⟨false, false⟩]

def overtakingRun : List Action :=
  [.newEventReceived (sampleEvent none 3) ⟨false, false⟩, .generateMiniblockProposal false,
    .newEventReceived (sampleEvent none 5) ⟨false, false⟩, .makeMiniblockHeader 0 ⟨2, 0⟩,
    .makeMiniblock 0 [4] 0, .storeMiniblockCandidate 0 false, .applyMiniblock 0 ⟨false, false⟩]

/-- Events and headers together are in no order: an event that is added before the header comes
    behind it in the stream. Who subscribes after the run gets it behind the header, who subscribes
    before the run gets it before the header. -/
theorem sync_order_of_headers :
    let sub := Action.sub genesisCookie 9 ⟨false, false⟩
    let added := (streamMachine sampleParams).collect (added sampleParams)
      (sampleGenesis.run loadRun) overtakingRun
    let s := sampleGenesis.run (loadRun ++ overtakingRun)
    let stream := chainEnvelopes ((s.stream.storedBlocks sampleParams).drop 1) ++
      s.stream.minipool sampleParams
    let late := ((streamMachine sampleParams).out s sub).updates.flatMap (·.2.events)
    let early := ((streamMachine sampleParams).out (sampleGenesis.run loadRun) sub).updates.flatMap
        (·.2.events) ++
      (streamMachine sampleParams).collect (notified sampleParams 9)
        (sampleGenesis.run (loadRun ++ [sub])) overtakingRun
    sampleParams.crypto.CollisionFree (sampleGenesis.hashedBy (loadRun ++ overtakingRun)) ∧
      (sampleGenesis.run loadRun).stream.view.map
        (·.syncCookie sampleParams.crypto.walletAddress) = some genesisCookie ∧
      ((streamMachine sampleParams).out s sub).updates.map (·.2.syncReset) = [false] ∧
      late = stream ∧ ¬ added.Sublist late ∧ early = added ∧ ¬ stream.Sublist early := by
  refine ⟨?_, ?_, ?_, ?_, ?_, ?_, ?_⟩ <;> decide +kernel

/-- A cookie from before the run, a subscription after it, and one more event. -/
theorem syncComplete_after_block :
    (sampleGenesis.run loadRun).stream.view.isSome = true ∧
      ∀ v, (sampleGenesis.run loadRun).stream.view = some v →
        ∃ reply, ((streamMachine sampleParams).out (sampleGenesis.run (loadRun ++ overtakingRun))
            (.sub (v.syncCookie sampleParams.crypto.walletAddress) 9 ⟨false, false⟩)).updates =
              [(9, reply)] ∧
          (reply.syncReset = true ∨
            ((streamMachine sampleParams).collect (NodeState.accepted sampleParams)
              (sampleGenesis.run loadRun) (overtakingRun ++
                [.sub (v.syncCookie sampleParams.crypto.walletAddress) 9 ⟨false, false⟩,
                  .newEventReceived (sampleEvent none 8) ⟨false, false⟩])).Sublist
              (reply.events ++ (streamMachine sampleParams).collect
                (notified sampleParams 9)
                ((streamMachine sampleParams).next (sampleGenesis.run (loadRun ++ overtakingRun))
                  (.sub (v.syncCookie sampleParams.crypto.walletAddress) 9 ⟨false, false⟩))
                [.newEventReceived (sampleEvent none 8) ⟨false, false⟩])) := by
  have hcookie : (sampleGenesis.run loadRun).stream.view.map
      (·.syncCookie sampleParams.crypto.walletAddress) = some genesisCookie := by decide +kernel
  refine ⟨by decide +kernel, fun v hv => ?_⟩
  have hv' : v.syncCookie sampleParams.crypto.walletAddress = genesisCookie := by
    rw [hv] at hcookie
    exact Option.some.inj hcookie
  have hsync := syncComplete sampleGenesis loadRun overtakingRun
    [.newEventReceived (sampleEvent none 8) ⟨false, false⟩] v hv 9 ⟨false, false⟩
    (by rw [hv']; decide +kernel) (by decide +kernel)
  obtain ⟨-, hok, hreply⟩ := hsync
  obtain ⟨reply, hupdates, -, hcases⟩ := hreply (hok (by decide +kernel))
  refine ⟨reply, hupdates, ?_⟩
  rcases hcases with hreset | ⟨-, hevents, -⟩
  · exact .inl hreset.1
  · exact .inr hevents

end River.Node
