/-
  Concurrent `addParsedEvent` requests.
-/

import River.Node.Rpc.ReplayProtection

namespace River.Node

open List

def Action.isLocal : Action → Bool
  | .newEventReceived _ _ => false
  | _ => true

/-- The event was not added since its view was read. -/
def NotAddedSince (p : StreamParams) (s : NodeState) : Action → Prop
  | .addEvent i _ =>
    ∀ q ∈ s.requests[i]?, q.status = .adding → q.event.hash ∉
      (chainEvents ((s.stream.storedBlocks p).drop q.view.minipool.generation.toNat) ++
        s.stream.minipool p).map (·.hash)
  | _ => True

instance (p : StreamParams) (s : NodeState) (a : Action) : Decidable (NotAddedSince p s a) := by
  unfold NotAddedSince
  split <;> infer_instance

/-! ## Requests -/

structure Request.Validated (q : Request) : Prop where
  prevMiniblockHash : q.event.event.prevMiniblockHash ≠ none
  getMiniblockHeader : q.event.event.getMiniblockHeader = none
  validateNextEvent : ∃ cfg currentTime, q.view.validateNextEvent cfg q.event currentTime = .ok ()

theorem Request.validated_of_validate {q : Request}
    (h : (q.validate p heap a).1 = .ok (some required)) :
    q.Validated := by
  have h' : Rules.canAddEvent ⟨p.cfg, a.validNodeAddresses, a.currentTime, q.view, q.event⟩ heap =
      (.ok (some required), (q.validate p heap a).2) := by
    rw [← h]
    rfl
  obtain ⟨-, hprev, hvalid, htype, -⟩ := Rules.canAddEvent_eq_ok.1 h'
  refine ⟨hprev, ?_, _, _, hvalid⟩
  unfold StreamEvent.getMiniblockHeader
  split
  · rename_i header hpayload
    rw [hpayload] at htype
    cases htype
  · rfl

theorem NodeState.requests_next {s : NodeState}
    (h : ∀ q ∈ s.requests, q.status = .adding → q.Validated) (a : Action) :
    ∀ q ∈ ((streamMachine p).next s a).requests, q.status = .adding → q.Validated := by
  have ht := s.transition p a
  generalize (streamMachine p).next s a = s' at ht ⊢
  cases ht with
  | getStream hparse hrequests =>
    rcases hrequests with rfl | ⟨-, -, rfl⟩
    · exact h
    · exact forall_mem_append.2 ⟨h, forall_mem_singleton.2 nofun⟩
  | canAddEvent hq hdue hpass =>
    intro q' hq' hstatus
    rcases mem_or_eq_of_mem_set hq' with hq' | rfl
    · exact h q' hq' hstatus
    · obtain ⟨_, hrequired⟩ := hpass hstatus
      obtain ⟨hprev, hheader, hnext⟩ := Request.validated_of_validate hrequired
      exact ⟨hprev, hheader, hnext⟩
  | addEvent hq hdue =>
    intro q' hq' hstatus
    rcases mem_or_eq_of_mem_set hq' with hq' | rfl
    · exact h q' hq' hstatus
    · cases hstatus
  | _ => exact h

/-! ## No event twice -/

def RefersBefore (blocks : List Miniblock) (n : Nat) (envelope : Envelope) : Prop :=
  envelope.event.prevMiniblockHash = none ∨
    ∃ i < n, ∃ pb, blocks[i]? = some pb ∧ envelope.event.prevMiniblockHash = some pb.hash

theorem RefersBefore.concat (h : RefersBefore blocks n envelope) (pb : Miniblock) :
    RefersBefore (blocks ++ [pb]) n envelope := by
  rcases h with h | ⟨i, hi, pb', hpb', hprev⟩
  · exact .inl h
  · refine .inr ⟨i, hi, pb', ?_, hprev⟩
    rw [getElem?_append_left (List.getElem?_eq_some_iff.1 hpb').1]
    exact hpb'

structure Log.Unique (l : Log) : Prop where
  stored : l.stored = l.pool
  nodup : (l.pool.map (·.hash)).Nodup
  notMem : ∀ envelope ∈ l.pool, envelope.hash ∉ (chainEvents l.blocks).map (·.hash)
  blockRefs : ∀ (j : Nat) pb, l.blocks[j]? = some pb → ∀ envelope ∈ pb.events,
    RefersBefore l.blocks j envelope
  poolRefs : ∀ envelope ∈ l.pool, RefersBefore l.blocks l.blocks.length envelope

structure Log.Fresh (l : Log) (e : ParsedEvent) : Prop where
  getMiniblockHeader : e.event.getMiniblockHeader = none
  notMem : e.hash ∉ (chainEvents l.blocks ++ l.pool).map (·.hash)
  refers : RefersBefore l.blocks l.blocks.length e.envelope

theorem Log.Unique.effect {l l' : Log} (h : l.Unique) (he : Effect adding l l' accepted applied)
    (hstored : l'.pool <+: l'.stored) (hfresh : ∀ e ∈ adding, l.Fresh e) : l'.Unique := by
  cases he with
  | @quiet pool' hpre =>
    cases Log.pool_eq h.stored hpre hstored
    exact ⟨h.stored, h.nodup, h.notMem, h.blockRefs, h.poolRefs⟩
  | @event e hadding _ _ _ =>
    obtain ⟨-, hnew, hrefers⟩ := hfresh e hadding
    rw [map_append, mem_append, not_or] at hnew
    refine ⟨congrArg (· ++ [e.envelope]) h.stored, ?_, ?_, h.blockRefs, ?_⟩
    · rw [map_append, map_singleton, ← concat_eq_append]
      exact h.nodup.concat hnew.2
    · exact forall_mem_append.2 ⟨h.notMem, forall_mem_singleton.2 hnew.1⟩
    · exact forall_mem_append.2 ⟨h.poolRefs, forall_mem_singleton.2 hrefers⟩
  | @refused e hadding _ hrefused =>
    obtain ⟨hheader, hnew, -⟩ := hfresh e hadding
    rw [map_append, mem_append, not_or] at hnew
    rcases hrefused with hno | hmem
    · exact absurd hheader hno
    · exact absurd hmem hnew.2
  | @block pb pool' hsplit =>
    have hnodup := h.nodup
    rw [hsplit, map_append, nodup_append] at hnodup
    refine ⟨rfl, hnodup.2.1, ?_, ?_, ?_⟩
    · intro envelope henvelope hmem
      rw [chainEvents_concat, map_append, mem_append] at hmem
      rcases hmem with hmem | hmem
      · exact h.notMem envelope (hsplit ▸ mem_append_right _ henvelope) hmem
      · exact hnodup.2.2 _ hmem _ (mem_map_of_mem henvelope) rfl
    · intro j pb' hpb' envelope henvelope
      rcases getElem?_concat_cases hpb' with hpb' | ⟨rfl, rfl⟩
      · exact (h.blockRefs j pb' hpb' envelope henvelope).concat pb
      · exact (h.poolRefs envelope (hsplit ▸ mem_append_left _ henvelope)).concat _
    · intro envelope henvelope
      have hrefers := (h.poolRefs envelope (hsplit ▸ mem_append_right _ henvelope)).concat pb
      rcases hrefers with hnone | ⟨i, _, hpb⟩
      · exact .inl hnone
      · refine .inr ⟨i, ?_, hpb⟩
        rw [length_append]
        omega

theorem StreamView.validateNextEvent_eq_ok {v : StreamView}
    (h : v.validateNextEvent cfg e currentTime = .ok ()) :
    ∃ before b after, v.blocks = before ++ b :: after ∧
      b.hash = e.event.prevMiniblockHash.getD [] ∧
        ∀ b' ∈ after, e.hash ∉ b'.events.map (·.hash) := by
  unfold StreamView.validateNextEvent at h
  split at h
  · cases h
  rename_i after hafter
  split at h
  · cases h
  split at h
  · cases h
  rename_i hnone
  obtain ⟨before, b, hblocks, hhash⟩ := blocksAfter_eq_some hafter
  refine ⟨before, b, after, hblocks, hhash, ?_⟩
  intro b' hb' hmem
  obtain ⟨e', he', heq⟩ := mem_map.1 hmem
  apply hnone
  exact any_eq_true.2 ⟨b', hb', any_eq_true.2 ⟨e', he', decide_eq_true heq⟩⟩

namespace Inv

variable {p : StreamParams} {hashed : List EventBytes} {s : NodeState} {r : Record}

theorem hash_injective (h : Inv p hashed s r) (hfree : p.crypto.CollisionFree hashed) {i j : Nat}
    (hi : r.blocks[i]? = some pb) (hj : r.blocks[j]? = some pb')
    (hhash : pb.hash = pb'.hash) : i = j := by
  have hheader : ∀ {k : Nat} {pb : Miniblock}, r.blocks[k]? = some pb →
      pb.hash = p.crypto.riverHash pb.header.event ∧ pb.header.event ∈ hashed ∧
        ∃ header, pb.header? = some header ∧ header.miniblockNum = k := by
    intro k pb hk
    obtain ⟨header, hat⟩ := h.sound.stored.chain.header_at hk
    obtain ⟨_, -, hauth, -⟩ := hat.wellFormed.header
    refine ⟨(authenticate_eq_ok hauth).1, h.hashed _ (mem_append_left _ ?_), header, hat.header, ?_⟩
    · exact mem_flatMap.2 ⟨pb, mem_of_getElem? hk, mem_append_right _ (mem_singleton_self _)⟩
    · have hlt := (List.getElem?_eq_some_iff.1 hk).1
      rw [hat.miniblockNum, length_take, Nat.min_eq_left hlt.le]
  obtain ⟨hhash1, hmem1, _, hh1, hnum1⟩ := hheader hi
  obtain ⟨hhash2, hmem2, _, hh2, hnum2⟩ := hheader hj
  have hbytes := hfree _ hmem1 _ hmem2 (hhash1.symm.trans (hhash.trans hhash2))
  rw [Miniblock.header?, hbytes] at hh1
  rw [Miniblock.header?, hh1, Option.some.injEq] at hh2
  rw [hh2, hnum2] at hnum1
  exact (Int.ofNat.inj hnum1).symm

theorem fresh (h : Inv p hashed s r) (hfree : p.crypto.CollisionFree hashed)
    (hunique : (s.stream.log p).Unique) {q : Request} (hq : q ∈ s.requests) (hvalid : q.Validated)
    (hsince : q.event.hash ∉
      (chainEvents ((s.stream.storedBlocks p).drop q.view.minipool.generation.toNat) ++
        s.stream.minipool p).map (·.hash)) :
    (s.stream.log p).Fresh q.event := by
  rw [h.sound.log_eq] at hunique ⊢
  rw [h.sound.storedBlocks, map_append, mem_append, not_or] at hsince
  obtain ⟨hdec, hmem, m, hm, hwindow, -⟩ := h.requests q hq
  obtain ⟨k, hk, -⟩ := hwindow.blocks
  obtain ⟨_, _, hnext⟩ := hvalid.validateNextEvent
  obtain ⟨before, b, _, hblocks, hb, hafter⟩ := StreamView.validateNextEvent_eq_ok hnext
  obtain ⟨_, hprev⟩ := Option.ne_none_iff_exists'.1 hvalid.prevMiniblockHash
  rw [hprev, Option.getD_some] at hb
  have hgen : q.view.minipool.generation.toNat = m := by
    rw [hwindow.generation, length_take, Nat.min_eq_left hm, Int.toNat_natCast]
  rw [hgen] at hsince
  -- the block the event refers to is block `i`, one of the first `m`
  obtain ⟨pb, hi, hholds⟩ := Lib.forall₂_getElem? hk (i := before.length) (a := b)
    (by simp [hblocks])
  rw [getElem?_drop] at hi
  have hi' : r.blocks[k + before.length]? = some pb := by
    rw [getElem?_take] at hi
    split at hi
    · exact hi
    · cases hi
  have hprev' : q.event.envelope.event.prevMiniblockHash = some pb.hash := by
    rw [hdec.prevMiniblockHash_eq, hprev, ← hholds.hash_eq, hb]
  refine ⟨hvalid.getMiniblockHeader, ?_,
    .inr ⟨_, (List.getElem?_eq_some_iff.1 hi').1, pb, hi', hprev'⟩⟩
  intro hin
  rw [map_append, mem_append] at hin
  rcases hin with hin | hin
  swap
  · exact hsince.2 hin
  obtain ⟨envelope, henvelope, hhash⟩ := mem_map.1 hin
  obtain ⟨pb', hpb', hevent⟩ := mem_flatMap.1 henvelope
  obtain ⟨j, hj⟩ := getElem?_of_mem hpb'
  rcases Nat.lt_or_ge j m with hjm | hjm
  swap
  · -- a block applied since the request took its view
    apply hsince.1
    refine mem_map.2 ⟨envelope, mem_flatMap.2 ⟨pb', ?_, hevent⟩, hhash⟩
    refine mem_of_getElem? (i := j - m) ?_
    rw [getElem?_drop, Nat.add_sub_cancel' hjm]
    exact hj
  rcases Nat.lt_or_ge (k + before.length) j with _ | _
  · -- a block of the view behind block `i`
    have hj' : ((r.blocks.take m).drop k)[j - k]? = some pb' := by
      rw [getElem?_drop, Nat.add_sub_cancel' (by omega), getElem?_take_of_lt hjm]
      exact hj
    obtain ⟨b', hb', hholds'⟩ := Lib.forall₂_getElem? hk.flip hj'
    rw [hblocks, getElem?_append_right (by omega), getElem?_cons, if_neg (by omega)] at hb'
    apply hafter b' (mem_of_getElem? hb')
    rw [hholds'.map_hash, ← hhash]
    exact mem_map_of_mem hevent
  · -- block `i` or one before it: the event would refer to a block before its own
    obtain ⟨hhash', hhashed⟩ := h.hash_eq (mem_append_left _ henvelope)
    have hbytes : q.event.envelope.event = envelope.event := by
      refine hfree _ hmem _ hhashed ?_
      rw [← hdec.authentic.hash_eq, ← hhash', hhash]
    rw [hbytes] at hprev'
    rcases hunique.blockRefs j pb' hj envelope hevent with hnone | ⟨_, _, _, hpb'', href⟩
    · rw [hnone] at hprev'
      cases hprev'
    · rw [hprev', Option.some.injEq] at href
      have := h.hash_injective hfree hi' hpb'' href
      omega

end Inv

/-! ## Runs -/

theorem NodeState.adding_of_isLocal {s : NodeState} {a : Action} (hlocal : a.isLocal = true)
    (h : s.adding p a = some e) :
    ∃ i faults q, a = .addEvent i faults ∧ s.requests[i]? = some q ∧ q.status = .adding ∧
      q.event = e := by
  cases a with
  | addEvent i faults =>
    simp only [NodeState.adding] at h
    cases hq : s.requests[i]? with
    | none => simp [hq] at h
    | some q =>
      simp only [hq] at h
      split at h
      · exact ⟨i, faults, q, rfl, hq, by assumption, Option.some.inj h⟩
      · cases h
  | newEventReceived envelope faults => cases hlocal
  | _ => cases h

structure UniqueInv (p : StreamParams) (s : NodeState) : Prop where
  log : (s.stream.log p).Unique
  requests : ∀ q ∈ s.requests, q.status = .adding → q.Validated

theorem UniqueInv.step (hinv : Inv p hashed s r)
    (hfree : p.crypto.CollisionFree (hashed ++ s.hashed p a))
    (hto : StepsTo p (hashed ++ s.hashed p a) s ((streamMachine p).next s a) (s.adding p a)
      (s.accepted p a) (s.applied p a)) (h : UniqueInv p s) (hlocal : a.isLocal = true)
    (hsince : NotAddedSince p s a) :
    UniqueInv p ((streamMachine p).next s a) := by
  obtain ⟨_, hinv', heffect⟩ := hto
  refine ⟨h.log.effect heffect ?_ ?_, NodeState.requests_next h.requests a⟩
  · rw [hinv'.sound.log_eq]
    exact hinv'.sound.minipool_prefix
  intro e he
  obtain ⟨i, _, q, rfl, hq, hstatus, rfl⟩ := NodeState.adding_of_isLocal hlocal he
  have hmem := mem_of_getElem? hq
  exact hinv.fresh (hfree.mono (subset_append_left _ _)) h.log hmem
    (h.requests q hmem hstatus) (hsince q hq hstatus)

/-- **Concurrent requests.** If no request adds an event whose hash was added since it took its
    view: no hash is twice in the stored minipool, no event is in a block and in the minipool, the
    stored minipool is that of the view, and neither loading the stream nor `AddEvent` panics. -/
theorem addParsedEvent_unique {p : StreamParams} (g : Genesis p) (acts : List Action)
    (hfree : p.crypto.CollisionFree (g.hashedBy acts))
    (hacts : (streamMachine p).Along (fun s a => a.isLocal = true ∧ NotAddedSince p s a)
      g.init acts) :
    let s := g.run acts
    ((s.stream.storedPool p).map (·.hash)).Nodup ∧
      (∀ envelope ∈ s.stream.storedPool p,
        envelope.hash ∉ (chainEvents (s.stream.storedBlocks p)).map (·.hash)) ∧
      (∀ v, s.stream.view = some v →
        s.stream.storedPool p = v.minipool.events.values.map (·.envelope)) ∧
      (∀ faults m, (s.stream.loadInternal p faults).2 ≠ .panic m) ∧
      ∀ i faults, NotAddedSince p s (.addEvent i faults) →
        ∀ m, ((streamMachine p).out s (.addEvent i faults)).result ≠ .panic m := by
  intro s
  obtain ⟨r, hinv⟩ := g.inv_run acts hfree
  have hinit : UniqueInv p g.init := by
    refine ⟨?_, fun q hq => by cases hq⟩
    rw [g.inv_init.sound.log_eq]
    have hpool : g.init.stream.minipool p = [] := by
      rw [StreamImpl.minipool_of_none rfl, g.inv_init.sound.storedPool]
      rfl
    rw [hpool]
    refine ⟨rfl, nodup_nil, fun e he => (not_mem_nil he).elim, ?_,
      fun e he => (not_mem_nil he).elim⟩
    -- the events of the genesis miniblock refer to no block
    intro j pb hj envelope henvelope
    obtain rfl : g.miniblock = pb := (mem_singleton.1 (mem_of_getElem? hj)).symm
    rw [g.miniblock_events] at henvelope
    obtain ⟨e, he, rfl⟩ := mem_map.1 henvelope
    exact .inl (by rw [ParsedEvent.Decoded.prevMiniblockHash_eq (g.parsed e he),
      g.prevMiniblockHash_none e he])
  have hrun : UniqueInv p s :=
    Inv.collect (f := fun _ _ => ([] : List Unit))
      (J := fun _ s => UniqueInv p s)
      (fun _ _ _ _ _ h hfree hto hJ hP => hJ.step h hfree hto hP.1 hP.2) g.inv_init (l := []) hinit
      hacts hfree
  have hlog := hrun.log
  have hstored : s.stream.storedPool p = s.stream.minipool p := hlog.stored
  have hnodup : (r.pool.map (·.hash)).Nodup := by
    rw [← hinv.sound.storedPool, hstored]
    exact hlog.nodup
  refine ⟨hstored ▸ hlog.nodup, hstored ▸ hlog.notMem, ?_, ?_, ?_⟩
  · intro v hv
    rw [hstored, StreamImpl.minipool_of_view hv]
    rfl
  · intro faults m hpanic
    rcases StreamImpl.loadInternal_cases hinv.sound faults with
      ⟨v, n, heq, -⟩ | ⟨-, res, hres, heq⟩
    · rw [heq] at hpanic
      cases hpanic
    rw [heq] at hpanic
    cases hpanic
    cases hres with
    | duplicate hdup => exact hdup hnodup
  · intro i faults hsince m
    simp only [Lib.Machine.out, streamMachine, NodeState.step, NodeState.addEvent]
    cases hq : s.requests[i]? with
    | none => simp [Outcome.done]
    | some q =>
      simp only
      split
      · simp [Outcome.done]
      rename_i hstatus
      rw [not_not] at hstatus
      have hmem := mem_of_getElem? hq
      obtain ⟨hheader, hnew, -⟩ := hinv.fresh hfree hlog hmem (hrun.requests q hmem hstatus)
        (hsince q hq hstatus)
      rw [map_append, mem_append, not_or] at hnew
      exact StreamImpl.addEvent_ne_panic hinv.sound hnodup hheader hnew.2 faults m

def racedEvent : Envelope := sampleEvent (some sampleMiniblock.hash) 3

def sampleAnswers : Answers where
  currentTime := 1000000000
  validNodeAddresses := []
  entitled := true
  parentAdded := true

def racePrelude : List Action :=
  [.getStream racedEvent ⟨false, false⟩, .getStream racedEvent ⟨false, false⟩,
    .canAddEvent 0 sampleAnswers, .canAddEvent 1 sampleAnswers]

def raceRun : List Action := racePrelude ++ [.addEvent 0 ⟨false, false⟩, .addEvent 1 ⟨false, false⟩]

def raceWithBlockRun : List Action :=
  racePrelude ++ [.addEvent 0 ⟨false, false⟩, .generateMiniblockProposal false,
    .makeMiniblockHeader 0 ⟨2, 0⟩, .makeMiniblock 0 [4] 0, .storeMiniblockCandidate 0 false,
    .applyMiniblock 0 ⟨false, false⟩, .addEvent 1 ⟨false, false⟩]

/-- The second `AddEvent` panics after it wrote the event: the store has it twice, the view once,
    and the stream cannot be loaded any more. If the first copy is in a block already, the event is
    then in a block and in the minipool. -/
theorem addParsedEvent_race :
    (∀ a ∈ raceRun ++ raceWithBlockRun, a.isLocal = true) ∧
      sampleParams.crypto.CollisionFree (sampleGenesis.hashedBy raceRun) ∧
      sampleParams.crypto.CollisionFree (sampleGenesis.hashedBy raceWithBlockRun) ∧
      ((streamMachine sampleParams).out
        (sampleGenesis.run (racePrelude ++ [.addEvent 0 ⟨false, false⟩]))
        (.addEvent 1 ⟨false, false⟩)).result = .panic "key already exists" ∧
      (sampleGenesis.run raceRun).stream.storedPool sampleParams = [racedEvent, racedEvent] ∧
      (sampleGenesis.run raceRun).stream.minipool sampleParams = [racedEvent] ∧
      ((sampleGenesis.run (raceRun ++ [.forceFlush])).stream.loadInternal sampleParams
        ⟨false, false⟩).2 = .panic "key already exists" ∧
      racedEvent ∈ chainEvents
        ((sampleGenesis.run raceWithBlockRun).stream.storedBlocks sampleParams) ∧
      (sampleGenesis.run raceWithBlockRun).stream.storedPool sampleParams = [racedEvent] := by
  refine ⟨?_, ?_, ?_, ?_, ?_, ?_, ?_, ?_, ?_⟩ <;> decide +kernel

def noRaceRun : List Action :=
  [.getStream racedEvent ⟨false, false⟩,
    .getStream (sampleEvent (some sampleMiniblock.hash) 5) ⟨false, false⟩,
    .canAddEvent 0 sampleAnswers, .canAddEvent 1 sampleAnswers, .addEvent 0 ⟨false, false⟩,
    .generateMiniblockProposal false, .makeMiniblockHeader 0 ⟨2, 0⟩, .makeMiniblock 0 [4] 0,
    .storeMiniblockCandidate 0 false, .applyMiniblock 0 ⟨false, false⟩, .addEvent 1 ⟨false, false⟩]

theorem addParsedEvent_unique_two_requests :
    (streamMachine sampleParams).Along (fun s a => a.isLocal = true ∧
      NotAddedSince sampleParams s a)
        sampleGenesis.init noRaceRun ∧
      ((sampleGenesis.run noRaceRun).stream.storedPool sampleParams).length = 1 ∧
      (((sampleGenesis.run noRaceRun).stream.storedPool sampleParams).map (·.hash)).Nodup ∧
      ∀ envelope ∈ (sampleGenesis.run noRaceRun).stream.storedPool sampleParams, envelope.hash ∉
        (chainEvents ((sampleGenesis.run noRaceRun).stream.storedBlocks sampleParams)).map
          (·.hash) := by
  have hacts : (streamMachine sampleParams).Along
      (fun s a => a.isLocal = true ∧ NotAddedSince sampleParams s a) sampleGenesis.init
      noRaceRun := by decide +kernel
  obtain ⟨hnodup, hnotMem, -⟩ :=
    addParsedEvent_unique sampleGenesis noRaceRun (by decide +kernel) hacts
  exact ⟨hacts, by decide +kernel, hnodup, hnotMem⟩

end River.Node
