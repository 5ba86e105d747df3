/-
  An event that is already in the stream is not valid again.
-/

import River.Node.Rpc.Invariant

namespace River.Node

open List StreamView

def EventBytes.prevMiniblockHash (b : EventBytes) : Option Bytes :=
  b.unmarshal.bind (·.prevMiniblockHash)

/-- No event of a new block refers to the block. -/
def NoSelfReference (p : StreamParams) (s : NodeState) : Action → Prop
  | .makeMiniblock i salt epochMillis =>
    ∀ x ∈ s.headers[i]?, ∀ e ∈ x.2,
      e.envelope.event.prevMiniblockHash ≠ some (s.headerEvent p x.1 salt epochMillis).hash
  | _ => True

/-- No event of the blocks so far refers to a new block. -/
def NoForwardReference (p : StreamParams) (s : NodeState) : Action → Prop
  | .makeMiniblock i salt epochMillis =>
    ∀ x ∈ s.headers[i]?, ∀ envelope ∈ chainEvents (s.stream.storedBlocks p),
      envelope.event.prevMiniblockHash ≠ some (s.headerEvent p x.1 salt epochMillis).hash
  | _ => True

instance (p : StreamParams) (s : NodeState) (a : Action) : Decidable (NoSelfReference p s a) := by
  unfold NoSelfReference
  split <;> infer_instance

instance (p : StreamParams) (s : NodeState) (a : Action) :
    Decidable (NoForwardReference p s a) := by
  unfold NoForwardReference
  split <;> infer_instance

/-! ## Events refer back -/

def RefersBack (pbs : List Miniblock) : Prop :=
  ∀ (j : Nat) pb, pbs[j]? = some pb → ∀ envelope ∈ pb.events, ∀ (i : Nat) pb', pbs[i]? = some pb' →
    envelope.event.prevMiniblockHash = some pb'.hash → i < j

variable {pb : Miniblock} {envelope : Envelope}

theorem RefersBack.concat (h : RefersBack pbs)
    (hpb : ∀ envelope ∈ chainEvents pbs ++ pb.events,
      envelope.event.prevMiniblockHash ≠ some pb.hash) : RefersBack (pbs ++ [pb]) := by
  intro j pbj hj envelope henvelope i pbi hi hprev
  have hmem : envelope ∈ chainEvents pbs ++ pb.events := by
    rcases getElem?_concat_cases hj with hj | ⟨-, rfl⟩
    · exact mem_append_left _ (mem_flatMap.2 ⟨_, mem_of_getElem? hj, henvelope⟩)
    · exact mem_append_right _ henvelope
  rcases getElem?_concat_cases hi with hi | ⟨-, rfl⟩
  swap
  · exact absurd hprev (hpb envelope hmem)
  rcases getElem?_concat_cases hj with hj | ⟨rfl, -⟩
  · exact h j pbj hj envelope henvelope i pbi hi hprev
  · exact (List.getElem?_eq_some_iff.1 hi).1

structure RefersBackInv (p : StreamParams) (s : NodeState) : Prop where
  chain : RefersBack (s.stream.storedBlocks p)
  miniblocks : ∀ b ∈ s.miniblocks, b.num = (s.stream.storedBlocks p).length →
    ∀ envelope ∈ chainEvents (s.stream.storedBlocks p) ++ b.proto.events,
      envelope.event.prevMiniblockHash ≠ some b.proto.hash

theorem NodeState.miniblocks_next (p : StreamParams) (s : NodeState) (a : Action) :
    ((streamMachine p).next s a).miniblocks = s.miniblocks ∨
      ∃ i salt epochMillis x b, a = .makeMiniblock i salt epochMillis ∧ s.headers[i]? = some x ∧
        newMiniblockInfoFromParsed (s.headerEvent p x.1 salt epochMillis) x.2 = .ok b ∧
        ((streamMachine p).next s a).miniblocks = s.miniblocks ++ [b] := by
  have h := s.transition p a
  generalize (streamMachine p).next s a = s' at h ⊢
  cases h with
  | makeMiniblock hx hmake => exact .inr ⟨_, _, _, _, _, rfl, hx, hmake, rfl⟩
  | _ => exact .inl rfl

variable {p : StreamParams} {s : NodeState}

theorem NodeState.mem_applied (h : pb ∈ s.applied p a) : ∃ b ∈ s.miniblocks, b.proto = pb := by
  cases a with
  | applyMiniblock i faults =>
    simp only [NodeState.applied] at h
    cases hb : s.miniblocks[i]? with
    | none => simp [hb] at h
    | some b =>
      simp only [hb, Outcome.onSuccess] at h
      split at h
      · exact ⟨b, mem_of_getElem? hb, (mem_singleton.1 h).symm⟩
      · cases h
  | _ => cases h

theorem RefersBackInv.step (hinv : Inv p hashed s r)
    (hto : StepsTo p hashed' s ((streamMachine p).next s a) (s.adding p a) (s.accepted p a)
      (s.applied p a)) (h : RefersBackInv p s)
    (hself : NoSelfReference p s a ∧ NoForwardReference p s a) :
    RefersBackInv p ((streamMachine p).next s a) := by
  obtain ⟨_, hinv', heffect⟩ := hto
  have hstored := hinv.sound.storedBlocks
  obtain ⟨hblocks, happlied⟩ := heffect.blocks_eq
  have hblocks : ((streamMachine p).next s a).stream.storedBlocks p =
      s.stream.storedBlocks p ++ s.applied p a := hblocks
  rcases happlied with happlied | ⟨pb, happlied⟩
  · -- no new block in the chain, perhaps a new one in flight
    rw [happlied, append_nil] at hblocks
    refine ⟨hblocks ▸ h.chain, ?_⟩
    rw [hblocks]
    rcases s.miniblocks_next p a with hsame | ⟨i, salt, epochMillis, x, b, rfl, hx, hmake, hnew⟩
    · rw [hsame]
      exact h.miniblocks
    rw [hnew]
    refine forall_mem_append.2 ⟨h.miniblocks, forall_mem_singleton.2 fun _ => ?_⟩
    obtain ⟨-, -, hproto⟩ := newMiniblockInfoFromParsed_eq_ok hmake
    rw [hproto]
    refine forall_mem_append.2 ⟨hself.2 x hx, fun envelope henvelope => ?_⟩
    obtain ⟨e, he, rfl⟩ := mem_map.1 henvelope
    exact hself.1 x hx e he
  · -- a block is applied: it has the number of the next block, and the others in flight do not
    obtain ⟨b, hb, hproto⟩ := NodeState.mem_applied (happlied ▸ mem_singleton_self pb)
    have hmini : ((streamMachine p).next s a).miniblocks = s.miniblocks := by
      rcases s.miniblocks_next p a with hsame | ⟨i, salt, epochMillis, x, b, rfl, -⟩
      · exact hsame
      · cases happlied
    have hat : (((streamMachine p).next s a).stream.storedBlocks p)[r.blocks.length]? =
        some pb := by
      rw [hblocks, happlied, hstored, getElem?_concat_length]
    have hnum : b.num = (s.stream.storedBlocks p).length := by
      rw [hinv'.sound.storedBlocks] at hat
      obtain ⟨_, hheader⟩ := hinv'.sound.stored.chain.header_at hat
      obtain ⟨_, hb'⟩ := (hinv.miniblocks b hb).holds.header?
      have hlen := (List.getElem?_eq_some_iff.1 hat).1
      rw [hproto, hheader.header, Option.some.injEq] at hb'
      have hn := hheader.miniblockNum
      rw [length_take, Nat.min_eq_left hlen.le, hb'] at hn
      rw [hstored]
      exact hn
    refine ⟨?_, ?_⟩
    · rw [hblocks, happlied]
      exact h.chain.concat (hproto ▸ h.miniblocks b hb hnum)
    rw [hmini, hblocks, happlied, hstored]
    intro b' hb' hnum'
    obtain ⟨m, -, hfollows, -⟩ := (hinv.miniblocks b' hb').built
    have hlen := hfollows.miniblockNum
    have hnum' : b'.header.miniblockNum = _ := hnum'
    rw [length_take, hnum', length_append, length_singleton] at hlen
    omega

/-! ## Validation -/

theorem blocksAfter_eq_some {hash : Bytes} {bs after : List MiniblockInfo}
    (h : blocksAfter hash bs = some after) :
    ∃ before b, bs = before ++ b :: after ∧ b.hash = hash := by
  induction bs with
  | nil => cases h
  | cons b bs ih =>
    unfold blocksAfter at h
    split at h
    · rename_i after' hafter
      cases h
      obtain ⟨before, b', heq, hhash⟩ := ih hafter
      exact ⟨b :: before, b', by rw [heq, cons_append], hhash⟩
    · split at h
      · rename_i hhash
        cases h
        exact ⟨[], b, rfl, hhash⟩
      · cases h

variable {e : ParsedEvent}

theorem ParsedEvent.Decoded.prevMiniblockHash_eq (h : e.Decoded C) :
    e.envelope.event.prevMiniblockHash = e.event.prevMiniblockHash := by
  rw [EventBytes.prevMiniblockHash, (authenticate_eq_ok h).2]
  rfl

variable {v : StreamView}

theorem StreamView.Window.validateNextEvent_of_mem_chain {sid : StreamId} (h : v.Window C sid pbs)
    (hback : RefersBack pbs) (he : e.Decoded C) (hmem : envelope ∈ chainEvents pbs)
    (hhash : e.hash = envelope.hash) (hbytes : e.envelope.event = envelope.event)
    (cfg : RecencyConstraintsConfig) (currentTime : Int) :
    ∃ err, v.validateNextEvent cfg e currentTime = .error err := by
  obtain ⟨k, hk, -⟩ := h.blocks
  obtain ⟨pb, hpb, hevent⟩ := mem_flatMap.1 hmem
  obtain ⟨j, hj⟩ := getElem?_of_mem hpb
  unfold validateNextEvent
  split
  · exact ⟨_, rfl⟩
  rename_i after hafter
  obtain ⟨before, b, hblocks, hb⟩ := blocksAfter_eq_some hafter
  -- the block it refers to is block `i` of the chain
  obtain ⟨pb', hi, hholds⟩ := Lib.forall₂_getElem? hk (i := before.length) (a := b)
    (by simp [hblocks])
  rw [getElem?_drop] at hi
  have hprev : envelope.event.prevMiniblockHash = some pb'.hash := by
    rw [← hbytes, he.prevMiniblockHash_eq, ← hholds.hash_eq, hb]
    cases hp : e.event.prevMiniblockHash with
    | some hash => rfl
    | none =>
      -- no block has the empty hash
      have hlen : b.hash.length = 32 := by
        rw [MiniblockInfo.hash, hholds.headerEvent_authentic.hash_eq]
        exact C.riverHash_length _
      rw [hb, hp] at hlen
      cases hlen
  have hlt : k + before.length < j := hback j pb hj envelope hevent _ pb' hi hprev
  obtain ⟨b', hb', hholds'⟩ : ∃ b', v.blocks[j - k]? = some b' ∧ b'.Holds C pb := by
    have hj' : (pbs.drop k)[j - k]? = some pb := by
      rw [getElem?_drop, Nat.add_sub_cancel' (by omega)]
      exact hj
    obtain ⟨b', hb', hholds'⟩ := Lib.forall₂_getElem? hk.flip hj'
    exact ⟨b', hb', hholds'⟩
  have hmem' : b' ∈ after := by
    rw [hblocks, getElem?_append_right (by omega), getElem?_cons, if_neg (by omega)] at hb'
    exact mem_of_getElem? hb'
  have hany : after.any (fun b => b.events.any (·.hash = e.hash)) = true := by
    rw [any_eq_true]
    refine ⟨b', hmem', ?_⟩
    have hhashes : e.hash ∈ b'.events.map (·.hash) := by
      rw [hholds'.map_hash, hhash]
      exact mem_map_of_mem hevent
    obtain ⟨e', he', heq⟩ := mem_map.1 hhashes
    exact any_eq_true.2 ⟨e', he', decide_eq_true heq⟩
  split <;> exact ⟨_, rfl⟩

theorem StreamView.validateNextEvent_of_mem_minipool
    (hmem : e.hash ∈ v.minipoolEnvelopes.map (·.hash)) (cfg : RecencyConstraintsConfig)
    (currentTime : Int) : ∃ err, v.validateNextEvent cfg e currentTime = .error err := by
  have hany : v.minipool.events.values.any (·.hash = e.hash) = true := by
    rw [v.minipoolEnvelopes_hash] at hmem
    obtain ⟨e', he', heq⟩ := mem_map.1 hmem
    exact any_eq_true.2 ⟨e', he', decide_eq_true heq⟩
  unfold validateNextEvent
  split
  · exact ⟨_, rfl⟩
  split
  · exact ⟨_, rfl⟩
  · split <;> exact ⟨_, rfl⟩

/-- **Replay protection.** After every run, an event whose hash is that of an event of some
    block, in the window of the view or trimmed from it, or of the minipool, is refused by
    `ValidateNextEvent` on the view, for every configuration and every clock. -/
theorem replayProtection {p : StreamParams} (g : Genesis p) (acts : List Action) (e : ParsedEvent)
    (he : e.Decoded p.crypto)
    (hfree : p.crypto.CollisionFree (g.hashedBy acts ++ [e.envelope.event]))
    (hself : (streamMachine p).Along (fun s a => NoSelfReference p s a ∧ NoForwardReference p s a)
      g.init acts) (v : StreamView)
    (hv : (g.run acts).stream.view = some v)
    (hmem : e.hash ∈ (chainEvents ((g.run acts).stream.storedBlocks p) ++
      v.minipoolEnvelopes).map (·.hash))
    (cfg : RecencyConstraintsConfig) (currentTime : Int) :
    ∃ err, v.validateNextEvent cfg e currentTime = .error err := by
  have hfree' := hfree.mono (subset_append_left _ _)
  obtain ⟨r, hinv⟩ := g.inv_run acts hfree'
  rw [map_append, mem_append] at hmem
  rcases hmem with hmem | hmem
  swap
  · exact validateNextEvent_of_mem_minipool hmem cfg currentTime
  have hinit : RefersBackInv p g.init := by
    refine ⟨?_, ?_⟩
    · -- the events of the genesis miniblock refer to no block
      rw [g.inv_init.sound.storedBlocks]
      rintro j pb hj envelope henvelope i _ - hprev
      obtain rfl : g.miniblock = pb := by
        have := mem_of_getElem? hj
        exact (mem_singleton.1 this).symm
      rw [g.miniblock_events] at henvelope
      obtain ⟨e, he, rfl⟩ := mem_map.1 henvelope
      rw [ParsedEvent.Decoded.prevMiniblockHash_eq (g.parsed e he),
        g.prevMiniblockHash_none e he] at hprev
      cases hprev
    · intro b hb
      cases hb
  have hback : RefersBackInv p (g.run acts) :=
    Inv.collect (f := fun _ _ => ([] : List Unit))
      (J := fun _ s => RefersBackInv p s) (fun _ _ _ _ _ h _ hto hJ hP => hJ.step h hto hP)
      g.inv_init (l := []) hinit hself hfree'
  obtain ⟨envelope, henvelope, hhash⟩ := mem_map.1 hmem
  rw [hinv.sound.storedBlocks] at henvelope
  -- equal hashes are hashes of equal bytes
  have hbytes : e.envelope.event = envelope.event := by
    obtain ⟨hhash', hhashed⟩ := hinv.hash_eq (mem_append_left _ henvelope)
    refine hfree _ (mem_append_right _ (mem_singleton_self _)) _ (mem_append_left _ hhashed) ?_
    rw [← he.authentic.hash_eq, ← hhash, hhash']
  exact (hinv.sound.view v hv).1.validateNextEvent_of_mem_chain
    (hinv.sound.storedBlocks ▸ hback.chain) he henvelope hhash.symm hbytes cfg currentTime

def replayedEvent (prevMiniblockHash : Bytes) : ParsedEvent where
  event := makeStreamEvent .salted (.userSettings (.userBlock ⟨[3], true, 0⟩))
    (some prevMiniblockHash) [3] 0
  envelope := sampleEvent (some prevMiniblockHash) 3
  ref := 0

/-- The event comes into block 1, which has the salt 4, and another one into block 2 with the
    salt 6. -/
def replayRun (prevMiniblockHash : Bytes) : List Action :=
  [.newEventReceived (replayedEvent prevMiniblockHash).envelope ⟨false, false⟩,
    .generateMiniblockProposal true, .makeMiniblockHeader 0 ⟨9, 0⟩, .makeMiniblock 0 [4] 0,
    .storeMiniblockCandidate 0 false, .applyMiniblock 0 ⟨false, false⟩, .forceFlush,
    .newEventReceived (sampleEvent (some sampleMiniblock.hash) 5) ⟨false, false⟩,
    .generateMiniblockProposal false, .makeMiniblockHeader 1 ⟨10, 0⟩, .makeMiniblock 1 [6] 0,
    .storeMiniblockCandidate 1 false, .applyMiniblock 1 ⟨false, false⟩]

/-- The event comes again, with the time of the block: it is refused. -/
theorem replayProtection_after_reload :
    let e := replayedEvent sampleMiniblock.hash
    let acts := replayRun sampleMiniblock.hash
    (streamMachine sampleParams).Along (fun s a => NoSelfReference sampleParams s a ∧
        NoForwardReference sampleParams s a) sampleGenesis.init acts ∧
      (sampleGenesis.run acts).stream.view.isSome = true ∧
      ∀ v, (sampleGenesis.run acts).stream.view = some v →
        ∃ err, v.validateNextEvent ⟨11, 5⟩ e 9000000000 = .error err := by
  intro e acts
  have hself : (streamMachine sampleParams).Along (fun s a => NoSelfReference sampleParams s a ∧
      NoForwardReference sampleParams s a) sampleGenesis.init acts := by decide +kernel
  have hmem : e.hash ∈ (chainEvents
      ((sampleGenesis.run acts).stream.storedBlocks sampleParams)).map (·.hash) := by
    decide +kernel
  refine ⟨hself, by decide +kernel, fun v hv => ?_⟩
  refine replayProtection sampleGenesis acts e ?_ ?_ hself v hv ?_ _ _
  · show authenticate _ _ = _
    decide +kernel
  · decide +kernel
  · rw [map_append]
    exact mem_append_left _ hmem

/-- The event of block 1 refers to block 2, so neither block contains an event that refers to it.
    After block 2 the event is valid again. -/
theorem replayProtection_forward_reference :
    let next : Bytes := 6 :: replicate 31 0
    let e := replayedEvent next
    let acts := replayRun next
    e.Decoded sampleParams.crypto ∧
      sampleParams.crypto.CollisionFree (sampleGenesis.hashedBy acts ++ [e.envelope.event]) ∧
      (streamMachine sampleParams).Along (NoSelfReference sampleParams) sampleGenesis.init acts ∧
      e.hash ∈ (chainEvents ((sampleGenesis.run acts).stream.storedBlocks sampleParams)).map
        (·.hash) ∧
      ∃ v, (sampleGenesis.run acts).stream.view = some v ∧
        v.validateNextEvent ⟨11, 5⟩ e 9000000000 = .ok () := by
  intro next e acts
  refine ⟨?_, by decide +kernel, by decide +kernel, by decide +kernel, ?_⟩
  · show authenticate _ _ = _
    decide +kernel
  have hview : ((sampleGenesis.run acts).stream.view.map
      (·.validateNextEvent ⟨11, 5⟩ e 9000000000)) = some (.ok ()) := by decide +kernel
  obtain ⟨v, hv, hvalid⟩ := Option.map_eq_some_iff.1 hview
  exact ⟨v, hv, hvalid⟩

end River.Node
