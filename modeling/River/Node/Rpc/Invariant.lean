/-
  What every run of a stream keeps.

  The stream is sound, and whatever a goroutine still carries was right when it was made: a
  captured view is a window of an earlier part of the chain, a header or a block follows an
  earlier part of it.
-/

import River.Node.Events.StreamSound
import River.Node.Rpc.StreamService

namespace River.Node

open List StreamImpl Lib.Machine NodeState Miniblock

open Storage (Represents)

/-! ## Things made from an earlier state -/

def BuiltAt {α : Type} (blocks : List Miniblock) (pool : List α) (P : List Miniblock → Prop)
    (items : List α) : Prop :=
  ∃ m, m ≤ blocks.length ∧ P (blocks.take m) ∧ (m = blocks.length → items <+: pool)

variable {α : Type} {blocks : List Miniblock} {P : List Miniblock → Prop} {items pool : List α}

theorem BuiltAt.now (hP : P blocks) (hitems : items <+: pool) : BuiltAt blocks pool P items :=
  ⟨blocks.length, Nat.le_refl _, by rwa [take_length], fun _ => hitems⟩

variable {adding : Option ParsedEvent} {accepted : List Envelope} {applied : List Miniblock}

theorem BuiltAt.effect {l l' : Log} {f : List Envelope → List α}
    (h : BuiltAt l.blocks (f l.pool) P items) (hf : ∀ l l', l <+: l' → f l <+: f l')
    (he : Effect adding l l' accepted applied) :
    BuiltAt l'.blocks (f l'.pool) P items := by
  obtain ⟨m, hm, hP, hitems⟩ := h
  cases he with
  | quiet hpre => exact ⟨m, hm, hP, fun hlen => (hitems hlen).trans (hf _ _ hpre)⟩
  | event _ _ _ _ =>
    exact ⟨m, hm, hP, fun hlen => (hitems hlen).trans (hf _ _ (prefix_append _ _))⟩
  | refused _ _ _ => exact ⟨m, hm, hP, hitems⟩
  | block hsplit =>
    refine ⟨m, ?_, ?_, fun hlen => ?_⟩
    · rw [length_append]
      omega
    · rwa [take_append_of_le_length hm]
    · rw [length_append, length_singleton] at hlen
      omega

variable {n : Int}

theorem BuiltAt.num_le (h : BuiltAt blocks pool P items) (hnum : ∀ pbs, P pbs → n = pbs.length) :
    n ≤ blocks.length := by
  obtain ⟨m, -, hP, -⟩ := h
  rw [hnum _ hP, length_take]
  omega

theorem BuiltAt.current (h : BuiltAt blocks pool P items) (hnum : ∀ pbs, P pbs → n = pbs.length)
    (hn : n = blocks.length) :
    P blocks ∧ items <+: pool := by
  obtain ⟨m, _, hP, hitems⟩ := h
  have hlen := hnum _ hP
  rw [length_take] at hlen
  obtain rfl : m = blocks.length := by omega
  rw [take_length] at hP
  exact ⟨hP, hitems rfl⟩

/-! ## The invariant -/

structure HeaderBuilt (p : StreamParams) (blocks : List Miniblock) (pool : List Envelope)
    (h : MiniblockHeader × List ParsedEvent) : Prop where
  built : BuiltAt blocks pool (h.1.Follows ·) (h.2.map (·.envelope))
  snapshotOf : h.1.SnapshotOf p.streamId
  eventHashes : h.1.eventHashes = h.2.map (·.hash)
  decoded : ∀ e ∈ h.2, e.Decoded p.crypto

structure BlockBuilt (p : StreamParams) (hashed : List EventBytes) (blocks : List Miniblock)
    (pool : List Envelope) (b : MiniblockInfo) : Prop where
  holds : b.Holds p.crypto b.proto
  built : BuiltAt blocks pool (b.header.Follows ·) b.proto.events
  snapshotOf : b.header.SnapshotOf p.streamId
  eventHashes : b.header.eventHashes = b.proto.events.map (·.hash)
  signature : b.proto.header.signature = p.crypto.signHash b.proto.header.hash
  hashed : b.proto.header.event ∈ hashed

structure Inv (p : StreamParams) (hashed : List EventBytes) (s : NodeState)
    (r : Record) : Prop where
  sound : s.stream.Sound p r
  requests : ∀ q ∈ s.requests, q.event.Decoded p.crypto ∧ q.event.envelope.event ∈ hashed ∧
    BuiltAt r.blocks (s.stream.minipool p) (q.view.Window p.crypto p.streamId ·) []
  proposals : ∀ q ∈ s.proposals, BuiltAt r.blocks ((s.stream.minipool p).map (·.hash))
    (fun pbs => q.newMiniblockNum = pbs.length) q.hashes
  headers : ∀ h ∈ s.headers, HeaderBuilt p r.blocks (s.stream.minipool p) h
  miniblocks : ∀ b ∈ s.miniblocks, BlockBuilt p hashed r.blocks (s.stream.minipool p) b
  candidates : ∀ c ∈ r.candidates, ∃ b ∈ s.miniblocks, c = ⟨b.num, b.hash, b.proto⟩
  hashed : ∀ envelope ∈ chainEnvelopes r.blocks ++ r.pool, envelope.event ∈ hashed

variable {st : StreamImpl} {b : MiniblockInfo}

namespace Inv

variable {p : StreamParams} {hashed : List EventBytes} {s : NodeState} {r : Record}
  (h : Inv p hashed s r)

include h

theorem mono {hashed' : List EventBytes} (hsub : hashed ⊆ hashed') : Inv p hashed' s r := by
  refine ⟨h.sound, ?_, h.proposals, h.headers, ?_, h.candidates, ?_⟩
  · intro q hq
    obtain ⟨hdec, hhash, hbuilt⟩ := h.requests q hq
    exact ⟨hdec, hsub hhash, hbuilt⟩
  · intro b hb
    have := h.miniblocks b hb
    exact ⟨this.holds, this.built, this.snapshotOf, this.eventHashes, this.signature,
      hsub this.hashed⟩
  · intro envelope henvelope
    exact hsub (h.hashed envelope henvelope)

theorem withStream (hsound : st.Sound p r')
    (heffect : Effect adding (s.stream.log p) (st.log p) accepted applied)
    (hcandidates : ∀ c ∈ r'.candidates, c ∈ r.candidates ∨
      ∃ b ∈ s.miniblocks, c = ⟨b.num, b.hash, b.proto⟩)
    (hhashed : ∀ envelope ∈ chainEnvelopes r'.blocks ++ r'.pool, envelope.event ∈ hashed) :
    Inv p hashed { s with stream := st } r' := by
  have hid : ∀ l l' : List Envelope, l <+: l' → id l <+: id l' := fun _ _ h => h
  rw [h.sound.log_eq, hsound.log_eq] at heffect
  refine ⟨hsound, ?_, ?_, ?_, ?_, ?_, hhashed⟩
  · intro q hq
    obtain ⟨hdec, hhash, hbuilt⟩ := h.requests q hq
    exact ⟨hdec, hhash, hbuilt.effect hid heffect⟩
  · intro q hq
    exact (h.proposals q hq).effect (fun l l' hl => hl.map _) heffect
  · intro q hq
    have := h.headers q hq
    exact ⟨this.built.effect hid heffect, this.snapshotOf, this.eventHashes, this.decoded⟩
  · intro b hb
    have := h.miniblocks b hb
    exact ⟨this.holds, this.built.effect hid heffect, this.snapshotOf, this.eventHashes,
      this.signature, this.hashed⟩
  · intro c hc
    rcases hcandidates c hc with hc | hc
    · exact h.candidates c hc
    · exact hc

theorem withStream_same (hsound : st.Sound p r)
    (hpool : s.stream.minipool p <+: st.minipool p) : Inv p hashed { s with stream := st } r := by
  have heffect : Effect none (s.stream.log p) (st.log p) [] [] := by
    rw [h.sound.log_eq, hsound.log_eq]
    exact .quiet hpool
  exact h.withStream hsound heffect (fun _ hc => .inl hc) h.hashed

theorem hash_eq {envelope : Envelope} (hmem : envelope ∈ chainEvents r.blocks ++ r.pool) :
    envelope.hash = p.crypto.riverHash envelope.event ∧ envelope.event ∈ hashed := by
  rcases mem_append.1 hmem with hmem | hmem
  · obtain ⟨pb, hpb, hevent⟩ := mem_flatMap.1 hmem
    obtain ⟨event, hauth⟩ := (h.sound.stored.chain.wellFormed pb hpb).events envelope hevent
    refine ⟨(authenticate_eq_ok hauth).1, h.hashed envelope (mem_append_left _ ?_)⟩
    exact mem_flatMap.2 ⟨pb, hpb, mem_append_left _ hevent⟩
  · obtain ⟨event, hauth⟩ := h.sound.stored.pool envelope hmem
    exact ⟨(authenticate_eq_ok hauth).1, h.hashed envelope (mem_append_right _ hmem)⟩

theorem builtOn (hfree : p.crypto.CollisionFree hashed)
    (hb : b ∈ s.miniblocks) (hnum : b.header.miniblockNum = r.generation) :
    BuiltOn p b r (s.stream.minipool p) := by
  have hbuilt := h.miniblocks b hb
  obtain ⟨hfollows, hevents⟩ := hbuilt.built.current (fun _ hf => hf.miniblockNum) hnum
  obtain ⟨heap, hheader⟩ := hbuilt.holds.header?
  refine ⟨⟨hbuilt.holds.wellFormed, _, hheader, hfollows.resolve heap,
    hbuilt.snapshotOf.resolve heap⟩, hevents, ?_⟩
  -- another candidate of this hash has the same header bytes, hence the same event hashes,
  -- and its events are a first part of the same minipool
  intro c hc hseq hhash
  obtain ⟨b', hb', rfl⟩ := h.candidates c hc
  have hbuilt' := h.miniblocks b' hb'
  obtain ⟨-, hevents'⟩ := hbuilt'.built.current (fun _ hf => hf.miniblockNum) hseq
  obtain ⟨_, hheader'⟩ := hbuilt'.holds.header?
  have hhash' : b'.proto.header.hash = b.proto.header.hash := by
    have h1 := hbuilt.holds.hash_eq
    have h2 := hbuilt'.holds.hash_eq
    exact h2.symm.trans (hhash.trans h1)
  have hbytes : b'.proto.header.event = b.proto.header.event := by
    have h1 := hbuilt.holds.headerEvent_authentic.hash_eq
    have h2 := hbuilt'.holds.headerEvent_authentic.hash_eq
    rw [hbuilt.holds.header] at h1
    rw [hbuilt'.holds.header] at h2
    exact hfree _ hbuilt'.hashed _ hbuilt.hashed (h2.symm.trans (hhash.trans h1))
  have hhashes : b'.proto.events.map (·.hash) = b.proto.events.map (·.hash) := by
    rw [Miniblock.header?, hbytes] at hheader'
    rw [Miniblock.header?, hheader', Option.some.injEq] at hheader
    rw [← hbuilt.eventHashes, ← hbuilt'.eventHashes]
    have := congrArg MiniblockHeader.eventHashes hheader
    exact this
  have hlen : b'.proto.events.length = b.proto.events.length := by
    simpa using congrArg length hhashes
  have heq : b'.proto.events = b.proto.events := by
    rw [prefix_iff_eq_take.1 hevents', prefix_iff_eq_take.1 hevents, hlen]
  have hsig : b'.proto.header.signature = b.proto.header.signature := by
    rw [hbuilt.signature, hbuilt'.signature, hhash']
  exact Miniblock.ext heq (Envelope.ext hhash' hsig hbytes)

end Inv

/-! ## Steps -/

def StepsTo (p : StreamParams) (hashed : List EventBytes) (s s' : NodeState)
    (adding : Option ParsedEvent) (accepted : List Envelope) (applied : List Miniblock) : Prop :=
  ∃ r', Inv p hashed s' r' ∧ Effect adding (s.stream.log p) (s'.stream.log p) accepted applied

theorem NodeState.newEventReceived_cases (s : NodeState) (envelope : Envelope) (faults : Faults) :
    (∃ res, res.isOk = false ∧ s.adding p (.newEventReceived envelope faults) = none ∧
        s.newEventReceived p envelope faults = (s.allocRef, ⟨res, []⟩)) ∨
      ∃ e : ParsedEvent, e.Decoded p.crypto ∧ e.envelope = envelope ∧ e.ref = s.stream.nextRef ∧
        s.adding p (.newEventReceived envelope faults) = some e ∧
        s.newEventReceived p envelope faults =
          s.allocRef.withStream (s.allocRef.stream.addEvent p e faults) := by
  simp only [newEventReceived, parse, adding]
  cases he : parseEvent p.crypto envelope s.stream.nextRef with
  | error err => exact .inl ⟨.error err, rfl, rfl, rfl⟩
  | panic m => exact .inl ⟨.panic m, rfl, rfl, rfl⟩
  | ok event =>
    obtain ⟨-, henv, href⟩ := parseEvent_eq_ok.1 he
    exact .inr ⟨event, .of_parseEvent he, henv, href, rfl, rfl⟩

namespace Inv

variable {p : StreamParams} {hashed : List EventBytes} {s : NodeState} {r : Record}
  (h : Inv p hashed s r)

include h

theorem stepsTo_quiet (h' : Inv p hashed s' r)
    (hpool : s.stream.minipool p <+: s'.stream.minipool p) :
    StepsTo p hashed s s' none [] [] := by
  refine ⟨r, h', ?_⟩
  rw [h.sound.log_eq, h'.sound.log_eq]
  exact .quiet hpool

theorem stepsTo_refl : StepsTo p hashed s s none [] [] :=
  h.stepsTo_quiet h (prefix_refl _)

theorem allocRef : Inv p hashed s.allocRef r := by
  refine h.withStream_same (h.sound.congr rfl rfl) ?_
  exact prefix_refl _

theorem withHeap (heap : Heap) :
    Inv p hashed { s with stream := { s.stream with heap := heap } } r := by
  refine h.withStream_same (h.sound.congr rfl rfl) ?_
  exact prefix_refl _

theorem withRequests {requests : List Request}
    (hr : ∀ q ∈ requests, q.event.Decoded p.crypto ∧ q.event.envelope.event ∈ hashed ∧
      BuiltAt r.blocks (s.stream.minipool p) (q.view.Window p.crypto p.streamId ·) []) :
    Inv p hashed { s with requests := requests } r :=
  ⟨h.sound, hr, h.proposals, h.headers, h.miniblocks, h.candidates, h.hashed⟩

theorem setStatus {i : Nat} (hq : s.requests[i]? = some q) (status : RequestStatus) :
    Inv p hashed { s with requests := s.requests.set i { q with status := status } } r := by
  refine h.withRequests fun q' hq' => ?_
  rcases mem_or_eq_of_mem_set hq' with hq' | rfl
  · exact h.requests q' hq'
  · exact h.requests q (mem_of_getElem? hq)

theorem step_getStream (envelope : Envelope) (faults : Faults) (hhash : envelope.event ∈ hashed) :
    StepsTo p hashed s (s.getStream p envelope faults).1 none [] [] := by
  have hparse := h.allocRef
  unfold getStream parse
  cases he : parseEvent p.crypto envelope s.stream.nextRef with
  | ok event =>
    obtain ⟨-, henv, -⟩ := parseEvent_eq_ok.1 he
    have hdec : event.Decoded p.crypto := .of_parseEvent he
    simp only
    rcases loadInternal_cases hparse.sound faults with
      ⟨v, n, heq, hwindow, hpool, -⟩ | ⟨-, res, hres, heq⟩
    · rw [heq]
      have hmini : v.minipoolEnvelopes = s.stream.minipool p := hpool
      have hsound := h.sound.loaded hwindow hmini n
      have hinv : Inv p hashed { s with stream :=
        { s.stream with view := some v, nextRef := n } } r :=
        h.withStream_same hsound (hmini ▸ prefix_refl _)
      refine h.stepsTo_quiet (hinv.withRequests ?_) (hmini ▸ prefix_refl _)
      exact forall_mem_append.2 ⟨hinv.requests, forall_mem_singleton.2
        ⟨hdec, henv ▸ hhash, .now hwindow nil_prefix⟩⟩
    · rw [heq]
      cases res with
      | ok v => cases hres
      | _ => exact h.stepsTo_quiet hparse (prefix_refl _)
  | _ => exact h.stepsTo_quiet hparse (prefix_refl _)

theorem step_canAddEvent (i : Nat) (a : Answers) :
    StepsTo p hashed s (s.canAddEvent p i a).1 none [] [] := by
  unfold canAddEvent
  cases hq : s.requests[i]? with
  | none => exact h.stepsTo_refl
  | some q =>
    simp only
    split
    · exact h.stepsTo_refl
    -- whatever the rules say, only the heap and the status change
    have hfinish : ∀ status, StepsTo p hashed s
        { s with
          stream := { s.stream with heap := (q.validate p s.stream.heap a).2 }
          requests := s.requests.set i { q with status := status } } none [] [] :=
      fun status => h.stepsTo_quiet
        ((h.withHeap (q.validate p s.stream.heap a).2).setStatus hq status) (prefix_refl _)
    split
    · exact hfinish _
    · exact hfinish _
    · exact hfinish _
    · split <;> exact hfinish _

theorem step_streamAddEvent {e : ParsedEvent} (he : e.Decoded p.crypto)
    (hhash : e.envelope.event ∈ hashed) (faults : Faults) :
    StepsTo p hashed s (s.withStream (s.stream.addEvent p e faults)).1 (some e)
      ((s.stream.addEvent p e faults).2.onSuccess [e.envelope]) [] := by
  obtain ⟨r', hsound, hcandidates, hmem, heffect⟩ := addEvent_effect h.sound he faults
  refine ⟨r', h.withStream hsound heffect (fun c hc => .inl (hcandidates ▸ hc)) ?_, heffect⟩
  intro envelope henvelope
  rcases hmem envelope henvelope with henvelope | rfl
  · exact h.hashed envelope henvelope
  · exact hhash

theorem step_addEvent (i : Nat) (faults : Faults) :
    StepsTo p hashed s (s.addEvent p i faults).1 (s.adding p (.addEvent i faults))
      (s.accepted p (.addEvent i faults)) [] := by
  simp only [NodeState.addEvent, NodeState.accepted, NodeState.adding, NodeState.step]
  cases hq : s.requests[i]? with
  | none => exact h.stepsTo_refl
  | some q =>
    by_cases hstatus : q.status = .adding
    · obtain ⟨hdec, hhash, -⟩ := h.requests q (mem_of_getElem? hq)
      simp only [hstatus]
      exact (h.setStatus hq .finished).step_streamAddEvent hdec hhash faults
    · simp only [hstatus, ne_eq]
      exact h.stepsTo_refl

theorem step_newEventReceived (envelope : Envelope) (faults : Faults)
    (hhash : envelope.event ∈ hashed) :
    StepsTo p hashed s (s.newEventReceived p envelope faults).1
      (s.adding p (.newEventReceived envelope faults))
      (s.accepted p (.newEventReceived envelope faults)) [] := by
  simp only [NodeState.accepted, NodeState.step]
  rcases s.newEventReceived_cases envelope faults with
    ⟨res, hres, hadding, heq⟩ | ⟨event, hdec, henv, -, hadding, heq⟩
  · rw [heq, hadding]
    exact h.stepsTo_quiet h.allocRef (prefix_refl _)
  · rw [heq, hadding]
    exact h.allocRef.step_streamAddEvent hdec (henv ▸ hhash) faults

theorem step_generateMiniblockProposal (forceSnapshot : Bool) :
    StepsTo p hashed s { s with
      proposals := s.proposals ++
        (s.stream.generateMiniblockProposal p forceSnapshot).toList } none [] [] := by
  refine h.stepsTo_quiet ⟨h.sound, h.requests, ?_, h.headers, h.miniblocks, h.candidates, h.hashed⟩
    (prefix_refl _)
  intro q hq
  rcases mem_append.1 hq with hq | hq
  · exact h.proposals q hq
  -- a new proposal has all events of the minipool
  obtain ⟨v, hv, hq⟩ := Option.bind_eq_some_iff.1 (Option.mem_toList.1 hq)
  unfold StreamView.proposeNextMiniblock at hq
  split at hq
  · cases hq
  · cases hq
    refine .now (h.sound.view v hv).1.generation ?_
    rw [minipool_of_view hv, v.minipoolEnvelopes_hash]

theorem proposedEvents_front {proposal : MiniblockProposal} (hproposal : proposal ∈ s.proposals)
    (hv : s.stream.view = some v) (hgen : v.minipool.generation = proposal.newMiniblockNum)
    (hes : StreamView.proposedEvents v.minipool.events proposal.hashes = .ok es) :
    ∃ rest, v.minipool.events.values = es ++ rest := by
  obtain ⟨hwindow, -⟩ := h.sound.view v hv
  have hpre : proposal.hashes <+: v.minipoolEnvelopes.map (·.hash) := by
    have hnum : proposal.newMiniblockNum = r.blocks.length := hgen.symm.trans hwindow.generation
    have := (h.proposals proposal hproposal).current (fun _ hn => hn) hnum
    rw [minipool_of_view hv] at this
    exact this.2
  obtain ⟨rest, hrest⟩ := hpre
  rw [v.minipoolEnvelopes_hash] at hrest
  obtain ⟨as, bs, hvalues, has, -⟩ := map_eq_append_iff.1 hrest.symm
  have hlen : ∀ e ∈ as, e.hash.length = 32 := by
    intro e he
    have hdecoded := hwindow.minipool e (hvalues ▸ mem_append_left _ he)
    rw [hdecoded.authentic.hash_eq]
    exact p.crypto.riverHash_length _
  rw [← has, StreamView.proposedEvents_append hvalues hlen, Res.ok.injEq] at hes
  subst hes
  exact ⟨bs, hvalues⟩

theorem step_makeMiniblockHeader (i : Nat) (now : Timestamp) :
    StepsTo p hashed s (s.makeMiniblockHeader i now).1 none [] [] := by
  unfold makeMiniblockHeader
  split
  swap
  · exact h.stepsTo_refl
  rename_i proposal v hproposal hv
  obtain ⟨hwindow, -⟩ := h.sound.view v hv
  have hpool := minipool_of_view (p := p) hv
  cases hmake : v.makeMiniblockHeader s.stream.heap proposal now with
  | ok x =>
    obtain ⟨⟨_, _⟩, heap⟩ := x
    obtain ⟨hgen, -, hes, -, -⟩ := StreamView.makeMiniblockHeader_eq_ok hmake
    obtain ⟨hfollows, hsid, hhashes⟩ := hwindow.makeMiniblockHeader h.sound.stored.chain hmake
    obtain ⟨_, hvalues⟩ :=
      h.proposedEvents_front (mem_of_getElem? hproposal) hv hgen hes
    have hheap := h.withHeap heap
    refine h.stepsTo_quiet ⟨hheap.sound, hheap.requests, hheap.proposals, ?_, hheap.miniblocks,
      hheap.candidates, hheap.hashed⟩ (prefix_refl _)
    refine forall_mem_append.2 ⟨hheap.headers, forall_mem_singleton.2
      ⟨.now hfollows ?_, hsid, hhashes, fun e he =>
        hwindow.minipool e (hvalues ▸ mem_append_left _ he)⟩⟩
    have hpool' : ({ s.stream with heap := heap } : StreamImpl).minipool p = v.minipoolEnvelopes :=
      hpool
    rw [hpool', StreamView.minipoolEnvelopes, hvalues, map_append]
    exact prefix_append _ _
  | _ => exact h.stepsTo_refl

theorem step_makeMiniblock (i : Nat) (salt : Bytes) (epochMillis : Int)
    (hhash : ∀ x, s.headers[i]? = some x →
      (s.headerEvent p x.1 salt epochMillis).envelope.event ∈ hashed) :
    StepsTo p hashed s (s.makeMiniblock p i salt epochMillis).1 none [] [] := by
  unfold makeMiniblock
  cases hx : s.headers[i]? with
  | none => exact h.stepsTo_refl
  | some x =>
    obtain ⟨header, es⟩ := x
    have hbuilt := h.headers (header, es) (mem_of_getElem? hx)
    simp only
    cases hmake : newMiniblockInfoFromParsed (s.headerEvent p header salt epochMillis) es with
    | ok b =>
      obtain ⟨hheaderEvent, hevents, hproto⟩ := newMiniblockInfoFromParsed_eq_ok hmake
      have hheader : b.header = header := by
        have := b.header_eq
        rw [hheaderEvent] at this
        exact (Payload.miniblockHeader.inj this).symm
      have hauth : b.headerEvent.Authentic p.crypto := by
        rw [hheaderEvent]
        exact ⟨s.stream.heap, authenticate_makeEnvelopeWithEvent _ _ _ _ _ _⟩
      have hprotoEvents : b.proto.events = es.map (·.envelope) := by rw [hproto]
      have hprotoHeader : b.proto.header = (s.headerEvent p header salt epochMillis).envelope := by
        rw [hproto]
      have halloc := h.allocRef
      refine h.stepsTo_quiet ⟨halloc.sound, halloc.requests, halloc.proposals,
        halloc.headers, ?_, ?_,
        halloc.hashed⟩ (prefix_refl _)
      · intro b' hb'
        rcases mem_append.1 hb' with hb' | hb'
        · exact halloc.miniblocks b' hb'
        obtain rfl := mem_singleton.1 hb'
        refine ⟨⟨rfl, ?_, ?_, hauth, ?_⟩, ?_, ?_, ?_, ?_, ?_⟩
        · rw [hprotoHeader, hheaderEvent]
        · rw [hprotoEvents, hevents]
        · rw [hevents]
          exact hbuilt.decoded
        · rw [hheader, hprotoEvents]
          exact hbuilt.built
        · rw [hheader]
          exact hbuilt.snapshotOf
        · rw [hheader, hprotoEvents, hbuilt.eventHashes, map_map]
          rfl
        · rw [hprotoHeader]
          rfl
        · rw [hprotoHeader]
          exact hhash _ hx
      · intro c hc
        obtain ⟨b', hb', hc'⟩ := h.candidates c hc
        exact ⟨b', mem_append_left _ hb', hc'⟩
    | _ => exact h.stepsTo_refl

theorem step_storeMiniblockCandidate (hb : b ∈ s.miniblocks) (fault : Bool) :
    StepsTo p hashed s (s.withStream (s.stream.storeMiniblockCandidate p b fault)).1 none []
      [] := by
  rcases storeMiniblockCandidate_cases h.sound b fault with
    ⟨res, heq⟩ | ⟨db', r', hrep, hblocks, hpool, hsnap, hcandidates, heq⟩
  · rw [heq]
    exact h.stepsTo_refl
  rw [heq]
  have hstored : StoredChain p.crypto p.streamId r' := by
    refine ⟨?_, ?_, ?_⟩
    · rw [hblocks]
      exact h.sound.stored.chain
    · rw [hblocks, hsnap]
      exact h.sound.stored.latestSnapshot
    · rw [hpool]
      exact h.sound.stored.pool
  have hsound : ({ s.stream with db := db' } : StreamImpl).Sound p r' := by
    refine ⟨hrep, hstored, ?_⟩
    rw [hblocks, hpool]
    exact h.sound.view
  have heffect : Effect none (s.stream.log p)
      (({ s.stream with db := db' } : StreamImpl).log p) [] [] := by
    rw [h.sound.log_eq, hsound.log_eq, hblocks, hpool]
    refine .quiet ?_
    cases hv : s.stream.view with
    | none =>
      have hv' : ({ s.stream with db := db' } : StreamImpl).view = none := hv
      rw [minipool_of_none hv, minipool_of_none hv', h.sound.storedPool, hsound.storedPool, hpool]
    | some v =>
      have hv' : ({ s.stream with db := db' } : StreamImpl).view = some v := hv
      rw [minipool_of_view hv, minipool_of_view hv']
  refine ⟨r', h.withStream hsound heffect ?_ ?_, heffect⟩
  · intro c hc
    rcases hcandidates c hc with hc | rfl
    · exact .inl hc
    · exact .inr ⟨b, hb, rfl⟩
  · rw [hblocks, hpool]
    exact h.hashed

theorem step_applyMiniblock (hfree : p.crypto.CollisionFree hashed)
    (hb : b ∈ s.miniblocks) (faults : Faults) :
    StepsTo p hashed s (s.withStream (s.stream.applyMiniblock p b faults)).1 none []
      ((s.stream.applyMiniblock p b faults).2.onSuccess [b.proto]) := by
  have hbuilt := h.miniblocks b hb
  obtain ⟨r', hsound, hcandidates, hmem, heffect⟩ :=
    applyMiniblock_effect h.sound hbuilt.holds (h.builtOn hfree hb) faults
  refine ⟨r', h.withStream hsound heffect (fun c hc => .inl (hcandidates hc)) ?_, heffect⟩
  intro envelope henvelope
  rcases hmem envelope henvelope with henvelope | rfl
  · exact h.hashed envelope henvelope
  · exact hbuilt.hashed

theorem step_unload (hdb : st.db = s.stream.db) (hview : st.view = none) :
    StepsTo p hashed s { s with stream := st } none [] [] := by
  obtain ⟨hsound, hpool⟩ := h.sound.unload hdb hview
  exact h.stepsTo_quiet (h.withStream_same hsound hpool) hpool

theorem step_same (hdb : st.db = s.stream.db)
    (hview : st.view = s.stream.view) : StepsTo p hashed s { s with stream := st } none [] [] := by
  have hpool : s.stream.minipool p <+: st.minipool p := by
    rw [minipool_congr hdb hview]
  exact h.stepsTo_quiet (h.withStream_same (h.sound.congr hdb hview) hpool) hpool

theorem step_sub (cookie : SyncCookie) (receiver : Nat) (faults : Faults) :
    StepsTo p hashed s (s.withStream (s.stream.sub p cookie receiver faults)).1 none [] [] := by
  obtain ⟨st, _, heq, hsound, hpool⟩ := sub_cases h.sound cookie receiver faults
  rw [heq]
  have hpre : s.stream.minipool p <+: st.minipool p := hpool ▸ prefix_refl _
  exact h.stepsTo_quiet (h.withStream_same hsound hpre) hpre

theorem step (a : Action) (hfree : p.crypto.CollisionFree (hashed ++ s.hashed p a)) :
    StepsTo p (hashed ++ s.hashed p a) s ((streamMachine p).next s a) (s.adding p a)
      (s.accepted p a) (s.applied p a) := by
  have h := h.mono (subset_append_left hashed (s.hashed p a))
  have hnew : ∀ b ∈ s.hashed p a, b ∈ hashed ++ s.hashed p a :=
    fun b hb => mem_append_right _ hb
  cases a with
  | getStream envelope faults =>
    exact h.step_getStream envelope faults (hnew _ (mem_singleton_self _))
  | canAddEvent i a => exact h.step_canAddEvent i a
  | addEvent i faults => exact h.step_addEvent i faults
  | newEventReceived envelope faults =>
    exact h.step_newEventReceived envelope faults (hnew _ (mem_singleton_self _))
  | generateMiniblockProposal forceSnapshot => exact h.step_generateMiniblockProposal forceSnapshot
  | makeMiniblockHeader i now => exact h.step_makeMiniblockHeader i now
  | makeMiniblock i salt epochMillis =>
    refine h.step_makeMiniblock i salt epochMillis fun x hx => hnew _ ?_
    simp [NodeState.hashed, hx]
  | storeMiniblockCandidate i fault =>
    simp only [Lib.Machine.next, streamMachine, NodeState.step]
    cases hb : s.miniblocks[i]? with
    | none => exact h.stepsTo_refl
    | some b => exact h.step_storeMiniblockCandidate (mem_of_getElem? hb) fault
  | applyMiniblock i faults =>
    simp only [Lib.Machine.next, streamMachine, NodeState.step, NodeState.applied]
    cases hb : s.miniblocks[i]? with
    | none => exact h.stepsTo_refl
    | some b => exact h.step_applyMiniblock hfree (mem_of_getElem? hb) faults
  | tryCleanup expired =>
    simp only [Lib.Machine.next, streamMachine, NodeState.step, tryCleanup]
    split
    · exact h.stepsTo_refl
    · split
      · exact h.step_unload rfl rfl
      · exact h.stepsTo_refl
  | forceFlush => exact h.step_unload rfl rfl
  | sub cookie receiver faults => exact h.step_sub cookie receiver faults
  | unsub receiver => exact h.step_same rfl rfl

end Inv

/-! ## Runs -/

theorem Crypto.CollisionFree.mono {C : Crypto} {bs bs' : List EventBytes}
    (h : C.CollisionFree bs') (hsub : bs ⊆ bs') : C.CollisionFree bs :=
  fun a ha b hb => h a (hsub ha) b (hsub hb)

theorem Genesis.run_append (g : Genesis p) (acts acts' : List Action) :
    g.run (acts ++ acts') = (streamMachine p).exec (g.run acts) acts' :=
  exec_append _ _ _

theorem Genesis.hashedBy_append (g : Genesis p) (acts acts' : List Action) :
    g.hashedBy (acts ++ acts') =
      g.hashedBy acts ++ (streamMachine p).collect (NodeState.hashed p) (g.run acts) acts' := by
  rw [Genesis.hashedBy, collect_append, ← append_assoc]
  rfl

theorem Genesis.miniblock_events (g : Genesis p) :
    g.miniblock.events = g.events.map (·.envelope) := by
  obtain ⟨⟨_, _⟩, -, hmade⟩ := Res.bind_eq_ok.1 g.made
  exact congrArg Miniblock.events (Res.ok.inj hmade).symm

theorem Genesis.header? (g : Genesis p) :
    ∃ snapshot heap header, makeGenesisSnapshot g.events Heap.empty = .ok (snapshot, heap) ∧
      g.miniblock.header? = some header ∧ header.miniblockNum = 0 ∧ header.eventNumOffset = 0 ∧
      header.timestamp.isSome ∧ header.snapshot = some (snapshot.clone heap) ∧
      g.miniblock.WellFormed p.crypto := by
  obtain ⟨⟨header, heap⟩, hheader, hmade⟩ := Res.bind_eq_ok.1 g.made
  have hmade : g.miniblock = ⟨g.events.map (·.envelope), makeEnvelopeWithEvent p.crypto heap
      (makeStreamEvent p.crypto (.miniblockHeader header) none g.salt g.epochMillis)⟩ :=
    (Res.ok.inj hmade).symm
  have hauth := authenticate_makeEnvelopeWithEvent p.crypto heap (.miniblockHeader header) none
    g.salt g.epochMillis
  have hpayload := StreamEvent.resolve_payload (e := makeStreamEvent p.crypto
    (.miniblockHeader header) none g.salt g.epochMillis) rfl heap
  have hh : g.miniblock.header? = some (header.resolve heap) := by
    rw [hmade]
    exact header?_signed _ _ _ _ _ _ _
  have hwf : g.miniblock.WellFormed p.crypto := by
    rw [hmade]
    refine ⟨⟨_, _, hauth, hpayload⟩, ?_⟩
    intro envelope henvelope
    obtain ⟨e, he, rfl⟩ := mem_map.1 henvelope
    exact ⟨_, g.parsed e he⟩
  -- what `Make_GenesisMiniblockHeader` put into the header
  unfold makeGenesisMiniblockHeader at hheader
  split at hheader
  · cases hheader
  split at hheader
  · cases hheader
  obtain ⟨-, -, hheader⟩ := Res.bind_eq_ok.1 hheader
  obtain ⟨⟨snapshot, _⟩, hsnapshot, hheader⟩ := Res.bind_eq_ok.1 hheader
  cases hheader
  exact ⟨snapshot, heap, _, hsnapshot, hh, rfl, rfl, rfl, rfl, hwf⟩

theorem Genesis.isGenesis (g : Genesis p) : g.miniblock.IsGenesis p.crypto p.streamId := by
  obtain ⟨snapshot, _, header, hsnapshot, hheader, hnum, hoffset, htime, hs, hwf⟩ := g.header?
  have hsid : streamIdOfSnapshot snapshot = .ok p.streamId := by
    obtain ⟨e, he, hinception⟩ := makeGenesisSnapshot_getInceptionPayload hsnapshot
    obtain ⟨i, hi, hbytes⟩ := Option.map_eq_some_iff.1 (g.streamId_eq e he)
    rw [streamIdOfSnapshot, hinception, hi]
    simp only
    rw [StreamId.fromBytes_eq_ok.2 hbytes.symm]
  refine ⟨hwf, ?_, header, hheader, hnum, hoffset, htime, ?_⟩
  · rw [hasSnapshot_eq hheader, hs]
    rfl
  intro s hs'
  rw [hs, Option.some.injEq] at hs'
  subst hs'
  exact hsid

theorem Genesis.inv_init (g : Genesis p) : Inv p g.hashed g.init (.create g.miniblock) := by
  have hgenesis := g.isGenesis
  have hlatest : IsLatestSnapshot ([] ++ [g.miniblock]) [].length :=
    .concat_of_hasSnapshot hgenesis.hasSnapshot
  refine ⟨⟨g.created, ⟨.genesis hgenesis, hlatest, ?_⟩, ?_⟩, ?_, ?_, ?_, ?_, ?_, ?_⟩
  · intro envelope henvelope
    cases henvelope
  · intro v hv
    cases hv
  · intro q hq
    cases hq
  · intro q hq
    cases hq
  · intro q hq
    cases hq
  · intro q hq
    cases hq
  · intro c hc
    cases hc
  intro envelope henvelope
  have henvelope : envelope ∈ g.miniblock.events ++ [g.miniblock.header] := by
    simpa [Storage.StreamRecord.create, chainEnvelopes, envelopes] using henvelope
  exact forall_mem_append.2 ⟨fun _ hevent => mem_append_left _ (mem_map_of_mem hevent),
    forall_mem_singleton.2 (mem_append_right _ (mem_singleton_self _))⟩ envelope henvelope

theorem Genesis.inv_run (g : Genesis p) (acts : List Action)
    (hfree : p.crypto.CollisionFree (g.hashedBy acts)) :
    ∃ r, Inv p (g.hashedBy acts) (g.run acts) r := by
  refine collect_invariant
    (J := fun hashed s => ∃ r, Inv p hashed s r) ?_ ?_ ⟨_, g.inv_init⟩
    (along_of_forall (fun _ _ => trivial) _ _) hfree
  · intro l l' h
    exact h.mono (subset_append_left l l')
  · rintro hashed s a ⟨r, h⟩ - hfree
    obtain ⟨r', h', -⟩ := h.step a hfree
    exact ⟨r', h'⟩

theorem Inv.collect {p : StreamParams} {β : Type} {f : NodeState → Action → List β}
    {P : NodeState → Action → Prop} {J : List β → NodeState → Prop}
    (hstep : ∀ l hashed s r a, Inv p hashed s r → p.crypto.CollisionFree (hashed ++ s.hashed p a) →
      StepsTo p (hashed ++ s.hashed p a) s ((streamMachine p).next s a) (s.adding p a)
        (s.accepted p a) (s.applied p a) →
      J l s → P s a → J (l ++ f s a) ((streamMachine p).next s a))
    {hashed : List EventBytes} {s : NodeState} {r : Record} (h : Inv p hashed s r) {l : List β}
    (hJ : J l s) {acts : List Action} (hP : (streamMachine p).Along P s acts)
    (hfree : p.crypto.CollisionFree
      (hashed ++ (streamMachine p).collect (NodeState.hashed p) s acts)) :
    J (l ++ (streamMachine p).collect f s acts) ((streamMachine p).exec s acts) := by
  induction acts generalizing hashed s r l with
  | nil => simpa using hJ
  | cons a acts ih =>
    rw [collect_cons, ← append_assoc] at hfree ⊢
    have hfree' := hfree.mono (subset_append_left _ _)
    have hto := h.step a hfree'
    obtain ⟨_, h', -⟩ := id hto
    exact ih h' (hstep l hashed s r a h hfree' hto hJ hP.1) hP.2 hfree

end River.Node
