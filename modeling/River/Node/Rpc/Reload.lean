/-
  A view that is dropped and built again from the store.

  There is one log of events in which every view, header and block has its place, and reads as its
  place says up to fulfillments that come after it (`Ledger.Records`).
-/

import River.Node.Events.StreamLedger
import River.Node.Events.Answers
import River.Node.Rpc.NoLoss
import River.Node.Rules.History

namespace River.Node

open River.Lib List StreamImpl Nat Option

variable {v : StreamView}

namespace Ledger

/-! ## Everything that holds event objects -/

def NextAt (gen : List Envelope) (blocks : List Miniblock) (num : Int) (a : Nat) : Prop :=
  num = blocks.length → gen.length + a = (chainEvents blocks).length

structure Records (L : Ledger) (p : StreamParams) (gen : List Envelope)
    (base : Bytes → Option (List KeySolicitation)) (s : NodeState) : Prop where
  covers : L.Covers p gen base s.stream
  requests : ∀ q ∈ s.requests, (∃ k, L.ViewAt base k q.view) ∧ q.event.ref < s.stream.nextRef ∧
    (q.status ≠ .finished → L.position q.event.ref = none)
  distinct : (s.requests.map (·.event.ref)).Nodup
  headers : ∀ x ∈ s.headers, ∃ a, L.BlockAt base a x.1 x.2 ∧
    NextAt gen (s.stream.storedBlocks p) x.1.miniblockNum a
  miniblocks : ∀ b ∈ s.miniblocks, ∃ a, L.BlockAt base a b.header b.events ∧
    (∀ header, b.proto.header? = some header → L.BlockAt base a header b.events) ∧
    NextAt gen (s.stream.storedBlocks p) b.header.miniblockNum a

theorem NextAt.append (h : NextAt gen blocks num a) (hle : num ≤ blocks.length)
    (happlied : applied = [] ∨ ∃ pb, applied = [pb]) : NextAt gen (blocks ++ applied) num a := by
  rcases happlied with rfl | ⟨pb, rfl⟩
  · rw [append_nil]
    exact h
  · intro hnum
    rw [length_append, length_singleton] at hnum
    omega

namespace Records

variable {p : StreamParams} {gen : List Envelope} {base : Bytes → Option (List KeySolicitation)}
  {L L' : Ledger} {s : NodeState} {hashed : List EventBytes} {r : Record}

variable (h : L.Records p gen base s)

include h

theorem withStream (hinv : Inv p hashed s r) (hx : L.Extends L' s.stream.nextRef added)
    (hcovers : L'.Covers p gen base st) (hn : s.stream.nextRef ≤ st.nextRef)
    (hblocks : st.storedBlocks p = s.stream.storedBlocks p ++ applied)
    (happlied : applied = [] ∨ ∃ pb, applied = [pb])
    (hadded : ∀ e ∈ added, ∀ q ∈ s.requests, q.status ≠ .finished → e.ref ≠ q.event.ref) :
    L'.Records p gen base { s with stream := st } := by
  have hstored := hinv.sound.storedBlocks
  refine ⟨hcovers, ?_, h.distinct, ?_, ?_⟩
  · intro q hq
    obtain ⟨⟨k, hat⟩, href, hnone⟩ := h.requests q hq
    refine ⟨⟨k, hat.mono hx.le⟩, lt_of_lt_of_le href hn, fun hstatus => ?_⟩
    rw [hx.old _ href fun e he => hadded e he q hq hstatus]
    exact hnone hstatus
  · intro x hx'
    obtain ⟨a, hat, hnext⟩ := h.headers x hx'
    refine ⟨a, hat.mono hx.le, ?_⟩
    rw [hblocks]
    refine hnext.append ?_ happlied
    rw [hstored]
    exact (hinv.headers x hx').built.num_le fun _ hf => hf.miniblockNum
  · intro b hb
    obtain ⟨a, hat, hproto, hnext⟩ := h.miniblocks b hb
    refine ⟨a, hat.mono hx.le, fun header hheader => (hproto header hheader).mono hx.le, ?_⟩
    rw [hblocks]
    refine hnext.append ?_ happlied
    rw [hstored]
    exact (hinv.miniblocks b hb).built.num_le fun _ hf => hf.miniblockNum

theorem withStream_same (hinv : Inv p hashed s r)
    (hx : L.Extends L' s.stream.nextRef none) (hcovers : L'.Covers p gen base st)
    (hn : s.stream.nextRef ≤ st.nextRef) (hblocks : st.storedBlocks p = s.stream.storedBlocks p) :
    L'.Records p gen base { s with stream := st } :=
  h.withStream hinv hx hcovers hn (by rw [hblocks, append_nil]) (.inl rfl) (by simp)

theorem allocRef (hinv : Inv p hashed s r) : L.Records p gen base s.allocRef :=
  h.withStream_same hinv (.refl L _) (h.covers.alloc (le_succ _)) (le_succ _) rfl

theorem writes (hinv : Inv p hashed s r) (hw : L.Writes L') :
    L'.Records p gen base { s with stream := { s.stream with heap := L'.heap } } :=
  h.withStream_same hinv (.of_writes hw _) (h.covers.writes hw) (le_refl _) rfl

variable {i : Nat}

theorem setStatus (hq : s.requests[i]? = some q)
    {status : RequestStatus} (hstatus : status ≠ .finished → q.status ≠ .finished) :
    L.Records p gen base { s with requests := s.requests.set i { q with status := status } } := by
  refine ⟨h.covers, ?_, ?_, h.headers, h.miniblocks⟩
  · intro q' hq'
    rcases mem_or_eq_of_mem_set hq' with hq' | rfl
    · exact h.requests q' hq'
    · obtain ⟨hat, href, hnone⟩ := h.requests q (mem_of_getElem? hq)
      exact ⟨hat, href, fun hne => hnone (hstatus hne)⟩
  · -- the event stays the same
    obtain ⟨-, rfl⟩ := List.getElem?_eq_some_iff.1 hq
    have hset := set_getElem_self (by rwa [length_map] : i < (s.requests.map (·.event.ref)).length)
    rw [getElem_map] at hset
    simpa [hset] using h.distinct

theorem ref_ne (hq : s.requests[i]? = some q) :
    ∀ q' ∈ s.requests.set i { q with status := .finished }, q'.status ≠ .finished →
      q.event.ref ≠ q'.event.ref := by
  intro q' hq' hstatus hsame
  obtain ⟨j, hj⟩ := getElem?_of_mem hq'
  rw [getElem?_set] at hj
  split at hj
  · split at hj
    · cases hj
      exact hstatus rfl
    · cases hj
  · rename_i hij
    have hi : (s.requests.map (·.event.ref))[i]? = some q.event.ref := by
      rw [getElem?_map, hq]
      rfl
    have hj' : (s.requests.map (·.event.ref))[j]? = some q.event.ref := by
      rw [getElem?_map, hj, hsame]
      rfl
    exact hij ((getElem?_inj (List.getElem?_eq_some_iff.1 hi).1 h.distinct).1 (hi.trans hj'.symm))

/-! ## Steps -/

variable (hinv : Inv p hashed s r)

include hinv

theorem step_getStream {requests : List Request}
    (hparse : parseEvent p.crypto envelope s.stream.nextRef = .ok event)
    (hrequests : requests = s.requests ∨
      ∃ view, (s.allocRef.stream.loadInternal p faults).2 = .ok view ∧
        requests = s.requests ++ [⟨event, view, .validating⟩]) :
    ∃ L' : Ledger, L'.Records p gen base
      { s with stream := (s.allocRef.stream.loadInternal p faults).1, requests := requests } := by
  have halloc := h.allocRef hinv
  obtain ⟨-, -, href⟩ := parseEvent_eq_ok.1 hparse
  obtain ⟨L', hx, hcovers, hn⟩ := halloc.covers.loadInternal hinv.allocRef.sound faults
  rcases loadInternal_cases hinv.allocRef.sound faults with
    ⟨v, n, heq, -⟩ | ⟨-, res, hres, heq⟩
  · rw [heq] at hcovers hn hrequests ⊢
    have hloaded := halloc.withStream_same hinv.allocRef hx hcovers hn rfl
    rcases hrequests with rfl | ⟨view, hview, rfl⟩
    · exact ⟨L', hloaded⟩
    obtain rfl : v = view := Res.ok.inj hview
    refine ⟨L', hloaded.covers, ?_, ?_, hloaded.headers, hloaded.miniblocks⟩
    · obtain ⟨k, hat, -⟩ := hcovers.view v rfl
      refine forall_mem_append.2 ⟨hloaded.requests,
        forall_mem_singleton.2 ⟨⟨k, hat⟩, ?_, fun _ => ?_⟩⟩
      · show event.ref < n
        have hn : s.stream.nextRef + 1 ≤ n := hn
        omega
      · rw [href, hx.old _ (lt_succ_self _) (by simp)]
        exact h.covers.fresh _ (le_refl _)
    · -- the requests before have older objects
      rw [map_append, map_singleton, ← concat_eq_append]
      refine h.distinct.concat fun hmem => ?_
      obtain ⟨q, hq, hsame⟩ := mem_map.1 hmem
      obtain ⟨-, hlt, -⟩ := h.requests q hq
      exact (hlt.trans_eq (href.symm.trans hsame.symm)).false
  · rw [heq] at hrequests ⊢
    rcases hrequests with rfl | ⟨view, hview, -⟩
    · exact ⟨L, halloc⟩
    · have hview : res = .ok view := hview
      rw [hview] at hres
      cases hres

theorem step_canAddEvent (hq : s.requests[i]? = some q) (hdue : q.status = .validating)
    (a : Answers) (status : RequestStatus) :
    ∃ L' : Ledger, L'.Records p gen base
      { s with
        stream := { s.stream with heap := (q.validate p s.stream.heap a).2 }
        requests := s.requests.set i { q with status := status } } := by
  obtain ⟨L', hwrites, hheap⟩ : ∃ L' : Ledger, L.Writes L' ∧
      L'.heap = (q.validate p s.stream.heap a).2 := by
    have hasked : Rules.Asked q.view s.stream.heap (q.validate p s.stream.heap a).2 :=
      Rules.canAddEvent_asked _ _
    obtain ⟨⟨k, hat⟩, -, -⟩ := h.requests q (mem_of_getElem? hq)
    rw [h.covers.heap] at hasked ⊢
    rcases hasked with hsame | ⟨u, _, hask⟩
    · exact ⟨L, .refl L, hsame.symm⟩
    · obtain ⟨L', _, hanswer, hwrites, -⟩ := hat.getKeySolicitations u
      rw [hanswer, Res.ok.injEq, Prod.mk.injEq] at hask
      exact ⟨L', hwrites, hask.2⟩
  rw [← hheap]
  refine ⟨L', (h.writes hinv hwrites).setStatus hq fun _ => ?_⟩
  rw [hdue]
  decide

theorem step_streamAddEvent {e : ParsedEvent} (hdec : e.Decoded p.crypto) (hsorted : SortedIds e)
    (hheader : e.event.getMiniblockHeader = none)
    (hnew : e.hash ∉ (s.stream.minipool p).map (·.hash)) (href : e.ref < s.stream.nextRef)
    (hpos : L.position e.ref = none)
    (hothers : ∀ q ∈ s.requests, q.status ≠ .finished → e.ref ≠ q.event.ref) (faults : Faults) :
    ∃ L' : Ledger, L'.Records p gen base (s.withStream (s.stream.addEvent p e faults)).1 := by
  obtain ⟨_, hadded, L', hx, hcovers, hn⟩ :=
    h.covers.addEvent hinv.sound hdec hsorted hheader hnew href hpos faults
  obtain ⟨-, -, -, -, heffect⟩ := addEvent_effect hinv.sound hdec faults
  obtain ⟨hblocks, -⟩ := heffect.blocks_eq
  refine ⟨L', h.withStream hinv hx hcovers hn hblocks (.inl rfl) ?_⟩
  intro e' he' q hq hstatus
  rw [hadded e' he']
  exact hothers q hq hstatus

theorem step_addEvent
    (hq : s.requests[i]? = some q) (hdue : q.status = .adding) (faults : Faults)
    (hadds : AddsNewEvent p s (.addEvent i faults) ∧
      ∀ e ∈ s.adding p (.addEvent i faults), SortedIds e) :
    ∃ L' : Ledger, L'.Records p gen base
      { s with
        stream := (s.stream.addEvent p q.event faults).1
        requests := s.requests.set i { q with status := .finished } } := by
  have hadding : s.adding p (.addEvent i faults) = some q.event := by
    simp only [NodeState.adding, hq, hdue, if_true]
  obtain ⟨hheader, hnew⟩ := hadds.1 q.event hadding
  obtain ⟨-, href, hnone⟩ := h.requests q (mem_of_getElem? hq)
  obtain ⟨hdec, -, -⟩ := hinv.requests q (mem_of_getElem? hq)
  exact (h.setStatus hq fun hne => absurd rfl hne).step_streamAddEvent
    (hinv.setStatus hq .finished) hdec (hadds.2 q.event hadding) hheader hnew href
    (hnone (by rw [hdue]; decide)) (h.ref_ne hq) faults

theorem step_newEventReceived
    (hparse : parseEvent p.crypto envelope s.stream.nextRef = .ok event) (faults : Faults)
    (hadds : AddsNewEvent p s (.newEventReceived envelope faults) ∧
      ∀ e ∈ s.adding p (.newEventReceived envelope faults), SortedIds e) :
    ∃ L' : Ledger, L'.Records p gen base
      { s with stream := (s.allocRef.stream.addEvent p event faults).1 } := by
  have hadding : s.adding p (.newEventReceived envelope faults) = some event := by
    simp only [NodeState.adding, hparse]
  obtain ⟨hheader, hnew⟩ := hadds.1 event hadding
  have href : event.ref = s.stream.nextRef := (parseEvent_eq_ok.1 hparse).2.2
  refine (h.allocRef hinv).step_streamAddEvent hinv.allocRef (.of_parseEvent hparse)
    (hadds.2 event hadding) hheader hnew ?_ ?_ ?_ faults
  · rw [href]
    exact lt_succ_self _
  · rw [href]
    exact h.covers.fresh _ (le_refl _)
  · intro q hq _
    obtain ⟨-, _, -⟩ := h.requests q hq
    omega

variable {x : MiniblockHeader × List ParsedEvent}

theorem step_makeMiniblockHeader {heap : Heap} (hproposal : s.proposals[i]? = some proposal)
    (hv : s.stream.view = some v)
    (hmake : v.makeMiniblockHeader s.stream.heap proposal now = .ok (x, heap)) :
    ∃ L' : Ledger, L'.Records p gen base
      { s with stream := { s.stream with heap := heap }, headers := s.headers ++ [x] } := by
  obtain ⟨header, es⟩ := x
  obtain ⟨hgen, -, hes, -, hsnapshot⟩ := StreamView.makeMiniblockHeader_eq_ok hmake
  obtain ⟨rest, hvalues⟩ :=
    hinv.proposedEvents_front (mem_of_getElem? hproposal) hv hgen hes
  obtain ⟨k, hat, _⟩ := h.covers.view v hv
  have hlength := h.covers.length_log
  rw [minipool_of_view hv, StreamView.minipoolEnvelopes, hvalues, length_map] at hlength
  -- the events of the header stand behind the blocks of the view
  have hwindow : L.Window k v.window := hat.window
  rw [StreamView.window, hvalues, ← append_assoc] at hwindow
  obtain ⟨hwindow, -⟩ := window_append.1 hwindow
  obtain ⟨-, hwindow⟩ := window_append.1 hwindow
  have hwlength : v.window.length = ((v.blocks.drop (v.snapshotIndex + 1)).flatMap
      (·.events)).length + (es.length + rest.length) := by
    rw [StreamView.window, hvalues, length_append, length_append]
  set later := (v.blocks.drop (v.snapshotIndex + 1)).flatMap (·.events)
  obtain ⟨L', hwrites, hheap, hsnapshot⟩ : ∃ L' : Ledger, L.Writes L' ∧ L'.heap = heap ∧
      ∀ s, header.snapshot = some s → L'.SnapshotAt base (k + later.length + es.length) s := by
    rw [h.covers.heap] at hsnapshot
    split at hsnapshot
    · obtain ⟨_, hnext, hs'⟩ := hsnapshot
      obtain ⟨L', hwrites, hheap, n, _, hat'⟩ := hat.nextSnapshot hvalues hnext
      refine ⟨L', hwrites, hheap, fun s hs => ?_⟩
      rw [hs', some.injEq] at hs
      subst hs
      have hposition : k + later.length + es.length = n := by omega
      rw [hposition]
      exact hat'
    · obtain ⟨hnone, rfl⟩ := hsnapshot
      refine ⟨L, .refl L, rfl, fun s hs => ?_⟩
      rw [hnone] at hs
      cases hs
  have hwritten := h.writes hinv hwrites
  rw [hheap] at hwritten
  refine ⟨L', hwritten.covers, hwritten.requests, hwritten.distinct, ?_, hwritten.miniblocks⟩
  refine forall_mem_append.2 ⟨hwritten.headers, forall_mem_singleton.2
    ⟨k + later.length, ⟨hwindow.mono hwrites.le, hsnapshot⟩, fun _ => ?_⟩⟩
  show gen.length + (k + later.length) = (chainEvents (s.stream.storedBlocks p)).length
  rw [length_append] at hlength
  omega

variable {b : MiniblockInfo}

theorem step_makeMiniblock (hx : s.headers[i]? = some x)
    (hmake : newMiniblockInfoFromParsed (s.headerEvent p x.1 salt epochMillis) x.2 = .ok b) :
    L.Records p gen base { s.allocRef with miniblocks := s.miniblocks ++ [b] } := by
  obtain ⟨header, es⟩ := x
  obtain ⟨hheaderEvent, hevents, hproto⟩ := newMiniblockInfoFromParsed_eq_ok hmake
  have hheader : b.header = header := by
    have := b.header_eq
    rw [hheaderEvent] at this
    exact (Payload.miniblockHeader.inj this).symm
  -- the header that is signed is the one in memory, as it reads now
  have hwritten : b.proto.header? = some (header.resolve s.stream.heap) := by
    rw [hproto]
    exact Miniblock.header?_signed _ _ _ _ _ _ _
  obtain ⟨a, hat, hnext⟩ := h.headers (header, es) (mem_of_getElem? hx)
  have halloc := h.allocRef hinv
  refine ⟨halloc.covers, halloc.requests, halloc.distinct, halloc.headers, ?_⟩
  refine forall_mem_append.2 ⟨halloc.miniblocks, forall_mem_singleton.2 ?_⟩
  rw [hheader, hevents]
  refine ⟨a, hat, fun header' hheader' => ?_, hnext⟩
  rw [hwritten, some.injEq] at hheader'
  subst hheader'
  rw [h.covers.heap]
  exact hat.resolve

theorem step_applyMiniblock
    (hfree : p.crypto.CollisionFree hashed) (hb : b ∈ s.miniblocks) (faults : Faults) :
    ∃ L' : Ledger, L'.Records p gen base (s.withStream (s.stream.applyMiniblock p b faults)).1 := by
  have hbuilt := hinv.miniblocks b hb
  obtain ⟨a, hat, hproto, hnext⟩ := h.miniblocks b hb
  rw [hinv.sound.storedBlocks] at hnext
  obtain ⟨L', hx, hcovers, hn⟩ := h.covers.applyMiniblock hinv.sound hbuilt.holds
    (hinv.builtOn hfree hb) hnext hat hproto faults
  obtain ⟨-, -, -, -, heffect⟩ :=
    applyMiniblock_effect hinv.sound hbuilt.holds (hinv.builtOn hfree hb) faults
  obtain ⟨hblocks, happlied⟩ := heffect.blocks_eq
  exact ⟨L', h.withStream hinv hx hcovers hn hblocks happlied (by simp)⟩

theorem step_unload (receivers : List Nat) :
    L.Records p gen base
      { s with stream := { s.stream with view := none, receivers := receivers } } :=
  h.withStream_same hinv (.refl L _) (h.covers.unload receivers) (le_refl _) rfl

end Records

end Ledger

/-- The event is new and its ids are sorted. -/
def AddsSortedEvent (p : StreamParams) (s : NodeState) (a : Action) : Prop :=
  AddsNewEvent p s a ∧ ∀ e ∈ s.adding p a, SortedIds e

instance (p : StreamParams) (s : NodeState) (a : Action) : Decidable (AddsSortedEvent p s a) :=
  inferInstanceAs (Decidable (_ ∧ ∀ e ∈ s.adding p a, _))

namespace Ledger.Records

variable {p : StreamParams} {gen : List Envelope} {base : Bytes → Option (List KeySolicitation)}
  {L : Ledger} {s : NodeState} {hashed : List EventBytes} {r : Record}

theorem step (h : L.Records p gen base s) (hinv : Inv p hashed s r)
    (hfree : p.crypto.CollisionFree hashed) (a : Action) (hadds : AddsSortedEvent p s a) :
    ∃ L' : Ledger, L'.Records p gen base ((streamMachine p).next s a) := by
  have ht := s.transition p a
  generalize (streamMachine p).next s a = s' at ht ⊢
  cases ht with
  | idle => exact ⟨L, h⟩
  | refused => exact ⟨L, h.allocRef hinv⟩
  | getStream hparse hrequests => exact h.step_getStream hinv hparse hrequests
  | canAddEvent hq hdue hpass => exact h.step_canAddEvent hinv hq hdue _ _
  | addEvent hq hdue => exact h.step_addEvent hinv hq hdue _ hadds
  | newEventReceived hparse => exact h.step_newEventReceived hinv hparse _ hadds
  | generateMiniblockProposal forceSnapshot =>
    exact ⟨L, h.covers, h.requests, h.distinct, h.headers, h.miniblocks⟩
  | makeMiniblockHeader hproposal hview hmake =>
    exact h.step_makeMiniblockHeader hinv hproposal hview hmake
  | makeMiniblock hx hmake => exact ⟨L, h.step_makeMiniblock hinv hx hmake⟩
  | storeMiniblockCandidate hb =>
    obtain ⟨hcovers, hn⟩ := h.covers.storeMiniblockCandidate hinv.sound _ _
    refine ⟨L, h.withStream_same hinv (.refl L _) hcovers (le_of_eq hn.symm) ?_⟩
    obtain ⟨r', hinv', heffect⟩ :=
      hinv.step_storeMiniblockCandidate (mem_of_getElem? hb) _
    exact heffect.blocks_eq.1.trans (append_nil _)
  | applyMiniblock hb => exact h.step_applyMiniblock hinv hfree (mem_of_getElem? hb) _
  | tryCleanup expired =>
    unfold tryCleanup
    split
    · exact ⟨L, h⟩
    · split
      · exact ⟨L, h.step_unload hinv s.stream.receivers⟩
      · exact ⟨L, h⟩
  | forceFlush => exact ⟨L, h.step_unload hinv []⟩
  | sub cookie receiver faults =>
    obtain ⟨L', hx, hcovers, hn⟩ := h.covers.sub hinv.sound cookie receiver faults
    refine ⟨L', h.withStream_same hinv hx hcovers hn ?_⟩
    obtain ⟨r', hinv', heffect⟩ := hinv.step_sub cookie receiver faults
    exact heffect.blocks_eq.1.trans (append_nil _)
  | unsub receiver =>
    exact ⟨L, h.withStream_same hinv (.refl L _)
      (h.covers.withView s.stream.view (s.stream.receivers.erase receiver) rfl h.covers.view)
      (le_refl _) rfl⟩

end Ledger.Records

/-! ## Runs -/

/-- The key solicitations of a user in the snapshot of the genesis miniblock. -/
def Genesis.solicitations (g : Genesis p) (u : Bytes) : Option (List KeySolicitation) :=
  (g.miniblock.header?.bind (·.snapshot)).bind (·.solicitationsNow Heap.empty u)

theorem Genesis.solicitations_orderly (g : Genesis p) (hw : OrderlyWindow g.events)
    {ys : List KeySolicitation} (hys : ys ∈ g.solicitations u) :
    (ys.map (·.deviceKey)).Nodup ∧ ∀ y ∈ ys, y.Sorted := by
  obtain ⟨snapshot, heap, _, hsnapshot, hheader, -, -, -, hs, -⟩ := g.header?
  simp only [solicitations, hheader, hs, bind_some, Snapshot.solicitationsNow,
    Snapshot.solicitations_clone] at hys
  obtain ⟨_, hclone, rfl⟩ := map_eq_some_iff.1 hys
  obtain ⟨l, hl, rfl⟩ := map_eq_some_iff.1 hclone
  obtain ⟨hnodup, hsorted⟩ := makeGenesisSnapshot_solicitations hsnapshot hw hl
  have hkeys : (((l.map fun p => .own (p.read heap)).map
      (SolicitationPtr.read Heap.empty)).map (·.deviceKey)) = l.map (·.deviceKey) := by
    rw [List.map_map, List.map_map]
    exact map_congr_left fun p _ => p.read_deviceKey heap
  refine ⟨hkeys ▸ hnodup, ?_⟩
  rw [List.map_map, List.forall_mem_map]
  exact hsorted

theorem Genesis.records_init (g : Genesis p) (hw : OrderlyWindow g.events) :
    Ledger.empty.Records p g.miniblock.events g.solicitations g.init := by
  obtain ⟨snapshot, heap, _, hsnapshot, hheader, -, -, -, hs, -⟩ := g.header?
  have hbase : g.solicitations = (snapshot.clone heap).solicitationsNow .empty := by
    funext u
    simp only [solicitations, hheader, hs, bind_some]
  have hblocks : g.init.stream.storedBlocks p = [g.miniblock] := g.inv_init.sound.storedBlocks
  have hpool : g.init.stream.minipool p = [] :=
    (minipool_of_none rfl).trans g.inv_init.sound.storedPool
  refine ⟨⟨rfl, fun _ _ => rfl, by simp [Ledger.empty], ?_, ?_, ?_, by simp [Genesis.init]⟩,
    by simp [Genesis.init], nodup_nil, by simp [Genesis.init], by simp [Genesis.init]⟩
  · exact (minipool_of_none rfl).symm
  · rw [hblocks, hpool]
    simp [chainEvents, Ledger.empty]
  rw [hblocks]
  intro n pb header' s hn hpb hheader' hs'
  have hn : n = 0 := lt_one_iff.1 hn.lt
  subst hn
  rw [getElem?_cons_zero, some.injEq] at hpb
  subst hpb
  rw [hheader, some.injEq] at hheader'
  subst hheader'
  rw [hs, some.injEq] at hs'
  subst hs'
  exact ⟨0, by simp [chainEvents], hbase ▸ Ledger.snapshotAt_genesis hsnapshot hw _⟩

theorem Genesis.records_run (g : Genesis p) (hw : OrderlyWindow g.events) (acts : List Action)
    (hfree : p.crypto.CollisionFree (g.hashedBy acts))
    (hadds : (streamMachine p).Along (AddsSortedEvent p) g.init acts) :
    ∃ L : Ledger, L.Records p g.miniblock.events g.solicitations (g.run acts) := by
  refine Inv.collect (f := fun _ _ => ([] : List Unit))
    (J := fun _ s => ∃ L : Ledger, L.Records p g.miniblock.events g.solicitations s) ?_ (l := [])
    g.inv_init ⟨_, g.records_init hw⟩ hadds hfree
  rintro - _ s r a hinv hfree - ⟨L, h⟩ hadd
  exact h.step (hinv.mono (subset_append_left _ _)) hfree a hadd

/-! ## Reload -/

def sampleKeysRun (asked delivered : List Bytes) : List Action :=
  [.newEventReceived (sampleEnvelope
      (.member (.keySolicitation ⟨[1], [], false, asked⟩)) none 3) ⟨false, false⟩,
    .newEventReceived (sampleEnvelope
      (.member (.keyFulfillment ⟨Crypto.salted.walletAddress, [1], delivered⟩)) none 4)
        ⟨false, false⟩,
    .generateMiniblockProposal true, .makeMiniblockHeader 0 ⟨2, 0⟩]

def sampleBlockRun : List Action :=
  sampleKeysRun [[1], [2]] [[1]] ++
    [.makeMiniblock 0 [5] 0, .storeMiniblockCandidate 0 false, .applyMiniblock 0 ⟨false, false⟩,
      .newEventReceived (sampleEvent none 6) ⟨false, false⟩]

end River.Node
