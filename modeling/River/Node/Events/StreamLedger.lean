/-
  The ledger of a stream: what its methods do to the event objects.
-/

import River.Node.Events.Twins
import River.Node.Events.StreamSound

namespace River.Node

open River.Lib List StreamImpl StreamView Nat

/-! ## The objects of a loaded view -/

variable {b : MiniblockInfo}

theorem header?_of_parsed {n : Int} {ref : Nat}
    (h : newMiniblockInfoFromProto C pb ⟨n, false⟩ ref = .ok b) : pb.header? = some b.header := by
  obtain ⟨hheader, -, -, -⟩ := newMiniblockInfoFromProto_eq_ok h
  obtain ⟨hauth, -, -⟩ := parseEvent_eq_ok.1 hheader
  rw [Miniblock.header?, (authenticate_eq_ok hauth).2, Option.bind_some,
    StreamEvent.getMiniblockHeader, b.header_eq]

theorem nodup_refs_append {es es' : List ParsedEvent} {n : Nat} (h : (es.map (·.ref)).Nodup)
    (h' : (es'.map (·.ref)).Nodup) (hlt : ∀ e ∈ es, e.ref < n) (hle : ∀ e ∈ es', n ≤ e.ref) :
    ((es ++ es').map (·.ref)).Nodup := by
  rw [map_append, nodup_append]
  refine ⟨h, h', fun r hr r' hr' => ?_⟩
  obtain ⟨e, he, rfl⟩ := mem_map.1 hr
  obtain ⟨e', he', rfl⟩ := mem_map.1 hr'
  exact ((hlt e he).trans_le (hle e' he')).ne

theorem parseMiniblocks_refs (h : parseMiniblocks C pbs n ref = .ok bs) :
    ((bs.flatMap (·.events)).map (·.ref)).Nodup ∧
      ∀ e ∈ bs.flatMap (·.events), ref ≤ e.ref ∧ e.ref < ref + blocksRefCount pbs := by
  induction pbs generalizing n ref bs with
  | nil =>
    cases h
    simp
  | cons pb pbs ih =>
    obtain ⟨b, hb, h⟩ := Res.bind_eq_ok.1 h
    obtain ⟨_, hbs', h⟩ := Res.bind_eq_ok.1 h
    cases h
    obtain ⟨hnodup, hbounds⟩ := ih hbs'
    obtain ⟨-, hevents, -, -⟩ := newMiniblockInfoFromProto_eq_ok hb
    obtain ⟨-, -, hrefs⟩ := parseEvents_eq_ok.1 hevents
    have hcount : blocksRefCount (pb :: pbs) = pb.refCount + blocksRefCount pbs := by
      simp [blocksRefCount]
    have hfirst : ∀ e ∈ b.events, ref ≤ e.ref ∧ e.ref < ref + pb.refCount := by
      intro e he
      have hmem : e.ref ∈ b.events.map (·.ref) := mem_map_of_mem he
      rw [hrefs, mem_range'_1] at hmem
      unfold Miniblock.refCount
      omega
    constructor
    · exact nodup_refs_append (hrefs ▸ nodup_range') hnodup (fun e he => (hfirst e he).2)
        fun e he => (hbounds e he).1
    intro e he
    rcases mem_append.1 he with he | he
    · have := hfirst e he
      omega
    · have := hbounds e he
      omega

namespace StreamView.Loaded

variable {C : Crypto} {sid : StreamId} {v : StreamView} {r : Record} {ref : Nat}

theorem refs (h : v.Loaded C sid r ref) :
    (v.window.map (·.ref)).Nodup ∧ ∀ e ∈ v.window, ref ≤ e.ref ∧
      e.ref < ref + (blocksRefCount (r.blocks.drop r.latestSnapshot) + r.pool.length) := by
  obtain ⟨hnodup, hbounds⟩ := parseMiniblocks_refs h.blocks
  obtain ⟨es, hes, hvalues, -⟩ := parseMinipool_eq_ok.1 h.minipool
  obtain ⟨-, -, hrefs⟩ := parseEvents_eq_ok.1 hes
  have hblocks : v.blocks.flatMap (·.events) =
      (v.blocks.take (v.snapshotIndex + 1)).flatMap (·.events) ++
        (v.blocks.drop (v.snapshotIndex + 1)).flatMap (·.events) := by
    rw [← flatMap_append, take_append_drop]
  rw [hblocks] at hnodup hbounds
  have hpool : ∀ e ∈ es, ref + blocksRefCount (r.blocks.drop r.latestSnapshot) ≤ e.ref ∧
      e.ref < ref + blocksRefCount (r.blocks.drop r.latestSnapshot) + r.pool.length := by
    intro e he
    have hmem : e.ref ∈ es.map (·.ref) := mem_map_of_mem he
    rw [hrefs, mem_range'_1] at hmem
    exact hmem
  have hlater : ∀ e ∈ (v.blocks.drop (v.snapshotIndex + 1)).flatMap (·.events), ref ≤ e.ref ∧
      e.ref < ref + blocksRefCount (r.blocks.drop r.latestSnapshot) :=
    fun e he => hbounds e (mem_append_right _ he)
  unfold StreamView.window
  rw [hvalues]
  constructor
  · rw [map_append] at hnodup
    exact nodup_refs_append hnodup.of_append_right (hrefs ▸ nodup_range')
      (fun e he => (hlater e he).2) fun e he => (hpool e he).1
  · intro e he
    rcases mem_append.1 he with he | he
    · have := hlater e he
      omega
    · have := hpool e he
      omega

theorem snapshot (h : v.Loaded C sid r ref) :
    ∃ pb header, r.blocks[r.latestSnapshot]? = some pb ∧ pb.header? = some header ∧
      header.snapshot = some v.snapshot.value := by
  obtain ⟨b, hb, hsnapshot⟩ := h.window.snapshot.header
  rw [h.snapshotIndex] at hb
  have hparse := h.blocks
  cases hdrop : r.blocks.drop r.latestSnapshot with
  | nil =>
    rw [hdrop] at hparse
    have hnil : v.blocks = [] := (Res.ok.inj hparse).symm
    exact absurd hnil v.blocks_ne
  | cons pb pbs =>
    rw [hdrop] at hparse
    obtain ⟨b0, hb0, hrest⟩ := Res.bind_eq_ok.1 hparse
    obtain ⟨bs, -, hrest⟩ := Res.bind_eq_ok.1 hrest
    have hblocks : v.blocks = b0 :: bs := (Res.ok.inj hrest).symm
    rw [hblocks, getElem?_cons_zero, Option.some.injEq] at hb
    subst hb
    refine ⟨pb, b0.header, ?_, header?_of_parsed hb0, hsnapshot⟩
    have hget : (r.blocks.drop r.latestSnapshot)[0]? = some pb := by rw [hdrop]; rfl
    rw [getElem?_drop] at hget
    exact hget

end StreamView.Loaded

variable {n : Nat}

namespace StreamView.Window

variable {C : Crypto} {sid : StreamId} {v : StreamView} {pbs : List Miniblock}

theorem window_envelopes (h : v.Window C sid pbs) (hn : IsLatestSnapshot pbs n) :
    v.window.map (·.envelope) = chainEvents (pbs.drop (n + 1)) ++ v.minipoolEnvelopes := by
  have hevents : ∀ {bs : List MiniblockInfo} {pbs : List Miniblock},
      Forall₂ (MiniblockInfo.Holds C) bs pbs →
      (bs.flatMap (·.events)).map (·.envelope) = chainEvents pbs := by
    intro bs pbs hbs
    induction hbs with
    | nil => rfl
    | cons hb _ ih =>
      rw [flatMap_cons, map_append, ih, hb.events]
      rfl
  obtain ⟨k, hk, hlatest⟩ := h.blocks
  have hdrop := forall₂_drop (v.snapshotIndex + 1) hk
  rw [drop_drop, ← Nat.add_assoc, hlatest.unique hn] at hdrop
  rw [window, map_append, hevents hdrop]
  rfl

theorem window_decoded (h : v.Window C sid pbs) : ∀ e ∈ v.window, e.Decoded C := by
  intro e he
  rcases mem_append.1 he with he | he
  · obtain ⟨k, hk, -⟩ := h.blocks
    obtain ⟨b, hb, he⟩ := mem_flatMap.1 he
    obtain ⟨i, hi⟩ := getElem?_of_mem (mem_of_mem_drop hb)
    obtain ⟨_, -, hholds⟩ := forall₂_getElem? hk hi
    exact hholds.events_decoded e he
  · exact h.minipool e he

end StreamView.Window

/-! ## Blocks in the log -/

namespace Ledger

variable {base : Bytes → Option (List KeySolicitation)} {L L' : Ledger}

structure BlockAt (L : Ledger) (base : Bytes → Option (List KeySolicitation)) (a : Nat)
    (header : MiniblockHeader) (es : List ParsedEvent) : Prop where
  window : L.Window a es
  snapshot : ∀ s, header.snapshot = some s → L.SnapshotAt base (a + es.length) s

namespace BlockAt

variable {header : MiniblockHeader}

theorem mono (h : L.BlockAt base a header es) (hle : L.Le L') : L'.BlockAt base a header es :=
  ⟨h.window.mono hle, fun s hs => (h.snapshot s hs).mono hle⟩

theorem resolve (h : L.BlockAt base a header es) : L.BlockAt base a (header.resolve L.heap) es := by
  refine ⟨h.window, fun s hs => ?_⟩
  obtain ⟨s0, hs0, rfl⟩ := Option.map_eq_some_iff.1 hs
  exact (h.snapshot s0 hs0).clone

end BlockAt

/-! ## Later ledgers -/

structure Extends (L L' : Ledger) (n : Nat) (added : Option ParsedEvent) : Prop where
  le : L.Le L'
  log : L'.log = L.log ++ added.toList
  old : ∀ ref, ref < n → (∀ e ∈ added, e.ref ≠ ref) → L'.position ref = L.position ref

namespace Extends

theorem refl (L : Ledger) (n : Nat) : L.Extends L n none :=
  ⟨.refl L, (append_nil _).symm, fun _ _ _ => rfl⟩

theorem of_writes (h : L.Writes L') (n : Nat) : L.Extends L' n none :=
  ⟨h.le, by rw [h.log_eq, Option.toList_none, append_nil], fun ref _ _ => by rw [h.position_eq]⟩

theorem log_eq (h : L.Extends L' n none) : L'.log = L.log := by
  rw [h.log, Option.toList_none, append_nil]

theorem trans {L1 L2 L3 : Ledger} (h : L1.Extends L2 n none) (h' : L2.Extends L3 n' added)
    (hn : n ≤ n') :
    L1.Extends L3 n added := by
  refine ⟨h.le.trans h'.le, by rw [h'.log, h.log_eq], fun ref href hne => ?_⟩
  rw [h'.old ref (lt_of_lt_of_le href hn) hne, h.old ref href (by simp)]

end Extends

/-! ## The stream and its ledger -/

structure Covers (L : Ledger) (p : StreamParams) (gen : List Envelope)
    (base : Bytes → Option (List KeySolicitation)) (st : StreamImpl) : Prop where
  heap : st.heap = L.heap
  fresh : ∀ ref, st.nextRef ≤ ref → L.position ref = none
  decoded : ∀ e ∈ L.log, e.Decoded p.crypto
  stored_eq : st.storedPool p = st.minipool p
  events : chainEvents (st.storedBlocks p) ++ st.minipool p = gen ++ L.log.map (·.envelope)
  stored : ∀ n pb header s, IsLatestSnapshot (st.storedBlocks p) n →
    (st.storedBlocks p)[n]? = some pb → pb.header? = some header → header.snapshot = some s →
    ∃ k, gen.length + k = (chainEvents ((st.storedBlocks p).take (n + 1))).length ∧
      L.SnapshotAt base k s
  view : ∀ v, st.view = some v → ∃ k, L.ViewAt base k v ∧ k + v.window.length = L.log.length

namespace Covers

variable {p : StreamParams} {gen : List Envelope} {st : StreamImpl} {r : Record}
  (h : L.Covers p gen base st)

include h

theorem length_log :
    (chainEvents (st.storedBlocks p)).length + (st.minipool p).length =
      gen.length + L.log.length := by
  have hlength := congrArg length h.events
  rw [length_append, length_append, length_map] at hlength
  exact hlength

theorem grow (hx : L.Extends L' st.nextRef none)
    (hfresh : ∀ ref, n ≤ ref → L'.position ref = none) :
    L'.Covers p gen base { st with heap := L'.heap, nextRef := n } := by
  refine ⟨rfl, hfresh, ?_, h.stored_eq, ?_, ?_, ?_⟩
  · rw [hx.log_eq]
    exact h.decoded
  · rw [hx.log_eq]
    exact h.events
  · intro n pb header s hn hpb hheader hs
    obtain ⟨k, hk, hat⟩ := h.stored n pb header s hn hpb hheader hs
    exact ⟨k, hk, hat.mono hx.le⟩
  · intro v hv
    obtain ⟨k, hat, hend⟩ := h.view v hv
    exact ⟨k, hat.mono hx.le, by rw [hx.log_eq]; exact hend⟩

theorem writes (hw : L.Writes L') : L'.Covers p gen base { st with heap := L'.heap } := by
  refine h.grow (.of_writes hw _) fun ref href => ?_
  rw [hw.position_eq]
  exact h.fresh ref href

theorem alloc (hn : st.nextRef ≤ n) : L.Covers p gen base { st with nextRef := n } := by
  have hgrow := h.grow (.refl L _) fun ref href => h.fresh ref (hn.trans href)
  rw [← h.heap] at hgrow
  exact hgrow

theorem withView (view : Option StreamView) (receivers : List Nat)
    (hpool : ({ st with view := view, receivers := receivers } : StreamImpl).minipool p =
      st.minipool p)
    (hview : ∀ v, view = some v → ∃ k, L.ViewAt base k v ∧ k + v.window.length = L.log.length) :
    L.Covers p gen base { st with view := view, receivers := receivers } := by
  refine ⟨h.heap, h.fresh, h.decoded, ?_, ?_, h.stored, hview⟩
  · rw [hpool]
    exact h.stored_eq
  · rw [hpool]
    exact h.events

theorem unload (receivers : List Nat) :
    L.Covers p gen base { st with view := none, receivers := receivers } := by
  refine h.withView none receivers ?_ (by simp)
  rw [← h.stored_eq]
  rfl

variable (hsound : st.Sound p r)

include hsound

theorem window_loaded {v : StreamView} (hloaded : v.Loaded p.crypto p.streamId r st.nextRef)
    (hpool : v.minipoolEnvelopes = st.minipool p) :
    ∃ k, L.SnapshotAt base k v.snapshot.value ∧ k + v.window.length = L.log.length ∧
      Forall₂ ParsedEvent.SameContent v.window (L.log.drop k) := by
  obtain ⟨pb, header, hpb, hheader, hs⟩ := hloaded.snapshot
  have hstored := h.stored r.latestSnapshot pb header v.snapshot.value
  have hevents := h.events
  rw [hsound.storedBlocks] at hstored hevents
  obtain ⟨k, hk, hat⟩ := hstored hsound.stored.latestSnapshot hpb hheader hs
  -- cut the events of the stream behind the block with the snapshot
  have henvelopes : v.window.map (·.envelope) = (L.log.drop k).map (·.envelope) := by
    have hwindow := hloaded.window.window_envelopes hsound.stored.latestSnapshot
    have hcut : (chainEvents r.blocks ++ st.minipool p).drop (gen.length + k) =
        chainEvents (r.blocks.drop (r.latestSnapshot + 1)) ++ st.minipool p := by
      have hsplit : chainEvents r.blocks = chainEvents (r.blocks.take (r.latestSnapshot + 1)) ++
          chainEvents (r.blocks.drop (r.latestSnapshot + 1)) := by
        unfold chainEvents
        rw [← flatMap_append, take_append_drop]
      rw [hsplit, append_assoc, hk, drop_left]
    rw [hwindow, hpool, ← hcut, hevents]
    simp
  have hlength := congrArg length henvelopes
  rw [length_map, length_map, length_drop] at hlength
  refine ⟨k, hat, ?_, ?_⟩
  · have hbound := hat.stands.bound
    omega
  · exact sameContent_of_envelopes henvelopes hloaded.window.window_decoded
      fun e he => h.decoded e (mem_of_mem_drop he)

theorem loadInternal (faults : Faults) :
    ∃ L', L.Extends L' st.nextRef none ∧ L'.Covers p gen base (st.loadInternal p faults).1 ∧
      st.nextRef ≤ (st.loadInternal p faults).1.nextRef := by
  rcases loadInternal_cases hsound faults with
    ⟨v, n, heq, hwindow, hpool, ⟨hv, rfl⟩ | ⟨hv, hloaded, hn⟩⟩ | ⟨-, res, hres, heq⟩
  · rw [heq]
    refine ⟨L, .refl L _, ?_, le_refl _⟩
    rw [← hv]
    exact h
  · rw [heq]
    obtain ⟨hnodup, hbounds⟩ := hloaded.refs
    obtain ⟨k, hat, hend, hsame⟩ := h.window_loaded hsound hloaded hpool
    obtain ⟨L', hle, hlog, hheap, hwindow', hold⟩ := L.register (le_of_eq hend) hnodup
      (fun e he => h.fresh e.ref (hbounds e he).1) (by
        intro j e he
        obtain ⟨e0, he0, hcontent⟩ := forall₂_getElem? hsame he
        rw [getElem?_drop] at he0
        exact ⟨e0, he0, hcontent.event.symm⟩)
    have hnew : ∀ ref, ref < st.nextRef ∨ n ≤ ref → ref ∉ v.window.map (·.ref) := by
      intro ref href hmem
      obtain ⟨e, he, rfl⟩ := mem_map.1 hmem
      have := hbounds e he
      omega
    have hx : L.Extends L' st.nextRef none := by
      refine ⟨hle, by rw [hlog, Option.toList_none, append_nil], fun ref href _ => ?_⟩
      exact hold ref (hnew ref (.inl href))
    have hgrown := h.grow hx fun ref href => by
      rw [hold ref (hnew ref (.inr href))]
      exact h.fresh ref (by omega)
    rw [hheap, ← h.heap] at hgrown
    refine ⟨L', hx, hgrown.withView (some v) st.receivers ?_ ?_, ?_⟩
    · rw [minipool_of_view rfl, hpool]
      rfl
    · intro v' hv'
      cases hv'
      exact ⟨k, ⟨hat.mono hle, hwindow'⟩, by rw [hlog]; exact hend⟩
    · show st.nextRef ≤ n
      omega
  · rw [heq]
    exact ⟨L, .refl L _, h, le_refl _⟩

theorem withView_cases (faults : Faults) (f : StreamImpl → StreamView → StreamImpl × Outcome) :
    (∃ (v : StreamView) (n : Nat) (L' : Ledger),
        st.withView p faults f = f { st with view := some v, nextRef := n } v ∧
        ({ st with view := some v, nextRef := n } : StreamImpl).Sound p r ∧
        v.minipoolEnvelopes = st.minipool p ∧ st.nextRef ≤ n ∧ L.Extends L' st.nextRef none ∧
        L'.Covers p gen base { st with view := some v, nextRef := n }) ∨
      (st.withView p faults f).1 = st := by
  have hload := h.loadInternal hsound faults
  unfold StreamImpl.withView
  rcases loadInternal_cases hsound faults with
    ⟨v, n, heq, hwindow, hpool, -⟩ | ⟨-, res, hres, heq⟩
  · rw [heq] at hload ⊢
    obtain ⟨L', hx, hcovers, hn⟩ := hload
    exact .inl ⟨v, n, L', rfl, hsound.loaded hwindow hpool n, hpool, hn, hx, hcovers⟩
  · rw [heq]
    cases res with
    | ok v => cases hres
    | _ => exact .inr rfl

/-! ## AddEvent -/

theorem added (hv : st.view = some v) (hdec : e.Decoded p.crypto) (hsorted : SortedIds e)
    (href : e.ref < st.nextRef) (hpos : L.position e.ref = none)
    (hadd : v.copyAndAddEvent e = .ok v') (hstored : v.minipoolEnvelopes = r.pool)
    (hrep : Storage.Represents db' p.streamId (Record.addEvent r e.envelope)) :
    ∃ L', L.Extends L' st.nextRef (some e) ∧
      L'.Covers p gen base { st with db := db', view := some v' } := by
  obtain ⟨L', hle, hlog, hheap, hposition⟩ := L.add hpos hsorted
  obtain ⟨k, hat, hend⟩ := h.view v hv
  obtain ⟨-, -, m, hvalues, rfl⟩ := copyAndAddEvent_eq_ok.1 hadd
  have hevents := h.events
  rw [hsound.storedBlocks, minipool_of_view hv] at hevents
  have hblocks :
      ({ st with db := db', view := some { v with minipool := ⟨m, v.minipool.generation⟩ } } :
      StreamImpl).storedBlocks p = st.storedBlocks p :=
    hrep.blocksOf.trans hsound.storedBlocks.symm
  have hpool :
      ({ st with db := db', view := some { v with minipool := ⟨m, v.minipool.generation⟩ } } :
      StreamImpl).minipool p = v.minipoolEnvelopes ++ [e.envelope] := by
    show m.values.map (·.envelope) = _
    rw [hvalues, map_append]
    rfl
  have hold : ∀ ref, ref ≠ e.ref → L'.position ref = L.position ref := by
    intro ref hne
    rw [hposition, Function.update_of_ne hne]
  refine ⟨L', ⟨hle, hlog, fun ref _ hne => hold ref (hne e rfl).symm⟩, ?_⟩
  refine ⟨h.heap.trans hheap.symm, ?_, ?_, ?_, ?_, ?_, ?_⟩
  · intro ref hle'
    have hle' : st.nextRef ≤ ref := hle'
    rw [hold ref (by omega)]
    exact h.fresh ref hle'
  · rw [hlog]
    exact forall_mem_append.2 ⟨h.decoded, forall_mem_singleton.2 hdec⟩
  · rw [hpool, hstored]
    exact hrep.poolOf
  · rw [hblocks, hsound.storedBlocks, hpool, hlog, ← append_assoc, hevents, map_append,
      append_assoc]
    rfl
  · rw [hblocks]
    intro n pb header s hn hpb hheader hs
    obtain ⟨k, hk, hat⟩ := h.stored n pb header s hn hpb hheader hs
    exact ⟨k, hk, hat.mono hle⟩
  · intro v1 hv1
    cases hv1
    have hwindow : ({ v with minipool := ⟨m, v.minipool.generation⟩ } : StreamView).window =
        v.window ++ [e] := by
      simp [window, hvalues]
    refine ⟨k, .intro (hat.snapshot.mono hle) ?_, ?_⟩
    · rw [hwindow]
      refine hat.window.concat hend hle hlog ?_
      rw [hposition, Function.update_self]
    · rw [hwindow, hlog, length_append, length_append, ← Nat.add_assoc, hend]

theorem addEvent (hdec : e.Decoded p.crypto) (hsorted : SortedIds e)
    (hheader : e.event.getMiniblockHeader = none) (hnew : e.hash ∉ (st.minipool p).map (·.hash))
    (href : e.ref < st.nextRef) (hpos : L.position e.ref = none) (faults : Faults) :
    ∃ added, (∀ e' ∈ added, e' = e) ∧
      ∃ L', L.Extends L' st.nextRef added ∧ L'.Covers p gen base (st.addEvent p e faults).1 ∧
        st.nextRef ≤ (st.addEvent p e faults).1.nextRef := by
  unfold StreamImpl.addEvent
  rcases h.withView_cases hsound faults (addEventImpl p e faults.write) with
    ⟨v, n, L', heq, hsound', hpool, hn, hx, hcovers⟩ | heq
  swap
  · rw [heq]
    exact ⟨none, by simp, L, .refl L _, h, le_refl _⟩
  rw [heq]
  rcases addEventImpl_cases hsound' rfl e faults.write with
    ⟨err, himpl⟩ | ⟨db', hrep, hstored, ⟨v', hv', himpl⟩ | ⟨hrefused, -⟩⟩
  · rw [himpl]
    exact ⟨none, by simp, L', hx, hcovers, hn⟩
  · have hpos' : L'.position e.ref = none := (hx.old e.ref href (by simp)).trans hpos
    obtain ⟨L'', hx', hcovers'⟩ := hcovers.added hsound' rfl hdec hsorted
      (lt_of_lt_of_le href hn) hpos' hv' hstored hrep
    rw [himpl]
    exact ⟨some e, by simp, L'', hx.trans hx' hn, hcovers', hn⟩
  · rw [← v.minipoolEnvelopes_hash, hpool] at hrefused
    rcases hrefused with hrefused | hrefused
    · exact absurd hheader hrefused
    · exact absurd hrefused hnew

/-! ## Blocks -/

theorem applied (hv : st.view = some v) (hb : b.Holds p.crypto b.proto) {a : Nat}
    (ha : gen.length + a = (chainEvents r.blocks).length) (hat : L.BlockAt base a b.header b.events)
    (hproto : ∀ header, b.proto.header? = some header → L.BlockAt base a header b.events)
    (happly : v.copyAndApplyBlock b p.cfg = .ok v')
    (hsplit : v.minipoolEnvelopes = b.proto.events ++ v'.minipoolEnvelopes)
    {c : Storage.Candidate Bytes Miniblock} (hc : c.blockdata = b.proto)
    (hrep : Storage.Represents db' p.streamId
      (r.promote c b.header.snapshot.isSome v'.minipoolEnvelopes)) :
    L.Covers p gen base { st with db := db', view := some v' } := by
  obtain ⟨k, hview, hend⟩ := h.view v hv
  have hevents := h.events
  have hlength := h.length_log
  rw [hsound.storedBlocks, minipool_of_view hv] at hevents hlength
  have hblocks : ({ st with db := db', view := some v' } : StreamImpl).storedBlocks p =
      r.blocks ++ [b.proto] := by
    rw [← hc]
    exact hrep.blocksOf
  have hchain : chainEvents (r.blocks ++ [b.proto]) = chainEvents r.blocks ++ b.proto.events := by
    simp [chainEvents]
  -- the objects of the minipool that the block takes
  obtain ⟨front, rest, hvalues, hfront, -⟩ := map_eq_append_iff.1 hsplit
  have hbevents : b.events.map (·.envelope) = b.proto.events := hb.events
  have hhashes : front.map (·.hash) = b.events.map (·.hash) := by
    have := congrArg (map Envelope.hash) (hfront.trans hbevents.symm)
    rw [map_map, map_map] at this
    exact this
  have hlen : front.length = b.events.length := by simpa using congrArg length hhashes
  have hpoolLength : v.minipoolEnvelopes.length = front.length + rest.length := by
    rw [minipoolEnvelopes, hvalues, length_map, length_append]
  have hwindow : L.Window k v.window := hview.window
  rw [window, hvalues] at hend hwindow
  rw [length_append, length_append] at hend
  set later := (v.blocks.drop (v.snapshotIndex + 1)).flatMap (·.events) with hlater
  obtain ⟨hwlater, hw⟩ := window_append.1 hwindow
  obtain ⟨-, hwrest⟩ := window_append.1 hw
  have ha' : a = k + later.length := by omega
  refine ⟨h.heap, h.fresh, h.decoded, ?_, ?_, ?_, ?_⟩
  · exact hrep.poolOf
  · rw [hblocks, minipool_of_view rfl, hchain, append_assoc, ← hsplit]
    exact hevents
  · rw [hblocks]
    intro n pb header s hn hpb hheader hs
    cases hlast : b.proto.hasSnapshot with
    | true =>
      have hn' : n = r.blocks.length :=
        hn.unique (.concat_of_hasSnapshot hlast)
      rw [hn', getElem?_append_right (Nat.le_refl _), Nat.sub_self, getElem?_cons_zero,
        Option.some.injEq] at hpb
      subst hpb
      refine ⟨a + b.events.length, ?_, (hproto header hheader).snapshot s hs⟩
      rw [hn', take_of_length_le (by simp), hchain, length_append, ← ha, ← hbevents,
        length_map, Nat.add_assoc]
    | false =>
      -- the latest snapshot is where it was
      have hlatest := hsound.stored.latestSnapshot
      have hn' : n = r.latestSnapshot :=
        hn.unique (hlatest.concat hlast)
      have hlt := hlatest.lt
      rw [hn', getElem?_append_left hlt] at hpb
      have hstored := h.stored r.latestSnapshot pb header s
      rw [hsound.storedBlocks] at hstored
      obtain ⟨k', hk', hat'⟩ := hstored hlatest hpb hheader hs
      refine ⟨k', ?_, hat'⟩
      rw [hn', take_append_of_le_length hlt]
      exact hk'
  · intro v1 hv1
    cases hv1
    rcases window_copyAndApplyBlock hvalues hhashes happly with
      ⟨-, hsnapshot, hwindow'⟩ | ⟨hsnapshot, hwindow'⟩
    · refine ⟨k, .intro ?_ ?_, ?_⟩
      · rw [hsnapshot]
        exact hview.snapshot
      · rw [hwindow', append_assoc, window_append, window_append]
        refine ⟨hwlater, ha' ▸ hat.window, ?_⟩
        rw [← hlen]
        exact hwrest
      · rw [hwindow', length_append, length_append, ← hlater]
        omega
    · refine ⟨a + b.events.length, .intro (hat.snapshot _ hsnapshot) ?_, ?_⟩
      · rw [hwindow', ha', ← hlen]
        exact hwrest
      · rw [hwindow']
        omega

theorem applyMiniblock (hb : b.Holds p.crypto b.proto)
    (hbuilt : b.header.miniblockNum = r.generation → BuiltOn p b r (st.minipool p)) {a : Nat}
    (ha : b.header.miniblockNum = r.generation → gen.length + a = (chainEvents r.blocks).length)
    (hat : L.BlockAt base a b.header b.events)
    (hproto : ∀ header, b.proto.header? = some header → L.BlockAt base a header b.events)
    (faults : Faults) :
    ∃ L', L.Extends L' st.nextRef none ∧ L'.Covers p gen base (st.applyMiniblock p b faults).1 ∧
      st.nextRef ≤ (st.applyMiniblock p b faults).1.nextRef := by
  unfold StreamImpl.applyMiniblock
  rcases h.withView_cases hsound faults (applyMiniblockImpl p b faults.write) with
    ⟨v, n, L', heq, hsound', hpool, hn, hx, hcovers⟩ | heq
  swap
  · rw [heq]
    exact ⟨L, .refl L _, h, le_refl _⟩
  rw [heq]
  rcases applyMiniblockImpl_cases hsound' rfl hb (fun hnum => hpool ▸ hbuilt hnum) faults.write with
    ⟨res, hres, himpl⟩ | ⟨db', v', c, happly, hrep, hc, hnum, -, hsplit, himpl⟩
  · rw [himpl]
    exact ⟨L', hx, hcovers, hn⟩
  · rw [himpl]
    exact ⟨L', hx, hcovers.applied hsound' rfl hb (ha hnum) (hat.mono hx.le)
      (fun header hheader => (hproto header hheader).mono hx.le) happly hsplit hc hrep, hn⟩

theorem storeMiniblockCandidate (b : MiniblockInfo) (fault : Bool) :
    L.Covers p gen base (st.storeMiniblockCandidate p b fault).1 ∧
      (st.storeMiniblockCandidate p b fault).1.nextRef = st.nextRef := by
  rcases storeMiniblockCandidate_cases hsound b fault with
    ⟨res, heq⟩ | ⟨db', r', hrep, hblocks, hpool, -, -, heq⟩
  · rw [heq]
    exact ⟨h, rfl⟩
  rw [heq]
  have hblocks' : ({ st with db := db' } : StreamImpl).storedBlocks p = st.storedBlocks p := by
    rw [hsound.storedBlocks, ← hblocks]
    exact hrep.blocksOf
  have hpool' : ({ st with db := db' } : StreamImpl).storedPool p = st.storedPool p := by
    rw [hsound.storedPool, ← hpool]
    exact hrep.poolOf
  have hminipool : ({ st with db := db' } : StreamImpl).minipool p = st.minipool p := by
    simp only [StreamImpl.minipool, hpool']
  refine ⟨⟨h.heap, h.fresh, h.decoded, ?_, ?_, ?_, h.view⟩, rfl⟩
  · rw [hpool', hminipool]
    exact h.stored_eq
  · rw [hblocks', hminipool]
    exact h.events
  · rw [hblocks']
    exact h.stored

theorem sub (cookie : SyncCookie) (receiver : Nat) (faults : Faults) :
    ∃ L', L.Extends L' st.nextRef none ∧
      L'.Covers p gen base (st.sub p cookie receiver faults).1 ∧
      st.nextRef ≤ (st.sub p cookie receiver faults).1.nextRef := by
  have hsame : ∃ L', L.Extends L' st.nextRef none ∧ L'.Covers p gen base st ∧
      st.nextRef ≤ st.nextRef := ⟨L, .refl L _, h, le_refl _⟩
  unfold StreamImpl.sub
  split
  · exact hsame
  split
  · exact hsame
  split
  · exact hsame
  rcases h.withView_cases hsound faults (subImpl p cookie receiver) with
    ⟨v, n, L', heq, -, -, hn, hx, hcovers⟩ | heq
  swap
  · rw [heq]
    exact hsame
  rw [heq]
  -- only the receivers differ between the branches
  have hany : ∀ receivers, L'.Covers p gen base
      { st with view := some v, nextRef := n, receivers := receivers } := fun receivers =>
    hcovers.withView (some v) receivers rfl hcovers.view
  unfold subImpl
  split
  · split
    · exact ⟨L', hx, hcovers, hn⟩
    · exact ⟨L', hx, hany _, hn⟩
  · split <;> exact ⟨L', hx, hany _, hn⟩

end Covers

end Ledger

end River.Node
