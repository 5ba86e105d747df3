/-
  Views as windows of a stored chain, whether they were loaded from the store or grown block by
  block.
-/

import River.Lib.Pointwise
import River.Node.Events.Chain
import River.Node.Storage.StreamRecord

namespace River.Node

open List EventMap Res

/-! ## Loading a chain -/

variable {n : Int} {bs : List MiniblockInfo}

theorem parseMiniblocks_holds (h : parseMiniblocks C pbs n ref = .ok bs) :
    Forall₂ (MiniblockInfo.Holds C) bs pbs := by
  induction pbs generalizing n ref bs with
  | nil =>
    cases h
    exact .nil
  | cons pb pbs ih =>
    obtain ⟨b, hb, h⟩ := bind_eq_ok.1 h
    obtain ⟨_, hbs', h⟩ := bind_eq_ok.1 h
    cases h
    exact .cons (holds_of_parsed hb) (ih hbs')

theorem parseMiniblocks_of_wellFormed {pbs : List Miniblock} (first last : Int)
    (hwf : ∀ pb ∈ pbs, pb.WellFormed C)
    (hnum : ∀ (i : Nat) pb h, pbs[i]? = some pb → pb.header? = some h → h.miniblockNum = first + i)
    (hlast : 0 ≤ last + 1 → last + 1 = first) (ref : Nat) :
    ∃ bs, parseMiniblocks C pbs last ref = .ok bs := by
  induction pbs generalizing first last ref with
  | nil => exact ⟨[], rfl⟩
  | cons pb pbs ih =>
    have hfirst : ∀ h, pb.header? = some h → h.miniblockNum = first := by
      intro h hh
      have := hnum 0 pb h rfl hh
      omega
    obtain ⟨b, hb⟩ := newMiniblockInfoFromProto_of_wellFormed (hwf pb mem_cons_self)
      (fun h hh hn => (hfirst h hh).trans (hlast hn).symm) ref
    have hbnum : b.header.miniblockNum = first := by
      obtain ⟨heap, hh⟩ := (holds_of_parsed hb).header?
      exact hfirst (b.header.resolve heap) hh
    obtain ⟨bs, hbs⟩ := ih (first + 1) first
      (fun pb' hpb' => hwf pb' (mem_cons_of_mem _ hpb'))
      (fun i pb' h hpb' hh => by
        have := hnum (i + 1) pb' h hpb' hh
        omega)
      (fun _ => rfl) (ref + pb.refCount)
    refine ⟨b :: bs, ?_⟩
    rw [parseMiniblocks, hb, ok_bind, hbnum, hbs]
    rfl

theorem Chain.parseMiniblocks (h : Chain C sid pbs) (k ref : Nat) :
    ∃ bs, parseMiniblocks C (pbs.drop k) (-2) ref = .ok bs := by
  refine parseMiniblocks_of_wellFormed k (-2)
    (fun pb hpb => h.wellFormed pb (mem_of_mem_drop hpb)) ?_ (by omega) ref
  intro i pb header hpb hheader
  rw [getElem?_drop] at hpb
  obtain ⟨_, hat⟩ := h.header_at hpb
  have hlt := (List.getElem?_eq_some_iff.1 hpb).1
  rw [hat.header, Option.some.injEq] at hheader
  rw [← hheader, hat.miniblockNum, length_take, Nat.min_eq_left hlt.le]
  rfl

structure StreamView.Window (C : Crypto) (sid : StreamId) (v : StreamView) (pbs : List Miniblock) :
    Prop where
  streamId : v.streamId = sid
  blocks : ∃ k, Forall₂ (MiniblockInfo.Holds C) v.blocks (pbs.drop k) ∧
    IsLatestSnapshot pbs (k + v.snapshotIndex)
  snapshot : v.SnapshotAtIndex
  generation : v.minipool.generation = pbs.length
  minipool : ∀ e ∈ v.minipool.events.values, e.Decoded C

structure StoredChain (C : Crypto) (sid : StreamId)
    (r : Storage.StreamRecord Bytes Miniblock Envelope) : Prop where
  chain : Chain C sid r.blocks
  latestSnapshot : IsLatestSnapshot r.blocks r.latestSnapshot
  pool : ∀ envelope ∈ r.pool, ∃ event, authenticate C envelope = .ok event

namespace StreamView

theorem getLast_holds (hne : bs ≠ []) {pbs : List Miniblock}
    (h : Forall₂ (MiniblockInfo.Holds C) bs (pbs.drop k)) :
    ∃ pb, pbs.getLast? = some pb ∧ (bs.getLast hne).Holds C pb := by
  have hlast : bs[bs.length - 1]? = some (bs.getLast hne) := by
    rw [← getLast?_eq_getElem?, getLast?_eq_some_getLast hne]
  obtain ⟨pb, hpb, hholds⟩ := Lib.forall₂_getElem? h hlast
  refine ⟨pb, ?_, hholds⟩
  have hlen := h.length_eq
  have hpos := length_pos_of_ne_nil hne
  rw [length_drop] at hlen
  rw [getElem?_drop] at hpb
  rw [getLast?_eq_getElem?, ← hpb]
  congr 1
  omega

end StreamView

variable {pb : Miniblock} {b : MiniblockInfo}

theorem Chain.lastNum (h : Chain C sid pbs) (hpb : pbs.getLast? = some pb) (hb : b.Holds C pb) :
    b.header.miniblockNum + 1 = pbs.length ∧
      b.header.eventNumOffset + b.events.length + 1 = (chainEnvelopes pbs).length ∧
      b.header.timestamp.isSome := by
  obtain ⟨pbs', rfl⟩ := getLast?_eq_some_iff.1 hpb
  obtain ⟨_, hat⟩ := h.header_at (getElem?_concat_length)
  obtain ⟨_, hheader⟩ := hb.header?
  rw [hat.header, Option.some.injEq] at hheader
  have hnum := hat.miniblockNum
  have hoff := hat.eventNumOffset
  have hts := hat.timestamp
  rw [hheader] at hnum hoff hts
  rw [take_append_of_le_length (Nat.le_refl _), take_length] at hnum hoff
  refine ⟨?_, ?_, hts⟩
  · rw [length_append]
    exact congrArg (· + 1) hnum
  rw [length_chainEnvelopes_concat, hb.length_events]
  have hoff' : b.header.eventNumOffset = (chainEnvelopes pbs').length := hoff
  omega

theorem Chain.latestSnapshot (h : Chain C sid pbs) (hpb : pbs.getLast? = some pb)
    (hb : b.Holds C pb) :
    ∃ n : Nat, IsLatestSnapshot pbs n ∧
      (if b.header.snapshot.isSome then b.header.miniblockNum
        else b.header.prevSnapshotMiniblockNum) = n := by
  have hnum := (h.lastNum hpb hb).1
  obtain ⟨_, hheader⟩ := hb.header?
  rw [← hb.hasSnapshot_eq]
  cases h with
  | @genesis pb' hg =>
    rw [getLast?_singleton, Option.some.injEq] at hpb
    subst hpb
    rw [length_singleton] at hnum
    have hlatest : IsLatestSnapshot ([] ++ [pb']) [].length :=
      .concat_of_hasSnapshot hg.hasSnapshot
    refine ⟨0, hlatest, ?_⟩
    rw [if_pos hg.hasSnapshot]
    omega
  | @concat pbs' pb' hc hf =>
    rw [getLast?_concat, Option.some.injEq] at hpb
    subst hpb
    rw [length_append, length_singleton] at hnum
    cases hsnap : pb'.hasSnapshot with
    | true =>
      refine ⟨pbs'.length, .concat_of_hasSnapshot hsnap, ?_⟩
      rw [if_pos rfl]
      omega
    | false =>
      obtain ⟨_, hh, hfollows, -⟩ := hf.header
      rw [hh, Option.some.injEq] at hheader
      obtain ⟨n, hn, hprev⟩ := hfollows.prevSnapshotMiniblockNum
      refine ⟨n, hn.concat hsnap, ?_⟩
      rw [← hprev, hheader]
      rfl

structure StreamView.Loaded (C : Crypto) (sid : StreamId) (v : StreamView)
    (r : Storage.StreamRecord Bytes Miniblock Envelope) (ref : Nat) : Prop where
  window : v.Window C sid r.blocks
  blocks : parseMiniblocks C (r.blocks.drop r.latestSnapshot) (-2) ref = .ok v.blocks
  snapshotIndex : v.snapshotIndex = 0
  minipool : parseMinipool C r.pool (ref + blocksRefCount (r.blocks.drop r.latestSnapshot))
    empty = .ok v.minipool.events

theorem StoredChain.makeStreamView (h : StoredChain C sid r) (precedingBlockCount : Int)
    (ref : Nat) :
    ∃ build : EventMap → StreamView,
      (∀ m, parseMinipool C r.pool (ref + blocksRefCount (r.blocks.drop r.latestSnapshot))
        empty = .ok m → (build m).Loaded C sid r ref) ∧
      makeStreamView C (r.read precedingBlockCount) ref = (do
        let m ← parseMinipool C r.pool (ref + blocksRefCount (r.blocks.drop r.latestSnapshot))
          empty
        .ok (build m)) := by
  obtain ⟨bs, hbs⟩ := h.chain.parseMiniblocks r.latestSnapshot ref
  have hholds := parseMiniblocks_holds hbs
  have hlt := h.latestSnapshot.lt
  obtain ⟨pb, hpb, hsnap⟩ := h.latestSnapshot.1
  have hdrop : r.blocks.drop r.latestSnapshot = pb :: r.blocks.drop (r.latestSnapshot + 1) := by
    rw [drop_eq_getElem_cons hlt, (List.getElem?_eq_some_iff.1 hpb).2]
  obtain ⟨b, bs', rfl⟩ : ∃ b bs', bs = b :: bs' := by
    cases bs with
    | nil =>
      rw [hdrop] at hholds
      cases hholds
    | cons b bs' => exact ⟨b, bs', rfl⟩
  have hb : b.Holds C pb := by
    rw [hdrop] at hholds
    cases hholds with
    | cons hb _ => exact hb
  obtain ⟨s, hs⟩ : ∃ s, b.header.snapshot = some s := by
    rw [hb.hasSnapshot_eq] at hsnap
    exact Option.isSome_iff_exists.1 hsnap
  have hsid : streamIdOfSnapshot s = .ok sid := by
    obtain ⟨_, hat⟩ := h.chain.header_at hpb
    obtain ⟨heap, hheader⟩ := hb.header?
    rw [hat.header, Option.some.injEq] at hheader
    have := hat.snapshotOf (s.clone heap) (by rw [hheader, MiniblockHeader.resolve, hs]; rfl)
    rwa [streamIdOfSnapshot_clone] at this
  have hidx : (b :: bs').findIdx (·.header.snapshot.isSome) = 0 := by
    simp [findIdx_cons, hs]
  obtain ⟨_, hlast, hlastHolds⟩ := StreamView.getLast_holds (cons_ne_nil _ _) hholds
  have hgen := (h.chain.lastNum hlast hlastHolds).1
  refine ⟨fun m => ⟨sid, b :: bs', cons_ne_nil _ _, ⟨m, r.blocks.length⟩,
    ⟨b.headerEvent.ref, s⟩, 0, Nat.zero_lt_succ _⟩, ?_, ?_⟩
  · intro m hm
    refine ⟨⟨rfl, ⟨r.latestSnapshot, hholds, h.latestSnapshot⟩, ?_, rfl, ?_⟩, hbs, rfl, hm⟩
    · simp [StreamView.SnapshotAtIndex, MiniblockInfo.snapshot?, hs]
    obtain ⟨_, hes, hvalues, -⟩ := parseMinipool_eq_ok.1 hm
    intro e he
    refine (parseEvents_eq_ok.1 hes).2.1 e ?_
    rwa [hvalues] at he
  · have hpos : ¬ (r.read precedingBlockCount).miniblocks.length ≤ 0 := by
      rw [Storage.StreamRecord.read, length_drop]
      omega
    have hparse : parseMiniblocks C (r.read precedingBlockCount).miniblocks (-2) ref =
        .ok (b :: bs') := hbs
    unfold River.Node.makeStreamView
    rw [if_neg hpos, hparse, ok_bind]
    simp only [hidx, get_eq_getElem,
      getElem_cons_zero, MiniblockInfo.snapshot?, hs, Option.map_some, assembleStreamView,
      hsid, hgen]
    rfl

/-! ## Operations of a view -/

namespace StreamView

theorem minipoolEnvelopes_hash (v : StreamView) :
    v.minipoolEnvelopes.map (·.hash) = v.minipool.events.hashes := by
  simp [minipoolEnvelopes, hashes, ParsedEvent.hash]

theorem length_minipoolEnvelopes (v : StreamView) :
    v.minipoolEnvelopes.length = v.minipool.events.len := by
  rw [minipoolEnvelopes, length_map, length_values]

variable {v' : StreamView} {e : ParsedEvent}

theorem copyAndAddEvent_eq_ok {v : StreamView} :
    v.copyAndAddEvent e = .ok v' ↔
      e.event.getMiniblockHeader = none ∧ e.hash ∉ v.minipool.events.hashes ∧
        ∃ m : EventMap, m.values = v.minipool.events.values ++ [e] ∧
          v' = { v with minipool := ⟨m, v.minipool.generation⟩ } := by
  unfold copyAndAddEvent MinipoolInstance.copyAndAddEvent
  by_cases hheader : e.event.getMiniblockHeader = none
  · rw [if_neg (not_not.2 hheader)]
    constructor
    · intro h
      obtain ⟨minipool, hm, h⟩ := bind_eq_ok.1 h
      obtain ⟨m, hset, hm⟩ := bind_eq_ok.1 hm
      cases hm
      cases h
      obtain ⟨hnew, hvalues⟩ := set_eq_ok.1 hset
      exact ⟨hheader, hnew, m, hvalues, rfl⟩
    · rintro ⟨-, hnew, m, hvalues, rfl⟩
      rw [set_eq_ok.2 ⟨hnew, hvalues⟩]
      rfl
  · rw [if_pos hheader]
    constructor
    · intro h
      cases h
    · rintro ⟨h, -⟩
      exact absurd h hheader

theorem copyAndAddEvent_refused {v : StreamView} (h : ∀ v', v.copyAndAddEvent e ≠ .ok v') :
    e.event.getMiniblockHeader ≠ none ∨ e.hash ∈ v.minipool.events.hashes := by
  by_contra hno
  rw [not_or, not_not] at hno
  obtain ⟨m, -, hvalues⟩ := set_of_notMem hno.2
  exact h _ (copyAndAddEvent_eq_ok.2 ⟨hno.1, hno.2, m, hvalues, rfl⟩)

theorem takeBlockEvents_append (es : List ParsedEvent) (rest : List Bytes) :
    takeBlockEvents es (es.map (·.hash) ++ rest) = .ok rest := by
  induction es with
  | nil => rfl
  | cons e es ih =>
    rw [takeBlockEvents, if_pos (by simp), map_cons, cons_append, erase_cons_head]
    exact ih

theorem filter_mem_of_nodup {α κ : Type} [BEq κ] [LawfulBEq κ] {key : α → κ} {as bs : List α}
    (h : ((as ++ bs).map key).Nodup) :
    (as ++ bs).filter (fun a => key a ∈ bs.map key) = bs := by
  rw [map_append, nodup_append] at h
  obtain ⟨-, -, hdisj⟩ := h
  rw [filter_append, filter_eq_nil_iff.2, filter_eq_self.2, nil_append]
  · intro b hb
    exact decide_eq_true (mem_map_of_mem hb)
  · intro a ha hmem
    exact hdisj _ (mem_map_of_mem ha) _ (of_decide_eq_true hmem) rfl

theorem snapshotAtIndex_iff {v : StreamView} :
    v.SnapshotAtIndex ↔ v.blocks[v.snapshotIndex]?.bind (·.snapshot?) = some v.snapshot := by
  rw [getElem?_eq_getElem v.snapshotIndex_lt]
  rfl

variable {cfg : StreamConfig}

theorem copyAndApplyBlock_eq_ok {v : StreamView} (h : v.copyAndApplyBlock b cfg = .ok v') :
    b.header.miniblockNum = v.lastBlock.header.miniblockNum + 1 ∧
      v.lastBlock.hash = b.header.prevMiniblockHash ∧ v'.streamId = v.streamId ∧
      (∃ remaining, takeBlockEvents b.events v.minipool.events.hashes = .ok remaining ∧
        v'.minipool = ⟨v.minipool.events.filter (· ∈ remaining), b.header.miniblockNum + 1⟩) ∧
      ((b.snapshot? = none ∧ v'.blocks = v.blocks ++ [b] ∧ v'.snapshot = v.snapshot ∧
          v'.snapshotIndex = v.snapshotIndex) ∨
        (b.snapshot? = some v'.snapshot ∧ (v.trimIndex cfg).toNat ≤ v.blocks.length ∧
          v'.blocks = v.blocks.drop (v.trimIndex cfg).toNat ++ [b] ∧
          v'.snapshotIndex = v.blocks.length - (v.trimIndex cfg).toNat)) := by
  unfold copyAndApplyBlock at h
  split at h
  · cases h
  rename_i hnum
  split at h
  · cases h
  rename_i hhash
  obtain ⟨remaining, hremaining, h⟩ := bind_eq_ok.1 h
  split at h
  · rename_i hsnap
    cases h
    exact ⟨not_not.1 hnum, not_not.1 hhash, rfl, ⟨remaining, hremaining, rfl⟩,
      .inl ⟨hsnap, rfl, rfl, rfl⟩⟩
  · rename_i snapshot hsnap
    split at h
    · cases h
    cases h
    exact ⟨not_not.1 hnum, not_not.1 hhash, rfl, ⟨remaining, hremaining, rfl⟩,
      .inr ⟨hsnap, by omega, rfl, rfl⟩⟩

variable {heap : Heap} {es : List ParsedEvent}

variable {heap' : Heap} {proposal : MiniblockProposal} {now : Timestamp}

theorem makeMiniblockHeader_eq_ok {v : StreamView} {h : MiniblockHeader}
    (hh : v.makeMiniblockHeader heap proposal now = .ok ((h, es), heap')) :
    v.minipool.generation = proposal.newMiniblockNum ∧
      proposal.prevMiniblockHash = v.lastBlock.hash ∧
      proposedEvents v.minipool.events proposal.hashes = .ok es ∧
      h = ⟨v.lastBlock.header.miniblockNum + 1, v.lastBlock.hash,
        some (nextMiniblockTimestamp v.lastBlock.header.timestamp now), es.map (·.hash),
        h.snapshot, v.nextEventNumOffset, v.prevSnapshotMiniblockNum⟩ ∧
      if proposal.shouldSnapshot then ∃ s, v.nextSnapshot heap es = .ok (s, heap') ∧
        h.snapshot = some s
      else h.snapshot = none ∧ heap' = heap := by
  unfold makeMiniblockHeader at hh
  split at hh
  · cases hh
  rename_i hmatch
  rw [not_or] at hmatch
  obtain ⟨_, hevents, hh⟩ := bind_eq_ok.1 hh
  refine ⟨not_not.1 hmatch.1, not_not.1 hmatch.2, ?_⟩
  split at hh
  · rename_i hsnap
    obtain ⟨⟨s, _⟩, hs, hh⟩ := bind_eq_ok.1 hh
    cases hh
    exact ⟨hevents, rfl, by rw [if_pos hsnap]; exact ⟨s, hs, rfl⟩⟩
  · rename_i hsnap
    cases hh
    exact ⟨hevents, rfl, by rw [if_neg hsnap]; exact ⟨rfl, rfl⟩⟩

theorem updateSnapshotWith_getInceptionPayload
    (h : updateSnapshotWith miniblockNum es n sh = .ok sh') :
    sh'.1.getInceptionPayload = sh.1.getInceptionPayload := by
  induction es generalizing n sh with
  | nil =>
    cases h
    rfl
  | cons e es ih =>
    obtain ⟨⟨_, _⟩, hr, h⟩ := bind_eq_ok.1 h
    exact (ih h).trans (updateSnapshot_getInceptionPayload hr)

theorem nextSnapshot_getInceptionPayload {v : StreamView} (h : v.nextSnapshot heap es = .ok sh) :
    sh.1.getInceptionPayload = v.snapshot.value.getInceptionPayload := by
  have hblocks : ∀ (bs : List MiniblockInfo) (sh sh' : Snapshot × Heap),
      updateSnapshotWithBlocks bs sh = .ok sh' →
        sh'.1.getInceptionPayload = sh.1.getInceptionPayload := by
    intro bs
    induction bs with
    | nil =>
      intro sh sh' h
      cases h
      rfl
    | cons b bs ih =>
      intro sh sh' h
      obtain ⟨sh1, hsh1, h⟩ := bind_eq_ok.1 h
      exact (ih sh1 sh' h).trans (updateSnapshotWith_getInceptionPayload hsh1)
  obtain ⟨sh1, hsh1, h⟩ := bind_eq_ok.1 h
  rw [updateSnapshotWith_getInceptionPayload h, hblocks _ _ _ hsh1,
    Snapshot.clone_getInceptionPayload]

theorem proposedEvents_append {pool : EventMap} {as bs : List ParsedEvent}
    (hpool : pool.values = as ++ bs) (hlen : ∀ e ∈ as, e.hash.length = 32) :
    proposedEvents pool (as.map (·.hash)) = .ok as := by
  have hbytes : ∀ h : Bytes, h.length = 32 → bytesToHash h = h := by
    intro h hh
    simp [bytesToHash, hh]
  have hmem : ∀ e ∈ as, e ∈ pool.values := by
    intro e he
    rw [hpool]
    exact mem_append_left _ he
  clear hpool
  induction as with
  | nil => rfl
  | cons e as ih =>
    rw [map_cons, proposedEvents, hbytes _ (hlen e mem_cons_self),
      EventMap.get_of_mem (hmem e mem_cons_self)]
    rw [ih (fun e' he' => hlen e' (mem_cons_of_mem _ he'))
      (fun e' he' => hmem e' (mem_cons_of_mem _ he'))]
    rfl

namespace Window

variable {C : Crypto} {sid : StreamId} {v : StreamView} {pbs : List Miniblock}

theorem lastBlock (h : v.Window C sid pbs) :
    ∃ pb, pbs.getLast? = some pb ∧ v.lastBlock.Holds C pb := by
  obtain ⟨k, hk, -⟩ := h.blocks
  exact getLast_holds v.blocks_ne hk

theorem copyAndAddEvent (h : v.Window C sid pbs) (he : e.Decoded C)
    (hv' : v.copyAndAddEvent e = .ok v') :
    v'.Window C sid pbs ∧ v'.minipoolEnvelopes = v.minipoolEnvelopes ++ [e.envelope] := by
  obtain ⟨-, -, m, hvalues, rfl⟩ := copyAndAddEvent_eq_ok.1 hv'
  refine ⟨⟨h.streamId, h.blocks, h.snapshot, h.generation, ?_⟩, ?_⟩
  · intro e' he'
    have he' : e' ∈ v.minipool.events.values ++ [e] := hvalues ▸ he'
    exact forall_mem_append.2 ⟨h.minipool, forall_mem_singleton.2 he⟩ e' he'
  · show m.values.map (·.envelope) = _
    rw [hvalues, map_append]
    rfl

theorem copyAndApplyBlock (h : v.Window C sid pbs) (hb : b.Holds C pb)
    (hnum : b.header.miniblockNum = pbs.length) (hpre : pb.events <+: v.minipoolEnvelopes)
    (hv' : v.copyAndApplyBlock b cfg = .ok v') :
    v'.Window C sid (pbs ++ [pb]) ∧
      v.minipoolEnvelopes = pb.events ++ v'.minipoolEnvelopes := by
  obtain ⟨-, -, hsid, ⟨_, hremaining, hminipool⟩, hcases⟩ := copyAndApplyBlock_eq_ok hv'
  obtain ⟨_, hprefix⟩ := hpre
  obtain ⟨as, bs, hvalues, has, -⟩ := map_eq_append_iff.1 hprefix.symm
  have hhashes : v.minipool.events.hashes = b.events.map (·.hash) ++ bs.map (·.hash) := by
    have : as.map (·.hash) = b.events.map (·.hash) := by
      rw [hb.map_hash, ← has, map_map]
      rfl
    rw [hashes, hvalues, map_append, this]
  have hrest : v'.minipool.events.values = bs := by
    rw [hhashes, takeBlockEvents_append] at hremaining
    cases hremaining
    have hnodup : ((as ++ bs).map ParsedEvent.hash).Nodup := by
      rw [← hvalues]
      exact v.minipool.events.hashes_nodup
    rw [hminipool, values_filter, hvalues]
    exact filter_mem_of_nodup hnodup
  obtain ⟨k, hk, hlatest⟩ := h.blocks
  have hlen := hk.length_eq
  have hpos := length_pos_of_ne_nil v.blocks_ne
  rw [length_drop] at hlen
  refine ⟨⟨hsid.trans h.streamId, ?_, ?_, ?_, ?_⟩, ?_⟩
  · rcases hcases with ⟨hsnap, hblocks, -, hindex⟩ | ⟨hsnap, htrim, hblocks, hindex⟩
    · refine ⟨k, ?_, ?_⟩
      · rw [hblocks, drop_append_of_le_length (by omega)]
        exact rel_append hk (.cons hb .nil)
      rw [hindex]
      refine hlatest.concat ?_
      rw [hb.hasSnapshot_eq]
      simpa [MiniblockInfo.snapshot?] using hsnap
    · refine ⟨k + (v.trimIndex cfg).toNat, ?_, ?_⟩
      · rw [hblocks, drop_append_of_le_length (by omega), ← drop_drop]
        exact rel_append (forall₂_drop _ hk) (.cons hb .nil)
      have hend : k + (v.trimIndex cfg).toNat + v'.snapshotIndex = pbs.length := by
        omega
      rw [hend]
      refine .concat_of_hasSnapshot ?_
      rw [hb.hasSnapshot_eq]
      obtain ⟨s, hs, -⟩ := Option.map_eq_some_iff.1 hsnap
      rw [hs]
      rfl
  · rw [snapshotAtIndex_iff]
    rcases hcases with ⟨-, hblocks, hsnapshot, hindex⟩ | ⟨hsnap, htrim, hblocks, hindex⟩
    · rw [hblocks, hindex, hsnapshot, getElem?_append_left v.snapshotIndex_lt]
      exact snapshotAtIndex_iff.1 h.snapshot
    have hat : v'.snapshotIndex = (v.blocks.drop (v.trimIndex cfg).toNat).length := by
      rw [hindex, length_drop]
    rw [hblocks, hat, getElem?_concat_length]
    exact hsnap
  · rw [hminipool, hnum, length_append]
    rfl
  · intro e he
    refine h.minipool e ?_
    rw [hvalues]
    exact mem_append_right _ (hrest ▸ he)
  · rw [minipoolEnvelopes, hvalues, map_append, has, minipoolEnvelopes, hrest]

theorem at_of_getElem? (hc : Chain C sid pbs)
    (hk : Forall₂ (MiniblockInfo.Holds C) v.blocks (pbs.drop k)) (hb : v.blocks[i]? = some b) :
    ∃ pb heap, pbs[k + i]? = some pb ∧ pb.At C sid (pbs.take (k + i)) (b.header.resolve heap) := by
  obtain ⟨pb, hpb, hholds⟩ := Lib.forall₂_getElem? hk hb
  rw [getElem?_drop] at hpb
  obtain ⟨_, hat⟩ := hc.header_at hpb
  obtain ⟨heap, hheader⟩ := hholds.header?
  rw [hat.header, Option.some.injEq] at hheader
  exact ⟨pb, heap, hpb, hheader ▸ hat⟩

theorem streamIdOfSnapshot (h : v.Window C sid pbs) (hc : Chain C sid pbs) :
    streamIdOfSnapshot v.snapshot.value = .ok sid := by
  obtain ⟨k, hk, -⟩ := h.blocks
  obtain ⟨b, hb, hsnap⟩ := Option.bind_eq_some_iff.1 (snapshotAtIndex_iff.1 h.snapshot)
  obtain ⟨s, hs, hptr⟩ := Option.map_eq_some_iff.1 hsnap
  obtain ⟨_, heap, -, hat⟩ := at_of_getElem? hc hk hb
  have hclone := hat.snapshotOf (s.clone heap) (by rw [MiniblockHeader.resolve, hs]; rfl)
  rw [← hptr]
  exact hclone

theorem makeMiniblockHeader (h : v.Window C sid pbs) (hc : Chain C sid pbs)
    {header : MiniblockHeader}
    (hh : v.makeMiniblockHeader heap proposal now = .ok ((header, es), heap')) :
    header.Follows pbs ∧ header.SnapshotOf sid ∧ header.eventHashes = es.map (·.hash) := by
  obtain ⟨-, -, -, heq, hsnap⟩ := makeMiniblockHeader_eq_ok hh
  obtain ⟨last, hlast, hholds⟩ := h.lastBlock
  obtain ⟨hnum, hoff, hts⟩ := hc.lastNum hlast hholds
  obtain ⟨_, hheader⟩ := hholds.header?
  obtain ⟨t, ht⟩ := Option.isSome_iff_exists.1 hts
  refine ⟨⟨?_, ?_, ⟨last, hlast, ?_⟩, ?_, ?_⟩, ?_, ?_⟩
  · rw [heq]
    exact hnum
  · rw [heq]
    exact hoff
  · rw [heq]
    exact hholds.hash_eq
  · rw [heq]
    exact hc.latestSnapshot hlast hholds
  · refine ⟨last, _, t, _, hlast, hheader, ht, by rw [heq], ?_⟩
    rw [ht]
    exact before_nextMiniblockTimestamp t now
  · intro s hs
    split at hsnap
    · obtain ⟨_, hs', hsome⟩ := hsnap
      rw [hs, Option.some.injEq] at hsome
      subst hsome
      rw [Node.streamIdOfSnapshot, nextSnapshot_getInceptionPayload hs']
      exact h.streamIdOfSnapshot hc
    · rw [hs] at hsnap
      cases hsnap.1
  · rw [heq]

end Window

end StreamView

end River.Node
