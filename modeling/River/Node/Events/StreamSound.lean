/-
  What each method of a stream can do.

  The store holds a chain, the view is a window of it, and its minipool is the stored one or a
  first part of it.
-/

import River.Node.Events.Stream
import River.Node.Events.Window

namespace River.Node

open List StreamView Outcome

open Storage (StreamRecord Represents Implements)

abbrev Record := StreamRecord Bytes Miniblock Envelope

structure Log where
  blocks : List Miniblock
  pool : List Envelope
  stored : List Envelope

/-- If the store hides nothing, the minipool cannot become longer by itself. -/
theorem Log.pool_eq {l : Log} {pool' : List Envelope} (h : l.stored = l.pool)
    (hpre : l.pool <+: pool') (hstored : pool' <+: l.stored) : pool' = l.pool :=
  have hle : pool' <+: l.pool := h ▸ hstored
  hle.eq_of_length (Nat.le_antisymm hle.length_le hpre.length_le)

inductive Effect (adding : Option ParsedEvent) (l : Log) :
    Log → List Envelope → List Miniblock → Prop
  /-- The minipool may become longer, when a reload finds what a failed `AddEvent` wrote. -/
  | quiet {pool' : List Envelope} (h : l.pool <+: pool') :
    Effect adding l ⟨l.blocks, pool', l.stored⟩ [] []
  | event {e : ParsedEvent} (hadding : adding = some e) (hstored : l.pool = l.stored)
      (hheader : e.event.getMiniblockHeader = none) (hnew : e.hash ∉ l.pool.map (·.hash)) :
    Effect adding l ⟨l.blocks, l.pool ++ [e.envelope], l.stored ++ [e.envelope]⟩ [e.envelope] []
  /-- The event was written, and then the view refused it. -/
  | refused {e : ParsedEvent} (hadding : adding = some e) (hstored : l.pool = l.stored)
      (hrefused : e.event.getMiniblockHeader ≠ none ∨ e.hash ∈ l.pool.map (·.hash)) :
    Effect adding l ⟨l.blocks, l.pool, l.stored ++ [e.envelope]⟩ [] []
  | block {pb : Miniblock} {pool' : List Envelope} (h : l.pool = pb.events ++ pool') :
    Effect adding l ⟨l.blocks ++ [pb], pool', pool'⟩ [] [pb]

theorem Effect.blocks_eq (h : Effect adding l l' accepted applied) :
    l'.blocks = l.blocks ++ applied ∧ (applied = [] ∨ ∃ pb, applied = [pb]) := by
  cases h with
  | @block pb _ _ => exact ⟨rfl, .inr ⟨pb, rfl⟩⟩
  | _ => exact ⟨(append_nil _).symm, .inl rfl⟩

def Record.addEvent (r : Record) (envelope : Envelope) : Record :=
  { r with pool := r.pool ++ [envelope] }

variable {e : ParsedEvent}

theorem StoredChain.addEvent (h : StoredChain C sid r)
    (he : e.Decoded C) : StoredChain C sid (Record.addEvent r e.envelope) := by
  exact ⟨h.chain, h.latestSnapshot, forall_mem_append.2 ⟨h.pool, forall_mem_singleton.2 ⟨_, he⟩⟩⟩

theorem StoredChain.promote (h : StoredChain C sid r) {c : Storage.Candidate Bytes Miniblock}
    (hc : c.blockdata.Follows C sid r.blocks) {snapshotMiniblock : Bool}
    (hsnap : c.blockdata.hasSnapshot = snapshotMiniblock) {envelopes : List Envelope}
    (hpool : ∀ envelope ∈ envelopes, ∃ event, authenticate C envelope = .ok event) :
    StoredChain C sid (r.promote c snapshotMiniblock envelopes) := by
  refine ⟨h.chain.concat hc, ?_, hpool⟩
  cases snapshotMiniblock with
  | true => exact .concat_of_hasSnapshot hsnap
  | false => exact h.latestSnapshot.concat hsnap

namespace StreamImpl

variable (p : StreamParams)

def storedBlocks (s : StreamImpl) : List Miniblock := s.db.blocksOf p.streamId

def storedPool (s : StreamImpl) : List Envelope := s.db.poolOf p.streamId

def minipool (s : StreamImpl) : List Envelope :=
  match s.view with
  | some v => v.minipoolEnvelopes
  | none => s.storedPool p

def log (s : StreamImpl) : Log := ⟨s.storedBlocks p, s.minipool p, s.storedPool p⟩

/-- The rows are the record, and the view is of it. -/
structure Sound (s : StreamImpl) (r : Record) : Prop where
  represents : Represents s.db p.streamId r
  stored : StoredChain p.crypto p.streamId r
  view : ∀ v, s.view = some v →
    v.Window p.crypto p.streamId r.blocks ∧ v.minipoolEnvelopes <+: r.pool

variable {p} {s : StreamImpl} {r : Record}

theorem Sound.storedBlocks (h : s.Sound p r) : s.storedBlocks p = r.blocks := h.represents.blocksOf

theorem Sound.storedPool (h : s.Sound p r) : s.storedPool p = r.pool := h.represents.poolOf

theorem Sound.log_eq (h : s.Sound p r) : s.log p = ⟨r.blocks, s.minipool p, r.pool⟩ := by
  rw [log, h.storedBlocks, h.storedPool]

variable {v : StreamView}

theorem minipool_of_view (hv : s.view = some v) : s.minipool p = v.minipoolEnvelopes := by
  rw [minipool, hv]

theorem minipool_of_none (hv : s.view = none) : s.minipool p = s.storedPool p := by
  rw [minipool, hv]

theorem Sound.minipool_prefix (h : s.Sound p r) : s.minipool p <+: r.pool := by
  cases hv : s.view with
  | none =>
    have hpool : s.minipool p = r.pool := (minipool_of_none hv).trans h.storedPool
    exact hpool ▸ prefix_refl _
  | some v =>
    rw [minipool_of_view hv]
    exact (h.view v hv).2

/-! ## Storage calls -/

theorem store_cases {c : Storage.Call StreamId Bytes Miniblock Envelope}
    (h : Implements s.db p.streamId (c.tx p.createTableSuffix s.db) a) (fault : Bool) :
    (∃ e, s.store p c fault = (s, .error e)) ∨
      ∃ r' db', a = some r' ∧ s.store p c fault = ({ s with db := db' }, .ok ()) ∧
        Represents db' p.streamId r' := by
  unfold store Storage.call
  cases fault with
  | true => exact .inl ⟨_, rfl⟩
  | false =>
    cases a with
    | none =>
      obtain ⟨e, he⟩ := h
      exact .inl ⟨e, by simp [he, Storage.commit]⟩
    | some r' =>
      obtain ⟨db', hok, hr, -⟩ := h
      exact .inr ⟨r', db', rfl, by simp [hok, Storage.commit], hr⟩

/-! ## Loading -/

theorem loadInternal_of_view (hv : s.view = some v) (faults : Faults) :
    s.loadInternal p faults = (s, .ok v) := by
  rw [loadInternal, hv]

theorem loadInternal_of_none (h : s.Sound p r) (hv : s.view = none) (faults : Faults) :
    (faults.read = true ∧
        s.loadInternal p faults = (s, riverError .dbOperationFailure "transaction failed")) ∨
      ∃ build : EventMap → StreamView,
        (∀ m, parseMinipool p.crypto r.pool
          (s.nextRef + blocksRefCount (r.blocks.drop r.latestSnapshot)) EventMap.empty = .ok m →
            (build m).Loaded p.crypto p.streamId r s.nextRef) ∧
        s.loadInternal p faults =
          match parseMinipool p.crypto r.pool
            (s.nextRef + blocksRefCount (r.blocks.drop r.latestSnapshot)) EventMap.empty with
          | .ok m =>
            ({ s with
              view := some (build m)
              nextRef :=
                s.nextRef + (blocksRefCount (r.blocks.drop r.latestSnapshot) + r.pool.length) },
              .ok (build m))
          | .error e => (s, .error e)
          | .panic m => (s, .panic m) := by
  rw [loadInternal, hv]
  cases hread : faults.read with
  | true => exact .inl ⟨rfl, rfl⟩
  | false =>
    have hok : s.readStream p false =
        .ok (r.read (max 0 (p.cfg.recencyConstraints.generations - 1))) := by
      rw [readStream, if_neg (by simp), h.represents.read]
    obtain ⟨build, hbuild, heq⟩ := h.stored.makeStreamView
      (max 0 (p.cfg.recencyConstraints.generations - 1)) s.nextRef
    refine .inr ⟨build, hbuild, ?_⟩
    rw [hok]
    simp only
    unfold setView
    rw [heq]
    cases parseMinipool p.crypto r.pool
      (s.nextRef + blocksRefCount (r.blocks.drop r.latestSnapshot)) .empty <;> rfl

/-- What a load that fails returns. -/
inductive LoadFails (r : Record) (faults : Faults) : Res StreamView → Prop where
  | read (fault : faults.read = true) :
      LoadFails r faults (.error ⟨.dbOperationFailure, "transaction failed"⟩)
  | duplicate (hash : ¬ (r.pool.map (·.hash)).Nodup) (m : String) : LoadFails r faults (.panic m)

theorem loadInternal_cases (h : s.Sound p r) (faults : Faults) :
    (∃ v n, s.loadInternal p faults = ({ s with view := some v, nextRef := n }, .ok v) ∧
        v.Window p.crypto p.streamId r.blocks ∧ v.minipoolEnvelopes = s.minipool p ∧
        ((s.view = some v ∧ n = s.nextRef) ∨
          (s.view = none ∧ v.Loaded p.crypto p.streamId r s.nextRef ∧
            n = s.nextRef + (blocksRefCount (r.blocks.drop r.latestSnapshot) + r.pool.length)))) ∨
      (s.view = none ∧ ∃ res, LoadFails r faults res ∧ s.loadInternal p faults = (s, res)) := by
  cases hv : s.view with
  | some v =>
    refine .inl ⟨v, s.nextRef, ?_, (h.view v hv).1, (minipool_of_view hv).symm, .inl ⟨rfl, rfl⟩⟩
    rw [loadInternal_of_view hv, ← hv]
  | none =>
    rcases loadInternal_of_none h hv faults with ⟨hread, heq⟩ | ⟨build, hbuild, heq⟩
    · exact .inr ⟨rfl, _, .read hread, heq⟩
    rcases parseMinipool_of_authenticate h.stored.pool
        (s.nextRef + blocksRefCount (r.blocks.drop r.latestSnapshot)) .empty with
      ⟨m, hpool⟩ | ⟨⟨m, hpool⟩, hdup⟩
    · have hloaded := hbuild m hpool
      refine .inl ⟨build m, _, by rw [heq, hpool], hloaded.window, ?_, .inr ⟨rfl, hloaded, rfl⟩⟩
      have hevents : (build m).minipool.events = m := by
        have := hloaded.minipool
        rw [hpool, Res.ok.injEq] at this
        exact this.symm
      obtain ⟨_, hes, hvalues, -⟩ := parseMinipool_eq_ok.1 hpool
      rw [minipoolEnvelopes, hevents, hvalues, EventMap.values_empty, nil_append,
        (parseEvents_eq_ok.1 hes).1, minipool_of_none hv, h.storedPool]
    · refine .inr ⟨rfl, _, .duplicate ?_ m, by rw [heq, hpool]⟩
      simpa [EventMap.hashes] using hdup

theorem Sound.loaded (h : s.Sound p r) (hwindow : v.Window p.crypto p.streamId r.blocks)
    (hpool : v.minipoolEnvelopes = s.minipool p) (n : Nat) :
    ({ s with view := some v, nextRef := n } : StreamImpl).Sound p r := by
  refine ⟨h.represents, h.stored, ?_⟩
  intro v' hv'
  cases hv'
  refine ⟨hwindow, ?_⟩
  rw [hpool]
  exact h.minipool_prefix

theorem withView_cases (h : s.Sound p r) (faults : Faults)
    (f : StreamImpl → StreamView → StreamImpl × Outcome) :
    (∃ v n, s.withView p faults f = f { s with view := some v, nextRef := n } v ∧
        ({ s with view := some v, nextRef := n } : StreamImpl).Sound p r ∧
        v.minipoolEnvelopes = s.minipool p) ∨
      (s.view = none ∧ ∃ res, res.isOk = false ∧ s.withView p faults f = (s, ⟨res, []⟩)) := by
  unfold withView
  rcases loadInternal_cases h faults with ⟨v, n, heq, hwindow, hpool, -⟩ | ⟨hv, res, hres, heq⟩
  · rw [heq]
    exact .inl ⟨v, n, rfl, h.loaded hwindow hpool n, hpool⟩
  rw [heq]
  cases hres with
  | read => exact .inr ⟨hv, .error _, rfl, rfl⟩
  | duplicate _ m => exact .inr ⟨hv, .panic m, rfl, rfl⟩

/-! ## AddEvent -/

theorem addEventImpl_cases (h : s.Sound p r) (hv : s.view = some v) (e : ParsedEvent)
    (fault : Bool) :
    (∃ err, addEventImpl p e fault s v = (s, .failed err)) ∨
      ∃ db', Represents db' p.streamId (Record.addEvent r e.envelope) ∧
        v.minipoolEnvelopes = r.pool ∧
        ((∃ v', v.copyAndAddEvent e = .ok v' ∧
            addEventImpl p e fault s v = ({ s with db := db' } : StreamImpl).publish p
              v' e.envelope) ∨
          ((e.event.getMiniblockHeader ≠ none ∨ e.hash ∈ v.minipool.events.hashes) ∧
            ∃ res, res.isOk = false ∧
              addEventImpl p e fault s v = ({ s with db := db' }, ⟨res, []⟩))) := by
  obtain ⟨-, hpre⟩ := h.view v hv
  unfold addEventImpl
  have himpl := Storage.writeEventTx_implements h.represents v.minipool.generation
    v.minipool.nextSlotNumber e.envelope
  rcases store_cases (c := .writeEvent _ _ _ _) himpl
    fault with ⟨err, heq⟩ | ⟨_, db', hr', heq, hrep⟩
  · rw [heq]
    exact .inl ⟨err, rfl⟩
  rw [heq]
  refine .inr ⟨db', ?_⟩
  unfold StreamRecord.writeEvent at hr'
  split at hr'
  swap
  · cases hr'
  rename_i hmatch
  cases hr'
  have hlen : v.minipoolEnvelopes.length = r.pool.length := by
    rw [length_minipoolEnvelopes]
    exact Int.ofNat.inj hmatch.2
  refine ⟨hrep, hpre.eq_of_length hlen, ?_⟩
  cases hadd : v.copyAndAddEvent e with
  | ok v' => exact .inl ⟨v', rfl, rfl⟩
  | error err =>
    exact .inr ⟨copyAndAddEvent_refused (by simp [hadd]), .error err, rfl, rfl⟩
  | panic m =>
    exact .inr ⟨copyAndAddEvent_refused (by simp [hadd]), .panic m, rfl, rfl⟩

/-! ## Blocks -/

structure BuiltOn (p : StreamParams) (b : MiniblockInfo) (r : Record) (pool : List Envelope) :
    Prop where
  follows : b.proto.Follows p.crypto p.streamId r.blocks
  events : b.proto.events <+: pool
  candidates : ∀ c ∈ r.candidates, c.seqNum = r.generation → c.blockHash = b.hash →
    c.blockdata = b.proto

theorem applyMiniblockImpl_cases (h : s.Sound p r) (hv : s.view = some v) {b : MiniblockInfo}
    (hb : b.Holds p.crypto b.proto)
    (hbuilt : b.header.miniblockNum = r.generation → BuiltOn p b r v.minipoolEnvelopes)
    (fault : Bool) :
    (∃ res, res.isOk = false ∧ applyMiniblockImpl p b fault s v = (s, ⟨res, []⟩)) ∨
      ∃ db' v' c, v.copyAndApplyBlock b p.cfg = .ok v' ∧ Represents db' p.streamId
          (r.promote c b.header.snapshot.isSome v'.minipoolEnvelopes) ∧
        c.blockdata = b.proto ∧ b.header.miniblockNum = r.generation ∧
        v'.Window p.crypto p.streamId (r.blocks ++ [b.proto]) ∧
        v.minipoolEnvelopes = b.proto.events ++ v'.minipoolEnvelopes ∧
        applyMiniblockImpl p b fault s v =
          ({ s with db := db' } : StreamImpl).publish p v' b.headerEvent.envelope := by
  obtain ⟨hwindow, -⟩ := h.view v hv
  unfold applyMiniblockImpl
  cases happly : v.copyAndApplyBlock b p.cfg with
  | error e => exact .inl ⟨.error e, rfl, rfl⟩
  | panic m => exact .inl ⟨.panic m, rfl, rfl⟩
  | ok v' =>
    -- the number was checked against the last block of the chain
    have hnum : b.header.miniblockNum = r.generation := by
      obtain ⟨last, hlast, hholds⟩ := hwindow.lastBlock
      have hlastNum := (h.stored.chain.lastNum hlast hholds).1
      rw [(copyAndApplyBlock_eq_ok happly).1, hlastNum]
      rfl
    have hon := hbuilt hnum
    obtain ⟨hwindow', hsplit⟩ := hwindow.copyAndApplyBlock hb hnum hon.events happly
    simp only
    have himpl := Storage.promoteBlockTxn_implements h.represents v.minipool.generation
      b.hash b.header.snapshot.isSome v'.minipoolEnvelopes
    rcases store_cases (c := .promoteBlock _ _ _ _ _) himpl fault with
      ⟨err, heq⟩ | ⟨r', db', hr', heq, hrep⟩
    · rw [heq]
      exact .inl ⟨.error err, rfl, rfl⟩
    rw [heq]
    unfold StreamRecord.promoteBlock at hr'
    split at hr'
    swap
    · cases hr'
    obtain ⟨c, hc, rfl⟩ := Option.map_eq_some_iff.1 hr'
    have hkey : c.seqNum = r.generation ∧ c.blockHash = b.hash := by
      simpa using find?_some hc
    exact .inr ⟨db', v', c, rfl, hrep,
      hon.candidates c (mem_of_find?_eq_some hc) hkey.1 hkey.2, hnum, hwindow', hsplit, rfl⟩

theorem storeMiniblockCandidate_cases (h : s.Sound p r) (b : MiniblockInfo) (fault : Bool) :
    (∃ res, s.storeMiniblockCandidate p b fault = (s, ⟨res, []⟩)) ∨
      ∃ db' r', Represents db' p.streamId r' ∧ r'.blocks = r.blocks ∧ r'.pool = r.pool ∧
        r'.latestSnapshot = r.latestSnapshot ∧
        (∀ c ∈ r'.candidates, c ∈ r.candidates ∨ c = ⟨b.num, b.hash, b.proto⟩) ∧
        s.storeMiniblockCandidate p b fault = ({ s with db := db' }, .done) := by
  unfold storeMiniblockCandidate
  have himpl := Storage.writeBlockProposalTxn_implements h.represents b.hash b.num b.proto
  rcases store_cases (c := .writeBlockProposal _ _ _ _) himpl
    fault with ⟨_, heq⟩ | ⟨r', db', hr', heq, hrep⟩
  · rw [heq]
    exact .inl ⟨_, rfl⟩
  rw [heq]
  unfold StreamRecord.writeBlockProposal at hr'
  split at hr'
  · cases hr'
  split at hr'
  · cases hr'
    exact .inr ⟨db', r, hrep, rfl, rfl, rfl, fun c hc => .inl hc, rfl⟩
  · cases hr'
    refine .inr ⟨db', _, hrep, rfl, rfl, rfl, ?_, rfl⟩
    exact fun c hc => (mem_append.1 hc).imp_right mem_singleton.1

/-! ## Effects -/

variable {st : StreamImpl}

theorem Sound.congr (h : s.Sound p r) (hdb : st.db = s.db) (hview : st.view = s.view) :
    st.Sound p r := by
  refine ⟨hdb ▸ h.represents, h.stored, ?_⟩
  rw [hview]
  exact h.view

theorem minipool_congr (hdb : st.db = s.db) (hview : st.view = s.view) :
    st.minipool p = s.minipool p := by
  unfold minipool storedPool
  rw [hdb, hview]

theorem Sound.unload (h : s.Sound p r) (hdb : st.db = s.db) (hview : st.view = none) :
    st.Sound p r ∧ s.minipool p <+: st.minipool p := by
  have hsound : st.Sound p r := ⟨hdb ▸ h.represents, h.stored, by simp [hview]⟩
  refine ⟨hsound, ?_⟩
  rw [minipool_of_none hview, hsound.storedPool]
  exact h.minipool_prefix

theorem addEvent_effect (h : s.Sound p r) (he : e.Decoded p.crypto) (faults : Faults) :
    ∃ r', (s.addEvent p e faults).1.Sound p r' ∧ r'.candidates = r.candidates ∧
      (∀ envelope ∈ chainEnvelopes r'.blocks ++ r'.pool,
        envelope ∈ chainEnvelopes r.blocks ++ r.pool ∨ envelope = e.envelope) ∧
      Effect (some e) (s.log p) ((s.addEvent p e faults).1.log p)
        ((s.addEvent p e faults).2.onSuccess [e.envelope]) [] := by
  have hlog := h.log_eq
  unfold addEvent
  rcases withView_cases h faults (addEventImpl p e faults.write) with
    ⟨v, n, heq, hsound, hpool⟩ | ⟨-, res, hres, heq⟩
  swap
  · -- the stream could not be loaded
    rw [heq, onSuccess_of_isOk_eq_false hres]
    exact ⟨r, h, rfl, fun _ h => .inl h, .quiet (prefix_refl _)⟩
  rw [heq, hlog, ← hpool]
  rcases addEventImpl_cases hsound rfl e faults.write with
    ⟨err, himpl⟩ | ⟨db', hrep, hstored, ⟨v', hv', himpl⟩ | ⟨hrefused, res, hres, himpl⟩⟩
  · -- the event could not be written
    rw [himpl]
    refine ⟨r, hsound, rfl, fun _ h => .inl h, ?_⟩
    rw [hsound.log_eq]
    exact .quiet (prefix_refl _)
  all_goals
    have hmem : ∀ envelope ∈ chainEnvelopes (Record.addEvent r e.envelope).blocks ++
        (Record.addEvent r e.envelope).pool,
        envelope ∈ chainEnvelopes r.blocks ++ r.pool ∨ envelope = e.envelope := by
      intro envelope henvelope
      rw [Record.addEvent, ← append_assoc, mem_append, mem_singleton] at henvelope
      exact henvelope
  · -- the view took the event
    obtain ⟨hwindow', hpool'⟩ := (hsound.view v rfl).1.copyAndAddEvent he hv'
    obtain ⟨hheader, hnew, -⟩ := copyAndAddEvent_eq_ok.1 hv'
    rw [← v.minipoolEnvelopes_hash] at hnew
    rw [himpl]
    set st := (({ s with view := some v, nextRef := n, db := db' } : StreamImpl).publish p v'
      e.envelope).1 with hst
    have hsound' : st.Sound p (.addEvent r e.envelope) := by
      refine ⟨hrep, h.stored.addEvent he, ?_⟩
      intro v1 hv1
      cases hv1
      refine ⟨hwindow', ?_⟩
      rw [hpool', hstored]
      exact prefix_refl _
    have hmini : st.minipool p = v.minipoolEnvelopes ++ [e.envelope] := hpool'
    refine ⟨.addEvent r e.envelope, hsound', rfl, hmem, ?_⟩
    rw [hsound'.log_eq, hmini]
    exact .event rfl hstored hheader hnew
  · -- the view refused the event after it was written
    rw [← v.minipoolEnvelopes_hash] at hrefused
    rw [himpl, onSuccess_of_isOk_eq_false hres]
    have hsound' : ({ s with view := some v, nextRef := n, db := db' } : StreamImpl).Sound p
        (.addEvent r e.envelope) := by
      refine ⟨hrep, h.stored.addEvent he, ?_⟩
      intro v1 hv1
      cases hv1
      refine ⟨(hsound.view v rfl).1, ?_⟩
      rw [hstored]
      exact prefix_append _ _
    refine ⟨.addEvent r e.envelope, hsound', rfl, hmem, ?_⟩
    rw [hsound'.log_eq]
    exact .refused rfl hstored hrefused

theorem addEvent_ne_panic (h : s.Sound p r) (hnodup : (r.pool.map (·.hash)).Nodup)
    (hheader : e.event.getMiniblockHeader = none) (hnew : e.hash ∉ (s.minipool p).map (·.hash))
    (faults : Faults) (m : String) : (s.addEvent p e faults).2.result ≠ .panic m := by
  unfold addEvent withView
  rcases loadInternal_cases h faults with ⟨v, n, heq, hwindow, hpool, -⟩ | ⟨-, _, hres, heq⟩
  · rw [heq]
    rcases addEventImpl_cases (h.loaded hwindow hpool n) rfl e faults.write with
      ⟨err, himpl⟩ | ⟨db', -, -, ⟨v', -, himpl⟩ | ⟨hrefused, -⟩⟩
    · simp [himpl, failed]
    · simp [himpl, publish]
    rw [← v.minipoolEnvelopes_hash, hpool] at hrefused
    rcases hrefused with hrefused | hrefused
    · exact absurd hheader hrefused
    · exact absurd hrefused hnew
  · -- the load can only have returned an error
    rw [heq]
    cases hres with
    | read => simp [failed]
    | duplicate hdup => exact absurd hnodup hdup

theorem applyMiniblock_effect (h : s.Sound p r) {b : MiniblockInfo} (hb : b.Holds p.crypto b.proto)
    (hbuilt : b.header.miniblockNum = r.generation → BuiltOn p b r (s.minipool p))
    (faults : Faults) :
    ∃ r', (s.applyMiniblock p b faults).1.Sound p r' ∧ r'.candidates ⊆ r.candidates ∧
      (∀ envelope ∈ chainEnvelopes r'.blocks ++ r'.pool,
        envelope ∈ chainEnvelopes r.blocks ++ r.pool ∨ envelope = b.proto.header) ∧
      Effect none (s.log p) ((s.applyMiniblock p b faults).1.log p) []
        ((s.applyMiniblock p b faults).2.onSuccess [b.proto]) := by
  have hlog := h.log_eq
  unfold applyMiniblock
  rcases withView_cases h faults (applyMiniblockImpl p b faults.write) with
    ⟨v, n, heq, hsound, hpool⟩ | ⟨-, res, hres, heq⟩
  swap
  · -- the stream could not be loaded
    rw [heq, onSuccess_of_isOk_eq_false hres]
    exact ⟨r, h, fun _ h => h, fun _ h => .inl h, .quiet (prefix_refl _)⟩
  rw [heq, hlog, ← hpool]
  rcases applyMiniblockImpl_cases hsound rfl hb (fun hnum => hpool ▸ hbuilt hnum) faults.write with
    ⟨res, hres, himpl⟩ | ⟨db', v', c, -, hrep, hc, hnum, hwindow', hsplit, himpl⟩
  · rw [himpl, onSuccess_of_isOk_eq_false hres]
    refine ⟨r, hsound, fun _ h => h, fun _ h => .inl h, ?_⟩
    rw [hsound.log_eq]
    exact .quiet (prefix_refl _)
  rw [himpl]
  have hpool' : ∀ envelope ∈ v'.minipoolEnvelopes, envelope ∈ r.pool := by
    intro envelope henvelope
    refine ((hsound.view v rfl).2.subset) ?_
    rw [hsplit]
    exact mem_append_right _ henvelope
  have hfollows := (hbuilt hnum).follows
  set st := (({ s with view := some v, nextRef := n, db := db' } : StreamImpl).publish p v'
    b.headerEvent.envelope).1 with hst
  have hblocks : (r.promote c b.header.snapshot.isSome v'.minipoolEnvelopes).blocks =
      r.blocks ++ [b.proto] := by
    rw [← hc]
    rfl
  have hsound' : st.Sound p (r.promote c b.header.snapshot.isSome v'.minipoolEnvelopes) := by
    refine ⟨hrep, ?_, ?_⟩
    · refine h.stored.promote (hc ▸ hfollows) (hc ▸ hb.hasSnapshot_eq) ?_
      intro envelope henvelope
      exact h.stored.pool envelope (hpool' envelope henvelope)
    · intro v1 hv1
      cases hv1
      rw [hblocks]
      exact ⟨hwindow', prefix_refl _⟩
  refine ⟨_, hsound', filter_subset_self _, ?_, ?_⟩
  · intro envelope henvelope
    rw [hblocks, chainEnvelopes_append, mem_append, mem_append] at henvelope
    rcases henvelope with (henvelope | henvelope) | henvelope
    · exact .inl (mem_append_left _ henvelope)
    · have : envelope ∈ b.proto.events ++ [b.proto.header] := by
        simpa [chainEnvelopes, Miniblock.envelopes] using henvelope
      rcases mem_append.1 this with hevent | hheader
      · refine .inl (mem_append_right _ ((hsound.view v rfl).2.subset ?_))
        rw [hsplit]
        exact mem_append_left _ hevent
      · exact .inr (mem_singleton.1 hheader)
    · exact .inl (mem_append_right _ (hpool' envelope henvelope))
  · rw [hsound'.log_eq, hblocks]
    exact .block hsplit

theorem sub_cases (h : s.Sound p r) (cookie : SyncCookie) (receiver : Nat) (faults : Faults) :
    ∃ st out, s.sub p cookie receiver faults = (st, out) ∧ st.Sound p r ∧
      st.minipool p = s.minipool p := by
  unfold sub
  split
  · exact ⟨s, _, rfl, h, rfl⟩
  split
  · exact ⟨s, _, rfl, h, rfl⟩
  split
  · exact ⟨s, _, rfl, h, rfl⟩
  rcases withView_cases h faults (subImpl p cookie receiver) with
    ⟨v, n, heq, hsound, hpool⟩ | ⟨-, res, hres, heq⟩
  swap
  · exact ⟨s, _, heq, h, rfl⟩
  rw [heq]
  -- only the receivers differ between the branches
  have hany : ∀ st : StreamImpl, st.db = s.db → st.view = some v →
      st.Sound p r ∧ st.minipool p = s.minipool p := fun st hdb hview =>
    ⟨hsound.congr hdb hview, (minipool_of_view hview).trans hpool⟩
  unfold subImpl
  split
  · split <;> exact ⟨_, _, rfl, hany _ rfl rfl⟩
  · split <;> exact ⟨_, _, rfl, hany _ rfl rfl⟩

end StreamImpl

end River.Node
