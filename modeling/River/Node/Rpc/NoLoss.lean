/-
  No event is lost, duplicated or reordered.
-/

import River.Node.Rpc.Invariant

namespace River.Node

open StreamImpl

/-- The event is no header and not in the minipool. -/
def AddsNewEvent (p : StreamParams) (s : NodeState) (a : Action) : Prop :=
  ∀ e ∈ s.adding p a, e.event.getMiniblockHeader = none ∧
    e.hash ∉ (s.stream.minipool p).map (·.hash)

instance (p : StreamParams) (s : NodeState) (a : Action) : Decidable (AddsNewEvent p s a) :=
  inferInstanceAs (Decidable (∀ e ∈ s.adding p a, _))

structure Log.Holds (l : Log) (events : List Envelope) : Prop where
  stored : l.stored = l.pool
  events : chainEvents l.blocks ++ l.pool = events

theorem Log.Holds.effect {l l' : Log} {events accepted : List Envelope} (h : l.Holds events)
    (he : Effect adding l l' accepted applied) (hstored : l'.pool <+: l'.stored)
    (hnew : ∀ e ∈ adding, e.event.getMiniblockHeader = none ∧ e.hash ∉ l.pool.map (·.hash)) :
    l'.Holds (events ++ accepted) := by
  cases he with
  | @quiet pool' hpre =>
    cases Log.pool_eq h.stored hpre hstored
    exact ⟨h.stored, by rw [List.append_nil]; exact h.events⟩
  | @event e _ _ _ _ =>
    refine ⟨?_, ?_⟩
    · rw [h.stored]
    · rw [← h.events, List.append_assoc]
  | refused hadding _ hrefused =>
    obtain ⟨hheader, hhash⟩ := hnew _ hadding
    rcases hrefused with hno | hmem
    · exact absurd hheader hno
    · exact absurd hmem hhash
  | @block pb pool' hsplit =>
    refine ⟨rfl, ?_⟩
    rw [List.append_nil, ← h.events, chainEvents_concat, List.append_assoc, hsplit]

variable {p : StreamParams} {s : StreamImpl}

theorem StreamImpl.store_failed {st : StreamImpl} {res : Res Unit}
    (hstore : s.store p c fault = (st, res)) (hfail : res.isOk = false) : st = s := by
  unfold store Storage.call at hstore
  cases fault with
  | true =>
    cases hstore
    rfl
  | false =>
    cases htx : c.tx p.createTableSuffix s.db with
    | ok db =>
      rw [htx] at hstore
      cases hstore
      cases hfail
    | _ =>
      rw [htx] at hstore
      cases hstore
      rfl

theorem StreamImpl.applyMiniblockImpl_failed
    (hfail : (applyMiniblockImpl p b fault s v).2.result.isOk = false) :
    (applyMiniblockImpl p b fault s v).1 = s := by
  unfold applyMiniblockImpl at hfail ⊢
  cases happly : v.copyAndApplyBlock b p.cfg with
  | ok v' =>
    simp only [happly] at hfail ⊢
    cases hstore : s.store p (.promoteBlock p.streamId v.minipool.generation b.hash
        b.header.snapshot.isSome v'.minipoolEnvelopes) fault with
    | mk st res =>
      cases res with
      | ok u => simp [hstore, publish] at hfail
      | _ => exact store_failed hstore rfl
  | _ => rfl

theorem StreamImpl.applyMiniblock_failed (h : s.Sound p r) (b : MiniblockInfo) (faults : Faults)
    (hfail : (s.applyMiniblock p b faults).2.result.isOk = false) :
    (s.applyMiniblock p b faults).1 = (s.loadInternal p faults).1 ∧
      (s.applyMiniblock p b faults).1.db = s.db ∧
      ∀ v, s.view = some v → (s.applyMiniblock p b faults).1.view = some v := by
  unfold applyMiniblock withView at hfail ⊢
  rcases loadInternal_cases h faults with ⟨v, n, heq, -, -, -⟩ | ⟨-, res, hres, heq⟩
  · rw [heq] at hfail ⊢
    rw [applyMiniblockImpl_failed hfail]
    refine ⟨rfl, rfl, fun v' hv' => ?_⟩
    rw [loadInternal_of_view hv', Prod.mk.injEq, Res.ok.injEq] at heq
    rw [heq.2]
  · rw [heq]
    cases res with
    | ok v => cases hres
    | _ => exact ⟨rfl, rfl, fun v hv' => hv'⟩

variable {r : Record} {v : StreamView} {e : ParsedEvent} {err : RiverError}

theorem StreamImpl.addEventImpl_of_no_header (hheader : e.event.getMiniblockHeader = none)
    (herr : (addEventImpl p e fault s v).2.result = .error err) :
    (addEventImpl p e fault s v).1 = s := by
  unfold addEventImpl at herr ⊢
  cases hstore : s.store p (.writeEvent p.streamId v.minipool.generation v.minipool.nextSlotNumber
      e.envelope) fault with
  | mk st res =>
    cases res with
    | ok u =>
      -- the event is written, and the view that gets a copy refuses nothing but a header
      simp only [hstore] at herr
      cases hadd : v.copyAndAddEvent e with
      | ok v' => simp [hadd, publish] at herr
      | panic m => simp [hadd, Outcome.panicked] at herr
      | error e =>
        unfold StreamView.copyAndAddEvent MinipoolInstance.copyAndAddEvent EventMap.set at hadd
        simp only [hheader, ne_eq, not_true_eq_false, if_false] at hadd
        split at hadd
        next => cases hadd
        next hset =>
          unfold OrderedMap.set at hset
          split at hset <;> cases hset
        next => cases hadd
    | _ => exact store_failed hstore rfl

theorem StreamImpl.addEventImpl_of_header (h : s.Sound p r) (hv : s.view = some v)
    (hheader : e.event.getMiniblockHeader ≠ none) (hpool : v.minipoolEnvelopes = r.pool) :
    (addEventImpl p e false s v).1.storedPool p = r.pool ++ [e.envelope] := by
  have himpl := Storage.writeEventTx_implements h.represents v.minipool.generation
    v.minipool.nextSlotNumber e.envelope
  have hslot : (v.minipool.nextSlotNumber : Int) = r.pool.length := by
    rw [← hpool, v.length_minipoolEnvelopes]
    rfl
  rw [Storage.StreamRecord.writeEvent, if_pos ⟨(h.view v hv).1.generation, hslot⟩] at himpl
  obtain ⟨db', htx, hrep, -⟩ := himpl
  have hstore : s.store p (.writeEvent p.streamId v.minipool.generation
      v.minipool.nextSlotNumber e.envelope) false = ({ s with db := db' }, .ok ()) := by
    simp [store, Storage.call, Storage.Call.tx, htx, Storage.commit]
  have hadd : (addEventImpl p e false s v).1 = { s with db := db' } := by
    simp only [addEventImpl, hstore, StreamView.copyAndAddEvent, if_pos hheader]
    rfl
  rw [hadd]
  exact hrep.poolOf

/-- **AddEvent is atomic.** An `AddEvent` that returns an error has done no more than load a view,
    except for a miniblock header that the store takes: it is kept there. -/
theorem addEvent_atomic {p : StreamParams} {s : StreamImpl} {r : Record} (h : s.Sound p r)
    (e : ParsedEvent) (faults : Faults) (err : RiverError)
    (herr : (s.addEvent p e faults).2.result = .error err) :
    let s' := (s.addEvent p e faults).1
    let loaded := (s.loadInternal p faults).1
    (loaded.db = s.db ∧ (s.view ≠ none → loaded = s)) ∧
    (s' = loaded ↔ e.event.getMiniblockHeader = none ∨ s.view = none ∧ faults.read = true ∨
      faults.write = true ∨ s.minipool p ≠ s.storedPool p) := by
  rw [h.storedPool]
  unfold addEvent withView at herr ⊢
  rcases loadInternal_cases h faults with ⟨v, n, heq, hwindow, hpool, hwhere⟩ | ⟨hv, res, hres, heq⟩
  swap
  · rw [heq] at herr ⊢
    cases hres with
    | read hread => exact ⟨⟨rfl, fun _ => rfl⟩, iff_of_true rfl (.inr (.inl ⟨hv, hread⟩))⟩
    | duplicate => cases herr
  have hsound := h.loaded hwindow hpool n
  have hloaded : s.view ≠ none → ({ s with view := some v, nextRef := n } : StreamImpl) = s := by
    intro hview
    rcases hwhere with ⟨hv, rfl⟩ | ⟨hv, -⟩
    · rw [← hv]
    · exact absurd hv hview
  have hread : ¬ (s.view = none ∧ faults.read = true) := by
    rintro ⟨hv, hread⟩
    simp [loadInternal, hv, readStream, hread, riverError] at heq
  simp only [heq] at herr ⊢
  refine ⟨⟨trivial, hloaded⟩, ?_⟩
  rw [or_iff_right hread, ← hpool]
  constructor
  · intro hsame
    by_contra hkept
    obtain ⟨hheader, hwrite, hstored⟩ := by simpa using hkept
    -- the store has the header behind its minipool
    have hkept := addEventImpl_of_header hsound rfl hheader hstored
    rw [hwrite] at hsame
    rw [hsame, hsound.storedPool] at hkept
    simp at hkept
  · rintro (hheader | hwrite | hbehind)
    · exact addEventImpl_of_no_header hheader herr
    · rw [hwrite]
      rfl
    · rcases addEventImpl_cases hsound rfl e faults.write with ⟨_, himpl⟩ | ⟨_, -, hstored, -⟩
      · rw [himpl]
      · exact absurd hstored hbehind

theorem addEvent_atomic_write_fails :
    let s := (sampleGenesis.run [.getStream (sampleEvent none 4) ⟨false, false⟩]).stream
    s.view ≠ none ∧ (s.addEvent sampleParams sampleInception ⟨false, true⟩).1 = s := by
  intro s
  have hview : s.view ≠ none := by decide +kernel
  obtain ⟨_, h⟩ := sampleGenesis.inv_run [.getStream (sampleEvent none 4) ⟨false, false⟩]
    (by decide +kernel)
  obtain ⟨⟨-, hloaded⟩, hiff⟩ := addEvent_atomic h.sound sampleInception ⟨false, true⟩
    ⟨.dbOperationFailure, "transaction failed"⟩ (by decide +kernel)
  exact ⟨hview, (hiff.2 (.inr (.inr (.inl rfl)))).trans (hloaded hview)⟩

/-- If `AddEvent` gets no miniblock header and no hash that the minipool has: the events of the
    blocks followed by the minipool are the genesis events followed by the accepted events in the
    order of acceptance, and the stored minipool is the same. An `ApplyMiniblock` that does not
    return success leaves the store and the view as they are, apart from loading a view. -/
theorem noLoss {p : StreamParams} (g : Genesis p) (acts : List Action)
    (hfree : p.crypto.CollisionFree (g.hashedBy acts))
    (hnew : (streamMachine p).Along (AddsNewEvent p) g.init acts) :
    let s := g.run acts
    (chainEvents (s.stream.storedBlocks p) ++ s.stream.minipool p =
        g.events.map (·.envelope) ++ (streamMachine p).collect (NodeState.accepted p) g.init acts ∧
      s.stream.storedPool p = s.stream.minipool p) ∧
    ∀ i faults, ((streamMachine p).out s (.applyMiniblock i faults)).result.isOk = false →
      let s' := (streamMachine p).next s (.applyMiniblock i faults)
      s'.stream.db = s.stream.db ∧ (∀ v, s.stream.view = some v → s'.stream.view = some v) ∧
        (s.stream.view = none → s'.stream = (s.stream.loadInternal p faults).1) := by
  intro s
  constructor
  · have hinit : (g.init.stream.log p).Holds (g.events.map (·.envelope)) := by
      rw [g.inv_init.sound.log_eq]
      refine ⟨?_, ?_⟩
      · rw [minipool_of_none rfl, g.inv_init.sound.storedPool]
      · rw [← g.miniblock_events, minipool_of_none rfl, g.inv_init.sound.storedPool]
        simp [Storage.StreamRecord.create, chainEvents]
    have hrun := Inv.collect (f := NodeState.accepted p)
      (J := fun l s => (s.stream.log p).Holds l) ?_ g.inv_init hinit hnew hfree
    · exact ⟨hrun.events, hrun.stored⟩
    rintro l _ s r a h - ⟨_, h', heffect⟩ hJ hP
    refine hJ.effect heffect ?_ hP
    rw [h'.sound.log_eq]
    exact h'.sound.minipool_prefix
  · intro i faults hfail
    obtain ⟨r, h⟩ := g.inv_run acts hfree
    simp only [Lib.Machine.out, Lib.Machine.next, streamMachine, NodeState.step] at hfail ⊢
    cases hb : (g.run acts).miniblocks[i]? with
    | none => simp [s, hb, Outcome.done] at hfail
    | some b =>
      have hfail' : ((g.run acts).stream.applyMiniblock p b faults).2.result.isOk = false := by
        simpa [s, hb, NodeState.withStream] using hfail
      obtain ⟨hload, hdb, hview⟩ := applyMiniblock_failed h.sound b faults hfail'
      exact ⟨hdb, hview, fun _ => hload⟩

def strayHeader : Envelope :=
  sampleEnvelope (.miniblockHeader ⟨7, [], none, [], none, 0, 0⟩) none 3

def strayHeaderRun : List Action :=
  [.newEventReceived strayHeader ⟨false, false⟩, .forceFlush,
    .getStream (sampleEvent none 4) ⟨false, false⟩]

/-- `AddEvent` of the header returns an error, and still the header is in the store, and in
    the minipool of the next view. -/
theorem noLoss_stray_header :
    sampleParams.crypto.CollisionFree (sampleGenesis.hashedBy strayHeaderRun) ∧
      ((streamMachine sampleParams).out sampleGenesis.init
        (.newEventReceived strayHeader ⟨false, false⟩)).result =
          riverError .badEvent "streamViewImpl: block event not allowed" ∧
      (streamMachine sampleParams).collect (NodeState.accepted sampleParams) sampleGenesis.init
        strayHeaderRun = [] ∧
      chainEvents ((sampleGenesis.run strayHeaderRun).stream.storedBlocks sampleParams) =
        sampleGenesis.events.map (·.envelope) ∧
      (sampleGenesis.run strayHeaderRun).stream.view.isSome = true ∧
      (sampleGenesis.run strayHeaderRun).stream.minipool sampleParams = [strayHeader] := by
  refine ⟨?_, ?_, ?_, ?_, ?_, ?_⟩ <;> decide +kernel

/-- The header is refused after it was written to the store. -/
theorem addEvent_keeps_header :
    let s := sampleGenesis.init
    let s' := (streamMachine sampleParams).next s (.newEventReceived strayHeader ⟨false, false⟩)
    ((streamMachine sampleParams).out s (.newEventReceived strayHeader ⟨false, false⟩)).result =
        riverError .badEvent "streamViewImpl: block event not allowed" ∧
      s.stream.storedPool sampleParams = [] ∧ s'.stream.storedPool sampleParams =
        [strayHeader] := by
  refine ⟨?_, ?_, ?_⟩ <;> decide +kernel

def threeEventsRun : List Action :=
  [.newEventReceived (sampleEvent none 3) ⟨false, false⟩,
    .newEventReceived (sampleEvent none 4) ⟨false, false⟩, .generateMiniblockProposal false,
    .makeMiniblockHeader 0 ⟨0, 0⟩, .makeMiniblock 0 [5] 0,
    .newEventReceived (sampleEvent none 6) ⟨false, false⟩, .storeMiniblockCandidate 0 false,
    .applyMiniblock 0 ⟨false, true⟩, .applyMiniblock 0 ⟨false, false⟩,
    .applyMiniblock 0 ⟨false, false⟩, .forceFlush, .getStream (sampleEvent none 7) ⟨false, false⟩]

theorem noLoss_three_events :
    (streamMachine sampleParams).Along (AddsNewEvent sampleParams) sampleGenesis.init
        threeEventsRun ∧
      chainEvents ((sampleGenesis.run threeEventsRun).stream.storedBlocks sampleParams) ++
          (sampleGenesis.run threeEventsRun).stream.minipool sampleParams =
        sampleGenesis.events.map (·.envelope) ++ (streamMachine sampleParams).collect
          (NodeState.accepted sampleParams) sampleGenesis.init threeEventsRun ∧
      (streamMachine sampleParams).collect (NodeState.accepted sampleParams) sampleGenesis.init
        threeEventsRun = [sampleEvent none 3, sampleEvent none 4, sampleEvent none 6] := by
  have hnew : (streamMachine sampleParams).Along (AddsNewEvent sampleParams) sampleGenesis.init
      threeEventsRun := by decide +kernel
  exact ⟨hnew, (noLoss sampleGenesis threeEventsRun (by decide +kernel) hnew).1.1, by
    decide +kernel⟩

end River.Node
