/-
  What a view answers does not depend on which miniblocks carried snapshots.
-/

import River.Node.Events.Answers
import River.Node.Rules.Membership

namespace River.Node.Rules

open River.Lib River.Lib.SortedList List

/-! ## The invariant -/

structure HistoryAt (L : Ledger) (base : Bytes → Option (List KeySolicitation)) (s : History) :
    Prop where
  heap : L.heap = s.heap
  fresh : ∀ ref, s.nextRef ≤ ref → L.position ref = none
  refs : (L.log.map (·.ref)).Nodup
  old : ∀ e ∈ L.log, e.ref < s.nextRef
  view : ∃ k, L.ViewAt base k s.view ∧ k + s.view.window.length = L.log.length

structure Independent (s0 : Snapshot) (base : Bytes → Option (List KeySolicitation))
    (history : List ParsedEvent) (s : History) : Prop where
  sound : s.view.replay.Sound
  condenses : ∃ done, history = done ++ s.view.replay.events ∧ s.view.replay.Condenses s0 done
  ledger : ∃ L : Ledger, L.log = history ∧ HistoryAt L base s
  regular : Regular s0.joinedSet history
  address : ∀ e ∈ history, Replay.HasAddress e

namespace Independent

variable {s0 : Snapshot} {base : Bytes → Option (List KeySolicitation)} {history : List ParsedEvent}
  {s : History} (h : Independent s0 base history s)

include h

theorem write
    (hwrite : ∀ (L : Ledger) (k : Nat), L.heap = s.heap → L.ViewAt base k s.view →
      ∃ L' : Ledger, L.Writes L' ∧ L'.heap = heap)
    (hnextRef : s.nextRef ≤ nextRef) : Independent s0 base history ⟨s.view, heap, nextRef⟩ := by
  obtain ⟨L, hlog, hat⟩ := h.ledger
  obtain ⟨k, hview, hend⟩ := hat.view
  obtain ⟨L', hwrites, hheap⟩ := hwrite L k hat.heap hview
  refine ⟨h.sound, h.condenses, ⟨L', hwrites.log_eq.trans hlog, hheap, fun ref href => ?_, ?_,
    fun e he => ?_, k, hview.mono hwrites.le, ?_⟩, h.regular, h.address⟩
  · rw [hwrites.position_eq]
    exact hat.fresh ref (hnextRef.trans href)
  · rw [hwrites.log_eq]
    exact hat.refs
  · rw [hwrites.log_eq] at he
    exact Nat.lt_of_lt_of_le (hat.old e he) hnextRef
  · rw [hwrites.log_eq]
    exact hend

theorem asked (hasked : Asked s.view s.heap heap)
    (hnextRef : s.nextRef ≤ nextRef) : Independent s0 base history ⟨s.view, heap, nextRef⟩ := by
  refine h.write (fun L k hheap hview => ?_) hnextRef
  rcases hasked with hsame | ⟨u, _, hask⟩
  · exact ⟨L, .refl L, hheap.trans hsame.symm⟩
  · obtain ⟨L', _, hanswer, hwrites, -⟩ := hview.getKeySolicitations u
    rw [hheap, hask, Res.ok.injEq, Prod.mk.injEq] at hanswer
    exact ⟨L', hwrites, hanswer.2.symm⟩

theorem added {e : ParsedEvent} {view : StreamView} (href : e.ref = s.nextRef)
    (hview : view.replay = ⟨s.view.replay.snapshot, s.view.replay.events ++ [e]⟩)
    (hspares : SparesMembers s.view.replay.members e) (hsorted : SortedIds e)
    (haddress : Replay.HasAddress e) :
    Independent s0 base (history ++ [e]) ⟨view, s.heap, s.nextRef + 1⟩ := by
  obtain ⟨done, hhistory, hcondenses⟩ := h.condenses
  have hmembers : s.view.replay.members = history.foldl memberStep s0.joinedSet := by
    rw [hcondenses.members, hhistory]
    rfl
  refine ⟨?_, ⟨done, ?_, ?_⟩, ?_, ?_, ?_⟩
  · simp only [hview]
    exact h.sound.concat hspares
  · simp only [hview]
    rw [hhistory, append_assoc]
  · simp only [hview]
    exact ⟨hcondenses.wellFormed, hcondenses.joinedSet, hcondenses.channels, hcondenses.memberships⟩
  · obtain ⟨L, hlog, hat⟩ := h.ledger
    obtain ⟨k, hviewAt, hend⟩ := hat.view
    obtain ⟨L', hle, hlog', hheap, hposition⟩ :=
      L.add (hat.fresh e.ref (Nat.le_of_eq href.symm)) hsorted
    have hwindow : view.window = s.view.window ++ [e] := congrArg Replay.events hview
    have hold : ∀ e' ∈ L'.log, e'.ref < s.nextRef + 1 := by
      intro e' he'
      rw [hlog'] at he'
      rcases mem_append.1 he' with he' | he'
      · exact Nat.lt_succ_of_lt (hat.old e' he')
      · rw [mem_singleton.1 he', href]
        exact Nat.lt_succ_self _
    refine ⟨L', by rw [hlog', hlog], hheap.trans hat.heap, fun ref hle' =>
      ?_, ?_, hold, k, ⟨?_, ?_⟩, ?_⟩
    · have hle' : s.nextRef + 1 ≤ ref := hle'
      rw [hposition, Function.update_of_ne (by omega)]
      exact hat.fresh ref (by omega)
    · rw [hlog', map_append, nodup_append]
      refine ⟨hat.refs, nodup_singleton _, fun ref hmem ref' hmem' => ?_⟩
      obtain ⟨e', he', rfl⟩ := mem_map.1 hmem
      rw [map_singleton, mem_singleton] at hmem'
      have := hat.old e' he'
      omega
    · simp only [hview]
      exact hviewAt.snapshot.mono hle
    · simp only [hview]
      refine hviewAt.window.concat hend hle hlog' ?_
      rw [hposition, Function.update_self]
    · rw [hwindow, hlog', length_append, length_append, ← Nat.add_assoc, hend]
  · rw [regular_append]
    refine ⟨h.regular, ?_, trivial⟩
    rw [← hmembers]
    exact hspares
  · intro e' he'
    rcases mem_append.1 he' with he' | he'
    · exact h.address e' he'
    · rw [mem_singleton.1 he']
      exact haddress

theorem snapshot {snapshot : Snapshot} {view : StreamView}
    {es rest : List ParsedEvent} (hevents : s.view.replay.events = es ++ rest)
    (hupdates : Updates es (s.view.replay.snapshot.clone s.heap, s.heap) (snapshot, heap))
    (hview : view.replay = ⟨snapshot, rest⟩) (hnextRef : s.nextRef ≤ nextRef) :
    Independent s0 base history ⟨view, heap, nextRef⟩ := by
  obtain ⟨done, hhistory, hcondenses⟩ := h.condenses
  obtain ⟨L, hlog, hat⟩ := h.ledger
  obtain ⟨k, hviewAt, _⟩ := hat.view
  have hwindow := hviewAt.window
  rw [hevents, Ledger.window_append] at hwindow
  have hupdates' := hupdates
  rw [← hat.heap] at hupdates'
  obtain ⟨L', hwrites, hheap, hsnapshot⟩ := hviewAt.snapshot.updates hupdates' hwindow.1
  refine ⟨?_, ⟨done ++ es, ?_, ?_⟩, ⟨L', hwrites.log_eq.trans hlog, hheap, fun ref href => ?_, ?_,
    fun e he => ?_, k + es.length, ⟨?_, ?_⟩, ?_⟩, h.regular, h.address⟩
  · simp only [hview]
    exact (h.sound.takeIn hevents hupdates).1
  · simp only [hview]
    rw [hhistory, hevents, append_assoc]
  · simp only [hview]
    exact hcondenses.takeIn hupdates
  · rw [hwrites.position_eq]
    exact hat.fresh ref (hnextRef.trans href)
  · rw [hwrites.log_eq]
    exact hat.refs
  · rw [hwrites.log_eq] at he
    exact Nat.lt_of_lt_of_le (hat.old e he) hnextRef
  · simp only [hview]
    exact hsnapshot
  · simp only [hview]
    exact hwindow.2.mono hwrites.le
  have hrest : view.window = rest := congrArg Replay.events hview
  have hlength : s.view.window.length = es.length + rest.length := by
    rw [← length_append]
    exact congrArg length hevents
  rw [hrest, hwrites.log_eq]
  omega

theorem step {C : Crypto} {s' : History} {added : Option ParsedEvent}
    (hstep : HistoryStep C cfg s s' added)
    (hadded : ∀ e, added = some e → SortedIds e ∧ Replay.HasAddress e) :
    Independent s0 base (history ++ added.toList) s' := by
  cases hstep with
  | asked hasked hnextRef =>
    rw [Option.toList_none, append_nil]
    exact h.asked hasked hnextRef
  | @added e validNodeAddresses currentTime requirements heap view _ href canAdd add =>
    obtain ⟨hsorted, haddress⟩ := hadded e rfl
    have hasked := canAddEvent_asked ⟨cfg, validNodeAddresses, currentTime, s.view, e⟩ s.heap
    rw [canAdd] at hasked
    have h' := h.asked hasked (Nat.le_refl s.nextRef)
    exact h'.added href (StreamView.replay_copyAndAddEvent add)
      (AeParams.accepted_sparesMembers h.sound canAdd) hsorted haddress
  | @block view nextRef hreplay _ hnextRef =>
    rw [Option.toList_none, append_nil]
    obtain ⟨hsound, hcondenses, ⟨L, hlog, hheap, hfresh, hrefs, hold, k, hat, hend⟩, hregular,
      haddress⟩ := h
    have hwindow : view.window = s.view.window := congrArg Replay.events hreplay
    refine ⟨?_, ?_, ⟨L, hlog, hheap, fun ref href => hfresh ref (hnextRef.trans href), hrefs,
      fun e he => Nat.lt_of_lt_of_le (hold e he) hnextRef, k, ?_, ?_⟩, hregular, haddress⟩
    · simpa only [hreplay] using hsound
    · simpa only [hreplay] using hcondenses
    · simpa only [Ledger.ViewAt, hreplay] using hat
    · rw [hwindow]
      exact hend
  | snapshot hevents hupdates hreplay hnextRef =>
    rw [Option.toList_none, append_nil]
    rcases hreplay with rfl | ⟨hreplay, -⟩
    · -- the block was not applied, but making its snapshot has written to the heap
      refine h.write (fun L k hheap hview => ?_) hnextRef
      have hwindow := hview.window
      rw [hevents, Ledger.window_append] at hwindow
      rw [← hheap] at hupdates
      obtain ⟨L', hwrites, hheap', -⟩ := hview.snapshot.updates hupdates hwindow.1
      exact ⟨L', hwrites, hheap'⟩
    · exact h.snapshot hevents hupdates hreplay hnextRef

end Independent

/-! ## Histories -/

def addedEvents (C : Crypto) (cfg : StreamConfig) : History → List HistoryAction →
    List ParsedEvent :=
  (historyMachine C cfg).collect fun s a => ((historyMachine C cfg).out s a).toList

/-- The events added have sorted ids and an address. -/
def AddsOrderly (C : Crypto) (cfg : StreamConfig) : History → List HistoryAction → Prop :=
  (historyMachine C cfg).Along fun s a =>
    ∀ e ∈ (historyMachine C cfg).out s a, SortedIds e ∧ Replay.HasAddress e

instance (C : Crypto) (cfg : StreamConfig) (s : History) (acts : List HistoryAction) :
    Decidable (AddsOrderly C cfg s acts) :=
  inferInstanceAs (Decidable ((historyMachine C cfg).Along _ s acts))

/-- **Snapshot independence.** After every history of a stream, whichever blocks carried a
    snapshot, the queries answer as the fold of all events since the genesis snapshot, as long
    as session ids are in ascending order and memberships name whole addresses. -/
theorem snapshot_independence (c : Creation) (s : History) (h : c.createStream = .ok s)
    (events : List ParsedEvent) (hevents : c.parsedEvents = .ok events)
    (hgenesis : ∀ e ∈ events, SortedIds e) (cfg : StreamConfig) (acts : List HistoryAction)
    (hacts : AddsOrderly c.crypto cfg s acts) :
    ((historyMachine c.crypto cfg).exec s acts).view.AnswersAs
      ((historyMachine c.crypto cfg).exec s acts).heap
      ⟨s.view.replay.snapshot, addedEvents c.crypto cfg s acts⟩ := by
  obtain ⟨hsound, -, hdecoded⟩ := c.sound h hevents
  obtain ⟨_, -, snapshot, _, hevents', -, hmade, hreplay, -, hheap⟩ :=
    Creation.createStream_eq_ok h
  obtain rfl := Res.ok.inj (hevents.symm.trans hevents')
  have hw : OrderlyWindow events := by
    refine ⟨?_, hgenesis⟩
    rw [(parseEvents_eq_ok.1 hevents).2.2]
    exact nodup_range'
  have hstart : ∀ L : Ledger, L.SnapshotAt (s.view.replay.snapshot.solicitationsNow .empty) 0
      s.view.replay.snapshot := by
    rw [hreplay]
    exact Ledger.snapshotAt_genesis hmade hw
  have hnil : s.view.replay.events = [] := by rw [hreplay]
  have hinit : Independent s.view.replay.snapshot
      (s.view.replay.snapshot.solicitationsNow .empty) [] s := by
    refine ⟨hsound, ⟨[], hnil.symm, .refl (hstart .empty).wellFormed⟩, ⟨.empty, rfl, hheap.symm,
      fun _ _ => rfl, nodup_nil, by simp [Ledger.empty], 0, ⟨hstart _, ?_⟩, ?_⟩, trivial, by simp⟩
    · rw [hnil]
      exact Ledger.window_nil (Nat.zero_le _)
    · rw [Nat.zero_add]
      exact congrArg length hnil
  have hrun : ((historyMachine c.crypto cfg).exec s acts).Decoded c.crypto ∧
      Independent s.view.replay.snapshot (s.view.replay.snapshot.solicitationsNow .empty)
        ([] ++ addedEvents c.crypto cfg s acts) ((historyMachine c.crypto cfg).exec s acts) := by
    refine Machine.collect_invariant
      (J := fun l s' => s'.Decoded c.crypto ∧ Independent s.view.replay.snapshot
        (s.view.replay.snapshot.solicitationsNow .empty) l s') (fun _ _ _ => trivial) ?_
      ⟨hdecoded, hinit⟩ hacts trivial
    rintro l s' a ⟨hdecoded', hs'⟩ hadds -
    have hstep : HistoryStep c.crypto cfg s' _ _ := History.step hdecoded' a
    exact ⟨hstep.decoded hdecoded', hs'.step hstep hadds⟩
  obtain ⟨-, hend⟩ := hrun
  rw [nil_append] at hend
  obtain ⟨_, hhistory, hcondenses⟩ := hend.condenses
  obtain ⟨L, hlog, hat⟩ := hend.ledger
  obtain ⟨k, hview, hwhole⟩ := hat.view
  have hregular := hend.regular
  have haddress := hend.address
  rw [hhistory] at hlog hregular haddress ⊢
  rw [← hat.heap]
  exact hcondenses.answersAs hview hwhole hlog hstart hat.refs hregular haddress

/-! ## Sample histories -/

def sampleOffer (s : History) (payload : Payload) (salt : Fin 256) : HistoryAction :=
  .addEvent (makeEnvelopeWithEvent .salted Heap.empty
    (makeStreamEvent .salted payload (some s.view.lastBlock.hash) [salt] 0)) [sampleAddress 1] 0

def sampleKeys (s : History) (asked delivered : List Bytes) : List HistoryAction :=
  [sampleOffer s (.member (.keySolicitation ⟨[1], [], false, asked⟩)) 21,
    sampleOffer s (.member (.keyFulfillment ⟨sampleAddress 1, [1], delivered⟩)) 22]

def sampleRun (c : Creation) (acts : History → List HistoryAction) : Res (History × Replay) := do
  let s ← c.createStream
  .ok ((historyMachine c.crypto c.cfg.stream).exec s (acts s),
    ⟨s.view.replay.snapshot, addedEvents c.crypto c.cfg.stream s (acts s)⟩)

def sampleKeysActs (asked delivered : List Bytes) (s : History) : List HistoryAction :=
  sampleKeys s asked delivered ++
    [.getKeySolicitations (sampleAddress 1), .makeMiniblock 2 true ⟨2, 0⟩ [23] 0]

def sampleInviteActs (s : History) : List HistoryAction :=
  [sampleOffer s (.member (.membership ⟨.invite, [7], sampleAddress 1, none⟩)) 21,
    .makeMiniblock 1 true ⟨2, 0⟩ [23] 0]

theorem snapshot_independence_sample :
    ∃ s, (sampleDm 1 2 fun _ => none).createStream = .ok s ∧
      let acts := sampleKeysActs [[1], [2]] [[1], [2]] s
      let machine := historyMachine .salted (sampleDm 1 2 fun _ => none).cfg.stream
      (machine.exec s acts).view.AnswersAs (machine.exec s acts).heap
        ⟨s.view.replay.snapshot, addedEvents .salted (sampleDm 1 2 fun _ => none).cfg.stream
          s acts⟩ := by
  obtain ⟨s, hs, horderly⟩ : ∃ s, (sampleDm 1 2 fun _ => none).createStream = .ok s ∧
      AddsOrderly .salted (sampleDm 1 2 fun _ => none).cfg.stream s
        (sampleKeysActs [[1], [2]] [[1], [2]] s) := by
    decide +kernel
  exact ⟨s, hs, snapshot_independence (sampleDm 1 2 fun _ => none) s hs (sampleDmEvents 1 2)
    (by decide +kernel) (by decide +kernel) _ _ horderly⟩

/-- Two session ids that are asked for out of order: the view has no session left, the fold of
    the same events has one. An invitation of a short address: the view lists the members, the
    fold fails. -/
theorem snapshot_dependence :
    (∃ s all, sampleRun (sampleDm 1 2 fun _ => none) (sampleKeysActs [[2], [1]] [[1], [2]]) =
        .ok (s, all) ∧
      Prod.fst <$> s.view.getKeySolicitations s.heap (sampleAddress 1) =
        .ok [⟨[1], [], false, []⟩] ∧
      Prod.fst <$> all.getKeySolicitations Heap.empty (sampleAddress 1) =
        .ok [⟨[1], [], false, [[1]]⟩]) ∧
    ∃ s all, sampleRun (sampleGdm fun _ => some 10) sampleInviteActs = .ok (s, all) ∧
      s.view.getChannelMembers.isOk = true ∧ all.getChannelMembers.isOk = false := by
  decide +kernel

end River.Node.Rules
