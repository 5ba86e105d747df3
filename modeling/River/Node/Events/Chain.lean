/-
  Stored chains of miniblocks.

  `Holds`: an object is what its bytes decode to, up to the identity of objects and the current
  content of the header's snapshot.
-/

import River.Node.Events.StreamView

namespace River.Node

open List Miniblock StreamEvent EventMap Res

/-! ## Decoding -/

/-- The event is what its envelope has. -/
def ParsedEvent.Decoded (C : Crypto) (e : ParsedEvent) : Prop :=
  authenticate C e.envelope = .ok e.event

def ParsedEvent.Authentic (C : Crypto) (e : ParsedEvent) : Prop :=
  ∃ heap, authenticate C e.envelope = .ok (e.event.resolve heap)

def MiniblockHeader.resolve (heap : Heap) (h : MiniblockHeader) : MiniblockHeader :=
  { h with snapshot := h.snapshot.map (·.clone heap) }

theorem StreamEvent.resolve_payload {e : StreamEvent} (he : e.payload = .miniblockHeader h)
    (heap : Heap) :
    (e.resolve heap).payload = .miniblockHeader (h.resolve heap) := by
  unfold resolve MiniblockHeader.resolve
  rw [he]

namespace ParsedEvent

variable {C : Crypto} {e : ParsedEvent}

theorem Decoded.of_parseEvent {envelope : Envelope} {ref : Nat}
    (h : parseEvent C envelope ref = .ok e) : e.Decoded C := by
  obtain ⟨hauth, henvelope, -⟩ := parseEvent_eq_ok.1 h
  rw [Decoded, henvelope]
  exact hauth

theorem Decoded.authentic (h : e.Decoded C) : e.Authentic C := by
  obtain ⟨-, hunmarshal⟩ := authenticate_eq_ok h
  refine ⟨.empty, ?_⟩
  rw [EventBytes.resolve_of_unmarshal hunmarshal]
  exact h

theorem Authentic.hash_eq (h : e.Authentic C) : e.hash = C.riverHash e.envelope.event := by
  obtain ⟨_, hauth⟩ := h
  exact (authenticate_eq_ok hauth).1

end ParsedEvent

theorem parseEvents_eq_ok :
    parseEvents C envelopes ref = .ok es ↔
      es.map (·.envelope) = envelopes ∧ (∀ e ∈ es, e.Decoded C) ∧
        es.map (·.ref) = range' ref envelopes.length := by
  induction envelopes generalizing ref es with
  | nil =>
    constructor
    · intro h
      cases h
      simp
    · rintro ⟨h, -, -⟩
      rw [map_eq_nil_iff.1 h]
      rfl
  | cons envelope envelopes ih =>
    constructor
    · intro h
      obtain ⟨e, he, h⟩ := bind_eq_ok.1 h
      obtain ⟨_, hes', h⟩ := bind_eq_ok.1 h
      cases h
      obtain ⟨-, henv, href⟩ := parseEvent_eq_ok.1 he
      obtain ⟨henvs, hauths, hrefs⟩ := ih.1 hes'
      refine ⟨by rw [map_cons, henv, henvs], ?_, ?_⟩
      · intro e' he'
        rcases mem_cons.1 he' with rfl | he'
        · exact .of_parseEvent he
        · exact hauths e' he'
      · rw [map_cons, href, hrefs, length_cons, range'_succ]
    · rintro ⟨henvs, hauths, hrefs⟩
      cases es with
      | nil => simp at henvs
      | cons e es =>
        rw [map_cons, cons.injEq] at henvs
        rw [map_cons, length_cons, range'_succ, cons.injEq] at hrefs
        have he : parseEvent C envelope ref = .ok e := by
          refine parseEvent_eq_ok.2 ⟨?_, henvs.1, hrefs.1⟩
          rw [← henvs.1]
          exact hauths e mem_cons_self
        have hes : parseEvents C envelopes (ref + 1) = .ok es :=
          ih.2 ⟨henvs.2, fun e' he' => hauths e' (mem_cons_of_mem _ he'), hrefs.2⟩
        rw [parseEvents, he, hes]
        rfl

theorem parseEvents_of_authenticate {envelopes : List Envelope}
    (h : ∀ envelope ∈ envelopes, ∃ event, authenticate C envelope = .ok event) (ref : Nat) :
    ∃ es, parseEvents C envelopes ref = .ok es := by
  induction envelopes generalizing ref with
  | nil => exact ⟨[], rfl⟩
  | cons envelope envelopes ih =>
    obtain ⟨event, hevent⟩ := h envelope mem_cons_self
    obtain ⟨es, hes⟩ := ih (fun e he => h e (mem_cons_of_mem _ he)) (ref + 1)
    refine ⟨⟨event, envelope, ref⟩ :: es, ?_⟩
    rw [parseEvents, parseEvent, hevent, hes]
    rfl

theorem parseMinipool_eq_ok :
    parseMinipool C envelopes ref m = .ok m' ↔
      ∃ es, parseEvents C envelopes ref = .ok es ∧ m'.values = m.values ++ es ∧
        (m.hashes ++ es.map (·.hash)).Nodup := by
  induction envelopes generalizing ref m with
  | nil =>
    constructor
    · intro h
      cases h
      exact ⟨[], rfl, by simp, by simpa using m'.hashes_nodup⟩
    · rintro ⟨es, hes, hvalues, -⟩
      cases hes
      rw [append_nil] at hvalues
      rw [ext_values hvalues]
      rfl
  | cons envelope envelopes ih =>
    have hhashes : ∀ {m1 : EventMap} {e : ParsedEvent}, m1.values = m.values ++ [e] →
        m1.hashes = m.hashes ++ [e.hash] := by
      intro m1 e h
      simp [hashes, h]
    constructor
    · intro h
      obtain ⟨e, he, h⟩ := bind_eq_ok.1 h
      obtain ⟨m1, hset, h⟩ := bind_eq_ok.1 h
      obtain ⟨-, hvalues⟩ := set_eq_ok.1 hset
      obtain ⟨es, hes, hvalues', hnodup⟩ := ih.1 h
      refine ⟨e :: es, ?_, by simp [hvalues', hvalues], ?_⟩
      · rw [parseEvents, he, hes]
        rfl
      · simpa [hhashes hvalues] using hnodup
    · rintro ⟨es, hes, hvalues, hnodup⟩
      obtain ⟨e, he, hes⟩ := bind_eq_ok.1 hes
      obtain ⟨es', hes', hes⟩ := bind_eq_ok.1 hes
      cases hes
      have hnew : e.hash ∉ m.hashes := by
        intro hmem
        rw [nodup_append] at hnodup
        exact hnodup.2.2 _ hmem _ mem_cons_self rfl
      obtain ⟨m1, hset, hvalues1⟩ := set_of_notMem hnew
      have hrest : parseMinipool C envelopes (ref + 1) m1 = .ok m' :=
        ih.2 ⟨es', hes', by simp [hvalues, hvalues1], by simpa [hhashes hvalues1] using hnodup⟩
      rw [parseMinipool, he, ok_bind, hset, ok_bind, hrest]

theorem parseMinipool_of_authenticate {envelopes : List Envelope}
    (hauth : ∀ envelope ∈ envelopes, ∃ event, authenticate C envelope = .ok event) (ref : Nat)
    (m : EventMap) :
    (∃ m', parseMinipool C envelopes ref m = .ok m') ∨
      (∃ msg, parseMinipool C envelopes ref m = .panic msg) ∧
        ¬ (m.hashes ++ envelopes.map (·.hash)).Nodup := by
  induction envelopes generalizing ref m with
  | nil => exact .inl ⟨m, rfl⟩
  | cons envelope envelopes ih =>
    obtain ⟨event, hevent⟩ := hauth envelope mem_cons_self
    have hparse : parseEvent C envelope ref = .ok ⟨event, envelope, ref⟩ := by
      rw [parseEvent, hevent]
      rfl
    rw [parseMinipool, hparse, ok_bind]
    by_cases hnew : envelope.hash ∈ m.hashes
    · rw [set_of_mem hnew]
      refine .inr ⟨⟨_, rfl⟩, fun hnodup => ?_⟩
      rw [nodup_append] at hnodup
      exact hnodup.2.2 _ hnew _ mem_cons_self rfl
    · obtain ⟨m1, hset, hvalues⟩ := set_of_notMem (e := ⟨event, envelope, ref⟩) hnew
      have hhashes : m1.hashes = m.hashes ++ [envelope.hash] := by
        simp [hashes, hvalues, ParsedEvent.hash]
      rw [hset]
      simpa [hhashes] using ih (fun e he => hauth e (mem_cons_of_mem _ he)) (ref + 1) m1

/-! ## Blocks -/

def Miniblock.header? (pb : Miniblock) : Option MiniblockHeader :=
  pb.header.event.unmarshal.bind (·.getMiniblockHeader)

theorem Miniblock.header?_signed (C : Crypto) (heap : Heap) (header : MiniblockHeader)
    (prev : Option Bytes) (salt : Bytes) (epochMillis : Int) (events : List Envelope) :
    (⟨events, makeEnvelopeWithEvent C heap
      (makeStreamEvent C (.miniblockHeader header) prev salt epochMillis)⟩ : Miniblock).header? =
      some (header.resolve heap) := by
  have hauth := authenticate_makeEnvelopeWithEvent C heap (.miniblockHeader header) prev salt
    epochMillis
  have hpayload := resolve_payload (e := makeStreamEvent C (.miniblockHeader header) prev
    salt epochMillis) rfl heap
  rw [header?, (authenticate_eq_ok hauth).2, Option.bind_some, getMiniblockHeader, hpayload]

def Miniblock.hash (pb : Miniblock) : Bytes := pb.header.hash

def Miniblock.envelopes (pb : Miniblock) : List Envelope := pb.events ++ [pb.header]

def Miniblock.hasSnapshot (pb : Miniblock) : Bool :=
  (pb.header.event.unmarshal.bind (·.getMiniblockHeader)).any (·.snapshot.isSome)

theorem Miniblock.hasSnapshot_eq {pb : Miniblock} (hh : pb.header? = some h) :
    pb.hasSnapshot = h.snapshot.isSome := by
  unfold header? at hh
  simp [hasSnapshot, hh]

theorem newMiniblockInfoFromProto_eq_ok {n : Int} {ref : Nat}
    (h : newMiniblockInfoFromProto C pb ⟨n, false⟩ ref = .ok b) :
    parseEvent C pb.header ref = .ok b.headerEvent ∧
      parseEvents C pb.events (ref + 1) = .ok b.events ∧ b.proto = pb ∧
      (0 ≤ n → b.header.miniblockNum = n) := by
  obtain ⟨_, hheader, h⟩ := bind_eq_ok.1 h
  split at h
  · split at h
    · simp [riverError] at h
    rename_i hnum
    obtain ⟨_, hevents, h⟩ := bind_eq_ok.1 h
    cases h
    refine ⟨hheader, by simpa [parseBlockEvents] using hevents, rfl, fun hn => ?_⟩
    by_contra hne
    exact hnum ⟨hn, hne⟩
  · simp [riverError] at h

theorem hasSnapshot_of_parsed {n : Int} {ref : Nat}
    (h : newMiniblockInfoFromProto C pb ⟨n, false⟩ ref = .ok b) :
    pb.hasSnapshot = b.header.snapshot.isSome := by
  obtain ⟨hheader, -, -, -⟩ := newMiniblockInfoFromProto_eq_ok h
  obtain ⟨hauth, -, -⟩ := parseEvent_eq_ok.1 hheader
  obtain ⟨-, hunmarshal⟩ := authenticate_eq_ok hauth
  have hget : b.headerEvent.event.getMiniblockHeader = some b.header := by
    unfold getMiniblockHeader
    rw [b.header_eq]
  simp [hasSnapshot, hunmarshal, hget]

theorem newMiniblockInfoFromParsed_eq_ok (h : newMiniblockInfoFromParsed headerEvent es = .ok b) :
    b.headerEvent = headerEvent ∧ b.events = es ∧
      b.proto = ⟨es.map (·.envelope), headerEvent.envelope⟩ := by
  unfold newMiniblockInfoFromParsed at h
  split at h
  · cases h
    exact ⟨rfl, rfl, rfl⟩
  · cases h

structure MiniblockInfo.Holds (C : Crypto) (b : MiniblockInfo) (pb : Miniblock) : Prop where
  proto : b.proto = pb
  header : b.headerEvent.envelope = pb.header
  events : b.events.map (·.envelope) = pb.events
  headerEvent_authentic : b.headerEvent.Authentic C
  events_decoded : ∀ e ∈ b.events, e.Decoded C

namespace MiniblockInfo.Holds

variable {C : Crypto} {b : MiniblockInfo} {pb : Miniblock}

variable (h : b.Holds C pb)

include h

theorem hash_eq : b.hash = pb.hash := by
  unfold MiniblockInfo.hash ParsedEvent.hash Miniblock.hash
  rw [h.header]

theorem length_events : b.events.length = pb.events.length := by
  rw [← h.events, length_map]

theorem header? : ∃ heap, pb.header? = some (b.header.resolve heap) := by
  obtain ⟨heap, hauth⟩ := h.headerEvent_authentic
  obtain ⟨-, hun⟩ := authenticate_eq_ok hauth
  refine ⟨heap, ?_⟩
  rw [Miniblock.header?, ← h.header, hun, Option.bind_some, getMiniblockHeader,
    resolve_payload b.header_eq]

theorem hasSnapshot_eq : pb.hasSnapshot = b.header.snapshot.isSome := by
  obtain ⟨_, hheader⟩ := h.header?
  rw [Miniblock.hasSnapshot_eq hheader, MiniblockHeader.resolve, Option.isSome_map]

theorem map_hash : b.events.map (·.hash) = pb.events.map (·.hash) := by
  rw [← h.events, map_map]
  rfl

theorem envelopes : b.allEvents.map (·.envelope) = pb.envelopes := by
  rw [MiniblockInfo.allEvents, map_append, h.events, Miniblock.envelopes, ← h.header]
  rfl

omit h

end MiniblockInfo.Holds

theorem holds_of_parsed {n : Int} {ref : Nat}
    (h : newMiniblockInfoFromProto C pb ⟨n, false⟩ ref = .ok b) : b.Holds C pb := by
  obtain ⟨hheader, hevents, hproto, -⟩ := newMiniblockInfoFromProto_eq_ok h
  obtain ⟨-, henv, -⟩ := parseEvent_eq_ok.1 hheader
  obtain ⟨henvs, hdecoded, -⟩ := parseEvents_eq_ok.1 hevents
  have hdec : b.headerEvent.Decoded C := .of_parseEvent hheader
  exact ⟨hproto, henv, henvs, hdec.authentic, hdecoded⟩

structure Miniblock.WellFormed (C : Crypto) (pb : Miniblock) : Prop where
  header : ∃ event h, authenticate C pb.header = .ok event ∧ event.payload = .miniblockHeader h
  events : ∀ envelope ∈ pb.events, ∃ event, authenticate C envelope = .ok event

theorem MiniblockInfo.Holds.wellFormed {b : MiniblockInfo}
    (h : b.Holds C pb) : pb.WellFormed C := by
  obtain ⟨heap, hauth⟩ := h.headerEvent_authentic
  rw [h.header] at hauth
  refine ⟨⟨_, _, hauth, resolve_payload b.header_eq heap⟩, ?_⟩
  intro envelope henvelope
  rw [← h.events] at henvelope
  obtain ⟨e, he, rfl⟩ := mem_map.1 henvelope
  exact ⟨_, h.events_decoded e he⟩

theorem newMiniblockInfoFromProto_of_wellFormed {pb : Miniblock} (hpb : pb.WellFormed C) {n : Int}
    (hnum : ∀ h, pb.header? = some h → 0 ≤ n → h.miniblockNum = n) (ref : Nat) :
    ∃ b, newMiniblockInfoFromProto C pb ⟨n, false⟩ ref = .ok b := by
  obtain ⟨⟨_, h, hauth, hpayload⟩, hevents⟩ := hpb
  obtain ⟨_, hes⟩ := parseEvents_of_authenticate hevents (ref + 1)
  have hh : pb.header? = some h := by
    rw [header?, (authenticate_eq_ok hauth).2, Option.bind_some, getMiniblockHeader, hpayload]
  unfold newMiniblockInfoFromProto
  rw [parseEvent, hauth, ok_bind, ok_bind]
  split
  · rename_i blockHeader hblockHeader
    have hbh : blockHeader = h := by
      have := hblockHeader.symm.trans hpayload
      simpa using this
    rw [if_neg, parseBlockEvents, hes]
    · exact ⟨_, rfl⟩
    · rintro ⟨hn, hne⟩
      exact hne (hbh ▸ hnum h hh hn)
  · rename_i hno
    exact absurd hpayload (hno h)

/-! ## Chains -/

def chainEnvelopes (pbs : List Miniblock) : List Envelope := pbs.flatMap envelopes

theorem chainEnvelopes_append (pbs pbs' : List Miniblock) :
    chainEnvelopes (pbs ++ pbs') = chainEnvelopes pbs ++ chainEnvelopes pbs' :=
  flatMap_append

theorem length_chainEnvelopes_concat (pbs : List Miniblock) (pb : Miniblock) :
    (chainEnvelopes (pbs ++ [pb])).length = (chainEnvelopes pbs).length + pb.events.length + 1 := by
  simp [chainEnvelopes, envelopes, Nat.add_assoc]

def chainEvents (pbs : List Miniblock) : List Envelope := pbs.flatMap (·.events)

theorem chainEvents_concat (pbs : List Miniblock) (pb : Miniblock) :
    chainEvents (pbs ++ [pb]) = chainEvents pbs ++ pb.events := by
  simp [chainEvents]

theorem getElem?_concat_cases {α : Type} {l : List α} {a b : α} {k : Nat}
    (h : (l ++ [a])[k]? = some b) : l[k]? = some b ∨ (k = l.length ∧ b = a) := by
  have hlt := (List.getElem?_eq_some_iff.1 h).1
  rw [length_append, length_singleton] at hlt
  rcases Nat.lt_or_ge k l.length with hk | hk
  · rw [getElem?_append_left hk] at h
    exact .inl h
  · obtain rfl : k = l.length := by omega
    rw [getElem?_concat_length, Option.some.injEq] at h
    exact .inr ⟨rfl, h.symm⟩

/-- Block `n` is the last with a snapshot. -/
def IsLatestSnapshot (pbs : List Miniblock) (n : Nat) : Prop :=
  (∃ pb, pbs[n]? = some pb ∧ pb.hasSnapshot = true) ∧
    ∀ m pb, n < m → pbs[m]? = some pb → pb.hasSnapshot = false

namespace IsLatestSnapshot

theorem lt (h : IsLatestSnapshot pbs n) : n < pbs.length := by
  obtain ⟨⟨_, hpb, -⟩, -⟩ := h
  exact (List.getElem?_eq_some_iff.1 hpb).1

theorem unique (h : IsLatestSnapshot pbs n) (h' : IsLatestSnapshot pbs m) : n = m := by
  obtain ⟨⟨pb, hpb, hsnap⟩, hafter⟩ := h
  obtain ⟨⟨pb', hpb', hsnap'⟩, hafter'⟩ := h'
  rcases Nat.lt_trichotomy n m with hlt | heq | hgt
  · rw [hafter m pb' hlt hpb'] at hsnap'
    cases hsnap'
  · exact heq
  · rw [hafter' n pb hgt hpb] at hsnap
    cases hsnap

theorem concat_of_hasSnapshot {pb : Miniblock} (hpb : pb.hasSnapshot = true) :
    IsLatestSnapshot (pbs ++ [pb]) pbs.length := by
  refine ⟨⟨pb, by simp, hpb⟩, fun m pb' hm hpb' => ?_⟩
  have := (List.getElem?_eq_some_iff.1 hpb').1
  rw [length_append, length_singleton] at this
  omega

theorem concat {pb : Miniblock} (h : IsLatestSnapshot pbs n) (hpb : pb.hasSnapshot = false) :
    IsLatestSnapshot (pbs ++ [pb]) n := by
  have hlt := h.lt
  obtain ⟨⟨pb0, _, hsnap⟩, hafter⟩ := h
  refine ⟨⟨pb0, by rwa [getElem?_append_left hlt], hsnap⟩, fun m pb' hm hpb' => ?_⟩
  rcases getElem?_concat_cases hpb' with hpb' | ⟨-, rfl⟩
  · exact hafter m pb' hm hpb'
  · exact hpb

end IsLatestSnapshot

structure MiniblockHeader.Follows (h : MiniblockHeader) (pbs : List Miniblock) : Prop where
  miniblockNum : h.miniblockNum = pbs.length
  eventNumOffset : h.eventNumOffset = (chainEnvelopes pbs).length
  prevMiniblockHash : ∃ last, pbs.getLast? = some last ∧ h.prevMiniblockHash = last.hash
  prevSnapshotMiniblockNum : ∃ n : Nat, IsLatestSnapshot pbs n ∧ h.prevSnapshotMiniblockNum = n
  timestamp : ∃ last header t t', pbs.getLast? = some last ∧ last.header? = some header ∧
    header.timestamp = some t ∧ h.timestamp = some t' ∧ t.Before t'

def MiniblockHeader.SnapshotOf (h : MiniblockHeader) (sid : StreamId) : Prop :=
  ∀ s, h.snapshot = some s → streamIdOfSnapshot s = .ok sid

theorem MiniblockHeader.Follows.resolve {h : MiniblockHeader} (hf : h.Follows pbs)
    (heap : Heap) : (h.resolve heap).Follows pbs :=
  ⟨hf.miniblockNum, hf.eventNumOffset, hf.prevMiniblockHash, hf.prevSnapshotMiniblockNum,
    hf.timestamp⟩

theorem streamIdOfSnapshot_clone (s : Snapshot) (heap : Heap) :
    streamIdOfSnapshot (s.clone heap) = streamIdOfSnapshot s := rfl

theorem MiniblockHeader.SnapshotOf.resolve {h : MiniblockHeader} (hs : h.SnapshotOf sid)
    (heap : Heap) : (h.resolve heap).SnapshotOf sid := by
  intro s hsnap
  obtain ⟨s0, hs0, rfl⟩ := Option.map_eq_some_iff.1 hsnap
  exact hs s0 hs0

structure Miniblock.Follows (C : Crypto) (sid : StreamId) (pb : Miniblock) (pbs : List Miniblock) :
    Prop where
  wellFormed : pb.WellFormed C
  header : ∃ h, pb.header? = some h ∧ h.Follows pbs ∧ h.SnapshotOf sid

structure Miniblock.IsGenesis (C : Crypto) (sid : StreamId) (pb : Miniblock) : Prop where
  wellFormed : pb.WellFormed C
  hasSnapshot : pb.hasSnapshot = true
  header : ∃ h, pb.header? = some h ∧ h.miniblockNum = 0 ∧ h.eventNumOffset = 0 ∧
    h.timestamp.isSome ∧ h.SnapshotOf sid

inductive Chain (C : Crypto) (sid : StreamId) : List Miniblock → Prop
  | genesis {pb : Miniblock} (h : pb.IsGenesis C sid) : Chain C sid [pb]
  | concat {pbs : List Miniblock} {pb : Miniblock} (hc : Chain C sid pbs)
      (h : pb.Follows C sid pbs) : Chain C sid (pbs ++ [pb])

structure Miniblock.At (C : Crypto) (sid : StreamId) (pb : Miniblock) (pbs : List Miniblock)
    (h : MiniblockHeader) : Prop where
  wellFormed : pb.WellFormed C
  header : pb.header? = some h
  miniblockNum : h.miniblockNum = pbs.length
  eventNumOffset : h.eventNumOffset = (chainEnvelopes pbs).length
  timestamp : h.timestamp.isSome
  snapshotOf : h.SnapshotOf sid

namespace Chain

theorem ne_nil (h : Chain C sid pbs) : pbs ≠ [] := by
  cases h <;> simp

theorem follows (h : Chain C sid pbs) {n : Nat} (hpb : pbs[n + 1]? = some pb) :
    pb.Follows C sid (pbs.take (n + 1)) := by
  induction h with
  | genesis hg => simp at hpb
  | @concat pbs pb' hc hf ih =>
    rcases getElem?_concat_cases hpb with hpb | ⟨hn, rfl⟩
    · rw [take_append_of_le_length (List.getElem?_eq_some_iff.1 hpb).1.le]
      exact ih hpb
    · rw [hn, take_append_of_le_length (Nat.le_refl _), take_length]
      exact hf

theorem header_at (h : Chain C sid pbs) {n : Nat} (hpb : pbs[n]? = some pb) :
    ∃ header, pb.At C sid (pbs.take n) header := by
  cases n with
  | zero =>
    have hgen : pb.IsGenesis C sid := by
      induction h with
      | genesis hg =>
        rw [getElem?_cons_zero, Option.some.injEq] at hpb
        exact hpb ▸ hg
      | concat hc hf ih =>
        rw [getElem?_append_left (length_pos_of_ne_nil hc.ne_nil)] at hpb
        exact ih hpb
    obtain ⟨header, hh, hnum, hoff, hts, hsid⟩ := hgen.header
    exact ⟨header, hgen.wellFormed, hh, hnum, hoff, hts, hsid⟩
  | succ n =>
    obtain ⟨hwf, header, hh, hf, hsid⟩ := h.follows hpb
    obtain ⟨-, -, -, _, -, -, -, ht', -⟩ := hf.timestamp
    exact ⟨header, hwf, hh, hf.miniblockNum, hf.eventNumOffset, by simp [ht'], hsid⟩

theorem wellFormed (h : Chain C sid pbs) : ∀ pb ∈ pbs, pb.WellFormed C := by
  intro pb hpb
  obtain ⟨n, hn⟩ := getElem?_of_mem hpb
  obtain ⟨_, hat⟩ := h.header_at hn
  exact hat.wellFormed

end Chain

/-- The snapshot is that of its block. -/
def StreamView.SnapshotAtIndex (v : StreamView) : Prop :=
  (v.blocks.get ⟨v.snapshotIndex, v.snapshotIndex_lt⟩).snapshot? = some v.snapshot

end River.Node
