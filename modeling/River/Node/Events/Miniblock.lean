/-
  Miniblocks and the minipool (core/node/events/miniblock.go and minipool.go).
-/

import River.Node.Events.Snapshot
import River.Node.Utils.OrderedMap

namespace River.Node

open List

/-! ## Timestamps -/

/-- `a` is earlier than `b`. -/
def Timestamp.Before (a b : Timestamp) : Prop :=
  a.seconds < b.seconds ∨ (a.seconds = b.seconds ∧ a.nanos < b.nanos)

instance (a b : Timestamp) : Decidable (a.Before b) :=
  inferInstanceAs (Decidable (_ ∨ _))

def Timestamp.asTime (t : Timestamp) : Int := t.seconds * 1000000000 + t.nanos

def nextMiniblockTimestamp (prevBlockTimestamp : Option Timestamp) (now : Timestamp) : Timestamp :=
  match prevBlockTimestamp with
  | none => now
  | some prev =>
    if now.seconds < prev.seconds ∨ (now.seconds = prev.seconds ∧ now.nanos ≤ prev.nanos) then
      ⟨prev.seconds + 1, 0⟩
    else now

theorem before_nextMiniblockTimestamp (prev now : Timestamp) :
    prev.Before (nextMiniblockTimestamp (some prev) now) := by
  unfold nextMiniblockTimestamp Timestamp.Before
  simp only
  split
  · left
    show prev.seconds < prev.seconds + 1
    omega
  · omega

/-! ## Miniblocks -/

structure MiniblockInfo where
  headerEvent : ParsedEvent
  header : MiniblockHeader
  header_eq : headerEvent.event.payload = .miniblockHeader header
  events : List ParsedEvent
  proto : Miniblock
  deriving DecidableEq

namespace MiniblockInfo

def hash (b : MiniblockInfo) : Bytes := b.headerEvent.hash

def num (b : MiniblockInfo) : Int := b.header.miniblockNum

def allEvents (b : MiniblockInfo) : List ParsedEvent := b.events ++ [b.headerEvent]

end MiniblockInfo

structure NewMiniblockInfoFromProtoOpts where
  expectedBlockNumber : Int
  dontParseEvents : Bool := false

def parseBlockEvents (C : Crypto) (pb : Miniblock) (opts : NewMiniblockInfoFromProtoOpts)
    (ref : Nat) : Res (List ParsedEvent) :=
  if opts.dontParseEvents then .ok [] else parseEvents C pb.events ref

def newMiniblockInfoFromProto (C : Crypto) (pb : Miniblock) (opts : NewMiniblockInfoFromProtoOpts)
    (ref : Nat) : Res MiniblockInfo := do
  let headerEvent ← parseEvent C pb.header ref
  match h : headerEvent.event.payload with
  | .miniblockHeader blockHeader =>
    if opts.expectedBlockNumber ≥ 0 ∧ blockHeader.miniblockNum ≠ opts.expectedBlockNumber then
      -- the source passes "expected" where the message stands
      riverError .badEvent "expected"
    else do
      let events ← parseBlockEvents C pb opts (ref + 1)
      .ok ⟨headerEvent, blockHeader, h, events, pb⟩
  | _ => riverError .badEvent "header event must be a block header"

def newMiniblockInfoFromParsed (headerEvent : ParsedEvent) (events : List ParsedEvent) :
    Res MiniblockInfo :=
  match h : headerEvent.event.payload with
  | .miniblockHeader header => .ok ⟨headerEvent, header, h, events,
      ⟨events.map (·.envelope), headerEvent.envelope⟩⟩
  | _ => riverError .badEvent "header event must be a block header"

def Miniblock.refCount (pb : Miniblock) : Nat := pb.events.length + 1

/-! ## Genesis -/

def checkGenesisEvents : List ParsedEvent → Res Unit
  | [] => .ok ()
  | event :: rest =>
    if event.event.getInceptionPayload ≠ none then
      riverError .badEvent "inception event can only be first event"
    else if event.event.getMiniblockHeader ≠ none then
      riverError .badEvent "block header can't be a block event"
    else checkGenesisEvents rest

def makeGenesisMiniblockHeader (parsedEvents : List ParsedEvent) (heap : Heap) (now : Timestamp) :
    Res (MiniblockHeader × Heap) :=
  match parsedEvents with
  | [] => riverError .streamEmpty "no events to make genisis miniblock header"
  | inceptionEvent :: rest =>
    if inceptionEvent.event.getInceptionPayload = none then
      riverError .streamNoInceptionEvent "first event must be inception event"
    else do
      checkGenesisEvents rest
      let (snapshot, heap) ← makeGenesisSnapshot parsedEvents heap
      .ok (⟨0, [], some (nextMiniblockTimestamp none now), parsedEvents.map (·.hash),
        some snapshot, 0, 0⟩, heap)

def makeGenesisMiniblock (C : Crypto) (events : List ParsedEvent) (now : Timestamp)
    (salt : Bytes) (epochMillis : Int) : Res Miniblock := do
  let (header, heap) ← makeGenesisMiniblockHeader events Heap.empty now
  let headerEvent := makeStreamEvent C (.miniblockHeader header) none salt epochMillis
  .ok ⟨events.map (·.envelope), makeEnvelopeWithEvent C heap headerEvent⟩

/-! ## The minipool -/

structure EventMap where
  toOrderedMap : OrderedMap Bytes ParsedEvent
  keyed : ∀ p ∈ toOrderedMap.entries, p.1 = p.2.hash
  deriving DecidableEq

namespace EventMap

def empty : EventMap := ⟨OrderedMap.empty, by simp [OrderedMap.empty]⟩

def values (m : EventMap) : List ParsedEvent := m.toOrderedMap.values

def len (m : EventMap) : Nat := m.toOrderedMap.len

def hashes (m : EventMap) : List Bytes := m.values.map (·.hash)

def get (m : EventMap) (hash : Bytes) : Option ParsedEvent := m.toOrderedMap.get hash

def set (m : EventMap) (e : ParsedEvent) : Res EventMap :=
  match h : m.toOrderedMap.set e.hash e with
  | .ok m' => .ok ⟨m', by
      rw [(OrderedMap.set_eq_ok.1 h).2]
      exact forall_mem_append.2 ⟨m.keyed, forall_mem_singleton.2 rfl⟩⟩
  | .error err => .error err
  | .panic msg => .panic msg

def filter (m : EventMap) (p : Bytes → Bool) : EventMap :=
  ⟨m.toOrderedMap.filter p, fun q hq => m.keyed q (mem_filter.1 hq).1⟩

theorem keys_eq_hashes (m : EventMap) : m.toOrderedMap.keys = m.hashes := by
  simp only [hashes, values, OrderedMap.values, map_map]
  exact map_congr_left fun p hp => m.keyed p hp

theorem hashes_nodup (m : EventMap) : m.hashes.Nodup :=
  m.keys_eq_hashes ▸ m.toOrderedMap.keys_nodup

@[simp] theorem values_empty : EventMap.empty.values = [] := rfl

theorem length_values (m : EventMap) : m.values.length = m.len := rfl

variable {m : EventMap}

theorem ext_values {m' : EventMap} (h : m.values = m'.values) : m = m' := by
  have hentries : ∀ m : EventMap, m.toOrderedMap.entries = m.values.map fun e => (e.hash, e) := by
    intro m
    simp only [values, OrderedMap.values, map_map]
    refine (map_id _).symm.trans (map_congr_left fun p hp => ?_)
    simp [← m.keyed p hp]
  have : m.toOrderedMap = m'.toOrderedMap := OrderedMap.ext (by rw [hentries, hentries, h])
  cases m
  cases m'
  simpa using this

variable {e : ParsedEvent}

theorem set_of_notMem (h : e.hash ∉ m.hashes) :
    ∃ m', m.set e = .ok m' ∧ m'.values = m.values ++ [e] := by
  obtain ⟨_, hom, hentries⟩ :=
    OrderedMap.set_of_notMem (m.keys_eq_hashes ▸ h)
  unfold set
  split
  · rename_i m' hm'
    rw [hom] at hm'
    cases hm'
    exact ⟨_, rfl, by simp [values, OrderedMap.values, hentries]⟩
  · rename_i err herr
    simp [hom] at herr
  · rename_i msg hmsg
    simp [hom] at hmsg

theorem set_of_mem (h : e.hash ∈ m.hashes) : m.set e = .panic "key already exists" := by
  have hset : m.toOrderedMap.set e.hash e = .panic "key already exists" :=
    OrderedMap.set_of_mem (m.keys_eq_hashes ▸ h)
  unfold set
  split
  · rename_i m' hm'
    simp [hset] at hm'
  · rename_i err herr
    simp [hset] at herr
  rename_i msg hmsg
  rw [hset] at hmsg
  cases hmsg
  rfl

theorem set_eq_ok {m' : EventMap} :
    m.set e = .ok m' ↔ e.hash ∉ m.hashes ∧ m'.values = m.values ++ [e] := by
  by_cases h : e.hash ∈ m.hashes
  · simp [set_of_mem h, h]
  obtain ⟨_, hset, hvalues⟩ := set_of_notMem h
  rw [hset]
  simp only [Res.ok.injEq, h, not_false_eq_true, true_and]
  constructor
  · rintro rfl
    exact hvalues
  · intro h'
    exact ext_values (hvalues.trans h'.symm)

theorem values_filter (m : EventMap) (p : Bytes → Bool) :
    (m.filter p).values = m.values.filter (p ·.hash) := by
  simp only [values, OrderedMap.values, filter_map]
  congr 1
  exact filter_congr fun q hq => by simp [m.keyed q hq]

theorem get_of_mem (h : e ∈ m.values) : m.get e.hash = some e := by
  obtain ⟨p, hp, rfl⟩ := mem_map.1 h
  refine OrderedMap.get_of_mem ?_
  rw [← m.keyed p hp]
  exact hp

end EventMap

structure MinipoolInstance where
  events : EventMap
  generation : Int
  deriving DecidableEq

def MinipoolInstance.copyAndAddEvent (m : MinipoolInstance) (e : ParsedEvent) :
    Res MinipoolInstance := do
  let events ← m.events.set e
  .ok { m with events := events }

def MinipoolInstance.nextSlotNumber (m : MinipoolInstance) : Nat := m.events.len

end River.Node
