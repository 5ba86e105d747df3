/-
  The in-memory view of a stream (core/node/events/stream_view.go).

  The snapshot is a pointer into a header event; `SnapshotPtr` keeps the identity of that event
  next to the content.
-/

import River.Node.Events.Miniblock
import River.Node.Storage.PgStore

namespace River.Node

/-! ## Configuration -/

structure RecencyConstraintsConfig where
  ageSeconds : Int
  generations : Int

structure StreamConfig where
  recencyConstraints : RecencyConstraintsConfig
  defaultMinEventsPerSnapshot : Int
  minEventsPerSnapshot : Fin 256 → Option Int
  streamMembershipLimits : Fin 256 → Option Int
  mediaMaxChunkSize : Int

def StreamConfig.getMembershipLimit (cfg : StreamConfig) (streamId : StreamId) : Int :=
  (streamId.bytes.head?.bind cfg.streamMembershipLimits).getD 0

/-! ## Views -/

structure SnapshotPtr where
  ref : Nat
  value : Snapshot
  deriving DecidableEq

def MiniblockInfo.snapshot? (b : MiniblockInfo) : Option SnapshotPtr :=
  b.header.snapshot.map (⟨b.headerEvent.ref, ·⟩)

structure StreamView where
  streamId : StreamId
  blocks : List MiniblockInfo
  blocks_ne : blocks ≠ []
  minipool : MinipoolInstance
  snapshot : SnapshotPtr
  snapshotIndex : Nat
  snapshotIndex_lt : snapshotIndex < blocks.length
  deriving DecidableEq

def streamIdOfSnapshot (s : Snapshot) : Res StreamId :=
  match s.getInceptionPayload with
  | none => .panic "nil pointer dereference"
  | some i =>
    match StreamId.fromBytes i.getStreamId with
    | .ok id => .ok id
    | .error _ => riverError .streamBadEvent "bad streamId"
    | .panic m => .panic m

def parseMiniblocks (C : Crypto) : List Miniblock → Int → Nat → Res (List MiniblockInfo)
  | [], _, _ => .ok []
  | pb :: pbs, lastMiniblockNumber, ref => do
    let miniblock ← newMiniblockInfoFromProto C pb ⟨lastMiniblockNumber + 1, false⟩ ref
    let miniblocks ← parseMiniblocks C pbs miniblock.header.miniblockNum (ref + pb.refCount)
    .ok (miniblock :: miniblocks)

def parseMinipool (C : Crypto) : List Envelope → Nat → EventMap → Res EventMap
  | [], _, events => .ok events
  | envelope :: envelopes, ref, events => do
    let parsed ← parseEvent C envelope ref
    let events ← events.set parsed
    parseMinipool C envelopes (ref + 1) events

def blocksRefCount (pbs : List Miniblock) : Nat := (pbs.map Miniblock.refCount).sum

def assembleStreamView (C : Crypto) (blocks : List MiniblockInfo) (hne : blocks ≠ [])
    (snapshot : SnapshotPtr) (snapshotIndex : Nat) (hlt : snapshotIndex < blocks.length)
    (envelopes : List Envelope) (ref : Nat) : Res StreamView := do
  let streamId ← streamIdOfSnapshot snapshot.value
  let events ← parseMinipool C envelopes ref EventMap.empty
  .ok ⟨streamId, blocks, hne, ⟨events, (blocks.getLast hne).header.miniblockNum + 1⟩,
    snapshot, snapshotIndex, hlt⟩

def makeStreamView (C : Crypto)
    (streamData : Storage.ReadStreamFromLastSnapshotResult Miniblock Envelope) (ref : Nat) :
    Res StreamView := do
  if streamData.miniblocks.length ≤ 0 then riverError .streamEmpty "no blocks"
  else
    let miniblocks ← parseMiniblocks C streamData.miniblocks (-2) ref
    if hlt : miniblocks.findIdx (·.header.snapshot.isSome) < miniblocks.length then
      let snapshotIndex := miniblocks.findIdx (·.header.snapshot.isSome)
      match (miniblocks.get ⟨snapshotIndex, hlt⟩).snapshot? with
      | none => riverError .streamBadEvent "no snapshot"
      | some snapshot =>
        assembleStreamView C miniblocks (List.ne_nil_of_length_pos (Nat.zero_lt_of_lt hlt))
          snapshot snapshotIndex hlt streamData.minipoolEnvelopes
          (ref + blocksRefCount streamData.miniblocks)
    else riverError .streamBadEvent "no snapshot"

def remoteSnapshotIndex : List MiniblockInfo → Nat → Nat → Nat
  | [], _, snapshotIndex => snapshotIndex
  | b :: bs, i, snapshotIndex =>
    remoteSnapshotIndex bs (i + 1) (if b.header.snapshot.isSome then i else snapshotIndex)

theorem remoteSnapshotIndex_lt (bs : List MiniblockInfo) {i snapshotIndex : Nat}
    (h : snapshotIndex < i + bs.length) :
    remoteSnapshotIndex bs i snapshotIndex < i + bs.length := by
  induction bs generalizing i snapshotIndex with
  | nil => exact h
  | cons b bs ih =>
    rw [List.length_cons] at h ⊢
    have hnext : (if b.header.snapshot.isSome then i else snapshotIndex) < i + 1 + bs.length := by
      split <;> omega
    have := ih hnext
    rw [remoteSnapshotIndex]
    omega

def makeRemoteStreamView (C : Crypto) (miniblocks : List Miniblock) (events : List Envelope)
    (ref : Nat) : Res StreamView := do
  if miniblocks.length ≤ 0 then riverError .streamEmpty "no blocks"
  else
    let blocks ← parseMiniblocks C miniblocks (-2) ref
    if hne : blocks = [] then .panic "index out of range"
    else
      match (blocks.head hne).snapshot? with
      | none => riverError .streamBadEvent "no snapshot"
      | some snapshot =>
        have hlt : remoteSnapshotIndex blocks 0 0 < blocks.length := by
          have hpos : 0 < 0 + blocks.length := by
            rw [Nat.zero_add]
            exact List.length_pos_of_ne_nil hne
          have := remoteSnapshotIndex_lt blocks hpos
          omega
        assembleStreamView C blocks hne snapshot (remoteSnapshotIndex blocks 0 0) hlt events
          (ref + blocksRefCount miniblocks)

namespace StreamView

/-! ## Adding events -/

variable (r : StreamView)

def lastBlock : MiniblockInfo := r.blocks.getLast r.blocks_ne

def copyAndAddEvent (event : ParsedEvent) : Res StreamView :=
  if event.event.getMiniblockHeader ≠ none then
    riverError .badEvent "streamViewImpl: block event not allowed"
  else do
    let minipool ← r.minipool.copyAndAddEvent event
    .ok { r with minipool := minipool }

/-! ## Proposals -/

variable (cfg : StreamConfig)

def getMinEventsPerSnapshot : Int :=
  match r.streamId.bytes.head?.bind cfg.minEventsPerSnapshot with
  | some value => value
  | none =>
    if cfg.defaultMinEventsPerSnapshot ≠ 0 then cfg.defaultMinEventsPerSnapshot else 100

def enoughEvents (minEventsPerSnapshot : Int) : List MiniblockInfo → Int → Bool
  | [], _ => false
  | block :: blocks, count =>
    if block.header.snapshot.isSome then false
    else if count + block.events.length ≥ minEventsPerSnapshot then true
    else enoughEvents minEventsPerSnapshot blocks (count + block.events.length)

def shouldSnapshot : Bool :=
  let minEventsPerSnapshot := r.getMinEventsPerSnapshot cfg
  if (r.minipool.events.len : Int) ≥ minEventsPerSnapshot then true
  else enoughEvents minEventsPerSnapshot r.blocks.reverse r.minipool.events.len

def proposeNextMiniblock (forceSnapshot : Bool) : Option MiniblockProposal :=
  if r.minipool.events.len = 0 ∧ forceSnapshot = false then none
  else some ⟨r.minipool.events.hashes, r.minipool.generation, r.lastBlock.hash,
    forceSnapshot || r.shouldSnapshot cfg⟩

/-! ## Headers -/

def bytesToHash (b : Bytes) : Bytes :=
  let b := b.drop (b.length - 32)
  List.replicate (32 - b.length) 0 ++ b

def proposedEvents (pool : EventMap) : List Bytes → Res (List ParsedEvent)
  | [] => .ok []
  | h :: hashes =>
    match pool.get (bytesToHash h) with
    | none => riverError .minipoolMissingEvents "proposal event not found in minipool"
    | some e => do
      let events ← proposedEvents pool hashes
      .ok (e :: events)

def updateSnapshotWith (miniblockNum : Int) :
    List ParsedEvent → Int → Snapshot × Heap → Res (Snapshot × Heap)
  | [], _, sh => .ok sh
  | e :: es, eventNum, (s, heap) => do
    let (sh, _) ← updateSnapshot s heap e miniblockNum eventNum
    updateSnapshotWith miniblockNum es (eventNum + 1) sh

def updateSnapshotWithBlocks : List MiniblockInfo → Snapshot × Heap → Res (Snapshot × Heap)
  | [], sh => .ok sh
  | b :: bs, sh => do
    let sh ← updateSnapshotWith b.header.miniblockNum b.events b.header.eventNumOffset sh
    updateSnapshotWithBlocks bs sh

def nextEventNumOffset : Int :=
  r.lastBlock.header.eventNumOffset + r.lastBlock.events.length + 1

def nextSnapshot (heap : Heap) (events : List ParsedEvent) : Res (Snapshot × Heap) := do
  let sh ← updateSnapshotWithBlocks (r.blocks.drop (r.snapshotIndex + 1))
    (r.snapshot.value.clone heap, heap)
  updateSnapshotWith (r.lastBlock.header.miniblockNum + 1) events r.nextEventNumOffset sh

def prevSnapshotMiniblockNum : Int :=
  if r.lastBlock.header.snapshot.isSome then r.lastBlock.header.miniblockNum
  else r.lastBlock.header.prevSnapshotMiniblockNum

def makeMiniblockHeader (heap : Heap) (proposal : MiniblockProposal) (now : Timestamp) :
    Res ((MiniblockHeader × List ParsedEvent) × Heap) :=
  if r.minipool.generation ≠ proposal.newMiniblockNum ∨
      proposal.prevMiniblockHash ≠ r.lastBlock.hash then
    riverError .streamLastBlockMismatch "proposal generation or hash mismatch"
  else do
    let events ← proposedEvents r.minipool.events proposal.hashes
    let (snapshot, heap) ←
      if proposal.shouldSnapshot then do
        let (s, heap) ← r.nextSnapshot heap events
        .ok (some s, heap)
      else .ok (none, heap)
    .ok ((⟨r.lastBlock.header.miniblockNum + 1, r.lastBlock.hash,
      some (nextMiniblockTimestamp r.lastBlock.header.timestamp now), events.map (·.hash),
      snapshot, r.nextEventNumOffset, r.prevSnapshotMiniblockNum⟩, events), heap)

/-! ## Applying blocks -/

def takeBlockEvents : List ParsedEvent → List Bytes → Res (List Bytes)
  | [], remaining => .ok remaining
  | e :: es, remaining =>
    if e.hash ∈ remaining then takeBlockEvents es (remaining.erase e.hash)
    else riverError .badBlock "streamViewImpl: block event not found"

def trimIndex : Int :=
  max 0 (r.blocks.length - cfg.recencyConstraints.generations)

def copyAndApplyBlock (miniblock : MiniblockInfo) (cfg : StreamConfig) : Res StreamView :=
  if miniblock.header.miniblockNum ≠ r.lastBlock.header.miniblockNum + 1 then
    riverError .badBlock "streamViewImpl: block number mismatch"
  else if r.lastBlock.hash ≠ miniblock.header.prevMiniblockHash then
    riverError .badBlock "streamViewImpl: block hash mismatch"
  else do
    let remaining ← takeBlockEvents miniblock.events r.minipool.events.hashes
    let minipool : MinipoolInstance :=
      ⟨r.minipool.events.filter (· ∈ remaining), miniblock.header.miniblockNum + 1⟩
    match miniblock.snapshot? with
    | none =>
      .ok ⟨r.streamId, r.blocks ++ [miniblock], by simp, minipool, r.snapshot, r.snapshotIndex, by
        rw [List.length_append]
        exact Nat.lt_add_right _ r.snapshotIndex_lt⟩
    | some snapshot =>
      if r.trimIndex cfg > r.blocks.length then .panic "slice bounds out of range"
      else
        let startIndex := (r.trimIndex cfg).toNat
        .ok ⟨r.streamId, r.blocks.drop startIndex ++ [miniblock], by simp, minipool, snapshot,
          r.blocks.length - startIndex, by
            rw [List.length_append, List.length_drop]
            exact Nat.lt_succ_self _⟩

/-! ## Reading events -/

def indexOfMiniblockWithNum (r : StreamView) (miniblockNum : Int) : Res Nat :=
  let diff := miniblockNum - (r.blocks.head r.blocks_ne).header.miniblockNum
  if 0 ≤ diff ∧ diff < r.blocks.length then
    match r.blocks[diff.toNat]? with
    | none => .panic "index out of range"
    | some b =>
      if b.header.miniblockNum ≠ miniblockNum then
        riverError .internal "indexOfMiniblockWithNum block number mismatch"
      else .ok diff.toNat
  else riverError .invalidArgument "indexOfMiniblockWithNum index not found"

def eventsFrom (startBlock : Nat) : List ParsedEvent :=
  (r.blocks.drop startBlock).flatMap MiniblockInfo.allEvents ++ r.minipool.events.values

def forEachEvent {σ : Type} (startBlock : Nat) (op : σ → ParsedEvent → Res σ) (state : σ) : Res σ :=
  if startBlock > r.blocks.length then
    riverError .invalidArgument "iterateEvents: bad startBlock"
  else (r.eventsFrom startBlock).foldlM op state

def minipoolEnvelopes : List Envelope := r.minipool.events.values.map (·.envelope)

def miniblocksFromLastSnapshot : List Miniblock :=
  (r.blocks.drop r.snapshotIndex).map (·.proto)

def syncCookie (localNodeAddress : Bytes) : SyncCookie :=
  ⟨localNodeAddress, r.streamId.bytes, r.minipool.generation, r.minipool.events.len,
    r.lastBlock.hash⟩

/-! ## Validation -/

def isRecentBlock (cfg : RecencyConstraintsConfig) (block : MiniblockInfo) (currentTime : Int) :
    Bool :=
  let maxAgeDuration :=
    if cfg.ageSeconds * 1000000000 = 0 then 5 * 1000000000 else cfg.ageSeconds * 1000000000
  currentTime - (block.header.timestamp.map Timestamp.asTime).getD 0 ≤ maxAgeDuration

def blocksAfter (hash : Bytes) : List MiniblockInfo → Option (List MiniblockInfo)
  | [] => none
  | b :: bs =>
    match blocksAfter hash bs with
    | some after => some after
    | none => if b.hash = hash then some bs else none

def validateNextEvent (cfg : RecencyConstraintsConfig) (parsedEvent : ParsedEvent)
    (currentTime : Int) : Res Unit :=
  match blocksAfter (parsedEvent.event.prevMiniblockHash.getD []) r.blocks with
  | none => riverError .badPrevMiniblockHash "prevMiniblockHash not found in recent blocks"
  | some after =>
    if after.head?.any (fun next => !isRecentBlock cfg next currentTime) then
      riverError .badPrevMiniblockHash "prevMiniblockHash did not reference a recent block"
    else if after.any (fun b => b.events.any (·.hash = parsedEvent.hash)) then
      riverError .duplicateEvent "event already exists in block"
    else if r.minipool.events.values.any (·.hash = parsedEvent.hash) then
      riverError .duplicateEvent "event already exists in minipool"
    else .ok ()

/-! ## Statistics -/

structure Stats where
  firstMiniblockNum : Int
  lastMiniblockNum : Int
  eventsInMiniblocks : Nat
  snapshotsInMiniblocks : Nat
  eventsInMinipool : Nat
  totalEventsEver : Int

def countEvents (blocks : List MiniblockInfo) : Nat := (blocks.map (·.events.length + 1)).sum

def getStats : Stats where
  firstMiniblockNum := (r.blocks.head r.blocks_ne).num
  lastMiniblockNum := r.lastBlock.num
  eventsInMiniblocks := countEvents r.blocks
  snapshotsInMiniblocks := r.blocks.countP (·.header.snapshot.isSome)
  eventsInMinipool := r.minipool.events.len
  totalEventsEver := (r.blocks.get ⟨r.snapshotIndex, r.snapshotIndex_lt⟩).header.eventNumOffset +
    countEvents (r.blocks.drop r.snapshotIndex) + r.minipool.events.len

end StreamView

end River.Node
