/-
  A stream of the node (core/node/events/stream.go): the cached view, its subscribers and the
  store.

  Every method runs under the stream's lock and is one function here. A panic ends the call but
  not the node. `Faults` says which storage calls of a method fail; a failed call commits nothing.
-/

import River.Node.Events.StreamView
import River.Node.Storage.Refinement

namespace River.Node

abbrev Store := Storage.Db StreamId Bytes Miniblock Envelope

structure RegistryRecord where
  isLocal : Bool
  lastMiniblockNum : Nat
  genesisMiniblock : Miniblock

structure StreamParams where
  crypto : Crypto
  cfg : StreamConfig
  streamId : StreamId
  createTableSuffix : StreamId → String
  getStreamWithGenesis : Res RegistryRecord

structure StreamImpl where
  view : Option StreamView
  receivers : List Nat
  db : Store
  heap : Heap
  nextRef : Nat

structure Faults where
  read : Bool
  write : Bool

abbrev Update := Nat × StreamAndCookie

structure Outcome where
  result : Res Unit
  updates : List Update

namespace Outcome

def done : Outcome := ⟨.ok (), []⟩

def failed (e : RiverError) : Outcome := ⟨.error e, []⟩

def panicked (m : String) : Outcome := ⟨.panic m, []⟩

def onSuccess {α : Type} (o : Outcome) (l : List α) : List α :=
  match o.result with
  | .ok () => l
  | _ => []

theorem onSuccess_of_isOk_eq_false {α : Type} {res : Res Unit} (h : res.isOk = false)
    (updates : List Update) (l : List α) : (⟨res, updates⟩ : Outcome).onSuccess l = [] := by
  cases res with
  | ok u => cases h
  | _ => rfl

end Outcome

namespace StreamImpl

variable (p : StreamParams)

/-! ## Loading -/

variable (s : StreamImpl)

def store (c : Storage.Call StreamId Bytes Miniblock Envelope) (fault : Bool) :
    StreamImpl × Res Unit :=
  let (db, r) := Storage.call p.createTableSuffix s.db (c, fault)
  ({ s with db := db }, r)

def readStream (fault : Bool) : Res (Storage.ReadStreamFromLastSnapshotResult Miniblock Envelope) :=
  if fault then riverError .dbOperationFailure "transaction failed"
  else Storage.readStreamFromLastSnapshotTx s.db p.streamId
    (max 0 (p.cfg.recencyConstraints.generations - 1))

def dataRefCount (data : Storage.ReadStreamFromLastSnapshotResult Miniblock Envelope) : Nat :=
  blocksRefCount data.miniblocks + data.minipoolEnvelopes.length

def setView (data : Storage.ReadStreamFromLastSnapshotResult Miniblock Envelope) :
    StreamImpl × Res StreamView :=
  match makeStreamView p.crypto data s.nextRef with
  | .ok view => ({ s with view := some view, nextRef := s.nextRef + dataRefCount data }, .ok view)
  | .error e => (s, .error e)
  | .panic m => (s, .panic m)

def initFromBlockchain (s : StreamImpl) (fault : Bool) : StreamImpl × Res StreamView :=
  match p.getStreamWithGenesis with
  | .error e => (s, .error e)
  | .panic m => (s, .panic m)
  | .ok record =>
    if record.isLocal = false then
      (s, riverError .internal "initFromBlockchain: Stream is not local")
    else if record.lastMiniblockNum > 0 then
      (s, riverError .internal "initFromBlockchain: Stream is past genesis")
    else
      match s.store p (.createStreamStorage p.streamId record.genesisMiniblock) fault with
      | (s, .ok ()) => s.setView p ⟨0, [record.genesisMiniblock], []⟩
      | (s, .error e) => (s, .error e)
      | (s, .panic m) => (s, .panic m)

def loadInternal (faults : Faults) : StreamImpl × Res StreamView :=
  match s.view with
  | some view => (s, .ok view)
  | none =>
    match s.readStream p faults.read with
    | .ok data => s.setView p data
    | .error e => if e.code = .notFound then s.initFromBlockchain p faults.write else (s, .error e)
    | .panic m => (s, .panic m)

def withView (faults : Faults) (f : StreamImpl → StreamView → StreamImpl × Outcome) :
    StreamImpl × Outcome :=
  match s.loadInternal p faults with
  | (s, .ok view) => f s view
  | (s, .error e) => (s, .failed e)
  | (s, .panic m) => (s, .panicked m)

/-! ## Events and blocks -/

def notifySubscribers (envelopes : List Envelope) (newSyncCookie : SyncCookie) : List Update :=
  s.receivers.map fun receiver => (receiver, ⟨envelopes, newSyncCookie, [], false⟩)

def publish (view : StreamView) (envelope : Envelope) : StreamImpl × Outcome :=
  ({ s with view := some view },
    ⟨.ok (), s.notifySubscribers [envelope] (view.syncCookie p.crypto.walletAddress)⟩)

def addEventImpl (event : ParsedEvent) (fault : Bool) (s : StreamImpl) (view : StreamView) :
    StreamImpl × Outcome :=
  match s.store p (.writeEvent p.streamId view.minipool.generation view.minipool.nextSlotNumber
    event.envelope) fault with
  | (s, .error e) => (s, .failed e)
  | (s, .panic m) => (s, .panicked m)
  | (s, .ok ()) =>
    match view.copyAndAddEvent event with
    | .ok newSV => s.publish p newSV event.envelope
    | .error e => (s, .failed e)
    | .panic m => (s, .panicked m)

def addEvent (event : ParsedEvent) (faults : Faults) : StreamImpl × Outcome :=
  s.withView p faults (addEventImpl p event faults.write)

variable (miniblock : MiniblockInfo)

def applyMiniblockImpl (fault : Bool) (s : StreamImpl) (view : StreamView) : StreamImpl × Outcome :=
  match view.copyAndApplyBlock miniblock p.cfg with
  | .error e => (s, .failed e)
  | .panic m => (s, .panicked m)
  | .ok newSV =>
    match s.store p (.promoteBlock p.streamId view.minipool.generation miniblock.hash
      miniblock.header.snapshot.isSome newSV.minipoolEnvelopes) fault with
    | (s, .error e) => (s, .failed e)
    | (s, .panic m) => (s, .panicked m)
    | (s, .ok ()) => s.publish p newSV miniblock.headerEvent.envelope

def applyMiniblock (faults : Faults) : StreamImpl × Outcome :=
  s.withView p faults (applyMiniblockImpl p miniblock faults.write)

def generateMiniblockProposal (forceSnapshot : Bool) : Option MiniblockProposal :=
  s.view.bind (·.proposeNextMiniblock p.cfg forceSnapshot)

def storeMiniblockCandidate (fault : Bool) : StreamImpl × Outcome :=
  match s.store p (.writeBlockProposal p.streamId miniblock.hash miniblock.num miniblock.proto)
    fault with
  | (s, r) => (s, ⟨r, []⟩)

def tryCleanup (expired : Bool) : StreamImpl :=
  match s.view with
  | none => s
  | some view =>
    if expired = true ∧ s.receivers = [] ∧ view.minipool.events.len = 0 then
      { s with view := none }
    else s

/-! ## Subscriptions -/

def syncReply (view : StreamView) (cookie : SyncCookie) : Res StreamAndCookie :=
  let next := view.syncCookie p.crypto.walletAddress
  match view.indexOfMiniblockWithNum cookie.minipoolGen with
  | .panic m => .panic m
  | .error _ =>
    .ok ⟨view.minipoolEnvelopes, next, view.miniblocksFromLastSnapshot, true⟩
  | .ok miniblockIndex =>
    if miniblockIndex > view.blocks.length then .panic "Should never happen: Stream.Sub"
    else .ok ⟨(view.eventsFrom miniblockIndex).map (·.envelope), next, [], false⟩

def subImpl (cookie : SyncCookie) (receiver : Nat) (s : StreamImpl) (view : StreamView) :
    StreamImpl × Outcome :=
  if cookie.minipoolGen = view.minipool.generation then
    if cookie.minipoolSlot > view.minipool.events.len then
      (s, .failed ⟨.badSyncCookie, "Stream.Sub: bad slot"⟩)
    else
      let envelopes := (view.minipool.events.values.drop cookie.minipoolSlot.toNat).map (·.envelope)
      ({ s with receivers := s.receivers.insert receiver },
        ⟨.ok (), [(receiver, ⟨envelopes, view.syncCookie p.crypto.walletAddress, [], false⟩)]⟩)
  else
    let s := { s with receivers := s.receivers.insert receiver }
    match syncReply p view cookie with
    | .ok reply => (s, ⟨.ok (), [(receiver, reply)]⟩)
    | .error e => (s, .failed e)
    | .panic m => (s, .panicked m)

def sub (cookie : SyncCookie) (receiver : Nat) (faults : Faults) : StreamImpl × Outcome :=
  if cookie.nodeAddress ≠ p.crypto.walletAddress then
    (s, .failed ⟨.badSyncCookie, "cookies is not for this node"⟩)
  else if p.streamId.equalsBytes cookie.streamId = false then
    (s, .failed ⟨.badSyncCookie, "bad stream id"⟩)
  else if cookie.minipoolSlot < 0 then
    (s, .failed ⟨.badSyncCookie, "bad slot"⟩)
  else s.withView p faults (subImpl p cookie receiver)

def unsub (receiver : Nat) : StreamImpl :=
  { s with receivers := s.receivers.erase receiver }

def forceFlush : StreamImpl := { s with view := none, receivers := [] }

end StreamImpl

end River.Node
