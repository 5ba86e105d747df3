/-
  One stream of a node with everything that acts on it (core/node/rpc/add_event.go, node2node.go,
  core/node/events/miniblock_producer.go and the proposal part of stream.go).

  Each critical section of a request is an action of its own. Clocks, salts, storage faults and
  the answers of the registry and of other streams are arguments of the actions.
-/

import River.Node.Events.Stream
import River.Node.Rules.CanAddEvent

namespace River.Node

open Storage.Db

/-! ## State -/

inductive RequestStatus where
  | validating | adding | finished
  deriving DecidableEq

structure Request where
  event : ParsedEvent
  view : StreamView
  status : RequestStatus

structure NodeState where
  stream : StreamImpl
  requests : List Request
  proposals : List MiniblockProposal
  headers : List (MiniblockHeader × List ParsedEvent)
  miniblocks : List MiniblockInfo

structure Answers where
  currentTime : Int
  validNodeAddresses : List Bytes
  entitled : Bool
  parentAdded : Bool

inductive Action where
  /-- `AddEvent` request: `ParseEvent` and `GetStream`. -/
  | getStream (envelope : Envelope) (faults : Faults)
  /-- `addParsedEvent`: `CanAddEvent`, `IsEntitled` and the parent event. -/
  | canAddEvent (request : Nat) (answers : Answers)
  /-- `addParsedEvent`: `stream.AddEvent`. -/
  | addEvent (request : Nat) (faults : Faults)
  /-- `NewEventReceived`: the event of another node, without validation. -/
  | newEventReceived (envelope : Envelope) (faults : Faults)
  | generateMiniblockProposal (forceSnapshot : Bool)
  | makeMiniblockHeader (proposal : Nat) (now : Timestamp)
  /-- `MakeParsedEventWithPayload` and `NewMiniblockInfoFromParsed`. -/
  | makeMiniblock (header : Nat) (salt : Bytes) (epochMillis : Int)
  | storeMiniblockCandidate (miniblock : Nat) (fault : Bool)
  | applyMiniblock (miniblock : Nat) (faults : Faults)
  | tryCleanup (expired : Bool)
  | forceFlush
  | sub (cookie : SyncCookie) (receiver : Nat) (faults : Faults)
  | unsub (receiver : Nat)

def Request.validate (p : StreamParams) (r : Request) (heap : Heap) (a : Answers) :
    Res (Option Rules.Requirements) × Heap :=
  Rules.canAddEvent ⟨p.cfg, a.validNodeAddresses, a.currentTime, r.view, r.event⟩ heap

def Answers.allow (a : Answers) (required : Rules.Requirements) : Bool :=
  (required.1.isNone || a.entitled) && (required.2.isNone || a.parentAdded)

/-! ## Steps -/

namespace NodeState

variable (p : StreamParams) (s : NodeState)

def allocRef : NodeState :=
  { s with stream := { s.stream with nextRef := s.stream.nextRef + 1 } }

def parse (envelope : Envelope) : NodeState × Res ParsedEvent :=
  (s.allocRef, parseEvent p.crypto envelope s.stream.nextRef)

def withStream (x : StreamImpl × Outcome) : NodeState × Outcome :=
  ({ s with stream := x.1 }, x.2)

def getStream (envelope : Envelope) (faults : Faults) : NodeState × Outcome :=
  match s.parse p envelope with
  | (s, .error e) => (s, .failed e)
  | (s, .panic m) => (s, .panicked m)
  | (s, .ok event) =>
    match s.stream.loadInternal p faults with
    | (stream, .error e) => ({ s with stream := stream }, .failed e)
    | (stream, .panic m) => ({ s with stream := stream }, .panicked m)
    | (stream, .ok view) =>
      ({ s with stream := stream, requests := s.requests ++ [⟨event, view, .validating⟩] }, .done)

def canAddEvent (i : Nat) (a : Answers) : NodeState × Outcome :=
  match s.requests[i]? with
  | none => (s, .done)
  | some r =>
    if r.status ≠ .validating then (s, .done)
    else
      let (res, heap) := r.validate p s.stream.heap a
      let finish (status : RequestStatus) : NodeState :=
        { s with
          stream := { s.stream with heap := heap }
          requests := s.requests.set i { r with status := status } }
      match res with
      | .error e => (finish .finished, .failed e)
      | .panic m => (finish .finished, .panicked m)
      | .ok none => (finish .finished, .done)
      | .ok (some required) =>
        if a.allow required then (finish .adding, .done)
        else (finish .finished, .failed ⟨.permissionDenied, "not entitled, or no parent event"⟩)

def addEvent (i : Nat) (faults : Faults) : NodeState × Outcome :=
  match s.requests[i]? with
  | none => (s, .done)
  | some r =>
    if r.status ≠ .adding then (s, .done)
    else
      ({ s with requests := s.requests.set i { r with status := .finished } } :
        NodeState).withStream
        (s.stream.addEvent p r.event faults)

def newEventReceived (envelope : Envelope) (faults : Faults) : NodeState × Outcome :=
  match s.parse p envelope with
  | (s, .error e) => (s, .failed e)
  | (s, .panic m) => (s, .panicked m)
  | (s, .ok event) => s.withStream (s.stream.addEvent p event faults)

def makeMiniblockHeader (i : Nat) (now : Timestamp) : NodeState × Outcome :=
  match s.proposals[i]?, s.stream.view with
  | some proposal, some view =>
    match view.makeMiniblockHeader s.stream.heap proposal now with
    | .error e => (s, .failed e)
    | .panic m => (s, .panicked m)
    | .ok (header, heap) =>
      ({ s with stream := { s.stream with heap := heap }, headers := s.headers ++ [header] }, .done)
  | _, _ => (s, .done)

def headerEvent (header : MiniblockHeader) (salt : Bytes) (epochMillis : Int) : ParsedEvent :=
  makeParsedEventWithPayload p.crypto s.stream.heap (.miniblockHeader header)
    (some header.prevMiniblockHash) salt epochMillis s.stream.nextRef

def makeMiniblock (i : Nat) (salt : Bytes) (epochMillis : Int) : NodeState × Outcome :=
  match s.headers[i]? with
  | none => (s, .done)
  | some (header, events) =>
    match newMiniblockInfoFromParsed (s.headerEvent p header salt epochMillis) events with
    | .error e => (s, .failed e)
    | .panic m => (s, .panicked m)
    | .ok miniblock =>
      ({ s.allocRef with miniblocks := s.miniblocks ++ [miniblock] }, .done)

def step : Action → NodeState × Outcome
  | .getStream envelope faults => s.getStream p envelope faults
  | .canAddEvent i a => s.canAddEvent p i a
  | .addEvent i faults => s.addEvent p i faults
  | .newEventReceived envelope faults => s.newEventReceived p envelope faults
  | .generateMiniblockProposal forceSnapshot =>
    ({ s with proposals :=
      s.proposals ++ (s.stream.generateMiniblockProposal p forceSnapshot).toList },
      .done)
  | .makeMiniblockHeader i now => s.makeMiniblockHeader i now
  | .makeMiniblock i salt epochMillis => s.makeMiniblock p i salt epochMillis
  | .storeMiniblockCandidate i fault =>
    match s.miniblocks[i]? with
    | none => (s, .done)
    | some miniblock => s.withStream (s.stream.storeMiniblockCandidate p miniblock fault)
  | .applyMiniblock i faults =>
    match s.miniblocks[i]? with
    | none => (s, .done)
    | some miniblock => s.withStream (s.stream.applyMiniblock p miniblock faults)
  | .tryCleanup expired => s.withStream (s.stream.tryCleanup expired, .done)
  | .forceFlush => s.withStream (s.stream.forceFlush, .done)
  | .sub cookie receiver faults => s.withStream (s.stream.sub p cookie receiver faults)
  | .unsub receiver => s.withStream (s.stream.unsub receiver, .done)

def hashed : Action → List EventBytes
  | .getStream envelope _ => [envelope.event]
  | .newEventReceived envelope _ => [envelope.event]
  | .makeMiniblock i salt epochMillis =>
    (s.headers[i]?.map fun h => (s.headerEvent p h.1 salt epochMillis).envelope.event).toList
  | _ => []

def adding : Action → Option ParsedEvent
  | .addEvent i _ =>
    match s.requests[i]? with
    | none => none
    | some r => if r.status = .adding then some r.event else none
  | .newEventReceived envelope _ =>
    match parseEvent p.crypto envelope s.stream.nextRef with
    | .ok event => some event
    | _ => none
  | _ => none

def accepted (a : Action) : List Envelope :=
  match s.adding p a with
  | none => []
  | some e => (s.step p a).2.onSuccess [e.envelope]

def applied : Action → List Miniblock
  | .applyMiniblock i faults =>
    match s.miniblocks[i]? with
    | none => []
    | some b => (s.stream.applyMiniblock p b faults).2.onSuccess [b.proto]
  | _ => []

end NodeState

/-- A node that serves one stream. -/
def streamMachine (p : StreamParams) : Lib.Machine NodeState Action Outcome := ⟨NodeState.step p⟩

inductive NodeState.Transition (p : StreamParams) (s : NodeState) : Action → NodeState → Prop
  /-- What the action names is not there or not due, or its call fails and writes nothing. -/
  | idle (a : Action) : Transition p s a s
  /-- The envelope does not parse. -/
  | refused (a : Action) : Transition p s a s.allocRef
  | getStream {envelope : Envelope} {faults : Faults} {event : ParsedEvent}
    {requests : List Request}
      (hparse : parseEvent p.crypto envelope s.stream.nextRef = .ok event)
      (hrequests : requests = s.requests ∨
        ∃ view, (s.allocRef.stream.loadInternal p faults).2 = .ok view ∧
          requests = s.requests ++ [⟨event, view, .validating⟩]) :
      Transition p s (.getStream envelope faults)
        { s with stream := (s.allocRef.stream.loadInternal p faults).1, requests := requests }
  | canAddEvent {i : Nat} {a : Answers} {q : Request} {status : RequestStatus}
      (hq : s.requests[i]? = some q) (hdue : q.status = .validating)
      (hstatus : status = .adding →
        ∃ required, (q.validate p s.stream.heap a).1 = .ok (some required)) :
      Transition p s (.canAddEvent i a)
        { s with
          stream := { s.stream with heap := (q.validate p s.stream.heap a).2 }
          requests := s.requests.set i { q with status := status } }
  | addEvent {i : Nat} {faults : Faults} {q : Request} (hq : s.requests[i]? = some q)
      (hdue : q.status = .adding) :
      Transition p s (.addEvent i faults)
        { s with
          stream := (s.stream.addEvent p q.event faults).1
          requests := s.requests.set i { q with status := .finished } }
  | newEventReceived {envelope : Envelope} {faults : Faults} {event : ParsedEvent}
      (hparse : parseEvent p.crypto envelope s.stream.nextRef = .ok event) :
      Transition p s (.newEventReceived envelope faults)
        { s with stream := (s.allocRef.stream.addEvent p event faults).1 }
  | generateMiniblockProposal (forceSnapshot : Bool) :
      Transition p s (.generateMiniblockProposal forceSnapshot)
        { s with
          proposals := s.proposals ++ (s.stream.generateMiniblockProposal p forceSnapshot).toList }
  | makeMiniblockHeader {i : Nat} {now : Timestamp} {proposal : MiniblockProposal}
      {view : StreamView} {x : MiniblockHeader × List ParsedEvent} {heap : Heap}
      (hproposal : s.proposals[i]? = some proposal) (hview : s.stream.view = some view)
      (hmake : view.makeMiniblockHeader s.stream.heap proposal now = .ok (x, heap)) :
      Transition p s (.makeMiniblockHeader i now)
        { s with stream := { s.stream with heap := heap }, headers := s.headers ++ [x] }
  | makeMiniblock {i : Nat} {salt : Bytes} {epochMillis : Int}
      {x : MiniblockHeader × List ParsedEvent} {b : MiniblockInfo} (hx : s.headers[i]? = some x)
      (hmake : newMiniblockInfoFromParsed (s.headerEvent p x.1 salt epochMillis) x.2 = .ok b) :
      Transition p s (.makeMiniblock i salt epochMillis)
        { s.allocRef with miniblocks := s.miniblocks ++ [b] }
  | storeMiniblockCandidate {i : Nat} {fault : Bool} {b : MiniblockInfo}
      (hb : s.miniblocks[i]? = some b) :
      Transition p s (.storeMiniblockCandidate i fault)
        { s with stream := (s.stream.storeMiniblockCandidate p b fault).1 }
  | applyMiniblock {i : Nat} {faults : Faults} {b : MiniblockInfo}
      (hb : s.miniblocks[i]? = some b) :
      Transition p s (.applyMiniblock i faults)
        { s with stream := (s.stream.applyMiniblock p b faults).1 }
  | tryCleanup (expired : Bool) :
      Transition p s (.tryCleanup expired) { s with stream := s.stream.tryCleanup expired }
  | forceFlush : Transition p s .forceFlush { s with stream := s.stream.forceFlush }
  | sub (cookie : SyncCookie) (receiver : Nat) (faults : Faults) :
      Transition p s (.sub cookie receiver faults)
        { s with stream := (s.stream.sub p cookie receiver faults).1 }
  | unsub (receiver : Nat) :
      Transition p s (.unsub receiver) { s with stream := s.stream.unsub receiver }

theorem NodeState.transition (p : StreamParams) (s : NodeState) (a : Action) :
    s.Transition p a ((streamMachine p).next s a) := by
  simp only [Lib.Machine.next, streamMachine]
  cases a with
  | getStream envelope faults =>
    simp only [step, getStream, parse]
    cases hparse : parseEvent p.crypto envelope s.stream.nextRef with
    | ok event =>
      simp only
      split
      all_goals
        rename_i stream _ heq
        obtain rfl : (s.allocRef.stream.loadInternal p faults).1 = stream := by rw [heq]
      · exact .getStream hparse (.inl rfl)
      · exact .getStream hparse (.inl rfl)
      · exact .getStream hparse (.inr ⟨_, by rw [heq], rfl⟩)
    | _ => exact .refused _
  | canAddEvent i a =>
    simp only [step, canAddEvent]
    cases hq : s.requests[i]? with
    | none => exact .idle _
    | some q =>
      simp only
      split
      · exact .idle _
      rename_i hdue
      -- only the answer that the event may be added leads to `adding`
      split
      · exact .canAddEvent hq (not_not.1 hdue) fun h => by cases h
      · exact .canAddEvent hq (not_not.1 hdue) fun h => by cases h
      · exact .canAddEvent hq (not_not.1 hdue) fun h => by cases h
      rename_i required hrequired
      split
      · exact .canAddEvent hq (not_not.1 hdue) fun _ => ⟨required, hrequired⟩
      · exact .canAddEvent hq (not_not.1 hdue) fun h => by cases h
  | addEvent i faults =>
    simp only [step, addEvent]
    cases hq : s.requests[i]? with
    | none => exact .idle _
    | some q =>
      simp only
      split
      · exact .idle _
      · rename_i hdue
        exact .addEvent hq (not_not.1 hdue)
  | newEventReceived envelope faults =>
    simp only [step, newEventReceived, parse]
    cases hparse : parseEvent p.crypto envelope s.stream.nextRef with
    | ok event => exact .newEventReceived hparse
    | _ => exact .refused _
  | generateMiniblockProposal forceSnapshot => exact .generateMiniblockProposal forceSnapshot
  | makeMiniblockHeader i now =>
    simp only [step, makeMiniblockHeader]
    split
    · rename_i proposal view hproposal hview
      cases hmake : view.makeMiniblockHeader s.stream.heap proposal now with
      | ok x => exact .makeMiniblockHeader hproposal hview hmake
      | _ => exact .idle _
    · exact .idle _
  | makeMiniblock i salt epochMillis =>
    simp only [step, makeMiniblock]
    cases hx : s.headers[i]? with
    | none => exact .idle _
    | some x =>
      simp only
      cases hmake : newMiniblockInfoFromParsed (s.headerEvent p x.1 salt epochMillis) x.2 with
      | ok b => exact .makeMiniblock hx hmake
      | _ => exact .idle _
  | storeMiniblockCandidate i fault =>
    simp only [step]
    cases hb : s.miniblocks[i]? with
    | none => exact .idle _
    | some b => exact .storeMiniblockCandidate hb
  | applyMiniblock i faults =>
    simp only [step]
    cases hb : s.miniblocks[i]? with
    | none => exact .idle _
    | some b => exact .applyMiniblock hb
  | tryCleanup expired => exact .tryCleanup expired
  | forceFlush => exact .forceFlush
  | sub cookie receiver faults => exact .sub cookie receiver faults
  | unsub receiver => exact .unsub receiver

/-! ## Runs -/

/-- A stream as it is created. -/
structure Genesis (p : StreamParams) where
  events : List ParsedEvent
  parsed : ∀ e ∈ events, authenticate p.crypto e.envelope = .ok e.event
  prevMiniblockHash_none : ∀ e ∈ events, e.event.prevMiniblockHash = none
  now : Timestamp
  salt : Bytes
  epochMillis : Int
  miniblock : Miniblock
  made : makeGenesisMiniblock p.crypto events now salt epochMillis = .ok miniblock
  streamId_eq : ∀ e, events.head? = some e →
    e.event.getInceptionPayload.map (·.getStreamId) = some p.streamId.bytes
  db : Store
  created : Storage.Represents db p.streamId (.create miniblock)

namespace Genesis

variable {p : StreamParams} (g : Genesis p)

def init : NodeState := ⟨⟨none, [], g.db, Heap.empty, 0⟩, [], [], [], []⟩

def hashed : List EventBytes := g.miniblock.events.map (·.event) ++ [g.miniblock.header.event]

def run (acts : List Action) : NodeState := (streamMachine p).exec g.init acts

def hashedBy (acts : List Action) : List EventBytes :=
  g.hashed ++ (streamMachine p).collect (NodeState.hashed p) g.init acts

end Genesis

/-- Bytes of the same hash are the same. -/
def Crypto.CollisionFree (C : Crypto) (bs : List EventBytes) : Prop :=
  ∀ a ∈ bs, ∀ b ∈ bs, C.riverHash a = C.riverHash b → a = b

instance (C : Crypto) (bs : List EventBytes) : Decidable (C.CollisionFree bs) :=
  inferInstanceAs (Decidable (∀ a ∈ bs, ∀ b ∈ bs, _))

/-! ## A small stream for concrete runs: the settings of the node's own user -/

def sampleStreamId : StreamId :=
  ⟨StreamType.userSettings.bin :: List.replicate 20 1 ++ List.replicate 11 0, by decide⟩

def sampleParams : StreamParams where
  crypto := .salted
  cfg := ⟨⟨11, 5⟩, 2, fun _ => none, fun _ => none, 500000⟩
  streamId := sampleStreamId
  createTableSuffix _ := "sample"
  getStreamWithGenesis := riverError .notFound "no such stream"

def sampleEnvelope (payload : Payload) (prevMiniblockHash : Option Bytes) (salt : Fin 256) :
    Envelope :=
  makeEnvelopeWithEvent .salted Heap.empty
    (makeStreamEvent .salted payload prevMiniblockHash [salt] 0)

def sampleInception : ParsedEvent :=
  let event :=
    makeStreamEvent .salted (.userSettings (.inception ⟨sampleStreamId.bytes, none⟩)) none [1] 0
  ⟨event, makeEnvelopeWithEvent .salted Heap.empty event, 0⟩

def sampleMiniblock : Miniblock :=
  match makeGenesisMiniblock .salted [sampleInception] ⟨1, 0⟩ [2] 0 with
  | .ok mb => mb
  | _ => ⟨[], default⟩

def sampleDb : Store :=
  match Storage.createStreamStorageTx (fun _ => "sample") empty sampleStreamId
    sampleMiniblock with
  | .ok db => db
  | _ => empty

def sampleGenesis : Genesis sampleParams where
  events := [sampleInception]
  parsed := by decide +kernel
  prevMiniblockHash_none := by decide +kernel
  now := ⟨1, 0⟩
  salt := [2]
  epochMillis := 0
  miniblock := sampleMiniblock
  made := by decide +kernel
  streamId_eq := by
    intro e he
    cases he
    decide +kernel
  db := sampleDb
  created := by
    have habs : Storage.Absent (empty : Store) sampleStreamId :=
      ⟨rfl, rfl, rfl, rfl, fun _ => rfl⟩
    have hok : Storage.createStreamStorageTx (fun _ => "sample") empty sampleStreamId
        sampleMiniblock = .ok sampleDb := by decide +kernel
    exact Storage.createStreamStorageTx_eq_ok habs hok

def sampleEvent (prevMiniblockHash : Option Bytes) (salt : Fin 256) : Envelope :=
  sampleEnvelope (.userSettings (.userBlock ⟨[salt], true, 0⟩)) prevMiniblockHash salt

end River.Node
