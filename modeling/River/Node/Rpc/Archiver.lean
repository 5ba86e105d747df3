/-
  The archiver (core/node/rpc/archiver.go).

  What the nodes answer, which storage calls fail and how, and when the process is restarted are
  arguments of the actions. The counters of the statistics and the queue of tasks are left out.
-/

import River.Node.Events.Chain
import River.Node.Nodes.StreamNodes
import River.Node.Rpc.StreamService
import River.Node.Storage.Archive

namespace River.Node

open River.Lib Function List Storage Option
open River.Contracts (Address)

/-! ## The archiver -/

inductive ArchivePhase where
  | idle
  /-- The store does not have the stream. -/
  | creating
  /-- In the loop, with the peer and the local copies of both counters. -/
  | looping (nodeAddr : Address) (mbsInDb mbsInContract : Int)
  deriving DecidableEq

structure ArchiveStream where
  nodes : StreamNodes
  numBlocksInContract : Int
  numBlocksInDb : Int
  phase : ArchivePhase

structure Archiver where
  db : Store
  streams : StreamId → Option ArchiveStream

structure ArchiverParams where
  crypto : Crypto
  createTableSuffix : StreamId → String
  readMiniblocksSize : Nat

def ArchiverParams.getReadMiniblocksSize (p : ArchiverParams) : Nat :=
  if p.readMiniblocksSize ≤ 0 then 100 else p.readMiniblocksSize

def numBlocksOf (lastMiniblockNum : Nat) : Int := Int.bmod (lastMiniblockNum + 1) (2 ^ 64)

def newArchiveStream (shuffle : Shuffle) (nn : List Address) (lastKnownMiniblock : Nat) :
    ArchiveStream where
  nodes := newStreamNodes shuffle nn 0
  numBlocksInContract := numBlocksOf lastKnownMiniblock
  numBlocksInDb := -1
  phase := .idle

inductive ArchiverAction where
  | addNewStream (id : StreamId) (shuffle : Shuffle) (nn : List Address) (lastKnownMiniblock : Nat)
  | onStreamPlacementUpdated (id : StreamId) (shuffle : Shuffle) (nodeAddress : Address)
      (isAdded : Bool)
  | onStreamLastMiniblockUpdated (id : StreamId) (lastMiniblockNum : Nat)
  /-- A run begins: `GetMaxArchivedMiniblockNumber`, if the stream was not loaded. `stub` says
      whether there is a client for the peer. -/
  | archiveStream (id : StreamId) (readFails : Bool) (stub : Except RiverError Unit)
  | createStreamArchiveStorage (id : StreamId) (fault : TxFault) (stub : Except RiverError Unit)
  /-- One round of the loop. -/
  | getMiniblocks (id : StreamId) (response : Except RiverError (List Miniblock)) (fault : TxFault)
      (shuffle : Shuffle)
  | restart

structure ArchiverOutcome where
  request : Option (Int × Int)
  result : Option (Res Unit)

def serializeMiniblocks (C : Crypto) : (expected : Int) → List Miniblock → Res (List Miniblock)
  | _, [] => .ok []
  | expected, mb :: miniblocks => do
    let info ← newMiniblockInfoFromProto C mb ⟨expected, true⟩ 0
    let serialized ← serializeMiniblocks C (expected + 1) miniblocks
    .ok (info.proto :: serialized)

namespace ArchiveStream

variable (st : ArchiveStream)

def finish (result : Res Unit) : ArchiveStream × Option (Res Unit) :=
  ({ st with phase := .idle }, some result)

def loop (nodeAddr : Address) (mbsInDb mbsInContract : Int) : ArchiveStream × Option (Res Unit) :=
  if mbsInDb < mbsInContract then
    ({ st with phase := .looping nodeAddr mbsInDb mbsInContract }, none)
  else st.finish (.ok ())

def enterLoop (stub : Except RiverError Unit) : ArchiveStream × Option (Res Unit) :=
  if st.numBlocksInDb ≥ st.numBlocksInContract then st.finish (.ok ())
  else
    match st.nodes.getStickyPeer with
    | .error e => st.finish (.error e)
    | .panic m => st.finish (.panic m)
    | .ok nodeAddr =>
      match stub with
      | .error e => st.finish (.error e)
      | .ok () => st.loop nodeAddr st.numBlocksInDb st.numBlocksInContract

def advancePeer (shuffle : Shuffle) (nodeAddr : Address) (e : RiverError) :
    ArchiveStream × Option (Res Unit) :=
  match st.nodes.advanceStickyPeer shuffle nodeAddr with
  | .ok (nodes, _) => ({ st with nodes := nodes } : ArchiveStream).finish (.error e)
  | .error e => st.finish (.error e)
  | .panic m => st.finish (.panic m)

end ArchiveStream

namespace Archiver

variable (p : ArchiverParams) (s : Archiver) (id : StreamId) (st : ArchiveStream)

def setStream : Archiver :=
  { s with streams := update s.streams id (some st) }

def put (db : Store) (request : Option (Int × Int)) (x : ArchiveStream × Option (Res Unit)) :
    Archiver × ArchiverOutcome :=
  ({ s with db := db }.setStream id x.1, ⟨request, x.2⟩)

def archiveStream (readFails : Bool) (stub : Except RiverError Unit) : Archiver × ArchiverOutcome :=
  if st.phase ≠ .idle then (s, ⟨none, some (.ok ())⟩)
  else if st.numBlocksInDb ≤ -1 then
    match (if readFails then riverError .dbOperationFailure "transaction failed"
      else getMaxArchivedMiniblockNumberTx s.db id) with
    | .error e =>
      if e.code = .notFound then s.put id s.db none ({ st with phase := .creating }, none)
      else s.put id s.db none (st.finish (.error e))
    | .panic m => s.put id s.db none (st.finish (.panic m))
    | .ok maxBlockNum =>
      s.put id s.db none
        (({ st with numBlocksInDb := maxBlockNum + 1 } : ArchiveStream).enterLoop stub)
  else s.put id s.db none (st.enterLoop stub)

def createStreamArchiveStorage (fault : TxFault) (stub : Except RiverError Unit) :
    Archiver × ArchiverOutcome :=
  match st.phase with
  | .creating =>
    match runTx s.db fault
      (createStreamArchiveStorageTx p.createTableSuffix s.db id) with
    | (db, .ok ()) =>
      s.put id db none (({ st with numBlocksInDb := 0 } : ArchiveStream).enterLoop stub)
    | (db, .error e) => s.put id db none (st.finish (.error e))
    | (db, .panic m) => s.put id db none (st.finish (.panic m))
  | _ => (s, ⟨none, none⟩)

def writeMiniblocks (nodeAddr : Address) (mbsInDb mbsInContract : Int) (serialized : List Miniblock)
    (fault : TxFault) (request : Option (Int × Int)) : Archiver × ArchiverOutcome :=
  match runTx s.db fault (writeArchiveMiniblocksTx s.db id mbsInDb serialized) with
  | (db, .ok ()) =>
    let mbsInDb := mbsInDb + serialized.length
    s.put id db request
      (({ st with numBlocksInDb := mbsInDb } : ArchiveStream).loop nodeAddr mbsInDb mbsInContract)
  | (db, .error e) => s.put id db request (st.finish (.error e))
  | (db, .panic m) => s.put id db request (st.finish (.panic m))

def getMiniblocks (response : Except RiverError (List Miniblock)) (fault : TxFault)
    (shuffle : Shuffle) : Archiver × ArchiverOutcome :=
  match st.phase with
  | .looping nodeAddr mbsInDb mbsInContract =>
    let toBlock := min (mbsInDb + p.getReadMiniblocksSize) mbsInContract
    let request := some (mbsInDb, toBlock)
    match response with
    | .error e => s.put id s.db request (st.advancePeer shuffle nodeAddr e)
    | .ok [] => s.put id s.db request (st.finish (.ok ()))
    | .ok (mb :: miniblocks) =>
      match serializeMiniblocks p.crypto mbsInDb (mb :: miniblocks) with
      | .ok serialized =>
        s.writeMiniblocks id st nodeAddr mbsInDb mbsInContract serialized fault request
      | .error e => s.put id s.db request (st.finish (.error e))
      | .panic m => s.put id s.db request (st.finish (.panic m))
  | _ => (s, ⟨none, none⟩)

def withStream (f : ArchiveStream → Archiver × ArchiverOutcome) : Archiver × ArchiverOutcome :=
  match s.streams id with
  | none => (s, ⟨none, none⟩)
  | some st => f st

def step : ArchiverAction → Archiver × ArchiverOutcome
  | .addNewStream id shuffle nn lastKnownMiniblock =>
    match s.streams id with
    | some _ => (s, ⟨none, none⟩)
    | none => (s.setStream id (newArchiveStream shuffle nn lastKnownMiniblock), ⟨none, none⟩)
  | .onStreamPlacementUpdated id shuffle nodeAddress isAdded =>
    s.withStream id fun st =>
      match st.nodes.update shuffle nodeAddress isAdded with
      | .ok nodes => (s.setStream id { st with nodes := nodes }, ⟨none, none⟩)
      | _ => (s, ⟨none, none⟩)
  | .onStreamLastMiniblockUpdated id lastMiniblockNum =>
    s.withStream id fun st =>
      (s.setStream id { st with numBlocksInContract := numBlocksOf lastMiniblockNum }, ⟨none, none⟩)
  | .archiveStream id readFails stub =>
    s.withStream id fun st => s.archiveStream id st readFails stub
  | .createStreamArchiveStorage id fault stub =>
    s.withStream id fun st => s.createStreamArchiveStorage p id st fault stub
  | .getMiniblocks id response fault shuffle =>
    s.withStream id fun st => s.getMiniblocks p id st response fault shuffle
  | .restart => ({ s with streams := fun _ => none }, ⟨none, none⟩)

end Archiver

/-- The archiver and its database. -/
def archiverMachine (p : ArchiverParams) : Machine Archiver ArchiverAction ArchiverOutcome :=
  ⟨Archiver.step p⟩

def Archiver.init (db : Store) : Archiver := ⟨db, fun _ => none⟩

/-! ## The archive of a stream -/

def HeadersNumbered (start : Int) (blocks : List Miniblock) : Prop :=
  ∀ (i : Nat) mb, blocks[i]? = some mb → ∃ header, mb.header? = some header ∧
    header.miniblockNum = start + i

theorem HeadersNumbered.append (h : HeadersNumbered start blocks)
    (hnew : HeadersNumbered (start + blocks.length) new) :
    HeadersNumbered start (blocks ++ new) := by
  intro i mb hmb
  by_cases hi : i < blocks.length
  · rw [getElem?_append_left hi] at hmb
    exact h i mb hmb
  rw [getElem?_append_right (by omega)] at hmb
  obtain ⟨header, hheader, _⟩ := hnew _ mb hmb
  refine ⟨header, hheader, ?_⟩
  omega

theorem header?_of_newMiniblockInfoFromProto {n : Int} (hn : 0 ≤ n)
    (h : newMiniblockInfoFromProto C mb ⟨n, true⟩ 0 = .ok info) :
    info.proto = mb ∧ ∃ header, mb.header? = some header ∧ header.miniblockNum = n := by
  obtain ⟨_, hheader, h⟩ := Res.bind_eq_ok.1 h
  obtain ⟨hauth, -, -⟩ := parseEvent_eq_ok.1 hheader
  split at h
  next blockHeader hpayload =>
    split at h
    · cases h
    next hnum =>
      cases h
      refine ⟨rfl, blockHeader, ?_, ?_⟩
      · rw [Miniblock.header?, (authenticate_eq_ok hauth).2, bind_some,
          StreamEvent.getMiniblockHeader, hpayload]
      · by_contra hne
        exact hnum ⟨hn, hne⟩
  next => cases h

theorem serializeMiniblocks_eq_ok {n : Int} (hn : 0 ≤ n)
    (h : serializeMiniblocks C n miniblocks = .ok serialized) :
    serialized = miniblocks ∧ HeadersNumbered n miniblocks := by
  induction miniblocks generalizing n serialized with
  | nil =>
    cases h
    exact ⟨rfl, fun i mb hmb => by cases hmb⟩
  | cons mb miniblocks ih =>
    obtain ⟨_, hinfo, h⟩ := Res.bind_eq_ok.1 h
    obtain ⟨_, hrest, h⟩ := Res.bind_eq_ok.1 h
    cases h
    obtain ⟨hproto, header, hheader, hnum⟩ := header?_of_newMiniblockInfoFromProto hn hinfo
    obtain ⟨rfl, hnumbered⟩ := ih (by omega) hrest
    refine ⟨by rw [hproto], fun i mb' hmb' => ?_⟩
    cases i with
    | zero =>
      cases hmb'
      exact ⟨header, hheader, by rw [hnum]; omega⟩
    | succ i =>
      obtain ⟨header', hheader', _⟩ := hnumbered i mb' hmb'
      refine ⟨header', hheader', ?_⟩
      omega

structure ArchiveStream.Counts (archived : Prop) (m : Nat) (st : ArchiveStream) : Prop where
  numBlocksInDb : st.numBlocksInDb = -1 ∨
    archived ∧ 0 ≤ st.numBlocksInDb ∧ st.numBlocksInDb ≤ m
  looping : ∀ nodeAddr mbsInDb mbsInContract, st.phase = .looping nodeAddr mbsInDb mbsInContract →
    mbsInDb = st.numBlocksInDb ∧ 0 ≤ mbsInDb

namespace ArchiveStream

variable {archived : Prop} {m : Nat} {st : ArchiveStream}

@[simp] theorem numBlocksInDb_loop (nodeAddr : Address) (mbsInDb mbsInContract : Int) :
    (st.loop nodeAddr mbsInDb mbsInContract).1.numBlocksInDb = st.numBlocksInDb := by
  unfold loop
  split <;> rfl

@[simp] theorem numBlocksInDb_enterLoop (stub : Except RiverError Unit) :
    (st.enterLoop stub).1.numBlocksInDb = st.numBlocksInDb := by
  unfold enterLoop
  split
  · rfl
  split
  · rfl
  · rfl
  · split
    · rfl
    · exact numBlocksInDb_loop ..

@[simp] theorem numBlocksInDb_advancePeer (shuffle : Shuffle) (nodeAddr : Address)
    (e : RiverError) : (st.advancePeer shuffle nodeAddr e).1.numBlocksInDb = st.numBlocksInDb := by
  unfold advancePeer
  split <;> rfl

theorem Counts.of_idle (hphase : st.phase = .idle)
    (h : st.numBlocksInDb = -1 ∨ archived ∧ 0 ≤ st.numBlocksInDb ∧ st.numBlocksInDb ≤ m) :
    st.Counts archived m := by
  refine ⟨h, fun _ _ _ hlooping => ?_⟩
  rw [hphase] at hlooping
  cases hlooping

theorem Counts.finish (h : st.Counts archived m) (result : Res Unit) :
    (st.finish result).1.Counts archived m :=
  .of_idle rfl h.numBlocksInDb

theorem counts_loop (ha : archived) (h0 : 0 ≤ st.numBlocksInDb) (hm : st.numBlocksInDb ≤ m)
    (nodeAddr : Address) (mbsInContract : Int) :
    (st.loop nodeAddr st.numBlocksInDb mbsInContract).1.Counts archived m := by
  unfold loop
  split
  · refine ⟨.inr ⟨ha, h0, hm⟩, ?_⟩
    rintro _ _ _ ⟨⟩
    exact ⟨rfl, h0⟩
  · exact .of_idle rfl (.inr ⟨ha, h0, hm⟩)

theorem counts_enterLoop (ha : archived) (h0 : 0 ≤ st.numBlocksInDb) (hm : st.numBlocksInDb ≤ m)
    (stub : Except RiverError Unit) : (st.enterLoop stub).1.Counts archived m := by
  have hidle : ∀ result, (st.finish result).1.Counts archived m :=
    fun _ => .of_idle rfl (.inr ⟨ha, h0, hm⟩)
  unfold enterLoop
  split
  · exact hidle _
  split
  · exact hidle _
  · exact hidle _
  · split
    · exact hidle _
    · exact counts_loop ha h0 hm _ _

theorem Counts.advancePeer (h : st.Counts archived m) (shuffle : Shuffle) (nodeAddr : Address)
    (e : RiverError) : (st.advancePeer shuffle nodeAddr e).1.Counts archived m := by
  unfold ArchiveStream.advancePeer
  split
  · exact .of_idle rfl h.numBlocksInDb
  · exact h.finish _
  · exact h.finish _

end ArchiveStream

namespace Archiver

variable {p : ArchiverParams} {id : StreamId} {s s' : Archiver} {blocks : List Miniblock}

structure Sound (id : StreamId) (s : Archiver) (blocks : List Miniblock) : Prop where
  stored : Archived s.db id blocks ∨ NotArchived s.db id ∧ blocks = []
  headers : HeadersNumbered 0 blocks
  counts : ∀ st ∈ s.streams id, st.Counts (Archived s.db id blocks) blocks.length

/-- The archiver sees every write that was made. -/
def Acknowledged (p : ArchiverParams) (id : StreamId) (s : Archiver) : ArchiverAction → Prop
  | .getMiniblocks id' response fault _ => id' = id → ∀ st ∈ s.streams id,
      ∀ nodeAddr mbsInDb mbsInContract, st.phase = .looping nodeAddr mbsInDb mbsInContract →
        ∀ miniblocks, response = .ok miniblocks → miniblocks ≠ [] →
          (serializeMiniblocks p.crypto mbsInDb miniblocks).isOk = true → fault ≠ .unacknowledged
  | _ => True

inductive ArchiveEffect (id : StreamId) (s s' : Archiver) (blocks : List Miniblock)
    (acknowledged : Prop) : (new : List Miniblock) → Prop where
  /-- Nothing is written. The counter may be loaded or forgotten. -/
  | keeps
      (counter : ∀ st' ∈ s'.streams id, st'.numBlocksInDb = -1 ∨ st'.numBlocksInDb = blocks.length ∨
        ∃ st ∈ s.streams id, st.numBlocksInDb = st'.numBlocksInDb)
      (refused : acknowledged ∨
        ∃ st ∈ s.streams id, st.numBlocksInDb ≠ -1 ∧ st.numBlocksInDb ≠ blocks.length) :
      ArchiveEffect id s s' blocks acknowledged []
  | writes (new : List Miniblock) (ack : acknowledged)
      (counter : ∀ st' ∈ s'.streams id, st'.numBlocksInDb = (blocks ++ new).length) :
      ArchiveEffect id s s' blocks acknowledged new
  /-- The blocks are written, but the archiver does not know. -/
  | loses (new : List Miniblock) (ne : new ≠ []) (lost : ¬ acknowledged)
      (counter : ∃ st' ∈ s'.streams id, st'.numBlocksInDb = blocks.length) :
      ArchiveEffect id s s' blocks acknowledged new

/-! ## Other streams -/

structure SameFor (id : StreamId) (s s' : Archiver) : Prop where
  streams : s'.streams id = s.streams id
  rows : SameRows id s.db s'.db

theorem SameFor.refl (id : StreamId) (s : Archiver) : SameFor id s s := ⟨rfl, SameRows.refl id s.db⟩

variable {id' : StreamId} {db : Store}

theorem put_sameFor (hne : id ≠ id') (hrows : SameRows id s.db db) (request : Option (Int × Int))
    (x : ArchiveStream × Option (Res Unit)) :
    SameFor id s (s.put id' db request x).1 :=
  ⟨update_of_ne hne .., hrows⟩

theorem setStream_sameFor (hne : id ≠ id') (st : ArchiveStream) :
    SameFor id s (s.setStream id' st) :=
  ⟨update_of_ne hne .., .refl id s.db⟩

theorem runTx_put_sameFor (hne : id ≠ id') {tx : Res Store} {result : Res Unit}
    (htx : ∀ db, tx = .ok db → SameRows id s.db db) (hrun : runTx s.db fault tx = (db, result))
    (request : Option (Int × Int)) (x : ArchiveStream × Option (Res Unit)) :
    SameFor id s (s.put id' db request x).1 := by
  have hrows := runTx_sameRows fault htx
  rw [hrun] at hrows
  exact put_sameFor hne hrows request x

theorem archiveStream_sameFor (hne : id ≠ id') (st : ArchiveStream) (readFails : Bool)
    (stub : Except RiverError Unit) :
    SameFor id s (s.archiveStream id' st readFails stub).1 := by
  unfold archiveStream
  repeat' split
  case isTrue => exact .refl id s
  all_goals exact put_sameFor hne (.refl id s.db) _ _

theorem createStreamArchiveStorage_sameFor (hne : id ≠ id') (st : ArchiveStream) (fault : TxFault)
    (stub : Except RiverError Unit) :
    SameFor id s (s.createStreamArchiveStorage p id' st fault stub).1 := by
  unfold createStreamArchiveStorage
  split
  · split
    all_goals exact runTx_put_sameFor hne (fun _ hok => create_sameRows hne hok) ‹_› _ _
  · exact .refl id s

theorem getMiniblocks_sameFor (hne : id ≠ id') (st : ArchiveStream)
    (response : Except RiverError (List Miniblock)) (fault : TxFault) (shuffle : Shuffle) :
    SameFor id s (s.getMiniblocks p id' st response fault shuffle).1 := by
  have hput : ∀ request x, SameFor id s (s.put id' s.db request x).1 :=
    put_sameFor hne (.refl id s.db)
  unfold getMiniblocks writeMiniblocks
  split
  · split
    · exact hput _ _
    · exact hput _ _
    split
    · split
      all_goals exact runTx_put_sameFor hne (fun _ hok => write_sameRows hne hok) ‹_› _ _
    · exact hput _ _
    · exact hput _ _
  · exact .refl id s

theorem Sound.of_sameFor (h : Sound id s blocks) (hsame : SameFor id s s') :
    Sound id s' blocks where
  stored := h.stored.imp (fun ha => ha.congr hsame.rows)
    (fun hn => ⟨hn.1.congr hsame.rows, hn.2⟩)
  headers := h.headers
  counts := by
    intro st hst
    rw [hsame.streams] at hst
    obtain ⟨hcounter, hlooping⟩ := h.counts st hst
    exact ⟨hcounter.imp_right fun ⟨ha, hle⟩ => ⟨ha.congr hsame.rows, hle⟩, hlooping⟩

variable {acknowledged : Prop}

theorem ArchiveEffect.of_sameFor (hsame : SameFor id s s') (hack : acknowledged) :
    ArchiveEffect id s s' blocks acknowledged [] := by
  refine .keeps (fun st' hst' => .inr (.inr ⟨st', ?_, rfl⟩)) (.inl hack)
  rw [← hsame.streams]
  exact hst'

/-! ## The stream itself -/

variable {request : Option (Int × Int)} {x : ArchiveStream × Option (Res Unit)}

theorem mem_streams_put {st : ArchiveStream} :
    st ∈ (s.put id db request x).1.streams id ↔ x.1 = st := by
  show update s.streams id (some x.1) id = some st ↔ _
  rw [update_self, some.injEq]

theorem sound_put (hstored : Archived db id blocks ∨ NotArchived db id ∧ blocks = [])
    (hheaders : HeadersNumbered 0 blocks)
    (hcounts : x.1.Counts (Archived db id blocks) blocks.length) :
    Sound id (s.put id db request x).1 blocks := by
  refine ⟨hstored, hheaders, fun st hst => ?_⟩
  obtain rfl := mem_streams_put.1 hst
  exact hcounts

theorem ArchiveEffect.put (hst : s.streams id = some st)
    (hcounter : x.1.numBlocksInDb = st.numBlocksInDb ∨ x.1.numBlocksInDb = blocks.length)
    (hack : acknowledged ∨
      ∃ st ∈ s.streams id, st.numBlocksInDb ≠ -1 ∧ st.numBlocksInDb ≠ blocks.length) :
    ArchiveEffect id s (s.put id db request x).1 blocks acknowledged [] := by
  refine .keeps (fun st' hst' => ?_) hack
  obtain rfl := mem_streams_put.1 hst'
  rcases hcounter with heq | heq
  · exact .inr (.inr ⟨st, hst, heq.symm⟩)
  · exact .inr (.inl heq)

theorem runTx_cases (db : Store) (fault : TxFault) (tx : Res Store) :
    (∃ db', tx = .ok db' ∧ (fault = .none ∧ runTx db fault tx = (db', .ok ()) ∨
      fault = .unacknowledged ∧ ∃ e, runTx db fault tx = (db', .error e))) ∨
    ∃ result, result.isOk = false ∧ runTx db fault tx = (db, result) ∧
      (fault = .rolledBack ∨ tx.isOk = false) := by
  cases fault with
  | none =>
    cases tx with
    | ok db' => exact .inl ⟨db', rfl, .inl ⟨rfl, rfl⟩⟩
    | error e => exact .inr ⟨.error e, rfl, rfl, .inr rfl⟩
    | panic m => exact .inr ⟨.panic m, rfl, rfl, .inr rfl⟩
  | rolledBack => exact .inr ⟨_, rfl, rfl, .inl rfl⟩
  | unacknowledged =>
    cases tx with
    | ok db' => exact .inl ⟨db', rfl, .inr ⟨rfl, _, rfl⟩⟩
    | error e => exact .inr ⟨.error e, rfl, rfl, .inr rfl⟩
    | panic m => exact .inr ⟨.panic m, rfl, rfl, .inr rfl⟩

def Steps (id : StreamId) (s s' : Archiver) (blocks : List Miniblock)
    (acknowledged : Prop) : Prop :=
  ∃ new, Sound id s' (blocks ++ new) ∧ ArchiveEffect id s s' blocks acknowledged new

theorem Steps.of_sameFor (h : Sound id s blocks) (hsame : SameFor id s s') (hack : acknowledged) :
    Steps id s s' blocks acknowledged := by
  refine ⟨[], ?_, .of_sameFor hsame hack⟩
  rw [append_nil]
  exact h.of_sameFor hsame

section

variable (h : Sound id s blocks) {st : ArchiveStream} (hst : s.streams id = some st)

include h hst

theorem Steps.put (hcounts : x.1.Counts (Archived s.db id blocks) blocks.length)
    (hcounter : x.1.numBlocksInDb = st.numBlocksInDb ∨ x.1.numBlocksInDb = blocks.length)
    (hack : acknowledged ∨
      ∃ st ∈ s.streams id, st.numBlocksInDb ≠ -1 ∧ st.numBlocksInDb ≠ blocks.length) :
    Steps id s (s.put id s.db request x).1 blocks acknowledged := by
  refine ⟨[], ?_, .put hst hcounter hack⟩
  rw [append_nil]
  exact sound_put h.stored h.headers hcounts

theorem steps_archiveStream (readFails : Bool) (stub : Except RiverError Unit) :
    Steps id s (s.archiveStream id st readFails stub).1 blocks True := by
  have hcounts := h.counts st hst
  have hfinish : ∀ result, Steps id s (s.put id s.db none (st.finish result)).1 blocks True :=
    fun result => .put h hst (hcounts.finish result) (.inl rfl) (.inl trivial)
  unfold archiveStream
  split
  · exact .of_sameFor h (.refl id s) trivial
  split
  · split
    next e hread =>
      split
      · refine .put h hst ⟨hcounts.numBlocksInDb, ?_⟩ (.inl rfl) (.inl trivial)
        rintro _ _ _ ⟨⟩
      · exact hfinish _
    next => exact hfinish _
    next maxBlockNum hread =>
      -- the counter is loaded: it is the number of blocks of the archive
      cases readFails with
      | true => cases hread
      | false =>
        have hread' : getMaxArchivedMiniblockNumberTx s.db id = .ok maxBlockNum := hread
        rcases h.stored with harchived | ⟨hnone, -⟩
        · rw [harchived.getMax] at hread'
          have hmax : (blocks.length : Int) - 1 = maxBlockNum := Res.ok.inj hread'
          refine .put h hst (ArchiveStream.counts_enterLoop harchived ?_ ?_ stub) ?_ (.inl trivial)
          · show 0 ≤ maxBlockNum + 1
            omega
          · show maxBlockNum + 1 ≤ blocks.length
            omega
          right
          rw [ArchiveStream.numBlocksInDb_enterLoop]
          show maxBlockNum + 1 = blocks.length
          omega
        · rw [hnone.getMax] at hread'
          cases hread'
  next hloaded =>
    rcases hcounts.numBlocksInDb with _ | ⟨harchived, h0, hm⟩
    · omega
    · exact .put h hst (ArchiveStream.counts_enterLoop harchived h0 hm stub)
        (.inl (ArchiveStream.numBlocksInDb_enterLoop stub)) (.inl trivial)

theorem steps_createStreamArchiveStorage (fault : TxFault) (stub : Except RiverError Unit) :
    Steps id s (s.createStreamArchiveStorage p id st fault stub).1 blocks True := by
  have hcounts := h.counts st hst
  unfold createStreamArchiveStorage
  split
  next hphase =>
    rcases runTx_cases s.db fault
      (createStreamArchiveStorageTx p.createTableSuffix s.db id) with
        ⟨db', htx, hrun⟩ | ⟨result, hresult, hrun, -⟩
    · -- the archive is created, so there was none
      obtain ⟨hnone, rfl⟩ : NotArchived s.db id ∧ blocks = [] := by
        rcases h.stored with harchived | hnone
        · rw [harchived.create] at htx
          cases htx
        · exact hnone
      have harchived := hnone.create htx
      have hcounter : st.numBlocksInDb = -1 := by
        rcases hcounts.numBlocksInDb with hneg | ⟨harchived', -⟩
        · exact hneg
        · exact absurd hnone.es harchived'.es
      rcases hrun with ⟨-, hrun⟩ | ⟨-, e, hrun⟩
      · simp only [hrun]
        exact ⟨[], sound_put (.inl harchived) h.headers
          (ArchiveStream.counts_enterLoop harchived (le_refl 0) (le_refl 0) stub),
          .put hst (.inr (ArchiveStream.numBlocksInDb_enterLoop stub)) (.inl trivial)⟩
      · simp only [hrun]
        exact ⟨[], sound_put (.inl harchived) h.headers (.of_idle rfl (.inl hcounter)),
          .put hst (.inl rfl) (.inl trivial)⟩
    · cases result with
      | ok u => cases hresult
      | _ =>
        simp only [hrun]
        exact .put h hst (hcounts.finish _) (.inl rfl) (.inl trivial)
  next => exact .of_sameFor h (.refl id s) trivial

theorem steps_writeMiniblocks (hphase : st.phase = .looping nodeAddr mbsInDb mbsInContract)
    {new : List Miniblock} (hne : new ≠ []) (hnew : HeadersNumbered mbsInDb new) (fault : TxFault)
    (request : Option (Int × Int)) :
    Steps id s
      (s.writeMiniblocks id st nodeAddr mbsInDb mbsInContract new fault request).1 blocks
      (fault ≠ .unacknowledged) := by
  have hcounts := h.counts st hst
  obtain ⟨_, _⟩ := hcounts.looping _ _ _ hphase
  obtain ⟨harchived, -, -⟩ := hcounts.numBlocksInDb.resolve_left (by omega)
  unfold writeMiniblocks
  by_cases hlength : mbsInDb = blocks.length
  · obtain ⟨db', htx, harchived'⟩ := harchived.write new
    rw [← hlength] at htx
    have hheaders : HeadersNumbered 0 (blocks ++ new) := by
      refine h.headers.append ?_
      rw [Int.zero_add, ← hlength]
      exact hnew
    have hlength' : ((blocks ++ new).length : Int) = mbsInDb + new.length := by
      rw [length_append]
      omega
    rcases runTx_cases s.db fault
      (writeArchiveMiniblocksTx s.db id mbsInDb new) with
        ⟨db'', htx', hrun⟩ | ⟨result, hresult, hrun, hfault⟩
    · obtain rfl : db' = db'' := Res.ok.inj (htx.symm.trans htx')
      rcases hrun with ⟨hfault, hrun⟩ | ⟨hfault, e, hrun⟩
      · simp only [hrun]
        refine ⟨new, sound_put (.inl harchived') hheaders
          (ArchiveStream.counts_loop harchived' ?_ hlength'.ge _ _),
            .writes new (by simp [hfault]) ?_⟩
        · show 0 ≤ mbsInDb + new.length
          omega
        · intro st' hst'
          obtain rfl := mem_streams_put.1 hst'
          rw [ArchiveStream.numBlocksInDb_loop]
          exact hlength'.symm
      · simp only [hrun]
        have hcounter : st.numBlocksInDb = blocks.length := by omega
        refine ⟨new, sound_put (.inl harchived') hheaders
          (.of_idle rfl (.inr ⟨harchived', ?_, ?_⟩)),
          .loses new hne (by simp [hfault]) ⟨_, mem_streams_put.2 rfl, hcounter⟩⟩
        · show 0 ≤ st.numBlocksInDb
          omega
        · show st.numBlocksInDb ≤ _
          omega
    · have hack : fault ≠ .unacknowledged := by
        rcases hfault with rfl | hfault
        · simp
        · rw [htx] at hfault
          cases hfault
      cases result with
      | ok u => cases hresult
      | _ =>
        simp only [hrun]
        exact .put h hst (hcounts.finish _) (.inl rfl) (.inl hack)
  · -- a counter that lags: the write is refused, whatever the connection does
    have htx := harchived.write_ne hlength new
    rcases runTx_cases s.db fault
      (writeArchiveMiniblocksTx s.db id mbsInDb new) with
        ⟨db', htx', -⟩ | ⟨result, hresult, hrun, -⟩
    · rw [htx] at htx'
      cases htx'
    cases result with
    | ok u => cases hresult
    | _ =>
      simp only [hrun]
      exact .put h hst (hcounts.finish _) (.inl rfl) (.inr ⟨st, hst, by omega, by omega⟩)

theorem steps_getMiniblocks (response : Except RiverError (List Miniblock))
    (fault : TxFault) (shuffle : Shuffle) :
    Steps id s (s.getMiniblocks p id st response fault shuffle).1 blocks
      (Acknowledged p id s (.getMiniblocks id response fault shuffle)) := by
  have hcounts := h.counts st hst
  unfold getMiniblocks
  split
  next nodeAddr mbsInDb mbsInContract hphase =>
    obtain ⟨-, h0⟩ := hcounts.looping _ _ _ hphase
    -- the condition, in the state of this run
    have hack : Acknowledged p id s (.getMiniblocks id response fault shuffle) ↔
        ∀ miniblocks, response = .ok miniblocks → miniblocks ≠ [] →
          (serializeMiniblocks p.crypto mbsInDb miniblocks).isOk = true →
            fault ≠ .unacknowledged := by
      constructor
      · exact fun hall => hall rfl st hst _ _ _ hphase
      intro hall _ st' hst' nodeAddr' mbsInDb' mbsInContract' hphase'
      obtain rfl : st = st' := some.inj (hst.symm.trans hst')
      obtain ⟨-, rfl, -⟩ := ArchivePhase.looping.inj (hphase.symm.trans hphase')
      exact hall
    split
    next e =>
      exact .put h hst (hcounts.advancePeer _ _ _)
        (.inl (ArchiveStream.numBlocksInDb_advancePeer _ _ _)) (.inl (hack.2 (by simp)))
    next =>
      refine .put h hst (hcounts.finish _) (.inl rfl) (.inl (hack.2 ?_))
      rintro miniblocks ⟨⟩ hne
      exact absurd rfl hne
    next mb miniblocks =>
      split
      next serialized hserialized =>
        obtain ⟨rfl, hnumbered⟩ := serializeMiniblocks_eq_ok h0 hserialized
        have hiff : Acknowledged p id s
            (.getMiniblocks id (.ok (mb :: miniblocks)) fault shuffle) ↔
              fault ≠ .unacknowledged := by
          rw [hack]
          constructor
          · intro hall
            exact hall _ rfl (cons_ne_nil _ _) (by rw [hserialized]; rfl)
          · intro hfault _ _ _ _
            exact hfault
        rw [hiff]
        exact steps_writeMiniblocks h hst hphase (cons_ne_nil _ _) hnumbered fault _
      next e hserialized =>
        refine .put h hst (hcounts.finish _) (.inl rfl) (.inl (hack.2 ?_))
        rintro _ ⟨⟩ - hok
        rw [hserialized] at hok
        cases hok
      next m hserialized =>
        refine .put h hst (hcounts.finish _) (.inl rfl) (.inl (hack.2 ?_))
        rintro _ ⟨⟩ - hok
        rw [hserialized] at hok
        cases hok
  next hphase =>
    refine .of_sameFor h (.refl id s) ?_
    intro _ st' hst' nodeAddr mbsInDb mbsInContract hphase'
    obtain rfl : st = st' := some.inj (hst.symm.trans hst')
    exact absurd hphase' (hphase _ _ _)

theorem steps_setStream {st' : ArchiveStream} (hcounter : st'.numBlocksInDb = st.numBlocksInDb)
    (hphase : st'.phase = st.phase) : Steps id s (s.setStream id st') blocks True := by
  show Steps id s (s.put id s.db none (st', none)).1 blocks True
  refine .put h hst ⟨?_, ?_⟩ (.inl hcounter) (.inl trivial)
  · rw [hcounter]
    exact (h.counts st hst).numBlocksInDb
  · rw [hcounter, hphase]
    exact (h.counts st hst).looping

end

theorem steps_withStream (h : Sound id s blocks) {f : ArchiveStream → Archiver × ArchiverOutcome}
    (hother : id ≠ id' → acknowledged ∧ ∀ st, SameFor id s (f st).1)
    (hnone : s.streams id = none → acknowledged)
    (hown : ∀ st, id' = id → s.streams id = some st → Steps id s (f st).1 blocks acknowledged) :
    Steps id s (s.withStream id' f).1 blocks acknowledged := by
  unfold withStream
  by_cases hid : id' = id
  · subst hid
    split
    next hst => exact .of_sameFor h (.refl _ s) (hnone hst)
    next st hst => exact hown st rfl hst
  · obtain ⟨hack, hsame⟩ := hother (.symm hid)
    split
    next => exact .of_sameFor h (.refl id s) hack
    next st _ => exact .of_sameFor h (hsame st) hack

theorem Sound.step (h : Sound id s blocks) (a : ArchiverAction) :
    Steps id s (s.step p a).1 blocks (Acknowledged p id s a) := by
  cases a with
  | addNewStream id' shuffle nn lastKnownMiniblock =>
    simp only [Archiver.step]
    split
    next => exact .of_sameFor h (.refl id s) trivial
    next hnone =>
      by_cases hid : id' = id
      · subst hid
        show Steps id' s
          (s.put id' s.db none (newArchiveStream shuffle nn lastKnownMiniblock, none)).1 blocks True
        refine ⟨[], ?_, .keeps (fun st' hst' => ?_) (.inl trivial)⟩
        · rw [append_nil]
          exact sound_put h.stored h.headers (.of_idle rfl (.inl rfl))
        · obtain rfl := mem_streams_put.1 hst'
          exact .inl rfl
      · exact .of_sameFor h (setStream_sameFor (.symm hid) _) trivial
  | onStreamPlacementUpdated id' shuffle nodeAddress isAdded =>
    refine steps_withStream h (fun hne => ⟨trivial, fun st => ?_⟩) (fun _ => trivial) ?_
    · split
      · exact setStream_sameFor hne _
      · exact .refl id s
    · rintro st rfl hst
      split
      · exact steps_setStream h hst rfl rfl
      · exact .of_sameFor h (.refl _ s) trivial
  | onStreamLastMiniblockUpdated id' lastMiniblockNum =>
    refine steps_withStream h (fun hne => ⟨trivial, fun st => setStream_sameFor hne _⟩)
      (fun _ => trivial) ?_
    rintro st rfl hst
    exact steps_setStream h hst rfl rfl
  | archiveStream id' readFails stub =>
    refine steps_withStream h
      (fun hne => ⟨trivial, fun st => archiveStream_sameFor hne st readFails stub⟩)
      (fun _ => trivial) ?_
    rintro st rfl hst
    exact steps_archiveStream h hst readFails stub
  | createStreamArchiveStorage id' fault stub =>
    refine steps_withStream h
      (fun hne => ⟨trivial, fun st => createStreamArchiveStorage_sameFor hne st fault stub⟩)
      (fun _ => trivial) ?_
    rintro st rfl hst
    exact steps_createStreamArchiveStorage h hst fault stub
  | getMiniblocks id' response fault shuffle =>
    refine steps_withStream h (fun hne => ⟨fun heq => absurd heq.symm hne,
      fun st => getMiniblocks_sameFor hne st response fault shuffle⟩) ?_ ?_
    · intro hnone _ st hst
      rw [hnone] at hst
      cases hst
    · rintro st rfl hst
      exact steps_getMiniblocks h hst response fault shuffle
  | restart =>
    refine ⟨[], ⟨by rw [append_nil]; exact h.stored,
      by rw [append_nil]; exact h.headers, ?_⟩, .keeps ?_ (.inl trivial)⟩
    · intro st hst
      cases hst
    · intro st hst
      cases hst

/-! ## Runs -/

def archived (s : Archiver) (id : StreamId) : List (MiniblockRow StreamId Miniblock) :=
  Table.rowsOf (·.streamId) id s.db.miniblocks

/-- Archived blocks have the numbers 0, 1, 2 and so on. -/
structure GapFree (id : StreamId) (s : Archiver) : Prop where
  seqNums : (s.archived id).map (·.seqNum)
    = (range (s.archived id).length).map fun (i : Nat) => (i : Int)
  headers : ∀ (i : Nat) row, (s.archived id)[i]? = some row →
    ∃ header, row.blockdata.header? = some header ∧ header.miniblockNum = i

/-- The counter is unset or the number of archived blocks. -/
def CounterExact (id : StreamId) (s : Archiver) : Prop :=
  ∀ st ∈ s.streams id, st.numBlocksInDb = -1 ∨ st.numBlocksInDb = (s.archived id).length

theorem Sound.archived_eq (h : Sound id s blocks) : s.archived id = blockRows id blocks := by
  rcases h.stored with harchived | ⟨hnone, rfl⟩
  · exact harchived.miniblocks
  · exact hnone.miniblocks

theorem Sound.length_archived (h : Sound id s blocks) : (s.archived id).length = blocks.length := by
  rw [h.archived_eq, blockRows, Table.length_number]

theorem Sound.gapFree (h : Sound id s blocks) : s.GapFree id where
  seqNums := by
    rw [h.archived_eq, blockRows,
      Table.map_number MiniblockRow.seqNum (fun _ _ => rfl),
      Table.number_eq_range]
    simp
  headers := by
    intro i row hrow
    have hdata : (s.archived id).map (·.blockdata) = blocks := by
      rw [h.archived_eq, ← filterMap_eq_map]
      exact Table.filterMap_number (f := some ∘ MiniblockRow.blockdata) (fun _ _ => rfl) 0 blocks
    have hblock : blocks[i]? = some row.blockdata := by
      rw [← hdata, getElem?_map, hrow]
      rfl
    obtain ⟨header, hheader, hnum⟩ := h.headers i _ hblock
    exact ⟨header, hheader, by rw [hnum]; omega⟩

theorem Sound.counterExact_next_iff (h : Sound id s blocks) (hs : s.CounterExact id)
    (a : ArchiverAction) :
    ((archiverMachine p).next s a).CounterExact id ↔ Acknowledged p id s a := by
  obtain ⟨new, hsound, heffect⟩ := h.step a
  have hlength := hsound.length_archived
  unfold CounterExact at hs ⊢
  rw [h.length_archived] at hs
  have hnext : (archiverMachine p).next s a = (s.step p a).1 := rfl
  rw [hnext, hlength]
  cases heffect with
  | keeps hcounter hrefused =>
    have hack : Acknowledged p id s a := by
      rcases hrefused with hack | ⟨st, hst, hneg, hne⟩
      · exact hack
      · exact ((hs st hst).elim hneg hne).elim
    refine ⟨fun _ => hack, fun _ st' hst' => ?_⟩
    rw [append_nil]
    rcases hcounter st' hst' with hneg | heq | ⟨st, hst, heq⟩
    · exact .inl hneg
    · exact .inr heq
    · rw [← heq]
      exact hs st hst
  | writes _ hack hcounter =>
    exact ⟨fun _ => hack, fun _ st' hst' => .inr (hcounter st' hst')⟩
  | loses _ hne hlost hcounter =>
    refine ⟨fun hall => ?_, fun hack => absurd hack hlost⟩
    obtain ⟨st', hst', heq⟩ := hcounter
    have hpos : 0 < new.length := length_pos_iff.2 hne
    have := hall st' hst'
    rw [length_append] at this
    omega

end Archiver

open Archiver in
/-- **Archiver.** In every run the archived blocks of a stream are numbered 0, 1, 2 and so on, and
    so are their headers. The counter is not loaded or exactly their number at every point of a run
    if and only if no write of blocks of the stream that commits returns an error. -/
theorem archiver_contiguous (p : ArchiverParams) (db : Store) (id : StreamId)
    (hnone : NotArchived db id) (acts : List ArchiverAction) :
    ((archiverMachine p).exec (Archiver.init db) acts).GapFree id ∧
      ((∀ front, front <+: acts →
          ((archiverMachine p).exec (Archiver.init db) front).CounterExact id) ↔
        (archiverMachine p).Along (Acknowledged p id) (Archiver.init db) acts) := by
  have hinit : ∃ blocks, Sound id (.init db) blocks :=
    ⟨[], .inr ⟨hnone, rfl⟩, fun _ _ h => (some_ne_none _ h.symm).elim,
      fun _ h => (some_ne_none _ h.symm).elim⟩
  have hnext : ∀ s a, (∃ blocks, Sound id s blocks) →
      ∃ blocks, Sound id ((archiverMachine p).next s a) blocks := by
    rintro s a ⟨blocks, h⟩
    obtain ⟨_, hsound, -⟩ := h.step a
    exact ⟨_, hsound⟩
  constructor
  · obtain ⟨blocks, h⟩ := Machine.exec_invariant hnext hinit acts
    exact h.gapFree
  refine Machine.always_iff_along hnext ?_ hinit (fun _ h => (some_ne_none _ h.symm).elim) acts
  rintro s a ⟨blocks, h⟩ hs
  exact h.counterExact_next_iff hs a

/-! ## Sample archive -/

def sampleArchiverParams : ArchiverParams := ⟨.salted, fun _ => "sample", 0⟩

def sampleArchiveRun (fault : TxFault) : List ArchiverAction :=
  let shuffle : Shuffle := ⟨fun l => l, fun l => Perm.refl l⟩
  [.addNewStream sampleStreamId shuffle [5] 1, .archiveStream sampleStreamId false (.ok ()),
    .createStreamArchiveStorage sampleStreamId .none (.ok ()),
    .getMiniblocks sampleStreamId (.ok [sampleMiniblock]) fault shuffle]

def sampleArchiveCounts (acts : List ArchiverAction) : Option Int × Nat :=
  let s := (archiverMachine sampleArchiverParams).exec (Archiver.init Db.empty) acts
  ((s.streams sampleStreamId).map (·.numBlocksInDb), (s.archived sampleStreamId).length)

theorem archiver_contiguous_one_block :
    sampleArchiveCounts (sampleArchiveRun .none) = (some 1, 1) ∧
      ((archiverMachine sampleArchiverParams).exec (Archiver.init Db.empty)
        (sampleArchiveRun .none)).GapFree sampleStreamId ∧
      ((archiverMachine sampleArchiverParams).exec (Archiver.init Db.empty)
        (sampleArchiveRun .none)).CounterExact sampleStreamId := by
  obtain ⟨hgapFree, hiff⟩ := archiver_contiguous sampleArchiverParams .empty
    sampleStreamId ⟨rfl, rfl⟩ (sampleArchiveRun .none)
  refine ⟨by decide +kernel, hgapFree, hiff.2 ⟨trivial, trivial, trivial, ?_, trivial⟩ _ prefix_rfl⟩
  intro _ _ _ _ _ _ _ _ _ _ _
  exact TxFault.noConfusion

/-- The first write commits and returns an error: the archive has one block and the counter says
    zero. The next run asks for block 0 again, and its write and every later one is refused until a
    restart. -/
theorem archiver_lost_write :
    sampleArchiveCounts (sampleArchiveRun .unacknowledged) = (some 0, 1) ∧
      ¬ ((archiverMachine sampleArchiverParams).exec (Archiver.init Db.empty)
        (sampleArchiveRun .unacknowledged)).CounterExact sampleStreamId ∧
      sampleArchiveCounts (sampleArchiveRun .unacknowledged ++ (sampleArchiveRun .none).drop 1)
        = (some 0, 1) := by
  have hcounts : sampleArchiveCounts (sampleArchiveRun .unacknowledged) = (some 0, 1) := by
    decide +kernel
  refine ⟨hcounts, fun h => ?_, by decide +kernel⟩
  obtain ⟨hcounter, -⟩ := Prod.mk.inj hcounts
  obtain ⟨st, hst, hzero⟩ := map_eq_some_iff.1 hcounter
  have hexact := h st hst
  rw [hzero] at hexact
  revert hexact
  decide

end River.Node
