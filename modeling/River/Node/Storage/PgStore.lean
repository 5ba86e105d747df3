/-
  The Postgres event store of the node (core/node/storage/pg_storage.go): its stream tables and
  the transactions CreateStreamStorage, WriteEvent, WriteBlockProposal, PromoteBlock and
  ReadStreamFromLastSnapshot.

  Three tables are partitioned by LIST (stream_id), so a row can only be inserted for a stream
  whose partition exists. A transaction is a function into `Res Db`, whose `ok` is the state to
  commit.
-/

import Mathlib.Data.Prod.Lex
import River.Lib.Table
import River.Lib.Machine
import River.Node.Base

namespace River.Node.Storage

open River.Lib.Table

variable {Sid H β ε : Type} [DecidableEq Sid] [DecidableEq H]

structure EsRow (Sid : Type) where
  streamId : Sid
  latestSnapshotMiniblock : Int
  deriving DecidableEq

structure MiniblockRow (Sid β : Type) where
  streamId : Sid
  seqNum : Int
  blockdata : β
  deriving DecidableEq

structure MinipoolRow (Sid ε : Type) where
  streamId : Sid
  generation : Int
  slotNum : Int
  envelope : Option ε
  deriving DecidableEq

structure CandidateRow (Sid H β : Type) where
  streamId : Sid
  seqNum : Int
  blockHash : H
  blockdata : β
  deriving DecidableEq

inductive PartitionedTable where
  | miniblocks | minipools | miniblockCandidates
  deriving DecidableEq

structure Partition (Sid : Type) where
  table : PartitionedTable
  suffix : String
  streamId : Sid
  deriving DecidableEq

structure Db (Sid H β ε : Type) where
  es : List (EsRow Sid)
  miniblocks : List (MiniblockRow Sid β)
  minipools : List (MinipoolRow Sid ε)
  miniblockCandidates : List (CandidateRow Sid H β)
  partitions : List (Partition Sid)
  deriving DecidableEq

def Db.empty : Db Sid H β ε := ⟨[], [], [], [], []⟩

inductive PgError where
  | uniqueViolation
  | duplicateTable
  | overlappingPartition
  | noPartition
  deriving DecidableEq

/-! ## Statements -/

namespace Db

variable (db : Db Sid H β ε)

def insertEs (r : EsRow Sid) : Except PgError (Db Sid H β ε) :=
  match insertUnique (·.streamId) db.es r with
  | none => .error .uniqueViolation
  | some es => .ok { db with es := es }

def createPartition (p : Partition Sid) : Except PgError (Db Sid H β ε) :=
  if (p.table, p.suffix) ∈ db.partitions.map (fun q => (q.table, q.suffix)) then
    .error .duplicateTable
  else if (p.table, p.streamId) ∈ db.partitions.map (fun q => (q.table, q.streamId)) then
    .error .overlappingPartition
  else .ok { db with partitions := db.partitions ++ [p] }

def createPartitions (suffix : String) (sid : Sid) : Except PgError (Db Sid H β ε) := do
  let db ← db.createPartition ⟨.miniblocks, suffix, sid⟩
  let db ← db.createPartition ⟨.minipools, suffix, sid⟩
  db.createPartition ⟨.miniblockCandidates, suffix, sid⟩

def hasPartition (t : PartitionedTable) (sid : Sid) : Bool :=
  (t, sid) ∈ db.partitions.map (fun q => (q.table, q.streamId))

def insertMiniblock (r : MiniblockRow Sid β) : Except PgError (Db Sid H β ε) :=
  if db.hasPartition .miniblocks r.streamId then
    match insertUnique (fun r => (r.streamId, r.seqNum)) db.miniblocks r with
    | none => .error .uniqueViolation
    | some rows => .ok { db with miniblocks := rows }
  else .error .noPartition

def insertMinipool (r : MinipoolRow Sid ε) : Except PgError (Db Sid H β ε) :=
  if db.hasPartition .minipools r.streamId then
    match insertUnique (fun r => (r.streamId, r.generation, r.slotNum)) db.minipools r with
    | none => .error .uniqueViolation
    | some rows => .ok { db with minipools := rows }
  else .error .noPartition

def insertCandidate (r : CandidateRow Sid H β) : Except PgError (Db Sid H β ε) :=
  if db.hasPartition .miniblockCandidates r.streamId then
    match insertUnique (fun r => (r.streamId, r.blockHash, r.seqNum)) db.miniblockCandidates r with
    | none => .ok db
    | some rows => .ok { db with miniblockCandidates := rows }
  else .error .noPartition

variable (sid : Sid)

def deleteMinipoolEvents : Db Sid H β ε :=
  { db with minipools := db.minipools.filter (fun r => ¬ (r.slotNum > -1 ∧ r.streamId = sid)) }

def setMinipoolGeneration (generation : Int) : Db Sid H β ε :=
  { db with minipools := db.minipools.map (fun r =>
      if r.slotNum = -1 ∧ r.streamId = sid then { r with generation := generation } else r) }

def setLatestSnapshot (seqNum : Int) : Db Sid H β ε :=
  { db with es := db.es.map (fun r =>
      if r.streamId = sid then { r with latestSnapshotMiniblock := seqNum } else r) }

def selectCandidates (seqNum : Int) (blockHash : H) : List (CandidateRow Sid H β) :=
  db.miniblockCandidates.filter (fun r =>
    r.streamId = sid ∧ r.seqNum = seqNum ∧ r.blockHash = blockHash)

def deleteCandidates (seqNum : Int) : Db Sid H β ε :=
  { db with miniblockCandidates := db.miniblockCandidates.filter (fun r =>
      ¬ (r.streamId = sid ∧ r.seqNum ≤ seqNum)) }

def maxSeqNum : Option Int :=
  ((rowsOf (·.streamId) sid db.miniblocks).map (·.seqNum)).max?

end Db

def ofSql {α : Type} : Except PgError α → Res α
  | .ok a => .ok a
  | .error _ => riverError .dbOperationFailure "transaction failed"

/-! ## Transactions -/

variable (createTableSuffix : Sid → String) (db : Db Sid H β ε) (sid : Sid)

def createStreamStatements (genesisMiniblock : β) : Except PgError (Db Sid H β ε) := do
  let db ← db.insertEs ⟨sid, 0⟩
  let db ← db.createPartitions (createTableSuffix sid) sid
  let db ← db.insertMiniblock ⟨sid, 0, genesisMiniblock⟩
  db.insertMinipool ⟨sid, 1, -1, none⟩

def createStreamStorageTx (genesisMiniblock : β) : Res (Db Sid H β ε) :=
  match createStreamStatements createTableSuffix db sid genesisMiniblock with
  | .error .uniqueViolation => riverError .alreadyExists "stream already exists"
  | r => ofSql r

def checkMinipoolRows (minipoolGeneration : Int) : List (MinipoolRow Sid ε) → Int → Res Int
  | [], counter => .ok counter
  | r :: rows, counter =>
    if r.generation ≠ minipoolGeneration then
      riverError .dbOperationFailure "Wrong event generation in minipool"
    else if r.slotNum ≠ counter then
      riverError .dbOperationFailure "Wrong slot number in minipool"
    else checkMinipoolRows minipoolGeneration rows (counter + 1)

def writeEventTx (minipoolGeneration minipoolSlot : Int) (envelope : ε) : Res (Db Sid H β ε) := do
  let rows := orderBy (·.slotNum) (rowsOf (·.streamId) sid db.minipools)
  let counter ← checkMinipoolRows minipoolGeneration rows (-1)
  if counter ≠ minipoolSlot then
    riverError .dbOperationFailure "Wrong number of records in minipool"
  else
    ofSql (db.insertMinipool ⟨sid, minipoolGeneration, minipoolSlot, some envelope⟩)

def writeBlockProposalTxn (blockHash : H) (blockNumber : Int) (miniblock : β) :
    Res (Db Sid H β ε) :=
  match db.maxSeqNum sid with
  | none => riverError .notFound "No blocks for the stream found in block storage"
  | some seqNum =>
    if blockNumber < seqNum + 1 then
      riverError .miniblocksStorageFailure "Miniblock proposal blockNumber mismatch"
    else ofSql (db.insertCandidate ⟨sid, blockNumber, blockHash, miniblock⟩)

def insertEnvelopes (sid : Sid) (generation : Int) :
    List ε → Int → Db Sid H β ε → Except PgError (Db Sid H β ε)
  | [], _, db => .ok db
  | e :: envelopes, i, db => do
    let db ← db.insertMinipool ⟨sid, generation, i, some e⟩
    insertEnvelopes sid generation envelopes (i + 1) db

def insertMiniblocks : List (MiniblockRow Sid β) → Db Sid H β ε → Except PgError (Db Sid H β ε)
  | [], db => .ok db
  | r :: rows, db => do
    let db ← db.insertMiniblock r
    insertMiniblocks rows db

def promoteBlockTxn (minipoolGeneration : Int) (candidateBlockHash : H) (snapshotMiniblock : Bool)
    (envelopes : List ε) : Res (Db Sid H β ε) :=
  match db.maxSeqNum sid with
  | none => riverError .notFound "No blocks for the stream found in block storage"
  | some seqNum =>
    if minipoolGeneration ≠ seqNum + 1 then
      riverError .miniblocksStorageFailure "Minipool generation mismatch"
    else do
      let db := db.deleteMinipoolEvents sid
      let db := db.setMinipoolGeneration sid (minipoolGeneration + 1)
      let db := if snapshotMiniblock then db.setLatestSnapshot sid minipoolGeneration else db
      let db ← ofSql (insertEnvelopes sid (minipoolGeneration + 1) envelopes 0 db)
      -- promote miniblock candidate into miniblocks table
      let promoted := db.selectCandidates sid minipoolGeneration candidateBlockHash
      let db ← ofSql (insertMiniblocks (promoted.map fun r =>
        ⟨r.streamId, r.seqNum, r.blockdata⟩) db)
      if promoted.length < 1 then
        riverError .notFound "No candidate block found"
      else
        .ok (db.deleteCandidates sid minipoolGeneration)

structure ReadStreamFromLastSnapshotResult (β ε : Type) where
  startMiniblockNumber : Int
  miniblocks : List β
  minipoolEnvelopes : List ε
  deriving DecidableEq

def scanMiniblocks : List (MiniblockRow Sid β) → Int → Int → Res (List β × Int)
  | [], _, seqNum => .ok ([], seqNum)
  | r :: rows, expected, _ =>
    if r.seqNum ≠ expected then
      riverError .miniblocksStorageFailure
        "Miniblocks consistency violation - wrong block sequence number"
    else do
      let (blocks, last) ← scanMiniblocks rows (expected + 1) r.seqNum
      .ok (r.blockdata :: blocks, last)

def scanMinipool [Inhabited ε] (generation : Int) : List (MinipoolRow Sid ε) → Int → Res (List ε)
  | [], _ => .ok []
  | r :: rows, slotNumsCounter =>
    if r.slotNum ≠ slotNumsCounter then
      riverError .miniblocksStorageFailure
        "Minipool consistency violation - slotNums are not sequential"
    else if r.generation ≠ generation then
      riverError .miniblocksStorageFailure
        "Minipool consistency violation - wrong event generation"
    else do
      let envelopes ← scanMinipool generation rows (slotNumsCounter + 1)
      .ok (r.envelope.getD default :: envelopes)

def readStreamFromLastSnapshotTx [Inhabited ε] (precedingBlockCount : Int) :
    Res (ReadStreamFromLastSnapshotResult β ε) :=
  match rowsOf (·.streamId) sid db.es with
  | [] => riverError .notFound "stream not found in local storage"
  | row :: _ => do
    let latest := row.latestSnapshotMiniblock
    let start := max 0 (latest - max 0 precedingBlockCount)
    let blockRows := orderBy (·.seqNum)
      ((rowsOf (·.streamId) sid db.miniblocks).filter (fun r => r.seqNum ≥ latest))
    let (miniblocks, seqNum) ← scanMiniblocks blockRows latest 0
    let poolRows := orderBy (fun r => toLex (r.generation, r.slotNum))
      ((rowsOf (·.streamId) sid db.minipools).filter (fun r => r.slotNum > -1))
    let envelopes ← scanMinipool (seqNum + 1) poolRows 0
    .ok ⟨start, miniblocks, envelopes⟩

/-! ## Calls -/

inductive Call (Sid H β ε : Type) where
  | createStreamStorage (sid : Sid) (genesisMiniblock : β)
  | writeEvent (sid : Sid) (minipoolGeneration minipoolSlot : Int) (envelope : ε)
  | writeBlockProposal (sid : Sid) (blockHash : H) (blockNumber : Int) (miniblock : β)
  | promoteBlock (sid : Sid) (minipoolGeneration : Int) (candidateBlockHash : H)
      (snapshotMiniblock : Bool) (envelopes : List ε)

def Call.streamId : Call Sid H β ε → Sid
  | .createStreamStorage sid _ => sid
  | .writeEvent sid _ _ _ => sid
  | .writeBlockProposal sid _ _ _ => sid
  | .promoteBlock sid _ _ _ _ => sid

def Call.tx : Call Sid H β ε → Res (Db Sid H β ε)
  | .createStreamStorage sid genesisMiniblock =>
    createStreamStorageTx createTableSuffix db sid genesisMiniblock
  | .writeEvent sid gen slot envelope => writeEventTx db sid gen slot envelope
  | .writeBlockProposal sid hash num miniblock => writeBlockProposalTxn db sid hash num miniblock
  | .promoteBlock sid gen hash snap envelopes => promoteBlockTxn db sid gen hash snap envelopes

def commit : Res (Db Sid H β ε) → Db Sid H β ε × Res Unit
  | .ok db' => (db', .ok ())
  | .error e => (db, .error e)
  | .panic m => (db, .panic m)

def call (c : Call Sid H β ε × Bool) : Db Sid H β ε × Res Unit :=
  if c.2 then (db, riverError .dbOperationFailure "transaction failed")
  else commit db (c.1.tx createTableSuffix db)

/-- Transactions that may fail to commit. -/
def pgMachine : River.Lib.Machine (Db Sid H β ε) (Call Sid H β ε × Bool) (Res Unit) :=
  ⟨call createTableSuffix⟩

end River.Node.Storage
