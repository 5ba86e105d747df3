/-
  What the store holds for one stream; its fields carry the store's consistency rules.
-/

import River.Node.Storage.PgStore

namespace River.Node.Storage

open River.Lib.Table List

variable {Sid H β ε : Type}

structure Candidate (H β : Type) where
  seqNum : Int
  blockHash : H
  blockdata : β

structure StreamRecord (H β ε : Type) where
  blocks : List β
  blocks_ne : blocks ≠ []
  latestSnapshot : Nat
  latestSnapshot_lt : latestSnapshot < blocks.length
  pool : List ε
  candidates : List (Candidate H β)
  candidates_ge : ∀ c ∈ candidates, (blocks.length : Int) ≤ c.seqNum
  candidates_nodup : (candidates.map fun c => (c.blockHash, c.seqNum)).Nodup

namespace StreamRecord

variable [DecidableEq H] (r : StreamRecord H β ε)

def generation : Int := r.blocks.length

def create (genesisMiniblock : β) : StreamRecord H β ε where
  blocks := [genesisMiniblock]
  blocks_ne := by simp
  latestSnapshot := 0
  latestSnapshot_lt := by simp
  pool := []
  candidates := []
  candidates_ge := by simp
  candidates_nodup := by simp

def writeEvent (minipoolGeneration minipoolSlot : Int) (envelope : ε) :
    Option (StreamRecord H β ε) :=
  if minipoolGeneration = r.generation ∧ minipoolSlot = r.pool.length then
    some { r with pool := r.pool ++ [envelope] }
  else none

def writeBlockProposal (blockHash : H) (blockNumber : Int) (miniblock : β) :
    Option (StreamRecord H β ε) :=
  if hn : blockNumber < r.generation then none
  else if hk : (blockHash, blockNumber) ∈ r.candidates.map (fun c => (c.blockHash, c.seqNum)) then
    some r
  else some { r with
    candidates := r.candidates ++ [⟨blockNumber, blockHash, miniblock⟩]
    candidates_ge := by
      intro c hc
      rcases mem_append.1 hc with hc | hc
      · exact r.candidates_ge c hc
      · obtain rfl := mem_singleton.1 hc
        exact not_lt.1 hn
    candidates_nodup := by
      rw [map_append, nodup_append]
      refine ⟨r.candidates_nodup, by simp, ?_⟩
      intro a ha b hb hab
      obtain rfl : b = (blockHash, blockNumber) := by simpa using hb
      exact hk (hab ▸ ha) }

def candidate? (candidateBlockHash : H) : Option (Candidate H β) :=
  r.candidates.find? (fun c => c.seqNum = r.generation ∧ c.blockHash = candidateBlockHash)

def promote (c : Candidate H β) (snapshotMiniblock : Bool) (envelopes : List ε) :
    StreamRecord H β ε where
  blocks := r.blocks ++ [c.blockdata]
  blocks_ne := by simp
  latestSnapshot := if snapshotMiniblock then r.blocks.length else r.latestSnapshot
  latestSnapshot_lt := by
    have := r.latestSnapshot_lt
    rw [length_append, length_singleton]
    split <;> omega
  pool := envelopes
  candidates := r.candidates.filter (fun c => ¬ c.seqNum ≤ r.generation)
  candidates_ge := by
    intro c hc
    have : ¬ c.seqNum ≤ (r.blocks.length : Int) := by simpa [generation] using (mem_filter.1 hc).2
    simp only [length_append, length_singleton]
    omega
  candidates_nodup := (r.candidates_nodup.sublist (filter_sublist.map _))

def promoteBlock (minipoolGeneration : Int) (candidateBlockHash : H) (snapshotMiniblock : Bool)
    (envelopes : List ε) : Option (StreamRecord H β ε) :=
  if minipoolGeneration = r.generation then
    (r.candidate? candidateBlockHash).map fun c => r.promote c snapshotMiniblock envelopes
  else none

def read (precedingBlockCount : Int) : ReadStreamFromLastSnapshotResult β ε where
  startMiniblockNumber := max 0 ((r.latestSnapshot : Int) - max 0 precedingBlockCount)
  miniblocks := r.blocks.drop r.latestSnapshot
  minipoolEnvelopes := r.pool

end StreamRecord

/-! ## Rows of one stream -/

section Rows

variable [DecidableEq Sid]

def blockRows (sid : Sid) (blocks : List β) : List (MiniblockRow Sid β) :=
  number (fun i b => ⟨sid, i, b⟩) 0 blocks

def poolRows (sid : Sid) (generation : Int) (pool : List ε) : List (MinipoolRow Sid ε) :=
  number (fun i e => ⟨sid, generation, i, some e⟩) 0 pool

def candidateRows (sid : Sid) (cs : List (Candidate H β)) : List (CandidateRow Sid H β) :=
  cs.map fun c => ⟨sid, c.seqNum, c.blockHash, c.blockdata⟩

structure Represents (db : Db Sid H β ε) (sid : Sid) (r : StreamRecord H β ε) : Prop where
  es : rowsOf (·.streamId) sid db.es = [⟨sid, r.latestSnapshot⟩]
  miniblocks : rowsOf (·.streamId) sid db.miniblocks = blockRows sid r.blocks
  minipools : rowsOf (·.streamId) sid db.minipools =
    ⟨sid, r.generation, -1, none⟩ :: poolRows sid r.generation r.pool
  candidates : rowsOf (·.streamId) sid db.miniblockCandidates = candidateRows sid r.candidates
  partitions : ∀ t, db.hasPartition t sid = true

def Db.blocksOf (db : Db Sid H β ε) (sid : Sid) : List β :=
  (rowsOf (·.streamId) sid db.miniblocks).filterMap fun row => some row.blockdata

def Db.poolOf (db : Db Sid H β ε) (sid : Sid) : List ε :=
  (rowsOf (·.streamId) sid db.minipools).filterMap (·.envelope)

theorem Represents.blocksOf {sid : Sid} (h : Represents db sid r) : db.blocksOf sid = r.blocks := by
  rw [Db.blocksOf, h.miniblocks]
  exact filterMap_number (f := some ∘ MiniblockRow.blockdata) (fun _ _ => rfl) 0 r.blocks

theorem Represents.poolOf {sid : Sid} (h : Represents db sid r) : db.poolOf sid = r.pool := by
  rw [Db.poolOf, h.minipools]
  exact filterMap_number (f := MinipoolRow.envelope) (fun _ _ => rfl) 0 r.pool

structure Absent (db : Db Sid H β ε) (sid : Sid) : Prop where
  es : rowsOf (·.streamId) sid db.es = []
  miniblocks : rowsOf (·.streamId) sid db.miniblocks = []
  minipools : rowsOf (·.streamId) sid db.minipools = []
  candidates : rowsOf (·.streamId) sid db.miniblockCandidates = []
  partitions : ∀ t, db.hasPartition t sid = false

/-- The rows of the stream are the same. -/
structure SameRows (sid : Sid) (db db' : Db Sid H β ε) : Prop where
  es : rowsOf (·.streamId) sid db'.es = rowsOf (·.streamId) sid db.es
  miniblocks : rowsOf (·.streamId) sid db'.miniblocks = rowsOf (·.streamId) sid db.miniblocks
  minipools : rowsOf (·.streamId) sid db'.minipools = rowsOf (·.streamId) sid db.minipools
  candidates : rowsOf (·.streamId) sid db'.miniblockCandidates =
    rowsOf (·.streamId) sid db.miniblockCandidates
  partitions : ∀ t, db'.hasPartition t sid = db.hasPartition t sid

theorem SameRows.refl (sid : Sid) (db : Db Sid H β ε) : SameRows sid db db :=
  ⟨rfl, rfl, rfl, rfl, fun _ => rfl⟩

theorem SameRows.trans {db1 db2 db3 : Db Sid H β ε} (h : SameRows sid db1 db2)
    (h' : SameRows sid db2 db3) : SameRows sid db1 db3 :=
  ⟨h'.es.trans h.es, h'.miniblocks.trans h.miniblocks, h'.minipools.trans h.minipools,
    h'.candidates.trans h.candidates, fun t => (h'.partitions t).trans (h.partitions t)⟩

theorem Represents.congr {sid : Sid} (h : Represents db sid r)
    (hs : SameRows sid db db') : Represents db' sid r :=
  ⟨hs.es.trans h.es, hs.miniblocks.trans h.miniblocks, hs.minipools.trans h.minipools,
    hs.candidates.trans h.candidates, fun t => (hs.partitions t).trans (h.partitions t)⟩

theorem Absent.congr {sid : Sid} (h : Absent db sid) (hs : SameRows sid db db') : Absent db' sid :=
  ⟨hs.es.trans h.es, hs.miniblocks.trans h.miniblocks, hs.minipools.trans h.minipools,
    hs.candidates.trans h.candidates, fun t => (hs.partitions t).trans (h.partitions t)⟩

end Rows

/-! ## Reading the rows of a represented stream -/

theorem blockRows_concat (sid : Sid) (blocks : List β) (b : β) :
    blockRows sid (blocks ++ [b]) = blockRows sid blocks ++ [⟨sid, blocks.length, b⟩] := by
  simp [blockRows, number_append]

theorem blockRows_seqNum_mem {m : MiniblockRow Sid β}
    (h : m ∈ blockRows sid blocks) : 0 ≤ m.seqNum ∧ m.seqNum < blocks.length := by
  obtain ⟨j, b, rfl, h0, hj⟩ := exists_of_mem_number h
  exact ⟨h0, by simpa using hj⟩

theorem streamId_of_mem_poolRows {m : MinipoolRow Sid ε}
    (hm : m ∈ poolRows sid g pool) : m.streamId = sid := by
  obtain ⟨j, e, rfl, -, -⟩ := exists_of_mem_number hm
  rfl

theorem checkMinipoolRows_number (sid : Sid) (g : Int) (pool : List ε) (i : Int) :
    checkMinipoolRows g (number (fun i e => (⟨sid, g, i, some e⟩ : MinipoolRow Sid ε)) i pool) i =
      .ok (i + pool.length) := by
  induction pool generalizing i with
  | nil => simp [checkMinipoolRows]
  | cons e pool ih => simp [checkMinipoolRows, ih, Int.add_assoc, Int.add_comm 1]

theorem scanMiniblocks_number (sid : Sid) (blocks : List β) (i last : Int) :
    scanMiniblocks (number (fun i b => (⟨sid, i, b⟩ : MiniblockRow Sid β)) i blocks) i last =
      .ok (blocks, if blocks = [] then last else i + blocks.length - 1) := by
  induction blocks generalizing i last with
  | nil => simp [scanMiniblocks]
  | cons b blocks ih =>
    have hlast : (if blocks = [] then i else i + 1 + (blocks.length : Int) - 1) =
        i + (b :: blocks).length - 1 := by
      cases blocks with
      | nil => simp
      | cons c cs => simp only [reduceCtorEq, if_false, length_cons]; omega
    simp [scanMiniblocks, ih, hlast]

theorem scanMinipool_number [Inhabited ε] (sid : Sid) (g : Int) (pool : List ε) (i : Int) :
    scanMinipool g (number (fun i e => (⟨sid, g, i, some e⟩ : MinipoolRow Sid ε)) i pool) i =
      .ok pool := by
  induction pool generalizing i with
  | nil => rfl
  | cons e pool ih => simp [scanMinipool, ih]

section Reading

variable [DecidableEq Sid] {db : Db Sid H β ε} {sid : Sid} {r : StreamRecord H β ε}

theorem maxSeqNum_of_blockRows (h : rowsOf (·.streamId) sid db.miniblocks = blockRows sid blocks)
    (hne : blocks ≠ []) :
    db.maxSeqNum sid = some ((blocks.length : Int) - 1) := by
  obtain ⟨_, b, rfl⟩ := (eq_nil_or_concat' blocks).resolve_left hne
  unfold Db.maxSeqNum
  rw [h, max?_eq_some_iff]
  constructor
  · simp [blockRows_concat]
  intro n hn
  obtain ⟨m, hm, rfl⟩ := mem_map.1 hn
  have := (blockRows_seqNum_mem hm).2
  omega

theorem Represents.maxSeqNum (h : Represents db sid r) :
    db.maxSeqNum sid = some (r.generation - 1) :=
  maxSeqNum_of_blockRows h.miniblocks r.blocks_ne

theorem Represents.orderBy_slotNum (h : Represents db sid r) :
    orderBy (·.slotNum) (rowsOf (·.streamId) sid db.minipools) =
      ⟨sid, r.generation, -1, none⟩ :: poolRows sid r.generation r.pool := by
  rw [h.minipools]
  refine orderBy_eq_self (.cons (fun m hm => ?_) ?_)
  · obtain ⟨j, e, rfl, _, -⟩ := exists_of_mem_number hm
    show (-1 : Int) ≤ j
    omega
  · exact (pairwise_number MinipoolRow.slotNum (fun _ _ => rfl) 0 r.pool).imp fun h => le_of_lt h

theorem Represents.read [Inhabited ε] (h : Represents db sid r) (precedingBlockCount : Int) :
    readStreamFromLastSnapshotTx db sid precedingBlockCount =
      .ok (r.read precedingBlockCount) := by
  have hblocks : orderBy (·.seqNum) ((rowsOf (·.streamId) sid db.miniblocks).filter
      (fun m => m.seqNum ≥ (r.latestSnapshot : Int))) =
      number (fun i b => ⟨sid, i, b⟩) r.latestSnapshot (r.blocks.drop r.latestSnapshot) := by
    have hfilter := filter_number MiniblockRow.seqNum
      (fun i (b : β) => (rfl : (⟨sid, i, b⟩ : MiniblockRow Sid β).seqNum = i))
      0 r.latestSnapshot r.blocks
    rw [Int.zero_add] at hfilter
    rw [h.miniblocks, blockRows, hfilter]
    exact orderBy_number _ (fun _ _ => rfl) _ _
  have hpool : orderBy (fun m => toLex (m.generation, m.slotNum))
      ((rowsOf (·.streamId) sid db.minipools).filter (fun m => m.slotNum > -1)) =
      poolRows sid r.generation r.pool := by
    have hkeep : ∀ m ∈ poolRows sid r.generation r.pool, decide (m.slotNum > -1) = true := by
      intro m hm
      obtain ⟨j, e, rfl, _, -⟩ := exists_of_mem_number hm
      exact decide_eq_true (show (-1 : Int) < j by omega)
    rw [h.minipools, filter_cons_of_neg (by simp), filter_eq_self.2 hkeep]
    refine orderBy_eq_self (.imp_of_mem (fun {a b} ha hb hlt => ?_)
      (pairwise_number MinipoolRow.slotNum (fun _ _ => rfl) 0 r.pool))
    obtain ⟨j, e, rfl, -, -⟩ := exists_of_mem_number ha
    obtain ⟨k, f, rfl, -, -⟩ := exists_of_mem_number hb
    exact Prod.Lex.toLex_le_toLex.2 (.inr ⟨rfl, le_of_lt hlt⟩)
  have hne : r.blocks.drop r.latestSnapshot ≠ [] := by
    have := r.latestSnapshot_lt
    simp [drop_eq_nil_iff]
    omega
  have hlast : (r.latestSnapshot : Int) + ((r.blocks.drop r.latestSnapshot).length : Int) - 1 + 1 =
      r.generation := by
    have := r.latestSnapshot_lt
    simp only [StreamRecord.generation, length_drop]
    omega
  unfold readStreamFromLastSnapshotTx
  simp only [h.es, hblocks, hpool, scanMiniblocks_number, Res.ok_bind, if_neg hne, hlast, poolRows,
    scanMinipool_number]
  rfl

end Reading

end River.Node.Storage
