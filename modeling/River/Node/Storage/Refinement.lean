/-
  The transactions of the store implement the operations on `StreamRecord`, and touch the rows of
  one stream only.
-/

import River.Node.Storage.StreamRecord

namespace River.Node.Storage

open River.Lib River.Lib.Table Function List StreamRecord

variable {Sid H β ε : Type} [DecidableEq Sid]
variable {db : Db Sid H β ε} {sid : Sid} {r : StreamRecord H β ε}

def Implements (db : Db Sid H β ε) (sid : Sid) (x : Res (Db Sid H β ε)) :
    Option (StreamRecord H β ε) → Prop
  | some r' => ∃ db', x = .ok db' ∧ Represents db' sid r' ∧ ∀ o ≠ sid, SameRows o db db'
  | none => ∃ e, x = .error e

/-! ## Statements -/

theorem insertEs_of_mem (h : rowsOf (·.streamId) sid db.es ≠ []) (n : Int) :
    db.insertEs ⟨sid, n⟩ = .error .uniqueViolation := by
  obtain ⟨row, hrow⟩ := exists_mem_of_ne_nil _ h
  obtain ⟨hmem, hsid⟩ := mem_rowsOf.1 hrow
  have hkey : sid ∈ db.es.map (·.streamId) := mem_map.2 ⟨row, hmem, hsid⟩
  simp [Db.insertEs, insertUnique, hkey]

theorem insertEs_of_nil (h : rowsOf (·.streamId) sid db.es = []) (n : Int) :
    db.insertEs ⟨sid, n⟩ = .ok { db with es := db.es ++ [⟨sid, n⟩] } := by
  have hins := insertUnique_of_rowsOf EsRow.streamId EsRow.streamId (fun _ _ h => h) db.es ⟨sid, n⟩
    (by simp [h])
  simp [Db.insertEs, hins]

theorem insertMinipool_eq (hp : db.hasPartition .minipools sid = true) {g i : Int} {e : Option ε}
    (hk : ∀ m ∈ rowsOf (·.streamId) sid db.minipools, ¬ (m.generation = g ∧ m.slotNum = i)) :
    db.insertMinipool ⟨sid, g, i, e⟩ =
      .ok { db with minipools := db.minipools ++ [⟨sid, g, i, e⟩] } := by
  have hins := insertUnique_of_rowsOf MinipoolRow.streamId
    (fun m => (m.streamId, m.generation, m.slotNum)) (fun _ _ h => (Prod.mk.inj h).1) db.minipools
    ⟨sid, g, i, e⟩ (by
      simp only [mem_map, Prod.mk.injEq, not_exists, not_and]
      exact fun m hm _ hg hi => hk m hm ⟨hg, hi⟩)
  simp [Db.insertMinipool, hp, hins]

theorem insertMiniblock_eq (hp : db.hasPartition .miniblocks sid = true) {i : Int} {b : β}
    (hk : ∀ m ∈ rowsOf (·.streamId) sid db.miniblocks, m.seqNum ≠ i) :
    db.insertMiniblock ⟨sid, i, b⟩ =
      .ok { db with miniblocks := db.miniblocks ++ [⟨sid, i, b⟩] } := by
  have hins := insertUnique_of_rowsOf MiniblockRow.streamId (fun m => (m.streamId, m.seqNum))
    (fun _ _ h => (Prod.mk.inj h).1) db.miniblocks ⟨sid, i, b⟩ (by
      simp only [mem_map, Prod.mk.injEq, not_exists, not_and]
      exact fun m hm _ => hk m hm)
  simp [Db.insertMiniblock, hp, hins]

theorem insertEnvelopes_eq (hp : db.hasPartition .minipools sid = true) {g i : Int}
    (hk : ∀ m ∈ rowsOf (·.streamId) sid db.minipools, m.generation = g → m.slotNum < i)
    (envelopes : List ε) :
    insertEnvelopes sid g envelopes i db = .ok { db with
      minipools := db.minipools ++ number (fun i e => ⟨sid, g, i, some e⟩) i envelopes } := by
  induction envelopes generalizing i db with
  | nil => simp [insertEnvelopes]
  | cons e envelopes ih =>
    have hfresh : ∀ m ∈ rowsOf (·.streamId) sid db.minipools,
        ¬ (m.generation = g ∧ m.slotNum = i) := by
      rintro m hm ⟨hg, _⟩
      exact absurd (hk m hm hg) (by omega)
    -- the row just inserted is in slot `i`, below every slot still to come
    have hk' : ∀ m ∈ rowsOf (·.streamId) sid (db.minipools ++ [⟨sid, g, i, some e⟩]),
        m.generation = g → m.slotNum < i + 1 := by
      intro m hm hg
      rw [rowsOf_append, mem_append] at hm
      rcases hm with hm | hm
      · have := hk m hm hg
        omega
      · obtain rfl : m = ⟨sid, g, i, some e⟩ := by simpa using hm
        show i < i + 1
        omega
    let db1 : Db Sid H β ε := { db with minipools := db.minipools ++ [⟨sid, g, i, some e⟩] }
    have hp1 : db1.hasPartition .minipools sid = true := hp
    have hrest := ih hp1 hk'
    simp only [insertEnvelopes, insertMinipool_eq hp hfresh, bind, Except.bind]
    rw [hrest]
    simp [db1]

omit [DecidableEq Sid] in
theorem ofSql_eq_ok {x : Except PgError α} (h : ofSql x = .ok a) : x = .ok a := by
  cases x with
  | ok a' =>
    cases h
    rfl
  | error e => cases h

/-! ## Refinement of the transactions -/

theorem writeEventTx_implements (h : Represents db sid r) (g slot : Int) (e : ε) :
    Implements db sid (writeEventTx db sid g slot e) (r.writeEvent g slot e) := by
  by_cases hg : g = r.generation
  swap
  · -- the service row already has another generation
    have hbad : (g = r.generation ∧ slot = r.pool.length) = False := by simp [hg]
    simp only [writeEvent, hbad, writeEventTx,
      h.orderBy_slotNum, checkMinipoolRows, ne_eq, Ne.symm hg]
    exact ⟨_, rfl⟩
  subst hg
  have hcount : checkMinipoolRows r.generation
      (⟨sid, r.generation, -1, none⟩ :: poolRows sid r.generation r.pool) (-1) =
      .ok (r.pool.length : Int) := by
    have := checkMinipoolRows_number sid r.generation r.pool 0
    simpa [checkMinipoolRows, poolRows] using this
  by_cases hslot : slot = r.pool.length
  swap
  · simp only [writeEvent, hslot, writeEventTx,
      h.orderBy_slotNum, hcount, Res.ok_bind, ne_eq, Ne.symm hslot]
    exact ⟨_, rfl⟩
  subst hslot
  have hfresh : ∀ m ∈ rowsOf (·.streamId) sid db.minipools,
      ¬ (m.generation = r.generation ∧ m.slotNum = (r.pool.length : Int)) := by
    rintro m hm ⟨-, hlen⟩
    rw [h.minipools] at hm
    rcases mem_cons.1 hm with rfl | hm
    · exact absurd hlen (by simp)
    · obtain ⟨j, e, rfl, -, hj⟩ := exists_of_mem_number hm
      exact absurd hlen (by simp at hj ⊢; omega)
  simp only [writeEvent, Implements, writeEventTx,
    h.orderBy_slotNum, hcount, Res.ok_bind, ne_eq,
    insertMinipool_eq (h.partitions _) hfresh]
  refine ⟨_, rfl, ⟨h.es, h.miniblocks, ?_, h.candidates, h.partitions⟩, fun o ho => ?_⟩
  · rw [rowsOf_append_of_eq (by simp), h.minipools]
    simp [poolRows, number_append, StreamRecord.generation]
  · exact ⟨rfl, rfl, rowsOf_append_of_ne (by simpa using Ne.symm ho), rfl, fun _ => rfl⟩

theorem writeBlockProposalTxn_implements [DecidableEq H] (h : Represents db sid r) (hash : H)
    (num : Int) (b : β) :
    Implements db sid (writeBlockProposalTxn db sid hash num b)
      (r.writeBlockProposal hash num b) := by
  have hmax : (r.generation - 1 + 1 : Int) = r.generation := by omega
  unfold writeBlockProposal writeBlockProposalTxn
  simp only [h.maxSeqNum, hmax]
  by_cases hn : num < r.generation
  · simp only [hn]
    exact ⟨_, rfl⟩
  -- a key of the table that clashes is a candidate of this stream
  have hkey : (sid, hash, num) ∈ db.miniblockCandidates.map
        (fun c => (c.streamId, c.blockHash, c.seqNum)) ↔
      (hash, num) ∈ r.candidates.map (fun c => (c.blockHash, c.seqNum)) := by
    have hclash := mem_map_key_iff (fun c : CandidateRow Sid H β => c.streamId)
      (fun c => (c.streamId, c.blockHash, c.seqNum)) (fun a c hac => (Prod.mk.inj hac).1)
      db.miniblockCandidates ⟨sid, num, hash, b⟩
    rw [h.candidates] at hclash
    simpa [candidateRows] using hclash
  simp only [hn, Db.insertCandidate, h.partitions .miniblockCandidates, insertUnique]
  by_cases hk : (hash, num) ∈ r.candidates.map (fun c => (c.blockHash, c.seqNum))
  · simp only [hkey, hk]
    exact ⟨_, rfl, h, fun o _ => .refl o db⟩
  simp only [hkey, hk]
  refine ⟨_, rfl, ⟨h.es, h.miniblocks, h.minipools, ?_, h.partitions⟩, fun o ho => ?_⟩
  · rw [rowsOf_append_of_eq (by simp), h.candidates]
    simp [candidateRows]
  · exact ⟨rfl, rfl, rfl, rowsOf_append_of_ne (by simpa using Ne.symm ho), fun _ => rfl⟩

theorem Represents.resetMinipool (h : Represents db sid r) (g : Int) :
    rowsOf (·.streamId) sid
      ((db.deleteMinipoolEvents sid).setMinipoolGeneration sid g).minipools =
      [⟨sid, g, -1, none⟩] := by
  have hkeep : ∀ m ∈ poolRows sid r.generation r.pool,
      ¬ decide (¬ (m.slotNum > -1 ∧ m.streamId = sid)) = true := by
    intro m hm
    obtain ⟨j, e, rfl, _, -⟩ := exists_of_mem_number hm
    have : (-1 : Int) < j := by omega
    simp [this]
  unfold Db.setMinipoolGeneration Db.deleteMinipoolEvents
  rw [rowsOf_map (fun m => by split <;> rfl), rowsOf_filter, h.minipools,
    filter_cons_of_pos (by simp), filter_eq_nil_iff.2 hkeep]
  simp

theorem sameRows_resetMinipool {o : Sid} (ho : o ≠ sid) (g : Int) :
    SameRows o db ((db.deleteMinipoolEvents sid).setMinipoolGeneration sid g) := by
  refine ⟨rfl, rfl, ?_, rfl, fun _ => rfl⟩
  unfold Db.setMinipoolGeneration Db.deleteMinipoolEvents
  rw [rowsOf_map (fun m => by split <;> rfl),
    rowsOf_filter_of_keep (fun m _ hm => by simp [hm, ho])]
  refine (map_congr_left fun m hm => ?_).trans (map_id _)
  have : m.streamId ≠ sid := (mem_rowsOf.1 hm).2 ▸ ho
  simp [this]

theorem Represents.setLatestSnapshot (h : Represents db sid r) (g : Int) :
    rowsOf (·.streamId) sid (db.setLatestSnapshot sid g).es = [⟨sid, g⟩] := by
  unfold Db.setLatestSnapshot
  rw [rowsOf_map (fun m => by split <;> rfl), h.es]
  simp

theorem sameRows_setLatestSnapshot {o : Sid} (ho : o ≠ sid) (g : Int) :
    SameRows o db (db.setLatestSnapshot sid g) := by
  refine ⟨?_, rfl, rfl, rfl, fun _ => rfl⟩
  unfold Db.setLatestSnapshot
  rw [rowsOf_map (fun m => by split <;> rfl)]
  refine (map_congr_left fun m hm => ?_).trans (map_id _)
  have : m.streamId ≠ sid := (mem_rowsOf.1 hm).2 ▸ ho
  simp [this]

theorem Represents.selectCandidates [DecidableEq H] (h : Represents db sid r) (hash : H) :
    db.selectCandidates sid r.generation hash =
      candidateRows sid (r.candidate? hash).toList := by
  -- the query selects among the stream's own rows
  have hown : db.selectCandidates sid r.generation hash =
      (candidateRows sid r.candidates).filter
        (fun c => c.seqNum = r.generation ∧ c.blockHash = hash) := by
    rw [← h.candidates, rowsOf, filter_filter]
    exact filter_congr fun c _ => by by_cases hc : c.streamId = sid <;> simp [hc]
  have hnodup := r.candidates_nodup
  rw [hown, candidateRows, filter_map, candidate?]
  revert hnodup
  -- keys are distinct, so a filter by key keeps at most the first match
  induction r.candidates with
  | nil => intro _; rfl
  | cons c cs ih =>
    intro hnodup
    rw [map_cons, nodup_cons] at hnodup
    simp only [comp_def] at ih ⊢
    by_cases hc : c.seqNum = r.generation ∧ c.blockHash = hash
    · have hrest : cs.filter (fun d => decide (d.seqNum = r.generation ∧ d.blockHash = hash)) =
          [] := by
        refine filter_eq_nil_iff.2 fun d hd hd' => ?_
        obtain ⟨hs, hh⟩ := of_decide_eq_true hd'
        exact hnodup.1 (mem_map.2 ⟨d, hd, by rw [hs, hh, hc.1, hc.2]⟩)
      rw [filter_cons_of_pos (by simpa using hc), find?_cons_of_pos (by simpa using hc), hrest]
      rfl
    · rw [filter_cons_of_neg (by simpa using hc), find?_cons_of_neg (by simpa using hc)]
      exact ih hnodup.2

theorem insertMiniblocks_candidate [DecidableEq H] (hp : db.hasPartition .miniblocks sid = true)
    (hb : rowsOf (·.streamId) sid db.miniblocks = blockRows sid r.blocks) {hash : H}
    (hc : r.candidate? hash = some c) :
    insertMiniblocks ((candidateRows sid [c]).map fun m => ⟨m.streamId, m.seqNum, m.blockdata⟩) db =
      .ok { db with miniblocks := db.miniblocks ++ [⟨sid, r.generation, c.blockdata⟩] } := by
  have hseq : c.seqNum = r.generation := by
    have := find?_some hc
    simp only [decide_eq_true_eq] at this
    exact this.1
  have hfresh : ∀ m ∈ rowsOf (·.streamId) sid db.miniblocks, m.seqNum ≠ r.generation := by
    intro m hm
    rw [hb] at hm
    have := (blockRows_seqNum_mem hm).2
    rw [generation]
    omega
  simp only [candidateRows, map_cons, insertMiniblocks, hseq, insertMiniblock_eq hp hfresh]
  rfl

structure MinipoolReplaced (db : Db Sid H β ε) (sid : Sid) (r : StreamRecord H β ε)
    (snapshotMiniblock : Bool) (envelopes : List ε) (db' : Db Sid H β ε) : Prop where
  es : rowsOf (·.streamId) sid db'.es =
    [⟨sid, ((if snapshotMiniblock then r.blocks.length else r.latestSnapshot : Nat) : Int)⟩]
  minipools : rowsOf (·.streamId) sid db'.minipools =
    ⟨sid, r.generation + 1, -1, none⟩ :: poolRows sid (r.generation + 1) envelopes
  miniblocks : db'.miniblocks = db.miniblocks
  candidates : db'.miniblockCandidates = db.miniblockCandidates
  partitions : ∀ t, db'.hasPartition t sid = true
  others : ∀ o ≠ sid, SameRows o db db'

theorem Represents.replaceMinipool (h : Represents db sid r) (snap : Bool) (envelopes : List ε) :
    ∃ db', insertEnvelopes sid (r.generation + 1) envelopes 0
        (if snap = true then ((db.deleteMinipoolEvents sid).setMinipoolGeneration sid
          (r.generation + 1)).setLatestSnapshot sid r.generation
        else (db.deleteMinipoolEvents sid).setMinipoolGeneration sid (r.generation + 1)) = .ok db' ∧
      MinipoolReplaced db sid r snap envelopes db' := by
  set db1 := if snap = true then ((db.deleteMinipoolEvents sid).setMinipoolGeneration sid
          (r.generation + 1)).setLatestSnapshot sid r.generation
        else (db.deleteMinipoolEvents sid).setMinipoolGeneration sid (r.generation + 1) with hdb1
  have hreset : MinipoolReplaced db sid r snap [] db1 := by
    cases snap with
    | false =>
      exact ⟨h.es, h.resetMinipool _, rfl, rfl, h.partitions, fun o ho =>
        sameRows_resetMinipool ho _⟩
    | true =>
      exact ⟨h.setLatestSnapshot _, h.resetMinipool _, rfl, rfl, h.partitions,
        fun o ho => (sameRows_resetMinipool ho _).trans (sameRows_setLatestSnapshot ho _)⟩
  have hservice : ∀ m ∈ rowsOf (·.streamId) sid db1.minipools,
      m.generation = r.generation + 1 → m.slotNum < 0 := by
    rw [hreset.minipools]
    simp [poolRows]
  refine ⟨_, insertEnvelopes_eq (hreset.partitions _) hservice envelopes, ?_⟩
  refine ⟨hreset.es, ?_, hreset.miniblocks, hreset.candidates, hreset.partitions, fun o ho => ?_⟩
  · rw [rowsOf_append_of_eq (fun m hm => streamId_of_mem_poolRows hm), hreset.minipools]
    rfl
  · refine (hreset.others o ho).trans ⟨rfl, rfl, ?_, rfl, fun _ => rfl⟩
    exact rowsOf_append_of_ne fun m hm => (streamId_of_mem_poolRows hm).trans_ne (.symm ho)

theorem promoteBlockTxn_implements [DecidableEq H] (h : Represents db sid r) (g : Int) (hash : H)
    (snap : Bool) (envelopes : List ε) :
    Implements db sid (promoteBlockTxn db sid g hash snap envelopes)
      (r.promoteBlock g hash snap envelopes) := by
  have hmax : (r.generation - 1 + 1 : Int) = r.generation := by omega
  unfold promoteBlock promoteBlockTxn
  simp only [h.maxSeqNum, hmax]
  by_cases hg : g = r.generation
  swap
  · simp only [hg, ne_eq]
    exact ⟨_, rfl⟩
  subst hg
  obtain ⟨db1, henv, hdb1⟩ := h.replaceMinipool snap envelopes
  have hsel : db1.selectCandidates sid r.generation hash =
      candidateRows sid (r.candidate? hash).toList := by
    rw [← h.selectCandidates hash, Db.selectCandidates, hdb1.candidates, Db.selectCandidates]
  simp only [ne_eq, henv, ofSql, Res.ok_bind, hsel]
  cases hc : r.candidate? hash with
  | none =>
    exact ⟨_, rfl⟩
  | some c =>
    have hins := insertMiniblocks_candidate (hdb1.partitions .miniblocks)
      (by rw [hdb1.miniblocks]; exact h.miniblocks) hc
    rw [Option.toList_some, hins]
    refine ⟨_, rfl, ⟨hdb1.es, ?_, ?_, ?_, hdb1.partitions⟩, fun o ho => ⟨(hdb1.others o ho).es,
      ?_, (hdb1.others o ho).minipools, ?_, (hdb1.others o ho).partitions⟩⟩
    · show rowsOf _ sid (db1.miniblocks ++ _) = _
      rw [rowsOf_append_of_eq (by simp), hdb1.miniblocks, h.miniblocks]
      simp [promote, blockRows_concat, generation]
    · show rowsOf _ sid db1.minipools = _
      rw [hdb1.minipools]
      simp [promote, generation]
    · show rowsOf _ sid (db1.miniblockCandidates.filter _) = _
      rw [rowsOf_filter, hdb1.candidates, h.candidates, candidateRows, candidateRows, filter_map]
      simp [promote, comp_def]
    · show rowsOf _ o (db1.miniblocks ++ _) = _
      rw [rowsOf_append_of_ne (by simpa using Ne.symm ho), hdb1.miniblocks]
    · show rowsOf _ o (db1.miniblockCandidates.filter _) = _
      rw [rowsOf_filter_of_keep fun m _ hm => by simp [hm, ho], hdb1.candidates]

/-! ## Streams that are not there -/

theorem createPartition_cases (db : Db Sid H β ε) (p : Partition Sid) :
    (∃ e, e ≠ .uniqueViolation ∧ db.createPartition p = .error e) ∨
      db.createPartition p = .ok { db with partitions := db.partitions ++ [p] } := by
  unfold Db.createPartition
  split
  · exact .inl ⟨_, by decide, rfl⟩
  · split
    · exact .inl ⟨_, by decide, rfl⟩
    · exact .inr rfl

theorem createPartitions_cases (db : Db Sid H β ε) (suffix : String) (sid : Sid) :
    (∃ e, e ≠ .uniqueViolation ∧ db.createPartitions suffix sid = .error e) ∨
      ∃ ps, db.createPartitions suffix sid = .ok { db with partitions := ps } ∧
        (∀ t, ({ db with partitions := ps } : Db Sid H β ε).hasPartition t sid = true) ∧
        ∀ o ≠ sid, ∀ t, ({ db with partitions := ps } : Db Sid H β ε).hasPartition t o =
          db.hasPartition t o := by
  unfold Db.createPartitions
  rcases createPartition_cases db ⟨.miniblocks, suffix, sid⟩ with ⟨e, he, hp⟩ | hp1
  · exact .inl ⟨e, he, by rw [hp]; rfl⟩
  simp only [hp1, bind, Except.bind]
  rcases createPartition_cases (.mk db.es db.miniblocks db.minipools db.miniblockCandidates
    (db.partitions ++ [⟨.miniblocks, suffix, sid⟩]))
      ⟨.minipools, suffix, sid⟩ with ⟨e, he, hp⟩ | hp2
  · exact .inl ⟨e, he, by rw [hp]⟩
  simp only [hp2]
  rcases createPartition_cases (.mk db.es db.miniblocks db.minipools db.miniblockCandidates
    (db.partitions ++ [⟨.miniblocks, suffix, sid⟩] ++ [⟨.minipools, suffix, sid⟩]))
    ⟨.miniblockCandidates, suffix, sid⟩ with ⟨e, he, hp⟩ | hp3
  · exact .inl ⟨e, he, hp⟩
  refine .inr ⟨_, hp3, fun t => ?_, fun o ho t => ?_⟩
  · cases t <;> simp [Db.hasPartition]
  · simp [Db.hasPartition, ho]

theorem createStreamStorageTx_absent (h : Absent db sid) (suffix : Sid → String) (b : β) :
    Implements db sid (createStreamStorageTx suffix db sid b)
        (some (create b)) ∨
      Implements db sid (createStreamStorageTx suffix db sid b) none := by
  unfold createStreamStorageTx createStreamStatements
  simp only [insertEs_of_nil h.es, bind, Except.bind]
  rcases createPartitions_cases (.mk (db.es ++ [⟨sid, 0⟩]) db.miniblocks db.minipools
    db.miniblockCandidates db.partitions) (suffix sid) sid with ⟨e, he, hp⟩ | ⟨ps, hp, hown, hother⟩
  · -- a partition that cannot be created ends the transaction
    right
    simp only [hp]
    cases e with
    | uniqueViolation => exact absurd rfl he
    | _ => exact ⟨_, rfl⟩
  left
  have hblock := insertMiniblock_eq (i := 0) (b := b) (hown .miniblocks) (by simp [h.miniblocks])
  have hpart : ∀ t, (Db.mk (db.es ++ [⟨sid, 0⟩]) (db.miniblocks ++ [⟨sid, 0, b⟩]) db.minipools
    db.miniblockCandidates ps).hasPartition t sid = true := hown
  have hpool := insertMinipool_eq (g := 1) (i := -1) (e := none) (hpart .minipools)
    (by simp [h.minipools])
  simp only [hp, hblock, hpool]
  refine ⟨_, rfl, ⟨?_, ?_, ?_, h.candidates, hpart⟩, fun o ho => ⟨?_, ?_, ?_, rfl, hother o ho⟩⟩
  · rw [rowsOf_append_of_eq (by simp), h.es]
    rfl
  · rw [rowsOf_append_of_eq (by simp), h.miniblocks]
    rfl
  · rw [rowsOf_append_of_eq (by simp), h.minipools]
    rfl
  · exact rowsOf_append_of_ne (by simpa using Ne.symm ho)
  · exact rowsOf_append_of_ne (by simpa using Ne.symm ho)
  · exact rowsOf_append_of_ne (by simpa using Ne.symm ho)

theorem createStreamStorageTx_eq_ok (h : Absent db sid)
    (hok : createStreamStorageTx suffix db sid b = .ok db') :
    Represents db' sid (create b) := by
  rcases createStreamStorageTx_absent h suffix b with ⟨_, hdb1, hrep, -⟩ | ⟨e, he⟩
  · rw [hok, Res.ok.injEq] at hdb1
    exact hdb1 ▸ hrep
  · rw [hok] at he
    cases he

theorem createStreamStorageTx_represented (h : Represents db sid r)
    (suffix : Sid → String) (b : β) :
    createStreamStorageTx suffix db sid b = riverError .alreadyExists "stream already exists" := by
  unfold createStreamStorageTx createStreamStatements
  rw [insertEs_of_mem (by simp [h.es])]
  rfl

variable [DecidableEq H] (suffix : Sid → String)

theorem Call.tx_absent (c : Call Sid H β ε) (h : Absent db c.streamId) :
    (∃ b, c = .createStreamStorage c.streamId b) ∨ ∃ e, c.tx suffix db = .error e := by
  have hmax : db.maxSeqNum c.streamId = none := by
    simp [Db.maxSeqNum, h.miniblocks]
  cases c with
  | createStreamStorage sid b => exact .inl ⟨b, rfl⟩
  | writeEvent sid g slot e =>
    -- an empty minipool counts to -1, and then there is no partition to insert into
    right
    have hrows : rowsOf (·.streamId) sid db.minipools = [] := h.minipools
    have hpart : db.hasPartition .minipools sid = false := h.partitions _
    simp only [Call.tx, writeEventTx, hrows, orderBy, insertionSort_nil, checkMinipoolRows,
      Res.ok_bind, Db.insertMinipool, hpart]
    split <;> exact ⟨_, rfl⟩
  | writeBlockProposal sid hash num b =>
    have hnone : db.maxSeqNum sid = none := hmax
    exact .inr ⟨_, by simp only [Call.tx, writeBlockProposalTxn, hnone]; rfl⟩
  | promoteBlock sid g hash snap es =>
    exact .inr
      ⟨_, by simp only [Call.tx, promoteBlockTxn, show db.maxSeqNum sid = none from hmax]; rfl⟩

/-! ## Every sequence of calls -/

def Db.Sound (db : Db Sid H β ε) : Prop :=
  ∀ sid, Absent db sid ∨ ∃ r, Represents db sid r

theorem call_cases (h : db.Sound) (c : Call Sid H β ε × Bool) : (call suffix db c).1 = db ∨
      (∃ r, Represents (call suffix db c).1 c.1.streamId r) ∧
        ∀ o ≠ c.1.streamId, SameRows o db (call suffix db c).1 := by
  obtain ⟨c, fault⟩ := c
  cases fault with
  | true => exact .inl rfl
  | false =>
    -- a result that implements some record operation is one of the two
    have hcommit : ∀ a, Implements db c.streamId (c.tx suffix db) a →
        (call suffix db (c, false)).1 = db ∨
          (∃ r, Represents (call suffix db (c, false)).1 c.streamId r) ∧
            ∀ o ≠ c.streamId, SameRows o db (call suffix db (c, false)).1 := by
      intro a ha
      cases a with
      | none =>
        obtain ⟨e, he⟩ := ha
        exact .inl (by simp [call, he, commit])
      | some r =>
        obtain ⟨db', hok, hr, ho⟩ := ha
        have heq : (call suffix db (c, false)).1 = db' := by simp [call, hok, commit]
        rw [heq]
        exact .inr ⟨⟨r, hr⟩, ho⟩
    rcases h c.streamId with habs | ⟨r, hr⟩
    · rcases c.tx_absent suffix habs with ⟨b, hb⟩ | he
      · rw [hb] at habs hcommit ⊢
        rcases createStreamStorageTx_absent habs suffix b with ha | ha <;> exact hcommit _ ha
      · exact hcommit none he
    · cases c with
      | createStreamStorage sid b =>
        exact hcommit none ⟨_, createStreamStorageTx_represented hr suffix b⟩
      | writeEvent sid g slot e => exact hcommit _ (writeEventTx_implements hr g slot e)
      | writeBlockProposal sid hash num b =>
        exact hcommit _ (writeBlockProposalTxn_implements hr hash num b)
      | promoteBlock sid g hash snap es =>
        exact hcommit _ (promoteBlockTxn_implements hr g hash snap es)

theorem call_sound (h : db.Sound) (c : Call Sid H β ε × Bool) : (call suffix db c).1.Sound := by
  rcases call_cases suffix h c with heq | ⟨hown, hother⟩
  · rwa [heq]
  intro sid
  by_cases hs : sid = c.1.streamId
  · exact .inr (hs ▸ hown)
  · rcases h sid with habs | ⟨r, hr⟩
    · exact .inl (habs.congr (hother sid hs))
    · exact .inr ⟨r, hr.congr (hother sid hs)⟩

/-- The rows of blocks 0 to `n` and `k` events. -/
structure ConsistentRows (db : Db Sid H β ε) (sid : Sid) (n k : Nat) : Prop where
  miniblocks : (rowsOf (·.streamId) sid db.miniblocks).map (·.seqNum) =
    (range (n + 1)).map (fun i : Nat => (i : Int))
  minipools : (rowsOf (·.streamId) sid db.minipools).map (fun m => (m.generation, m.slotNum)) =
    ((n : Int) + 1, (-1 : Int)) :: (range k).map (fun i : Nat => ((n : Int) + 1, (i : Int)))
  latestSnapshot : ∃ row, rowsOf (·.streamId) sid db.es = [row] ∧
    0 ≤ row.latestSnapshotMiniblock ∧ row.latestSnapshotMiniblock ≤ n
  candidates : ∀ c ∈ rowsOf (·.streamId) sid db.miniblockCandidates, (n : Int) < c.seqNum

omit [DecidableEq H] in
theorem Represents.consistentRows (h : Represents db sid r) :
    ConsistentRows db sid (r.blocks.length - 1) r.pool.length := by
  have hpos : r.blocks.length - 1 + 1 = r.blocks.length := by
    have := length_pos_of_ne_nil r.blocks_ne
    omega
  have hgen : ((r.blocks.length - 1 : Nat) : Int) + 1 = r.generation := by
    rw [generation]
    omega
  refine ⟨?_, ?_, ⟨_, h.es, by simp, ?_⟩, fun c hc => ?_⟩
  · rw [h.miniblocks, blockRows, map_number MiniblockRow.seqNum (fun _ _ => rfl), number_eq_range,
      hpos]
    simp
  · rw [h.minipools, hgen, map_cons, poolRows]
    have hpair :
        (number (fun i e => (⟨sid, r.generation, i, some e⟩ : MinipoolRow Sid ε)) 0 r.pool).map
        (fun m => (m.generation, m.slotNum)) =
        ((number (fun i e => (⟨sid, r.generation, i, some e⟩ : MinipoolRow Sid ε)) 0 r.pool).map
          MinipoolRow.slotNum).map (fun i => (r.generation, i)) := by
      rw [map_map]
      refine map_congr_left fun m hm => ?_
      obtain ⟨j, e, rfl, -, -⟩ := exists_of_mem_number hm
      rfl
    rw [hpair, map_number MinipoolRow.slotNum (fun _ _ => rfl), number_eq_range]
    simp [comp_def]
  · have := r.latestSnapshot_lt
    show (r.latestSnapshot : Int) ≤ ((r.blocks.length - 1 : Nat) : Int)
    omega
  · rw [h.candidates] at hc
    obtain ⟨c, hmem, rfl⟩ := mem_map.1 hc
    have := r.candidates_ge c hmem
    show ((r.blocks.length - 1 : Nat) : Int) < c.seqNum
    omega

theorem exec_sound (calls : List (Call Sid H β ε × Bool)) :
    ((pgMachine suffix).exec Db.empty calls).Sound := by
  have hstep : ∀ (db : Db Sid H β ε) c, db.Sound → ((pgMachine suffix).next db c).Sound :=
    fun _ c hs => call_sound suffix hs c
  exact Machine.exec_invariant hstep (fun _ => .inl ⟨rfl, rfl, rfl, rfl, fun _ => rfl⟩) calls

theorem exec_represents (calls : List (Call Sid H β ε × Bool))
    (hsid : sid ∈ ((pgMachine suffix).exec Db.empty calls).es.map (·.streamId)) :
    ∃ r, Represents ((pgMachine suffix).exec Db.empty calls) sid r := by
  refine (exec_sound suffix calls sid).resolve_left fun habs => ?_
  obtain ⟨row, hrow, rfl⟩ := mem_map.1 hsid
  have : row ∈ rowsOf (·.streamId) row.streamId _ := mem_rowsOf.2 ⟨hrow, rfl⟩
  simp [habs.es] at this

/-- After every sequence of writing calls with arbitrary arguments and faults, the
    rows of every created stream obey the consistency rules and
    `ReadStreamFromLastSnapshot` on it succeeds, and the next call, whatever it is,
    changes no row of another stream. -/
theorem storeConsistent [Inhabited ε] (suffix : Sid → String)
    (calls : List (Call Sid H β ε × Bool)) :
    let db := (pgMachine suffix).exec Db.empty calls
    (∀ sid ∈ db.es.map (·.streamId),
      (∃ n k, ConsistentRows db sid n k) ∧
        ∀ precedingBlockCount, ∃ res, readStreamFromLastSnapshotTx db sid precedingBlockCount =
          .ok res) ∧
    ∀ c : Call Sid H β ε × Bool, ∀ o ≠ c.1.streamId, SameRows o db (call suffix db c).1 := by
  intro db
  refine ⟨fun sid hsid => ?_, fun c o ho => ?_⟩
  · obtain ⟨r, hr⟩ := exec_represents suffix calls hsid
    exact ⟨⟨_, _, hr.consistentRows⟩, fun p => ⟨_, hr.read p⟩⟩
  · rcases call_cases suffix (exec_sound suffix calls) c with heq | ⟨-, hother⟩
    · rw [heq]
      exact .refl o db
    · exact hother o ho

/-- **Preceding blocks.** After every sequence of writing calls, `ReadStreamFromLastSnapshot`
    returns the minipool in slot order and the blocks from the one that `StartMiniblockNumber` says
    on, exactly without preceding blocks or when the latest snapshot is in the genesis block. -/
theorem readStream_window [Inhabited ε] (suffix : Sid → String)
    (calls : List (Call Sid H β ε × Bool)) (sid : Sid)
    (hsid : sid ∈ ((pgMachine suffix).exec Db.empty calls).es.map (·.streamId)) :
    let db := (pgMachine suffix).exec Db.empty calls
    ∃ latest : Nat, rowsOf (·.streamId) sid db.es = [⟨sid, latest⟩] ∧
      (∃ n k, ConsistentRows db sid n k) ∧
      ∀ p : Nat, readStreamFromLastSnapshotTx db sid p =
          .ok ⟨(latest - p : Nat), (db.blocksOf sid).drop (latest - p), db.poolOf sid⟩ ↔
        p = 0 ∨ latest = 0 := by
  intro db
  obtain ⟨r, hr⟩ := exec_represents suffix calls hsid
  refine ⟨r.latestSnapshot, hr.es, ⟨_, _, hr.consistentRows⟩, fun p => ?_⟩
  rw [hr.read, StreamRecord.read, hr.blocksOf, hr.poolOf]
  constructor
  · intro hread
    -- the blocks read start with the snapshot, whatever `p` is
    injection hread with hread
    injection hread with _ hblocks _
    have hlength := congrArg length hblocks
    have hlt := r.latestSnapshot_lt
    rw [length_drop, length_drop] at hlength
    omega
  · intro hp
    have hstart : r.latestSnapshot - p = r.latestSnapshot := by omega
    rw [hstart]
    congr 2
    omega

def snapshotCalls : List (Call Unit Nat Nat Nat × Bool) :=
  [(.createStreamStorage () 10, false), (.writeBlockProposal () 7 1 11, false),
    (.promoteBlock () 1 7 true [100], false)]

theorem readStream_window_snapshot :
    ∃ latest : Nat, readStreamFromLastSnapshotTx
      ((pgMachine fun _ => "a").exec Db.empty snapshotCalls)
      () (0 : Nat) = .ok ⟨latest, [10, 11].drop latest, [100]⟩ := by
  obtain ⟨latest, -, -, hread⟩ := readStream_window (fun _ => "a") snapshotCalls () (by decide)
  exact ⟨latest, (hread 0).2 (.inl rfl)⟩

/-- One preceding block is asked for: the start says 0 and the first block returned is block 1. -/
theorem readStream_without_preceding :
    let db := (pgMachine fun _ => "a").exec Db.empty snapshotCalls
    db.blocksOf () = [10, 11] ∧ readStreamFromLastSnapshotTx db () 1 = .ok ⟨0, [11], [100]⟩ := by
  decide

/-- A run that creates two streams and fills, proposes and promotes on one of them. -/
theorem storeConsistent_two_streams :
    let suffix : Bool → String := fun b => if b then "a" else "b"
    let calls : List (Call Bool Nat Nat Nat × Bool) :=
      [(.createStreamStorage true 10, false), (.createStreamStorage false 20, false),
        (.writeEvent true 1 0 100, false), (.writeEvent true 1 1 101, true),
        (.writeEvent true 1 1 101, false), (.writeBlockProposal true 7 1 11, false),
        (.promoteBlock true 1 7 true [101], false)]
    let db := (pgMachine suffix).exec .empty calls
    (true ∈ db.es.map (·.streamId) ∧ (rowsOf (·.streamId) true db.miniblocks).length = 2) ∧
      ∃ n k, ConsistentRows db true n k := by
  intro suffix calls db
  have hmem : true ∈ db.es.map (·.streamId) := by decide
  exact ⟨⟨hmem, by decide⟩, ((storeConsistent suffix calls).1 true hmem).1⟩

end River.Node.Storage
