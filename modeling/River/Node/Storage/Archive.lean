/-
  The transactions of an archive in the Postgres event store (core/node/storage/pg_storage.go).

  Besides the errors of its statements, a commit can fail, or be done and only its answer lost
  (`TxFault`).
-/

import River.Node.Storage.Refinement

namespace River.Node.Storage

open River.Lib.Table

variable {Sid H β ε : Type} [DecidableEq Sid]

/-! ## Transactions -/

def createStreamArchiveStatements (createTableSuffix : Sid → String) (db : Db Sid H β ε)
    (sid : Sid) : Except PgError (Db Sid H β ε) := do
  let db ← db.insertEs ⟨sid, -1⟩
  db.createPartition ⟨.miniblocks, createTableSuffix sid, sid⟩

def createStreamArchiveStorageTx (createTableSuffix : Sid → String) (db : Db Sid H β ε)
    (sid : Sid) : Res (Db Sid H β ε) :=
  match createStreamArchiveStatements createTableSuffix db sid with
  | .error .uniqueViolation => riverError .alreadyExists "stream already exists"
  | r => ofSql r

def getMaxArchivedMiniblockNumberTx (db : Db Sid H β ε) (sid : Sid) : Res Int :=
  let maxArchivedMiniblockNumber := (db.maxSeqNum sid).getD (-1)
  if maxArchivedMiniblockNumber = -1 ∧ (rowsOf (·.streamId) sid db.es).isEmpty then
    riverError .notFound "stream not found in local storage"
  else .ok maxArchivedMiniblockNumber

def writeArchiveMiniblocksTx (db : Db Sid H β ε) (sid : Sid) (startMiniblockNum : Int)
    (miniblocks : List β) : Res (Db Sid H β ε) := do
  let lastKnownMiniblockNum ← getMaxArchivedMiniblockNumberTx db sid
  if lastKnownMiniblockNum + 1 ≠ startMiniblockNum then
    riverError .dbOperationFailure "miniblock sequence number mismatch"
  else
    ofSql (insertMiniblocks (number (fun i b => ⟨sid, i, b⟩) startMiniblockNum miniblocks) db)

inductive TxFault where
  | none
  /-- The transaction is not begun or not committed. -/
  | rolledBack
  /-- The commit is carried out, but `Commit` returns an error. -/
  | unacknowledged

def runTx (db : Db Sid H β ε) (fault : TxFault) (tx : Res (Db Sid H β ε)) :
    Db Sid H β ε × Res Unit :=
  match fault with
  | .none => commit db tx
  | .rolledBack => (db, riverError .dbOperationFailure "transaction failed")
  | .unacknowledged =>
    ((commit db tx).1, do
      let _ ← tx
      riverError .dbOperationFailure "transaction failed")

/-! ## Archived streams -/

structure Archived (db : Db Sid H β ε) (sid : Sid) (blocks : List β) : Prop where
  miniblocks : rowsOf (·.streamId) sid db.miniblocks = blockRows sid blocks
  es : rowsOf (·.streamId) sid db.es ≠ []
  partition : db.hasPartition .miniblocks sid = true

/-- The stream has no rows. -/
structure NotArchived (db : Db Sid H β ε) (sid : Sid) : Prop where
  miniblocks : rowsOf (·.streamId) sid db.miniblocks = []
  es : rowsOf (·.streamId) sid db.es = []

variable {db db' : Db Sid H β ε} {sid : Sid} {blocks : List β}

theorem Archived.congr (h : Archived db sid blocks) (hs : SameRows sid db db') :
    Archived db' sid blocks :=
  ⟨hs.miniblocks.trans h.miniblocks, hs.es ▸ h.es, (hs.partitions _).trans h.partition⟩

theorem NotArchived.congr (h : NotArchived db sid) (hs : SameRows sid db db') :
    NotArchived db' sid :=
  ⟨hs.miniblocks.trans h.miniblocks, hs.es.trans h.es⟩

theorem Archived.maxSeqNum (h : Archived db sid blocks) :
    (db.maxSeqNum sid).getD (-1) = blocks.length - 1 := by
  by_cases hne : blocks = []
  · subst hne
    unfold Db.maxSeqNum
    rw [h.miniblocks]
    rfl
  · rw [maxSeqNum_of_blockRows h.miniblocks hne, Option.getD_some]

theorem Archived.getMax (h : Archived db sid blocks) :
    getMaxArchivedMiniblockNumberTx db sid = .ok (blocks.length - 1) := by
  unfold getMaxArchivedMiniblockNumberTx
  simp only [h.maxSeqNum]
  rw [if_neg]
  rintro ⟨-, hempty⟩
  exact h.es (List.isEmpty_iff.1 hempty)

theorem NotArchived.getMax (h : NotArchived db sid) :
    getMaxArchivedMiniblockNumberTx db sid
      = riverError .notFound "stream not found in local storage" := by
  unfold getMaxArchivedMiniblockNumberTx Db.maxSeqNum
  rw [h.miniblocks, h.es]
  rfl

theorem insertMiniblocks_number (hp : db.hasPartition .miniblocks sid = true) {start : Int}
    (hk : ∀ m ∈ rowsOf (·.streamId) sid db.miniblocks, m.seqNum < start) (new : List β) :
    insertMiniblocks (number (fun i b => ⟨sid, i, b⟩) start new) db = .ok { db with
      miniblocks := db.miniblocks ++ number (fun i b => ⟨sid, i, b⟩) start new } := by
  induction new generalizing start db with
  | nil => simp [insertMiniblocks]
  | cons b new ih =>
    have hfresh : ∀ m ∈ rowsOf (·.streamId) sid db.miniblocks, m.seqNum ≠ start := by
      intro m hm
      have := hk m hm
      omega
    -- the row just inserted has the number `start`, below every number still to come
    have hk' : ∀ m ∈ rowsOf (·.streamId) sid (db.miniblocks ++ [⟨sid, start, b⟩]),
        m.seqNum < start + 1 := by
      intro m hm
      rw [rowsOf_append, List.mem_append] at hm
      rcases hm with hm | hm
      · have := hk m hm
        omega
      · obtain rfl : m = ⟨sid, start, b⟩ := by simpa using hm
        show start < start + 1
        omega
    let db1 : Db Sid H β ε := { db with miniblocks := db.miniblocks ++ [⟨sid, start, b⟩] }
    have hp1 : db1.hasPartition .miniblocks sid = true := hp
    have hrest := ih hp1 hk'
    simp only [number_cons, insertMiniblocks, insertMiniblock_eq hp hfresh, bind, Except.bind]
    rw [hrest]
    simp [db1]

theorem Archived.write (h : Archived db sid blocks) (new : List β) :
    ∃ db', writeArchiveMiniblocksTx db sid blocks.length new = .ok db' ∧
      Archived db' sid (blocks ++ new) := by
  have hk : ∀ m ∈ rowsOf (·.streamId) sid db.miniblocks, m.seqNum < (blocks.length : Int) := by
    intro m hm
    rw [h.miniblocks] at hm
    exact (blockRows_seqNum_mem hm).2
  let rows : List (MiniblockRow Sid β) := number (fun i b => ⟨sid, i, b⟩) blocks.length new
  refine ⟨{ db with miniblocks := db.miniblocks ++ rows }, ?_, ?_, h.es, h.partition⟩
  · unfold writeArchiveMiniblocksTx
    rw [h.getMax, Res.ok_bind, if_neg (by omega), insertMiniblocks_number h.partition hk]
    rfl
  · have hown : ∀ m ∈ number (fun i b => (⟨sid, i, b⟩ : MiniblockRow Sid β)) blocks.length new,
        m.streamId = sid := by
      intro m hm
      obtain ⟨j, b, rfl, -, -⟩ := exists_of_mem_number hm
      rfl
    rw [rowsOf_append_of_eq hown, h.miniblocks, blockRows, blockRows, number_append, Int.zero_add]

theorem Archived.write_ne (h : Archived db sid blocks) {start : Int}
    (hne : start ≠ blocks.length) (new : List β) :
    writeArchiveMiniblocksTx db sid start new
      = riverError .dbOperationFailure "miniblock sequence number mismatch" := by
  unfold writeArchiveMiniblocksTx
  rw [h.getMax, Res.ok_bind, if_pos (by omega)]

theorem createStreamArchiveStorageTx_cases (suffix : Sid → String) (db : Db Sid H β ε) (sid : Sid) :
    (∃ e, createStreamArchiveStorageTx suffix db sid = .error e) ∨
      (rowsOf (·.streamId) sid db.es = [] ∧
        createStreamArchiveStorageTx suffix db sid = .ok { db with
          es := db.es ++ [⟨sid, -1⟩]
          partitions := db.partitions ++ [⟨.miniblocks, suffix sid, sid⟩] }) := by
  unfold createStreamArchiveStorageTx createStreamArchiveStatements
  by_cases hes : rowsOf (·.streamId) sid db.es = []
  · simp only [insertEs_of_nil hes, bind, Except.bind]
    rcases createPartition_cases { db with es := db.es ++ [⟨sid, -1⟩] }
      ⟨.miniblocks, suffix sid, sid⟩ with ⟨e, he, hp⟩ | hp
    · left
      rw [hp]
      cases e with
      | uniqueViolation => exact absurd rfl he
      | _ => exact ⟨_, rfl⟩
    · right
      rw [hp]
      exact ⟨hes, rfl⟩
  · left
    rw [insertEs_of_mem hes]
    exact ⟨_, rfl⟩

theorem NotArchived.create (h : NotArchived db sid)
    (hok : createStreamArchiveStorageTx suffix db sid = .ok db') : Archived db' sid [] := by
  rcases createStreamArchiveStorageTx_cases suffix db sid with ⟨e, he⟩ | ⟨-, hok'⟩
  · rw [hok] at he
    cases he
  rw [hok] at hok'
  cases hok'
  refine ⟨h.miniblocks, ?_, ?_⟩
  · simp
  · simp [Db.hasPartition]

theorem Archived.create (h : Archived db sid blocks) (suffix : Sid → String) :
    createStreamArchiveStorageTx suffix db sid
      = riverError .alreadyExists "stream already exists" := by
  unfold createStreamArchiveStorageTx createStreamArchiveStatements
  rw [insertEs_of_mem h.es]
  rfl

/-! ## Other streams -/

theorem create_sameRows {o : Sid} (ho : o ≠ sid)
    (hok : createStreamArchiveStorageTx suffix db sid = .ok db') : SameRows o db db' := by
  rcases createStreamArchiveStorageTx_cases suffix db sid with ⟨e, he⟩ | ⟨-, hok'⟩
  · rw [hok] at he
    cases he
  rw [hok] at hok'
  cases hok'
  refine ⟨rowsOf_append_of_ne (by simpa using Ne.symm ho), rfl, rfl, rfl, fun t => ?_⟩
  simp [Db.hasPartition, ho]

theorem insertMiniblocks_sameRows {rows : List (MiniblockRow Sid β)} {o : Sid}
    (ho : ∀ m ∈ rows, m.streamId ≠ o) (hok : insertMiniblocks rows db = .ok db') :
    SameRows o db db' := by
  induction rows generalizing db with
  | nil =>
    cases hok
    exact .refl o _
  | cons m rows ih =>
    simp only [insertMiniblocks, bind, Except.bind] at hok
    split at hok
    next => cases hok
    next db1 hinsert =>
      refine .trans ?_ (ih (fun m' hm' => ho m' (List.mem_cons_of_mem _ hm')) hok)
      unfold Db.insertMiniblock at hinsert
      split at hinsert
      · split at hinsert
        next => cases hinsert
        next new hnew =>
          cases hinsert
          obtain ⟨-, rfl⟩ := insertUnique_eq_some.1 hnew
          exact ⟨rfl, rowsOf_append_of_ne (by simpa using ho m List.mem_cons_self), rfl, rfl,
            fun _ => rfl⟩
      · cases hinsert

theorem write_sameRows {o : Sid} (ho : o ≠ sid)
    (hok : writeArchiveMiniblocksTx db sid start new = .ok db') : SameRows o db db' := by
  obtain ⟨_, -, hok⟩ := Res.bind_eq_ok.1 hok
  split at hok
  · cases hok
  refine insertMiniblocks_sameRows ?_ (ofSql_eq_ok hok)
  intro m hm
  obtain ⟨j, b, rfl, -, -⟩ := exists_of_mem_number hm
  exact .symm ho

theorem runTx_sameRows {tx : Res (Db Sid H β ε)} (fault : TxFault)
    (h : ∀ db', tx = .ok db' → SameRows o db db') : SameRows o db (runTx db fault tx).1 := by
  have hcommit : SameRows o db (commit db tx).1 := by
    cases tx with
    | ok db' => exact h db' rfl
    | _ => exact .refl o db
  cases fault with
  | rolledBack => exact .refl o db
  | _ => exact hcommit

end River.Node.Storage
