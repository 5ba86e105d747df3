/-
  How long the registry keeps the bytes of a genesis miniblock.
-/

import River.Contracts.RiverRegistry

namespace River.Contracts

open River.Lib Function

def numbersOf (streamId : Bytes32) (miniblocks : List SetMiniblock) : List Nat :=
  (miniblocks.filter (·.streamId = streamId)).map (·.lastMiniblockNum)

def RiverRegistryCall.miniblocks : RiverRegistryCall → List SetMiniblock
  | .setStreamLastMiniblock miniblock => [miniblock]
  | .setStreamLastMiniblockBatch miniblocks => miniblocks
  | _ => []

namespace AppStorage

/-- Genesis bytes are kept for exactly the streams at miniblock 0. -/
structure GenesisKept (ds : AppStorage) : Prop where
  bytes_iff : ∀ streamId, ds.genesisMiniblockByStreamId streamId ≠ [] ↔
    streamId ∈ ds.streams ∧ (ds.streamById streamId).lastMiniblockNum = 0
  received : ∀ streamId stream hash bytes,
    ds.getStreamWithGenesis streamId = .ok (stream, hash, bytes) → stream.lastMiniblockNum = 0 →
      bytes ≠ []

/-- What an accepted message must do to keep `GenesisKept`. -/
def KeepsGenesis (ds : AppStorage) (msg : RiverRegistryMessage) : Prop :=
  ds.Accepts msg →
    match msg.call with
    | .allocateStream _ _ _ genesisMiniblock => genesisMiniblock ≠ []
    | call => ∀ sid ∈ ds.streams.values,
      let num := (ds.streamById sid).lastMiniblockNum
      let nums := numbersOf sid call.miniblocks
      nums.getLastD num = 0 ↔ num = 0 ∧ 1 ∉ nums

/-! ## The loop over a batch -/

section Loop

variable {sid : Bytes32} {miniblock : SetMiniblock}

theorem updateLastMiniblock_self (ds : AppStorage) (miniblock : SetMiniblock) :
    let ds' := ds.updateLastMiniblock miniblock
    (ds'.streamById miniblock.streamId).lastMiniblockNum = miniblock.lastMiniblockNum ∧
      ds'.genesisMiniblockByStreamId miniblock.streamId =
        if miniblock.lastMiniblockNum = 1 then []
        else ds.genesisMiniblockByStreamId miniblock.streamId := by
  unfold updateLastMiniblock
  simp only [update_self, true_and]
  split
  · rw [update_self]
  · rfl

theorem updateLastMiniblock_of_ne (ds : AppStorage) (h : miniblock.streamId ≠ sid) :
    let ds' := ds.updateLastMiniblock miniblock
    ds'.streamById sid = ds.streamById sid ∧
      ds'.genesisMiniblockByStreamId sid = ds.genesisMiniblockByStreamId sid := by
  unfold updateLastMiniblock
  simp only [update_of_ne h.symm, true_and]
  split
  · rw [update_of_ne h.symm]
  · rfl

theorem streams_updateLastMiniblocks (ds : AppStorage) (miniblocks : List SetMiniblock) :
    (ds.updateLastMiniblocks miniblocks).1.streams = ds.streams := by
  induction miniblocks generalizing ds with
  | nil => rfl
  | cons miniblock miniblocks ih =>
    unfold updateLastMiniblocks
    split
    · exact ih (ds.updateLastMiniblock miniblock)
    · exact ih ds

theorem updateLastMiniblocks_of_mem {ds : AppStorage} (h : sid ∈ ds.streams)
    (miniblocks : List SetMiniblock) :
    let ds' := (ds.updateLastMiniblocks miniblocks).1
    (ds'.streamById sid).lastMiniblockNum =
        (numbersOf sid miniblocks).getLastD (ds.streamById sid).lastMiniblockNum ∧
      ds'.genesisMiniblockByStreamId sid =
        if 1 ∈ numbersOf sid miniblocks then [] else ds.genesisMiniblockByStreamId sid := by
  induction miniblocks generalizing ds with
  | nil => exact ⟨rfl, (if_neg List.not_mem_nil).symm⟩
  | cons miniblock miniblocks ih =>
    by_cases hid : miniblock.streamId = sid
    · have hloop : (ds.updateLastMiniblocks (miniblock :: miniblocks)).1 =
          ((ds.updateLastMiniblock miniblock).updateLastMiniblocks miniblocks).1 := by
        simp [updateLastMiniblocks, hid, h]
      subst hid
      obtain ⟨hnum, hbytes⟩ := ds.updateLastMiniblock_self miniblock
      have hmem' : miniblock.streamId ∈ (ds.updateLastMiniblock miniblock).streams := h
      obtain ⟨hnum', hbytes'⟩ := ih hmem'
      have hnumbers : numbersOf miniblock.streamId (miniblock :: miniblocks) =
          miniblock.lastMiniblockNum :: numbersOf miniblock.streamId miniblocks := by
        simp [numbersOf]
      rw [hloop, hnumbers, List.getLastD_cons]
      refine ⟨by rw [hnum', hnum], ?_⟩
      rw [hbytes', hbytes]
      -- the bytes go with the first number that is 1
      by_cases hone : miniblock.lastMiniblockNum = 1
      · simp [hone]
      · have hne : ¬1 = miniblock.lastMiniblockNum := fun heq => hone heq.symm
        simp [hone, hne]
    · rw [show numbersOf sid (miniblock :: miniblocks) = numbersOf sid miniblocks by
        simp [numbersOf, hid]]
      unfold updateLastMiniblocks
      split
      · obtain ⟨hstream, hbytes⟩ := ds.updateLastMiniblock_of_ne hid
        have hmem' : sid ∈ (ds.updateLastMiniblock miniblock).streams := h
        have hrest := ih hmem'
        rw [hstream, hbytes] at hrest
        exact hrest
      · exact ih h

theorem updateLastMiniblocks_of_not_mem {ds : AppStorage} (h : sid ∉ ds.streams)
    (miniblocks : List SetMiniblock) :
    (ds.updateLastMiniblocks miniblocks).1.genesisMiniblockByStreamId sid =
      ds.genesisMiniblockByStreamId sid := by
  induction miniblocks generalizing ds with
  | nil => rfl
  | cons miniblock miniblocks ih =>
    unfold updateLastMiniblocks
    split
    · rename_i hmem
      have hne : miniblock.streamId ≠ sid := fun heq => h (heq ▸ hmem)
      rw [← (ds.updateLastMiniblock_of_ne hne).2]
      have hnot : sid ∉ (ds.updateLastMiniblock miniblock).streams := h
      exact ih hnot
    · exact ih h

end Loop

/-! ## One message -/

section Step

variable {ds ds' : AppStorage}

theorem genesisKept_iff : ds.GenesisKept ↔
    ∀ sid, ds.genesisMiniblockByStreamId sid ≠ [] ↔
      sid ∈ ds.streams ∧ (ds.streamById sid).lastMiniblockNum = 0 := by
  refine ⟨fun h => h.bytes_iff, fun h => ⟨h, ?_⟩⟩
  intro sid stream hash bytes hget hnum
  obtain ⟨hmem, hget⟩ := guard_ok.1 hget
  cases hget
  exact (h sid).2 ⟨onlyStream_ok.1 hmem, hnum⟩

theorem GenesisKept.of_same (h : ds.GenesisKept) (hstreams : ds'.streams = ds.streams)
    (hnum : ∀ sid, (ds'.streamById sid).lastMiniblockNum = (ds.streamById sid).lastMiniblockNum)
    (hbytes : ds'.genesisMiniblockByStreamId = ds.genesisMiniblockByStreamId) :
    ds'.GenesisKept := by
  rw [genesisKept_iff]
  intro sid
  rw [hbytes, hstreams, hnum]
  exact h.bytes_iff sid

theorem lastMiniblockNum_setNodes (r : Registry) (sid id : Bytes32) (nodes : List Address) :
    ((r.setNodes sid nodes).streamById id).lastMiniblockNum =
      (r.streamById id).lastMiniblockNum := by
  by_cases hid : sid = id
  · subst hid
    simp [Registry.setNodes]
  · rw [Registry.nodes_setNodes_of_ne r hid]

theorem GenesisKept.allocated_iff (h : ds.GenesisKept) (hash : Bytes32) (nodes : List Address)
    (bytes : List UInt8) (hashes : Bytes32 → Bytes32) :
    GenesisKept { ds with
        streams := ds.streams.add sid
        streamById := update ds.streamById sid ⟨hash, 0, 0, nodes⟩
        genesisMiniblockByStreamId := update ds.genesisMiniblockByStreamId sid bytes
        genesisMiniblockHashByStreamId := hashes } ↔ bytes ≠ [] := by
  rw [genesisKept_iff]
  constructor
  · intro h'
    have hnew := (h' sid).2 ⟨EnumerableSet.mem_add.2 (.inr rfl), by simp⟩
    simpa using hnew
  · intro hbytes id
    show update ds.genesisMiniblockByStreamId sid bytes id ≠ [] ↔
      id ∈ ds.streams.add sid ∧ (update ds.streamById sid _ id).lastMiniblockNum = 0
    rw [EnumerableSet.mem_add]
    by_cases heq : id = sid
    · subst heq
      rw [update_self, update_self]
      exact iff_of_true hbytes ⟨.inr rfl, rfl⟩
    · rw [update_of_ne heq, update_of_ne heq, or_iff_left heq]
      exact h.bytes_iff id

theorem GenesisKept.updated_iff (h : ds.GenesisKept) (miniblocks : List SetMiniblock) :
    (ds.updateLastMiniblocks miniblocks).1.GenesisKept ↔ ∀ sid ∈ ds.streams.values,
      let num := (ds.streamById sid).lastMiniblockNum
      let nums := numbersOf sid miniblocks
      nums.getLastD num = 0 ↔ num = 0 ∧ 1 ∉ nums := by
  -- a stream of the registry is as it should be exactly under the condition on its numbers
  have hstream : ∀ sid ∈ ds.streams,
      ((ds.updateLastMiniblocks miniblocks).1.genesisMiniblockByStreamId sid ≠ [] ↔
        (ds.streamById sid).lastMiniblockNum = 0 ∧ 1 ∉ numbersOf sid miniblocks) := by
    intro sid hmem
    rw [(updateLastMiniblocks_of_mem hmem miniblocks).2]
    have hbefore := h.bytes_iff sid
    rw [and_iff_right hmem] at hbefore
    rw [← hbefore]
    by_cases hone : 1 ∈ numbersOf sid miniblocks
    · simp [hone]
    · simp [hone]
  rw [genesisKept_iff]
  constructor
  · intro h' sid hmem
    have hafter := h' sid
    rw [hstream sid hmem, streams_updateLastMiniblocks,
      (updateLastMiniblocks_of_mem hmem miniblocks).1] at hafter
    show List.getLastD _ _ = 0 ↔ _
    rw [hafter]
    exact (and_iff_right hmem).symm
  · intro hnums sid
    rw [streams_updateLastMiniblocks]
    by_cases hmem : sid ∈ ds.streams
    · rw [hstream sid hmem, (updateLastMiniblocks_of_mem hmem miniblocks).1, and_iff_right hmem]
      exact (hnums sid hmem).symm
    rw [updateLastMiniblocks_of_not_mem hmem]
    refine iff_of_false ?_ fun hafter => hmem hafter.1
    intro hbytes
    exact hmem ((h.bytes_iff sid).1 hbytes).1

theorem genesisKept_next_iff (h : ds.GenesisKept) (msg : RiverRegistryMessage) :
    (riverRegistry.next ds msg).GenesisKept ↔ ds.KeepsGenesis msg := by
  obtain ⟨msgSender, call⟩ := msg
  rcases ds.next_cases ⟨msgSender, call⟩ with ⟨hnot, hnext⟩ | ⟨haccepts, hstep⟩
  · rw [hnext]
    exact iff_of_true h fun haccepts => absurd haccepts hnot
  unfold KeepsGenesis
  rw [imp_iff_right haccepts]
  generalize riverRegistry.next ds ⟨msgSender, call⟩ = ds' at hstep ⊢
  -- what does not touch streams, numbers and bytes
  have hsame : ds'.GenesisKept → (ds'.GenesisKept ↔ ∀ sid ∈ ds.streams.values,
      (numbersOf sid []).getLastD (ds.streamById sid).lastMiniblockNum = 0 ↔
        (ds.streamById sid).lastMiniblockNum = 0 ∧ 1 ∉ numbersOf sid []) :=
    fun h' => iff_of_true h' fun sid _ => by simp [numbersOf]
  cases hstep with
  | allocateStream fresh placed => exact h.allocated_iff _ _ _ _
  | @setStreamLastMiniblock miniblock mem =>
    have hone := h.updated_iff [miniblock]
    simp only [updateLastMiniblocks, mem] at hone
    exact hone
  | @setStreamLastMiniblockBatch miniblocks => exact h.updated_iff miniblocks
  | placeStreamOnNode stream registered not_mem | removeStreamFromNode stream mem =>
    exact hsame (h.of_same rfl (fun id => lastMiniblockNum_setNodes ds.registry _ id _) rfl)
  | _ => exact hsame (h.of_same rfl (fun _ => rfl) rfl)

end Step

end AppStorage

open AppStorage

/-- **Genesis bytes.** All along a run of the deployed registry there are bytes for exactly the
    streams at miniblock 0, and who reads such a stream gets them, exactly if every message that
    is accepted meets the condition. -/
theorem genesisKept_always_iff (owner : Address) (operators : EnumerableSet Address)
    (run : List RiverRegistryMessage) :
    (∀ front, front <+: run → (riverRegistry.exec (.deployed owner operators) front).GenesisKept) ↔
      riverRegistry.Along KeepsGenesis (.deployed owner operators) run := by
  refine Machine.always_iff_along (I := GenesisKept) (J := fun _ => True) (fun _ _ _ => trivial)
    (fun _ msg _ h => genesisKept_next_iff h msg) trivial ?_ run
  rw [genesisKept_iff]
  intro sid
  exact iff_of_false (fun h => h rfl) fun h => EnumerableSet.not_mem_empty sid h.1

/-- Node 1 moves a stream from 0 to 2, and another one to 1 and back to 0: the first one keeps its
    bytes, and the second one is read at number 0 without any. -/
theorem not_genesisKept_moved :
    let operators : EnumerableSet Address := ⟨[9], by decide⟩
    let ds := riverRegistry.exec (.deployed 8 operators)
      [⟨9, .registerNode 1 "" .operational⟩, ⟨1, .allocateStream 7 [1] 0 [10]⟩,
        ⟨1, .allocateStream 6 [1] 0 [10]⟩, ⟨1, .setStreamLastMiniblock ⟨7, 0, 0, 2, false⟩⟩,
        ⟨1, .setStreamLastMiniblockBatch [⟨6, 0, 0, 1, false⟩]⟩,
        ⟨1, .setStreamLastMiniblock ⟨6, 0, 0, 0, false⟩⟩]
    (ds.streamById 7).lastMiniblockNum = 2 ∧ ds.genesisMiniblockByStreamId 7 = [10] ∧
      6 ∈ ds.streams ∧ (ds.streamById 6).lastMiniblockNum = 0 ∧
      ds.genesisMiniblockByStreamId 6 = [] ∧ ¬ds.GenesisKept := by
  intro operators ds
  have hmem : 6 ∈ ds.streams := by decide
  have hnum : (ds.streamById 6).lastMiniblockNum = 0 := by decide
  have hbytes : ds.genesisMiniblockByStreamId 6 = [] := by decide
  exact ⟨by decide, by decide, hmem, hnum, hbytes, fun h => (h.bytes_iff 6).2 ⟨hmem, hnum⟩ hbytes⟩

end River.Contracts
