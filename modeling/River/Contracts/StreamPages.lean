/-
  The loops over many streams of the registry: a batch of miniblocks
  (contracts/src/river/registry/facets/stream/StreamRegistry.sol), and the pages that the nodes
  read (core/node/registries/river_registry_contract.go and core/node/rpc/archiver.go).
-/

import River.Contracts.RiverRegistry

namespace River.Contracts

open River.Lib List

/-! ## Batches -/

def RegistryEvent.failure? : RegistryEvent → Option (Bytes32 × Bytes32 × Nat)
  | .streamLastMiniblockUpdateFailed streamId lastMiniblockHash lastMiniblockNum _ =>
    some (streamId, lastMiniblockHash, lastMiniblockNum)
  | _ => none

namespace AppStorage

theorem updateLastMiniblocks_eq (ds : AppStorage) (miniblocks : List SetMiniblock) :
    (ds.updateLastMiniblocks miniblocks).1 =
        (miniblocks.filter (·.streamId ∈ ds.streams)).foldl updateLastMiniblock ds ∧
      (ds.updateLastMiniblocks miniblocks).2.filterMap (·.failure?) =
        (miniblocks.filter (·.streamId ∉ ds.streams)).map fun m =>
          (m.streamId, m.lastMiniblockHash, m.lastMiniblockNum) := by
  induction miniblocks generalizing ds with
  | nil => exact ⟨rfl, rfl⟩
  | cons miniblock miniblocks ih =>
    unfold updateLastMiniblocks
    split
    · rename_i hmem
      -- the update leaves the set of streams alone, so the filters stay
      obtain ⟨hstorage, hfailures⟩ := ih (ds.updateLastMiniblock miniblock)
      simp only [filter_cons, hmem]
      exact ⟨hstorage, hfailures⟩
    · rename_i hnot
      obtain ⟨hstorage, hfailures⟩ := ih ds
      simp only [filter_cons, hnot]
      exact ⟨hstorage, congrArg _ hfailures⟩

theorem exec_setStreamLastMiniblock {ds : AppStorage} {msgSender : Address}
    (hnode : ds.registry.onlyNode msgSender = .ok ()) {miniblocks : List SetMiniblock}
    (hmem : ∀ m ∈ miniblocks, m.streamId ∈ ds.streams) :
    riverRegistry.exec ds (miniblocks.map fun m => ⟨msgSender, .setStreamLastMiniblock m⟩) =
      miniblocks.foldl updateLastMiniblock ds := by
  induction miniblocks generalizing ds with
  | nil => rfl
  | cons miniblock miniblocks ih =>
    obtain ⟨hfirst, hrest⟩ := forall_mem_cons.1 hmem
    have hnext : riverRegistry.next ds ⟨msgSender, .setStreamLastMiniblock miniblock⟩ =
        ds.updateLastMiniblock miniblock := by
      simp [Machine.next, riverRegistry, answer, setStreamLastMiniblock_eq, hnode,
        onlyStream_ok.2 hfirst, bind, Except.bind]
    have hnode' : (ds.updateLastMiniblock miniblock).registry.onlyNode msgSender = .ok () := hnode
    rw [map_cons, foldl_cons, Machine.exec_cons, hnext, ih hnode' hrest]

theorem exec_of_not_node {ds : AppStorage} {msgSender : Address} {e : RegistryError}
    (hnode : ds.registry.onlyNode msgSender = .error e) (miniblocks : List SetMiniblock) :
    riverRegistry.exec ds (miniblocks.map fun m => ⟨msgSender, .setStreamLastMiniblock m⟩) =
      ds := by
  induction miniblocks with
  | nil => rfl
  | cons miniblock miniblocks ih =>
    have hnext : riverRegistry.next ds ⟨msgSender, .setStreamLastMiniblock miniblock⟩ = ds := by
      simp [Machine.next, riverRegistry, answer, setStreamLastMiniblock_eq, hnode,
        bind, Except.bind]
    rw [map_cons, Machine.exec_cons, hnext, ih]

end AppStorage

open AppStorage

/-- **Batches.** A batch ends in the same storage as one call for each miniblock of a registered
    stream, in order, and reports each of the other miniblocks once. -/
theorem setStreamLastMiniblockBatch_eq_sequence (ds : AppStorage) (msgSender : Address)
    (miniblocks : List SetMiniblock) :
    riverRegistry.next ds ⟨msgSender, .setStreamLastMiniblockBatch miniblocks⟩ =
        riverRegistry.exec ds ((miniblocks.filter (·.streamId ∈ ds.streams)).map fun m =>
          ⟨msgSender, .setStreamLastMiniblock m⟩) ∧
      (riverRegistry.out ds ⟨msgSender, .setStreamLastMiniblockBatch miniblocks⟩).map
          (·.filterMap (·.failure?)) =
        (ds.registry.onlyNode msgSender).map fun _ =>
          (miniblocks.filter (·.streamId ∉ ds.streams)).map fun m =>
            (m.streamId, m.lastMiniblockHash, m.lastMiniblockNum) := by
  cases hnode : ds.registry.onlyNode msgSender with
  | error e =>
    rw [exec_of_not_node hnode]
    simp [Machine.next, Machine.out, riverRegistry, answer, setStreamLastMiniblockBatch,
      hnode, bind,
      Except.bind, Except.map]
  | ok u =>
    obtain ⟨hstorage, hfailures⟩ := ds.updateLastMiniblocks_eq miniblocks
    rw [exec_setStreamLastMiniblock hnode (fun m hm => by simpa using (mem_filter.1 hm).2),
      ← hstorage, ← hfailures]
    simp [Machine.next, Machine.out, riverRegistry, answer, setStreamLastMiniblockBatch,
      hnode, bind,
      Except.bind, Except.map]

/-! ## Pages -/

namespace AppStorage

def getPaginatedStreams (ds : AppStorage) (start stop : Nat) :
    Except RegistryError (List (Bytes32 × RegisteredStream) × Bool) :=
  if start < stop then
    let page := ((ds.streams.values.drop start).take (stop - start)).map fun id =>
      (id, ds.streamById id)
    -- the rest of the array keeps its zero entries
    .ok (page ++ replicate (stop - start - page.length) (0, ⟨0, 0, 0, []⟩),
      decide (stop ≥ ds.streams.values.length))
  else .error .badArg

/-- The loop of `GetAllStreams` and `startImpl`, which do `use` with each stream of a page that has
    an id. -/
def readPages {ε α : Type} (ds : AppStorage) (pageSize : Nat) (callFailed : RegistryError → ε)
    (use : Bytes32 × RegisteredStream → Except ε α) :
    (fuel : Nat) → (i : Nat) → Option (Except ε (List α))
  | 0, _ => none
  | fuel + 1, i =>
    match ds.getPaginatedStreams i (i + pageSize) with
    | .error e => some (.error (callFailed e))
    | .ok (streams, lastPage) =>
      match (streams.filter (·.1 ≠ 0)).mapM use with
      | .error e => some (.error e)
      | .ok ret =>
        if lastPage then some (.ok ret)
        else (ds.readPages pageSize callFailed use fuel (i + pageSize)).map (·.map (ret ++ ·))

structure GetStreamResult where
  streamId : Bytes32
  nodes : List Address
  lastMiniblockHash : Bytes32
  lastMiniblockNum : Nat
  isSealed : Bool

def makeGetStreamResult (streamId : Bytes32) (stream : RegisteredStream) : GetStreamResult :=
  ⟨streamId, stream.nodes, stream.lastMiniblockHash, stream.lastMiniblockNum,
    decide (stream.flags % 2 ≠ 0)⟩

def getAllStreams {ε : Type} (ds : AppStorage) (callFailed : RegistryError → ε)
    (streamIdFromHash : Bytes32 → Except ε Bytes32) (fuel : Nat) :
    Option (Except ε (List GetStreamResult)) :=
  ds.readPages 5000 callFailed
    (fun (id, stream) => (streamIdFromHash id).map (makeGetStreamResult · stream)) fuel 0

/-- The calls of `addNewStream` that `startImpl` makes. -/
def startImpl {ε : Type} (ds : AppStorage) (callFailed : RegistryError → ε) (fuel : Nat) :
    Option (Except ε (List (Bytes32 × List Address × Nat))) :=
  ds.readPages 5000 callFailed
    (fun (id, stream) => .ok (id, stream.nodes, stream.lastMiniblockNum)) fuel 0

variable {ds : AppStorage} {ε α : Type} {pageSize : Nat}

/-- The streams with these ids, without the id zero. -/
def withId (ds : AppStorage) (ids : List Bytes32) : List (Bytes32 × RegisteredStream) :=
  (ids.filter (· ≠ 0)).map fun id => (id, ds.streamById id)

theorem getPaginatedStreams_filter (ds : AppStorage) (hsize : 1 ≤ pageSize) (i : Nat) :
    ∃ streams, ds.getPaginatedStreams i (i + pageSize) =
        .ok (streams, decide (i + pageSize ≥ ds.streams.values.length)) ∧
      streams.filter (·.1 ≠ 0) = ds.withId ((ds.streams.values.drop i).take pageSize) := by
  refine ⟨_, if_pos (by omega), ?_⟩
  have hpadding : ∀ n, (replicate n ((0 : Bytes32), (⟨0, 0, 0, []⟩ : RegisteredStream))).filter
      (·.1 ≠ 0) = [] := by
    intro n
    rw [filter_replicate_of_neg]
    simp
  rw [Nat.add_sub_cancel_left, filter_append, hpadding, append_nil, filter_map]
  rfl

theorem readPages_eq (hsize : 1 ≤ pageSize) (callFailed : RegistryError → ε)
    (use : Bytes32 × RegisteredStream → Except ε α) {fuel i : Nat}
    (hfuel : ds.streams.values.length < fuel + i) (hi : i ≤ ds.streams.values.length) :
    ds.readPages pageSize callFailed use fuel i =
      some ((ds.withId (ds.streams.values.drop i)).mapM use) := by
  induction fuel generalizing i with
  | zero => omega
  | succ fuel ih =>
    obtain ⟨_, hpage, hfilter⟩ := ds.getPaginatedStreams_filter hsize i
    simp only [readPages, hpage, hfilter]
    by_cases hlast : i + pageSize ≥ ds.streams.values.length
    · have hall : (ds.streams.values.drop i).take pageSize = ds.streams.values.drop i :=
        take_of_length_le (by rw [length_drop]; omega)
      rw [hall]
      split
      · rename_i e he
        rw [he]
      · rename_i ret hret
        rw [hret, if_pos (by simpa using hlast)]
    · -- this page and the rest
      have hsplit : ds.withId (ds.streams.values.drop i) =
          ds.withId ((ds.streams.values.drop i).take pageSize) ++
          ds.withId (ds.streams.values.drop (i + pageSize)) := by
        rw [withId, withId, withId, ← map_append, ← filter_append, ← drop_drop, take_append_drop]
      rw [ih (by omega) (by omega), hsplit, mapM_append]
      generalize (ds.withId ((ds.streams.values.drop i).take pageSize)).mapM use = page
      generalize (ds.withId (ds.streams.values.drop (i + pageSize))).mapM use = rest
      cases page with
      | error e => rfl
      | ok ret =>
        simp only [hlast]
        cases rest <;> rfl

theorem withId_eq (hzero : 0 ∉ ds.streams) :
    ds.withId ds.streams.values = ds.streams.values.map fun id => (id, ds.streamById id) := by
  rw [withId, filter_eq_self.2]
  intro id hid
  exact decide_eq_true fun heq => hzero (heq ▸ hid)

end AppStorage

/-- **Pages.** With any page size the loop over the pages ends. It yields the ids of the registry,
    each once and in its order, exactly if no stream has the id zero; then `GetAllStreams` and
    `startImpl` meet every stream. -/
theorem readPages_all {ε : Type} (ds : AppStorage) (pageSize : Nat) (hsize : 1 ≤ pageSize)
    (callFailed : RegistryError → ε) (fuel : Nat) (hfuel : ds.streams.values.length < fuel) :
    ds.streams.values.Nodup ∧
    (ds.readPages pageSize callFailed (fun s => .ok s.1) fuel 0 = some (.ok ds.streams.values) ↔
      0 ∉ ds.streams) ∧
    (0 ∉ ds.streams →
      (∀ streamIdFromHash, ds.getAllStreams callFailed streamIdFromHash fuel =
        some (ds.streams.values.mapM fun id =>
          (streamIdFromHash id).map (makeGetStreamResult · (ds.streamById id)))) ∧
      ds.startImpl callFailed fuel = some (.ok (ds.streams.values.map fun id =>
        (id, (ds.streamById id).nodes, (ds.streamById id).lastMiniblockNum)))) := by
  have hloop : ∀ {α : Type} {pageSize} (_ : 1 ≤ pageSize) (use : _ → Except ε α),
      ds.readPages pageSize callFailed use fuel 0 =
        some ((ds.withId ds.streams.values).mapM use) :=
    fun hsize use => readPages_eq hsize callFailed use hfuel (Nat.zero_le _)
  refine ⟨ds.streams.nodup, ?_, fun hzero => ⟨fun streamIdFromHash => ?_, ?_⟩⟩
  · have hids : (ds.withId ds.streams.values).mapM (fun s => (.ok s.1 : Except ε Bytes32)) =
        .ok (ds.streams.values.filter (· ≠ 0)) := by
      rw [withId, mapM_map]
      exact mapM_pure.trans (congrArg _ (map_id _))
    rw [hloop hsize, hids, Option.some.injEq, Except.ok.injEq, filter_eq_self]
    exact ⟨fun h hmem => of_decide_eq_true (h 0 hmem) rfl,
      fun h id hid => decide_eq_true fun heq => h (heq ▸ hid)⟩
  · rw [getAllStreams, hloop (by decide), withId_eq hzero, mapM_map]
    rfl
  · rw [startImpl, hloop (by decide), withId_eq hzero, mapM_map]
    exact congrArg some mapM_pure

/-- A registry with the streams `ids`, which node 1 has allocated. -/
def registryOf (ids : List Bytes32) : AppStorage :=
  riverRegistry.exec (.deployed 8 ⟨[9], by decide⟩)
    (⟨9, .registerNode 1 "" .operational⟩ :: ids.map fun id => ⟨1, .allocateStream id [1] 0 [10]⟩)

theorem readPages_all_two :
    (registryOf [5, 7]).readPages 1 id (fun s => .ok s.1) 3 0 = some (.ok [5, 7]) :=
  (readPages_all (registryOf [5, 7]) 1 (Nat.le_refl 1) id 3 (by decide)).2.1.2 (by decide)

/-- A stream with the id zero is left out. -/
theorem readPages_zero_id :
    (registryOf [5, 0]).streams.values = [5, 0] ∧
      (registryOf [5, 0]).readPages 1 id (fun s => .ok s.1) 3 0 = some (.ok [5]) :=
  ⟨rfl, rfl⟩

end River.Contracts
