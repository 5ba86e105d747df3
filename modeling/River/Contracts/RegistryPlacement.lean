/-
  Streams are placed on registered nodes.

  `allocateStream` does not look for duplicates, `removeNode` does not look for streams on the
  node.
-/

import River.Contracts.RiverRegistry

namespace River.Contracts

open River.Lib Function EnumerableSet List

namespace AppStorage

/-- Streams are on different nodes, all registered. -/
structure WellPlaced (ds : AppStorage) : Prop where
  nodup : ∀ sid ∈ ds.streams, (ds.streamById sid).nodes.Nodup
  registered : ∀ sid ∈ ds.streams, ∀ node ∈ (ds.streamById sid).nodes, node ∈ ds.nodes
  nodes_iff : ∀ a, a ∈ ds.nodes ↔ (ds.nodeByAddress a).nodeAddress = a ∧ a ≠ 0

def SelfAddressed (ds : AppStorage) : Prop :=
  ∀ a, (ds.nodeByAddress a).nodeAddress = 0 ∨ (ds.nodeByAddress a).nodeAddress = a

/-- What an accepted message must do to keep `WellPlaced`. -/
def KeepsPlacement (ds : AppStorage) (msg : RiverRegistryMessage) : Prop :=
  ds.Accepts msg →
    match msg.call with
    | .allocateStream _ nodes _ _ => nodes.Nodup
    | .removeNode nodeAddress =>
      ∀ sid ∈ ds.streams.values, nodeAddress ∉ (ds.streamById sid).nodes
    | .registerNode nodeAddress _ _ => nodeAddress ≠ 0
    | _ => True

/-! ## What the calls leave alone -/

variable {nodeAddress : Address} {node : RegisteredNode}

section Frame

variable {ds ds' : AppStorage}

structure SamePlacement (ds ds' : AppStorage) : Prop where
  streams : ds'.streams = ds.streams
  stream_nodes : ∀ sid, (ds'.streamById sid).nodes = (ds.streamById sid).nodes
  nodes : ds'.nodes = ds.nodes
  nodeAddress : ∀ a, (ds'.nodeByAddress a).nodeAddress = (ds.nodeByAddress a).nodeAddress

theorem SamePlacement.wellPlaced (h : SamePlacement ds ds') (hds : ds.WellPlaced) :
    ds'.WellPlaced where
  nodup := by
    intro sid hmem
    rw [h.stream_nodes]
    exact hds.nodup sid (h.streams ▸ hmem)
  registered := by
    intro sid hmem node hnode
    rw [h.stream_nodes] at hnode
    rw [h.nodes]
    exact hds.registered sid (h.streams ▸ hmem) node hnode
  nodes_iff := by
    intro a
    rw [h.nodes, h.nodeAddress]
    exact hds.nodes_iff a

theorem SamePlacement.trans (h : SamePlacement ds ds')
    (h' : SamePlacement ds' ds'') : SamePlacement ds ds'' where
  streams := h'.streams.trans h.streams
  stream_nodes sid := (h'.stream_nodes sid).trans (h.stream_nodes sid)
  nodes := h'.nodes.trans h.nodes
  nodeAddress a := (h'.nodeAddress a).trans (h.nodeAddress a)

theorem samePlacement_updateLastMiniblock (ds : AppStorage) (miniblock : SetMiniblock) :
    SamePlacement ds (ds.updateLastMiniblock miniblock) where
  streams := rfl
  stream_nodes :=
    (forall_update_iff ds.streamById fun id stream =>
      stream.nodes = (ds.streamById id).nodes).2 ⟨rfl, fun _ _ => rfl⟩
  nodes := rfl
  nodeAddress _ := rfl

theorem samePlacement_updateLastMiniblocks (ds : AppStorage) (miniblocks : List SetMiniblock) :
    SamePlacement ds (ds.updateLastMiniblocks miniblocks).1 := by
  induction miniblocks generalizing ds with
  | nil => exact ⟨rfl, fun _ => rfl, rfl, fun _ => rfl⟩
  | cons miniblock miniblocks ih =>
    unfold updateLastMiniblocks
    split
    · exact (samePlacement_updateLastMiniblock ds miniblock).trans (ih _)
    · exact ih ds

theorem samePlacement_setNode (ds : AppStorage)
    (h : node.nodeAddress = (ds.nodeByAddress nodeAddress).nodeAddress) :
    SamePlacement ds (ds.setNode nodeAddress node) where
  streams := rfl
  stream_nodes _ := rfl
  nodes := rfl
  nodeAddress :=
    (forall_update_iff ds.nodeByAddress fun a node =>
      node.nodeAddress = (ds.nodeByAddress a).nodeAddress).2 ⟨h, fun _ _ => rfl⟩

end Frame

/-! ## The records of nodes -/

theorem SelfAddressed.setNode {ds : AppStorage} (h : ds.SelfAddressed)
    (hnode : node.nodeAddress = 0 ∨ node.nodeAddress = nodeAddress) :
    (ds.setNode nodeAddress node).SelfAddressed :=
  (forall_update_iff ds.nodeByAddress fun a node =>
    node.nodeAddress = 0 ∨ node.nodeAddress = a).2 ⟨hnode, fun a _ => h a⟩

theorem SelfAddressed.next {ds : AppStorage} (h : ds.SelfAddressed) (msg : RiverRegistryMessage) :
    (riverRegistry.next ds msg).SelfAddressed := by
  obtain ⟨msgSender, call⟩ := msg
  rcases ds.next_cases ⟨msgSender, call⟩ with ⟨-, hnext⟩ | ⟨-, hstep⟩
  · rw [hnext]
    exact h
  generalize riverRegistry.next ds ⟨msgSender, call⟩ = ds' at hstep ⊢
  cases hstep with
  | @registerNode nodeAddress _ _ fresh =>
    have hnodes : { ds with nodes := ds.nodes.add nodeAddress }.SelfAddressed := h
    exact hnodes.setNode (.inr rfl)
  | @removeNode nodeAddress =>
    have hnodes : { ds with nodes := ds.nodes.remove nodeAddress }.SelfAddressed := h
    exact hnodes.setNode (.inl rfl)
  | updateNodeStatus | updateNodeUrl => exact h.setNode (h _)
  | @setStreamLastMiniblockBatch miniblocks =>
    intro a
    rw [(samePlacement_updateLastMiniblocks ds miniblocks).nodeAddress a]
    exact h a
  | _ => exact h

theorem nodes_iff_registered {ds : AppStorage} (hnode : node.nodeAddress = nodeAddress)
    (h : ∀ a, a ∈ ds.nodes ↔ (ds.nodeByAddress a).nodeAddress = a ∧ a ≠ 0) (hzero : nodeAddress ≠ 0)
    (a : Address) : a ∈ ds.nodes.add nodeAddress ↔
      (update ds.nodeByAddress nodeAddress node a).nodeAddress = a ∧ a ≠ 0 := by
  rw [mem_add]
  by_cases ha : a = nodeAddress
  · subst ha
    rw [update_self]
    exact iff_of_true (.inr rfl) ⟨hnode, hzero⟩
  · rw [update_of_ne ha, ← h a]
    exact or_iff_left ha

theorem nodes_iff_removed {ds : AppStorage} (nodeAddress : Address)
    (h : ∀ a, a ∈ ds.nodes ↔ (ds.nodeByAddress a).nodeAddress = a ∧ a ≠ 0) (a : Address) :
    a ∈ ds.nodes.remove nodeAddress ↔
      (update ds.nodeByAddress nodeAddress .zero a).nodeAddress = a ∧ a ≠ 0 := by
  rw [mem_remove]
  by_cases ha : a = nodeAddress
  · subst ha
    rw [update_self]
    exact iff_of_false (fun hmem => hmem.2 rfl) fun hmem => hmem.2 hmem.1.symm
  · rw [update_of_ne ha, ← h a]
    exact and_iff_left ha

/-! ## One message -/

section Step

variable {ds : AppStorage}

variable (h : ds.WellPlaced)

include h

theorem WellPlaced.setNodes {nodes : List Address} (hnodup : nodes.Nodup)
    (hnodes : ∀ node ∈ nodes, node ∈ ds.nodes) :
    WellPlaced { ds with streamById := (ds.registry.setNodes sid nodes).streamById } where
  nodup := by
    intro id hid
    show ((ds.registry.setNodes sid nodes).streamById id).nodes.Nodup
    by_cases heq : id = sid
    · subst heq
      rw [Registry.nodes_setNodes_self]
      exact hnodup
    · rw [Registry.nodes_setNodes_of_ne ds.registry (.symm heq)]
      exact h.nodup id hid
  registered := by
    intro id hid node hnode
    change node ∈ ((ds.registry.setNodes sid nodes).streamById id).nodes at hnode
    by_cases heq : id = sid
    · subst heq
      rw [Registry.nodes_setNodes_self] at hnode
      exact hnodes node hnode
    · rw [Registry.nodes_setNodes_of_ne ds.registry (.symm heq)] at hnode
      exact h.registered id hid node hnode
  nodes_iff := h.nodes_iff

theorem WellPlaced.allocated_iff {nodes : List Address} (hash : Bytes32)
    (bytes : Bytes32 → List UInt8) (hashes : Bytes32 → Bytes32)
    (hplaced : ∀ node ∈ nodes, node ∈ ds.nodes) :
    WellPlaced { ds with
        streams := ds.streams.add sid
        streamById := update ds.streamById sid ⟨hash, 0, 0, nodes⟩
        genesisMiniblockByStreamId := bytes
        genesisMiniblockHashByStreamId := hashes } ↔ nodes.Nodup := by
  constructor
  · intro h'
    have hnodup := h'.nodup sid (mem_add.2 (.inr rfl))
    simpa using hnodup
  · intro hnodup
    refine ⟨?_, ?_, h.nodes_iff⟩
    · exact (forall_update_iff ds.streamById fun id stream =>
        id ∈ ds.streams.add sid → stream.nodes.Nodup).2 ⟨fun _ => hnodup, fun id hne hid =>
          h.nodup id ((mem_add.1 hid).resolve_right hne)⟩
    · exact (forall_update_iff ds.streamById fun id stream =>
        id ∈ ds.streams.add sid → ∀ node ∈ stream.nodes, node ∈ ds.nodes).2
          ⟨fun _ => hplaced, fun id hne hid =>
            h.registered id ((mem_add.1 hid).resolve_right hne)⟩

theorem WellPlaced.registered_iff (hnode : node.nodeAddress = nodeAddress) :
    WellPlaced ({ ds with nodes := ds.nodes.add nodeAddress }.setNode nodeAddress node) ↔
      nodeAddress ≠ 0 := by
  constructor
  · intro h'
    exact ((h'.nodes_iff nodeAddress).1 (mem_add.2 (.inr rfl))).2
  intro hzero
  refine ⟨h.nodup, ?_, nodes_iff_registered hnode h.nodes_iff hzero⟩
  intro sid hid node hnode
  exact mem_add.2 (.inl (h.registered sid hid node hnode))

theorem WellPlaced.removed_iff :
    WellPlaced ({ ds with nodes := ds.nodes.remove nodeAddress }.setNode nodeAddress .zero) ↔
      ∀ sid ∈ ds.streams.values, nodeAddress ∉ (ds.streamById sid).nodes := by
  constructor
  · intro h' sid hid hmem
    exact (mem_remove.1 (h'.registered sid hid nodeAddress hmem)).2 rfl
  intro hunused
  refine ⟨h.nodup, ?_, nodes_iff_removed nodeAddress h.nodes_iff⟩
  intro sid hid node hnode
  refine mem_remove.2 ⟨h.registered sid hid node hnode, ?_⟩
  rintro rfl
  exact hunused sid hid hnode

theorem wellPlaced_next_iff (hself : ds.SelfAddressed) (msg : RiverRegistryMessage) :
    (riverRegistry.next ds msg).WellPlaced ↔ ds.KeepsPlacement msg := by
  obtain ⟨msgSender, call⟩ := msg
  rcases ds.next_cases ⟨msgSender, call⟩ with ⟨hnot, hnext⟩ | ⟨haccepts, hstep⟩
  · rw [hnext]
    exact iff_of_true h fun haccepts => absurd haccepts hnot
  unfold KeepsPlacement
  rw [imp_iff_right haccepts]
  generalize riverRegistry.next ds ⟨msgSender, call⟩ = ds' at hstep ⊢
  cases hstep with
  | allocateStream fresh placed => exact h.allocated_iff _ _ _ placed
  | registerNode fresh => exact h.registered_iff rfl
  | removeNode => exact h.removed_iff
  | @placeStreamOnNode sid nodeAddress stream registered not_mem =>
    -- what `onlyNode` lets through is in the set of nodes
    have hnode : nodeAddress ∈ ds.nodes := by
      have haddress := (hself nodeAddress).resolve_left registered
      exact (h.nodes_iff nodeAddress).2 ⟨haddress, haddress ▸ registered⟩
    refine iff_of_true (h.setNodes ?_ ?_) trivial
    · rw [nodup_append_comm, singleton_append, nodup_cons]
      exact ⟨not_mem, h.nodup sid stream⟩
    · exact forall_mem_append.2 ⟨h.registered sid stream, forall_mem_singleton.2 hnode⟩
  | @removeStreamFromNode sid nodeAddress stream mem =>
    have hperm := swapRemoveAt_perm (idxOf_lt_length_of_mem mem)
    refine iff_of_true (h.setNodes ?_ ?_) trivial
    · exact hperm.nodup_iff.2 ((h.nodup sid stream).sublist (eraseIdx_sublist _ _))
    · intro node hmem
      exact h.registered sid stream node ((eraseIdx_sublist _ _).mem (hperm.mem_iff.1 hmem))
  | @setStreamLastMiniblock miniblock mem =>
    exact iff_of_true ((samePlacement_updateLastMiniblock ds miniblock).wellPlaced h) trivial
  | @setStreamLastMiniblockBatch miniblocks =>
    exact iff_of_true ((samePlacement_updateLastMiniblocks ds miniblocks).wellPlaced h) trivial
  | @updateNodeStatus nodeAddress status =>
    have hsame : SamePlacement ds (ds.setNode nodeAddress
        { ds.nodeByAddress nodeAddress with status := status }) := samePlacement_setNode ds rfl
    exact iff_of_true (hsame.wellPlaced h) trivial
  | @updateNodeUrl nodeAddress url =>
    have hsame : SamePlacement ds (ds.setNode nodeAddress
        { ds.nodeByAddress nodeAddress with url := url }) := samePlacement_setNode ds rfl
    exact iff_of_true (hsame.wellPlaced h) trivial
  | _ => exact iff_of_true ⟨h.nodup, h.registered, h.nodes_iff⟩ trivial

omit h

end Step

end AppStorage

open AppStorage

/-- **Placement.** All along a run of the deployed registry the nodes of every stream are
    different and registered, and the two records of nodes agree, exactly if every message that
    is accepted meets the condition. -/
theorem wellPlaced_always_iff (owner : Address) (operators : EnumerableSet Address)
    (run : List RiverRegistryMessage) :
    (∀ front, front <+: run → (riverRegistry.exec (.deployed owner operators) front).WellPlaced) ↔
      riverRegistry.Along KeepsPlacement (.deployed owner operators) run := by
  refine Machine.always_iff_along (J := SelfAddressed) (fun _ msg h => h.next msg)
    (fun _ msg hself h => wellPlaced_next_iff h hself msg) (fun _ => .inl rfl) ?_ run
  refine ⟨fun sid hid => ?_, fun sid hid => ?_, fun a => ?_⟩
  · exact absurd hid (not_mem_empty sid)
  · exact absurd hid (not_mem_empty sid)
  · exact iff_of_false (not_mem_empty a) fun h => h.2 h.1.symm

/-- Operator 9 registers node 1, a stream is allocated on the node twice, and the node is removed:
    it is still on the stream, two times. -/
theorem not_wellPlaced_removed_node :
    let operators : EnumerableSet Address := ⟨[9], by decide⟩
    let ds := riverRegistry.exec (.deployed 8 operators)
      [⟨9, .registerNode 1 "" .failed⟩, ⟨1, .allocateStream 7 [1, 1] 0 []⟩,
        ⟨9, .updateNodeStatus 1 .deleted⟩, ⟨9, .removeNode 1⟩, ⟨9, .registerNode 0 "" .operational⟩]
    (ds.streamById 7).nodes = [1, 1] ∧ 7 ∈ ds.streams ∧ 1 ∉ ds.nodes ∧ 0 ∈ ds.nodes ∧
      ¬ds.WellPlaced := by
  intro operators ds
  have hnodes : (ds.streamById 7).nodes = [1, 1] := by decide
  have hstream : 7 ∈ ds.streams := by decide
  refine ⟨hnodes, hstream, by decide, by decide, fun h => ?_⟩
  have hnodup := h.nodup 7 hstream
  exact absurd hnodup (by decide)

end River.Contracts
