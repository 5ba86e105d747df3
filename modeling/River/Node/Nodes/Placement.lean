/-
  The placement of a stream in the contract, and in a node that follows its events.
-/

import River.Contracts.StreamRegistry
import River.Node.Nodes.StreamNodes

namespace River.Node

open River.Lib River.Contracts

structure PlacementAction where
  tx : RegistryTx
  shuffle : Shuffle

structure Placement where
  registry : Registry
  view : StreamNodes

namespace Placement

def nodes (p : Placement) (streamId : Bytes32) : List Address :=
  (p.registry.streamById streamId).nodes

def onStreamPlacementUpdated (view : StreamNodes) (shuffle : Shuffle) (streamId : Bytes32) :
    Option StreamPlacementUpdated → StreamNodes
  | none => view
  | some event =>
    if event.streamId = streamId then
      match view.update shuffle event.nodeAddress event.isAdded with
      | .ok view => view
      | _ => view
    else view

end Placement

/-- The registry, and a node's view of one stream. -/
def placementMachine (streamId : Bytes32) : Machine Placement PlacementAction Unit where
  step p a :=
    (⟨registryMachine.next p.registry a.tx,
      Placement.onStreamPlacementUpdated p.view a.shuffle streamId
        (registryMachine.out p.registry a.tx)⟩, ())

namespace Placement

/-- The view has the registry's nodes, and their leader. -/
structure Agrees (streamId : Bytes32) (p : Placement) : Prop where
  nodes_eq : p.view.nodes = p.nodes streamId
  localIsLeader_eq : ∀ shuffle, p.view.localIsLeader =
    (newStreamNodes shuffle (p.nodes streamId) p.view.localNode).localIsLeader

/-- At most one node is behind a removed one. -/
def RemovesFromEnd (streamId : Bytes32) (p : Placement) (a : PlacementAction) : Prop :=
  ∀ event ∈ registryMachine.out p.registry a.tx, event.streamId = streamId → event.isAdded = false →
    let behind := (p.nodes streamId).drop ((p.nodes streamId).idxOf event.nodeAddress + 1)
    ∀ x ∈ behind, ∀ y ∈ behind, x = y

instance (streamId : Bytes32) (p : Placement) (a : PlacementAction) :
    Decidable (RemovesFromEnd streamId p a) :=
  inferInstanceAs (Decidable (∀ event ∈ registryMachine.out p.registry a.tx, _))

theorem agrees_iff {p : Placement} : p.Agrees sid ↔ p.view.nodes = p.nodes sid := by
  refine ⟨fun h => h.nodes_eq, fun h => ⟨h, fun shuffle => ?_⟩⟩
  simp [StreamNodes.localIsLeader, h]

theorem agrees_next_iff {p : Placement} (h : p.Agrees sid) :
    ((placementMachine sid).next p a).Agrees sid ↔ RemovesFromEnd sid p a := by
  rw [agrees_iff] at h ⊢
  obtain ⟨tx, shuffle⟩ := a
  obtain ⟨registry, view⟩ := p
  have hnext : (placementMachine sid).next ⟨registry, view⟩ ⟨tx, shuffle⟩ =
      ⟨registryMachine.next registry tx,
        onStreamPlacementUpdated view shuffle sid (registryMachine.out registry tx)⟩ := rfl
  have hstep := registry.step sid tx
  unfold RemovesFromEnd
  rw [hnext]
  simp only [Placement.nodes] at h ⊢
  generalize registryMachine.out registry tx = event at hstep ⊢
  cases hstep with
  | other nodes elsewhere =>
    have hview : onStreamPlacementUpdated view shuffle sid event = view := by
      cases event with
      | none => rfl
      | some e => simp [onStreamPlacementUpdated, elsewhere e rfl]
    rw [hview, nodes]
    exact iff_of_true h fun e he hid => absurd hid (elsewhere e he)
  | @placed nodeAddress _ not_mem nodes =>
    rw [← h] at not_mem
    have hview : (onStreamPlacementUpdated view shuffle sid
        (some ⟨sid, nodeAddress, true⟩)).nodes = view.nodes ++ [nodeAddress] := by
      simp [onStreamPlacementUpdated, StreamNodes.update, not_mem]
    rw [hview, nodes, h]
    refine iff_of_true rfl ?_
    rintro e he - hadded
    cases he
    cases hadded
  | @removed nodeAddress _ mem nodes =>
    rw [← h] at mem nodes
    have hview : (onStreamPlacementUpdated view shuffle sid
        (some ⟨sid, nodeAddress, false⟩)).nodes =
          view.nodes.eraseIdx (view.nodes.idxOf nodeAddress) := by
      simp [onStreamPlacementUpdated, StreamNodes.update, mem]
    rw [hview, nodes, ← h, eq_comm, swapRemoveAt_eq_eraseIdx (List.idxOf_lt_length_of_mem mem)]
    simp

end Placement

/-- **Placement.** After a stream was allocated, a node that applies the events of the contract
    in order has the same list of nodes at every point exactly if every removal leaves no two
    different nodes behind the removed one. -/
theorem placement_agrees_iff (r0 r : Registry) (msgSender : Address) (sid : Bytes32)
    (nodes : List Address) (genesisMiniblockHash : Bytes32)
    (halloc : r0.allocateStream msgSender sid nodes genesisMiniblockHash = .ok r)
    (shuffle : Shuffle) (localNode : Address) (acts : List PlacementAction) :
    (∀ front, front <+: acts → ((placementMachine sid).exec
        ⟨r, newStreamNodes shuffle nodes localNode⟩ front).Agrees sid) ↔
      (placementMachine sid).Along (Placement.RemovesFromEnd sid)
        ⟨r, newStreamNodes shuffle nodes localNode⟩ acts := by
  refine Machine.always_iff_along (J := fun _ => True) (fun _ _ _ => trivial)
    (fun p a _ h => Placement.agrees_next_iff h) trivial ?_ acts
  rw [Placement.agrees_iff]
  obtain ⟨-, halloc⟩ := guard_ok.1 halloc
  split at halloc
  · cases halloc
  split at halloc
  · cases halloc
    simp [Placement.nodes]
  · cases halloc

/-! ## Sample placements -/

def sampleRegistry : Registry where
  streams := .empty
  streamById _ := ⟨0, 0, 0, []⟩
  nodes := ⟨[1, 2, 3], by decide⟩
  nodeByAddress node := if node ∈ [1, 2, 3] then node else 0

def Shuffle.none : Shuffle := ⟨id, fun l => List.Perm.refl l⟩

theorem placement_agrees_last_node :
    ∃ r, sampleRegistry.allocateStream 1 7 [1, 2, 3] 0 = .ok r ∧
      ∀ front, front <+: [⟨.removeStreamFromNode 7 3, .none⟩, ⟨.placeStreamOnNode 7 3, .none⟩] →
        ((placementMachine 7).exec ⟨r, newStreamNodes .none [1, 2, 3] 1⟩ front).Agrees 7 :=
  ⟨_, rfl, (placement_agrees_iff sampleRegistry _ 1 7 [1, 2, 3] 0 rfl .none 1 _).2 (by decide)⟩

/-- The first of three nodes is removed: the contract has the third one in its place, and the
    second one takes itself for the leader. -/
theorem placement_disagrees_first_node :
    ∃ r, sampleRegistry.allocateStream 1 7 [1, 2, 3] 0 = .ok r ∧
      let p := (placementMachine 7).exec ⟨r, newStreamNodes .none [1, 2, 3] 2⟩
        [⟨.removeStreamFromNode 7 1, .none⟩]
      p.nodes 7 = [3, 2] ∧ p.view.nodes = [2, 3] ∧ p.view.localIsLeader = true ∧
        (newStreamNodes .none (p.nodes 7) 2).localIsLeader = false :=
  ⟨_, rfl, by decide⟩

end River.Node
