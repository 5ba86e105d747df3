/-
  Where streams are placed (contracts/src/river/registry/facets/stream/StreamRegistry.sol).

  Registrations of nodes come from another facet and may change in any way between two
  transactions.
-/

import River.Contracts.Space
import River.Lib.EnumerableSet
import River.Lib.Machine

namespace River.Contracts

open River.Lib Machine

inductive RegistryError where
  | alreadyExists | nodeNotFound | notFound | operatorNotFound | outOfBounds | badArg | badAuth
  | nodeStateNotAllowed | ownableNotOwner | ownableZeroAddress

structure RegisteredStream where
  lastMiniblockHash : Bytes32
  lastMiniblockNum : Nat
  flags : Nat
  nodes : List Address

structure StreamPlacementUpdated where
  streamId : Bytes32
  nodeAddress : Address
  isAdded : Bool

structure Registry where
  streams : EnumerableSet Bytes32
  streamById : Bytes32 → RegisteredStream
  nodes : EnumerableSet Address
  nodeByAddress : Address → Address

namespace Registry

variable (r : Registry)

def onlyNode (node : Address) : Except RegistryError Unit :=
  if r.nodeByAddress node = 0 then .error .nodeNotFound else .ok ()

variable (streamId : Bytes32)

def onlyStream : Except RegistryError Unit :=
  if streamId ∈ r.streams then .ok () else .error .notFound

def setNodes (nodes : List Address) : Registry :=
  let stream := { r.streamById streamId with nodes := nodes }
  { r with streamById := Function.update r.streamById streamId stream }

def allocateStream (msgSender : Address) (streamId : Bytes32) (nodes : List Address)
    (genesisMiniblockHash : Bytes32) : Except RegistryError Registry := do
  r.onlyNode msgSender
  if streamId ∈ r.streams then
    .error .alreadyExists
  else if ∀ node ∈ nodes, node ∈ r.nodes then
    .ok { r with
      streams := r.streams.add streamId
      streamById := Function.update r.streamById streamId ⟨genesisMiniblockHash, 0, 0, nodes⟩ }
  else
    .error .nodeNotFound

def placeStreamOnNode (nodeAddress : Address) :
    Except RegistryError (Registry × StreamPlacementUpdated) := do
  r.onlyStream streamId
  r.onlyNode nodeAddress
  let nodes := (r.streamById streamId).nodes
  if nodeAddress ∈ nodes then
    .error .alreadyExists
  else
    .ok (r.setNodes streamId (nodes ++ [nodeAddress]), ⟨streamId, nodeAddress, true⟩)

def removeStreamFromNode (nodeAddress : Address) :
    Except RegistryError (Registry × StreamPlacementUpdated) := do
  r.onlyStream streamId
  r.onlyNode nodeAddress
  let nodes := (r.streamById streamId).nodes
  -- the loop stops at the first place that has the node
  if nodeAddress ∈ nodes then
    .ok (r.setNodes streamId (swapRemoveAt nodes (nodes.idxOf nodeAddress)),
      ⟨streamId, nodeAddress, false⟩)
  else
    .error .nodeNotFound

end Registry

inductive RegistryTx where
  | placeStreamOnNode (streamId : Bytes32) (nodeAddress : Address)
  | removeStreamFromNode (streamId : Bytes32) (nodeAddress : Address)
  /-- What the node facet does. -/
  | nodeRegistry (nodes : EnumerableSet Address) (nodeByAddress : Address → Address)

def registryMachine : Machine Registry RegistryTx (Option StreamPlacementUpdated) where
  step r
    | .placeStreamOnNode streamId nodeAddress =>
      match r.placeStreamOnNode streamId nodeAddress with
      | .ok (r', event) => (r', some event)
      | .error _ => (r, none)
    | .removeStreamFromNode streamId nodeAddress =>
      match r.removeStreamFromNode streamId nodeAddress with
      | .ok (r', event) => (r', some event)
      | .error _ => (r, none)
    | .nodeRegistry nodes nodeByAddress => ({ r with nodes, nodeByAddress }, none)

inductive RegistryStep (r : Registry) (streamId : Bytes32) :
    RegistryTx → Registry → Option StreamPlacementUpdated → Prop where
  /-- The transaction reverts, or it is about something else. -/
  | other {tx : RegistryTx} {r' : Registry} {event : Option StreamPlacementUpdated}
      (nodes : (r'.streamById streamId).nodes = (r.streamById streamId).nodes)
      (elsewhere : ∀ e ∈ event, e.streamId ≠ streamId) : RegistryStep r streamId tx r' event
  | placed {nodeAddress : Address} {r' : Registry}
    (not_mem : nodeAddress ∉ (r.streamById streamId).nodes)
      (nodes : (r'.streamById streamId).nodes = (r.streamById streamId).nodes ++ [nodeAddress]) :
      RegistryStep r streamId (.placeStreamOnNode streamId nodeAddress) r'
        (some ⟨streamId, nodeAddress, true⟩)
  | removed {nodeAddress : Address} {r' : Registry}
    (mem : nodeAddress ∈ (r.streamById streamId).nodes)
      (nodes : (r'.streamById streamId).nodes =
        swapRemoveAt (r.streamById streamId).nodes
          ((r.streamById streamId).nodes.idxOf nodeAddress)) :
      RegistryStep r streamId (.removeStreamFromNode streamId nodeAddress) r'
        (some ⟨streamId, nodeAddress, false⟩)

namespace Registry

theorem nodes_setNodes_self (r : Registry) (streamId : Bytes32) (nodes : List Address) :
    ((r.setNodes streamId nodes).streamById streamId).nodes = nodes := by
  simp [setNodes]

variable {streamId : Bytes32}

theorem nodes_setNodes_of_ne (r : Registry) {id : Bytes32} (h : id ≠ streamId)
    (nodes : List Address) : (r.setNodes id nodes).streamById streamId = r.streamById streamId := by
  simp [setNodes, h.symm]

variable {r : Registry} {nodeAddress : Address} {res : Registry × StreamPlacementUpdated}

theorem placeStreamOnNode_eq_ok (h : r.placeStreamOnNode streamId nodeAddress = .ok res) :
    nodeAddress ∉ (r.streamById streamId).nodes ∧
      res = (r.setNodes streamId ((r.streamById streamId).nodes ++ [nodeAddress]),
        ⟨streamId, nodeAddress, true⟩) := by
  iterate 2 obtain ⟨-, h⟩ := guard_ok.1 h
  simp only at h
  split at h
  · cases h
  · rename_i hnot
    cases h
    exact ⟨hnot, rfl⟩

theorem removeStreamFromNode_eq_ok (h : r.removeStreamFromNode streamId nodeAddress = .ok res) :
    nodeAddress ∈ (r.streamById streamId).nodes ∧
      res = (r.setNodes streamId (swapRemoveAt (r.streamById streamId).nodes
        ((r.streamById streamId).nodes.idxOf nodeAddress)), ⟨streamId, nodeAddress, false⟩) := by
  iterate 2 obtain ⟨-, h⟩ := guard_ok.1 h
  simp only at h
  split at h
  · rename_i hmem
    cases h
    exact ⟨hmem, rfl⟩
  · cases h

theorem step (r : Registry) (streamId : Bytes32) (tx : RegistryTx) :
    RegistryStep r streamId tx (registryMachine.next r tx) (registryMachine.out r tx) := by
  have hreverted : RegistryStep r streamId tx r none := .other rfl fun e he => nomatch he
  cases tx with
  | placeStreamOnNode id nodeAddress =>
    simp only [next, out, registryMachine]
    cases hplace : r.placeStreamOnNode id nodeAddress with
    | error e => exact hreverted
    | ok res =>
      obtain ⟨hnot, rfl⟩ := placeStreamOnNode_eq_ok hplace
      by_cases hid : id = streamId
      · subst hid
        exact .placed hnot (nodes_setNodes_self r id _)
      · refine .other ?_ (by simpa using hid)
        rw [nodes_setNodes_of_ne r hid]
  | removeStreamFromNode id nodeAddress =>
    simp only [next, out, registryMachine]
    cases hremove : r.removeStreamFromNode id nodeAddress with
    | error e => exact hreverted
    | ok res =>
      obtain ⟨hmem, rfl⟩ := removeStreamFromNode_eq_ok hremove
      by_cases hid : id = streamId
      · subst hid
        exact .removed hmem (nodes_setNodes_self r id _)
      · refine .other ?_ (by simpa using hid)
        rw [nodes_setNodes_of_ne r hid]
  | nodeRegistry nodes nodeByAddress => exact .other rfl (by simp [out, registryMachine])

end Registry

end River.Contracts
