/-
  The river registry with all its facets
  (contracts/src/river/registry/libraries/RegistryStorage.sol and
  facets/stream/StreamRegistry.sol, facets/node/NodeRegistry.sol,
  facets/operator/OperatorRegistry.sol, with diamond/facets/ownable/OwnableFacet.sol).
-/

import River.Contracts.StreamRegistry

namespace River.Contracts

open River.Lib Function

/-! ## Storage -/

inductive NodeStatus where
  | notInitialized | remoteOnly | operational | failed | departing | deleted
  deriving DecidableEq

structure RegisteredNode where
  status : NodeStatus
  url : String
  nodeAddress : Address
  operator : Address

def RegisteredNode.zero : RegisteredNode := ⟨.notInitialized, "", 0, 0⟩

structure SetMiniblock where
  streamId : Bytes32
  prevMiniBlockHash : Bytes32
  lastMiniblockHash : Bytes32
  lastMiniblockNum : Nat
  isSealed : Bool

inductive RegistryEvent where
  | streamAllocated (streamId : Bytes32) (nodes : List Address) (genesisMiniblockHash : Bytes32)
      (genesisMiniblock : List UInt8)
  | streamLastMiniblockUpdated (streamId lastMiniblockHash : Bytes32) (lastMiniblockNum : Nat)
      (isSealed : Bool)
  | streamLastMiniblockUpdateFailed (streamId lastMiniblockHash : Bytes32) (lastMiniblockNum : Nat)
      (reason : RegistryError)
  | streamPlacementUpdated (event : StreamPlacementUpdated)
  | nodeAdded (nodeAddress : Address) (url : String) (status : NodeStatus)
  | nodeStatusUpdated (nodeAddress : Address) (status : NodeStatus)
  | nodeUrlUpdated (nodeAddress : Address) (url : String)
  | nodeRemoved (nodeAddress : Address)
  | operatorAdded (operator : Address)
  | operatorRemoved (operator : Address)
  | ownershipTransferred (oldOwner newOwner : Address)

structure AppStorage where
  streams : EnumerableSet Bytes32
  streamById : Bytes32 → RegisteredStream
  genesisMiniblockByStreamId : Bytes32 → List UInt8
  genesisMiniblockHashByStreamId : Bytes32 → Bytes32
  nodes : EnumerableSet Address
  nodeByAddress : Address → RegisteredNode
  operators : EnumerableSet Address
  owner : Address

abbrev RegistryAnswer := Except RegistryError (AppStorage × List RegistryEvent)

namespace AppStorage

def deployed (owner : Address) (operators : EnumerableSet Address) : AppStorage where
  streams := .empty
  streamById _ := ⟨0, 0, 0, []⟩
  genesisMiniblockByStreamId _ := []
  genesisMiniblockHashByStreamId _ := 0
  nodes := .empty
  nodeByAddress _ := .zero
  operators := operators
  owner := owner

variable (ds : AppStorage)

def registry : Registry where
  streams := ds.streams
  streamById := ds.streamById
  nodes := ds.nodes
  nodeByAddress node := (ds.nodeByAddress node).nodeAddress

/-! ## Modifiers -/

def onlyOperator (operator : Address) : Except RegistryError Unit :=
  if operator ∈ ds.operators then .ok () else .error .badAuth

def onlyNodeOperator (node operator : Address) : Except RegistryError Unit :=
  if (ds.nodeByAddress node).operator = operator then .ok () else .error .badAuth

def onlyOwner (msgSender : Address) : Except RegistryError Unit :=
  if msgSender = ds.owner then .ok () else .error .ownableNotOwner

/-! ## StreamRegistry -/

def allocateStream (ds : AppStorage) (msgSender : Address) (streamId : Bytes32)
    (nodes : List Address) (genesisMiniblockHash : Bytes32) (genesisMiniblock : List UInt8) :
    RegistryAnswer := do
  let r ← ds.registry.allocateStream msgSender streamId nodes genesisMiniblockHash
  let bytes := update ds.genesisMiniblockByStreamId streamId genesisMiniblock
  let hashes := update ds.genesisMiniblockHashByStreamId streamId genesisMiniblockHash
  .ok ({ ds with
      streams := r.streams
      streamById := r.streamById
      genesisMiniblockByStreamId := bytes
      genesisMiniblockHashByStreamId := hashes },
    [.streamAllocated streamId nodes genesisMiniblockHash genesisMiniblock])

def getStreamWithGenesis (streamId : Bytes32) :
    Except RegistryError (RegisteredStream × Bytes32 × List UInt8) := do
  ds.registry.onlyStream streamId
  .ok (ds.streamById streamId, ds.genesisMiniblockHashByStreamId streamId,
    ds.genesisMiniblockByStreamId streamId)

def sealedFlag : Nat := 1

def setStreamLastMiniblock (msgSender : Address) (miniblock : SetMiniblock) : RegistryAnswer := do
  ds.registry.onlyNode msgSender
  ds.registry.onlyStream miniblock.streamId
  let stream := { ds.streamById miniblock.streamId with
    lastMiniblockHash := miniblock.lastMiniblockHash
    lastMiniblockNum := miniblock.lastMiniblockNum }
  let stream :=
    if miniblock.isSealed then { stream with flags := stream.flags ||| sealedFlag } else stream
  let ds' := { ds with streamById := update ds.streamById miniblock.streamId stream }
  let ds' := if miniblock.lastMiniblockNum = 1 then
      let bytes := update ds'.genesisMiniblockByStreamId miniblock.streamId []
      { ds' with genesisMiniblockByStreamId := bytes }
    else ds'
  .ok (ds', [.streamLastMiniblockUpdated miniblock.streamId miniblock.lastMiniblockHash
    miniblock.lastMiniblockNum miniblock.isSealed])

/-- What the loop of `setStreamLastMiniblockBatch` does for a registered stream. -/
def updateLastMiniblock (miniblock : SetMiniblock) : AppStorage :=
  let old := ds.streamById miniblock.streamId
  let stream : RegisteredStream :=
    { old with
      lastMiniblockHash := miniblock.lastMiniblockHash
      lastMiniblockNum := miniblock.lastMiniblockNum
      flags := if miniblock.isSealed then old.flags ||| sealedFlag else old.flags }
  let bytes :=
    if miniblock.lastMiniblockNum = 1 then
      update ds.genesisMiniblockByStreamId miniblock.streamId []
    else ds.genesisMiniblockByStreamId
  { ds with
    streamById := update ds.streamById miniblock.streamId stream
    genesisMiniblockByStreamId := bytes }

def updateLastMiniblocks (ds : AppStorage) : List SetMiniblock → AppStorage × List RegistryEvent
  | [] => (ds, [])
  | miniblock :: miniblocks =>
    if miniblock.streamId ∈ ds.streams then
      let (ds', events) := (ds.updateLastMiniblock miniblock).updateLastMiniblocks miniblocks
      (ds', .streamLastMiniblockUpdated miniblock.streamId miniblock.lastMiniblockHash
        miniblock.lastMiniblockNum miniblock.isSealed :: events)
    else
      let (ds', events) := ds.updateLastMiniblocks miniblocks
      (ds', .streamLastMiniblockUpdateFailed miniblock.streamId miniblock.lastMiniblockHash
        miniblock.lastMiniblockNum .notFound :: events)

def setStreamLastMiniblockBatch (msgSender : Address) (miniblocks : List SetMiniblock) :
    RegistryAnswer := do
  ds.registry.onlyNode msgSender
  .ok (ds.updateLastMiniblocks miniblocks)

/-- The two copies of the update agree. -/
theorem setStreamLastMiniblock_eq (msgSender : Address) (miniblock : SetMiniblock) :
    ds.setStreamLastMiniblock msgSender miniblock =
      (ds.registry.onlyNode msgSender >>= fun _ => ds.registry.onlyStream miniblock.streamId >>=
        fun _ => .ok (ds.updateLastMiniblock miniblock,
          [.streamLastMiniblockUpdated miniblock.streamId miniblock.lastMiniblockHash
            miniblock.lastMiniblockNum miniblock.isSealed])) := by
  obtain ⟨_, _, _, lastMiniblockNum, isSealed⟩ := miniblock
  unfold setStreamLastMiniblock updateLastMiniblock
  cases isSealed
  all_goals
    by_cases hnum : lastMiniblockNum = 1
    · subst hnum
      rfl
    · simp only [if_neg hnum]
      rfl

def placeStreamOnNode (ds : AppStorage) (streamId : Bytes32) (nodeAddress : Address) :
    RegistryAnswer := do
  let (r, event) ← ds.registry.placeStreamOnNode streamId nodeAddress
  .ok ({ ds with streamById := r.streamById }, [.streamPlacementUpdated event])

def removeStreamFromNode (ds : AppStorage) (streamId : Bytes32) (nodeAddress : Address) :
    RegistryAnswer := do
  let (r, event) ← ds.registry.removeStreamFromNode streamId nodeAddress
  .ok ({ ds with streamById := r.streamById }, [.streamPlacementUpdated event])

/-! ## NodeRegistry -/

def setNode (nodeAddress : Address) (node : RegisteredNode) : AppStorage :=
  { ds with nodeByAddress := update ds.nodeByAddress nodeAddress node }

variable (msgSender nodeAddress : Address)

def registerNode (url : String) (status : NodeStatus) : RegistryAnswer := do
  ds.onlyOperator msgSender
  if (ds.nodeByAddress nodeAddress).nodeAddress ≠ 0 then
    .error .alreadyExists
  else
    let newNode : RegisteredNode := ⟨status, url, nodeAddress, msgSender⟩
    .ok ({ ds with nodes := ds.nodes.add nodeAddress }.setNode nodeAddress newNode,
      [.nodeAdded nodeAddress url status])

def removeNode : RegistryAnswer := do
  ds.onlyNodeOperator nodeAddress msgSender
  if (ds.nodeByAddress nodeAddress).nodeAddress = 0 then
    .error .nodeNotFound
  else if (ds.nodeByAddress nodeAddress).status ≠ .deleted then
    .error .nodeStateNotAllowed
  else
    .ok ({ ds with nodes := ds.nodes.remove nodeAddress }.setNode nodeAddress .zero,
      [.nodeRemoved nodeAddress])

def checkNodeStatusTransionAllowed (from_ to_ : NodeStatus) : Except RegistryError Unit :=
  if from_ = .notInitialized ∨
      (from_ = .remoteOnly ∧ (to_ = .failed ∨ to_ = .departing)) ∨
      (from_ = .operational ∧ (to_ = .failed ∨ to_ = .departing)) ∨
      (from_ = .departing ∧ (to_ = .failed ∨ to_ = .deleted)) ∨
      (from_ = .failed ∧ to_ = .deleted) then
    .ok ()
  else
    .error .nodeStateNotAllowed

def updateNodeStatus (status : NodeStatus) : RegistryAnswer := do
  ds.registry.onlyNode nodeAddress
  ds.onlyOperator msgSender
  ds.onlyNodeOperator nodeAddress msgSender
  let node := ds.nodeByAddress nodeAddress
  checkNodeStatusTransionAllowed node.status status
  .ok (ds.setNode nodeAddress { node with status := status },
    [.nodeStatusUpdated node.nodeAddress status])

def updateNodeUrl (url : String) : RegistryAnswer := do
  ds.onlyOperator msgSender
  ds.registry.onlyNode nodeAddress
  ds.onlyNodeOperator nodeAddress msgSender
  let node := ds.nodeByAddress nodeAddress
  if node.url = url then
    .error .badArg
  else
    .ok (ds.setNode nodeAddress { node with url := url }, [.nodeUrlUpdated node.nodeAddress url])

/-! ## OperatorRegistry and OwnableFacet -/

def approveOperator (msgSender operator : Address) : RegistryAnswer := do
  ds.onlyOwner msgSender
  if operator = 0 then
    .error .badArg
  else if operator ∈ ds.operators then
    .error .alreadyExists
  else
    .ok ({ ds with operators := ds.operators.add operator }, [.operatorAdded operator])

def removeOperator (msgSender operator : Address) : RegistryAnswer := do
  ds.onlyOwner msgSender
  if operator ∉ ds.operators then
    .error .operatorNotFound
  else if ∃ node ∈ ds.nodes.values, (ds.nodeByAddress node).operator = operator then
    .error .outOfBounds
  else
    .ok ({ ds with operators := ds.operators.remove operator }, [.operatorRemoved operator])

def transferOwnership (msgSender newOwner : Address) : RegistryAnswer := do
  ds.onlyOwner msgSender
  if newOwner = 0 then
    .error .ownableZeroAddress
  else
    .ok ({ ds with owner := newOwner }, [.ownershipTransferred ds.owner newOwner])

end AppStorage

/-! ## The machine -/

inductive RiverRegistryCall where
  | allocateStream (streamId : Bytes32) (nodes : List Address) (genesisMiniblockHash : Bytes32)
      (genesisMiniblock : List UInt8)
  | setStreamLastMiniblock (miniblock : SetMiniblock)
  | setStreamLastMiniblockBatch (miniblocks : List SetMiniblock)
  | placeStreamOnNode (streamId : Bytes32) (nodeAddress : Address)
  | removeStreamFromNode (streamId : Bytes32) (nodeAddress : Address)
  | registerNode (nodeAddress : Address) (url : String) (status : NodeStatus)
  | removeNode (nodeAddress : Address)
  | updateNodeStatus (nodeAddress : Address) (status : NodeStatus)
  | updateNodeUrl (nodeAddress : Address) (url : String)
  | approveOperator (operator : Address)
  | removeOperator (operator : Address)
  | transferOwnership (newOwner : Address)

structure RiverRegistryMessage where
  msgSender : Address
  call : RiverRegistryCall

def AppStorage.answer (ds : AppStorage) (msg : RiverRegistryMessage) : RegistryAnswer :=
  match msg.call with
  | .allocateStream streamId nodes hash bytes =>
    ds.allocateStream msg.msgSender streamId nodes hash bytes
  | .setStreamLastMiniblock miniblock => ds.setStreamLastMiniblock msg.msgSender miniblock
  | .setStreamLastMiniblockBatch miniblocks =>
    ds.setStreamLastMiniblockBatch msg.msgSender miniblocks
  | .placeStreamOnNode streamId nodeAddress => ds.placeStreamOnNode streamId nodeAddress
  | .removeStreamFromNode streamId nodeAddress => ds.removeStreamFromNode streamId nodeAddress
  | .registerNode nodeAddress url status => ds.registerNode msg.msgSender nodeAddress url status
  | .removeNode nodeAddress => ds.removeNode msg.msgSender nodeAddress
  | .updateNodeStatus nodeAddress status => ds.updateNodeStatus msg.msgSender nodeAddress status
  | .updateNodeUrl nodeAddress url => ds.updateNodeUrl msg.msgSender nodeAddress url
  | .approveOperator operator => ds.approveOperator msg.msgSender operator
  | .removeOperator operator => ds.removeOperator msg.msgSender operator
  | .transferOwnership newOwner => ds.transferOwnership msg.msgSender newOwner

/-- The registry of the River chain. -/
def riverRegistry :
    Machine AppStorage RiverRegistryMessage (Except RegistryError (List RegistryEvent)) where
  step ds msg :=
    match ds.answer msg with
    | .ok (ds', events) => (ds', .ok events)
    | .error e => (ds, .error e)

/-! ## What an accepted message changes -/

namespace AppStorage

inductive Accepted (ds : AppStorage) (msgSender : Address) : RiverRegistryCall →
    AppStorage → Prop where
  | allocateStream {streamId : Bytes32} {nodes : List Address} {hash : Bytes32} {bytes : List UInt8}
      (fresh : streamId ∉ ds.streams) (placed : ∀ node ∈ nodes, node ∈ ds.nodes) :
      Accepted ds msgSender (.allocateStream streamId nodes hash bytes)
        { ds with
          streams := ds.streams.add streamId
          streamById := update ds.streamById streamId ⟨hash, 0, 0, nodes⟩
          genesisMiniblockByStreamId := update ds.genesisMiniblockByStreamId streamId bytes
          genesisMiniblockHashByStreamId :=
            update ds.genesisMiniblockHashByStreamId streamId hash }
  | setStreamLastMiniblock {miniblock : SetMiniblock} (mem : miniblock.streamId ∈ ds.streams) :
      Accepted ds msgSender (.setStreamLastMiniblock miniblock) (ds.updateLastMiniblock miniblock)
  | setStreamLastMiniblockBatch {miniblocks : List SetMiniblock} :
      Accepted ds msgSender (.setStreamLastMiniblockBatch miniblocks)
        (ds.updateLastMiniblocks miniblocks).1
  | placeStreamOnNode {streamId : Bytes32} {nodeAddress : Address} (stream : streamId ∈ ds.streams)
      (registered : (ds.nodeByAddress nodeAddress).nodeAddress ≠ 0)
      (not_mem : nodeAddress ∉ (ds.streamById streamId).nodes) :
      Accepted ds msgSender (.placeStreamOnNode streamId nodeAddress)
        { ds with streamById := (ds.registry.setNodes streamId
          ((ds.streamById streamId).nodes ++ [nodeAddress])).streamById }
  | removeStreamFromNode {streamId : Bytes32} {nodeAddress : Address}
    (stream : streamId ∈ ds.streams)
      (mem : nodeAddress ∈ (ds.streamById streamId).nodes) :
      Accepted ds msgSender (.removeStreamFromNode streamId nodeAddress)
        { ds with streamById := (ds.registry.setNodes streamId
          (swapRemoveAt (ds.streamById streamId).nodes
            ((ds.streamById streamId).nodes.idxOf nodeAddress))).streamById }
  | registerNode {nodeAddress : Address} {url : String} {status : NodeStatus}
      (fresh : (ds.nodeByAddress nodeAddress).nodeAddress = 0) :
      Accepted ds msgSender (.registerNode nodeAddress url status)
        ({ ds with nodes := ds.nodes.add nodeAddress }.setNode nodeAddress
          ⟨status, url, nodeAddress, msgSender⟩)
  | removeNode {nodeAddress : Address} :
      Accepted ds msgSender (.removeNode nodeAddress)
        ({ ds with nodes := ds.nodes.remove nodeAddress }.setNode nodeAddress .zero)
  | updateNodeStatus {nodeAddress : Address} {status : NodeStatus} :
      Accepted ds msgSender (.updateNodeStatus nodeAddress status)
        (ds.setNode nodeAddress { ds.nodeByAddress nodeAddress with status := status })
  | updateNodeUrl {nodeAddress : Address} {url : String} :
      Accepted ds msgSender (.updateNodeUrl nodeAddress url)
        (ds.setNode nodeAddress { ds.nodeByAddress nodeAddress with url := url })
  | approveOperator {operator : Address} :
      Accepted ds msgSender (.approveOperator operator)
        { ds with operators := ds.operators.add operator }
  | removeOperator {operator : Address} :
      Accepted ds msgSender (.removeOperator operator)
        { ds with operators := ds.operators.remove operator }
  | transferOwnership {newOwner : Address} :
      Accepted ds msgSender (.transferOwnership newOwner) { ds with owner := newOwner }

section Calls

variable {ds ds' : AppStorage} {msgSender : Address} {events : List RegistryEvent}

theorem onlyNode_ok {node : Address} :
    ds.registry.onlyNode node = .ok () ↔ (ds.nodeByAddress node).nodeAddress ≠ 0 := by
  show (if (ds.nodeByAddress node).nodeAddress = 0 then _ else _) = _ ↔ _
  split <;> simp [*]

variable {sid : Bytes32}

theorem onlyStream_ok : ds.registry.onlyStream sid = .ok () ↔ sid ∈ ds.streams := by
  show (if sid ∈ ds.streams then _ else _) = _ ↔ _
  split <;> simp [*]

theorem answer_ok {call : RiverRegistryCall} (h : ds.answer ⟨msgSender, call⟩ = .ok (ds', events)) :
    ds.Accepted msgSender call ds' := by
  cases call with
  | allocateStream sid nodes hash bytes =>
    obtain ⟨r, hr, h⟩ := bind_ok.1 h
    obtain ⟨-, hr⟩ := guard_ok.1 hr
    obtain ⟨hfresh, hr⟩ := ite_error_ok.1 hr
    split at hr
    · rename_i hplaced
      cases hr
      cases h
      exact .allocateStream hfresh hplaced
    · cases hr
  | setStreamLastMiniblock miniblock =>
    obtain ⟨-, h⟩ := guard_ok.1 ((ds.setStreamLastMiniblock_eq msgSender miniblock).symm.trans h)
    obtain ⟨hmem, h⟩ := guard_ok.1 h
    cases h
    exact .setStreamLastMiniblock (onlyStream_ok.1 hmem)
  | setStreamLastMiniblockBatch miniblocks =>
    obtain ⟨-, h⟩ := guard_ok.1 h
    have hds : (ds.updateLastMiniblocks miniblocks).1 = ds' := by
      rw [Except.ok.inj h]
    exact hds ▸ .setStreamLastMiniblockBatch
  | placeStreamOnNode sid nodeAddress =>
    obtain ⟨⟨r, event⟩, hr, h⟩ := bind_ok.1 h
    obtain ⟨hnot, hres⟩ := Registry.placeStreamOnNode_eq_ok hr
    obtain ⟨hstream, hr⟩ := guard_ok.1 hr
    obtain ⟨hnode, -⟩ := guard_ok.1 hr
    cases hres
    cases h
    exact .placeStreamOnNode (onlyStream_ok.1 hstream) (onlyNode_ok.1 hnode) hnot
  | removeStreamFromNode sid nodeAddress =>
    obtain ⟨⟨r, event⟩, hr, h⟩ := bind_ok.1 h
    obtain ⟨hmem, hres⟩ := Registry.removeStreamFromNode_eq_ok hr
    obtain ⟨hstream, -⟩ := guard_ok.1 hr
    cases hres
    cases h
    exact .removeStreamFromNode (onlyStream_ok.1 hstream) hmem
  | registerNode nodeAddress url status =>
    obtain ⟨-, h⟩ := guard_ok.1 h
    obtain ⟨hfresh, h⟩ := ite_error_ok.1 h
    cases h
    exact .registerNode (not_not.1 hfresh)
  | removeNode nodeAddress =>
    obtain ⟨-, h⟩ := guard_ok.1 h
    iterate 2 obtain ⟨-, h⟩ := ite_error_ok.1 h
    cases h
    exact .removeNode
  | updateNodeStatus nodeAddress status =>
    iterate 4 obtain ⟨-, h⟩ := guard_ok.1 h
    cases h
    exact .updateNodeStatus
  | updateNodeUrl nodeAddress url =>
    iterate 3 obtain ⟨-, h⟩ := guard_ok.1 h
    obtain ⟨-, h⟩ := ite_error_ok.1 h
    cases h
    exact .updateNodeUrl
  | approveOperator operator =>
    obtain ⟨-, h⟩ := guard_ok.1 h
    iterate 2 obtain ⟨-, h⟩ := ite_error_ok.1 h
    cases h
    exact .approveOperator
  | removeOperator operator =>
    obtain ⟨-, h⟩ := guard_ok.1 h
    iterate 2 obtain ⟨-, h⟩ := ite_error_ok.1 h
    cases h
    exact .removeOperator
  | transferOwnership newOwner =>
    obtain ⟨-, h⟩ := guard_ok.1 h
    obtain ⟨-, h⟩ := ite_error_ok.1 h
    cases h
    exact .transferOwnership

end Calls

def Accepts (ds : AppStorage) (msg : RiverRegistryMessage) : Prop := (ds.answer msg).isOk = true

instance (ds : AppStorage) (msg : RiverRegistryMessage) : Decidable (ds.Accepts msg) :=
  inferInstanceAs (Decidable (_ = true))

theorem next_cases (ds : AppStorage) (msg : RiverRegistryMessage) :
    (¬ds.Accepts msg ∧ riverRegistry.next ds msg = ds) ∨
      (ds.Accepts msg ∧ ds.Accepted msg.msgSender msg.call (riverRegistry.next ds msg)) := by
  unfold Accepts Machine.next riverRegistry
  simp only
  cases h : ds.answer msg with
  | error e => exact .inl ⟨by simp [Except.toBool], rfl⟩
  | ok res =>
    exact .inr ⟨rfl, answer_ok h⟩

end AppStorage

end River.Contracts
