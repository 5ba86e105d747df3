/-
  What a node knows about the placement of a stream (core/node/nodes/stream_nodes.go).

  A random order is an argument here, any rearrangement of the list.
-/

import River.Contracts.Space
import River.Node.Base

namespace River.Node

open River.Contracts (Address)

structure Shuffle where
  run : List Address → List Address
  perm : ∀ l, (run l).Perm l

structure StreamNodes where
  nodes : List Address
  localNode : Address
  isLocal : Bool
  remotes : List Address
  stickyPeerIndex : Nat

namespace StreamNodes

def resetNoLock (s : StreamNodes) (shuffle : Shuffle) (nodes : List Address) : StreamNodes :=
  let lastStickyAddr := (s.remotes[s.stickyPeerIndex]?).getD 0
  let isLocal := decide (s.localNode ∈ nodes)
  let remotes := shuffle.run (if isLocal then nodes.eraseIdx (nodes.idxOf s.localNode) else nodes)
  { s with
    nodes := nodes
    isLocal := isLocal
    remotes := remotes
    stickyPeerIndex :=
      if lastStickyAddr = 0 then 0
      else if lastStickyAddr ∈ remotes then remotes.idxOf lastStickyAddr else 0 }

end StreamNodes

def newStreamNodes (shuffle : Shuffle) (nodes : List Address) (localNode : Address) : StreamNodes :=
  StreamNodes.resetNoLock ⟨[], localNode, false, [], 0⟩ shuffle nodes

namespace StreamNodes

def localIsLeader (s : StreamNodes) : Bool := s.nodes.head? == some s.localNode

def getStickyPeer (s : StreamNodes) : Res Address :=
  if 0 < s.remotes.length then
    match s.remotes[s.stickyPeerIndex]? with
    | some peer => .ok peer
    | none => .panic "index out of range"
  else .ok 0

def advanceStickyPeer (s : StreamNodes) (shuffle : Shuffle) (currentPeer : Address) :
    Res (StreamNodes × Address) :=
  if s.remotes.length = 0 then .ok (s, 0)
  else do
    let peer ← s.getStickyPeer
    if peer ≠ currentPeer then .ok (s, peer)
    else
      let s :=
        -- after the last one the round begins again, in another order
        if s.remotes.length ≤ s.stickyPeerIndex + 1 then
          { s with remotes := shuffle.run s.remotes, stickyPeerIndex := 0 }
        else { s with stickyPeerIndex := s.stickyPeerIndex + 1 }
      let peer ← s.getStickyPeer
      .ok (s, peer)

def update (s : StreamNodes) (shuffle : Shuffle) (n : Address) (isAdded : Bool) : Res StreamNodes :=
  if isAdded then
    if n ∈ s.nodes then
      riverError .internal "StreamNodes.Update(add): node already exists in stream nodes"
    else .ok (s.resetNoLock shuffle (s.nodes ++ [n]))
  else
    if n ∈ s.nodes then .ok (s.resetNoLock shuffle (s.nodes.eraseIdx (s.nodes.idxOf n)))
    else riverError .internal "StreamNodes.Update(delete): node does not exist in stream nodes"

variable (s : StreamNodes) (shuffle : Shuffle) (nodes : List Address)

@[simp] theorem nodes_resetNoLock : (s.resetNoLock shuffle nodes).nodes = nodes := rfl

@[simp] theorem nodes_newStreamNodes (localNode : Address) :
    (newStreamNodes shuffle nodes localNode).nodes = nodes := rfl

@[simp] theorem localNode_newStreamNodes (localNode : Address) :
    (newStreamNodes shuffle nodes localNode).localNode = localNode := rfl

end StreamNodes

end River.Node
