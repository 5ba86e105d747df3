/-
  The remote streams of a sync operation (core/node/rpc/sync_streams.go and sync_subscription.go).

  A node is its address. The cookies of the request come one by one, and its failure ends the
  operation. Whether there is a client for a node and what its answer is are parts of the action.
-/

import River.Lib.Machine
import River.Node.Shared

namespace River.Node

open River.Lib StreamId List

structure RemoteSync where
  remoteStreams : List (StreamId × Bytes)
  remoteNodes : Finset Bytes
  deriving DecidableEq

inductive RemoteSyncAction where
  | syncStreams (cookie : SyncCookie) (stub : Except RiverError Unit)
  | addStreamToSync (cookie : SyncCookie) (stub : Except RiverError Unit)
  /-- `answer` is what the remote node says to the removal. -/
  | removeStreamFromSync (streamId : Bytes) (answer : Except RiverError Unit)

namespace RemoteSync

variable (s : RemoteSync)

def addRemoteNode (address : Bytes) : RemoteSync :=
  { s with remoteNodes := insert address s.remoteNodes }

def removeRemoteStream (id : StreamId) : RemoteSync :=
  { s with remoteStreams := s.remoteStreams.filter (·.1 ≠ id) }

def setRemoteStream (id : StreamId) (address : Bytes) : RemoteSync :=
  { s with remoteStreams := (id, address) :: (s.removeRemoteStream id).remoteStreams }

def addRemoteStream (cookie : SyncCookie) : RemoteSync × Res Unit :=
  if bytesToAddress cookie.nodeAddress ∈ s.remoteNodes then
    match fromBytes cookie.streamId with
    | .ok id => (s.setRemoteStream id (bytesToAddress cookie.nodeAddress), .ok ())
    | .error e => (s, .error e)
    | .panic m => (s, .panic m)
  else (s, .ok ())

def addStreamToSync (cookie : SyncCookie) (stub : Except RiverError Unit) : RemoteSync × Res Unit :=
  if bytesToAddress cookie.nodeAddress ∈ s.remoteNodes then s.addRemoteStream cookie
  else
    match stub with
    | .error e => (s, .error e)
    | .ok () => (s.addRemoteNode (bytesToAddress cookie.nodeAddress)).addRemoteStream cookie

def deleteRemoteNodes : RemoteSync := ⟨[], ∅⟩

def purgeUnusedRemoteNodes : RemoteSync :=
  if s.remoteStreams.length > 0 then
    { s with remoteNodes := s.remoteNodes.filter fun n => ∃ r ∈ s.remoteStreams, r.2 = n }
  else s

def step : RemoteSyncAction → RemoteSync × Res Unit
  | .syncStreams cookie stub =>
    match s.addStreamToSync cookie stub with
    | (s, .ok ()) => (s, .ok ())
    | (_, result) => (deleteRemoteNodes, result)
  | .addStreamToSync cookie stub => s.addStreamToSync cookie stub
  | .removeStreamFromSync streamId answer =>
    match fromBytes streamId with
    | .error e => (s, .error e)
    | .panic m => (s, .panic m)
    | .ok id =>
      if ∃ r ∈ s.remoteStreams, r.1 = id then
        match answer with
        | .error e => (s.removeRemoteStream id, .error e)
        | .ok () => ((s.removeRemoteStream id).purgeUnusedRemoteNodes, .ok ())
      else (s, .ok ())

end RemoteSync

/-- The remote streams of a sync operation. -/
def remoteSyncMachine : Machine RemoteSync RemoteSyncAction (Res Unit) := ⟨RemoteSync.step⟩

/-! ## Nodes without streams -/

namespace RemoteSync

/-- Every remote node has a stream. -/
def Used (s : RemoteSync) : Prop := ∀ n ∈ s.remoteNodes, ∃ r ∈ s.remoteStreams, r.2 = n

/-- The stream of a cookie has an id and is not at another node. -/
def Places (s : RemoteSync) (cookie : SyncCookie) : Prop :=
  (fromBytes cookie.streamId).isOk = true ∧ ∀ r ∈ s.remoteStreams,
    r.1.bytes = cookie.streamId → r.2 = bytesToAddress cookie.nodeAddress

/-- Streams stay on their nodes, and the last is not removed. -/
def Orderly (s : RemoteSync) : RemoteSyncAction → Prop
  | .syncStreams cookie _ => s.Places cookie
  | .addStreamToSync cookie _ => s.Places cookie
  | .removeStreamFromSync streamId answer =>
    (∃ r ∈ s.remoteStreams, r.1.bytes = streamId) →
      answer = .ok () ∧ ∃ r ∈ s.remoteStreams, r.1.bytes ≠ streamId

instance (s : RemoteSync) (cookie : SyncCookie) : Decidable (s.Places cookie) :=
  inferInstanceAs (Decidable (_ ∧ _))

instance (s : RemoteSync) (a : RemoteSyncAction) : Decidable (s.Orderly a) := by
  cases a <;> unfold Orderly <;> infer_instance

variable {s : RemoteSync} {cookie : SyncCookie}

theorem addRemoteStream_used (h : ∀ n ∈ s.remoteNodes, n ≠ bytesToAddress cookie.nodeAddress →
      ∃ r ∈ s.remoteStreams, r.2 = n) (hplaces : s.Places cookie)
    (hmem : bytesToAddress cookie.nodeAddress ∈ s.remoteNodes) :
    (s.addRemoteStream cookie).1.Used := by
  obtain ⟨hok, hnode⟩ := hplaces
  obtain ⟨id, hid⟩ := Res.isOk_iff.1 hok
  rw [addRemoteStream, if_pos hmem, hid]
  intro n hn
  by_cases heq : n = bytesToAddress cookie.nodeAddress
  · exact ⟨_, mem_cons_self, heq.symm⟩
  -- a stream of another node stays where it is
  obtain ⟨r, hr, hrn⟩ := h n hn heq
  have hne : r.1 ≠ id := by
    rintro rfl
    exact heq (hrn.symm.trans (hnode r hr (fromBytes_eq_ok.1 hid)))
  exact ⟨r, mem_cons_of_mem _ (mem_filter.2 ⟨hr, by simpa using hne⟩), hrn⟩

theorem Used.addStreamToSync (h : s.Used) (hplaces : s.Places cookie)
    (stub : Except RiverError Unit) : (s.addStreamToSync cookie stub).1.Used := by
  unfold RemoteSync.addStreamToSync
  split
  next hmem => exact addRemoteStream_used (fun n hn _ => h n hn) hplaces hmem
  next =>
    split
    · exact h
    · refine addRemoteStream_used (fun n hn hne => h n ?_) hplaces (Finset.mem_insert_self _ _)
      exact (Finset.mem_insert.1 hn).resolve_left hne

theorem Used.step (h : s.Used) (ha : s.Orderly a) : (remoteSyncMachine.next s a).Used := by
  show (s.step a).1.Used
  cases a with
  | syncStreams cookie stub =>
    have hadded := h.addStreamToSync ha stub
    simp only [RemoteSync.step]
    split
    next heq =>
      rw [heq] at hadded
      exact hadded
    next => exact fun _ hn => absurd hn (Finset.notMem_empty _)
  | addStreamToSync cookie stub => exact h.addStreamToSync ha stub
  | removeStreamFromSync streamId answer =>
    simp only [RemoteSync.step]
    split
    · exact h
    · exact h
    next id hid =>
      rw [← fromBytes_eq_ok.1 hid] at ha
      split
      next hremote =>
        obtain ⟨r, hr, rfl⟩ := hremote
        obtain ⟨rfl, _, hr', hne⟩ := ha ⟨r, hr, rfl⟩
        have hleft : 0 < (s.removeRemoteStream r.1).remoteStreams.length :=
          length_pos_of_mem (mem_filter.2 ⟨hr', by simpa using fun h => hne (congrArg _ h)⟩)
        intro n hn
        simp only [purgeUnusedRemoteNodes, if_pos hleft] at hn ⊢
        exact (Finset.mem_filter.1 hn).2
      next => exact h

end RemoteSync

open RemoteSync in
/-- **Remote nodes.** After every run every node that a sync operation keeps has a remote stream, as
    long as the streams that are added have ids and are not at other nodes, and a removal is
    answered and leaves some remote stream. -/
theorem remoteNodes_used (acts : List RemoteSyncAction)
    (h : remoteSyncMachine.Along Orderly ⟨[], ∅⟩ acts) :
    (remoteSyncMachine.exec ⟨[], ∅⟩ acts).Used :=
  Machine.exec_invariant_along (fun _ _ hs ha => hs.step ha)
    (fun _ hn => absurd hn (Finset.notMem_empty _)) h

/-! ## Sample operation -/

def sampleRemoteCookie (n : Fin 256) : SyncCookie :=
  ⟨replicate 20 9, StreamType.space.bin :: n :: replicate 30 0, 0, 0, []⟩

def sampleRemovals (n : Fin 256) : List RemoteSyncAction :=
  [.addStreamToSync (sampleRemoteCookie 1) (.ok ()),
    .addStreamToSync (sampleRemoteCookie 2) (.ok ()),
    .removeStreamFromSync (sampleRemoteCookie 1).streamId (.ok ()),
    .removeStreamFromSync (sampleRemoteCookie n).streamId (.ok ())]

theorem remoteNodes_used_sample : (remoteSyncMachine.exec ⟨[], ∅⟩ (sampleRemovals 1)).Used :=
  remoteNodes_used _ (by decide +kernel)

/-- The last remote stream is removed: its node stays. -/
theorem remoteNodes_last_stream :
    remoteSyncMachine.exec ⟨[], ∅⟩ (sampleRemovals 2) = ⟨[], {replicate 20 9}⟩ := by
  decide +kernel

end River.Node
