/-
  Parsed events, their envelopes, and the memory they share (core/node/events/parsed_event.go and
  events.go).

  `Crypto` has the two documented facts the proofs need. `ref` is the identity of an event object
  and `Heap` holds the fields that were written.
-/

import River.Node.Shared

namespace River.Node

open Function StreamEvent

structure Crypto where
  riverHash : EventBytes → Bytes
  riverHash_length : ∀ b, (riverHash b).length = 32
  recoverSignerPublicKey : Bytes → Bytes → Res Bytes
  publicKeyToAddress : Bytes → Bytes
  checkDelegateSig : Bytes → Bytes → Bytes → Int → Res Unit
  walletAddress : Bytes
  signHash : Bytes → Bytes
  signHash_recovers : ∀ h, ∃ pk, recoverSignerPublicKey h (signHash h) = .ok pk ∧
    publicKeyToAddress pk = walletAddress

/-! ## Memory -/

abbrev Heap := Nat → Option (Bool × List Bytes)

def Heap.empty : Heap := fun _ => none

def Heap.read (heap : Heap) (ref : Nat) (ks : KeySolicitation) : KeySolicitation :=
  match heap ref with
  | none => ks
  | some (isNewDevice, sessionIds) =>
    { ks with isNewDevice := isNewDevice, sessionIds := sessionIds }

@[simp] theorem Heap.read_deviceKey (heap : Heap) (ref : Nat) (ks : KeySolicitation) :
    (heap.read ref ks).deviceKey = ks.deviceKey := by
  unfold Heap.read
  split <;> rfl

namespace SolicitationPtr

def read (heap : Heap) : SolicitationPtr → KeySolicitation
  | .own ks => ks
  | .event ref ks => heap.read ref ks

def write (heap : Heap) (isNewDevice : Bool) (sessionIds : List Bytes) :
    SolicitationPtr → Heap × SolicitationPtr
  | .own ks => (heap, .own { ks with isNewDevice := isNewDevice, sessionIds := sessionIds })
  | .event ref ks => (update heap ref (some (isNewDevice, sessionIds)), .event ref ks)

def deviceKey : SolicitationPtr → Bytes
  | .own ks => ks.deviceKey
  | .event _ ks => ks.deviceKey

@[simp] theorem read_deviceKey (heap : Heap) (p : SolicitationPtr) :
    (p.read heap).deviceKey = p.deviceKey := by
  cases p with
  | own ks => rfl
  | event ref ks => exact heap.read_deviceKey ref ks

end SolicitationPtr

variable (heap : Heap)

def MemberSnapshot.clone (m : MemberSnapshot) : MemberSnapshot :=
  { m with solicitations := m.solicitations.map fun p => .own (p.read heap) }

def Snapshot.clone (heap : Heap) (s : Snapshot) : Snapshot :=
  { s with members := s.members.map fun ms => ms.map (·.clone heap) }

@[simp] theorem MemberSnapshot.clone_userAddress (m : MemberSnapshot) :
    (m.clone heap).userAddress = m.userAddress := rfl

@[simp] theorem Snapshot.clone_getInceptionPayload (s : Snapshot) :
    (s.clone heap).getInceptionPayload = s.getInceptionPayload := rfl

theorem MemberSnapshot.clone_clone (heap heap' : Heap) (m : MemberSnapshot) :
    (m.clone heap).clone heap' = m.clone heap := by
  simp [MemberSnapshot.clone, SolicitationPtr.read]

theorem Snapshot.clone_clone (heap heap' : Heap) (s : Snapshot) :
    (s.clone heap).clone heap' = s.clone heap := by
  simp [Snapshot.clone, MemberSnapshot.clone_clone, comp_def]

/-! ## Encoding -/

def StreamEvent.resolve (e : StreamEvent) : StreamEvent :=
  match e.payload with
  | .miniblockHeader h =>
    { e with payload := .miniblockHeader { h with snapshot := h.snapshot.map (·.clone heap) } }
  | _ => e

theorem StreamEvent.resolve_resolve (heap heap' : Heap) (e : StreamEvent) :
    (e.resolve heap).resolve heap' = e.resolve heap := by
  unfold resolve
  cases hp : e.payload with
  | miniblockHeader h => simp [Snapshot.clone_clone, comp_def]
  | _ => simp [hp]

def EventBytes.unmarshal : EventBytes → Option StreamEvent
  | .encoded e _ => some (e.resolve Heap.empty)
  | .malformed _ => none

@[simp] theorem EventBytes.unmarshal_marshal (e : StreamEvent) :
    (EventBytes.marshal e).unmarshal = some (e.resolve .empty) := rfl

theorem EventBytes.resolve_of_unmarshal {b : EventBytes} (h : b.unmarshal = some e)
    (heap : Heap) : e.resolve heap = e := by
  cases b with
  | encoded e' variant =>
    cases h
    exact e'.resolve_resolve .empty heap
  | malformed bytes => simp [EventBytes.unmarshal] at h

def Crypto.salted : Crypto where
  riverHash b :=
    let salt := (b.unmarshal.map (·.salt)).getD []
    salt.take 32 ++ List.replicate (32 - salt.length) 0
  riverHash_length b := by
    simp only [List.length_append, List.length_take, List.length_replicate]
    omega
  recoverSignerPublicKey _ _ := .ok []
  publicKeyToAddress _ := List.replicate 20 1
  checkDelegateSig _ _ _ _ := .ok ()
  walletAddress := List.replicate 20 1
  signHash _ := []
  signHash_recovers _ := ⟨[], rfl, rfl⟩

/-! ## Parsing -/

structure ParsedEvent where
  event : StreamEvent
  envelope : Envelope
  ref : Nat
  deriving DecidableEq

def ParsedEvent.hash (e : ParsedEvent) : Bytes := e.envelope.hash

def authenticate (C : Crypto) (envelope : Envelope) : Res StreamEvent :=
  let hash := C.riverHash envelope.event
  if hash ≠ envelope.hash then riverError .badEventHash "Bad hash provided"
  else do
    let signerPubKey ← C.recoverSignerPublicKey hash envelope.signature
    match envelope.event.unmarshal with
    | none => riverError .invalidArgument "Failed to decode stream event from bytes"
    | some streamEvent =>
      if streamEvent.delegateSig.length > 0 then do
        C.checkDelegateSig streamEvent.creatorAddress signerPubKey streamEvent.delegateSig
          streamEvent.delegateExpiryEpochMs
        .ok streamEvent
      else if C.publicKeyToAddress signerPubKey ≠ streamEvent.creatorAddress then
        riverError .badEventSignature "Bad signature provided"
      else .ok streamEvent

def parseEvent (C : Crypto) (envelope : Envelope) (ref : Nat) : Res ParsedEvent := do
  let event ← authenticate C envelope
  .ok ⟨event, envelope, ref⟩

def parseEvents (C : Crypto) : List Envelope → Nat → Res (List ParsedEvent)
  | [], _ => .ok []
  | envelope :: envelopes, ref => do
    let e ← parseEvent C envelope ref
    let es ← parseEvents C envelopes (ref + 1)
    .ok (e :: es)

theorem authenticate_eq_ok (h : authenticate C envelope = .ok event) :
    envelope.hash = C.riverHash envelope.event ∧ envelope.event.unmarshal = some event := by
  by_cases hhash : C.riverHash envelope.event = envelope.hash
  swap
  · simp [authenticate, hhash, riverError] at h
  simp only [authenticate, hhash, ne_eq] at h
  obtain ⟨_, -, h⟩ := Res.bind_eq_ok.1 h
  cases hun : envelope.event.unmarshal with
  | none => simp [hun, riverError] at h
  | some ev =>
    refine ⟨hhash.symm, ?_⟩
    simp only [hun] at h
    split at h
    · obtain ⟨-, -, h⟩ := Res.bind_eq_ok.1 h
      cases h
      rfl
    · split at h
      · simp [riverError] at h
      · cases h
        rfl

theorem parseEvent_eq_ok :
    parseEvent C envelope ref = .ok e ↔
      authenticate C envelope = .ok e.event ∧ e.envelope = envelope ∧ e.ref = ref := by
  unfold parseEvent
  constructor
  · intro h
    obtain ⟨_, hev, h⟩ := Res.bind_eq_ok.1 h
    cases h
    exact ⟨hev, rfl, rfl⟩
  · rintro ⟨hev, rfl, rfl⟩
    rw [hev]
    rfl

/-! ## Events the node makes -/

def makeStreamEvent (C : Crypto) (payload : Payload) (prevMiniblockHash : Option Bytes)
    (salt : Bytes) (epochMillis : Int) : StreamEvent where
  creatorAddress := C.walletAddress
  delegateSig := []
  salt := salt
  prevMiniblockHash := prevMiniblockHash
  createdAtEpochMs := epochMillis
  delegateExpiryEpochMs := 0
  payload := payload

def makeEnvelopeWithEvent (C : Crypto) (heap : Heap) (streamEvent : StreamEvent) : Envelope :=
  let eventBytes := EventBytes.marshal (streamEvent.resolve heap)
  let hash := C.riverHash eventBytes
  ⟨hash, C.signHash hash, eventBytes⟩

def makeParsedEventWithPayload (C : Crypto) (heap : Heap) (payload : Payload)
    (prevMiniblockHash : Option Bytes) (salt : Bytes) (epochMillis : Int) (ref : Nat) :
    ParsedEvent :=
  let streamEvent := makeStreamEvent C payload prevMiniblockHash salt epochMillis
  ⟨streamEvent, makeEnvelopeWithEvent C heap streamEvent, ref⟩

theorem authenticate_makeEnvelopeWithEvent (C : Crypto) (heap : Heap) (payload : Payload)
    (prev : Option Bytes) (salt : Bytes) (epochMillis : Int) :
    let e := makeStreamEvent C payload prev salt epochMillis
    authenticate C (makeEnvelopeWithEvent C heap e) = .ok (e.resolve heap) := by
  intro e
  obtain ⟨_, hpk, haddr⟩ :=
    C.signHash_recovers (C.riverHash (.marshal (e.resolve heap)))
  have hdelegate : (e.resolve heap).delegateSig = [] := by
    unfold resolve
    split <;> rfl
  have hcreator : (e.resolve heap).creatorAddress = C.walletAddress := by
    unfold resolve
    split <;> rfl
  simp [authenticate, makeEnvelopeWithEvent, hpk, hdelegate, hcreator, haddr, resolve_resolve]

end River.Node
