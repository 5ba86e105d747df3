/-
  Requests that go through several streams (core/node/rpc/add_event.go).

  `CanAddEvent` and `IsEntitled` depend on the view that is read at the beginning, so these three
  are one step. A write to storage that fails makes the call fail.
-/

import River.Node.Rules.UserMembership

namespace River.Node

open River.Lib Rules

/-! ## Calls -/

inductive CallStatus where
  /-- The event needs a parent event: `addEventPayload` asks for the last miniblock hash. -/
  | getLastMiniblockHash
  /-- `addEventPayload` has the hash and sends the parent event. -/
  | addEventPayload (hash : Bytes)
  /-- The parent event was sent; this call waits for the call that adds it. -/
  | awaiting (call : Nat)
  /-- `stream.AddEvent` is next. -/
  | adding
  /-- The call returned without an error; the event was added, or is a no-op. -/
  | succeeded
  /-- The call returned an error. -/
  | failed
  deriving DecidableEq

structure Call where
  streamId : StreamId
  event : ParsedEvent
  requiredParentEvent : Option RequiredParentEvent
  status : CallStatus

def Call.Open (c : Call) : Prop := c.status ≠ .succeeded ∧ c.status ≠ .failed

instance (c : Call) : Decidable c.Open := inferInstanceAs (Decidable (_ ∧ _))

/-- Streams, and the calls between them. -/
structure Network where
  streams : StreamId → Option History
  calls : List Call
  rejected : Nat

structure CallAnswers where
  currentTime : Int
  validNodeAddresses : List Bytes
  entitled : Bool

inductive NetworkAction where
  /-- A request of a client. -/
  | addEvent (streamId : StreamId) (envelope : Envelope) (answers : CallAnswers)
  /-- `addEventPayload`: `GetLastMiniblockHash` of the parent event's stream. -/
  | getLastMiniblockHash (call : Nat)
  /-- `addEventPayload`: `MakeEnvelopeWithPayload` and `AddEvent`. -/
  | addEventPayload (call : Nat) (salt : Bytes) (epochMillis : Int) (answers : CallAnswers)
  /-- The nested call has returned. -/
  | await (call : Nat)
  /-- `stream.AddEvent`. -/
  | streamAddEvent (call : Nat)
  | makeMiniblock (streamId : StreamId) (count : Nat) (shouldSnapshot : Bool) (now : Timestamp)
      (salt : Bytes) (epochMillis : Int)

namespace Network

variable (C : Crypto) (cfg : StreamConfig) (n : Network)

def setStream (streamId : StreamId) (s : History) : Network :=
  { n with streams := Function.update n.streams streamId (some s) }

def setStatus (i : Nat) (status : CallStatus) : Network :=
  { n with calls := n.calls.modify i fun c => { c with status := status } }

def localAddEvent (streamId : StreamId) (envelope : Envelope) (a : CallAnswers) :
    Network × Option Call :=
  match n.streams streamId with
  | none => ({ n with rejected := n.rejected + 1 }, none)
  | some s =>
    match parseEvent C envelope s.nextRef with
    | .ok event =>
      let (answer, heap) :=
        canAddEvent ⟨cfg, a.validNodeAddresses, a.currentTime, s.view, event⟩ s.heap
      let n := n.setStream streamId ⟨s.view, heap, s.nextRef + 1⟩
      let call : Option Call :=
        match answer with
        | .ok none => some ⟨streamId, event, none, .succeeded⟩
        | .ok (some (chainAuthArgs, requiredParentEvent)) =>
          if chainAuthArgs.isSome = true ∧ a.entitled = false then none
          else some ⟨streamId, event, requiredParentEvent,
            if requiredParentEvent.isSome then .getLastMiniblockHash else .adding⟩
        | _ => none
      match call with
      | some c => ({ n with calls := n.calls ++ [c] }, some c)
      | none => ({ n with rejected := n.rejected + 1 }, none)
    | _ => ({ n with rejected := n.rejected + 1 }, none)

def getLastMiniblockHash (i : Nat) : Network :=
  match n.calls[i]? with
  | some ⟨_, _, some parent, .getLastMiniblockHash⟩ =>
    match n.streams parent.streamId with
    | some s => n.setStatus i (.addEventPayload s.view.lastBlock.hash)
    | none => n.setStatus i .failed
  | _ => n

def addEventPayload (i : Nat) (salt : Bytes) (epochMillis : Int) (a : CallAnswers) :
    Network × Option Call :=
  match n.calls[i]? with
  | some ⟨_, _, some parent, .addEventPayload hash⟩ =>
    let streamEvent := makeStreamEvent C parent.payload (some hash) salt epochMillis
    match n.localAddEvent C cfg parent.streamId
      (makeEnvelopeWithEvent C Heap.empty streamEvent) a with
    | (n', some call) => (n'.setStatus i (.awaiting n.calls.length), some call)
    | (n', none) => (n'.setStatus i .failed, none)
  | _ => (n, none)

def await (i : Nat) : Network :=
  match n.calls[i]? with
  | some ⟨_, _, _, .awaiting j⟩ =>
    match n.calls[j]? with
    | some ⟨_, _, _, .succeeded⟩ => n.setStatus i .adding
    | some ⟨_, _, _, .failed⟩ => n.setStatus i .failed
    | _ => n
  | _ => n

def streamAddEvent (i : Nat) : Network :=
  match n.calls[i]? with
  | some ⟨streamId, event, _, .adding⟩ =>
    match n.streams streamId with
    | some s =>
      match s.view.copyAndAddEvent event with
      | .ok view => (n.setStream streamId { s with view := view }).setStatus i .succeeded
      | _ => n.setStatus i .failed
    | none => n.setStatus i .failed
  | _ => n

def makeMiniblock (streamId : StreamId) (count : Nat) (shouldSnapshot : Bool) (now : Timestamp)
    (salt : Bytes) (epochMillis : Int) : Network :=
  match n.streams streamId with
  | some s => n.setStream streamId (s.makeMiniblock C cfg count shouldSnapshot now salt epochMillis)
  | none => n

end Network

/-- Streams and the calls between them. -/
def networkMachine (C : Crypto) (cfg : StreamConfig) :
    Machine Network NetworkAction (Option Call) where
  step n
    | .addEvent streamId envelope answers => n.localAddEvent C cfg streamId envelope answers
    | .getLastMiniblockHash i => (n.getLastMiniblockHash i, none)
    | .addEventPayload i salt epochMillis answers =>
      n.addEventPayload C cfg i salt epochMillis answers
    | .await i => (n.await i, none)
    | .streamAddEvent i => (n.streamAddEvent i, none)
    | .makeMiniblock streamId count shouldSnapshot now salt epochMillis =>
      (n.makeMiniblock C cfg streamId count shouldSnapshot now salt epochMillis, none)

/-! ## What a step can do -/

def Network.Failed (n : Network) : Prop := 0 < n.rejected ∨ ∃ c ∈ n.calls, c.status = .failed

structure Begins (C : Crypto) (cfg : StreamConfig) (n : Network) (streamId : StreamId)
    (envelope : Envelope) (c : Call) (s : History) (heap : Heap) : Prop where
  stream : n.streams streamId = some s
  streamId_eq : c.streamId = streamId
  parsed : parseEvent C envelope s.nextRef = .ok c.event
  answer : ∃ validNodeAddresses currentTime,
    (c.status = .succeeded ∧
      canAddEvent ⟨cfg, validNodeAddresses, currentTime, s.view, c.event⟩ s.heap =
        (.ok none, heap)) ∨
    ∃ chainAuthArgs,
      c.status = (if c.requiredParentEvent.isSome then .getLastMiniblockHash else .adding) ∧
      canAddEvent ⟨cfg, validNodeAddresses, currentTime, s.view, c.event⟩ s.heap =
        (.ok (some (chainAuthArgs, c.requiredParentEvent)), heap)

namespace Network

def begin (n : Network) (s : History) (heap : Heap) (c : Call) : Network :=
  { n.setStream c.streamId ⟨s.view, heap, s.nextRef + 1⟩ with calls := n.calls ++ [c] }

variable {C : Crypto} {cfg : StreamConfig} {n : Network}

theorem localAddEvent_cases (streamId : StreamId) (envelope : Envelope) (a : CallAnswers) :
    ((n.localAddEvent C cfg streamId envelope a).2 = none ∧
      0 < (n.localAddEvent C cfg streamId envelope a).1.rejected ∧
      (n.localAddEvent C cfg streamId envelope a).1.calls = n.calls) ∨
    ∃ c s heap, Begins C cfg n streamId envelope c s heap ∧
      n.localAddEvent C cfg streamId envelope a = (n.begin s heap c, some c) := by
  unfold localAddEvent
  cases hs : n.streams streamId with
  | none => exact .inl ⟨rfl, Nat.succ_pos _, rfl⟩
  | some s =>
    simp only
    cases hparse : parseEvent C envelope s.nextRef with
    | ok event =>
      simp only
      generalize hanswer : canAddEvent ⟨cfg, a.validNodeAddresses, a.currentTime, s.view, event⟩
        s.heap = r
      obtain ⟨answer, heap⟩ := r
      cases answer with
      | ok reqs =>
        cases reqs with
        | none =>
          right
          exact ⟨⟨streamId, event, none, .succeeded⟩, s, heap,
            ⟨hs, rfl, hparse, _, _, .inl ⟨rfl, hanswer⟩⟩, rfl⟩
        | some reqs =>
          obtain ⟨chainAuthArgs, requiredParentEvent⟩ := reqs
          by_cases hentitled : chainAuthArgs.isSome = true ∧ a.entitled = false
          · left
            simp only [if_pos hentitled, true_and]
            exact ⟨Nat.succ_pos _, rfl⟩
          · simp only [if_neg hentitled]
            right
            exact ⟨⟨streamId, event, requiredParentEvent,
              if requiredParentEvent.isSome then .getLastMiniblockHash else .adding⟩, s, heap,
              ⟨hs, rfl, hparse, _, _, .inr ⟨chainAuthArgs, rfl, hanswer⟩⟩, rfl⟩
      | _ => exact .inl ⟨rfl, Nat.succ_pos _, rfl⟩
    | _ => exact .inl ⟨rfl, Nat.succ_pos _, rfl⟩

end Network

inductive NetworkStep (C : Crypto) (cfg : StreamConfig) (n : Network) :
    NetworkAction → Network → Option Call → Prop where
  /-- A call returns an error. -/
  | failed {a : NetworkAction} {n' : Network} {c : Option Call} (failed : n'.Failed) :
      NetworkStep C cfg n a n' c
  | idle {a : NetworkAction} : NetworkStep C cfg n a n none
  /-- A request of a client begins a call. -/
  | addEvent {streamId : StreamId} {envelope : Envelope} {a : CallAnswers} {c : Call} {s : History}
      {heap : Heap} (begins : Begins C cfg n streamId envelope c s heap) :
      NetworkStep C cfg n (.addEvent streamId envelope a) (n.begin s heap c) (some c)
  | getLastMiniblockHash {i : Nat} {c : Call} {hash : Bytes} (call : n.calls[i]? = some c)
      (status : c.status = .getLastMiniblockHash) :
      NetworkStep C cfg n (.getLastMiniblockHash i) (n.setStatus i (.addEventPayload hash)) none
  /-- The parent event of a call begins a call. -/
  | addEventPayload {i : Nat} {salt : Bytes} {epochMillis : Int} {a : CallAnswers} {c c' : Call}
      {parent : RequiredParentEvent} {hash : Bytes} {s : History} {heap : Heap}
      (call : n.calls[i]? = some c) (status : c.status = .addEventPayload hash)
      (requires : c.requiredParentEvent = some parent)
      (begins : Begins C cfg n parent.streamId (makeEnvelopeWithEvent C Heap.empty
        (makeStreamEvent C parent.payload (some hash) salt epochMillis)) c' s heap) :
      NetworkStep C cfg n (.addEventPayload i salt epochMillis a)
        ((n.begin s heap c').setStatus i (.awaiting n.calls.length)) (some c')
  | await {i j : Nat} {c c' : Call} (call : n.calls[i]? = some c) (status : c.status = .awaiting j)
      (nested : n.calls[j]? = some c') (returned : c'.status = .succeeded) :
      NetworkStep C cfg n (.await i) (n.setStatus i .adding) none
  | streamAddEvent {i : Nat} {c : Call} {s : History} {view : StreamView}
      (call : n.calls[i]? = some c) (status : c.status = .adding)
      (stream : n.streams c.streamId = some s) (add : s.view.copyAndAddEvent c.event = .ok view) :
      NetworkStep C cfg n (.streamAddEvent i)
        ((n.setStream c.streamId { s with view := view }).setStatus i .succeeded) none
  | makeMiniblock {streamId : StreamId} {s s' : History} {count : Nat} {shouldSnapshot : Bool}
      {now : Timestamp} {salt : Bytes} {epochMillis : Int} (stream : n.streams streamId = some s)
      (step : s.Decoded C → HistoryStep C cfg s s' none) :
      NetworkStep C cfg n (.makeMiniblock streamId count shouldSnapshot now salt epochMillis)
        (n.setStream streamId s') none

namespace Network

variable {C : Crypto} {cfg : StreamConfig} {n : Network}

theorem calls_setStatus (n : Network) (i k : Nat) (status : CallStatus) :
    (n.setStatus i status).calls[k]? =
      if i = k then n.calls[k]?.map (fun c => { c with status := status }) else n.calls[k]? := by
  simp only [setStatus, List.getElem?_modify]
  split <;> simp

theorem failed_setStatus {i : Nat} {c : Call} (h : n.calls[i]? = some c) :
    (n.setStatus i .failed).Failed := by
  right
  refine ⟨{ c with status := .failed }, List.mem_iff_getElem?.2 ⟨i, ?_⟩, rfl⟩
  rw [calls_setStatus, if_pos rfl, h]
  rfl

theorem getLastMiniblockHash_step (i : Nat) :
    NetworkStep C cfg n (.getLastMiniblockHash i) (n.getLastMiniblockHash i) none := by
  unfold getLastMiniblockHash
  split
  · rename_i parent hcall
    split
    · exact .getLastMiniblockHash hcall rfl
    · exact .failed (failed_setStatus hcall)
  · exact .idle

theorem addEventPayload_step (i : Nat) (salt : Bytes) (epochMillis : Int) (a : CallAnswers) :
    NetworkStep C cfg n (.addEventPayload i salt epochMillis a)
      (n.addEventPayload C cfg i salt epochMillis a).1
      (n.addEventPayload C cfg i salt epochMillis a).2 := by
  unfold addEventPayload
  split
  swap
  · exact .idle
  rename_i streamId event parent hash hcall
  simp only
  rcases localAddEvent_cases parent.streamId (makeEnvelopeWithEvent C .empty
    (makeStreamEvent C parent.payload (some hash) salt epochMillis)) a with
    ⟨hnone, -, hcalls⟩ | ⟨c', s, heap, hbegins, heq⟩
  · generalize n.localAddEvent C cfg parent.streamId _ a = r at hnone hcalls
    obtain ⟨_, _⟩ := r
    subst hnone
    rw [← hcalls] at hcall
    exact .failed (failed_setStatus hcall)
  · rw [heq]
    exact .addEventPayload hcall rfl rfl hbegins

theorem await_step (i : Nat) : NetworkStep C cfg n (.await i) (n.await i) none := by
  unfold await
  split
  swap
  · exact .idle
  rename_i hcall
  split
  · rename_i hnested
    exact .await hcall rfl hnested rfl
  · exact .failed (failed_setStatus hcall)
  · exact .idle

theorem streamAddEvent_step (i : Nat) :
    NetworkStep C cfg n (.streamAddEvent i) (n.streamAddEvent i) none := by
  unfold streamAddEvent
  split
  swap
  · exact .idle
  rename_i hcall
  split
  · rename_i s hs
    split
    · rename_i view hadd
      exact .streamAddEvent hcall rfl hs hadd
    · exact .failed (failed_setStatus hcall)
  · exact .failed (failed_setStatus hcall)

theorem step (a : NetworkAction) :
    NetworkStep C cfg n a ((networkMachine C cfg).next n a) ((networkMachine C cfg).out n a) := by
  cases a with
  | addEvent streamId envelope answers =>
    simp only [Machine.next, Machine.out, networkMachine]
    rcases localAddEvent_cases streamId envelope answers with
      ⟨-, hrejected, -⟩ | ⟨c, s, heap, hbegins, heq⟩
    · exact .failed (.inl hrejected)
    · rw [heq]
      exact .addEvent hbegins
  | getLastMiniblockHash i => exact getLastMiniblockHash_step i
  | addEventPayload i salt epochMillis answers =>
    exact addEventPayload_step i salt epochMillis answers
  | await i => exact await_step i
  | streamAddEvent i => exact streamAddEvent_step i
  | makeMiniblock streamId count shouldSnapshot now salt epochMillis =>
    simp only [Machine.next, networkMachine, Network.makeMiniblock]
    split
    · rename_i s hs
      exact .makeMiniblock hs fun h => History.makeMiniblock_step h _ _ _ _ _
    · exact .idle

end Network

end River.Node
