/-
  The channels of a sync operation (core/node/rpc/sync_subscription.go).

  A call is cut into the steps that other goroutines can come between. Which case of its `select`
  the dispatcher takes and whether a send to the client succeeds are part of the action.
-/

import River.Lib.Machine
import River.Node.Protocol

namespace River.Node

open River.Lib Function List Machine

/-! ## The subscription -/

inductive SyncError where
  | bufferFull (streamId : Bytes)
  | reported (err : RiverError)
  | contextDone
  | sendFailed
  deriving DecidableEq

abbrev SyncData := Option StreamAndCookie

inductive SyncControl where
  | close
  | pong (nonce : Bytes)
  deriving DecidableEq

inductive SyncCall where
  | update (data : SyncData)
  | control (op : SyncControl)
  | setError (err : SyncError)
  | cancel
  deriving DecidableEq

inductive DispatchState where
  | select
  | setError (err : SyncError)
  | cancel (returns : Bool)
  | returned
  deriving DecidableEq

structure SyncSubscription (π : Type) where
  cancelled : Bool
  firstError : Option SyncError
  dataChannel : List SyncData
  controlChannel : List SyncControl
  calls : π → Option SyncCall
  dispatch : DispatchState
  crashed : Bool

def dataChannelCapacity : Nat := 256

def controlChannelCapacity : Nat := 64

def newSyncSubscription (π : Type) : SyncSubscription π where
  cancelled := false
  firstError := none
  dataChannel := []
  controlChannel := []
  calls := fun _ => none
  dispatch := .select
  crashed := false

inductive DispatchCase where
  | done | data | control

inductive SyncAction (π : Type) where
  | onUpdate (p : π) (data : SyncData)
  | onSyncError (p : π) (err : RiverError)
  | onClose (p : π)
  | pingSync (p : π) (nonce : Bytes)
  | advance (p : π)
  | requestCancelled
  | dispatch (ready : DispatchCase) (sendFails : Bool)

inductive SyncEvent where
  | passed (data : SyncData)
  | sentUpdate (data : SyncData)
  | sentClose
  | sentPong (nonce : Bytes)

namespace SyncSubscription

variable {π : Type} [DecidableEq π] (s : SyncSubscription π)

def setFirstError (err : SyncError) : SyncSubscription π :=
  { s with firstError := s.firstError.or (some err) }

def setCall (p : π) (call : Option SyncCall) : SyncSubscription π :=
  { s with calls := update s.calls p call }

def begin (p : π) (call : SyncCall) : SyncSubscription π :=
  if s.cancelled then s else s.setCall p (some call)

def advance (p : π) : SyncSubscription π :=
  match s.calls p with
  | none => s
  | some (.update data) =>
    if s.dataChannel.length < dataChannelCapacity then
      { s.setCall p none with dataChannel := s.dataChannel ++ [data] }
    else
      match data with
      | none => { s with crashed := true }
      | some r => s.setCall p (some (.setError (.bufferFull r.nextSyncCookie.streamId)))
  | some (.control op) =>
    if s.controlChannel.length < controlChannelCapacity then
      { s.setCall p none with controlChannel := s.controlChannel ++ [op] }
    else s.setCall p none
  | some (.setError err) => (s.setFirstError err).setCall p (some .cancel)
  | some .cancel => { s.setCall p none with cancelled := true }

def dispatchStep (ready : DispatchCase) (sendFails : Bool) : SyncSubscription π × List SyncEvent :=
  match s.dispatch with
  | .select =>
    match ready with
    | .done => (if s.cancelled then { s with dispatch := .setError .contextDone } else s, [])
    | .data =>
      match s.dataChannel with
      | [] => (s, [])
      | data :: rest =>
        if sendFails then ({ s with dataChannel := rest, dispatch := .setError .sendFailed }, [])
        else ({ s with dataChannel := rest }, [.sentUpdate data])
    | .control =>
      match s.controlChannel with
      | [] => (s, [])
      | .close :: rest =>
        ({ s with controlChannel := rest, dispatch := .cancel false },
          if sendFails then [] else [.sentClose])
      | .pong nonce :: rest =>
        if sendFails then ({ s with controlChannel := rest, dispatch := .cancel false }, [])
        else ({ s with controlChannel := rest }, [.sentPong nonce])
  | .setError err => ({ s.setFirstError err with dispatch := .cancel true }, [])
  | .cancel returns =>
    ({ s with cancelled := true, dispatch := if returns then .returned else .select }, [])
  | .returned => (s, [])

end SyncSubscription

/-- The channel from streams to a client. -/
def syncMachine (π : Type) [DecidableEq π] :
    Machine (SyncSubscription π) (SyncAction π) (List SyncEvent) where
  step s a :=
    if s.crashed then (s, [])
    else
      match a with
      | .onUpdate p data =>
        if s.calls p = none then (s.begin p (.update data), [.passed data]) else (s, [])
      | .onSyncError p err =>
        (if s.calls p = none then s.begin p (.setError (.reported err)) else s, [])
      | .onClose p => (if s.calls p = none then s.begin p (.control .close) else s, [])
      | .pingSync p nonce =>
        (if s.calls p = none then s.begin p (.control (.pong nonce)) else s, [])
      | .advance p => (s.advance p, [])
      | .requestCancelled => ({ s with cancelled := true }, [])
      | .dispatch ready sendFails => s.dispatchStep ready sendFails

/-! ## The updates of one stream -/

variable (sid : Bytes)

def SyncData.updateOf : SyncData → List StreamAndCookie
  | none => []
  | some r => if r.nextSyncCookie.streamId = sid then [r] else []

open SyncData

def passedOf (events : List SyncEvent) : List StreamAndCookie :=
  events.flatMap fun
    | .passed data => updateOf sid data
    | _ => []

def sentOf (events : List SyncEvent) : List StreamAndCookie :=
  events.flatMap fun
    | .sentUpdate data => updateOf sid data
    | _ => []

@[simp] theorem passedOf_append (l l' : List SyncEvent) :
    passedOf sid (l ++ l') = passedOf sid l ++ passedOf sid l' :=
  flatMap_append

@[simp] theorem sentOf_append (l l' : List SyncEvent) :
    sentOf sid (l ++ l') = sentOf sid l ++ sentOf sid l' :=
  flatMap_append

theorem updateOf_cases (data : SyncData) :
    updateOf sid data = [] ∨ ∃ r, updateOf sid data = [r] := by
  cases data with
  | none => exact .inl rfl
  | some r =>
    by_cases h : r.nextSyncCookie.streamId = sid
    · exact .inr ⟨r, if_pos h⟩
    · exact .inl (if_neg h)

namespace SyncSubscription

variable {π : Type}

def pending (sid : Bytes) (p : π) (s : SyncSubscription π) : List StreamAndCookie :=
  match s.calls p with
  | some (.update data) => updateOf sid data
  | _ => []

def Active (s : SyncSubscription π) : Prop := s.dispatch = .select ∨ s.dispatch = .cancel false

instance (s : SyncSubscription π) : Decidable s.Active :=
  inferInstanceAs (Decidable (_ ∨ _))

def inFlight (sid : Bytes) (s : SyncSubscription π) : List StreamAndCookie :=
  if s.Active then s.dataChannel.flatMap (updateOf sid) else []

structure Silenced (sid : Bytes) (p : π) (s : SyncSubscription π) : Prop where
  pending_eq : s.pending sid p = []
  cancels : s.cancelled = true ∨ (∃ err, s.calls p = some (.setError err)) ∨
    s.calls p = some .cancel

def OnlyProducer (sid : Bytes) (p : π) (s : SyncSubscription π) : Prop :=
  ∀ q, q ≠ p → s.pending sid q = []

inductive Transfer (sid : Bytes) (p : π) (s s' : SyncSubscription π) :
    (passed sent : List StreamAndCookie) → Prop where
  /-- Nothing, or an update is sent, or the loop ends. -/
  | quiet {sent : List StreamAndCookie}
      (pending_eq : s'.pending sid p = s.pending sid p)
      (flow : sent ++ s'.inFlight sid <+: s.inFlight sid)
      (active : s'.Active → s.Active ∧ sent ++ s'.inFlight sid = s.inFlight sid)
      (silenced : s.Silenced sid p → s'.Silenced sid p) : Transfer sid p s s' [] sent
  /-- A call of `OnUpdate` finds the context not done. -/
  | passed (r : StreamAndCookie) (idle : s.pending sid p = [])
      (pending_eq : s'.pending sid p = [r]) (loud : ¬ s.Silenced sid p)
      (flow : s'.inFlight sid = s.inFlight sid) (active : s'.Active → s.Active) :
      Transfer sid p s s' [r] []
  /-- A call of `OnUpdate` finds the context done. -/
  | ignored (r : StreamAndCookie) (silenced : s.Silenced sid p) (same : s' = s) :
      Transfer sid p s s' [r] []
  | queued (r : StreamAndCookie) (pending_eq : s.pending sid p = [r])
      (idle : s'.pending sid p = [])
      (flow : s'.inFlight sid <+: s.inFlight sid ++ [r])
      (active : s'.Active → s.Active ∧ s'.inFlight sid = s.inFlight sid ++ [r]) :
      Transfer sid p s s' [] []
  /-- The channel is full. -/
  | dropped (r : StreamAndCookie) (pending_eq : s.pending sid p = [r])
      (silenced : s'.Silenced sid p)
      (flow : s'.inFlight sid = s.inFlight sid) : Transfer sid p s s' [] []

/-! ## What a step can do -/

variable {sid : Bytes} {p : π} {s s' : SyncSubscription π}

theorem Transfer.of_pending_eq (hpending : s'.pending sid p = s.pending sid p)
    (hdata : s'.dataChannel = s.dataChannel) (hactive : s'.Active → s.Active)
    (hsilenced : s.Silenced sid p → s'.Silenced sid p) :
    Transfer sid p s s' [] [] := by
  have hflow (h : s'.Active) : s'.inFlight sid = s.inFlight sid := by
    rw [inFlight, inFlight, if_pos h, if_pos (hactive h), hdata]
  refine .quiet hpending ?_ (fun h => ⟨hactive h, hflow h⟩) hsilenced
  by_cases h : s'.Active
  · exact hflow h ▸ prefix_rfl
  · rw [inFlight, if_neg h]
    exact nil_prefix

theorem Silenced.of_calls_eq (h : s.Silenced sid p) (hcalls : s'.calls p = s.calls p)
    (hcancelled : s.cancelled = true → s'.cancelled = true) : s'.Silenced sid p := by
  refine ⟨?_, ?_⟩
  · rw [pending, hcalls]
    exact h.pending_eq
  · rw [hcalls]
    exact h.cancels.imp_left hcancelled

theorem Transfer.of_calls_eq (hcalls : s'.calls p = s.calls p)
    (hdata : s'.dataChannel = s.dataChannel) (hactive : s'.Active → s.Active)
    (hcancelled : s.cancelled = true → s'.cancelled = true) : Transfer sid p s s' [] [] := by
  refine .of_pending_eq ?_ hdata hactive fun h => h.of_calls_eq hcalls hcancelled
  rw [pending, pending, hcalls]

theorem pending_eq_nil (h : ∀ data, s.calls p ≠ some (.update data)) : s.pending sid p = [] := by
  rw [pending]
  split
  next data hcall => exact absurd hcall (h data)
  next => rfl

theorem pending_of_idle (h : s.calls p = none) : s.pending sid p = [] := by
  rw [pending, h]

theorem silenced_iff_of_idle (h : s.calls p = none) : s.Silenced sid p ↔ s.cancelled = true := by
  constructor
  · rintro ⟨-, hcancelled | ⟨_, herr⟩ | hcancel⟩
    · exact hcancelled
    · rw [h] at herr
      cases herr
    · rw [h] at hcancel
      cases hcancel
  · exact fun hcancelled => ⟨pending_of_idle h, .inl hcancelled⟩

theorem dispatchStep_frame (sid : Bytes) (ready : DispatchCase) (sendFails : Bool) :
    (s.dispatchStep ready sendFails).1.calls = s.calls ∧
      passedOf sid (s.dispatchStep ready sendFails).2 = [] := by
  unfold dispatchStep
  repeat' split
  all_goals exact ⟨rfl, rfl⟩

theorem transfer_dispatchStep (ready : DispatchCase) (sendFails : Bool) :
    Transfer sid p s (s.dispatchStep ready sendFails).1 []
      (sentOf sid (s.dispatchStep ready sendFails).2) := by
  unfold dispatchStep
  split
  next hselect =>
    have hactive : s.Active := .inl hselect
    split
    next =>
      split
      · exact .of_calls_eq rfl rfl (fun _ => hactive) id
      · exact .of_calls_eq rfl rfl id id
    next =>
      split
      next => exact .of_calls_eq rfl rfl id id
      next data rest hdata =>
        have hinFlight : s.inFlight sid = updateOf sid data ++ rest.flatMap (updateOf sid) := by
          rw [inFlight, if_pos hactive, hdata, flatMap_cons]
        split
        · -- the update is lost, and the loop sends no other
          refine .quiet rfl ?_ ?_ fun h => h.of_calls_eq rfl id
          · exact nil_prefix
          · rintro (h | h) <;> cases h
        · have hrest : ({ s with dataChannel := rest } : SyncSubscription π).inFlight sid
              = rest.flatMap (updateOf sid) := if_pos hactive
          have hsent : sentOf sid [.sentUpdate data] = updateOf sid data :=
            append_nil _
          have hflow : sentOf sid [.sentUpdate data] ++
              ({ s with dataChannel := rest } : SyncSubscription π).inFlight sid
                = s.inFlight sid := by rw [hsent, hrest, hinFlight]
          exact .quiet rfl (hflow ▸ prefix_rfl) (fun h => ⟨h, hflow⟩) fun h => h.of_calls_eq rfl id
    next =>
      split
      next => exact .of_calls_eq rfl rfl id id
      next =>
        cases sendFails <;> exact .of_calls_eq rfl rfl (fun _ => hactive) id
      next =>
        split
        · exact .of_calls_eq rfl rfl (fun _ => hactive) id
        · exact .of_calls_eq rfl rfl id id
  next => exact .of_calls_eq rfl rfl (fun h => by rcases h with h | h <;> cases h) id
  next returns hcancel =>
    refine .of_calls_eq rfl rfl (fun h => ?_) fun _ => rfl
    cases returns with
    | true => rcases h with h | h <;> cases h
    | false => exact .inr hcancel
  next => exact .of_calls_eq rfl rfl id id

variable [DecidableEq π]

@[simp] theorem calls_setCall_self (call : Option SyncCall) : (s.setCall p call).calls p = call :=
  update_self ..

variable {q : π}

theorem calls_setCall_of_ne (h : p ≠ q) (call : Option SyncCall) :
    (s.setCall q call).calls p = s.calls p :=
  update_of_ne h ..

theorem transfer_begin (hidle : s.calls q = none)
    (hother : q = p → (s.setCall q (some call)).pending sid q = []) :
    Transfer sid p s (s.begin q call) [] [] := by
  rw [begin]
  by_cases hcancelled : s.cancelled = true
  · rw [if_pos hcancelled]
    exact .of_calls_eq rfl rfl id id
  rw [if_neg hcancelled]
  by_cases hq : q = p
  · subst hq
    refine .of_pending_eq ((hother rfl).trans (pending_of_idle hidle).symm) rfl id fun h => ?_
    exact absurd ((silenced_iff_of_idle hidle).1 h) hcancelled
  · exact .of_calls_eq (calls_setCall_of_ne (.symm hq) _) rfl id id

variable {r : StreamAndCookie}

theorem transfer_onUpdate (hidle : s.calls p = none) (hdata : updateOf sid data = [r]) :
    Transfer sid p s (s.begin p (.update data)) [r] [] := by
  rw [begin]
  by_cases hcancelled : s.cancelled = true
  · rw [if_pos hcancelled]
    exact .ignored r ((silenced_iff_of_idle hidle).2 hcancelled) rfl
  rw [if_neg hcancelled]
  refine .passed r (pending_of_idle hidle) ?_ ?_ rfl id
  · rw [pending, calls_setCall_self]
    exact hdata
  · rw [silenced_iff_of_idle hidle]
    exact hcancelled

theorem transfer_write (hcall : s.calls q = some (.update data)) (honly : s.OnlyProducer sid p)
    (hcalls : s'.calls = update s.calls q none) (hdata : s'.dataChannel = s.dataChannel ++ [data])
    (hactive : s'.Active ↔ s.Active)
    (hcancelled : s.cancelled = true → s'.cancelled = true) : Transfer sid p s s' [] [] := by
  have hpending : s.pending sid q = updateOf sid data := by
    rw [pending, hcall]
  have hidle : s'.calls q = none := by rw [hcalls, update_self]
  have hflow : s'.inFlight sid = s.inFlight sid ++ if s.Active then updateOf sid data else [] := by
    by_cases h : s.Active
    · simp only [inFlight, hactive, if_pos h, hdata, flatMap_append, flatMap_cons,
        flatMap_nil, append_nil]
    · simp only [inFlight, hactive, if_neg h, append_nil]
  obtain hnone | ⟨r, hr⟩ := updateOf_cases sid data
  · -- an update of another stream, by whatever goroutine
    rw [hnone, ite_self, append_nil] at hflow
    have hprefix : s'.inFlight sid <+: s.inFlight sid := hflow ▸ prefix_rfl
    by_cases hq : q = p
    · subst hq
      refine .quiet ?_ hprefix (fun h => ⟨hactive.1 h, hflow⟩) ?_
      · rw [hpending, hnone, pending_of_idle hidle]
      · rintro ⟨-, hcancels⟩
        simp only [hcall, reduceCtorEq, Option.some.injEq, exists_false, or_false] at hcancels
        exact (silenced_iff_of_idle hidle).2 (hcancelled hcancels)
    · have hsame : s'.calls p = s.calls p := by rw [hcalls, update_of_ne (.symm hq)]
      refine .quiet ?_ hprefix (fun h => ⟨hactive.1 h, hflow⟩) fun h =>
        h.of_calls_eq hsame hcancelled
      rw [pending, pending, hsame]
  · have hq : q = p := by
      by_contra hne
      have := honly q hne
      rw [hpending, hr] at this
      cases this
    subst hq
    rw [hr] at hflow hpending
    refine .queued r hpending (pending_of_idle hidle) ?_ fun h => ⟨hactive.1 h, ?_⟩
    · rw [hflow]
      split
      · exact prefix_rfl
      · rw [append_nil]
        exact prefix_append _ _
    · rw [hflow, if_pos (hactive.1 h)]

theorem transfer_call (hcalls : s'.calls = update s.calls q call)
    (hdata : s'.dataChannel = s.dataChannel) (hactive : s'.Active → s.Active)
    (hcancelled : s.cancelled = true → s'.cancelled = true)
    (hown : q = p → s.pending sid p = [] ∧ s'.pending sid p = [] ∧
      (s.Silenced sid p → s'.Silenced sid p)) : Transfer sid p s s' [] [] := by
  by_cases hq : q = p
  · obtain ⟨hpending, hpending', hsilenced⟩ := hown hq
    exact .of_pending_eq (hpending'.trans hpending.symm) hdata hactive hsilenced
  · refine .of_calls_eq ?_ hdata hactive hcancelled
    rw [hcalls, update_of_ne (.symm hq)]

theorem transfer_full (hcall : s.calls q = some (.update (some r))) :
    Transfer sid p s
      (s.setCall q (some (.setError (.bufferFull r.nextSyncCookie.streamId)))) [] [] := by
  by_cases hq : q = p
  · subst hq
    have hpending : s.pending sid q = updateOf sid (some r) := by
      rw [pending, hcall]
    have hpending' :
        (s.setCall q (some (.setError (.bufferFull r.nextSyncCookie.streamId)))).pending
        sid q = [] := by
      rw [pending, calls_setCall_self]
    have hsilenced : (s.setCall q (some (.setError (.bufferFull
        r.nextSyncCookie.streamId)))).Silenced sid q :=
      ⟨hpending', .inr (.inl ⟨_, calls_setCall_self _⟩)⟩
    obtain hnone | ⟨r', hr'⟩ := updateOf_cases sid (some r)
    · exact .of_pending_eq (hpending'.trans (hpending.trans hnone).symm) rfl id fun _ => hsilenced
    · exact .dropped r' (hpending.trans hr') hsilenced rfl
  · exact .of_calls_eq (calls_setCall_of_ne (.symm hq) _) rfl id id

theorem transfer_advance (q : π) (honly : s.OnlyProducer sid p) :
    Transfer sid p s (s.advance q) [] [] := by
  unfold advance
  split
  next => exact .of_calls_eq rfl rfl id id
  next data hcall =>
    split
    · exact transfer_write hcall honly rfl rfl .rfl id
    · split
      · exact .of_calls_eq rfl rfl id id
      · exact transfer_full hcall
  next op hcall =>
    -- a write to the control channel, or none: both end the call
    have hown : ∀ s' : SyncSubscription π, s'.calls = update s.calls q none →
        s'.cancelled = s.cancelled → q = p → s.pending sid p = [] ∧
          s'.pending sid p = [] ∧ (s.Silenced sid p → s'.Silenced sid p) := by
      rintro s' hcalls hcancelled rfl
      have hidle : s'.calls q = none := by rw [hcalls, update_self]
      refine ⟨by rw [pending, hcall], pending_of_idle hidle, ?_⟩
      rintro ⟨-, h⟩
      simp only [hcall, reduceCtorEq, Option.some.injEq, exists_false, or_false] at h
      exact (silenced_iff_of_idle hidle).2 (hcancelled.trans h)
    split <;> exact transfer_call rfl rfl id id (hown _ rfl rfl)
  next err hcall =>
    refine transfer_call rfl rfl id id ?_
    rintro rfl
    have hcall' : ((s.setFirstError err).setCall q (some .cancel)).calls q = some .cancel :=
      calls_setCall_self _
    have hpending' : ((s.setFirstError err).setCall q (some .cancel)).pending sid q = [] := by
      rw [pending, hcall']
    exact ⟨by rw [pending, hcall], hpending', fun _ => ⟨hpending', .inr (.inr hcall')⟩⟩
  next hcall =>
    refine transfer_call rfl rfl id (fun _ => rfl) ?_
    rintro rfl
    have hidle : (s.setCall q none).calls q = none := calls_setCall_self _
    exact ⟨by rw [pending, hcall], pending_of_idle hidle,
      fun _ => ⟨pending_of_idle hidle, .inl rfl⟩⟩

theorem transfer_other (q : π) {call : SyncCall} (hcall : ∀ data, call ≠ .update data) :
    Transfer sid p s (if s.calls q = none then s.begin q call else s) [] [] := by
  by_cases hidle : s.calls q = none
  · rw [if_pos hidle]
    exact transfer_begin hidle fun _ => pending_eq_nil (by simpa using hcall)
  · rw [if_neg hidle]
    exact .of_calls_eq rfl rfl id id

/-- Only task `p` passes updates of the stream. -/
def PassedBy (sid : Bytes) (p : π) : SyncAction π → Prop
  | .onUpdate q data => updateOf sid data ≠ [] → q = p
  | _ => True

theorem transfer_next (ha : PassedBy sid p a) (honly : s.OnlyProducer sid p) :
    Transfer sid p s ((syncMachine π).next s a)
      (passedOf sid ((syncMachine π).out s a)) (sentOf sid ((syncMachine π).out s a)) := by
  unfold Machine.next out syncMachine
  by_cases hcrashed : s.crashed = true
  · simp only [if_pos hcrashed]
    exact .of_calls_eq rfl rfl id id
  simp only [if_neg hcrashed]
  cases a with
  | onUpdate q data =>
    by_cases hidle : s.calls q = none
    · simp only [if_pos hidle]
      have hpassed : passedOf sid [.passed data] = updateOf sid data :=
        append_nil _
      rw [hpassed]
      obtain hnone | ⟨r, hr⟩ := updateOf_cases sid data
      · rw [hnone]
        refine transfer_begin hidle fun _ => ?_
        rw [pending, calls_setCall_self]
        exact hnone
      · have hq : q = p := ha (by rw [hr]; exact cons_ne_nil _ _)
        subst hq
        rw [hr]
        exact transfer_onUpdate hidle hr
    · simp only [if_neg hidle]
      exact .of_calls_eq rfl rfl id id
  | onSyncError q err | onClose q | pingSync q nonce => exact transfer_other q (by simp)
  | advance q => exact transfer_advance q honly
  | requestCancelled => exact .of_calls_eq rfl rfl id fun _ => rfl
  | dispatch ready sendFails =>
    simp only [(dispatchStep_frame sid ready sendFails).2]
    exact transfer_dispatchStep ready sendFails

/-! ## One producer -/

omit [DecidableEq π] in
theorem OnlyProducer.of_calls_eq (h : s.OnlyProducer sid p) (hcalls : s'.calls = s.calls) :
    s'.OnlyProducer sid p := by
  intro q hq
  rw [pending, hcalls]
  exact h q hq

theorem OnlyProducer.of_setCall (h : s.OnlyProducer sid p)
    (hcalls : s'.calls = update s.calls q call)
    (hcall : q ≠ p → s'.pending sid q = []) : s'.OnlyProducer sid p := by
  intro q' hq'
  by_cases hq : q' = q
  · subst hq
    exact hcall hq'
  · have hsame : s'.calls q' = s.calls q' := by rw [hcalls, update_of_ne hq]
    rw [pending, hsame]
    exact h q' hq'

theorem OnlyProducer.begin (h : s.OnlyProducer sid p)
    (hcall : q ≠ p → (s.setCall q (some call)).pending sid q = []) :
    (s.begin q call).OnlyProducer sid p := by
  rw [SyncSubscription.begin]
  split
  · exact h
  · exact h.of_setCall rfl hcall

theorem OnlyProducer.advance (h : s.OnlyProducer sid p) (q : π) :
    (s.advance q).OnlyProducer sid p := by
  -- what follows a step of a call is never an update
  have hnext : ∀ {s' : SyncSubscription π} {call : Option SyncCall},
      s'.calls = update s.calls q call → (∀ data, call ≠ some (.update data)) →
        s'.OnlyProducer sid p := by
    intro s' call hcalls hcall
    refine h.of_setCall hcalls fun _ => pending_eq_nil ?_
    rw [hcalls, update_self]
    exact hcall
  unfold SyncSubscription.advance
  split
  next => exact h
  next =>
    split
    · exact hnext rfl (fun _ => by simp)
    · split
      · exact h.of_calls_eq rfl
      · exact hnext rfl (fun _ => by simp)
  next =>
    split <;> exact hnext rfl (fun _ => by simp)
  next => exact hnext rfl (fun _ => by simp)
  next => exact hnext rfl (fun _ => by simp)

theorem OnlyProducer.next (h : s.OnlyProducer sid p) (ha : PassedBy sid p a) :
    ((syncMachine π).next s a).OnlyProducer sid p := by
  have hother : ∀ (q : π) (call : SyncCall), (∀ data, call ≠ .update data) →
      (if s.calls q = none then s.begin q call else s).OnlyProducer sid p := by
    intro q call hcall
    split
    · exact h.begin fun _ => pending_eq_nil (by simpa using hcall)
    · exact h
  unfold Machine.next syncMachine
  by_cases hcrashed : s.crashed = true
  · simp only [if_pos hcrashed]
    exact h
  simp only [if_neg hcrashed]
  cases a with
  | onUpdate q data =>
    by_cases hidle : s.calls q = none
    · simp only [if_pos hidle]
      refine h.begin fun hq => ?_
      rw [pending, calls_setCall_self]
      by_contra hne
      exact hq (ha hne)
    · simp only [if_neg hidle]
      exact h
  | onSyncError q err | onClose q | pingSync q nonce => exact hother q _ (by simp)
  | advance q => exact h.advance q
  | requestCancelled => exact h.of_calls_eq rfl
  | dispatch ready sendFails => exact h.of_calls_eq (dispatchStep_frame sid ready sendFails).1

/-! ## Runs -/

structure Delivering (sid : Bytes) (p : π) (events : List SyncEvent)
    (s : SyncSubscription π) : Prop where
  only : s.OnlyProducer sid p
  delivered : ∃ before, passedOf sid events = before ++ s.pending sid p ∧
    sentOf sid events ++ s.inFlight sid <+: before ∧
    (s.Active → ¬ s.Silenced sid p →
      sentOf sid events ++ s.inFlight sid = before)

structure Closed (sid : Bytes) (p : π) (before : List StreamAndCookie)
    (events : List SyncEvent) (s : SyncSubscription π) : Prop where
  only : s.OnlyProducer sid p
  sent : sentOf sid events ++ s.inFlight sid <+: before
  silenced : s.Silenced sid p

omit [DecidableEq π] in
theorem Delivering.init (sid : Bytes) (p : π) : Delivering sid p [] (newSyncSubscription π) :=
  ⟨fun _ _ => rfl, [], rfl, prefix_rfl, fun _ _ => rfl⟩

theorem Delivering.next (h : Delivering sid p events s) (ha : PassedBy sid p a) :
    Delivering sid p (events ++ (syncMachine π).out s a) ((syncMachine π).next s a) := by
  refine ⟨h.only.next ha, ?_⟩
  obtain ⟨before, hpassed, hsent, hflowing⟩ := h.delivered
  have htransfer := transfer_next ha h.only
  rw [passedOf_append, sentOf_append, hpassed]
  generalize passedOf sid ((syncMachine π).out s a) = passed,
    sentOf sid ((syncMachine π).out s a) = sent, (syncMachine π).next s a = s' at htransfer ⊢
  cases htransfer with
  | quiet hpending hflow hactive hsilenced =>
    refine ⟨before, by rw [hpending, append_nil], ?_, fun hact hloud => ?_⟩
    · rw [append_assoc]
      exact ((prefix_append_right_inj _).2 hflow).trans hsent
    · obtain ⟨hact', heq⟩ := hactive hact
      rw [append_assoc, heq]
      exact hflowing hact' (fun hs => hloud (hsilenced hs))
  | passed r hidle hpending hloud hflow hactive =>
    refine ⟨before, by rw [hidle, hpending, append_nil], ?_, fun hact _ => ?_⟩
    · rw [append_nil, hflow]
      exact hsent
    · rw [append_nil, hflow]
      exact hflowing (hactive hact) hloud
  | ignored r hsilenced hsame =>
    rw [hsame, hsilenced.pending_eq]
    refine ⟨before ++ [r], by simp, ?_, fun _ hloud => absurd hsilenced hloud⟩
    rw [append_nil]
    exact hsent.trans (prefix_append _ _)
  | queued r hpending hidle hflow hactive =>
    -- a producer with a pending update is not silenced
    have hloud : ¬ s.Silenced sid p := by
      intro hs
      rw [hs.pending_eq] at hpending
      cases hpending
    have hflowing' (hact : s'.Active) :
        sentOf sid events ++ [] ++ s'.inFlight sid = before ++ [r] := by
      obtain ⟨hact', heq⟩ := hactive hact
      rw [append_nil, heq, ← append_assoc, hflowing hact' hloud]
    refine ⟨before ++ [r], by rw [hpending, hidle], ?_, fun hact _ => hflowing' hact⟩
    by_cases hact : s'.Active
    · exact hflowing' hact ▸ prefix_rfl
    · rw [inFlight, if_neg hact, append_nil, append_nil]
      exact ((prefix_append _ _).trans hsent).trans (prefix_append _ _)
  | dropped r hpending hsilenced hflow =>
    refine ⟨before ++ [r], by rw [hpending, hsilenced.pending_eq], ?_,
      fun _ hloud => absurd hsilenced hloud⟩
    rw [append_nil, hflow]
    exact hsent.trans (prefix_append _ _)

theorem Closed.next (h : Closed sid p before events s) (ha : PassedBy sid p a) :
    Closed sid p before (events ++ (syncMachine π).out s a) ((syncMachine π).next s a) := by
  have hnone := h.silenced.pending_eq
  have htransfer := transfer_next ha h.only
  suffices hnext : sentOf sid events ++ (sentOf sid ((syncMachine π).out s a) ++
      ((syncMachine π).next s a).inFlight sid) <+: before ∧
      ((syncMachine π).next s a).Silenced sid p by
    refine ⟨h.only.next ha, ?_, hnext.2⟩
    rw [sentOf_append, append_assoc]
    exact hnext.1
  generalize passedOf sid ((syncMachine π).out s a) = passed at htransfer
  generalize sentOf sid ((syncMachine π).out s a) = sent at htransfer ⊢
  cases htransfer with
  | quiet hpending hflow hactive hsilenced =>
    exact ⟨((prefix_append_right_inj _).2 hflow).trans h.sent, hsilenced h.silenced⟩
  | passed r hidle hpending hloud hflow hactive => exact absurd h.silenced hloud
  | ignored r hsilenced hsame =>
    rw [hsame]
    exact ⟨h.sent, h.silenced⟩
  | queued r hpending hidle hflow hactive | dropped r hpending hsilenced hflow =>
    rw [hnone] at hpending
    cases hpending

/-- The update is dropped: the channel is full. -/
def Drops (s : SyncSubscription π) (r : StreamAndCookie) : SyncAction π → Prop
  | .advance q => s.crashed = false ∧ s.calls q = some (.update (some r)) ∧
      dataChannelCapacity ≤ s.dataChannel.length
  | _ => False

theorem Delivering.closed (h : Delivering sid p events s) (hdrops : s.Drops r a)
    (hr : r.nextSyncCookie.streamId = sid) :
    ∃ before, passedOf sid events = before ++ [r] ∧
      Closed sid p before (events ++ (syncMachine π).out s a) ((syncMachine π).next s a) := by
  cases a with
  | advance q =>
    obtain ⟨hcrashed, hcall, hfull⟩ := hdrops
    have hpending : s.pending sid q = [r] := by
      rw [pending, hcall]
      exact if_pos hr
    have hq : q = p := by
      by_contra hne
      rw [h.only q hne] at hpending
      cases hpending
    subst hq
    have hstep : (syncMachine π).step s (.advance q)
        = (s.setCall q (some (.setError (.bufferFull r.nextSyncCookie.streamId))), []) := by
      simp only [syncMachine, hcrashed, Bool.false_eq_true, if_false, SyncSubscription.advance,
        hcall, Nat.not_lt.2 hfull]
    obtain ⟨before, hpassed, hsent, -⟩ := h.delivered
    refine ⟨before, by rw [hpassed, hpending], h.only.next trivial, ?_, ?_⟩
    · rw [Machine.out, Machine.next, hstep, append_nil]
      exact hsent
    · rw [Machine.next, hstep]
      exact ⟨pending_eq_nil (by simp), .inr (.inl ⟨_, calls_setCall_self _⟩)⟩
  | _ => exact hdrops.elim

theorem run_of_next {I : List SyncEvent → SyncSubscription π → Prop}
    (hstep : ∀ events s a, I events s → PassedBy sid p a →
      I (events ++ (syncMachine π).out s a) ((syncMachine π).next s a)) (hs : I events s)
    {acts : List (SyncAction π)} (hacts : ∀ a ∈ acts, PassedBy sid p a) :
    I (events ++ (syncMachine π).collect (syncMachine π).out s acts)
      ((syncMachine π).exec s acts) :=
  collect_invariant (fun _ _ _ => trivial)
    (fun l s a hl ha _ => hstep l s a hl ha) hs (along_of_mem hacts s) trivial

end SyncSubscription

open SyncSubscription in
/-- **Sync order.** Whatever the goroutines and the loop do, the updates of a stream that the client
    is sent are the first ones that its producer passed, in order and without a gap. An update that
    is dropped because the channel is full, and all behind it, are never sent. -/
theorem sync_sends_in_order {π : Type} [DecidableEq π] (sid : Bytes) (p : π)
    (acts : List (SyncAction π)) (hacts : ∀ a ∈ acts, PassedBy sid p a) :
    sentOf sid ((syncMachine π).collect (syncMachine π).out (newSyncSubscription π) acts)
      <+: passedOf sid
        ((syncMachine π).collect (syncMachine π).out (newSyncSubscription π) acts) ∧
    ∀ front a back, acts = front ++ a :: back →
      ∀ r : StreamAndCookie, r.nextSyncCookie.streamId = sid →
        Drops ((syncMachine π).exec (newSyncSubscription π) front) r a →
        ∃ before, passedOf sid
            ((syncMachine π).collect (syncMachine π).out (newSyncSubscription π) front)
              = before ++ [r] ∧
          sentOf sid
            ((syncMachine π).collect (syncMachine π).out (newSyncSubscription π) acts)
              <+: before := by
  have hdelivering : ∀ {as : List (SyncAction π)}, (∀ a ∈ as, PassedBy sid p a) →
      Delivering sid p
        ((syncMachine π).collect (syncMachine π).out (newSyncSubscription π) as)
        ((syncMachine π).exec (newSyncSubscription π) as) := fun has =>
    run_of_next (fun _ _ _ h ha => h.next ha) (Delivering.init sid p) has
  constructor
  · obtain ⟨before, hpassed, hsent, -⟩ := (hdelivering hacts).delivered
    rw [hpassed]
    exact ((prefix_append _ _).trans hsent).trans (prefix_append _ _)
  · rintro front a back rfl r hr hdrops
    have hfront := hdelivering fun b hb => hacts b (mem_append_left _ hb)
    obtain ⟨before, hpassed, hclosed⟩ := hfront.closed hdrops hr
    refine ⟨before, hpassed, ?_⟩
    have hback : ∀ b ∈ back, PassedBy sid p b := fun b hb =>
      hacts b (mem_append_right _ (mem_cons_of_mem _ hb))
    have hend := run_of_next (fun _ _ _ h hb => h.next hb) hclosed hback
    rw [collect_append, collect_cons, ← append_assoc]
    exact (prefix_append _ _).trans hend.sent

/-! ## Sample subscription -/

def sampleSyncUpdate : StreamAndCookie := ⟨[], ⟨[], [1], 0, 0, []⟩, [], false⟩

def sampleSyncUpdates (n : Nat) : List (SyncAction Unit) :=
  (replicate n [.onUpdate () (some sampleSyncUpdate), .advance ()]).flatten

/-- A producer fills the channel and the next update is dropped; the loop then sends two updates
    that are in the channel. -/
theorem sync_sends_two_of_full :
    SyncSubscription.Drops ((syncMachine Unit).exec (newSyncSubscription Unit)
      (sampleSyncUpdates 256 ++ [.onUpdate () (some sampleSyncUpdate)])) sampleSyncUpdate
        (.advance ()) ∧
    sentOf [1] ((syncMachine Unit).collect (syncMachine Unit).out (newSyncSubscription Unit)
      (sampleSyncUpdates 257 ++ [.dispatch .data false, .dispatch .data false]))
        = [sampleSyncUpdate, sampleSyncUpdate] ∧
    sentOf [1] ((syncMachine Unit).collect (syncMachine Unit).out (newSyncSubscription Unit)
      (sampleSyncUpdates 257 ++ [.dispatch .data false, .dispatch .data false]))
        <+: passedOf [1]
          ((syncMachine Unit).collect (syncMachine Unit).out (newSyncSubscription Unit)
            (sampleSyncUpdates 257 ++ [.dispatch .data false, .dispatch .data false])) := by
  refine ⟨?_, by decide +kernel, (sync_sends_in_order [1] () _ ?_).1⟩
  · exact ⟨by decide +kernel, by decide +kernel, by decide +kernel⟩
  intro a _
  cases a with
  | onUpdate q data => exact fun _ => rfl
  | _ => trivial

end River.Node
