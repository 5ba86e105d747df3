/-
  The local streams of a sync operation (core/node/rpc/sync_streams.go and the first part of
  sync_subscription.go).

  A call is cut into its critical sections. The remote streams of an operation are kept in other
  maps and are left out, and so are calls whose context is done before they begin.
-/

import Mathlib.Data.Fintype.Option
import River.Node.Rpc.Sync

namespace River.Node

open River.Lib Function Finset StreamImpl

/-! ## The operation -/

def syncCookieValidate (cookie : SyncCookie) : Res Unit :=
  if cookie.nodeAddress.length = 0 ∨ cookie.streamId.length = 0 ∨ cookie.minipoolGen ≤ 0 ∨
      cookie.minipoolSlot < 0 ∨ cookie.prevMiniblockHash.length ≤ 0 then
    riverError .badSyncCookie "Bad SyncCookie"
  else .ok ()

structure SyncParams where
  receiver : Nat
  walletAddress : Bytes
  stream : StreamId → StreamParams
  streamId_eq : ∀ id, (stream id).streamId = id
  walletAddress_eq : ∀ id, (stream id).crypto.walletAddress = walletAddress

inductive LocalCall where
  /-- `addLocalStreamToSync`: `getLocalStream`. -/
  | getLocalStream (cookie : SyncCookie) (id : StreamId)
  /-- `addLocalStreamToSync`: `cache.GetStream`. -/
  | getStream (cookie : SyncCookie) (id : StreamId)
  /-- `addLocalStream`: the entry in `localStreams`. -/
  | insert (cookie : SyncCookie) (id : StreamId)
  /-- `addLocalStream`: `Sub`. -/
  | sub (cookie : SyncCookie) (id : StreamId)
  /-- `removeLocalStream`: `Unsub`. -/
  | unsub (id : StreamId)
  deriving DecidableEq

inductive InitialSync where
  | adding (syncPos : List SyncCookie)
  | leaving
  | left

structure SyncOperation (π : Type) where
  streams : StreamId → NodeState
  localStreams : Finset StreamId
  calls : Option π → Option LocalCall
  initial : InitialSync

inductive SyncOperationAction (π : Type) where
  | addStreamToSync (q : π) (cookie : SyncCookie)
  | removeStreamFromSync (q : π) (id : StreamId)
  | advance (q : Option π) (faults : Faults)
  /-- The loop of `syncLocalStreamsImpl` goes to its next cookie. -/
  | nextPosition
  | contextDone
  | unsubLocalStreams
  /-- Anything else that happens to a stream. -/
  | stream (id : StreamId) (a : Action)

def Action.isFor (receiver : Nat) : Action → Bool
  | .sub _ receiver' _ => receiver' = receiver
  | .unsub receiver' => receiver' = receiver
  | _ => false

namespace SyncOperation

variable {π : Type} [DecidableEq π] (p : SyncParams) (s : SyncOperation π)

def setCall (q : Option π) (call : Option LocalCall) : SyncOperation π :=
  { s with calls := update s.calls q call }

def setStream (id : StreamId) (stream : StreamImpl) : SyncOperation π :=
  { s with streams := update s.streams id { s.streams id with stream := stream } }

def finish (q : Option π) (result : Res Unit) : SyncOperation π × Option (Res Unit) :=
  let s := s.setCall q none
  (if q.isNone && !result.isOk then { s with initial := .leaving } else s, some result)

def addLocalStreamToSync (q : Option π) (cookie : SyncCookie) :
    SyncOperation π × Option (Res Unit) :=
  match syncCookieValidate cookie with
  | .ok () =>
    match StreamId.fromBytes cookie.streamId with
    | .ok id => (s.setCall q (some (.getLocalStream cookie id)), none)
    | .error e => s.finish q (.error e)
    | .panic m => s.finish q (.panic m)
  | _ => s.finish q (.ok ())

def advance (q : Option π) (faults : Faults) : SyncOperation π × Option (Res Unit) :=
  match s.calls q with
  | none => (s, none)
  | some (.getLocalStream cookie id) =>
    if id ∈ s.localStreams then s.finish q (.ok ())
    else (s.setCall q (some (.getStream cookie id)), none)
  | some (.getStream cookie id) =>
    match (s.streams id).stream.loadInternal (p.stream id) faults with
    | (stream, .ok _) => ((s.setStream id stream).setCall q (some (.insert cookie id)), none)
    | (stream, .error e) => (s.setStream id stream).finish q (.error e)
    | (stream, .panic m) => (s.setStream id stream).finish q (.panic m)
  | some (.insert cookie id) =>
    if id ∈ s.localStreams then s.finish q (.ok ())
    else ({ s.setCall q (some (.sub cookie id)) with
      localStreams := insert id s.localStreams }, none)
  | some (.sub cookie id) =>
    let (stream, outcome) := (s.streams id).stream.sub (p.stream id) cookie p.receiver faults
    (s.setStream id stream).finish q outcome.result
  | some (.unsub id) =>
    (s.setStream id ((s.streams id).stream.unsub p.receiver)).finish q (.ok ())

def unsubLocalStreams : SyncOperation π :=
  { s with
    streams := fun id =>
      if id ∈ s.localStreams then
        { s.streams id with stream := (s.streams id).stream.unsub p.receiver }
      else s.streams id
    localStreams := ∅ }

def step : SyncOperationAction π → SyncOperation π × Option (Res Unit)
  | .addStreamToSync q cookie =>
    if s.calls (some q) = none then
      if cookie.nodeAddress = p.walletAddress then s.addLocalStreamToSync (some q) cookie
      else (s, some (.ok ()))
    else (s, none)
  | .removeStreamFromSync q id =>
    if s.calls (some q) = none then
      if id ∈ s.localStreams then
        ({ s.setCall (some q) (some (.unsub id)) with
          localStreams := s.localStreams.erase id }, none)
      else (s, some (.ok ()))
    else (s, none)
  | .advance q faults => s.advance p q faults
  | .nextPosition =>
    match s.initial with
    | .adding (cookie :: syncPos) =>
      if s.calls none = none then
        ({ s with initial := .adding syncPos } : SyncOperation π).addLocalStreamToSync none cookie
      else (s, none)
    | _ => (s, none)
  | .contextDone =>
    match s.initial with
    | .adding _ => (if s.calls none = none then { s with initial := .leaving } else s, none)
    | _ => (s, none)
  | .unsubLocalStreams =>
    match s.initial with
    | .leaving => ({ s.unsubLocalStreams p with initial := .left }, none)
    | _ => (s, none)
  | .stream id a =>
    if a.isFor p.receiver then (s, none)
    else
      let node := (streamMachine (p.stream id)).next (s.streams id) a
      ({ s with streams := update s.streams id node }, none)

end SyncOperation

open SyncOperation

/-- A sync operation and its local streams. -/
def syncOperationMachine (p : SyncParams) (π : Type) [DecidableEq π] :
    Machine (SyncOperation π) (SyncOperationAction π) (Option (Res Unit)) :=
  ⟨step p⟩

def localCookies (p : SyncParams) (syncPos : List SyncCookie) : List SyncCookie :=
  syncPos.filter fun cookie => cookie.nodeAddress = p.walletAddress

def SyncOperation.init (p : SyncParams) (π : Type) (streams : StreamId → NodeState)
    (syncPos : List SyncCookie) : SyncOperation π where
  streams := streams
  localStreams := ∅
  calls := fun _ => none
  initial := if (localCookies p syncPos).length > 0 then .adding (localCookies p syncPos) else .left

/-! ## Registration -/

def SubAccepts (p : StreamParams) (s : StreamImpl) (cookie : SyncCookie) (faults : Faults) : Bool :=
  match (s.loadInternal p faults).2 with
  | .ok view => cookie.minipoolGen ≠ view.minipool.generation ∨
      cookie.minipoolSlot ≤ view.minipool.events.len
  | _ => false

def LocalCall.Checked (p : SyncParams) : LocalCall → Prop
  | .getLocalStream cookie id | .getStream cookie id | .insert cookie id | .sub cookie id =>
    cookie.nodeAddress = p.walletAddress ∧ cookie.streamId = id.bytes ∧ 0 ≤ cookie.minipoolSlot
  | .unsub _ => True

variable {cookie : SyncCookie} {id : StreamId}

theorem mem_receivers_sub (hcall : (LocalCall.sub cookie id).Checked p)
    (h : SubAccepts (p.stream id) s cookie faults = true) :
    p.receiver ∈ (s.sub (p.stream id) cookie p.receiver faults).1.receivers := by
  obtain ⟨hnode, hid, _⟩ := hcall
  have hequals : (p.stream id).streamId.equalsBytes cookie.streamId = true := by
    rw [p.streamId_eq, hid]
    exact decide_eq_true rfl
  unfold sub
  rw [if_neg (by rw [p.walletAddress_eq]; exact not_not.2 hnode), if_neg (by simp [hequals]),
    if_neg (by omega)]
  unfold withView
  unfold SubAccepts at h
  cases hload : s.loadInternal (p.stream id) faults with
  | mk st result =>
    rw [hload] at h
    cases result with
    | ok view =>
      simp only [decide_eq_true_eq] at h
      simp only [subImpl]
      by_cases hgen : cookie.minipoolGen = view.minipool.generation
      · rw [if_pos hgen, if_neg (by omega)]
        exact List.mem_insert_self
      · rw [if_neg hgen]
        split <;> exact List.mem_insert_self
    | _ => cases h

namespace SyncOperation

variable {π : Type}

/-- The operation is subscribed to its streams. -/
def Registered (p : SyncParams) (s : SyncOperation π) : Prop :=
  ∀ id ∈ s.localStreams, (∀ q cookie, s.calls q ≠ some (.sub cookie id)) →
    p.receiver ∈ (s.streams id).stream.receivers

def OrderlyCall (p : SyncParams) (s : SyncOperation π) (faults : Faults) : LocalCall → Prop
  | .insert _ id => ∀ q, s.calls q ≠ some (.unsub id)
  | .sub cookie id => SubAccepts (p.stream id) (s.streams id).stream cookie faults = true
  | _ => True

/-- Subscriptions succeed and meet no unsubscribe or flush. -/
def Orderly (p : SyncParams) (s : SyncOperation π) : SyncOperationAction π → Prop
  | .advance q faults => ∀ call ∈ s.calls q, s.OrderlyCall p faults call
  | .stream id .forceFlush => id ∉ s.localStreams
  | _ => True

instance [Fintype π] (p : SyncParams) (s : SyncOperation π) (faults : Faults) :
    ∀ call, Decidable (s.OrderlyCall p faults call)
  | .insert _ id => inferInstanceAs (Decidable (∀ q, s.calls q ≠ some (.unsub id)))
  | .sub _ _ => inferInstanceAs (Decidable (_ = true))
  | .getLocalStream _ _ | .getStream _ _ | .unsub _ => .isTrue trivial

structure Inv (p : SyncParams) (s : SyncOperation π) : Prop where
  registered : s.Registered p
  checked : ∀ q call, s.calls q = some call → call.Checked p
  unsubbed : ∀ q id, s.calls q = some (.unsub id) → id ∉ s.localStreams
  initial : ∀ syncPos, s.initial = .adding syncPos →
    ∀ cookie ∈ syncPos, cookie.nodeAddress = p.walletAddress

/-! ## Steps -/

variable {p : SyncParams} {s s' : SyncOperation π}

theorem Inv.of_calls_eq (h : s.Inv p) (hcalls : s'.calls = s.calls)
    (hlocal : s'.localStreams ⊆ s.localStreams)
    (hreceivers : ∀ id ∈ s'.localStreams, p.receiver ∈ (s.streams id).stream.receivers →
      p.receiver ∈ (s'.streams id).stream.receivers)
    (hinitial : ∀ syncPos, s'.initial = .adding syncPos → s.initial = .adding syncPos) :
    s'.Inv p where
  registered := by
    intro id hid hnosub
    rw [hcalls] at hnosub
    exact hreceivers id hid (h.registered id (hlocal hid) hnosub)
  checked := by
    rw [hcalls]
    exact h.checked
  unsubbed := by
    intro q id hcall hid
    rw [hcalls] at hcall
    exact h.unsubbed q id hcall (hlocal hid)
  initial := fun syncPos heq => h.initial syncPos (hinitial syncPos heq)

@[simp] theorem stream_setStream_self (id : StreamId) (stream : StreamImpl) :
    ((s.setStream id stream).streams id).stream = stream := by
  simp only [setStream, update_self]

theorem mem_receivers_setStream {receiver : Nat} {stream : StreamImpl}
    (hmem : receiver ∈ (s.streams id').stream.receivers)
    (hstream : id' = id → receiver ∈ stream.receivers) :
    receiver ∈ ((s.setStream id stream).streams id').stream.receivers := by
  by_cases hid : id' = id
  · subst hid
    rw [stream_setStream_self]
    exact hstream rfl
  · simp only [setStream, update_of_ne hid]
    exact hmem

variable [DecidableEq π] {q : Option π}

theorem Inv.of_setCall (h : s.Inv p) (hcalls : s'.calls = update s.calls q call)
    (hlocal : s'.localStreams ⊆ s.localStreams)
    (hreceivers : ∀ id ∈ s'.localStreams, p.receiver ∈ (s.streams id).stream.receivers →
      p.receiver ∈ (s'.streams id).stream.receivers)
    (hsub : ∀ cookie id, s.calls q = some (.sub cookie id) →
      p.receiver ∈ (s'.streams id).stream.receivers) (hchecked : ∀ c, call = some c → c.Checked p)
    (hunsub : ∀ id, call = some (.unsub id) → id ∉ s'.localStreams)
    (hinitial : ∀ syncPos, s'.initial = .adding syncPos → s.initial = .adding syncPos) :
    s'.Inv p where
  registered := by
    intro id hid hnosub
    by_cases hq : ∃ cookie, s.calls q = some (.sub cookie id)
    · obtain ⟨cookie, hq⟩ := hq
      exact hsub cookie id hq
    refine hreceivers id hid (h.registered id (hlocal hid) fun q' cookie hcall => ?_)
    by_cases hq' : q' = q
    · subst hq'
      exact hq ⟨cookie, hcall⟩
    · refine hnosub q' cookie ?_
      rw [hcalls, update_of_ne hq']
      exact hcall
  checked := by
    rw [hcalls]
    exact (forall_update_iff s.calls fun _ call => ∀ c, call = some c → c.Checked p).2
      ⟨hchecked, fun q' _ => h.checked q'⟩
  unsubbed := by
    rw [hcalls]
    exact (forall_update_iff s.calls fun _ call =>
      ∀ id, call = some (.unsub id) → id ∉ s'.localStreams).2
        ⟨hunsub, fun q' _ id hc hid => h.unsubbed q' id hc (hlocal hid)⟩
  initial := fun syncPos heq => h.initial syncPos (hinitial syncPos heq)

theorem finish_eq (q : Option π) (result : Res Unit) :
    (s.finish q result).1.calls = update s.calls q none ∧
      (s.finish q result).1.localStreams = s.localStreams ∧
      (s.finish q result).1.streams = s.streams ∧
      ∀ syncPos, (s.finish q result).1.initial = .adding syncPos → s.initial = .adding syncPos := by
  unfold finish
  split
  · exact ⟨rfl, rfl, rfl, fun _ h => by cases h⟩
  · exact ⟨rfl, rfl, rfl, fun _ h => h⟩

theorem Inv.finish (h : s.Inv p) (stream : StreamImpl) (result : Res Unit)
    (hreceivers : id ∈ s.localStreams → p.receiver ∈ (s.streams id).stream.receivers →
      p.receiver ∈ stream.receivers)
    (hsub : ∀ cookie id', s.calls q = some (.sub cookie id') →
      id' = id ∧ p.receiver ∈ stream.receivers) :
    ((s.setStream id stream).finish q result).1.Inv p := by
  obtain ⟨hcalls, hlocal, hstreams, hinitial⟩ := finish_eq q result
  refine h.of_setCall hcalls hlocal.subset ?_ ?_ (fun _ hc => by cases hc)
    (fun _ hc => by cases hc) hinitial
  · intro id' hid' hmem
    rw [hstreams]
    rw [hlocal] at hid'
    refine mem_receivers_setStream hmem ?_
    rintro rfl
    exact hreceivers hid' hmem
  · intro cookie id' hcall
    obtain ⟨rfl, hmem⟩ := hsub cookie id' hcall
    rw [hstreams, stream_setStream_self]
    exact hmem

theorem Inv.finish_same (h : s.Inv p) (result : Res Unit)
    (hcall : ∀ cookie id, s.calls q ≠ some (.sub cookie id)) : (s.finish q result).1.Inv p := by
  obtain ⟨hcalls, hlocal, hstreams, hinitial⟩ := finish_eq q result
  refine h.of_setCall hcalls hlocal.subset ?_
    (fun cookie id hc => absurd hc (hcall cookie id)) (fun _ hc => by cases hc)
    (fun _ hc => by cases hc) hinitial
  intro id _ hmem
  rw [hstreams]
  exact hmem

theorem Inv.setCall (h : s.Inv p) {call : LocalCall} (hchecked : call.Checked p)
    (hcall : ∀ cookie id, s.calls q ≠ some (.sub cookie id)) (hunsub : ∀ id, call ≠ .unsub id) :
    (s.setCall q (some call)).Inv p := by
  refine h.of_setCall rfl (Finset.Subset.refl _) (fun _ _ hmem => hmem)
    (fun cookie id hc => absurd hc (hcall cookie id)) ?_ ?_ (fun _ heq => heq)
  · intro c hc
    obtain rfl := Option.some.inj hc
    exact hchecked
  · intro id hc
    exact absurd (Option.some.inj hc) (hunsub id)

theorem syncCookieValidate_eq_ok (h : syncCookieValidate cookie = .ok ()) :
    0 ≤ cookie.minipoolSlot := by
  unfold syncCookieValidate at h
  split at h
  · cases h
  · omega

theorem Inv.addLocalStreamToSync (h : s.Inv p) (hidle : s.calls q = none)
    (hnode : cookie.nodeAddress = p.walletAddress) :
    (s.addLocalStreamToSync q cookie).1.Inv p := by
  have hcall : ∀ cookie id, s.calls q ≠ some (.sub cookie id) := by simp [hidle]
  unfold SyncOperation.addLocalStreamToSync
  split
  next hvalid =>
    split
    next id hid =>
      have hbytes := StreamId.fromBytes_eq_ok.1 hid
      exact h.setCall ⟨hnode, hbytes.symm, syncCookieValidate_eq_ok hvalid⟩ hcall (by simp)
    next => exact h.finish_same _ hcall
    next => exact h.finish_same _ hcall
  next => exact h.finish_same _ hcall

theorem Inv.insert (h : s.Inv p) (hcall : s.calls q = some (.insert cookie id))
    (horderly : ∀ q', s.calls q' ≠ some (.unsub id)) :
    ({ s.setCall q (some (.sub cookie id)) with
      localStreams := insert id s.localStreams } : SyncOperation π).Inv p := by
  have hcalls : ∀ q', q' ≠ q → (s.setCall q (some (.sub cookie id))).calls q' = s.calls q' :=
    fun q' hq' => update_of_ne hq' ..
  have hself : (s.setCall q (some (.sub cookie id))).calls q = some (.sub cookie id) :=
    update_self ..
  refine ⟨?_, ?_, ?_, h.initial⟩
  · intro id' hid' hnosub
    have hne : id' ≠ id := by
      rintro rfl
      exact hnosub q cookie hself
    refine h.registered id' (mem_of_mem_insert_of_ne hid' hne) fun q' cookie' hc => ?_
    by_cases hq' : q' = q
    · subst hq'
      rw [hcall] at hc
      cases hc
    · exact hnosub q' cookie' ((hcalls q' hq').trans hc)
  · intro q' c hc
    by_cases hq' : q' = q
    · subst hq'
      obtain rfl := Option.some.inj (hself.symm.trans hc)
      have hchecked : (LocalCall.insert cookie id).Checked p := h.checked q' _ hcall
      exact hchecked
    · exact h.checked q' c ((hcalls q' hq').symm.trans hc)
  · intro q' id' hc hid'
    by_cases hq' : q' = q
    · subst hq'
      cases hself.symm.trans hc
    have hc' := (hcalls q' hq').symm.trans hc
    rcases mem_insert.1 hid' with rfl | hmem
    · exact horderly q' hc'
    · exact h.unsubbed q' id' hc' hmem

theorem Inv.advance (h : s.Inv p) (horderly : s.Orderly p (.advance q faults)) :
    (s.advance p q faults).1.Inv p := by
  unfold SyncOperation.advance
  split
  next => exact h
  next cookie id hcall =>
    have hnosub : ∀ cookie id, s.calls q ≠ some (.sub cookie id) := by simp [hcall]
    split
    · exact h.finish_same _ hnosub
    · have hchecked : (LocalCall.getLocalStream cookie id).Checked p := h.checked q _ hcall
      exact h.setCall hchecked hnosub (by simp)
  next cookie id hcall =>
    have hnosub : ∀ cookie id, s.calls q ≠ some (.sub cookie id) := by simp [hcall]
    have hload := loadInternal_receivers (p := p.stream id) (s := (s.streams id).stream) faults
    split
    next stream view heq =>
      rw [heq] at hload
      refine h.of_setCall rfl (Finset.Subset.refl _) ?_
        (fun cookie id hc => absurd hc (hnosub cookie id)) ?_ (fun _ hc => by cases hc)
        (fun _ hinitial => hinitial)
      · intro id' _ hmem
        refine mem_receivers_setStream hmem ?_
        rintro rfl
        exact hload.symm ▸ hmem
      · intro c hc
        obtain rfl := Option.some.inj hc
        have hchecked : (LocalCall.getStream cookie id).Checked p := h.checked q _ hcall
        exact hchecked
    next stream e heq =>
      rw [heq] at hload
      exact h.finish stream _ (fun _ hmem => hload.symm ▸ hmem)
        fun cookie id hc => absurd hc (hnosub cookie id)
    next stream m heq =>
      rw [heq] at hload
      exact h.finish stream _ (fun _ hmem => hload.symm ▸ hmem)
        fun cookie id hc => absurd hc (hnosub cookie id)
  next cookie id hcall =>
    split
    · exact h.finish_same _ (by simp [hcall])
    · exact h.insert hcall (horderly _ hcall)
  next cookie id hcall =>
    have hmem := mem_receivers_sub (h.checked q _ hcall) (horderly _ hcall)
    refine h.finish _ _ (fun _ _ => hmem) fun cookie' id' hc => ?_
    rw [hcall] at hc
    cases hc
    exact ⟨rfl, hmem⟩
  next id hcall =>
    -- what is being unsubscribed is no longer in `localStreams`
    exact h.finish _ _ (fun hid _ => absurd hid (h.unsubbed q id hcall)) (by simp [hcall])

theorem Inv.remove (h : s.Inv p) (hidle : s.calls q = none) (id : StreamId) :
    ({ s.setCall q (some (.unsub id)) with
      localStreams := s.localStreams.erase id } : SyncOperation π).Inv p := by
  refine h.of_setCall rfl (erase_subset _ _) (fun _ _ hmem => hmem) (by simp [hidle]) ?_ ?_
    (fun _ heq => heq)
  · intro c hc
    obtain rfl := Option.some.inj hc
    trivial
  · intro id' hc
    obtain rfl : id = id' := by simpa using hc
    exact notMem_erase _ _

theorem Inv.stream (h : s.Inv p) (horderly : s.Orderly p (.stream id a)) :
    (s.step p (.stream id a)).1.Inv p := by
  simp only [step]
  by_cases hfor : a.isFor p.receiver = true
  · rw [if_pos hfor]
    exact h
  rw [if_neg hfor]
  refine h.of_calls_eq rfl (Finset.Subset.refl _) ?_ (fun _ heq => heq)
  intro id' hid' hmem
  by_cases hid : id' = id
  · subst hid
    have hunsubscribes : a.unsubscribes p.receiver = false := by
      cases a with
      | forceFlush => exact absurd hid' horderly
      | unsub receiver => exact Bool.eq_false_iff.2 hfor
      | _ => rfl
    simp only [update_self]
    exact NodeState.mem_receivers_next hmem hunsubscribes
  · simp only [update_of_ne hid]
    exact hmem

theorem Inv.step (h : s.Inv p) (horderly : s.Orderly p a) : (s.step p a).1.Inv p := by
  cases a with
  | addStreamToSync q cookie =>
    simp only [SyncOperation.step]
    split
    next hidle =>
      split
      next hnode => exact h.addLocalStreamToSync hidle hnode
      next => exact h
    next => exact h
  | removeStreamFromSync q id =>
    simp only [SyncOperation.step]
    split
    next hidle =>
      split
      · exact h.remove hidle id
      · exact h
    next => exact h
  | advance q faults => exact h.advance horderly
  | nextPosition =>
    simp only [SyncOperation.step]
    split
    next cookie syncPos hinitial =>
      split
      next hidle =>
        have hnode := h.initial _ hinitial
        have hrest : ({ s with initial := .adding syncPos } : SyncOperation π).Inv p := by
          refine ⟨h.registered, h.checked, h.unsubbed, ?_⟩
          rintro _ heq cookie' hcookie'
          cases heq
          exact hnode cookie' (List.mem_cons_of_mem _ hcookie')
        exact hrest.addLocalStreamToSync hidle (hnode cookie List.mem_cons_self)
      next => exact h
    next => exact h
  | contextDone =>
    simp only [SyncOperation.step]
    split
    next =>
      split
      · exact h.of_calls_eq rfl (Finset.Subset.refl _) (fun _ _ hmem => hmem)
          (fun _ heq => by cases heq)
      · exact h
    next => exact h
  | unsubLocalStreams =>
    simp only [SyncOperation.step]
    split
    next =>
      exact h.of_calls_eq rfl (empty_subset _) (fun id hid => absurd hid (notMem_empty id))
        (fun _ heq => by cases heq)
    next => exact h
  | stream id a => exact h.stream horderly

omit [DecidableEq π] in
theorem Inv.init (p : SyncParams) (streams : StreamId → NodeState) (syncPos : List SyncCookie) :
    (init p π streams syncPos).Inv p where
  registered := fun id hid => absurd hid (notMem_empty id)
  checked := fun _ _ hcall => by cases hcall
  unsubbed := fun _ _ hcall => by cases hcall
  initial := by
    intro syncPos' heq cookie hcookie
    simp only [SyncOperation.init] at heq
    split at heq
    · cases heq
      exact of_decide_eq_true (List.mem_filter.1 hcookie).2
    · cases heq

end SyncOperation

open SyncOperation in
/-- **Registration.** In every state of an orderly run of a sync operation, every stream in
    `localStreams` has the subscription as a receiver, or the call that has just made the entry is
    still about to subscribe. -/
theorem localStreams_registered {π : Type} [DecidableEq π] (p : SyncParams)
    (streams : StreamId → NodeState) (syncPos : List SyncCookie)
    (acts : List (SyncOperationAction π))
    (horderly : (syncOperationMachine p π).Along (Orderly p) (init p π streams syncPos) acts) :
    ((syncOperationMachine p π).exec (init p π streams syncPos) acts).Registered p :=
  (Machine.exec_invariant_along (M := syncOperationMachine p π)
    (fun _ _ h ha => h.step ha) (Inv.init p streams syncPos) horderly).registered

/-! ## Sample operation -/

def sampleSyncParams : SyncParams where
  receiver := 7
  walletAddress := Crypto.salted.walletAddress
  stream id := { sampleParams with streamId := id }
  streamId_eq _ := rfl
  walletAddress_eq _ := rfl

def sampleSyncCookie (slot : Int) : SyncCookie :=
  ⟨Crypto.salted.walletAddress, sampleStreamId.bytes, 1, slot, [1]⟩

def sampleAddStream (slot : Int) : List (SyncOperationAction Unit) :=
  .addStreamToSync () (sampleSyncCookie slot) :: List.replicate 4
    (.advance (some ()) ⟨false, false⟩)

def sampleOperation : SyncOperation Unit :=
  init sampleSyncParams Unit (fun _ => sampleGenesis.init) []

/-- A stream that is added with a good cookie is subscribed. -/
theorem localStreams_registered_sample :
    let s := (syncOperationMachine sampleSyncParams Unit).exec sampleOperation (sampleAddStream 0)
    sampleStreamId ∈ s.localStreams ∧ 7 ∈ (s.streams sampleStreamId).stream.receivers := by
  have hmem : sampleStreamId ∈ ((syncOperationMachine sampleSyncParams Unit).exec sampleOperation
      (sampleAddStream 0)).localStreams := by decide +kernel
  refine ⟨hmem, localStreams_registered sampleSyncParams (fun _ => sampleGenesis.init) []
    (sampleAddStream 0) ?_ sampleStreamId hmem ?_⟩
  · have hstep : ∀ n ≤ 3, Orderly sampleSyncParams
        ((syncOperationMachine sampleSyncParams Unit).exec sampleOperation
          ((sampleAddStream 0).take (n + 1))) (.advance (some ()) ⟨false, false⟩) := by
      unfold Orderly
      decide +kernel
    exact ⟨trivial, hstep 0 (by decide), hstep 1 (by decide), hstep 2 (by decide),
      hstep 3 (by decide), trivial⟩
  · rintro (_ | ⟨⟩) cookie hcall
    · cases hcall
    · have hidle : ((syncOperationMachine sampleSyncParams Unit).exec sampleOperation
          (sampleAddStream 0)).calls (some ()) = none := by decide +kernel
      cases hidle.symm.trans hcall

/-- A stream that is added with a slot behind the end of the minipool: `Sub` refuses the cookie,
    but the entry stays. A second request with a good cookie then returns success, and the stream
    is still not subscribed. -/
theorem localStreams_not_registered :
    let first := (syncOperationMachine sampleSyncParams Unit).exec sampleOperation
      (sampleAddStream 5)
    let second := (syncOperationMachine sampleSyncParams Unit).exec sampleOperation
      (sampleAddStream 5 ++ sampleAddStream 0)
    ¬ first.Registered sampleSyncParams ∧ first.localStreams ≠ sampleOperation.localStreams ∧
      (syncOperationMachine sampleSyncParams Unit).collect
          (fun s a => ((syncOperationMachine sampleSyncParams Unit).out s a).toList) sampleOperation
          (sampleAddStream 5 ++ sampleAddStream 0)
        = [.error ⟨.badSyncCookie, "Stream.Sub: bad slot"⟩, .ok ()] ∧
      sampleStreamId ∈ second.localStreams ∧
      (second.streams sampleStreamId).stream.receivers = [] := by
  have hmem : sampleStreamId ∈ ((syncOperationMachine sampleSyncParams Unit).exec sampleOperation
      (sampleAddStream 5)).localStreams := by decide +kernel
  refine ⟨fun h => ?_, ?_, by decide +kernel, by decide +kernel, by decide +kernel⟩
  · have hidle : ((syncOperationMachine sampleSyncParams Unit).exec sampleOperation
        (sampleAddStream 5)).calls (some ()) = none := by decide +kernel
    have hregistered := h sampleStreamId hmem ?_
    · cases hregistered
    · rintro (_ | ⟨⟩) cookie hcall
      · cases hcall
      · cases hidle.symm.trans hcall
  · intro heq
    rw [heq] at hmem
    exact notMem_empty _ hmem

end River.Node
