/-
  The memberships a user's stream lists, and the members of the streams it lists.
-/

import River.Node.Rpc.MembershipCalls

namespace River.Node

open River.Lib Rules Option StreamView

namespace Network

/-! ## The step that adds an event -/

structure Adds (n : Network) (i : Nat) (c : Call) (s : History) (view : StreamView) : Prop where
  call : n.calls[i]? = some c
  status : c.status = .adding
  stream : n.streams c.streamId = some s
  add : s.view.copyAndAddEvent c.event = .ok view

def add (n : Network) (i : Nat) (c : Call) (s : History) (view : StreamView) : Network :=
  (n.setStream c.streamId { s with view := view }).setStatus i .succeeded

section Adds

variable {C : Crypto} {n : Network} {i : Nat} {c : Call} {s : History} {view : StreamView}
  (h : n.Adds i c s view)

include h

theorem Adds.isOpen : c.Open := by simp [Call.Open, h.status]

theorem calls_add (k : Nat) :
    (n.add i c s view).calls[k]? =
      if i = k then some { c with status := .succeeded } else n.calls[k]? := by
  have hcalls := calls_setStatus (n.setStream c.streamId { s with view := view }) i k .succeeded
  unfold add
  rw [hcalls]
  split
  · rename_i hik
    subst hik
    show n.calls[i]?.map _ = _
    rw [h.call]
    rfl
  · rfl

theorem members_add (id : StreamId) :
    (n.add i c s view).members id =
      if id = c.streamId then memberStep (n.members id) c.event else n.members id := by
  have hmembers := members_setStream (n := n) c.streamId id { s with view := view }
  show (n.setStream c.streamId { s with view := view }).members id = _
  rw [hmembers, replay_copyAndAddEvent h.add, Replay.members_concat, ← members_eq h.stream]
  split
  · rename_i hid
    rw [hid]
  · rfl

variable {id : StreamId}

theorem mem_members_add {address : Bytes}
    (hne : ∀ m, c.event.event.payload = .member (.membership m) → id = c.streamId →
      address ≠ m.userAddress) :
    address ∈ (n.add i c s view).members id ↔ address ∈ n.members id := by
  rw [members_add h]
  split
  · rename_i hid
    obtain ⟨m, hm⟩ | hno := membership_cases c.event
    · have haddress : m.userAddress ≠ address := (hne m hm hid).symm
      simp [mem_memberStep hm, haddress]
    · rw [memberStep_of_ne hno]
  · exact .rfl

theorem settled_add (hm : c.event.event.payload = .member (.membership m))
    (hspares : SparesMembers (n.members c.streamId) c.event) :
    (n.add i c s view).Settled m c.streamId := by
  unfold Settled
  rw [members_add h, if_pos rfl, mem_memberStep hm]
  by_cases hjoin : m.op = .join
  · simp [hjoin]
  · by_cases hleave : m.op = .leave
    · simp [hleave]
    · simp [hspares m hm hjoin hleave]

variable {target : StreamId}

theorem userJoined_add (hne : c.subject ≠ some (id, target.bytes)) :
    (n.add i c s view).UserJoined id target ↔ n.UserJoined id target := by
  have hjoined := userJoined_setStream (n := n) c.streamId id target { s with view := view }
  show (n.setStream c.streamId { s with view := view }).UserJoined id target ↔ _
  rw [hjoined]
  split
  · rename_i hid
    subst hid
    rw [userJoined_eq h.stream, getUserMembership_eq_replay,
      getUserMembership_eq_replay, replay_copyAndAddEvent h.add]
    rw [Replay.getUserMembership_concat_of_ne]
    intro um hum htarget
    rw [Call.subject_eq_some hum, htarget] at hne
    exact hne rfl
  · exact .rfl

theorem userJoined_add_self (hstream : StreamOk C c.streamId s)
    (htype : c.streamId.type? = some .user)
    (hum : c.event.event.payload = .user (.userMembership um))
    (htarget : target.bytes = um.streamId) :
    (n.add i c s view).UserJoined c.streamId target ↔ um.op = .join := by
  have hjoined := userJoined_setStream (n := n) c.streamId c.streamId target { s with view := view }
  obtain ⟨inception, hinception, htype'⟩ := hstream.inception
  rw [htype] at htype'
  have hplain : ∃ p, inception = .user p := by
    cases inception with
    | user p => exact ⟨p, rfl⟩
    | _ => cases htype'
  obtain ⟨p, rfl⟩ := hplain
  have hinception : s.view.replay.snapshot.getInceptionPayload = some (.user p) := hinception
  show (n.setStream c.streamId { s with view := view }).UserJoined c.streamId target ↔ _
  rw [hjoined, if_pos rfl, getUserMembership_eq_replay,
    replay_copyAndAddEvent h.add,
    Replay.getUserMembership_concat_self _ hum htarget.symm hinception, Res.ok.injEq]

omit h

theorem Inv.callOk_add (h : n.Inv C) (hadds : n.Adds i c s view) {k : Nat} (hik : i ≠ k)
    (hk : n.calls[k]? = some c') (hopen : c'.Open) : (n.add i c s view).CallOk k c' := by
  have hok := h.calls i c hadds.call hadds.isOpen
  cases h.calls k c' hk hopen with
  | @user um target m payload call =>
    -- the answers for this call change only when its own parent event is added
    have hkeeps : ∀ j, c'.status = j → j ≠ .awaiting i → n.Settled m target →
        (n.add i c s view).Settled m target := by
      intro j hj hne hsettled
      unfold Settled at hsettled ⊢
      rw [mem_members_add hadds, hsettled]
      intro m1 hm1 htarget haddress
      cases hok with
      | user payload1 _ =>
        rw [payload1] at hm1
        cases hm1
      | @member m2 payload1 call1 =>
        rw [payload1] at hm1
        cases hm1
        subst htarget
        exact hne (hj ▸ h.awaiting_of_userCall call1 hk hopen payload call haddress)
    refine .user payload ⟨call.type, call.address, call.target_eq, call.op_eq, call.requires, ?_⟩
    have hprogress := call.progress
    cases hstatus : c'.status with
    | awaiting j =>
      rw [hstatus] at hprogress
      obtain ⟨c1, hj, hstream, hpayload, hdone⟩ := hprogress
      by_cases hij : i = j
      · subst hij
        rw [hadds.call, some.injEq] at hj
        subst hj
        refine ⟨{ c with status := .succeeded }, by rw [calls_add hadds, if_pos rfl],
          hstream, hpayload,
          fun _ => ?_⟩
        cases hok with
        | user payload1 _ =>
          rw [payload1] at hpayload
          cases hpayload
        | member _ call1 => exact hstream ▸ settled_add hadds hpayload call1.spares
      · refine ⟨c1, by rw [calls_add hadds, if_neg hij, hj], hstream, hpayload, fun hs => ?_⟩
        exact hkeeps _ hstatus (fun heq => hij (by cases heq; rfl)) (hdone hs)
    | adding =>
      rw [hstatus] at hprogress
      exact hkeeps _ hstatus (by simp) hprogress
    | _ => trivial
  | @member m payload call =>
    refine .member payload ⟨?_, ?_, call.requires⟩
    · -- another open call for the same user would have the same caller
      intro m1 hm1 hjoin hleave
      rw [mem_members_add hadds]
      · exact call.spares m1 hm1 hjoin hleave
      intro m2 hm2 hstream haddress
      obtain ⟨k0, c0, um, hk0, hopen0, hstatus, hum, hcall⟩ := h.caller call
      cases hok with
      | user payload1 _ =>
        rw [payload1] at hm2
        cases hm2
      | member payload1 call1 =>
        rw [payload] at hm1
        cases hm1
        rw [payload1] at hm2
        cases hm2
        have hawaiting := h.awaiting_of_userCall call1 hk0 hopen0 hum (hstream ▸ hcall) haddress
        rw [hstatus] at hawaiting
        cases hawaiting
        exact hik rfl
    · -- the caller waits, so it is not the call that returns
      obtain ⟨k0, c0, um, hk0, hum, hstatus, hrequires⟩ := call.caller
      refine ⟨k0, c0, um, ?_, hum, hstatus, hrequires⟩
      rw [calls_add hadds, if_neg, hk0]
      rintro rfl
      rw [hadds.call, some.injEq] at hk0
      rw [← hk0, hadds.status] at hstatus
      cases hstatus

theorem CallOk.spares (h : n.CallOk i c) : SparesMembers (n.members c.streamId) c.event := by
  cases h with
  | user payload _ =>
    intro m hm
    rw [payload] at hm
    cases hm
  | member _ call => exact call.spares

theorem Inv.streams_add (h : n.Inv C) (hadds : n.Adds i c s view) :
    ∀ id s1, (n.add i c s view).streams id = some s1 → StreamOk C id s1 := by
  intro id s1 hs1
  replace hs1 : (n.setStream c.streamId { s with view := view }).streams id = some s1 := hs1
  rw [streams_setStream] at hs1
  split at hs1
  · rename_i hid
    subst hid
    cases hs1
    have hspares := (h.calls i c hadds.call hadds.isOpen).spares
    rw [members_eq hadds.stream] at hspares
    exact (h.streams _ s hadds.stream).add (h.decoded i c hadds.call) hspares hadds.add
  · exact h.streams id s1 hs1

variable {sid userStreamId : StreamId}

theorem Inv.agrees_add_self (h : n.Inv C) (hadds : n.Adds i c s view)
    (hsubject : c.subject = some (userStreamId, sid.bytes)) :
    (n.add i c s view).Agrees userStreamId sid := by
  intro address haddress _ _
  obtain ⟨_, hum⟩ := Call.exists_of_subject (by rw [hsubject]; rfl)
  cases h.calls i c hadds.call hadds.isOpen with
  | member payload _ =>
    rw [payload] at hum
    cases hum
  | @user um' target m payload call =>
    rw [Call.subject_eq_some payload, some.injEq, Prod.mk.injEq] at hsubject
    obtain ⟨rfl, hbytes⟩ := hsubject
    have htarget : sid = target := StreamId.ext (hbytes.symm.trans call.target_eq.symm)
    subst htarget
    have hsame : m.userAddress = address := Res.ok.inj (call.address.symm.trans haddress)
    -- the parent event is there: the call is about to add its own
    have hsettled : n.Settled m sid := by
      have hprogress := call.progress
      rw [hadds.status] at hprogress
      exact hprogress
    have hmember : address ∈ (n.add i c s view).members sid ↔ um'.op = .join := by
      rw [mem_members_add hadds, ← hsame, ← call.op_eq]
      · exact hsettled
      · intro m1 hm1
        rw [payload] at hm1
        cases hm1
    rw [isMember_iff (h.streams_add hadds), hmember]
    exact userJoined_add_self hadds (h.streams _ s hadds.stream) call.type payload call.target_eq

theorem Inv.agrees_add_of_ne (h : n.Inv C) (hadds : n.Adds i c s view)
    (htype : userStreamId.type? = some .user) (htakes : sid.TakesMemberships)
    (hnone : ∀ (k : Nat) (c' : Call), n.calls[k]? = some c' → c'.Open →
      c'.subject ≠ some (userStreamId, sid.bytes)) :
    (n.add i c s view).Agrees userStreamId sid := by
  intro address haddress huser hstream
  have hsome : ∀ id, ((n.add i c s view).streams id).isSome = (n.streams id).isSome :=
    fun id => isSome_setStream hadds.stream id { s with view := view }
  rw [hsome] at huser hstream
  have hmember : address ∈ (n.add i c s view).members sid ↔ address ∈ n.members sid := by
    refine mem_members_add hadds ?_
    intro m hm hid heq
    cases h.calls i c hadds.call hadds.isOpen with
    | user payload _ =>
      rw [payload] at hm
      cases hm
    | member payload call =>
      rw [payload] at hm
      cases hm
      -- the call that waits for this event is for the same user and the same stream
      obtain ⟨k, c0, _, hk, hopen, -, hum, hcall⟩ := h.caller call
      have hsame : c0.streamId = userStreamId :=
        userStreamId_unique hcall.type htype hcall.address (heq ▸ haddress)
      refine hnone k c0 hk hopen ?_
      rw [Call.subject_eq_some hum, hsame, ← hcall.target_eq, hid]
  rw [userJoined_add hadds (hnone i c hadds.call hadds.isOpen), isMember_iff (h.streams_add hadds),
    hmember, ← isMember_iff h.streams]
  exact h.agrees userStreamId sid htype htakes hnone address haddress huser hstream

theorem Inv.add (h : n.Inv C) (hadds : n.Adds i c s view) : (n.add i c s view).Inv C := by
  -- a call that is open now is not the one that returned
  have hold : ∀ (k : Nat) (c' : Call), (n.add i c s view).calls[k]? = some c' → c'.Open →
      i ≠ k ∧ n.calls[k]? = some c' := by
    intro k c' hk hopen
    rw [calls_add hadds] at hk
    split at hk
    · cases hk
      exact absurd rfl hopen.1
    · rename_i hik
      exact ⟨hik, hk⟩
  refine ⟨h.streams_add hadds, ?_, ?_, ?_, ?_⟩
  · intro k c' hk
    rw [calls_add hadds] at hk
    split at hk
    · cases hk
      exact h.decoded i c hadds.call
    · exact h.decoded k c' hk
  · intro k c' hk hopen
    obtain ⟨hik, hk⟩ := hold k c' hk hopen
    exact h.callOk_add hadds hik hk hopen
  · intro k j c1 c2 hk hj hopen1 hopen2 hsome hsubject
    exact h.alone k j c1 c2 (hold k c1 hk hopen1).2 (hold j c2 hj hopen2).2 hopen1 hopen2
      hsome hsubject
  · intro userStreamId sid htype htakes hnone
    by_cases hsubject : c.subject = some (userStreamId, sid.bytes)
    · exact h.agrees_add_self hadds hsubject
    refine h.agrees_add_of_ne hadds htype htakes ?_
    intro k c' hk hopen
    by_cases hik : i = k
    · subst hik
      rw [hadds.call, some.injEq] at hk
      exact hk ▸ hsubject
    · refine hnone k c' ?_ hopen
      rw [calls_add hadds, if_neg hik, hk]

end Adds

/-! ## Runs -/

section Runs

variable {C : Crypto} {cfg : StreamConfig} {n n' : Network} {a : NetworkAction}

theorem Failed.setStatus (h : n.Failed) {i : Nat} (hi : n.calls[i]? = some c)
    (hc : c.status ≠ .failed) (status : CallStatus) : (n.setStatus i status).Failed := by
  rcases h with hrejected | ⟨c', hc', hfailed⟩
  · exact .inl hrejected
  obtain ⟨k, hk⟩ := List.mem_iff_getElem?.1 hc'
  refine .inr ⟨c', List.mem_iff_getElem?.2 ⟨k, ?_⟩, hfailed⟩
  rw [calls_setStatus, if_neg, hk]
  rintro rfl
  rw [hi, some.injEq] at hk
  exact hc (hk ▸ hfailed)

theorem Failed.begin (h : n.Failed) (s : History) (heap : Heap) (c : Call) :
    (n.begin s heap c).Failed := by
  rcases h with hrejected | ⟨c', hc', hfailed⟩
  · exact .inl hrejected
  · exact .inr ⟨c', List.mem_append_left _ hc', hfailed⟩

variable {started : Option Call}

theorem Failed.step (h : n.Failed) (hstep : NetworkStep C cfg n a n' started) : n'.Failed := by
  cases hstep with
  | failed failed => exact failed
  | addEvent _ => exact h.begin _ _ _
  | getLastMiniblockHash call status => exact h.setStatus call (by simp [status]) _
  | addEventPayload call status _ _ =>
    exact (h.begin _ _ _).setStatus (calls_begin.2 (.inl call)) (by simp [status]) _
  | await call status _ _ => exact h.setStatus call (by simp [status]) _
  | @streamAddEvent i c s view call status _ _ =>
    have hcalls : (n.setStream c.streamId { s with view := view }).Failed := h
    exact hcalls.setStatus call (by simp [status]) _
  | _ => exact h

theorem Inv.step (h : n.Inv C) (hstep : NetworkStep C cfg n a n' started)
    (hrequests : ∀ sid envelope answers, a = .addEvent sid envelope answers →
      ∀ c ∈ started, c.subject.isSome)
    (halone : ∀ c ∈ started, c.Open → c.subject.isSome →
      ∀ c' ∈ n.calls, c'.Open → c'.subject ≠ c.subject) : n'.Failed ∨ n'.Inv C := by
  cases hstep with
  | failed failed => exact .inl failed
  | idle => exact .inr h
  | addEvent begins =>
    right
    exact h.begin begins (hrequests _ _ _ rfl _ rfl) (halone _ rfl)
  | getLastMiniblockHash call status =>
    right
    refine h.setStatus call (by simp [Call.Open, status]) (by simp [Call.Open]) ?_ ?_
    · intro j c' hawaiting
      rw [status] at hawaiting
      cases hawaiting
    · exact fun _ _ _ _ => trivial
  | addEventPayload call status requires begins =>
    right
    exact h.beginNested call status requires begins (halone _ rfl)
  | await call status nested returned =>
    right
    refine h.setStatus call (by simp [Call.Open, status]) (by simp [Call.Open]) ?_ ?_
    · intro k c1 hawaiting hk hopen
      rw [status, CallStatus.awaiting.injEq] at hawaiting
      subst hawaiting
      rw [nested, some.injEq] at hk
      exact hopen.1 (hk ▸ returned)
    · intro um target m hcall
      have hprogress := hcall.progress
      rw [status] at hprogress
      obtain ⟨c1, hj, -, -, hdone⟩ := hprogress
      rw [nested, some.injEq] at hj
      exact hdone (hj ▸ returned)
  | streamAddEvent call status stream add => exact .inr (h.add ⟨call, status, stream, add⟩)
  | makeMiniblock stream step =>
    exact .inr (h.makeMiniblock stream (step (h.streams _ _ stream).decoded))

theorem Inv.exec (h : n.Inv C) (acts : List NetworkAction)
    (hrequests : (networkMachine C cfg).Along (RequestsMembership C cfg) n acts)
    (halone : (networkMachine C cfg).Along (ServedAlone C cfg) n acts) :
    ((networkMachine C cfg).exec n acts).Failed ∨ ((networkMachine C cfg).exec n acts).Inv C := by
  refine Machine.exec_invariant_along (I := fun n => n.Failed ∨ n.Inv C) ?_ (.inr h)
    (hrequests.and halone)
  rintro n a (hfailed | hinv) ⟨hrequests, halone⟩
  · exact .inl (hfailed.step (Network.step a))
  · refine hinv.step (Network.step a) ?_ halone
    rintro _ _ _ rfl
    exact hrequests

theorem Inv.init (hcalls : n.calls = [])
    (hcreated : ∀ sid s, n.streams sid = some s → Created C sid s)
    (hagree : n.Agreement) : n.Inv C := by
  have hnone : ∀ (i : Nat) (c : Call), n.calls[i]? ≠ some c := by
    intro i c hi
    rw [hcalls] at hi
    cases hi
  refine ⟨fun id s hs => (hcreated id s hs).streamOk, ?_, ?_, ?_, ?_⟩
  · exact fun i c hi => absurd hi (hnone i c)
  · exact fun i c hi => absurd hi (hnone i c)
  · exact fun i j c c' hi => absurd hi (hnone i c)
  · exact fun userStreamId sid htype htakes _ => hagree userStreamId sid htype htakes

end Runs

end Network

/-- **Agreement of memberships.** Let the streams of a network agree, and let requests for user
    memberships interleave such that no call for a user and a stream begins while another one is
    open. Whenever all calls have returned without an error, a user's stream lists a stream as
    joined exactly if the user is a member of it. -/
theorem membership_agreement (C : Crypto) (cfg : StreamConfig) (n : Network)
    (acts : List NetworkAction) (hcalls : n.calls = [])
    (hcreated : ∀ sid s, n.streams sid = some s → Created C sid s) (hagree : n.Agreement)
    (hrequests : (networkMachine C cfg).Along (RequestsMembership C cfg) n acts)
    (halone : (networkMachine C cfg).Along (ServedAlone C cfg) n acts)
    (hdone : ((networkMachine C cfg).exec n acts).AllSucceeded) :
    ((networkMachine C cfg).exec n acts).Agreement := by
  obtain ⟨_, hsucceeded⟩ := hdone
  rcases (Network.Inv.init hcalls hcreated hagree).exec acts hrequests halone with hfailed | hinv
  · rcases hfailed with hfailed | ⟨c, hc, hfailed⟩
    · omega
    · rw [hsucceeded c hc] at hfailed
      cases hfailed
  · intro userStreamId sid htype htakes
    refine hinv.agrees userStreamId sid htype htakes ?_
    intro i c hi hopen
    exact absurd (hsucceeded c (List.mem_iff_getElem?.2 ⟨i, hi⟩)) hopen.1

/-! ## Sample runs -/

instance (C : Crypto) (cfg : StreamConfig) (n : Network) :
    ∀ a, Decidable (RequestsMembership C cfg n a)
  | .addEvent _ _ _ => inferInstanceAs (Decidable (∀ c ∈ (networkMachine C cfg).out n _, _))
  | .getLastMiniblockHash _ | .addEventPayload _ _ _ _ | .await _ | .streamAddEvent _
  | .makeMiniblock _ _ _ _ _ _ => .isTrue trivial

instance (C : Crypto) (cfg : StreamConfig) (n : Network) (a : NetworkAction) :
    Decidable (ServedAlone C cfg n a) :=
  inferInstanceAs (Decidable (∀ c ∈ (networkMachine C cfg).out n a, _))

namespace Network

instance (n : Network) : Decidable n.AllSucceeded := inferInstanceAs (Decidable (_ ∧ _))

instance (n : Network) (userStreamId sid : StreamId) : Decidable (n.UserJoined userStreamId sid) :=
  decidable_of_iff ((n.streams userStreamId).map (·.view.getUserMembership sid) =
    some (.ok .join)) map_eq_some_iff

instance (n : Network) (sid : StreamId) (address : Bytes) : Decidable (n.IsMember sid address) :=
  decidable_of_iff ((n.streams sid).map (·.view.isMember address) = some (.ok true))
    map_eq_some_iff

end Network

def sampleUserId : StreamId :=
  ⟨StreamType.user.bin :: (sampleAddress 1 ++ List.replicate 11 0), by decide⟩

def sampleUser : Creation :=
  sampleCreation sampleUserId
    [Rules.sampleEvent (.user (.inception ⟨sampleUserId.bytes, none⟩)) 1 0]
    fun _ => none

theorem sampleSpaceId_ok :
    checkExpectedLength (StreamType.space.bin :: List.replicate 31 0) = .ok () := by decide

def sampleSpaceId : StreamId := sampleId .space sampleSpaceId_ok

def sampleSpace : Creation :=
  sampleCreation sampleSpaceId
    [Rules.sampleEvent (.space (.inception ⟨sampleSpaceId.bytes, none⟩)) 1 0, sampleJoin 1 1]
      fun _ => none

def sampleUserMembership (s : History) (op : MembershipOp) (salt : Fin 256) : Envelope :=
  makeEnvelopeWithEvent .salted Heap.empty
    (makeStreamEvent .salted (.user (.userMembership ⟨sampleSpaceId.bytes, op, none, none⟩))
      (some s.view.lastBlock.hash) [salt] 0)

def sampleStreams : Res (History × History) := do
  let user ← sampleUser.createStream
  let space ← sampleSpace.createStream
  .ok ((historyMachine .salted sampleUser.cfg.stream).exec user
    [.addEvent (sampleUserMembership user .join 31) [sampleAddress 1] 0], space)

def sampleNetwork (user space : History) : Network where
  streams id :=
    if id = sampleUserId then some user else if id = sampleSpaceId then some space else none
  calls := []
  rejected := 0

def sampleRequest (user : History) (op : MembershipOp) (salt : Fin 256) : NetworkAction :=
  .addEvent sampleUserId (sampleUserMembership user op salt) ⟨0, [sampleAddress 1], true⟩

def sampleParent (call : Nat) (salt : Fin 256) : List NetworkAction :=
  [.getLastMiniblockHash call, .addEventPayload call [salt] 0 ⟨0, [sampleAddress 1], true⟩]

def sampleLeave (user : History) : List NetworkAction :=
  [sampleRequest user .leave 41] ++ sampleParent 0 42 ++
    [.streamAddEvent 1, .await 0, .streamAddEvent 0]

def sampleOverlap (user : History) : List NetworkAction :=
  [sampleRequest user .leave 41, sampleRequest user .leave 51] ++
    sampleParent 0 42 ++ [.streamAddEvent 2, .await 0] ++
    sampleParent 1 52 ++ [.await 1, .streamAddEvent 0] ++
    [sampleRequest user .join 61] ++ sampleParent 4 62 ++
    [.streamAddEvent 5, .await 4, .streamAddEvent 4, .streamAddEvent 1]

variable {space user : History}

theorem sampleNetwork_created (h : sampleStreams = .ok (user, space)) :
    ∀ sid s, (sampleNetwork user space).streams sid = some s →
      Created .salted sid s := by
  obtain ⟨user0, huser, h⟩ := Res.bind_eq_ok.1 h
  obtain ⟨_, hspace, h⟩ := Res.bind_eq_ok.1 h
  cases h
  intro sid s hs
  simp only [sampleNetwork] at hs
  split at hs
  · rename_i hid
    cases hs
    exact ⟨sampleUser, user0, _, _, rfl, hid.symm, huser, rfl⟩
  · split at hs
    · rename_i hid
      cases hs
      exact ⟨sampleSpace, space, sampleSpace.cfg.stream, [], rfl, hid.symm, hspace, rfl⟩
    · cases hs

theorem sampleNetwork_agreement
    (huser : (sampleNetwork user space).UserJoined sampleUserId sampleSpaceId)
    (hmember : (sampleNetwork user space).IsMember sampleSpaceId (sampleAddress 1)) :
    (sampleNetwork user space).Agreement := by
  have hids : ∀ id, ((sampleNetwork user space).streams id).isSome →
      id = sampleUserId ∨ id = sampleSpaceId := by
    intro id hid
    simp only [sampleNetwork] at hid
    split at hid
    · exact .inl ‹_›
    · split at hid
      · exact .inr ‹_›
      · cases hid
  intro userStreamId sid htype htakes address haddress hsome hsome'
  rcases hids userStreamId hsome with rfl | rfl
  · rcases hids sid hsome' with rfl | rfl
    · exact absurd htakes (by decide)
    have hsame : sampleAddress 1 = address := by
      have hown : getUserAddressFromStreamId sampleUserId = .ok (sampleAddress 1) := by decide
      exact Res.ok.inj (hown.symm.trans haddress)
    exact iff_of_true huser (hsame ▸ hmember)
  · exact absurd htype (by decide)

theorem membership_agreement_leave :
    ∃ user space, sampleStreams = .ok (user, space) ∧
      ((networkMachine .salted sampleUser.cfg.stream).exec (sampleNetwork user space)
        (sampleLeave user)).Agreement := by
  obtain ⟨user, space, hstreams, huser, hmember, hrequests, halone, hdone⟩ :
    ∃ user space, sampleStreams = .ok (user, space) ∧
      let n := sampleNetwork user space
      let machine := networkMachine .salted sampleUser.cfg.stream
      n.UserJoined sampleUserId sampleSpaceId ∧ n.IsMember sampleSpaceId (sampleAddress 1) ∧
        machine.Along (RequestsMembership .salted sampleUser.cfg.stream) n (sampleLeave user) ∧
        machine.Along (ServedAlone .salted sampleUser.cfg.stream) n (sampleLeave user) ∧
        (machine.exec n (sampleLeave user)).AllSucceeded := by decide +kernel
  exact ⟨user, space, hstreams, membership_agreement .salted _ _ _ rfl
    (sampleNetwork_created hstreams) (sampleNetwork_agreement huser hmember) hrequests halone hdone⟩

/-- Requests that overlap: all calls return without an error, the user's stream says that the
    user has left, and the user is a member. -/
theorem membership_disagreement :
    ∃ (n : Network) (acts : List NetworkAction), n.calls = [] ∧
      (∀ sid s, n.streams sid = some s → Created .salted sid s) ∧ n.Agreement ∧
      (networkMachine .salted sampleUser.cfg.stream).Along
        (RequestsMembership .salted sampleUser.cfg.stream) n acts ∧
      ((networkMachine .salted sampleUser.cfg.stream).exec n acts).AllSucceeded ∧
      ¬((networkMachine .salted sampleUser.cfg.stream).exec n acts).Agreement := by
  obtain ⟨user, space, hstreams, huser, hmember, hrequests, hdone, hleft, hstays, hsome, hsome'⟩ :
    ∃ user space, sampleStreams = .ok (user, space) ∧
      let n := sampleNetwork user space
      let machine := networkMachine .salted sampleUser.cfg.stream
      let n' := machine.exec n (sampleOverlap user)
      n.UserJoined sampleUserId sampleSpaceId ∧ n.IsMember sampleSpaceId (sampleAddress 1) ∧
        machine.Along (RequestsMembership .salted sampleUser.cfg.stream) n (sampleOverlap user) ∧
        n'.AllSucceeded ∧ ¬n'.UserJoined sampleUserId sampleSpaceId ∧
        n'.IsMember sampleSpaceId (sampleAddress 1) ∧ (n'.streams sampleUserId).isSome = true ∧
        (n'.streams sampleSpaceId).isSome = true := by decide +kernel
  refine ⟨sampleNetwork user space, sampleOverlap user, rfl, sampleNetwork_created hstreams,
    sampleNetwork_agreement huser hmember, hrequests, hdone, ?_⟩
  intro hagree
  exact hleft
    ((hagree sampleUserId sampleSpaceId (by decide) (by decide) (sampleAddress 1) (by decide)
    hsome hsome').2 hstays)

end River.Node
