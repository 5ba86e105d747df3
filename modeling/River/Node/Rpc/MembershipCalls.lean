/-
  Open calls for memberships, and the steps of a network that add no event.
-/

import River.Node.Rpc.Network

namespace River.Node

open River.Lib Rules Option

/-! ## Agreement -/

def StreamId.TakesMemberships (id : StreamId) : Prop :=
  id.type? ∈ [some .space, some .channel, some .dmChannel, some .gdmChannel]

instance (id : StreamId) : Decidable id.TakesMemberships :=
  inferInstanceAs (Decidable (_ ∈ _))

namespace Network

variable (n : Network)

def UserJoined (userStreamId sid : StreamId) : Prop :=
  ∃ s, n.streams userStreamId = some s ∧ s.view.getUserMembership sid = .ok .join

def IsMember (sid : StreamId) (address : Bytes) : Prop :=
  ∃ s, n.streams sid = some s ∧ s.view.isMember address = .ok true

def Agrees (userStreamId sid : StreamId) : Prop :=
  ∀ address, getUserAddressFromStreamId userStreamId = .ok address →
    (n.streams userStreamId).isSome → (n.streams sid).isSome →
      (n.UserJoined userStreamId sid ↔ n.IsMember sid address)

/-- User streams agree with the streams they name. -/
def Agreement : Prop :=
  ∀ userStreamId sid : StreamId, userStreamId.type? = some .user →
    sid.TakesMemberships → n.Agrees userStreamId sid

/-- Every call was made and succeeded. -/
def AllSucceeded : Prop := n.rejected = 0 ∧ ∀ c ∈ n.calls, c.status = .succeeded

end Network

def Call.subject (c : Call) : Option (StreamId × Bytes) :=
  match c.event.event.payload with
  | .user (.userMembership um) => some (c.streamId, um.streamId)
  | _ => none

/-- An event that makes a call is about a membership. -/
def RequestsMembership (C : Crypto) (cfg : StreamConfig) (n : Network) (a : NetworkAction) : Prop :=
  match a with
  | .addEvent _ _ _ => ∀ c ∈ (networkMachine C cfg).out n a, c.subject.isSome
  | _ => True

/-- No two open calls are about one membership. -/
def ServedAlone (C : Crypto) (cfg : StreamConfig) (n : Network) (a : NetworkAction) : Prop :=
  ∀ c ∈ (networkMachine C cfg).out n a, c.Open → c.subject.isSome →
    ∀ c' ∈ n.calls, c'.Open → c'.subject ≠ c.subject

variable {um : UserMembership}

theorem Call.subject_eq_some {c : Call} (h : c.event.event.payload = .user (.userMembership um)) :
    c.subject = some (c.streamId, um.streamId) := by
  simp [subject, h]

theorem Call.exists_of_subject {c : Call} (h : c.subject.isSome) :
    ∃ um, c.event.event.payload = .user (.userMembership um) := by
  unfold subject at h
  split at h
  · rename_i um hum
    exact ⟨um, hum⟩
  · cases h

/-! ## The invariant -/

variable {i k : Nat} {m : Membership} {c' : Call} {status : CallStatus}

namespace Network

def members (n : Network) (sid : StreamId) : Finset Bytes :=
  ((n.streams sid).map (·.view.replay.members)).getD ∅

def Settled (n : Network) (m : Membership) (target : StreamId) : Prop :=
  m.userAddress ∈ n.members target ↔ m.op = .join

def Progress (n : Network) (m : Membership) (target : StreamId) : CallStatus → Prop
  | .awaiting j => ∃ c : Call, n.calls[j]? = some c ∧ c.streamId = target ∧
      c.event.event.payload = .member (.membership m) ∧ (c.status = .succeeded → n.Settled m target)
  | .adding => n.Settled m target
  | _ => True

structure UserCall (n : Network) (c : Call) (um : UserMembership) (target : StreamId)
    (m : Membership) : Prop where
  type : c.streamId.type? = some .user
  address : getUserAddressFromStreamId c.streamId = .ok m.userAddress
  target_eq : target.bytes = um.streamId
  op_eq : m.op = um.op
  requires : c.requiredParentEvent = some ⟨.member (.membership m), target⟩
  progress : n.Progress m target c.status

structure MemberCall (n : Network) (i : Nat) (c : Call) (m : Membership) : Prop where
  spares : SparesMembers (n.members c.streamId) c.event
  caller : ∃ (k : Nat) (c' : Call) (um : UserMembership), n.calls[k]? = some c' ∧
    c'.event.event.payload = .user (.userMembership um) ∧ c'.status = .awaiting i ∧
    c'.requiredParentEvent = some ⟨.member (.membership m), c.streamId⟩
  requires : ∀ parent ∈ c.requiredParentEvent, ∃ um, parent.payload = .user (.userMembership um)

inductive CallOk (n : Network) (i : Nat) (c : Call) : Prop where
  | user {um : UserMembership} {target : StreamId} {m : Membership}
      (payload : c.event.event.payload = .user (.userMembership um))
      (call : n.UserCall c um target m)
  | member {m : Membership} (payload : c.event.event.payload = .member (.membership m))
      (call : n.MemberCall i c m)

structure Inv (C : Crypto) (n : Network) : Prop where
  streams : ∀ sid s, n.streams sid = some s → StreamOk C sid s
  decoded : ∀ (i : Nat) (c : Call), n.calls[i]? = some c → c.event.Decoded C
  calls : ∀ (i : Nat) (c : Call), n.calls[i]? = some c → c.Open → n.CallOk i c
  alone : ∀ (i j : Nat) (c c' : Call), n.calls[i]? = some c → n.calls[j]? = some c' → c.Open →
    c'.Open → c.subject.isSome → c.subject = c'.subject → i = j
  agrees : ∀ userStreamId sid : StreamId, userStreamId.type? = some .user →
    sid.TakesMemberships →
      (∀ (i : Nat) (c : Call), n.calls[i]? = some c → c.Open →
        c.subject ≠ some (userStreamId, sid.bytes)) →
      n.Agrees userStreamId sid

section Questions

variable {C : Crypto} {n : Network}

theorem members_eq (h : n.streams sid = some s) : n.members sid = s.view.replay.members := by
  simp [members, h]

theorem streams_setStream (sid id : StreamId) (s : History) :
    (n.setStream sid s).streams id = if id = sid then some s else n.streams id := by
  unfold setStream
  by_cases h : id = sid
  · subst h
    simp
  · simp [h]

theorem members_setStream (sid id : StreamId) (s : History) :
    (n.setStream sid s).members id =
      if id = sid then s.view.replay.members else n.members id := by
  unfold members
  rw [streams_setStream]
  split <;> rfl

theorem isSome_setStream (h : n.streams sid = some s0) (id : StreamId) (s : History) :
    ((n.setStream sid s).streams id).isSome = (n.streams id).isSome := by
  rw [streams_setStream]
  split
  · rename_i hid
    rw [hid, h]
    rfl
  · rfl

theorem userJoined_setStream (sid id target : StreamId) (s : History) :
    (n.setStream sid s).UserJoined id target ↔
      if id = sid then s.view.getUserMembership target = .ok .join
      else n.UserJoined id target := by
  unfold UserJoined
  simp only [streams_setStream]
  split <;> simp

theorem userJoined_eq {id : StreamId} {s : History} (h : n.streams id = some s)
    (target : StreamId) : n.UserJoined id target ↔ s.view.getUserMembership target = .ok .join := by
  simp [UserJoined, h]

theorem isMember_iff (h : ∀ sid s, n.streams sid = some s → StreamOk C sid s)
    (sid : StreamId) (address : Bytes) :
    n.IsMember sid address ↔ address ∈ n.members sid := by
  unfold IsMember
  cases hs : n.streams sid with
  | none => simp [members, hs]
  | some s =>
    rw [members_eq hs]
    have hmember := (h sid s hs).sound.isMember address
    rw [← StreamView.isMember_eq_replay] at hmember
    simp [hmember]

end Questions

/-! ## Who waits for whom -/

section Callers

variable {C : Crypto} {n : Network}

theorem Inv.caller (h : n.Inv C) (hc : n.MemberCall i c m) :
    ∃ (k : Nat) (c' : Call) (um : UserMembership), n.calls[k]? = some c' ∧ c'.Open ∧
      c'.status = .awaiting i ∧ c'.event.event.payload = .user (.userMembership um) ∧
      n.UserCall c' um c.streamId m := by
  obtain ⟨k, c', um, hk, hum, hstatus, hrequires⟩ := hc.caller
  have hopen : c'.Open := by simp [Call.Open, hstatus]
  refine ⟨k, c', um, hk, hopen, hstatus, hum, ?_⟩
  cases h.calls k c' hk hopen with
  | user payload call =>
    have hpayload := payload.symm.trans hum
    injection hpayload with hpayload
    injection hpayload with hpayload
    have hparent := call.requires.symm.trans hrequires
    obtain ⟨rfl, rfl⟩ := hparent
    exact hpayload ▸ call
  | member payload call =>
    rw [hum] at payload
    cases payload

theorem Inv.awaiting_of_userCall (h : n.Inv C) (hc : n.MemberCall i c m)
    (hk : n.calls[k]? = some c') (hopen : c'.Open)
    (hum : c'.event.event.payload = .user (.userMembership um))
    (hcall : n.UserCall c' um c.streamId m') (haddress : m'.userAddress = m.userAddress) :
    c'.status = .awaiting i := by
  obtain ⟨k0, c0, _, hk0, hopen0, hstatus, hum0, hcall0⟩ := h.caller hc
  -- the address gives the user's stream, so the two calls have the same subject
  have hstream : c'.streamId = c0.streamId :=
    userStreamId_unique hcall.type hcall0.type (haddress ▸ hcall.address) hcall0.address
  have hsubject : c'.subject = c0.subject := by
    rw [Call.subject_eq_some hum, Call.subject_eq_some hum0, hstream, ← hcall.target_eq,
      ← hcall0.target_eq]
  have hsome : c'.subject.isSome := by
    rw [Call.subject_eq_some hum]
    rfl
  obtain rfl := h.alone k k0 c' c0 hk hk0 hopen hopen0 hsome hsubject
  rw [hk, some.injEq] at hk0
  rw [hk0]
  exact hstatus

end Callers

/-! ## Steps that add no event -/

inductive Advances (n : Network) (c : Call) : Call → Prop where
  | stays : Advances n c c
  | moves {status : CallStatus} (wasOpen : c.Open) (isOpen : Call.Open { c with status := status })
      (waited : ∀ (j : Nat) (c' : Call), c.status = .awaiting j →
        n.calls[j]? = some c' → ¬c'.Open) :
      Advances n c { c with status := status }

structure SameAnswers (n n' : Network) : Prop where
  isSome : ∀ id, (n'.streams id).isSome = (n.streams id).isSome
  members : ∀ id, n'.members id = n.members id
  userJoined : ∀ id target, n'.UserJoined id target ↔ n.UserJoined id target

structure Moves (n n' : Network) : Prop extends SameAnswers n n' where
  calls : ∀ (j : Nat) (c : Call), n.calls[j]? = some c → ∃ c', n'.calls[j]? = some c' ∧
    n.Advances c c'

section Moves

variable {C : Crypto} {n n' : Network}

theorem Moves.progress (h : n.Moves n') (hp : n.Progress m target status) :
    n'.Progress m target status := by
  have hsettled : n.Settled m target → n'.Settled m target := by
    unfold Settled
    rw [h.members]
    exact id
  cases status with
  | awaiting j =>
    obtain ⟨c, hc, hstream, hpayload, hdone⟩ := hp
    obtain ⟨c', hc', hadvances⟩ := h.calls j c hc
    refine ⟨c', hc', ?_⟩
    cases hadvances with
    | stays => exact ⟨hstream, hpayload, fun hs => hsettled (hdone hs)⟩
    | moves _ isOpen _ => exact ⟨hstream, hpayload, fun hs => absurd hs isOpen.1⟩
  | adding => exact hsettled hp
  | _ => trivial

theorem Moves.callOk (h : n.Moves n') (hi : n.calls[i]? = some c) (hopen : c.Open)
    (hok : n.CallOk i c)
    (hprogress : ∀ um target m, n.UserCall c um target m → n'.Progress m target status) :
    n'.CallOk i { c with status := status } := by
  cases hok with
  | user payload call =>
    exact .user payload ⟨call.type, call.address, call.target_eq, call.op_eq, call.requires,
      hprogress _ _ _ call⟩
  | member payload call =>
    refine .member payload ⟨?_, ?_, call.requires⟩
    · rw [h.members]
      exact call.spares
    -- the call that waits for an open call does not move
    obtain ⟨k, c0, um, hk, hum, hstatus, hrequires⟩ := call.caller
    obtain ⟨_, hk', hadvances⟩ := h.calls k c0 hk
    cases hadvances with
    | stays => exact ⟨k, c0, um, hk', hum, hstatus, hrequires⟩
    | moves _ _ waited => exact absurd hopen (waited i c hstatus hi)

theorem Moves.callOk_self (h : n.Moves n') (hi : n.calls[i]? = some c) (hopen : c.Open)
    (hok : n.CallOk i c) : n'.CallOk i c :=
  h.callOk hi hopen hok fun _ _ _ call => h.progress call.progress

theorem Advances.subject_eq (h : n.Advances c c') : c'.subject = c.subject := by
  cases h with
  | _ => rfl

theorem Advances.open_iff (h : n.Advances c c') : c'.Open ↔ c.Open := by
  cases h with
  | stays => exact .rfl
  | moves wasOpen isOpen _ => exact ⟨fun _ => wasOpen, fun _ => isOpen⟩

theorem Advances.event_eq (h : n.Advances c c') : c'.event = c.event := by
  cases h with
  | _ => rfl

def BeginsWith (C : Crypto) (n n' : Network) (started : Option Call) : Prop :=
  ∀ (k : Nat) (c : Call), n'.calls[k]? = some c → n.calls[k]? = none →
    k = n.calls.length ∧ started = some c ∧ c.event.Decoded C

theorem Inv.moves (h : n.Inv C) (hmoves : n.Moves n') (started : Option Call)
    (hstreams : ∀ sid s, n'.streams sid = some s → StreamOk C sid s)
    (hbegins : BeginsWith C n n' started)
    (hcalls : ∀ (k : Nat) (c : Call), n'.calls[k]? = some c → c.Open →
      n.calls[k]? = some c ∨ n'.CallOk k c)
    (halone : ∀ c ∈ started, c.Open → c.subject.isSome →
      ∀ c' ∈ n.calls, c'.Open → c'.subject ≠ c.subject) : n'.Inv C := by
  -- a call is one of those before the step, or the one that begins
  have hcases : ∀ (k : Nat) (c : Call), n'.calls[k]? = some c →
      (∃ c0, n.calls[k]? = some c0 ∧ n.Advances c0 c) ∨
        (k = n.calls.length ∧ started = some c ∧ c.event.Decoded C) := by
    intro k c hk
    cases hold : n.calls[k]? with
    | none => exact .inr (hbegins k c hk hold)
    | some c0 =>
      obtain ⟨c', hk', hadvances⟩ := hmoves.calls k c0 hold
      rw [hk, some.injEq] at hk'
      exact .inl ⟨c0, rfl, hk' ▸ hadvances⟩
  refine ⟨hstreams, ?_, ?_, ?_, ?_⟩
  · intro k c hk
    rcases hcases k c hk with ⟨c0, hk0, hadvances⟩ | ⟨-, -, hdecoded⟩
    · rw [hadvances.event_eq]
      exact h.decoded k c0 hk0
    · exact hdecoded
  · intro k c hk hopen
    rcases hcalls k c hk hopen with hk0 | hok
    · exact hmoves.callOk_self hk0 hopen (h.calls k c hk0 hopen)
    · exact hok
  · intro i j c c' hi hj hopen hopen' hsome hsubject
    rcases hcases i c hi with ⟨c0, hi0, hadv⟩ | ⟨hi0, hstarted, -⟩
    · rcases hcases j c' hj with ⟨c0', hj0, hadv'⟩ | ⟨hj0, hstarted, -⟩
      · rw [hadv.subject_eq] at hsome hsubject
        rw [hadv'.subject_eq] at hsubject
        exact h.alone i j c0 c0' hi0 hj0 (hadv.open_iff.1 hopen) (hadv'.open_iff.1 hopen') hsome
          hsubject
      · -- the call that begins is alone
        refine absurd ?_ (halone c' hstarted hopen' (hsubject ▸ hsome) c0
          (List.mem_iff_getElem?.2 ⟨i, hi0⟩) (hadv.open_iff.1 hopen))
        rw [← hadv.subject_eq, hsubject]
    · rcases hcases j c' hj with ⟨c0', hj0, hadv'⟩ | ⟨hj0, -, -⟩
      · refine absurd ?_ (halone c hstarted hopen hsome c0'
          (List.mem_iff_getElem?.2 ⟨j, hj0⟩) (hadv'.open_iff.1 hopen'))
        rw [← hadv'.subject_eq, hsubject]
      · rw [hi0, hj0]
  · -- with no call open now, none was open before
    intro userStreamId sid htype htakes hnone address haddress huser hstream
    have hbefore : n.Agrees userStreamId sid := by
      refine h.agrees userStreamId sid htype htakes ?_
      intro i c hi hopen hsubject
      obtain ⟨c', hi', hadvances⟩ := hmoves.calls i c hi
      refine hnone i c' hi' (hadvances.open_iff.2 hopen) ?_
      rw [hadvances.subject_eq, hsubject]
    rw [hmoves.isSome] at huser hstream
    rw [hmoves.userJoined, isMember_iff hstreams, hmoves.members, ← isMember_iff h.streams]
    exact hbefore address haddress huser hstream

end Moves

/-! ## Calls that begin -/

end Network

variable {parent : RequiredParentEvent} {hash salt : Bytes} {epochMillis : Int}

section Begins

variable {C : Crypto} {cfg : StreamConfig} {n : Network} {sid : StreamId} {envelope : Envelope}
  {c : Call} {s : History} {heap : Heap}

namespace Begins

variable (h : Begins C cfg n sid envelope c s heap)

include h

theorem decoded : c.event.Decoded C :=
  .of_parseEvent h.parsed

theorem step : HistoryStep C cfg s ⟨s.view, heap, s.nextRef + 1⟩ none := by
  obtain ⟨nodes, time, hanswer⟩ := h.answer
  have hasked := canAddEvent_asked ⟨cfg, nodes, time, s.view, c.event⟩ s.heap
  refine .asked ?_ (Nat.le_succ _)
  rcases hanswer with ⟨-, hanswer⟩ | ⟨_, -, hanswer⟩
  · rw [hanswer] at hasked
    exact hasked
  · rw [hanswer] at hasked
    exact hasked

theorem accepted (hopen : c.Open) :
    ∃ nodes time auth,
      c.status = (if c.requiredParentEvent.isSome then .getLastMiniblockHash else .adding) ∧
      canAddEvent ⟨cfg, nodes, time, s.view, c.event⟩ s.heap =
        (.ok (some (auth, c.requiredParentEvent)), heap) := by
  obtain ⟨nodes, time, ⟨hstatus, -⟩ | ⟨auth, hanswer⟩⟩ := h.answer
  · exact absurd hstatus hopen.1
  · exact ⟨nodes, time, auth, hanswer⟩

theorem userCall (hstream : StreamOk C sid s) (hopen : c.Open)
    (hum : c.event.event.payload = .user (.userMembership um)) (n' : Network) :
    ∃ target m, n'.UserCall c um target m := by
  obtain ⟨_, _, _, hstatus, hanswer⟩ := h.accepted hopen
  obtain ⟨⟨i, hinception⟩, _, target, _, haddress, htarget, hrequires⟩ :=
    AeParams.accepted_userMembership hum hanswer
  have hrequires : c.requiredParentEvent = some _ := hrequires
  obtain ⟨_, hi', htype⟩ := hstream.inception
  rw [hinception, some.injEq] at hi'
  subst hi'
  refine ⟨target, _, ⟨?_, ?_, htarget, rfl, hrequires, ?_⟩⟩
  · rw [h.streamId_eq]
    exact htype
  · rw [h.streamId_eq, ← hstream.streamId_eq]
    exact haddress
  · rw [hstatus, hrequires]
    trivial

theorem memberCall (hstream : StreamOk C sid s) (hopen : c.Open)
    (hm : c.event.event.payload = .member (.membership m)) :
    SparesMembers s.view.replay.members c.event ∧
      ∀ parent ∈ c.requiredParentEvent, ∃ um, parent.payload = .user (.userMembership um) := by
  obtain ⟨_, _, auth, -, hanswer⟩ := h.accepted hopen
  exact ⟨AeParams.accepted_sparesMembers hstream.sound hanswer,
    AeParams.accepted_membership_parent hm hanswer⟩

theorem settled (hstream : StreamOk C sid s) (hstatus : c.status = .succeeded)
    (hm : c.event.event.payload = .member (.membership m)) :
    m.userAddress ∈ s.view.replay.members ↔ m.op = .join := by
  obtain ⟨nodes, time, ⟨-, hanswer⟩ | ⟨-, hopen, -⟩⟩ := h.answer
  · exact @AeParams.member_of_noop s.heap heap ⟨cfg, nodes, time, s.view, c.event⟩ m
      hstream.sound hm
      hanswer
  · have hopen := hstatus.symm.trans hopen
    split at hopen <;> cases hopen

end Begins

theorem Begins.payload_eq
    (h : Begins C cfg n sid (makeEnvelopeWithEvent C Heap.empty
      (makeStreamEvent C parent.payload (some hash) salt epochMillis)) c s heap)
    (hparent : ∀ header, parent.payload ≠ .miniblockHeader header) :
    c.event.event.payload = parent.payload := by
  obtain ⟨hauth, -, -⟩ := parseEvent_eq_ok.1 h.parsed
  have hsigned := authenticate_makeEnvelopeWithEvent C .empty parent.payload (some hash) salt
    epochMillis
  have hevent := Res.ok.inj (hauth.symm.trans hsigned)
  rw [hevent]
  unfold StreamEvent.resolve
  split
  · rename_i header hheader
    exact absurd hheader (hparent header)
  · rfl

end Begins

namespace Network

/-! ## The steps that add no event -/

section Steps

variable {C : Crypto} {cfg : StreamConfig} {n : Network} {s' : History}

theorem Inv.setStream (h : n.Inv C) (hs : n.streams sid = some s)
    (hstep : HistoryStep C cfg s s' none) :
    n.SameAnswers (n.setStream sid s') ∧
      ∀ id s1, (n.setStream sid s').streams id = some s1 → StreamOk C id s1 := by
  have hok := h.streams sid s hs
  have hmembers : s'.view.replay.members = s.view.replay.members := (hstep.keeps hok.sound).members
  refine ⟨⟨fun id => isSome_setStream hs id s', ?_, ?_⟩, ?_⟩
  · intro id
    rw [members_setStream, hmembers, ← members_eq hs]
    split
    · rename_i hid
      rw [hid]
    · rfl
  · intro id target
    rw [userJoined_setStream, hstep.getUserMembership hok.sound, ← userJoined_eq hs]
    split
    · rename_i hid
      rw [hid]
    · exact .rfl
  · intro id s1 hs1
    rw [streams_setStream] at hs1
    split at hs1
    · rename_i hid
      subst hid
      cases hs1
      exact hok.step hstep
    · exact h.streams id s1 hs1

theorem Inv.makeMiniblock (h : n.Inv C) (hs : n.streams sid = some s)
    (hstep : HistoryStep C cfg s s' none) :
    (n.setStream sid s').Inv C := by
  obtain ⟨hanswers, hstreams⟩ := h.setStream hs hstep
  refine h.moves ⟨hanswers, fun j c hj => ⟨c, hj, .stays⟩⟩ none hstreams ?_ ?_ ?_
  · intro k c hk hnone
    have hk : n.calls[k]? = some c := hk
    rw [hnone] at hk
    cases hk
  · exact fun k c hk _ => .inl hk
  · exact fun c hc => nomatch hc

theorem Inv.setStatus (h : n.Inv C) (hi : n.calls[i]? = some c) (hopen : c.Open)
    (hstatus : Call.Open { c with status := status })
    (hwaited : ∀ (j : Nat) (c' : Call), c.status = .awaiting j → n.calls[j]? = some c' → ¬c'.Open)
    (hprogress : ∀ um target m, n.UserCall c um target m → n.Progress m target status) :
    (n.setStatus i status).Inv C := by
  have hmoves : n.Moves (n.setStatus i status) := by
    refine ⟨⟨fun _ => rfl, fun _ => rfl, fun _ _ => .rfl⟩, ?_⟩
    intro j c' hj
    rw [calls_setStatus, hj]
    by_cases hij : i = j
    · subst hij
      rw [hi, some.injEq] at hj
      subst hj
      rw [if_pos rfl]
      exact ⟨_, rfl, .moves hopen hstatus hwaited⟩
    · rw [if_neg hij]
      exact ⟨c', rfl, .stays⟩
  refine h.moves hmoves none h.streams ?_ ?_ ?_
  · intro k c' hk hnone
    rw [calls_setStatus, hnone] at hk
    split at hk <;> cases hk
  · intro k c' hk hopen'
    rw [calls_setStatus] at hk
    split at hk
    · rename_i hik
      subst hik
      rw [hi] at hk
      cases hk
      exact .inr (hmoves.callOk hi hopen (h.calls i c hi hopen) fun um target m hcall =>
        hmoves.progress (hprogress um target m hcall))
    · exact .inl hk
  · exact fun c' hc' => nomatch hc'

theorem calls_begin :
    (n.begin s heap c).calls[k]? = some c' ↔
      n.calls[k]? = some c' ∨ (k = n.calls.length ∧ c' = c) := by
  have hcalls : (n.begin s heap c).calls = n.calls ++ [c] := rfl
  rw [hcalls]
  by_cases hk : k < n.calls.length
  · rw [List.getElem?_append_left hk]
    simp [Nat.ne_of_lt hk]
  have hle : n.calls.length ≤ k := Nat.le_of_not_lt hk
  rw [List.getElem?_append_right hle, List.getElem?_eq_none hle]
  by_cases hlen : k = n.calls.length
  · simp [hlen, eq_comm]
  · simp [hlen, show k - n.calls.length ≠ 0 by omega]

theorem Inv.begin_streams (h : n.Inv C) (hbegins : Begins C cfg n sid envelope c s heap) :
    n.SameAnswers (n.begin s heap c) ∧
      ∀ id s1, (n.begin s heap c).streams id = some s1 → StreamOk C id s1 := by
  obtain ⟨hanswers, hstreams⟩ := h.setStream hbegins.stream hbegins.step
  rw [← hbegins.streamId_eq] at hanswers hstreams
  exact ⟨⟨hanswers.isSome, hanswers.members, hanswers.userJoined⟩, hstreams⟩

theorem Inv.begin (h : n.Inv C) (hbegins : Begins C cfg n sid envelope c s heap)
    (hsubject : c.subject.isSome)
    (halone : c.Open → c.subject.isSome → ∀ c' ∈ n.calls, c'.Open → c'.subject ≠ c.subject) :
    (n.begin s heap c).Inv C := by
  obtain ⟨hanswers, hstreams⟩ := h.begin_streams hbegins
  have hcalls : ∀ (j : Nat) (c' : Call), n.calls[j]? = some c' →
      ∃ c'', (n.begin s heap c).calls[j]? = some c'' ∧ n.Advances c' c'' :=
    fun j c' hj => ⟨c', calls_begin.2 (.inl hj), .stays⟩
  refine h.moves ⟨hanswers, hcalls⟩ (some c) hstreams ?_ ?_ ?_
  · intro k c' hk hnone
    rcases calls_begin.1 hk with hk | ⟨hlast, rfl⟩
    · rw [hnone] at hk
      cases hk
    · exact ⟨hlast, rfl, hbegins.decoded⟩
  · intro k c' hk hopen
    rcases calls_begin.1 hk with hk | ⟨-, rfl⟩
    · exact .inl hk
    obtain ⟨_, hum⟩ := Call.exists_of_subject hsubject
    obtain ⟨_, m, hcall⟩ := hbegins.userCall (h.streams _ _ hbegins.stream) hopen hum
      (n.begin s heap c')
    exact .inr (.user hum hcall)
  · intro c' hc' hopen hsome
    cases hc'
    exact halone hopen hsome

theorem Inv.beginNested (h : n.Inv C) (hi : n.calls[i]? = some c)
    (hstatus : c.status = .addEventPayload hash) (hrequires : c.requiredParentEvent = some parent)
    (hbegins : Begins C cfg n parent.streamId (makeEnvelopeWithEvent C Heap.empty
      (makeStreamEvent C parent.payload (some hash) salt epochMillis)) c' s heap)
    (halone : c'.Open → c'.subject.isSome → ∀ c1 ∈ n.calls, c1.Open → c1.subject ≠ c'.subject) :
    ((n.begin s heap c').setStatus i (.awaiting n.calls.length)).Inv C := by
  obtain ⟨hanswers, hstreams⟩ := h.begin_streams hbegins
  have hopen : c.Open := by simp [Call.Open, hstatus]
  have hok := h.calls i c hi hopen
  have hstreamOk := h.streams _ _ hbegins.stream
  have hlt : i < n.calls.length := (List.getElem?_eq_some_iff.1 hi).1
  -- the calls after the step
  have hnew : ((n.begin s heap c').setStatus i (.awaiting n.calls.length)).calls[n.calls.length]? =
      some c' := by
    rw [calls_setStatus, if_neg (Nat.ne_of_lt hlt)]
    exact calls_begin.2 (.inr ⟨rfl, rfl⟩)
  have hcaller : ((n.begin s heap c').setStatus i (.awaiting n.calls.length)).calls[i]? =
      some { c with status := .awaiting n.calls.length } := by
    rw [calls_setStatus, if_pos rfl, calls_begin.2 (.inl hi)]
    rfl
  have hold : ∀ (k : Nat) (c1 : Call), i ≠ k →
      (((n.begin s heap c').setStatus i (.awaiting n.calls.length)).calls[k]? = some c1 ↔
        n.calls[k]? = some c1 ∨ (k = n.calls.length ∧ c1 = c')) := by
    intro k c1 hik
    rw [calls_setStatus, if_neg hik, calls_begin]
  generalize hn' : (n.begin s heap c').setStatus i (.awaiting n.calls.length) = n' at *
  have hanswers : n.SameAnswers n' := by
    rw [← hn']
    exact ⟨hanswers.isSome, hanswers.members, hanswers.userJoined⟩
  have hmoves : n.Moves n' := by
    refine ⟨hanswers, ?_⟩
    intro j c1 hj
    by_cases hij : i = j
    · subst hij
      rw [hi, some.injEq] at hj
      subst hj
      refine ⟨_, hcaller, .moves hopen (by simp [Call.Open]) ?_⟩
      intro j c2 hawaiting
      rw [hstatus] at hawaiting
      cases hawaiting
    · exact ⟨c1, (hold j c1 hij).2 (.inl hj), .stays⟩
  have hmembers : n'.members c'.streamId = s.view.replay.members := by
    rw [hanswers.members, hbegins.streamId_eq, members_eq hbegins.stream]
  refine h.moves hmoves (some c') (by rw [← hn']; exact hstreams) ?_ ?_ ?_
  · intro k c1 hk hnone
    have hik : i ≠ k := by
      rintro rfl
      rw [hi] at hnone
      cases hnone
    rcases (hold k c1 hik).1 hk with hk | ⟨hlast, rfl⟩
    · rw [hnone] at hk
      cases hk
    · exact ⟨hlast, rfl, hbegins.decoded⟩
  · intro k c1 hk hopen1
    by_cases hik : i = k
    · -- the call that waits now
      subst hik
      rw [hcaller, some.injEq] at hk
      subst hk
      refine .inr (hmoves.callOk hi hopen hok ?_)
      intro um target m hcall
      have hparent := hcall.requires.symm.trans hrequires
      rw [some.injEq] at hparent
      subst hparent
      have hpayload := hbegins.payload_eq (by simp)
      have htarget : c'.streamId = target := hbegins.streamId_eq
      refine ⟨c', hnew, htarget, hpayload, ?_⟩
      intro hsucceeded
      unfold Settled
      rw [← htarget, hmembers]
      exact hbegins.settled hstreamOk hsucceeded hpayload
    · rcases (hold k c1 hik).1 hk with hk | ⟨rfl, rfl⟩
      · exact .inl hk
      -- the call that begins
      right
      cases hok with
      | user payload call =>
        have hparent := call.requires.symm.trans hrequires
        rw [some.injEq] at hparent
        subst hparent
        have hpayload := hbegins.payload_eq (by simp)
        obtain ⟨hspares, hparents⟩ := hbegins.memberCall hstreamOk hopen1 hpayload
        rw [← hmembers] at hspares
        refine .member hpayload ⟨hspares, ⟨i, _, _, hcaller, payload, rfl, ?_⟩, hparents⟩
        rw [hbegins.streamId_eq]
        exact call.requires
      | member payload call =>
        obtain ⟨um, hum⟩ := call.requires parent hrequires
        have hpayload := hbegins.payload_eq (by simp [hum])
        rw [hum] at hpayload
        obtain ⟨target, m, hcall⟩ := hbegins.userCall hstreamOk hopen1 hpayload n'
        exact .user hpayload hcall
  · intro c1 hc1 hopen1 hsome
    cases hc1
    exact halone hopen1 hsome

end Steps

end Network

end River.Node
