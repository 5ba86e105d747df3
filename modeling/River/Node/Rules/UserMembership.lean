/-
  The two sides of a membership: the user's own stream and the stream that is joined.
-/

import River.Node.Events.Answers
import River.Node.Rules.Membership

namespace River.Node

open List StreamView Res StreamId

/-! ## Stream ids of users -/

theorem StreamId.length_bytes (id : StreamId) : id.bytes.length = 32 := by
  have h : checkExpectedLength id.bytes = .ok () := id.2
  unfold checkExpectedLength at h
  split at h
  · cases h
  · rename_i hlen
    exact not_not.1 hlen

theorem StreamType.ofByte?_eq_some (h : ofByte? b = some t) : t.bin = b := by
  simpa using find?_some h

theorem StreamId.drop_eq_zeros {id : StreamId} (ht : id.type? = some t) :
    ∀ b ∈ id.bytes.drop t.contentLength, b = 0 := by
  have h : checkExpectedLength id.bytes = .ok () := id.2
  unfold type? at ht
  unfold checkExpectedLength at h
  rw [if_neg (not_not.2 id.length_bytes)] at h
  simp only [ht] at h
  split at h
  · rename_i hall
    simpa using hall
  · cases h

theorem userStreamId_bytes {id : StreamId} (htype : id.type? = some .user)
    (h : getUserAddressFromStreamId id = .ok address) :
    address.length = 20 ∧ id.bytes = StreamType.user.bin :: (address ++ replicate 11 0) := by
  have hlen := id.length_bytes
  have hzeros := drop_eq_zeros htype
  simp only [getUserAddressFromStreamId, htype, ok.injEq] at h
  unfold type? at htype
  cases hbytes : id.bytes with
  | nil => simp [hbytes] at hlen
  | cons b rest =>
    rw [hbytes] at hlen hzeros h htype
    have hb : StreamType.user.bin = b := StreamType.ofByte?_eq_some htype
    rw [length_cons] at hlen
    have hfront : (rest.take 20).length = 20 := by
      rw [length_take]
      omega
    have haddress : address = rest.take 20 := by
      rw [← h, bytesToAddress]
      simp [hfront]
    have hback : rest.drop 20 = replicate 11 0 := by
      refine eq_replicate_iff.2 ⟨?_, fun x hx => hzeros x ?_⟩
      · rw [length_drop]
        omega
      · exact hx
    refine ⟨haddress ▸ hfront, ?_⟩
    rw [hb, haddress, ← hback, take_append_drop]

theorem userStreamId_unique {a b : StreamId} (ha : a.type? = some .user) (hb : b.type? = some .user)
    (haddress : getUserAddressFromStreamId a = .ok address)
    (hbddress : getUserAddressFromStreamId b = .ok address) : a = b := by
  ext1
  rw [(userStreamId_bytes ha haddress).2, (userStreamId_bytes hb hbddress).2]

variable {heap heap' : Heap}

namespace Rules

/-! ## No-ops -/

open RuleBuilder

theorem RuleBuilder.run_eq_none {re : RuleBuilder} (h : re.run heap = (.ok none, heap')) :
    re.failErr = none ∧ runChecksAE re.checks heap = (.ok false, heap') := by
  obtain ⟨hfail, ⟨-, hreqs⟩ | ⟨hchecks, -⟩⟩ := run_cases h
  · -- what is required is never a no-op
    obtain ⟨_, _, hreqs⟩ := bind_eq_ok.1 hreqs
    obtain ⟨_, _, hreqs⟩ := bind_eq_ok.1 hreqs
    split at hreqs <;> cases hreqs
  · exact ⟨hfail, hchecks⟩

theorem runChecksAE_cons_pure_false {checks : List (List Check)}
    (h : runChecksAE ([.pure answer] :: checks) heap = (.ok false, heap')) :
    answer = .ok false ∨ (answer = .ok true ∧ runChecksAE checks heap = (.ok false, heap')) := by
  cases answer with
  | ok b =>
    cases b with
    | true =>
      right
      exact ⟨rfl, by simpa [runChecksAE, runOneOf, Check.pure] using h⟩
    | false => exact .inl rfl
  | error e => simp [runChecksAE, runOneOf, Check.pure, riverError] at h
  | panic m => simp [runChecksAE, runOneOf, Check.pure] at h

theorem RuleBuilder.parentEvent_of_run {re : RuleBuilder}
    (h : re.run heap = (.ok (some reqs), heap')) : re.parentEvent = .ok reqs.2 := by
  obtain ⟨-, -, hreqs⟩ := run_eq_ok_iff.1 h
  obtain ⟨_, -, hreqs⟩ := bind_eq_ok.1 hreqs
  obtain ⟨_, hparent, hreqs⟩ := bind_eq_ok.1 hreqs
  split at hreqs
  · cases hreqs
  · cases hreqs
    exact hparent

namespace AeParams

variable {params : AeParams} {m : Membership}

theorem validMembershipPayload_ne_false : params.validMembershipPayload m ≠ .ok false := by
  intro h
  unfold validMembershipPayload at h
  split at h
  · obtain ⟨_, -, h⟩ := bind_eq_ok.1 h
    split at h
    · cases h
    · split at h
      · cases h
      · split at h <;> cases h
  · cases h

theorem validMembershipLimit_ne_false : params.validMembershipLimit m ≠ .ok false := by
  intro h
  unfold validMembershipLimit at h
  split at h
  · obtain ⟨_, -, h⟩ := bind_eq_ok.1 h
    simp only at h
    split at h <;> cases h
  · cases h

theorem validMembershipTransistion_eq_false_of_byNode
    (h : params.validMembershipTransistionByNode m = .ok false) :
    params.validMembershipTransistion m = .ok false := by
  obtain ⟨_, hvalid, h⟩ := bind_eq_ok.1 h
  unfold creatorIsValidNode at hvalid
  split at hvalid
  · cases hvalid
    exact h
  · cases hvalid

theorem validMembershipTransistion_eq_false_of_dm
    (h : params.validMembershipTransistionForDM m = .ok false) :
    params.validMembershipTransistion m = .ok false := by
  obtain ⟨valid, hvalid, h⟩ := bind_eq_ok.1 h
  cases valid with
  | false => exact validMembershipTransistion_eq_false_of_byNode hvalid
  | true =>
    obtain ⟨i, -, h⟩ := bind_eq_ok.1 h
    simp only at h
    split at h
    · cases h
    split at h
    · cases h
    split at h <;> cases h

theorem validGDMOp_ne_false : validGDMOp m initiator user ≠ .ok false := by
  intro h
  unfold validGDMOp at h
  split at h
  · split at h <;> cases h
  · split at h
    · cases h
    split at h
    · cases h
    split at h <;> cases h
  · split at h <;> cases h
  · cases h
  · cases h

theorem validMembershipTransistion_eq_false_of_gdm
    (h : params.validMembershipTransistionForGDM m = .ok false) :
    params.validMembershipTransistion m = .ok false := by
  obtain ⟨valid, hvalid, h⟩ := bind_eq_ok.1 h
  cases valid with
  | false => exact validMembershipTransistion_eq_false_of_byNode hvalid
  | true =>
    obtain ⟨_, -, h⟩ := bind_eq_ok.1 h
    obtain ⟨_, -, h⟩ := bind_eq_ok.1 h
    exact absurd h validGDMOp_ne_false

theorem membershipRule_eq_false
    (h : runChecksAE (params.membershipRule m transition).checks heap = (.ok false, heap')) :
    transition = .ok false := by
  rcases runChecksAE_cons_pure_false h with h | ⟨-, h⟩
  · exact absurd h validMembershipPayload_ne_false
  rcases runChecksAE_cons_pure_false h with h | ⟨-, h⟩
  · exact h
  rcases runChecksAE_cons_pure_false h with h | ⟨-, h⟩
  · exact absurd h validMembershipLimit_ne_false
  · cases h

theorem noop_membership (hm : params.parsedEvent.event.payload = .member (.membership m))
    (h : Rules.canAddEvent params heap = (.ok none, heap')) :
    params.validMembershipTransistion m = .ok false := by
  obtain ⟨-, -, -, -, hrun⟩ := canAddEvent_eq_ok.1 h
  rw [canAddEvent_membership hm] at hrun
  obtain ⟨hfail, hchecks⟩ := run_eq_none hrun
  unfold canAddMembership at hfail hchecks
  split at hchecks
  · exact validMembershipTransistion_eq_false_of_byNode (membershipRule_eq_false hchecks)
  · exact validMembershipTransistion_eq_false_of_byNode (membershipRule_eq_false hchecks)
  · exact validMembershipTransistion_eq_false_of_dm (membershipRule_eq_false hchecks)
  · exact validMembershipTransistion_eq_false_of_gdm (membershipRule_eq_false hchecks)
  · simp [fail] at hfail

theorem join_of_validTransition_eq_false
    (h : validTransition current op = .ok false) : current = .join ↔ op = .join := by
  unfold validTransition at h
  split at h
  · rename_i heq
    rw [heq]
  cases current with
  | join =>
    simp only at h
    split at h <;> cases h
  | unspecified =>
    have hleave : op = .leave := by simpa using h
    simp [hleave]
  | _ => cases h

theorem member_of_noop (hsound : params.streamView.replay.Sound)
    (hm : params.parsedEvent.event.payload = .member (.membership m))
    (h : Rules.canAddEvent params heap = (.ok none, heap')) :
    m.userAddress ∈ params.streamView.replay.members ↔ m.op = .join := by
  have hvalid := noop_membership hm h
  unfold validMembershipTransistion at hvalid
  split at hvalid
  · cases hvalid
  obtain ⟨_, hcurrent, hvalid⟩ := bind_eq_ok.1 hvalid
  obtain ⟨_, hop, hmem⟩ := hsound.getMembership m.userAddress
  rw [getMembership_eq_replay, hop, ok.injEq] at hcurrent
  rw [← hmem, hcurrent]
  exact join_of_validTransition_eq_false hvalid

/-! ## Parent events -/

theorem accepted_userMembership
    (hum : params.parsedEvent.event.payload = .user (.userMembership um))
    (h : Rules.canAddEvent params heap = (.ok (some reqs), heap')) :
    (∃ i, params.streamView.inceptionPayload = some (.user i)) ∧
      ∃ address target initiator,
        getUserAddressFromStreamId params.streamView.streamId = .ok address ∧
        target.bytes = um.streamId ∧
        reqs.2 = some ⟨.member (.membership ⟨um.op, address, initiator, um.streamParentId⟩),
          target⟩ := by
  obtain ⟨-, -, -, htype, hrun⟩ := canAddEvent_eq_ok.1 h
  refine ⟨?_, ?_⟩
  · unfold verifyPayloadTypeMatchesStreamType at htype
    split at htype <;> simp_all [riverError]
  · have hrule : params.canAddEvent =
        ((aeBuilder.checkOneOf [.pure params.creatorIsMember,
          .pure params.creatorIsValidNode]).check
          (.pure (params.validUserMembershipTransistion um))).requireParentEvent
          (params.parentEventForUserMembership um) := by
      simp [AeParams.canAddEvent, hum, canAddUserPayload]
    rw [hrule] at hrun
    have hparent := parentEvent_of_run hrun
    obtain ⟨address, haddress, hparent⟩ := bind_eq_ok.1 hparent
    obtain ⟨target, htarget, hparent⟩ := bind_eq_ok.1 hparent
    exact ⟨address, target, _, haddress, fromBytes_eq_ok.1 htarget, (ok.inj hparent).symm⟩

theorem accepted_membership_parent (hm : params.parsedEvent.event.payload = .member (.membership m))
    (h : Rules.canAddEvent params heap = (.ok (some reqs), heap')) :
    ∀ parent ∈ reqs.2, ∃ um, parent.payload = .user (.userMembership um) := by
  obtain ⟨-, -, -, -, hrun⟩ := canAddEvent_eq_ok.1 h
  rw [canAddEvent_membership hm] at hrun
  have hparent := parentEvent_of_run hrun
  obtain ⟨_, parent⟩ := reqs
  unfold canAddMembership at hparent
  split at hparent
  case h_2 =>
    -- only a channel has a parent stream
    have hparent : params.requireStreamParentMembership m = .ok parent := hparent
    unfold requireStreamParentMembership at hparent
    split at hparent
    · cases hparent
      simp
    obtain ⟨_, -, hparent⟩ := bind_eq_ok.1 hparent
    split at hparent
    · cases hparent
      simp
    obtain ⟨_, -, hparent⟩ := bind_eq_ok.1 hparent
    obtain ⟨_, -, hparent⟩ := bind_eq_ok.1 hparent
    cases hparent
    simp
  all_goals
    cases hparent
    simp

end AeParams

end Rules

/-! ## The latest membership in a user's stream -/

variable {sid : StreamId}

namespace Replay

theorem getUserMembership_concat (r : Replay) (e : ParsedEvent) (sid : StreamId) :
    getUserMembership ⟨r.snapshot, r.events ++ [e]⟩ sid =
      (do
        let op ← r.getUserMembership sid
        userMembershipOp sid op e) := by
  unfold getUserMembership
  cases r.snapshot.content with
  | user c =>
    simp only [foldlM_append]
    congr 1
    funext op
    exact bind_pure _
  | _ => rfl

theorem getUserMembership_concat_of_ne (r : Replay)
    (he : ∀ m, e.event.payload = .user (.userMembership m) → m.streamId ≠ sid.bytes) :
    getUserMembership ⟨r.snapshot, r.events ++ [e]⟩ sid = r.getUserMembership sid := by
  have hop : ∀ op, userMembershipOp sid op e = .ok op := by
    intro op
    unfold userMembershipOp
    split
    · rename_i m hm
      have hne : ¬sid.bytes = m.streamId := fun heq => he m hm heq.symm
      simp [equalsBytes, hne]
    · rfl
  rw [getUserMembership_concat]
  simp only [hop]
  exact bind_pure _

theorem getUserMembership_concat_self (r : Replay)
    (he : e.event.payload = .user (.userMembership m)) (hid : m.streamId = sid.bytes)
    (hi : r.snapshot.getInceptionPayload = some (.user i)) :
    getUserMembership ⟨r.snapshot, r.events ++ [e]⟩ sid = .ok m.op := by
  have hcontent : ∃ c, r.snapshot.content = .user c := by
    unfold Snapshot.getInceptionPayload at hi
    split at hi <;> simp_all
  obtain ⟨c, hc⟩ := hcontent
  -- the query goes through whatever came before
  have hok : ∀ (es : List ParsedEvent) (op : MembershipOp),
      ∃ op', es.foldlM (userMembershipOp sid) op = .ok op' := by
    intro es
    induction es with
    | nil => exact fun op => ⟨op, rfl⟩
    | cons e es ih =>
      intro op
      have hone : ∃ op', userMembershipOp sid op e = .ok op' := by
        unfold userMembershipOp
        split <;> exact ⟨_, rfl⟩
      obtain ⟨op1, hone⟩ := hone
      rw [foldlM_cons, hone]
      exact ih op1
  have hbefore : ∃ op, r.getUserMembership sid = .ok op := by
    unfold getUserMembership
    rw [hc]
    exact hok _ _
  obtain ⟨op, hbefore⟩ := hbefore
  rw [getUserMembership_concat, hbefore]
  simp [userMembershipOp, he, equalsBytes, hid]

theorem getUserMembership_takeIn {r : Replay} (h : r.snapshot.WellFormed)
    {es rest : List ParsedEvent} (hevents : r.events = es ++ rest) {s : Snapshot}
    (hupdates : Updates es (r.snapshot.clone heap, heap) (s, heap')) (sid : StreamId) :
    getUserMembership ⟨s, rest⟩ sid = r.getUserMembership sid := by
  have hwf := h.clone heap
  have hcontent : s.content.memberships? =
      r.snapshot.content.memberships?.map (membershipsAfter es) := (hupdates.content hwf).2
  rw [getUserMembership_eq (hupdates.wellFormed hwf), getUserMembership_eq h, hcontent, hevents,
    Option.map_map, membershipsAfter_comp]

end Replay

namespace Rules

open River.Lib

variable {s : History} {C : Crypto}

theorem HistoryStep.getUserMembership (h : HistoryStep C cfg s s' none) (hs : s.view.replay.Sound)
    (sid : StreamId) :
    s'.view.getUserMembership sid = s.view.getUserMembership sid := by
  rw [getUserMembership_eq_replay, getUserMembership_eq_replay]
  cases h with
  | asked _ _ => rfl
  | block replay _ _ => rw [replay]
  | snapshot events updates replay _ =>
    rcases replay with rfl | ⟨hreplay, -⟩
    · rfl
    · rw [hreplay]
      exact Replay.getUserMembership_takeIn hs.wellFormed events updates sid

/-! ## Streams that are what their id says -/

structure StreamOk (C : Crypto) (streamId : StreamId) (s : History) : Prop where
  sound : s.view.replay.Sound
  decoded : s.Decoded C
  streamId_eq : s.view.streamId = streamId
  inception : ∃ i, s.view.inceptionPayload = some i ∧ streamId.type? = some (inceptionType i)

theorem StreamOk.step (h : StreamOk C sid s) (hstep : HistoryStep C cfg s s' added) :
    StreamOk C sid s' := by
  have hkeeps := hstep.keeps h.sound
  refine ⟨hkeeps.sound, hstep.decoded h.decoded, hkeeps.streamId.trans h.streamId_eq, ?_⟩
  rw [hkeeps.inceptionPayload]
  exact h.inception

theorem StreamOk.add (h : StreamOk C sid s) (hdecoded : e.Decoded C)
    (hspares : SparesMembers s.view.replay.members e) (hadd : s.view.copyAndAddEvent e = .ok view) :
    StreamOk C sid { s with view := view } := by
  have hreplay := replay_copyAndAddEvent hadd
  obtain ⟨-, -, m, -, hview⟩ := copyAndAddEvent_eq_ok.1 hadd
  have hinception : view.inceptionPayload = s.view.inceptionPayload := by
    show view.replay.snapshot.getInceptionPayload = s.view.replay.snapshot.getInceptionPayload
    rw [hreplay]
  refine ⟨?_, ?_, ?_, hinception ▸ h.inception⟩
  · rw [hreplay]
    exact h.sound.concat hspares
  · intro e' he'
    rw [hreplay] at he'
    rcases mem_append.1 he' with he' | he'
    · exact h.decoded e' he'
    · rw [mem_singleton.1 he']
      exact hdecoded
  · rw [← h.streamId_eq, hview]

/-- The stream is what was created, with events added. -/
def Created (C : Crypto) (streamId : StreamId) (s : History) : Prop :=
  ∃ (c : Creation) (s0 : History) (cfg : StreamConfig) (acts : List HistoryAction),
    c.crypto = C ∧ c.streamId = streamId ∧ c.createStream = .ok s0 ∧
      s = (historyMachine C cfg).exec s0 acts

theorem Created.streamOk (h : Created C sid s) : StreamOk C sid s := by
  obtain ⟨c, s0, -, acts, rfl, rfl, hcreate, rfl⟩ := h
  obtain ⟨_, -, -, -, hevents, -, -, -, -, -⟩ := Creation.createStream_eq_ok hcreate
  obtain ⟨hsound, -, hdecoded⟩ := c.sound hcreate hevents
  have hinit : StreamOk c.crypto c.streamId s0 :=
    ⟨hsound, hdecoded, (Creation.identity hcreate hevents).1, Creation.inceptionType_eq hcreate⟩
  exact history_invariant (fun s s' added hs hstep => .step hs hstep) hdecoded hinit acts

end Rules

end River.Node
