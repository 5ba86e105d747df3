/-
  Invitations to a group and snapshots (core/node/rules/can_add_event.go,
  core/node/events/snapshot.go and stream_viewstate_joinable.go).

  A snapshot keeps no invitations.
-/

import River.Node.Rules.SnapshotIndependence

namespace River.Node.Rules

open River.Lib List StreamView

/-! ## What a history leaves of its events -/

structure Follows (s : History) (added : List ParsedEvent) (s' : History) : Prop where
  sound : s'.view.replay.Sound
  members : s'.view.replay.members = added.foldl memberStep s.view.replay.members
  streamId : s'.view.streamId = s.view.streamId
  inceptionPayload : s'.view.inceptionPayload = s.view.inceptionPayload
  events : s'.view.replay.events <:+ added

theorem Follows.step (h : Follows s added s')
    (hstep : HistoryStep C cfg s' s'' new) : Follows s (added ++ new.toList) s'' := by
  obtain ⟨hsound, hmembers, hid, hinception⟩ := hstep.keeps h.sound
  refine ⟨hsound, ?_, hid.trans h.streamId, hinception.trans h.inceptionPayload, ?_⟩
  · rw [hmembers, h.members, foldl_append]
  obtain ⟨done, hdone⟩ := h.events
  cases hstep with
  | asked _ _ => exact ⟨done, by simpa using hdone⟩
  | added _ _ _ add =>
    rw [replay_copyAndAddEvent add, ← hdone]
    exact ⟨done, (append_assoc ..).symm⟩
  | block hreplay _ _ => exact ⟨done, by simpa [hreplay] using hdone⟩
  | snapshot hevents _ hreplay _ =>
    rcases hreplay with rfl | ⟨hreplay, -⟩
    · exact ⟨done, by simpa using hdone⟩
    · exact ⟨done ++ _, by simpa [hreplay, hevents] using hdone⟩

theorem Creation.follows {c : Creation} (h : c.createStream = .ok s)
    (hevents : c.parsedEvents = .ok events) (cfg : StreamConfig) (acts : List HistoryAction) :
    Follows s (addedEvents c.crypto cfg s acts) ((historyMachine c.crypto cfg).exec s acts) := by
  obtain ⟨hsound, -, hdecoded⟩ := c.sound h hevents
  obtain ⟨_, _, _, _, -, -, -, hreplay, -, -⟩ := Creation.createStream_eq_ok h
  have hinit : Follows s [] s := ⟨hsound, rfl, rfl, rfl, by rw [hreplay]⟩
  refine (Machine.collect_invariant (G := fun _ => True)
    (J := fun l s' => s'.Decoded c.crypto ∧ Follows s l s') (fun _ _ h => h)
    ?_ ⟨hdecoded, hinit⟩ (Machine.along_of_forall (fun _ _ => trivial) _ _) trivial).2
  rintro l s' a ⟨hdecoded, hs'⟩ - -
  have hstep : HistoryStep c.crypto cfg s' _ _ := History.step hdecoded a
  exact ⟨hstep.decoded hdecoded, hs'.step hstep⟩

/-! ## Invitations -/

def payloads (es : List ParsedEvent) : List Payload := es.map (·.event.payload)

theorem foldl_memberStep_congr (h : payloads es = payloads es')
    (members : Finset Bytes) : es.foldl memberStep members = es'.foldl memberStep members := by
  induction es generalizing es' members with
  | nil => rw [map_eq_nil_iff.1 h.symm]
  | cons e es ih =>
    cases es' with
    | nil => cases h
    | cons e' es' =>
      obtain ⟨hpayload, hrest⟩ := cons.inj h
      have hstep : memberStep members e = memberStep members e' := by
        simp only at hpayload
        rw [memberStep, memberStep, hpayload]
      rw [foldl_cons, foldl_cons, hstep, ih hrest]

/-- If the payload is a membership of the user, it is an invitation. -/
def Invites (u : Bytes) (p : Payload) : Prop :=
  ∀ m, p = .member (.membership m) → m.userAddress = u → m.op = .invite

/-- The user was invited, and was not the subject of another membership since. -/
def AwaitsJoin (u : Bytes) (ps : List Payload) : Prop :=
  ∃ front m back, ps = front ++ .member (.membership m) :: back ∧ m.userAddress = u ∧
    ∀ p ∈ .member (.membership m) :: back, Invites u p

theorem foldlM_membershipOp_of_invites (op : MembershipOp) (h : ∀ p ∈ payloads es, Invites u p) :
    ∃ op', es.foldlM (membershipOp u) op = .ok op' ∧ (op' = op ∨ op' = .invite) := by
  induction es generalizing op with
  | nil => exact ⟨op, rfl, .inl rfl⟩
  | cons e es ih =>
    obtain ⟨hfirst, hrest⟩ := forall_mem_cons.1 h
    have hone : ∃ op1, membershipOp u op e = .ok op1 ∧ (op1 = op ∨ op1 = .invite) := by
      unfold membershipOp
      split
      · rename_i m hm
        by_cases hu : m.userAddress = u
        · exact ⟨m.op, by simp [hu], .inr (hfirst m hm hu)⟩
        · exact ⟨op, by simp [hu], .inl rfl⟩
      · exact ⟨op, rfl, .inl rfl⟩
    obtain ⟨op1, hop1, hcases1⟩ := hone
    obtain ⟨op', hop', hcases⟩ := ih op1 hrest
    refine ⟨op', by rw [foldlM_cons, hop1]; exact hop', ?_⟩
    rcases hcases with rfl | rfl
    · exact hcases1
    · exact .inr rfl

/-- An invited user who is not a member is invited for the rules, or unknown. -/
theorem getMembership_of_awaitsJoin {r : Replay} {added : List ParsedEvent} (hsound : r.Sound)
    (hevents : r.events <:+ added) (h : AwaitsJoin u (payloads added)) (hu : u ∉ r.members) :
    ∃ op, r.getMembership u = .ok op ∧ (op = .invite ∨ op = .unspecified) := by
  obtain ⟨op, hop, hjoin⟩ := hsound.getMembership u
  refine ⟨op, hop, ?_⟩
  have hne : op ≠ .join := fun heq => hu (hjoin.1 heq)
  obtain ⟨joined, -, hfold⟩ := Res.bind_eq_ok.1 hop
  obtain ⟨front, m, _, hadded, hm, hinvites⟩ := h
  have hwindow : payloads r.events <:+ payloads added := hevents.map _
  rw [hadded] at hwindow
  rcases suffix_or_suffix_of_suffix hwindow (suffix_append front _) with hnew | hold
  · -- the invitation is in a snapshot, or the first event since
    obtain ⟨op', hop', hcases⟩ := foldlM_membershipOp_of_invites
      (if (findMember joined u).isSome then .join else .unspecified)
      fun p hp => hinvites p (hnew.subset hp)
    obtain rfl := Res.ok.inj (hop'.symm.trans hfold)
    rcases hcases with hstart | hinvite
    · split at hstart
      · exact absurd hstart hne
      · exact .inr hstart
    · exact .inl hinvite
  · obtain ⟨_, hbefore⟩ := hold
    obtain ⟨_, es', hsplit, rfl, hback⟩ := append_eq_map_iff.1 hbefore
    cases es' with
    | nil => cases hback
    | cons e es' =>
      obtain ⟨he, hrest⟩ := cons.inj hback
      rw [hsplit, foldlM_append] at hfold
      obtain ⟨op1, -, hfold⟩ := Res.bind_eq_ok.1 hfold
      have hinvite : membershipOp u op1 e = .ok .invite := by
        simp [membershipOp, he, hm, hinvites _ mem_cons_self m rfl hm]
      rw [foldlM_cons, hinvite] at hfold
      obtain ⟨op', hop', hcases⟩ := foldlM_membershipOp_of_invites .invite
        fun p hp => hinvites p (mem_cons_of_mem _ (hrest ▸ hp))
      obtain rfl := Res.ok.inj (hop'.symm.trans hfold)
      exact .inl (or_self_iff.1 hcases)

/-! ## Joins -/

theorem runChecksAE_pure (answers : List (Res Bool)) (heap heap' : Heap) :
    (runChecksAE (answers.map fun answer => [.pure answer]) heap).1 =
      (runChecksAE (answers.map fun answer => [.pure answer]) heap').1 := by
  induction answers with
  | nil => rfl
  | cons answer answers ih =>
    cases answer with
    | ok b => cases b <;> simp [runChecksAE, runOneOf, Check.pure, ih]
    | _ => rfl

theorem RuleBuilder.run_congr {re : RuleBuilder}
    (h : (runChecksAE re.checks heap).1 = (runChecksAE re.checks heap').1) :
    (re.run heap).1 = (re.run heap').1 := by
  unfold RuleBuilder.run
  generalize runChecksAE re.checks heap = outcome at h ⊢
  generalize runChecksAE re.checks heap' = outcome' at h ⊢
  obtain ⟨answer, _⟩ := outcome
  obtain ⟨_, _⟩ := outcome'
  cases h
  cases re.failErr with
  | some err => rfl
  | none =>
    cases answer with
    | ok b => cases b <;> rfl
    | _ => rfl

namespace AeParams

variable {params : AeParams}

/-- The checks of expiry and of the previous block pass. -/
def Recent (params : AeParams) : Prop :=
  ¬(params.parsedEvent.event.delegateExpiryEpochMs > 0 ∧ isPastExpiry params.currentTime
      params.parsedEvent.event.delegateExpiryEpochMs = true) ∧
    params.parsedEvent.event.prevMiniblockHash ≠ none ∧
    params.streamView.validateNextEvent params.cfg.recencyConstraints params.parsedEvent
      params.currentTime = .ok ()

instance (params : AeParams) : Decidable params.Recent := inferInstanceAs (Decidable (_ ∧ _ ∧ _))

theorem canAddEvent_of_recent (h : params.Recent)
    (hm : params.parsedEvent.event.payload = .member (.membership m))
    (htype : params.streamView.streamId.type? = some .gdmChannel) (heap : Heap) :
    Rules.canAddEvent params heap =
      (params.membershipRule m (params.validMembershipTransistionForGDM m)).run heap := by
  obtain ⟨hexpiry, hprev, hvalid⟩ := h
  unfold Rules.canAddEvent
  simp only [if_neg hexpiry, if_neg hprev, hvalid, hm, verifyPayloadTypeMatchesStreamType,
    AeParams.canAddEvent, canAddMemberPayload, canAddMembership, htype]

/-- A join from another member needs no invitation. -/
theorem validMembershipTransistionForGDM_eq (params : AeParams)
    (hsound : params.streamView.replay.Sound) (hevents : params.streamView.replay.events <:+ added)
    (hjoin : m.op = .join) (hinvited : AwaitsJoin m.userAddress (payloads added))
    (huser : m.userAddress ∉ params.streamView.replay.members)
    (hinitiator : m.initiatorAddress ∈ params.streamView.replay.members) :
    params.validMembershipTransistionForGDM m = params.creatorIsValidNode := by
  obtain ⟨_, hop, hcases⟩ := getMembership_of_awaitsJoin hsound hevents hinvited huser
  obtain ⟨_, hop', hmember⟩ := hsound.getMembership m.initiatorAddress
  rw [hmember.2 hinitiator] at hop'
  have hother : m.initiatorAddress ≠ m.userAddress := fun heq => huser (heq ▸ hinitiator)
  unfold validMembershipTransistionForGDM validMembershipTransistionByNode
    validMembershipTransistion creatorIsValidNode
  simp only [getMembership_eq_replay, hop, hop']
  split
  · rcases hcases with rfl | rfl
    · simp [validTransition, validGDMOp, hjoin]
    · simp [validTransition, validGDMOp, hjoin, hother]
  · rfl

theorem run_membershipRule (transition : Res Bool) (heap heap' : Heap) :
    ((params.membershipRule m transition).run heap).1 =
      ((params.membershipRule m transition).run heap').1 := by
  have hchecks : (params.membershipRule m transition).checks =
      [params.validMembershipPayload m, transition, params.validMembershipLimit m].map
        fun answer => [.pure answer] := rfl
  refine RuleBuilder.run_congr ?_
  rw [hchecks]
  exact runChecksAE_pure _ heap heap'

end AeParams

/-- The rules for an event that is offered to a history. -/
def History.params (s : History) (cfg : StreamConfig) (validNodeAddresses : List Bytes)
    (currentTime : Int) (e : ParsedEvent) : AeParams :=
  ⟨cfg, validNodeAddresses, currentTime, s.view, e⟩

variable {s s1 s2 : History} {added1 added2 : List ParsedEvent}

theorem Follows.getChannelMembers_congr (h1 : Follows s added1 s1) (h2 : Follows s added2 s2)
    (hsame : payloads added1 = payloads added2)
    (haddress : ∀ m, .member (.membership m) ∈ payloads added1 → m.userAddress.length = 20) :
    s1.view.getChannelMembers = s2.view.getChannelMembers := by
  have hwhole : ∀ added, payloads added = payloads added1 → ∀ e ∈ added, Replay.HasAddress e := by
    intro added hadded e he m hm
    refine haddress m ?_
    rw [← hadded, ← hm]
    exact mem_map_of_mem he
  rw [getChannelMembers_eq_replay, getChannelMembers_eq_replay,
    Replay.getChannelMembers_eq h1.sound.wellFormed fun e he =>
      hwhole _ rfl e (h1.events.subset he),
    Replay.getChannelMembers_eq h2.sound.wellFormed fun e he =>
      hwhole _ hsame.symm e (h2.events.subset he),
    h1.members, h2.members, foldl_memberStep_congr hsame]

theorem Follows.canAddEvent_join (h : Follows s added1 s1)
    (htype : s.view.streamId.type? = some .gdmChannel) {m : Membership} (hjoin : m.op = .join)
    (hinvited : AwaitsJoin m.userAddress (payloads added1))
    (huser : m.userAddress ∉ s1.view.replay.members)
    (hinitiator : m.initiatorAddress ∈ s1.view.replay.members) {params : AeParams}
    (hview : params.streamView = s1.view)
    (hm : params.parsedEvent.event.payload = .member (.membership m)) (hrecent : params.Recent)
    (heap : Heap) : canAddEvent params heap =
      (params.membershipRule m params.creatorIsValidNode).run heap := by
  rw [← hview] at huser hinitiator
  have hgdm : params.streamView.streamId.type? = some .gdmChannel := by
    rw [hview, h.streamId, htype]
  rw [AeParams.canAddEvent_of_recent hrecent hm hgdm, params.validMembershipTransistionForGDM_eq
    (hview ▸ h.sound) (hview ▸ h.events) hjoin hinvited huser hinitiator]

/-- **Invitations.** In two histories of a group with the same payloads, whichever blocks carried a
    snapshot, in which a user was invited and did not join since, the rules give the same answer to
    a join of the user that comes from another member and passes the checks of time. -/
theorem gdm_join_independent (c : Creation) (h : c.createStream = .ok s)
    (events : List ParsedEvent) (hevents : c.parsedEvents = .ok events)
    (htype : c.streamId.type? = some .gdmChannel) (cfg : StreamConfig)
    {acts1 acts2 : List HistoryAction} (hs1 : (historyMachine c.crypto cfg).exec s acts1 = s1)
    (hs2 : (historyMachine c.crypto cfg).exec s acts2 = s2)
    (hadded1 : addedEvents c.crypto cfg s acts1 = added1)
    (hadded2 : addedEvents c.crypto cfg s acts2 = added2)
    (hsame : payloads added1 = payloads added2)
    (haddress : ∀ m, .member (.membership m) ∈ payloads added1 → m.userAddress.length = 20)
    (m : Membership) (hjoin : m.op = .join) (hinvited : AwaitsJoin m.userAddress (payloads added1))
    (huser : s1.view.isMember m.userAddress = .ok false)
    (hinitiator : s1.view.isMember m.initiatorAddress = .ok true)
    (validNodeAddresses : List Bytes) {currentTime1 currentTime2 : Int} {e1 e2 : ParsedEvent}
    (he1 : e1.event.payload = .member (.membership m))
    (he2 : e2.event.payload = .member (.membership m))
    (hcreator : e1.event.creatorAddress = e2.event.creatorAddress)
    (hrecent1 : (s1.params cfg validNodeAddresses currentTime1 e1).Recent)
    (hrecent2 : (s2.params cfg validNodeAddresses currentTime2 e2).Recent) :
    (canAddEvent (s1.params cfg validNodeAddresses currentTime1 e1) s1.heap).1 =
      (canAddEvent (s2.params cfg validNodeAddresses currentTime2 e2) s2.heap).1 := by
  have h1 : Follows s added1 s1 := hs1 ▸ hadded1 ▸ Creation.follows h hevents cfg acts1
  have h2 : Follows s added2 s2 := hs2 ▸ hadded2 ▸ Creation.follows h hevents cfg acts2
  have hmembers : s1.view.replay.members = s2.view.replay.members := by
    rw [h1.members, h2.members, foldl_memberStep_congr hsame]
  rw [isMember_eq_replay, h1.sound.isMember, Res.ok.injEq, decide_eq_false_iff_not] at huser
  rw [isMember_eq_replay, h1.sound.isMember, Res.ok.injEq, decide_eq_true_iff] at hinitiator
  have hgdm : s.view.streamId.type? = some .gdmChannel := by
    rw [(Creation.identity h hevents).1, htype]
  rw [h1.canAddEvent_join hgdm hjoin hinvited huser hinitiator rfl he1 hrecent1,
    h2.canAddEvent_join hgdm hjoin (hsame ▸ hinvited) (hmembers ▸ huser) (hmembers ▸ hinitiator) rfl
      he2 hrecent2]
  have hnode : (s1.params cfg validNodeAddresses currentTime1 e1).creatorIsValidNode =
      (s2.params cfg validNodeAddresses currentTime2 e2).creatorIsValidNode := by
    unfold AeParams.creatorIsValidNode AeParams.isValidNode History.params
    rw [hcreator]
  have hrule (transition : Res Bool) :
      (s1.params cfg validNodeAddresses currentTime1 e1).membershipRule m transition =
        (s2.params cfg validNodeAddresses currentTime2 e2).membershipRule m transition := by
    unfold AeParams.membershipRule AeParams.validMembershipPayload streamParentId
      AeParams.validMembershipLimit
    simp only [History.params, h1.streamId, h2.streamId, h1.inceptionPayload, h2.inceptionPayload,
      h1.getChannelMembers_congr h2 hsame haddress]
  rw [hnode, hrule]
  exact AeParams.run_membershipRule _ _ _

/-! ## A sample group -/

def sampleInvitation : Payload :=
  .member (.membership ⟨.invite, sampleAddress 7, sampleAddress 1, none⟩)

def sampleJoinOf (s : History) (initiator : Fin 256) : ParsedEvent :=
  let event := makeStreamEvent .salted
    (.member (.membership ⟨.join, sampleAddress 7, sampleAddress initiator, none⟩))
    (some s.view.lastBlock.hash) [22] 0
  ⟨event, makeEnvelopeWithEvent .salted Heap.empty event, s.nextRef⟩

/-- The user 7 was invited, and joins; the answer of the rules. -/
def sampleAnswer (s : History) (blocks : List HistoryAction) (initiator : Fin 256) :
    Res (Option Requirements) :=
  let cfg := (sampleGdm fun _ => some 10).cfg.stream
  let s' := (historyMachine .salted cfg).exec s (sampleOffer s sampleInvitation 21 :: blocks)
  (canAddEvent (s'.params cfg [sampleAddress 1] 0 (sampleJoinOf s' initiator)) s'.heap).1

def sampleSnapshot : HistoryAction := .makeMiniblock 1 true ⟨2, 0⟩ [23] 0

/-- The member 2 lets the user 7 join. -/
theorem gdm_join_independent_sample :
    ∃ s, (sampleGdm fun _ => some 10).createStream = .ok s ∧
      sampleAnswer s [] 2 = sampleAnswer s [sampleSnapshot] 2 := by
  let c := sampleGdm fun _ => some 10
  obtain ⟨s, hs, hadded1, hadded2, huser, hinitiator, hrecent1, hrecent2⟩ :
      ∃ s, c.createStream = .ok s ∧
      let acts := [sampleOffer s sampleInvitation 21]
      let s1 := (historyMachine c.crypto c.cfg.stream).exec s acts
      let s2 := (historyMachine c.crypto c.cfg.stream).exec s (acts ++ [sampleSnapshot])
      payloads (addedEvents c.crypto c.cfg.stream s acts) = [sampleInvitation] ∧
        payloads (addedEvents c.crypto c.cfg.stream s (acts ++ [sampleSnapshot])) =
          [sampleInvitation] ∧
        s1.view.isMember (sampleAddress 7) = .ok false ∧
        s1.view.isMember (sampleAddress 2) = .ok true ∧
        (s1.params c.cfg.stream [sampleAddress 1] 0 (sampleJoinOf s1 2)).Recent ∧
        (s2.params c.cfg.stream [sampleAddress 1] 0 (sampleJoinOf s2 2)).Recent := by
    decide +kernel
  refine ⟨s, hs, ?_⟩
  refine gdm_join_independent c hs sampleGdmEvents (by decide +kernel) (by decide) c.cfg.stream rfl
    rfl rfl rfl (hadded1.trans hadded2.symm) ?_ ⟨.join, sampleAddress 7, sampleAddress 2, none⟩ rfl
    ?_ huser hinitiator [sampleAddress 1] rfl rfl rfl hrecent1 hrecent2
  · intro m hm
    rw [hadded1, mem_singleton] at hm
    cases hm
    decide
  · rw [hadded1]
    refine ⟨[], _, [], rfl, rfl, fun p hp m hm _ => ?_⟩
    rw [mem_singleton.1 hp] at hm
    cases hm
    rfl

/-- The user 7 was invited and joins without the help of a member: accepted if the invitation is
    not yet in a snapshot, refused after a miniblock with a snapshot. -/
theorem gdm_invite_lost :
    (do
      let s ← (sampleGdm fun _ => some 10).createStream
      .ok [sampleAnswer s [] 7, sampleAnswer s [sampleSnapshot] 7]) =
    .ok [.ok (some (none, none)), riverError .permissionDenied "check failed"] := by
  decide +kernel

end River.Node.Rules
