/-
  Who can become a member of a stream.
-/

import River.Node.Rules.History

namespace River.Node.Rules

open River.Lib List RuleBuilder Res StreamView CsParams AeParams Creation

/-! ## What an accepted event has passed -/

variable {heap heap' : Heap} {re : RuleBuilder}

theorem RuleBuilder.run_cases (h : re.run heap = (.ok answer, heap')) :
    re.failErr = none ∧
      (runChecksAE re.checks heap = (.ok true, heap') ∧ re.requirements = .ok answer ∨
        runChecksAE re.checks heap = (.ok false, heap') ∧ answer = none) := by
  unfold run at h
  cases hfail : re.failErr with
  | some err => simp [hfail] at h
  | none =>
    simp only [hfail] at h
    refine ⟨rfl, ?_⟩
    generalize runChecksAE re.checks heap = r at h ⊢
    obtain ⟨passed, _⟩ := r
    cases passed with
    | ok b =>
      cases b with
      | true =>
        obtain ⟨hreqs, rfl⟩ := Prod.mk.inj h
        exact .inl ⟨rfl, hreqs⟩
      | false =>
        obtain ⟨hnone, rfl⟩ := Prod.mk.inj h
        exact .inr ⟨rfl, (ok.inj hnone).symm⟩
    | _ => simp at h

variable {reqs : Requirements}

theorem RuleBuilder.run_eq_ok_iff :
    re.run heap = (.ok (some reqs), heap') ↔
      re.failErr = none ∧ runChecksAE re.checks heap = (.ok true, heap') ∧
        re.requirements = .ok (some reqs) := by
  constructor
  · intro h
    obtain ⟨hfail, ⟨hchecks, hreqs⟩ | ⟨-, hno⟩⟩ := run_cases h
    · exact ⟨hfail, hchecks, hreqs⟩
    · cases hno
  · rintro ⟨hfail, hchecks, hreqs⟩
    simp [run, hfail, hchecks, hreqs]

theorem runChecksAE_cons_pure {checks : List (List Check)} :
    runChecksAE ([.pure answer] :: checks) heap = (.ok true, heap') ↔
      answer = .ok true ∧ runChecksAE checks heap = (.ok true, heap') := by
  cases answer with
  | ok b => cases b <;> simp [runChecksAE, runOneOf, Check.pure]
  | error e => simp [runChecksAE, runOneOf, Check.pure, riverError]
  | panic m => simp [runChecksAE, runOneOf, Check.pure]

variable {transition : Res Bool}

namespace AeParams

variable {params : AeParams} {m : Membership}

theorem validMembershipTransistion_of_byNode
    (h : params.validMembershipTransistionByNode m = .ok true) :
    params.validMembershipTransistion m = .ok true := by
  obtain ⟨_, -, h⟩ := bind_eq_ok.1 h
  split at h
  · exact h
  · cases h

theorem validMembershipTransistion_of_dm (h : params.validMembershipTransistionForDM m = .ok true) :
    params.validMembershipTransistion m = .ok true ∧
      ∃ i, params.streamView.getDMChannelInception = .ok i ∧
        m.userAddress ∈ [i.firstPartyAddress, i.secondPartyAddress] := by
  obtain ⟨_, hvalid, h⟩ := bind_eq_ok.1 h
  split at h
  swap
  · cases h
  rename_i htrue
  subst htrue
  obtain ⟨i, hi, h⟩ := bind_eq_ok.1 h
  refine ⟨validMembershipTransistion_of_byNode hvalid, i, hi, ?_⟩
  simp only at h
  split at h
  · cases h
  split at h
  · cases h
  · rename_i hmem
    exact not_not.1 hmem

theorem validMembershipTransistion_of_gdm
    (h : params.validMembershipTransistionForGDM m = .ok true) :
    params.validMembershipTransistion m = .ok true := by
  obtain ⟨_, hvalid, h⟩ := bind_eq_ok.1 h
  split at h
  · rename_i htrue
    subst htrue
    exact validMembershipTransistion_of_byNode hvalid
  · cases h

theorem membershipRule_checks : (params.membershipRule m transition).checks =
    [[.pure (params.validMembershipPayload m)], [.pure transition],
      [.pure (params.validMembershipLimit m)]] := rfl

theorem runChecksAE_membershipRule :
    runChecksAE (params.membershipRule m transition).checks heap = (.ok true, heap') ↔
      params.validMembershipPayload m = .ok true ∧ transition = .ok true ∧
        params.validMembershipLimit m = .ok true ∧ runChecksAE [] heap = (.ok true, heap') := by
  rw [membershipRule_checks, runChecksAE_cons_pure, runChecksAE_cons_pure, runChecksAE_cons_pure]

theorem canAddEvent_membership (hm : params.parsedEvent.event.payload = .member (.membership m)) :
    params.canAddEvent = params.canAddMembership m := by
  simp [canAddEvent, hm, canAddMemberPayload]

theorem accepted_membership (hm : params.parsedEvent.event.payload = .member (.membership m))
    (h : Rules.canAddEvent params heap = (.ok (some reqs), heap')) :
    params.validMembershipTransistion m = .ok true ∧ params.validMembershipLimit m = .ok true ∧
      (params.streamView.streamId.type? = some .dmChannel →
        ∃ i, params.streamView.getDMChannelInception = .ok i ∧
          m.userAddress ∈ [i.firstPartyAddress, i.secondPartyAddress]) := by
  obtain ⟨-, -, -, -, hrun⟩ := canAddEvent_eq_ok.1 h
  rw [canAddEvent_membership hm] at hrun
  obtain ⟨hfail, hchecks, -⟩ := run_eq_ok_iff.1 hrun
  unfold canAddMembership at hfail hchecks
  split at hchecks
  case h_5 => simp [fail] at hfail
  all_goals
    rename_i htype
    obtain ⟨-, htransition, hlimit, -⟩ := runChecksAE_membershipRule.1 hchecks
  case h_3 =>
    obtain ⟨hvalid, hparty⟩ := validMembershipTransistion_of_dm htransition
    exact ⟨hvalid, hlimit, fun _ => hparty⟩
  case h_4 =>
    exact ⟨validMembershipTransistion_of_gdm htransition, hlimit, fun hdm => by simp [htype] at hdm⟩
  all_goals
    exact ⟨validMembershipTransistion_of_byNode htransition, hlimit,
      fun hdm => by simp [htype] at hdm⟩

theorem leave_of_validTransition (h : validTransition .join op = .ok true) : op = .leave := by
  unfold validTransition at h
  split at h
  · cases h
  simp only at h
  split at h
  · assumption
  · cases h

theorem accepted_sparesMembers (hsound : params.streamView.replay.Sound)
    (h : Rules.canAddEvent params heap = (.ok (some reqs), heap')) :
    SparesMembers params.streamView.replay.members params.parsedEvent := by
  intro m hm hjoin hleave hmember
  obtain ⟨hvalid, -, -⟩ := accepted_membership hm h
  unfold validMembershipTransistion at hvalid
  split at hvalid
  · cases hvalid
  obtain ⟨_, hcurrent, hvalid⟩ := bind_eq_ok.1 hvalid
  obtain ⟨_, hop, hmem⟩ := hsound.getMembership m.userAddress
  rw [getMembership_eq_replay, hop, ok.injEq] at hcurrent
  rw [← hcurrent, hmem.2 hmember] at hvalid
  exact hleave (leave_of_validTransition hvalid)

end AeParams

/-! ## Members along a history -/

structure HistoryStep.Keeps (s s' : History) (added : Option ParsedEvent) : Prop where
  sound : s'.view.replay.Sound
  members : s'.view.replay.members = added.toList.foldl memberStep s.view.replay.members
  streamId : s'.view.streamId = s.view.streamId
  inceptionPayload : s'.view.inceptionPayload = s.view.inceptionPayload

variable {C : Crypto} {cfg : StreamConfig} {s s' : History} {added : Option ParsedEvent}

theorem HistoryStep.keeps (h : HistoryStep C cfg s s' added) (hs : s.view.replay.Sound) :
    HistoryStep.Keeps s s' added := by
  have hinception : ∀ v : StreamView, v.inceptionPayload = v.replay.snapshot.getInceptionPayload :=
    fun _ => rfl
  cases h with
  | asked _ _ => exact ⟨hs, rfl, rfl, rfl⟩
  | added _ _ canAdd add =>
    have hreplay := replay_copyAndAddEvent add
    obtain ⟨-, -, m, -, hview⟩ := copyAndAddEvent_eq_ok.1 add
    refine ⟨?_, ?_, by rw [hview], ?_⟩
    · rw [hreplay]
      exact hs.concat (accepted_sparesMembers hs canAdd)
    · rw [hreplay, Replay.members_concat]
      rfl
    · rw [hinception, hinception, hreplay]
  | block replay sid _ =>
    refine ⟨by rw [replay]; exact hs, by rw [replay]; rfl, sid, ?_⟩
    rw [hinception, hinception, replay]
  | snapshot events updates replay _ =>
    rcases replay with rfl | ⟨hreplay, sid⟩
    · exact ⟨hs, rfl, rfl, rfl⟩
    obtain ⟨hsound, hmembers⟩ := hs.takeIn events updates
    refine ⟨by rw [hreplay]; exact hsound, by rw [hreplay]; exact hmembers, sid, ?_⟩
    rw [hinception, hreplay]
    exact updates.getInceptionPayload

/-! ## What an accepted creation has passed -/

theorem runChecksCS_singletons {fns : List (Res Unit)}
    (h : runChecksCS (fns.map ([·])) = .ok ()) : ∀ f ∈ fns, f = .ok () := by
  simpa [runChecksCS_eq_ok] using h

variable {rules : CreateStreamRules}

theorem RuleBuilderCS.checks_of_run {re : RuleBuilderCS} (h : re.run = .ok rules) :
    runChecksCS re.checks = .ok () := by
  unfold RuleBuilderCS.run at h
  split at h
  · cases h
  · obtain ⟨_, hchecks, -⟩ := bind_eq_ok.1 h
    exact hchecks

variable {dmHash : Bytes → Bytes} {currentTime : Int} {sid : StreamId}
    {events : List ParsedEvent} {spaceIdMetadata : Option Bytes}

theorem canCreateStream_eq_ok {cfg : Config}
    (h : canCreateStream cfg dmHash currentTime sid events spaceIdMetadata = .ok rules) :
    ∃ e es, ∃ ru : CsParams, ∃ builder : RuleBuilderCS, events = e :: es ∧
      e.event.getInceptionPayload = some ru.inceptionPayload ∧
      ru.creatorAddress = e.event.creatorAddress ∧
        sid.bytes = ru.inceptionPayload.getStreamId ∧
      ru.cfg = cfg ∧ ru.streamId = sid ∧ ru.parsedEvents = events ∧
        ru.canCreateStream = .ok builder ∧
      runChecksCS builder.checks = .ok () := by
  cases events with
  | nil => cases h
  | cons e es =>
    simp only [canCreateStream] at h
    split at h
    · cases h
    obtain ⟨_, -, h⟩ := bind_eq_ok.1 h
    obtain ⟨_, -, h⟩ := bind_eq_ok.1 h
    obtain ⟨-, -, h⟩ := bind_eq_ok.1 h
    split at h
    · cases h
    rename_i i hi
    split at h
    · cases h
    rename_i hsid
    obtain ⟨builder, hbuilder, h⟩ := bind_eq_ok.1 h
    refine ⟨e, es, _, builder, rfl, hi, rfl, ?_, rfl, rfl, rfl, hbuilder,
      RuleBuilderCS.checks_of_run h⟩
    simpa [StreamId.equalsBytes] using hsid

variable {c : Creation}

theorem Creation.identity (h : c.createStream = .ok s) (hevents : c.parsedEvents = .ok events) :
    s.view.streamId = c.streamId ∧
      ∃ e es, events = e :: es ∧ s.view.inceptionPayload = e.event.getInceptionPayload := by
  obtain ⟨_, _, _, _, hevents', hrules, hgenesis, hreplay, hsid, -⟩ :=
    createStream_eq_ok h
  obtain rfl := ok.inj (hevents.symm.trans hevents')
  obtain ⟨e, es, _, -, rfl, hi, -, hbytes, -⟩ := canCreateStream_eq_ok hrules
  obtain ⟨e', he', hinception⟩ := makeGenesisSnapshot_getInceptionPayload hgenesis
  obtain rfl : e = e' := by simpa using he'
  refine ⟨?_, e, es, rfl, ?_⟩
  · rw [streamIdOfSnapshot, hinception, hi] at hsid
    simp only at hsid
    rw [← hbytes, StreamId.fromBytes_eq_ok.2 rfl] at hsid
    exact (ok.inj hsid).symm
  · have hview : s.view.inceptionPayload = s.view.replay.snapshot.getInceptionPayload := rfl
    rw [hview, hreplay]
    exact hinception

def inceptionOf (events : List ParsedEvent) : Option InceptionPayload :=
  events.head?.bind (·.event.getInceptionPayload)

theorem card_memberStep_le (members : Finset Bytes) (e : ParsedEvent) :
    (memberStep members e).card ≤ members.card ∨
      ∃ m, e.event.payload = .member (.membership m) ∧ m.op = .join ∧
        (memberStep members e).card ≤ members.card + 1 := by
  obtain ⟨m, hm⟩ | hno := membership_cases e
  · simp only [memberStep, hm]
    cases hop : m.op with
    | join => exact .inr ⟨m, rfl, hop, Finset.card_insert_le _ _⟩
    | leave => exact .inl Finset.card_erase_le
    | _ => exact .inl le_rfl
  · exact .inl (by rw [memberStep_of_ne hno])

theorem card_foldl_memberStep_le (es : List ParsedEvent) (members : Finset Bytes) :
    (es.foldl memberStep members).card ≤ members.card + es.length := by
  induction es generalizing members with
  | nil => simp
  | cons e es ih =>
    have hrest := ih (memberStep members e)
    rw [foldl_cons, length_cons]
    obtain hle | ⟨m, -, -, hle⟩ := card_memberStep_le members e <;> omega

variable {ru : CsParams}

theorem CsParams.length_of_eventCountMatches (h : ru.eventCountMatches n = .ok ()) :
    ru.parsedEvents.length = n := by
  unfold eventCountMatches at h
  split at h
  · cases h
  · rename_i hno
    exact not_not.1 hno

theorem CsParams.length_of_checkGDMPayloads (h : ru.checkGDMPayloads = .ok ()) :
    4 ≤ ru.parsedEvents.length ∧
      (ru.parsedEvents.length : Int) - 1 ≤ ru.cfg.stream.getMembershipLimit ru.streamId := by
  unfold checkGDMPayloads at h
  split at h
  · rename_i hevents
    simp only at h
    split at h
    · cases h
    · rename_i hno
      exact ⟨by simp [hevents], not_lt.1 hno⟩
  · cases h

variable {builder : RuleBuilderCS}

theorem CsParams.checkGDMPayloads_of_checks (hi : ru.inceptionPayload = .gdmChannel i)
    (hbuilder : ru.canCreateStream = .ok builder)
    (hchecks : runChecksCS builder.checks = .ok ()) : ru.checkGDMPayloads = .ok () := by
  simp only [canCreateStream, hi] at hbuilder
  split at hbuilder
  · cases hbuilder
  cases hbuilder
  have hall : ∀ f ∈ [ru.streamIdTypeIsCorrect .gdmChannel, ru.eventCountGreaterThanOrEqualTo 4,
      ru.checkGDMPayloads], f = .ok () := runChecksCS_singletons hchecks
  exact hall ru.checkGDMPayloads (by simp)

theorem CsParams.length_of_canCreateStream (hbuilder : ru.canCreateStream = .ok builder)
    (hchecks : runChecksCS builder.checks = .ok ()) :
    match ru.inceptionPayload with
    | .space _ | .channel _ => ru.parsedEvents.length = 2
    | .dmChannel _ => True
    | .gdmChannel _ => 4 ≤ ru.parsedEvents.length ∧
        (ru.parsedEvents.length : Int) - 1 ≤ ru.cfg.stream.getMembershipLimit ru.streamId
    | _ => ru.parsedEvents.length = 1 := by
  cases hinception : ru.inceptionPayload with
  | dmChannel i => trivial
  | gdmChannel i =>
    exact length_of_checkGDMPayloads (checkGDMPayloads_of_checks hinception hbuilder hchecks)
  | _ i =>
    simp only [canCreateStream, hinception] at hbuilder
    cases hbuilder
    exact length_of_eventCountMatches (runChecksCS_singletons hchecks _ (by simp))

theorem card_inceptionMembers_le (e : ParsedEvent) (i : InceptionPayload) :
    e.event.getInceptionPayload = some i → match i with
      | .space _ | .channel _ | .gdmChannel _ => (inceptionMembers e).card ≤ 0
      | .dmChannel _ => True
      | _ => (inceptionMembers e).card ≤ 1 := by
  intro hi
  unfold inceptionMembers
  rw [hi]
  cases i with
  | user i | userDeviceKey i | userSettings i | userInbox i =>
    simp only [makeSnapshotMembers]
    cases getUserAddressFromStreamIdBytes i.streamId with
    | ok address => exact toFinset_card_le _
    | _ => exact Nat.zero_le _
  | dmChannel i => trivial
  | _ i => exact toFinset_card_le _

theorem genesisMembers_card_le (h : c.createStream = .ok s) (hevents : c.parsedEvents = .ok events)
    (hlimit : 0 < c.cfg.stream.getMembershipLimit c.streamId)
    (hdm : ∀ i, inceptionOf events ≠ some (.dmChannel i)) :
    ((genesisMembers events).card : Int) ≤ c.cfg.stream.getMembershipLimit c.streamId := by
  obtain ⟨_, _, -, -, hevents', hrules, -, -, -, -⟩ := createStream_eq_ok h
  obtain rfl := ok.inj (hevents.symm.trans hevents')
  obtain ⟨e, es, ru, _, rfl, hi, -, -, hcfg, hsid, hparsed, hbuilder, hchecks⟩ :=
    canCreateStream_eq_ok hrules
  have hcard : (genesisMembers (e :: es)).card ≤ (inceptionMembers e).card + es.length :=
    card_foldl_memberStep_le es (inceptionMembers e)
  have hfirst := card_inceptionMembers_le e _ hi
  have hlength := length_of_canCreateStream hbuilder hchecks
  rw [hparsed, hcfg, hsid, length_cons] at hlength
  cases hinception : ru.inceptionPayload with
  | dmChannel i => exact absurd (hinception ▸ hi) (hdm i)
  | _ i =>
    simp only [hinception] at hfirst hlength
    omega

/-! ## Direct messages -/

/-- Whatever is added, members satisfy `P`. -/
def History.MembersSatisfy (C : Crypto) (cfg : StreamConfig) (s : History) (P : Bytes → Prop) :
    Prop :=
  ∀ acts : List HistoryAction,
    (∀ u, ((historyMachine C cfg).exec s acts).view.isMember u = .ok true → P u) ∧
      ∀ members, ((historyMachine C cfg).exec s acts).view.getChannelMembers = .ok members →
        ∀ u ∈ members, P u

variable {v : StreamView} {u : Bytes} {members : Finset Bytes}

theorem isMember_iff (h : v.replay.Sound) : v.isMember u = .ok true ↔ u ∈ v.replay.members := by
  rw [isMember_eq_replay, h.isMember, ok.injEq, decide_eq_true_iff]

theorem getChannelMembers_eq_members (h : v.replay.Sound) (hm : v.getChannelMembers = .ok members) :
    members = v.replay.members := by
  rw [getChannelMembers_eq_replay] at hm
  exact h.getChannelMembers_eq_ok hm

theorem History.membersSatisfy_iff
    (hsound : ∀ acts, ((historyMachine C cfg).exec s acts).view.replay.Sound) :
    s.MembersSatisfy C cfg P ↔
      ∀ acts, ∀ u ∈ ((historyMachine C cfg).exec s acts).view.replay.members, P u := by
  constructor
  · exact fun h acts u hu => (h acts).1 u ((isMember_iff (hsound acts)).2 hu)
  intro h acts
  refine ⟨fun u hu => h acts u ((isMember_iff (hsound acts)).1 hu), fun members hmembers u hu => ?_⟩
  rw [getChannelMembers_eq_members (hsound acts) hmembers] at hu
  exact h acts u hu

theorem Creation.sound_exec (h : c.createStream = .ok s) (hevents : c.parsedEvents = .ok events)
    (cfg : StreamConfig) (acts : List HistoryAction) :
    ((historyMachine c.crypto cfg).exec s acts).view.replay.Sound := by
  obtain ⟨hsound, -, hdecoded⟩ := c.sound h hevents
  exact history_invariant (fun s s' added hs hstep => (hstep.keeps hs).sound) hdecoded hsound acts

def inceptionType : InceptionPayload → StreamType
  | .space _ => .space
  | .channel _ => .channel
  | .dmChannel _ => .dmChannel
  | .gdmChannel _ => .gdmChannel
  | .user _ => .user
  | .userInbox _ => .userInbox
  | .userSettings _ => .userSettings
  | .userDeviceKey _ => .userDeviceKey
  | .media _ => .media

theorem CsParams.type_of_checks (hbuilder : ru.canCreateStream = .ok builder)
    (hchecks : runChecksCS builder.checks = .ok ()) :
    ru.streamId.type? = some (inceptionType ru.inceptionPayload) := by
  have hfirst : ∃ rest, builder.checks =
      [ru.streamIdTypeIsCorrect (inceptionType ru.inceptionPayload)] :: rest := by
    cases hinception : ru.inceptionPayload with
    | gdmChannel i =>
      simp only [canCreateStream, hinception] at hbuilder
      split at hbuilder
      · cases hbuilder
      · cases hbuilder
        exact ⟨_, rfl⟩
    | _ =>
      simp only [canCreateStream, hinception] at hbuilder
      cases hbuilder
      exact ⟨_, rfl⟩
  obtain ⟨rest, hfirst⟩ := hfirst
  rw [hfirst] at hchecks
  obtain ⟨_, hone, -⟩ := bind_eq_ok.1 hchecks
  by_contra hne
  rw [streamIdTypeIsCorrect, if_neg hne] at hone
  cases hone

theorem Creation.inceptionType_eq (h : c.createStream = .ok s) :
    ∃ i, s.view.inceptionPayload = some i ∧ c.streamId.type? = some (inceptionType i) := by
  obtain ⟨_, _, -, -, hevents, hrules, -, -, -, -⟩ := createStream_eq_ok h
  obtain ⟨-, e, _, rfl, hinception⟩ := identity h hevents
  obtain ⟨_, _, ru, _, heq, hru, -, -, -, hsid, -, hbuilder, hchecks⟩ :=
    canCreateStream_eq_ok hrules
  cases heq
  refine ⟨ru.inceptionPayload, hinception.trans hru, ?_⟩
  rw [← hsid]
  exact type_of_checks hbuilder hchecks

variable {i : DmChannelInception}

theorem Creation.dm_identity (h : c.createStream = .ok s) (hevents : c.parsedEvents = .ok events)
    (hi : inceptionOf events = some (.dmChannel i)) :
    s.view.streamId.type? = some .dmChannel ∧ s.view.inceptionPayload = some (.dmChannel i) := by
  obtain ⟨hsid, e, _, rfl, hinception⟩ := identity h hevents
  obtain ⟨i', hi', htype⟩ := inceptionType_eq h
  have hpayload : s.view.inceptionPayload = some (.dmChannel i) := hinception.trans hi
  obtain rfl : i' = .dmChannel i := Option.some.inj (hi'.symm.trans hpayload)
  exact ⟨hsid ▸ htype, hpayload⟩

structure DmInv (i : DmChannelInception) (s : History) : Prop where
  sound : s.view.replay.Sound
  type : s.view.streamId.type? = some .dmChannel
  inception : s.view.inceptionPayload = some (.dmChannel i)
  parties : ∀ u ∈ s.view.replay.members, u = i.firstPartyAddress ∨ u = i.secondPartyAddress

theorem DmInv.step (hs : DmInv i s) (h : HistoryStep C cfg s s' added) : DmInv i s' := by
  have hkeeps := h.keeps hs.sound
  refine ⟨hkeeps.sound, hkeeps.streamId ▸ hs.type, hkeeps.inceptionPayload ▸ hs.inception, ?_⟩
  intro u hu
  rw [hkeeps.members] at hu
  cases h with
  | @added e _ _ _ _ _ _ _ canAdd _ =>
    have hu : u ∈ memberStep s.view.replay.members e := hu
    obtain ⟨m, hm⟩ | hno := membership_cases e
    · -- a membership event is accepted only for a party
      obtain ⟨-, -, hdm⟩ := accepted_membership hm canAdd
      obtain ⟨i', hi', hparty⟩ := hdm hs.type
      have hsame : i' = i := by
        simp only [getDMChannelInception, hs.inception, ok.injEq] at hi'
        exact hi'.symm
      subst hsame
      rw [mem_memberStep hm] at hu
      split at hu
      · rename_i hjoin
        rw [← hjoin.1]
        simpa using hparty
      · split at hu
        · exact hu.elim
        · exact hs.parties u hu
    · rw [memberStep_of_ne hno] at hu
      exact hs.parties u hu
  | _ => exact hs.parties u hu

/-- **Direct messages.** For a direct message that the rules accept, only the two parties are
    ever members exactly if the genesis events make nobody else one. -/
theorem dm_members_are_parties (c : Creation) (s : History) (h : c.createStream = .ok s)
    (events : List ParsedEvent) (hevents : c.parsedEvents = .ok events) (i : DmChannelInception)
    (hi : inceptionOf events = some (.dmChannel i)) :
    s.MembersSatisfy c.crypto c.cfg.stream
        (fun u => u = i.firstPartyAddress ∨ u = i.secondPartyAddress) ↔
      genesisMembers events ⊆ {i.firstPartyAddress, i.secondPartyAddress} := by
  obtain ⟨hsound, hmembers, hdecoded⟩ := c.sound h hevents
  rw [History.membersSatisfy_iff (sound_exec h hevents _)]
  constructor
  · intro hall u hu
    rw [← hmembers] at hu
    simpa using hall [] u hu
  · intro hgenesis acts
    obtain ⟨htype, hinception⟩ := dm_identity h hevents hi
    have hinit : DmInv i s := by
      refine ⟨hsound, htype, hinception, fun u hu => ?_⟩
      rw [hmembers] at hu
      simpa using hgenesis hu
    exact (history_invariant (fun s s' added => .step) hdecoded hinit acts).parties

/-! ## Sample requests -/

def sampleEvent (payload : Payload) (salt : Fin 256) (ref : Nat) : ParsedEvent :=
  let event := makeStreamEvent .salted payload none [salt] 0
  ⟨event, makeEnvelopeWithEvent .salted Heap.empty event, ref⟩

def sampleAddress (n : Fin 256) : Bytes := replicate 20 n

def sampleJoin (n : Fin 256) (ref : Nat) : ParsedEvent :=
  sampleEvent (.member (.membership ⟨.join, sampleAddress n, sampleAddress 1, none⟩)) (n + 10) ref

def sampleId (type : StreamType) (h : checkExpectedLength (type.bin :: replicate 31 0) = .ok ()) :
    StreamId := ⟨type.bin :: replicate 31 0, h⟩

def sampleCreation (streamId : StreamId) (events : List ParsedEvent)
    (limits : Fin 256 → Option Int) : Creation where
  crypto := .salted
  cfg := ⟨⟨⟨11, 5⟩, 2, fun _ => none, limits, 500000⟩, 10, true⟩
  dmHash _ := replicate 31 0
  currentTime := 0
  streamId := streamId
  envelopes := events.map (·.envelope)
  spaceIdMetadata := none
  now := ⟨1, 0⟩
  salt := [9]
  epochMillis := 0

def sampleDmId : StreamId := sampleId .dmChannel (by decide)

def sampleDmInception : DmChannelInception :=
  ⟨sampleDmId.bytes, sampleAddress 1, sampleAddress 2, none⟩

def sampleDmEvents (a b : Fin 256) : List ParsedEvent :=
  [sampleEvent (.dmChannel (.inception sampleDmInception)) 1 0, sampleJoin a 1, sampleJoin b 2]

def sampleDm (a b : Fin 256) (limits : Fin 256 → Option Int) : Creation :=
  sampleCreation sampleDmId (sampleDmEvents a b) limits

theorem dm_members_are_parties_sample :
    ∃ s, (sampleDm 1 2 fun _ => none).createStream = .ok s ∧
      s.MembersSatisfy .salted (sampleDm 1 2 fun _ => none).cfg.stream
        (fun u => u = sampleAddress 1 ∨ u = sampleAddress 2) := by
  have hok : (sampleDm 1 2 fun _ => none).createStream.isOk = true := by decide +kernel
  obtain ⟨s, hs⟩ := isOk_iff.1 hok
  refine ⟨s, hs, ?_⟩
  exact (dm_members_are_parties (sampleDm 1 2 fun _ => none) s hs (sampleDmEvents 1 2)
    (by decide +kernel) sampleDmInception (by decide +kernel)).2 (by decide +kernel)

/-- A third user who joins among the genesis events is a member of the direct message. -/
theorem dm_third_member :
    ∃ s, (sampleDm 2 3 fun _ => none).createStream = .ok s ∧
      s.view.getDMChannelInception = .ok sampleDmInception ∧
      s.view.isMember (sampleAddress 3) = .ok true ∧
      sampleAddress 3 ∉ [sampleDmInception.firstPartyAddress,
        sampleDmInception.secondPartyAddress] := by
  decide +kernel

/-! ## Limits -/

/-- Whatever is added, there are at most `limit` members. -/
def History.MembersWithin (C : Crypto) (cfg : StreamConfig) (s : History) (limit : Int) : Prop :=
  ∀ acts : List HistoryAction,
    (∀ users : Finset Bytes,
      (∀ u ∈ users, ((historyMachine C cfg).exec s acts).view.isMember u = .ok true) →
        (users.card : Int) ≤ limit) ∧
      ∀ members, ((historyMachine C cfg).exec s acts).view.getChannelMembers = .ok members →
        (members.card : Int) ≤ limit

theorem History.membersWithin_iff
    (hsound : ∀ acts, ((historyMachine C cfg).exec s acts).view.replay.Sound) :
    s.MembersWithin C cfg limit ↔
      ∀ acts, (((historyMachine C cfg).exec s acts).view.replay.members.card : Int) ≤ limit := by
  constructor
  · exact fun h acts => (h acts).1 _ fun u hu => (isMember_iff (hsound acts)).2 hu
  intro h acts
  refine ⟨fun users husers => le_trans ?_ (h acts), fun members hmembers => ?_⟩
  · exact_mod_cast Finset.card_le_card fun u hu => (isMember_iff (hsound acts)).1 (husers u hu)
  · rw [getChannelMembers_eq_members (hsound acts) hmembers]
    exact h acts

theorem AeParams.card_lt_of_validMembershipLimit {params : AeParams} {m : Membership}
    (hsound : params.streamView.replay.Sound) (hjoin : m.op = .join)
    (hlimit : 0 < params.cfg.getMembershipLimit params.streamView.streamId)
    (h : params.validMembershipLimit m = .ok true) :
    (params.streamView.replay.members.card : Int) <
      params.cfg.getMembershipLimit params.streamView.streamId := by
  unfold validMembershipLimit at h
  rw [if_pos (.inl hjoin)] at h
  obtain ⟨_, hmembers, h⟩ := bind_eq_ok.1 h
  rw [getChannelMembers_eq_members hsound hmembers] at h
  simp only at h
  split at h
  · cases h
  · rename_i hno
    by_contra hge
    exact hno ⟨hlimit, by omega⟩

structure LimitInv (streamId : StreamId) (limit : Int) (s : History) : Prop where
  sound : s.view.replay.Sound
  streamId_eq : s.view.streamId = streamId
  card_le : (s.view.replay.members.card : Int) ≤ limit

theorem LimitInv.step (hlimit : 0 < cfg.getMembershipLimit sid)
    (hs : LimitInv sid (cfg.getMembershipLimit sid) s) (h : HistoryStep C cfg s s' added) :
    LimitInv sid (cfg.getMembershipLimit sid) s' := by
  have hkeeps := h.keeps hs.sound
  refine ⟨hkeeps.sound, hkeeps.streamId.trans hs.streamId_eq, ?_⟩
  rw [hkeeps.members]
  have hold := hs.card_le
  cases h with
  | @added e _ _ _ _ _ _ _ canAdd _ =>
    show ((memberStep s.view.replay.members e).card : Int) ≤ _
    obtain hle | ⟨m, hm, hop, hle⟩ := card_memberStep_le s.view.replay.members e
    · omega
    obtain ⟨-, hvalid, -⟩ := accepted_membership hm canAdd
    rw [← hs.streamId_eq] at hlimit
    have hlt := card_lt_of_validMembershipLimit hs.sound hop hlimit hvalid
    simp only [hs.streamId_eq] at hlt
    omega
  | _ => exact hold

theorem membersWithin_limit_iff (h : c.createStream = .ok s) (hevents : c.parsedEvents = .ok events)
    (hlimit : 0 < c.cfg.stream.getMembershipLimit c.streamId) :
    s.MembersWithin c.crypto c.cfg.stream (c.cfg.stream.getMembershipLimit c.streamId) ↔
      ∀ i, inceptionOf events = some (.dmChannel i) →
        ((genesisMembers events).card : Int) ≤ c.cfg.stream.getMembershipLimit c.streamId := by
  obtain ⟨hsound, hmembers, hdecoded⟩ := c.sound h hevents
  rw [History.membersWithin_iff (sound_exec h hevents _)]
  constructor
  · intro hall i hi
    rw [← hmembers]
    exact hall []
  · intro hdm acts
    have hgenesis : ((genesisMembers events).card : Int) ≤
        c.cfg.stream.getMembershipLimit c.streamId := by
      by_cases hi : ∃ i, inceptionOf events = some (.dmChannel i)
      · obtain ⟨i, hi⟩ := hi
        exact hdm i hi
      · exact genesisMembers_card_le h hevents hlimit fun i hi' => hi ⟨i, hi'⟩
    have hinit : LimitInv c.streamId (c.cfg.stream.getMembershipLimit c.streamId) s :=
      ⟨hsound, (identity h hevents).1, hmembers ▸ hgenesis⟩
    exact (history_invariant (fun s s' added => .step hlimit) hdecoded hinit acts).card_le

def withLimits (cfg : StreamConfig) (limits : Fin 256 → Option Int) : StreamConfig :=
  { cfg with streamMembershipLimits := limits }

def Config.withLimits (cfg : Config) (limits : Fin 256 → Option Int) : Config :=
  { cfg with stream := Rules.withLimits cfg.stream limits }

def AeParams.withLimits (params : AeParams) (limits : Fin 256 → Option Int) : AeParams :=
  { params with cfg := Rules.withLimits params.cfg limits }

namespace AeParams

variable {params : AeParams} {m : Membership} {limits : Fin 256 → Option Int}

theorem validMembershipLimit_of_withLimits
    (hzero : params.cfg.getMembershipLimit params.streamView.streamId = 0)
    (h : (params.withLimits limits).validMembershipLimit m = .ok true) :
    params.validMembershipLimit m = .ok true := by
  unfold validMembershipLimit at h ⊢
  split at h
  · obtain ⟨members, hmembers, -⟩ := bind_eq_ok.1 h
    have hmembers : params.streamView.getChannelMembers = .ok members := hmembers
    rw [hmembers]
    simp [hzero]
  · rename_i hop
    rw [if_neg hop]

theorem run_membershipRule_of_withLimits (f : RuleBuilder → RuleBuilder)
    (hchecks : ∀ re, (f re).checks = re.checks) (hfail : ∀ re, (f re).failErr = re.failErr)
    (hreqs : ∀ re re', re.checks.length = re'.checks.length → re.chainAuth = re'.chainAuth →
      re.parentEvent = re'.parentEvent → (f re).requirements = (f re').requirements)
    (hzero : params.cfg.getMembershipLimit params.streamView.streamId = 0)
    (h : (f ((params.withLimits limits).membershipRule m transition)).run heap =
      (.ok (some reqs), heap')) :
    (f (params.membershipRule m transition)).run heap = (.ok (some reqs), heap') := by
  rw [run_eq_ok_iff, hchecks, hfail] at h ⊢
  obtain ⟨-, hrun, hreq⟩ := h
  obtain ⟨hpayload, htransition, hlimit, hnil⟩ := runChecksAE_membershipRule.1 hrun
  refine ⟨rfl, runChecksAE_membershipRule.2 ⟨hpayload, htransition, ?_, hnil⟩, ?_⟩
  · exact validMembershipLimit_of_withLimits hzero hlimit
  · rw [← hreq]
    exact hreqs _ _ rfl rfl rfl

end AeParams

theorem canAddEvent_of_withLimits {params : AeParams}
    (hzero : params.cfg.getMembershipLimit params.streamView.streamId = 0)
    (h : canAddEvent (params.withLimits limits) heap = (.ok (some reqs), heap')) :
    canAddEvent params heap = (.ok (some reqs), heap') := by
  obtain ⟨hexpired, hprev, hvalid, hpayload, hrun⟩ := canAddEvent_eq_ok.1 h
  refine canAddEvent_eq_ok.2 ⟨hexpired, hprev, hvalid, hpayload, ?_⟩
  obtain ⟨m, hm⟩ | hno := membership_cases params.parsedEvent
  · -- only the rule for memberships looks at the limit
    have hm' : (params.withLimits limits).parsedEvent.event.payload = .member (.membership m) := hm
    rw [canAddEvent_membership hm'] at hrun
    rw [canAddEvent_membership hm]
    unfold canAddMembership at hrun ⊢
    have htype : (params.withLimits limits).streamView.streamId.type? =
      params.streamView.streamId.type? := rfl
    rw [htype] at hrun
    split at hrun
    · exact run_membershipRule_of_withLimits
        (·.requireChainAuth (params.spaceMembershipEntitlements m)) (fun _ => rfl) (fun _ => rfl)
        (fun re re' hlen _ hparent => by
          simp [requirements, requireChainAuth, hlen, hparent]) hzero hrun
    · exact run_membershipRule_of_withLimits
        (fun re => (re.requireChainAuth (params.channelMembershipEntitlements m)).requireParentEvent
          (params.requireStreamParentMembership m)) (fun _ => rfl) (fun _ => rfl)
        (fun re re' hlen _ _ => by
          simp [requirements, requireChainAuth, requireParentEvent, hlen]) hzero hrun
    · exact run_membershipRule_of_withLimits id (fun _ => rfl) (fun _ => rfl)
        (fun re re' hlen hauth hparent => by
          simp [requirements, hlen, hauth, hparent]) hzero hrun
    · exact run_membershipRule_of_withLimits id (fun _ => rfl) (fun _ => rfl)
        (fun re re' hlen hauth hparent => by
          simp [requirements, hlen, hauth, hparent]) hzero hrun
    · exact hrun
  · have hsame : (params.withLimits limits).canAddEvent = params.canAddEvent := by
      have hpayload : (params.withLimits limits).parsedEvent = params.parsedEvent := rfl
      unfold AeParams.canAddEvent
      rw [hpayload]
      cases hp : params.parsedEvent.event.payload with
      | member p =>
        cases p with
        | membership m => exact absurd hp (hno m)
        | _ => rfl
      | _ => rfl
    rw [← hsame]
    exact hrun

theorem canCreateStream_gdm_of_zero {cfg : Config} {i : GdmChannelInception}
    (hi : inceptionOf events = some (.gdmChannel i))
    (hzero : cfg.stream.getMembershipLimit sid = 0) (rules : CreateStreamRules) :
    canCreateStream cfg dmHash currentTime sid events spaceIdMetadata ≠ .ok rules := by
  intro h
  obtain ⟨e, _, ru, _, rfl, hru, -, -, rfl, rfl, -, hbuilder, hchecks⟩ :=
    canCreateStream_eq_ok h
  have hpayload : ru.inceptionPayload = .gdmChannel i := Option.some.inj (hru.symm.trans hi)
  have hlength := length_of_canCreateStream hbuilder hchecks
  simp only [hpayload] at hlength
  omega

theorem canCreateStream_withLimits {cfg : Config}
    (hi : ∀ i, inceptionOf events ≠ some (.gdmChannel i)) (limits : Fin 256 → Option Int) :
    canCreateStream (cfg.withLimits limits) dmHash currentTime sid events spaceIdMetadata =
      canCreateStream cfg dmHash currentTime sid events spaceIdMetadata := by
  cases events with
  | nil => rfl
  | cons e es =>
    simp only [canCreateStream]
    cases hinception : e.event.getInceptionPayload with
    | none => rfl
    | some payload =>
      have hsame : ∀ userId userStreamId,
          CsParams.canCreateStream ⟨cfg.withLimits limits, dmHash, sid, e :: es,
            spaceIdMetadata, payload, e.event.creatorAddress, userId, userStreamId⟩ =
          CsParams.canCreateStream ⟨cfg, dmHash, sid, e :: es, spaceIdMetadata, payload,
            e.event.creatorAddress, userId, userStreamId⟩ := by
        intro userId userStreamId
        cases payload with
        | gdmChannel i => exact absurd hinception (hi i)
        | _ => rfl
      simp only [hsame]

/-- **Limits.** A stream with a positive limit keeps to it in every history exactly if, when it
    is a direct message, its genesis members do. Of what any limits let pass, `CanAddEvent` refuses
    nothing without a limit, and `CanCreateStream` exactly the groups. -/
theorem membership_limits (c : Creation) (events : List ParsedEvent)
    (hevents : c.parsedEvents = .ok events) :
    (0 < c.cfg.stream.getMembershipLimit c.streamId → ∀ s, c.createStream = .ok s →
      (s.MembersWithin c.crypto c.cfg.stream (c.cfg.stream.getMembershipLimit c.streamId) ↔
        ∀ i, inceptionOf events = some (.dmChannel i) →
          ((genesisMembers events).card : Int) ≤ c.cfg.stream.getMembershipLimit c.streamId)) ∧
    (c.cfg.stream.getMembershipLimit c.streamId = 0 →
      (∀ (params : AeParams) (limits : Fin 256 → Option Int) (heap heap' : Heap)
        (reqs : Requirements), params.cfg = c.cfg.stream → params.streamView.streamId = c.streamId →
        canAddEvent (params.withLimits limits) heap = (.ok (some reqs), heap') →
        canAddEvent params heap = (.ok (some reqs), heap')) ∧
      ∀ (limits : Fin 256 → Option Int) (rules : CreateStreamRules),
        canCreateStream (c.cfg.withLimits limits) c.dmHash c.currentTime c.streamId events
          c.spaceIdMetadata = .ok rules →
        (canCreateStream c.cfg c.dmHash c.currentTime c.streamId events c.spaceIdMetadata =
            .ok rules ↔
          ∀ i, inceptionOf events ≠ some (.gdmChannel i))) := by
  refine ⟨fun hlimit s h => membersWithin_limit_iff h hevents hlimit, fun hzero => ⟨?_, ?_⟩⟩
  · intro params limits heap heap' reqs hcfg hsid h
    refine canAddEvent_of_withLimits ?_ h
    rw [hcfg, hsid]
    exact hzero
  · intro limits rules h
    constructor
    · intro hok i hi
      exact canCreateStream_gdm_of_zero hi hzero rules hok
    · intro hi
      rw [← canCreateStream_withLimits hi limits]
      exact h

theorem membership_limits_sample :
    ∃ s, (sampleDm 1 2 fun _ => some 2).createStream = .ok s ∧
      s.MembersWithin .salted (sampleDm 1 2 fun _ => some 2).cfg.stream 2 := by
  have hok : (sampleDm 1 2 fun _ => some 2).createStream.isOk = true := by decide +kernel
  obtain ⟨s, hs⟩ := isOk_iff.1 hok
  have hlimits := membership_limits (sampleDm 1 2 fun _ => some 2) (sampleDmEvents 1 2)
    (by decide +kernel)
  refine ⟨s, hs, (hlimits.1 (by decide +kernel) s hs).2 ?_⟩
  intro i _
  decide +kernel

def sampleGdmEvents : List ParsedEvent :=
  [sampleEvent (.gdmChannel (.inception ⟨(sampleId .gdmChannel (by decide)).bytes, none, none⟩))
    1 0,
    sampleJoin 1 1, sampleJoin 2 2, sampleJoin 3 3]

def sampleGdm (limits : Fin 256 → Option Int) : Creation :=
  sampleCreation (sampleId .gdmChannel (by decide)) sampleGdmEvents limits

/-- A group that a limit of ten members lets pass is refused when no limit is configured; and a
    direct message is created with two members under a limit of one. -/
theorem membership_limits_violated :
    ((sampleGdm fun _ => some 10).createStream.isOk = true ∧
      (sampleGdm fun _ => none).cfg.stream.getMembershipLimit
        (sampleGdm fun _ => none).streamId = 0 ∧
      (sampleGdm fun _ => none).createStream.isOk = false) ∧
    ∃ s, (sampleDm 1 2 fun _ => some 1).createStream = .ok s ∧
      s.view.isMember (sampleAddress 1) = .ok true ∧ s.view.isMember (sampleAddress 2) = .ok true ∧
      (sampleDm 1 2 fun _ => some 1).cfg.stream.getMembershipLimit s.view.streamId = 1 := by
  decide +kernel

end River.Node.Rules
