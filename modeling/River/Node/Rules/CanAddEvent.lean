/-
  Which events may be added to a stream (core/node/rules/can_add_event.go and rule_builder_ae.go).

  The check of a key fulfillment writes to event objects, so a check takes and returns the heap.
  The nil checks of the source on decoded messages cannot fail and are left out.
-/

import River.Node.Events.ViewState

namespace River.Node.Rules

open StreamId

/-! ## Rule builder -/

inductive Permission where
  | read | write | invite | ban | redact
  deriving DecidableEq

structure ChainAuthArgs where
  spaceId : StreamId
  channelId : Option StreamId
  principal : Bytes
  permission : Permission
  deriving DecidableEq

structure RequiredParentEvent where
  payload : Payload
  streamId : StreamId
  deriving DecidableEq

abbrev Check := Heap → Res Bool × Heap

def Check.pure (answer : Res Bool) : Check := fun heap => (answer, heap)

structure RuleBuilder where
  failErr : Option RiverError
  checks : List (List Check)
  chainAuth : Res (Option ChainAuthArgs)
  parentEvent : Res (Option RequiredParentEvent)

def aeBuilder : RuleBuilder := ⟨none, [], .ok none, .ok none⟩

namespace RuleBuilder

variable (re : RuleBuilder)

def checkOneOf (fs : List Check) : RuleBuilder :=
  { re with checks := re.checks ++ [fs] }

def check (f : Check) : RuleBuilder := re.checkOneOf [f]

def requireChainAuth (f : Res (Option ChainAuthArgs)) : RuleBuilder :=
  { re with chainAuth := f }

def requireParentEvent (f : Res (Option RequiredParentEvent)) : RuleBuilder :=
  { re with parentEvent := f }

def fail (err : RiverError) : RuleBuilder := { re with failErr := some err }

end RuleBuilder

def runOneOf : List Check → Nat → Heap → Res Bool × Heap
  | [], 0, heap => (.ok false, heap)
  | [], 1, heap => (riverError .permissionDenied "check failed", heap)
  | [], _, heap => (riverError .permissionDenied "checkOneOf failed", heap)
  | f :: fs, errors, heap =>
    match f heap with
    | (.ok true, heap) => (.ok true, heap)
    | (.ok false, heap) => runOneOf fs errors heap
    | (.error _, heap) => runOneOf fs (errors + 1) heap
    | (.panic m, heap) => (.panic m, heap)

def runChecksAE : List (List Check) → Heap → Res Bool × Heap
  | [], heap => (.ok true, heap)
  | fs :: rest, heap =>
    match runOneOf fs 0 heap with
    | (.ok true, heap) => runChecksAE rest heap
    | r => r

abbrev Requirements := Option ChainAuthArgs × Option RequiredParentEvent

def RuleBuilder.requirements (re : RuleBuilder) : Res (Option Requirements) := do
  let chainAuthArgs ← re.chainAuth
  let requiredParentEvent ← re.parentEvent
  if re.checks.length = 0 ∧ chainAuthArgs = none ∧ requiredParentEvent = none then
    riverError .internal "no checks or requirements"
  else .ok (some (chainAuthArgs, requiredParentEvent))

def RuleBuilder.run (re : RuleBuilder) (heap : Heap) : Res (Option Requirements) × Heap :=
  match re.failErr with
  | some err => (.error err, heap)
  | none =>
    match runChecksAE re.checks heap with
    | (.ok true, heap) => (re.requirements, heap)
    | (.ok false, heap) => (.ok none, heap)
    | (.error e, heap) => (.error e, heap)
    | (.panic m, heap) => (.panic m, heap)

/-! ## Checks -/

structure AeParams where
  cfg : StreamConfig
  validNodeAddresses : List Bytes
  currentTime : Int
  streamView : StreamView
  parsedEvent : ParsedEvent

namespace AeParams

variable (params : AeParams)

def isValidNode (address : Bytes) : Bool := address ∈ params.validNodeAddresses

def creatorIsMember : Res Bool := do
  let isMember ← params.streamView.isMember params.parsedEvent.event.creatorAddress
  if isMember then .ok true
  else riverError .permissionDenied "event creator is not a member of the stream"

def creatorIsValidNode : Res Bool :=
  if params.isValidNode params.parsedEvent.event.creatorAddress then .ok true
  else riverError .unknownNode "Event creator must be a valid node"

variable (membership : Membership)

def validMembershipPayload : Res Bool :=
  if membership.op = .join then do
    match ← params.streamView.streamParentId with
    | none => .ok true
    | some streamParentId =>
      match membership.streamParentId with
      | none => riverError .invalidArgument "membership parent stream id is nil"
      | some id =>
        if streamParentId.equalsBytes id then .ok true
        else
          riverError .invalidArgument "membership parent stream id does not match parent stream id"
  else .ok true

def validMembershipLimit : Res Bool :=
  if membership.op = .join ∨ membership.op = .invite then do
    let members ← params.streamView.getChannelMembers
    let membershipLimit := params.cfg.getMembershipLimit params.streamView.streamId
    if membershipLimit > 0 ∧ (members.card : Int) ≥ membershipLimit then
      riverError .invalidArgument "membership limit reached"
    else .ok true
  else .ok true

def validTransition (current op : MembershipOp) : Res Bool :=
  if current = op then .ok false
  else match current with
    | .invite => .ok true
    | .join =>
      if op = .leave then .ok true
      else riverError .permissionDenied "only leave is valid from join"
    | .leave => .ok true
    | .unspecified => .ok (op ≠ .leave)
    | .unrecognized _ => riverError .badEvent "invalid current membership"

def validMembershipTransistion : Res Bool :=
  if membership.op = .unspecified then
    riverError .invalidArgument "membership op is unspecified"
  else do
    let currentMembership ← params.streamView.getMembership membership.userAddress
    validTransition currentMembership membership.op

def validMembershipTransistionByNode : Res Bool := do
  if ← params.creatorIsValidNode then params.validMembershipTransistion membership
  else .ok false

def validMembershipTransistionForDM : Res Bool := do
  if ← params.validMembershipTransistionByNode membership then
    let inception ← params.streamView.getDMChannelInception
    let parties := [inception.firstPartyAddress, inception.secondPartyAddress]
    if params.isValidNode membership.initiatorAddress = false ∧
        membership.initiatorAddress ∉ parties then
      riverError .permissionDenied "initiator is not a member of DM"
    else if membership.userAddress ∉ parties then
      riverError .permissionDenied "user is not a member of DM"
    else if membership.op ≠ .leave ∧ membership.op ≠ .join then
      riverError .permissionDenied "only join and leave events are permitted"
    else .ok true
  else .ok false

def validGDMOp (initiatorMembership userMembership : MembershipOp) : Res Bool :=
  match membership.op with
  | .invite =>
    if initiatorMembership ≠ .join ∧ initiatorMembership ≠ .invite then
      riverError .permissionDenied "initiator of invite is not a member of GDM"
    else .ok true
  | .join =>
    if userMembership = .invite then .ok true
    else if membership.initiatorAddress = membership.userAddress then
      riverError .permissionDenied "user is not invited to GDM"
    else if initiatorMembership ≠ .join then
      riverError .permissionDenied "initiator of join is not a member of GDM"
    else .ok true
  | .leave =>
    if initiatorMembership ≠ .join ∧ initiatorMembership ≠ .invite then
      riverError .permissionDenied "initiator of leave is not a member of GDM"
    else .ok true
  | .unspecified => riverError .invalidArgument "membership op is unspecified"
  | .unrecognized _ => riverError .permissionDenied "unknown membership event"

def validMembershipTransistionForGDM : Res Bool := do
  if ← params.validMembershipTransistionByNode membership then
    let initiatorMembership ← params.streamView.getMembership membership.initiatorAddress
    let userMembership ← params.streamView.getMembership membership.userAddress
    validGDMOp membership initiatorMembership userMembership
  else .ok false

def validUserMembershipTransistion (userMembership : UserMembership) : Res Bool :=
  if userMembership.op = .unspecified then
    riverError .invalidArgument "membership op is unspecified"
  else do
    let streamId ← fromBytes userMembership.streamId
    let currentMembershipOp ← params.streamView.getUserMembership streamId
    validTransition currentMembershipOp userMembership.op

def validSpaceChannelOp (next : SpaceChannel) : Res Bool := do
  let channelId ← fromBytes next.channelId
  match ← params.streamView.getChannelInfo channelId with
  | none => .ok (next.op = .created)
  | some current =>
    if current.op = .deleted then riverError .permissionDenied "channel is deleted"
    else .ok (next.op ≠ .created)

def canAddMediaChunk (chunk : MediaChunk) : Res Bool := do
  if ← params.creatorIsMember then
    let inception ← params.streamView.getMediaInception
    if chunk.chunkIndex ≥ inception.chunkCount ∨ chunk.chunkIndex < 0 then
      riverError .invalidArgument "chunk index out of bounds"
    else if (chunk.data.length : Int) > params.cfg.mediaMaxChunkSize then
      riverError .invalidArgument "chunk size must be less than or equal to"
    else .ok true
  else .ok false

def validKeySolicitation (solicitation : KeySolicitation) : Res Bool :=
  if solicitation.isNewDevice = false ∧ solicitation.sessionIds.length = 0 then
    riverError .invalidArgument "session ids are required for existing devices"
  else .ok true

def hasCommon (x y : List Bytes) : Bool := go (x.length + y.length) x y
where
  go : Nat → List Bytes → List Bytes → Bool
  | fuel + 1, a :: x, b :: y =>
    if a < b then go fuel x (b :: y) else if b < a then go fuel (a :: x) y else true
  | _, _, _ => false

def matchesSolicitation (fulfillment : KeyFulfillment) : List KeySolicitation → Res Bool
  | [] => riverError .invalidArgument "solicitation with matching device key not found"
  | solicitation :: solicitations =>
    if solicitation.deviceKey = fulfillment.deviceKey then
      if solicitation.isNewDevice then .ok true
      else if hasCommon solicitation.sessionIds fulfillment.sessionIds then .ok true
      else riverError .invalidArgument "solicitation with common session ids not found"
    else matchesSolicitation fulfillment solicitations

def validKeyFulfillment (fulfillment : KeyFulfillment) : Check := fun heap =>
  match params.streamView.getKeySolicitations heap fulfillment.userAddress with
  | .ok (solicitations, heap) => (matchesSolicitation fulfillment solicitations, heap)
  | .error e => (.error e, heap)
  | .panic m => (.panic m, heap)

def validEnsAddress (address : Bytes) : Res Bool :=
  if address.length ≠ 0 ∧ address.length ≠ 20 then
    riverError .invalidArgument "Invalid ENS address length"
  else .ok true

def validNft (nft : Nft) : Res Bool :=
  if nft.contractAddress.length = 0 then .ok true
  else if nft.contractAddress.length ≠ 20 then
    riverError .invalidArgument "invalid contract address"
  else if nft.tokenId.length = 0 then riverError .invalidArgument "invalid token id"
  else if nft.chainId = 0 then riverError .invalidArgument "invalid chain id"
  else .ok true

/-! ## Parent events and entitlements -/

def requireStreamParentMembership : Res (Option RequiredParentEvent) :=
  if membership.op = .leave ∨ membership.op = .invite then .ok none
  else do
    match ← params.streamView.streamParentId with
    | none => .ok none
    | some streamParentId =>
      let userStreamId ← userStreamIdFromBytes membership.userAddress
      let initiatorId ← addressHex membership.initiatorAddress
      .ok (some ⟨.user (.userMembership ⟨streamParentId.bytes, .join, some initiatorId, none⟩),
        userStreamId⟩)

def parentEventForUserMembership (userMembership : UserMembership) :
    Res (Option RequiredParentEvent) := do
  let creatorAddress := params.parsedEvent.event.creatorAddress
  let userAddress ← getUserAddressFromStreamId params.streamView.streamId
  let toStreamId ← fromBytes userMembership.streamId
  let initiatorAddress :=
    match userMembership.inviter with
    | some inviter => if params.isValidNode creatorAddress then inviter else creatorAddress
    | none => creatorAddress
  .ok (some ⟨.member (.membership ⟨userMembership.op, userAddress, initiatorAddress,
    userMembership.streamParentId⟩), toStreamId⟩)

def parentEventForUserMembershipAction (action : UserMembershipAction) :
    Res (Option RequiredParentEvent) := do
  let inviterId ← addressHex params.parsedEvent.event.creatorAddress
  let actionStreamId ← fromBytes action.streamId
  let toUserStreamId ← userStreamIdFromBytes action.userId
  .ok (some ⟨.user (.userMembership ⟨actionStreamId.bytes, action.op, some inviterId,
    action.streamParentId⟩), toUserStreamId⟩)

def getPermissionForMembershipOp : Res (Option Permission × Bytes) := do
  let initiatorId ← addressHex membership.initiatorAddress
  let userId ← addressHex membership.userAddress
  let currentMembership ← params.streamView.getMembership membership.userAddress
  if membership.op = currentMembership then
    riverError .failedPrecondition "membershipOp should not be the same as currentMembership"
  else match membership.op with
    | .invite =>
      if currentMembership = .join then
        riverError .failedPrecondition "user is already a member of the channel"
      else .ok (some .invite, initiatorId)
    | .join => .ok (some .read, userId)
    | .leave =>
      if currentMembership ≠ .join then
        riverError .failedPrecondition "user is not a member of the channel"
      else if userId ≠ initiatorId then .ok (some .ban, initiatorId)
      else .ok (none, userId)
    | _ => riverError .badEvent "Need valid membership op"

def spaceMembershipEntitlements : Res (Option ChainAuthArgs) := do
  let (permission, permissionUser) ← params.getPermissionForMembershipOp membership
  .ok (permission.map fun p => ⟨params.streamView.streamId, none, permissionUser, p⟩)

def channelMembershipEntitlements : Res (Option ChainAuthArgs) := do
  let inception ← params.streamView.getChannelInception
  let (permission, permissionUser) ← params.getPermissionForMembershipOp membership
  match permission with
  | none => .ok none
  | some p => do
    let spaceId ← fromBytes inception.spaceId
    .ok (some ⟨spaceId, some params.streamView.streamId, permissionUser, p⟩)

def channelEntitlements (permission : Permission) : Res (Option ChainAuthArgs) := do
  let userId ← addressHex params.parsedEvent.event.creatorAddress
  let inception ← params.streamView.getChannelInception
  let spaceId ← fromBytes inception.spaceId
  .ok (some ⟨spaceId, some params.streamView.streamId, userId, permission⟩)

/-! ## Rules by payload -/

def unknownPayloadType : RiverError := ⟨.invalidArgument, "unknown payload type %T"⟩

def unknownContentType : RiverError := ⟨.invalidArgument, "unknown content type %T"⟩

def invalidContentType : RiverError := ⟨.invalidArgument, "invalid contemt type %T"⟩

def memberRule : RuleBuilder := aeBuilder.check (.pure params.creatorIsMember)

def canAddChannelPayload : ChannelPayload → RuleBuilder
  | .inception _ => aeBuilder.fail invalidContentType
  | .message _ => params.memberRule.requireChainAuth (params.channelEntitlements .write)
  | .redaction _ => params.memberRule.requireChainAuth (params.channelEntitlements .redact)
  | .unset => aeBuilder.fail unknownContentType

def canAddDmChannelPayload : DmChannelPayload → RuleBuilder
  | .inception _ => aeBuilder.fail invalidContentType
  | .message _ => params.memberRule
  | .unset => aeBuilder.fail unknownContentType

def canAddGdmChannelPayload : GdmChannelPayload → RuleBuilder
  | .inception _ => aeBuilder.fail invalidContentType
  | .message _ => params.memberRule
  | .channelProperties _ => params.memberRule
  | .unset => aeBuilder.fail unknownContentType

def canAddSpacePayload : SpacePayload → RuleBuilder
  | .inception _ => aeBuilder.fail invalidContentType
  | .channel c =>
    if c.op = .updated then params.memberRule.check (.pure (params.validSpaceChannelOp c))
    else (aeBuilder.check (.pure params.creatorIsValidNode)).check
      (.pure (params.validSpaceChannelOp c))
  | .unset => aeBuilder.fail unknownContentType

def canAddUserPayload : UserPayload → RuleBuilder
  | .inception _ => aeBuilder.fail invalidContentType
  | .userMembership m =>
    ((aeBuilder.checkOneOf [.pure params.creatorIsMember, .pure params.creatorIsValidNode]).check
      (.pure (params.validUserMembershipTransistion m))).requireParentEvent
      (params.parentEventForUserMembership m)
  | .userMembershipAction a =>
    params.memberRule.requireParentEvent (params.parentEventForUserMembershipAction a)
  | .unset => aeBuilder.fail unknownContentType

def canAddUserDeviceKeyPayload : UserDeviceKeyPayload → RuleBuilder
  | .inception _ => aeBuilder.fail invalidContentType
  | .encryptionDevice _ => params.memberRule
  | .unset => aeBuilder.fail unknownContentType

def canAddUserSettingsPayload : UserSettingsPayload → RuleBuilder
  | .inception _ => aeBuilder.fail invalidContentType
  | .fullyReadMarkers _ => params.memberRule
  | .userBlock _ => params.memberRule
  | .unset => aeBuilder.fail unknownContentType

def canAddUserInboxPayload : UserInboxPayload → RuleBuilder
  | .inception _ => aeBuilder.fail invalidContentType
  | .groupEncryptionSessions _ => aeBuilder.check (.pure (.ok true))
  | .ack _ => params.memberRule
  | .unset => aeBuilder.fail unknownContentType

def canAddMediaPayload : MediaPayload → RuleBuilder
  | .inception _ => aeBuilder.fail invalidContentType
  | .chunk c => aeBuilder.check (.pure (params.canAddMediaChunk c))
  | .unset => aeBuilder.fail unknownContentType

def membershipRule (transition : Res Bool) : RuleBuilder :=
  ((aeBuilder.check (.pure (params.validMembershipPayload membership))).check
    (.pure transition)).check (.pure (params.validMembershipLimit membership))

def canAddMembership (m : Membership) : RuleBuilder :=
  match params.streamView.streamId.type? with
  | some .space =>
    (params.membershipRule m (params.validMembershipTransistionByNode m)).requireChainAuth
      (params.spaceMembershipEntitlements m)
  | some .channel =>
    ((params.membershipRule m (params.validMembershipTransistionByNode m)).requireChainAuth
      (params.channelMembershipEntitlements m)).requireParentEvent
      (params.requireStreamParentMembership m)
  | some .dmChannel => params.membershipRule m (params.validMembershipTransistionForDM m)
  | some .gdmChannel => params.membershipRule m (params.validMembershipTransistionForGDM m)
  | _ => aeBuilder.fail ⟨.invalidArgument, "invalid stream id for membership payload"⟩

def canAddMemberPayload : MemberPayload → RuleBuilder
  | .membership m => params.canAddMembership m
  | .keySolicitation ks => params.memberRule.check (.pure (validKeySolicitation ks))
  | .keyFulfillment kf => params.memberRule.check (params.validKeyFulfillment kf)
  | .displayName _ => params.memberRule
  | .username _ => params.memberRule
  | .ensAddress a => params.memberRule.check (.pure (validEnsAddress a))
  | .nft n => params.memberRule.check (.pure (validNft n))
  | .unset => aeBuilder.fail unknownContentType

def canAddEvent : RuleBuilder :=
  match params.parsedEvent.event.payload with
  | .channel p => params.canAddChannelPayload p
  | .dmChannel p => params.canAddDmChannelPayload p
  | .gdmChannel p => params.canAddGdmChannelPayload p
  | .space p => params.canAddSpacePayload p
  | .user p => params.canAddUserPayload p
  | .userDeviceKey p => params.canAddUserDeviceKeyPayload p
  | .userSettings p => params.canAddUserSettingsPayload p
  | .userInbox p => params.canAddUserInboxPayload p
  | .media p => params.canAddMediaPayload p
  | .member p => params.canAddMemberPayload p
  | .miniblockHeader _ | .unset => aeBuilder.fail unknownPayloadType

end AeParams

def isPastExpiry (currentTime expiryEpochMs : Int) : Bool := currentTime ≥ expiryEpochMs * 1000000

def verifyPayloadTypeMatchesStreamType (payload : Payload) (i : Option InceptionPayload) :
    Res Unit :=
  match payload, i with
  | .space _, some (.space _) | .channel _, some (.channel _)
  | .dmChannel _, some (.dmChannel _) | .gdmChannel _, some (.gdmChannel _)
  | .user _, some (.user _) | .userInbox _, some (.userInbox _)
  | .userSettings _, some (.userSettings _) | .userDeviceKey _, some (.userDeviceKey _)
  | .media _, some (.media _) | .member _, _ => .ok ()
  | .miniblockHeader _, _ | .unset, _ => riverError .unknown "inception type type not handled"
  | _, _ => riverError .unknown "inception type mismatch"

def canAddEvent (params : AeParams) (heap : Heap) : Res (Option Requirements) × Heap :=
  let event := params.parsedEvent.event
  if event.delegateExpiryEpochMs > 0 ∧
      isPastExpiry params.currentTime event.delegateExpiryEpochMs = true then
    (riverError .permissionDenied "event delegate has expired", heap)
  else if event.prevMiniblockHash = none then
    (riverError .invalidArgument "event has no prevMiniblockHash", heap)
  else
    match params.streamView.validateNextEvent params.cfg.recencyConstraints params.parsedEvent
      params.currentTime with
    | .error e => (.error e, heap)
    | .panic m => (.panic m, heap)
    | .ok () =>
      match verifyPayloadTypeMatchesStreamType event.payload params.streamView.inceptionPayload with
      | .error e => (.error e, heap)
      | .panic m => (.panic m, heap)
      | .ok () => params.canAddEvent.run heap

theorem canAddEvent_eq_ok {heap heap' : Heap} :
    canAddEvent params heap = (.ok answer, heap') ↔
      ¬(params.parsedEvent.event.delegateExpiryEpochMs > 0 ∧
        isPastExpiry params.currentTime params.parsedEvent.event.delegateExpiryEpochMs = true) ∧
      params.parsedEvent.event.prevMiniblockHash ≠ none ∧
      params.streamView.validateNextEvent params.cfg.recencyConstraints params.parsedEvent
        params.currentTime = .ok () ∧
      verifyPayloadTypeMatchesStreamType params.parsedEvent.event.payload
        params.streamView.inceptionPayload = .ok () ∧
      params.canAddEvent.run heap = (.ok answer, heap') := by
  constructor
  · intro h
    simp only [canAddEvent] at h
    split at h
    · cases h
    rename_i hexpired
    split at h
    · cases h
    rename_i hprev
    split at h
    · cases h
    · cases h
    rename_i hvalid
    split at h
    · cases h
    · cases h
    rename_i htype
    exact ⟨hexpired, hprev, hvalid, htype, h⟩
  · rintro ⟨hexpired, hprev, hvalid, htype, hrun⟩
    simp only [canAddEvent, if_neg hexpired, if_neg hprev, hvalid, htype, hrun]

end River.Node.Rules
