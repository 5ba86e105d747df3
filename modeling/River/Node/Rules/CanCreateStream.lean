/-
  Which streams may be created (core/node/rules/can_create_stream.go and rule_builder_cs.go).
-/

import River.Node.Rules.CanAddEvent

namespace River.Node.Rules

open StreamId

structure Config where
  stream : StreamConfig
  mediaMaxChunkCount : Int
  disableBaseChain : Bool

inductive CreateChainAuth where
  | forSpace (spaceId : StreamId) (userId : Bytes)
  | forChannel (spaceId channelId : StreamId) (userId : Bytes)
  | forIsSpaceMember (spaceId : StreamId) (userId : Bytes)
  deriving DecidableEq

structure DerivedEvent where
  payload : Payload
  streamId : StreamId
  deriving DecidableEq

structure CreateStreamRules where
  creatorStreamId : StreamId
  requiredUserAddrs : List Bytes
  requiredUsers : List Bytes
  requiredMemberships : List Bytes
  chainAuth : Option CreateChainAuth
  derivedEvents : List DerivedEvent
  deriving DecidableEq

/-! ## Rule builder -/

structure RuleBuilderCS where
  failErr : Option RiverError
  creatorStreamId : StreamId
  requiredUsers : List Bytes
  requiredUserAddrs : List Bytes
  requiredMemberships : List Bytes
  checks : List (List (Res Unit))
  chainAuth : Res (Option CreateChainAuth)
  derivedEvents : List (Res DerivedEvent)
  derivedEventSlices : List (Res (List DerivedEvent))

def csBuilder (creatorStreamId : StreamId) : RuleBuilderCS :=
  ⟨none, creatorStreamId, [], [], [], [], .ok none, [], []⟩

namespace RuleBuilderCS

variable (re : RuleBuilderCS)

def check (fns : List (Res Unit)) : RuleBuilderCS :=
  { re with checks := re.checks ++ fns.map ([·]) }

def requireUser (userIds : List Bytes) : RuleBuilderCS :=
  { re with requiredUsers := re.requiredUsers ++ userIds }

def requireUserAddr (userAddress : Bytes) : RuleBuilderCS :=
  { re with requiredUserAddrs := re.requiredUserAddrs ++ [userAddress] }

def requireMembership (streamId : Bytes) : RuleBuilderCS :=
  { re with requiredMemberships := re.requiredMemberships ++ [streamId] }

def requireChainAuth (f : Res (Option CreateChainAuth)) : RuleBuilderCS :=
  { re with chainAuth := f }

def requireDerivedEvent (fs : List (Res DerivedEvent)) : RuleBuilderCS :=
  { re with derivedEvents := fs }

def requireDerivedEvents (f : Res (List DerivedEvent)) : RuleBuilderCS :=
  { re with derivedEventSlices := re.derivedEventSlices ++ [f] }

end RuleBuilderCS

def runOneOfCS : List (Res Unit) → Nat → Res Unit
  | [], 0 => .ok ()
  | [], 1 => riverError .permissionDenied "check failed"
  | [], _ => riverError .permissionDenied "checkOneOf failed"
  | f :: fs, errors =>
    match f with
    | .ok () => runOneOfCS fs errors
    | .error _ => runOneOfCS fs (errors + 1)
    | .panic m => .panic m

def runChecksCS : List (List (Res Unit)) → Res Unit
  | [] => .ok ()
  | fs :: rest => do
    runOneOfCS fs 0
    runChecksCS rest

theorem runOneOfCS_eq_ok (fs : List (Res Unit)) (errors : Nat) :
    runOneOfCS fs errors = .ok () ↔ errors = 0 ∧ ∀ f ∈ fs, f = .ok () := by
  induction fs generalizing errors with
  | nil => rcases errors with _ | _ | _ <;> simp [runOneOfCS, riverError]
  | cons f fs ih => cases f <;> simp [runOneOfCS, ih]

theorem runChecksCS_eq_ok (groups : List (List (Res Unit))) :
    runChecksCS groups = .ok () ↔ ∀ fs ∈ groups, ∀ f ∈ fs, f = .ok () := by
  induction groups with
  | nil => simp [runChecksCS]
  | cons fs groups ih =>
    rw [List.forall_mem_cons, ← ih, ← and_iff_right (b := ∀ f ∈ fs, _) rfl,
      ← runOneOfCS_eq_ok fs 0, runChecksCS]
    cases runOneOfCS fs 0 <;> simp

def runSingleDerivedEvents : List (Res DerivedEvent) → Res (List DerivedEvent)
  | [] => .ok []
  | f :: fs => do
    let derivedEvent ← f
    let derivedEvents ← runSingleDerivedEvents fs
    .ok (derivedEvent :: derivedEvents)

def runDerivedEventSlices : List (Res (List DerivedEvent)) → Res (List DerivedEvent)
  | [] => .ok []
  | f :: fs => do
    let derivedEventSlice ← f
    let derivedEvents ← runDerivedEventSlices fs
    .ok (derivedEventSlice ++ derivedEvents)

def runDerivedEvents (fs : List (Res DerivedEvent)) (slices : List (Res (List DerivedEvent))) :
    Res (List DerivedEvent) := do
  let derivedEvents ← runSingleDerivedEvents fs
  let derivedEventSlices ← runDerivedEventSlices slices
  .ok (derivedEvents ++ derivedEventSlices)

def RuleBuilderCS.run (re : RuleBuilderCS) : Res CreateStreamRules :=
  match re.failErr with
  | some err => .error err
  | none => do
    runChecksCS re.checks
    let chainAuthArgs ← re.chainAuth
    let derivedEvents ← runDerivedEvents re.derivedEvents re.derivedEventSlices
    if re.checks.length = 0 ∧ chainAuthArgs = none ∧ derivedEvents = [] then
      riverError .internal "no checks or requirements"
    else .ok ⟨re.creatorStreamId, re.requiredUserAddrs, re.requiredUsers, re.requiredMemberships,
      chainAuthArgs, derivedEvents⟩

/-! ## Checks -/

def membershipOf? (e : ParsedEvent) : Option (Option Membership) :=
  match e.event.payload with
  | .member (.membership m) => some (some m)
  | .member _ => some none
  | _ => none

structure CsParams where
  cfg : Config
  dmHash : Bytes → Bytes
  streamId : StreamId
  parsedEvents : List ParsedEvent
  spaceIdMetadata : Option Bytes
  inceptionPayload : InceptionPayload
  creatorAddress : Bytes
  creatorUserId : Bytes
  creatorUserStreamId : StreamId

def dmStreamIdForUsers (dmHash : Bytes → Bytes) (a b : Bytes) : Res Bytes := do
  let addressUserA ← addressHex a
  let addressUserB ← addressHex b
  let joined := if addressUserA ≤ addressUserB then addressUserA ++ addressUserB
    else addressUserB ++ addressUserA
  .ok (StreamType.dmChannel.bin :: (dmHash joined).take 31)

def validDMChannelStreamIdBetween (dmHash : Bytes → Bytes) (id : StreamId)
    (userIdA userIdB : Bytes) :
    Bool :=
  match dmStreamIdForUsers dmHash userIdA userIdB with
  | .ok expected => id.bytes = expected
  | _ => false

def int32 (n : Int) : Int := n.bmod (2 ^ 32)

def badParams (msg : String) : Res Unit := riverError .badStreamCreationParams msg

namespace CsParams

variable (ru : CsParams)

def streamIdTypeIsCorrect (expectedType : StreamType) : Res Unit :=
  if ru.streamId.type? = some expectedType then .ok () else badParams "invalid stream id type"

def isUserStreamId : Res Unit := do
  let addressInName ← getUserAddressFromStreamId ru.streamId
  if addressInName ≠ bytesToAddress ru.creatorAddress then
    badParams "stream id doesn't match creator address"
  else .ok ()

def eventCountMatches (eventCount : Nat) : Res Unit :=
  if ru.parsedEvents.length ≠ eventCount then badParams "bad event count" else .ok ()

def eventCountGreaterThanOrEqualTo (eventCount : Nat) : Res Unit :=
  if ru.parsedEvents.length < eventCount then badParams "bad event count" else .ok ()

def validateOwnJoinEventPayload (event : ParsedEvent) (membership : Membership) : Res Unit :=
  if membership.op ≠ .join then badParams "bad join op"
  else if membership.userAddress ≠ event.event.creatorAddress then badParams "bad join user"
  else .ok ()

def validateJoinEvent : Res Unit :=
  match ru.parsedEvents[1]? with
  | none => .panic "index out of range"
  | some event =>
    match membershipOf? event with
    | none => badParams "second event is not a channel payload"
    | some none => badParams "second event is not a channel join event"
    | some (some membership) => validateOwnJoinEventPayload event membership

def checkMediaInceptionPayload (inception : MediaInception) : Res Unit :=
  if inception.channelId.length = 0 then badParams "channel id must not be empty for media stream"
  else if inception.chunkCount > int32 ru.cfg.mediaMaxChunkCount then
    badParams "chunk count must be less than or equal to %d"
  else if validStreamIdOfType .channel inception.channelId then
    match inception.spaceId with
    | none => badParams "space id must not be nil for media stream"
    | some spaceId =>
      if spaceId.length = 0 then badParams "space id must not be empty for media stream" else .ok ()
  else if validStreamIdOfType .dmChannel inception.channelId ∨
      validStreamIdOfType .gdmChannel inception.channelId then .ok ()
  else badParams "invalid channel id"

def checkDMInceptionPayload (inception : DmChannelInception) : Res Unit :=
  if inception.firstPartyAddress.length ≠ 20 ∨ inception.secondPartyAddress.length ≠ 20 then
    badParams "invalid party addresses for dm channel"
  else if ru.creatorAddress ≠ inception.firstPartyAddress then
    badParams "creator must be first party for dm channel"
  else if validDMChannelStreamIdBetween ru.dmHash ru.streamId inception.firstPartyAddress
      inception.secondPartyAddress = false then
    badParams "invalid stream id for dm channel"
  else .ok ()

def checkGDMMemberPayload (event : ParsedEvent) (expectedUserAddress : Option Bytes) : Res Unit :=
  match membershipOf? event with
  | none => badParams "event is not a gdm channel payload"
  | some none => badParams "event is not a gdm channel membership event"
  | some (some membership) =>
    if membership.op ≠ .join then badParams "membership op does not match"
    else if expectedUserAddress.any (· ≠ membership.userAddress) then
      badParams "membership user id does not match"
    else .ok ()

def checkGDMMembers : List ParsedEvent → Res Unit
  | [] => .ok ()
  | event :: events => do
    checkGDMMemberPayload event none
    checkGDMMembers events

def checkGDMPayloads : Res Unit :=
  match ru.parsedEvents with
  | _ :: first :: second :: third :: rest =>
    let membershipLimit := ru.cfg.stream.getMembershipLimit ru.streamId
    if (ru.parsedEvents.length : Int) - 1 > membershipLimit then
      riverError .invalidArgument "membership limit reached"
    else do
      checkGDMMemberPayload first (some ru.creatorAddress)
      checkGDMMembers (second :: third :: rest)
  | _ => badParams "gdm channel requires 3+ users"

/-! ## Requirements and derived events -/

def getCreateSpaceChainAuth : Res (Option CreateChainAuth) := do
  let userId ← addressHex ru.creatorAddress
  .ok (some (.forSpace ru.streamId userId))

def getCreateChannelChainAuth (inception : ChannelInception) : Res (Option CreateChainAuth) := do
  let userId ← addressHex ru.creatorAddress
  let spaceId ← fromBytes inception.spaceId
  .ok (some (.forSpace spaceId userId))

def getNewUserStreamChainAuth : Res (Option CreateChainAuth) :=
  if ru.cfg.disableBaseChain then .ok none
  else do
    let userAddress ← getUserAddressFromStreamId ru.streamId
    let userId ← addressHex userAddress
    match ru.spaceIdMetadata with
    | none =>
      riverError .badStreamCreationParams
        "A spaceId where spaceContract.isMember(userId)==true must be provided in metadata for user stream"
    | some spaceIdBytes =>
      let spaceId ← fromBytes spaceIdBytes
      .ok (some (.forIsSpaceMember spaceId userId))

def getChainAuthForMediaStream (inception : MediaInception) : Res (Option CreateChainAuth) := do
  let userId ← addressHex ru.creatorAddress
  if validStreamIdOfType .channel inception.channelId then
    if (inception.spaceId.getD []).length = 0 then
      riverError .badStreamCreationParams "space id must not be empty for media stream"
    else
      let spaceId ← fromBytes (inception.spaceId.getD [])
      let channelId ← fromBytes inception.channelId
      .ok (some (.forChannel spaceId channelId userId))
  else .ok none

def userJoin (streamId : StreamId) (inviter : Bytes) (streamParentId : Option Bytes) : Payload :=
  .user (.userMembership ⟨streamId.bytes, .join, some inviter, streamParentId⟩)

def streamParentIdOf : InceptionPayload → Option Bytes
  | .channel i => some i.spaceId
  | _ => none

def derivedMembershipEvent : Res DerivedEvent := do
  let creatorAddress ← addressHex ru.creatorAddress
  let creatorUserStreamId ← userStreamIdFromBytes creatorAddress
  .ok ⟨userJoin ru.streamId creatorAddress (streamParentIdOf ru.inceptionPayload),
    creatorUserStreamId⟩

def derivedChannelSpaceParentEvent (inception : ChannelInception) : Res DerivedEvent := do
  let channelId ← fromBytes inception.streamId
  let spaceId ← fromBytes inception.spaceId
  match ru.parsedEvents with
  | [] => .panic "index out of range"
  | first :: _ =>
    .ok ⟨.space (.channel ⟨.created, channelId.bytes,
      some ⟨inception.streamId, first.envelope.hash, first.envelope.signature⟩⟩), spaceId⟩

def derivedDMMembershipEvents (inception : DmChannelInception) : Res (List DerivedEvent) := do
  let firstPartyStream ← userStreamIdFromBytes inception.firstPartyAddress
  let secondPartyStream ← userStreamIdFromBytes inception.secondPartyAddress
  let payload := userJoin ru.streamId ru.creatorUserId none
  .ok [⟨payload, secondPartyStream⟩, ⟨payload, firstPartyStream⟩]

def getGDMUserAddresses : List Bytes :=
  ru.parsedEvents.tail.filterMap fun event => (membershipOf? event).join.map (·.userAddress)

def getGDMUserIds : List Bytes := ru.getGDMUserAddresses.filter (·.length = 20)

def derivedGDMJoins : List Bytes → Res (List DerivedEvent)
  | [] => .ok []
  | userAddress :: userAddresses => do
    let userStreamId ← userStreamIdFromBytes userAddress
    let derivedEvents ← derivedGDMJoins userAddresses
    .ok (⟨userJoin ru.streamId ru.creatorUserId none, userStreamId⟩ :: derivedEvents)

def derivedGDMMembershipEvents : Res (List DerivedEvent) :=
  match ru.getGDMUserAddresses with
  | [] => riverError .badStreamCreationParams "gdm channel requires 3+ users"
  | creatorUserAddress :: userAddresses =>
    ru.derivedGDMJoins (userAddresses ++ [creatorUserAddress])

/-! ## Rules by inception -/

def canCreateUserStream (type : StreamType) : RuleBuilderCS :=
  ((csBuilder ru.creatorUserStreamId).check
    [ru.streamIdTypeIsCorrect type, ru.eventCountMatches 1, ru.isUserStreamId]).requireChainAuth
      ru.getNewUserStreamChainAuth

def canCreateStream : Res RuleBuilderCS :=
  let builder := csBuilder ru.creatorUserStreamId
  match ru.inceptionPayload with
  | .space _ =>
    .ok (((builder.check
      [ru.streamIdTypeIsCorrect .space, ru.eventCountMatches 2,
        ru.validateJoinEvent]).requireChainAuth
      ru.getCreateSpaceChainAuth).requireDerivedEvent [ru.derivedMembershipEvent])
  | .channel inception =>
    .ok ((((builder.check
      [ru.streamIdTypeIsCorrect .channel, ru.eventCountMatches 2,
        ru.validateJoinEvent]).requireMembership
      inception.spaceId).requireChainAuth
        (ru.getCreateChannelChainAuth inception)).requireDerivedEvent
      [ru.derivedChannelSpaceParentEvent inception, ru.derivedMembershipEvent])
  | .media inception =>
    .ok (((builder.check
      [ru.streamIdTypeIsCorrect .media, ru.eventCountMatches 1,
        ru.checkMediaInceptionPayload inception]).requireMembership
          inception.channelId).requireChainAuth
      (ru.getChainAuthForMediaStream inception))
  | .dmChannel inception =>
    .ok (((builder.check
      [ru.streamIdTypeIsCorrect .dmChannel, ru.eventCountMatches 3,
        ru.checkDMInceptionPayload inception]).requireUserAddr
      inception.secondPartyAddress).requireDerivedEvents (ru.derivedDMMembershipEvents inception))
  | .gdmChannel _ =>
    match ru.getGDMUserIds with
    | [] => .panic "slice bounds out of range"
    | _ :: userIds =>
      .ok (((builder.check
        [ru.streamIdTypeIsCorrect .gdmChannel, ru.eventCountGreaterThanOrEqualTo 4,
          ru.checkGDMPayloads]).requireUser userIds).requireDerivedEvents
            ru.derivedGDMMembershipEvents)
  | .user _ => .ok (ru.canCreateUserStream .user)
  | .userDeviceKey _ => .ok (ru.canCreateUserStream .userDeviceKey)
  | .userSettings _ => .ok (ru.canCreateUserStream .userSettings)
  | .userInbox _ => .ok (ru.canCreateUserStream .userInbox)

end CsParams

def checkCreateEvents (creatorAddress : Bytes) : List ParsedEvent → Res Unit
  | [] => .ok ()
  | event :: events =>
    if event.event.prevMiniblockHash ≠ none then badParams "PrevMiniblockHash should be nil"
    else if event.event.creatorAddress ≠ creatorAddress then
      badParams "all events should have the same creator address"
    else checkCreateEvents creatorAddress events

def canCreateStream (cfg : Config) (dmHash : Bytes → Bytes) (currentTime : Int)
    (streamId : StreamId)
    (parsedEvents : List ParsedEvent) (spaceIdMetadata : Option Bytes) : Res CreateStreamRules :=
  match parsedEvents with
  | [] => riverError .badStreamCreationParams "no events"
  | inceptionEvent :: _ =>
    let event := inceptionEvent.event
    if event.delegateExpiryEpochMs > 0 ∧
        isPastExpiry currentTime event.delegateExpiryEpochMs = true then
      riverError .permissionDenied "event delegate has expired"
    else do
      let creatorUserId ← addressHex event.creatorAddress
      let creatorUserStreamId ← userStreamIdFromBytes event.creatorAddress
      checkCreateEvents event.creatorAddress parsedEvents
      match event.getInceptionPayload with
      | none => riverError .badStreamCreationParams "first event is not an inception event"
      | some inceptionPayload =>
        if streamId.equalsBytes inceptionPayload.getStreamId = false then
          riverError .badStreamCreationParams
            "stream id in request does not match stream id in inception event"
        else do
          let builder ← CsParams.canCreateStream ⟨cfg, dmHash, streamId, parsedEvents,
            spaceIdMetadata, inceptionPayload, event.creatorAddress, creatorUserId,
            creatorUserStreamId⟩
          builder.run

end River.Node.Rules
