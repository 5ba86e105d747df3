/-
  The messages of protocol.proto that the modelled code reads or writes.

  A field that the Go code can see as nil is an `Option`, and open enumerations have a constructor
  for other values. A solicitation listed in a snapshot is an object of its own or the one inside
  an event, and `applyKeyFulfillment` writes through it.
-/

import River.Node.Base

namespace River.Node

/-! ## Shared pieces -/

structure StreamSettings where
  disableMiniblockCreation : Bool
  deriving DecidableEq

structure EncryptedData where
  ciphertext : Bytes
  algorithm : Bytes
  senderKey : Bytes
  sessionId : Bytes
  checksum : Option Bytes
  refEventId : Option Bytes
  deriving DecidableEq

structure WrappedEncryptedData where
  data : EncryptedData
  eventNum : Int
  eventHash : Bytes
  deriving DecidableEq

structure EventRef where
  streamId : Bytes
  hash : Bytes
  signature : Bytes
  deriving DecidableEq

structure Timestamp where
  seconds : Int
  nanos : Int
  deriving DecidableEq

inductive MembershipOp where
  | unspecified | invite | join | leave
  | unrecognized (n : Nat)
  deriving DecidableEq

inductive ChannelOp where
  | unspecified | created | deleted | updated
  | unrecognized (n : Nat)
  deriving DecidableEq

/-! ## MemberPayload -/

structure Membership where
  op : MembershipOp
  userAddress : Bytes
  initiatorAddress : Bytes
  streamParentId : Option Bytes
  deriving DecidableEq

structure KeySolicitation where
  deviceKey : Bytes
  fallbackKey : Bytes
  isNewDevice : Bool
  sessionIds : List Bytes
  deriving DecidableEq

structure KeyFulfillment where
  userAddress : Bytes
  deviceKey : Bytes
  sessionIds : List Bytes
  deriving DecidableEq

structure Nft where
  chainId : Int
  contractAddress : Bytes
  tokenId : Bytes
  deriving DecidableEq

inductive MemberPayload where
  | unset
  | membership (m : Membership)
  | keySolicitation (ks : KeySolicitation)
  | keyFulfillment (kf : KeyFulfillment)
  | username (data : EncryptedData)
  | displayName (data : EncryptedData)
  | ensAddress (address : Bytes)
  | nft (nft : Nft)
  deriving DecidableEq

inductive SolicitationPtr where
  | own (ks : KeySolicitation)
  | event (ref : Nat) (ks : KeySolicitation)
  deriving DecidableEq

structure MemberSnapshot where
  userAddress : Bytes
  miniblockNum : Int
  eventNum : Int
  solicitations : List SolicitationPtr
  username : Option WrappedEncryptedData
  displayName : Option WrappedEncryptedData
  ensAddress : Bytes
  nft : Option Nft
  deriving DecidableEq

def MemberSnapshot.new (userAddress : Bytes) (miniblockNum eventNum : Int) : MemberSnapshot :=
  ⟨userAddress, miniblockNum, eventNum, [], none, none, [], none⟩

/-! ## Inception payloads -/

structure PlainInception where
  streamId : Bytes
  settings : Option StreamSettings
  deriving DecidableEq

structure ChannelInception where
  streamId : Bytes
  spaceId : Bytes
  settings : Option StreamSettings
  deriving DecidableEq

structure DmChannelInception where
  streamId : Bytes
  firstPartyAddress : Bytes
  secondPartyAddress : Bytes
  settings : Option StreamSettings
  deriving DecidableEq

structure GdmChannelInception where
  streamId : Bytes
  channelProperties : Option EncryptedData
  settings : Option StreamSettings
  deriving DecidableEq

structure MediaInception where
  streamId : Bytes
  channelId : Bytes
  chunkCount : Int
  settings : Option StreamSettings
  spaceId : Option Bytes
  deriving DecidableEq

inductive InceptionPayload where
  | space (i : PlainInception)
  | channel (i : ChannelInception)
  | dmChannel (i : DmChannelInception)
  | gdmChannel (i : GdmChannelInception)
  | user (i : PlainInception)
  | userInbox (i : PlainInception)
  | userSettings (i : PlainInception)
  | userDeviceKey (i : PlainInception)
  | media (i : MediaInception)
  deriving DecidableEq

def InceptionPayload.getStreamId : InceptionPayload → Bytes
  | .space i | .user i | .userInbox i | .userSettings i | .userDeviceKey i => i.streamId
  | .channel i => i.streamId
  | .dmChannel i => i.streamId
  | .gdmChannel i => i.streamId
  | .media i => i.streamId

/-! ## Payloads of the stream types -/

structure SpaceChannel where
  op : ChannelOp
  channelId : Bytes
  originEvent : Option EventRef
  deriving DecidableEq

inductive SpacePayload where
  | unset
  | inception (i : PlainInception)
  | channel (c : SpaceChannel)
  deriving DecidableEq

inductive ChannelPayload where
  | unset
  | inception (i : ChannelInception)
  | message (data : EncryptedData)
  | redaction (eventId : Bytes)
  deriving DecidableEq

inductive DmChannelPayload where
  | unset
  | inception (i : DmChannelInception)
  | message (data : EncryptedData)
  deriving DecidableEq

inductive GdmChannelPayload where
  | unset
  | inception (i : GdmChannelInception)
  | message (data : EncryptedData)
  | channelProperties (data : EncryptedData)
  deriving DecidableEq

structure UserMembership where
  streamId : Bytes
  op : MembershipOp
  inviter : Option Bytes
  streamParentId : Option Bytes
  deriving DecidableEq

structure UserMembershipAction where
  streamId : Bytes
  userId : Bytes
  op : MembershipOp
  streamParentId : Option Bytes
  deriving DecidableEq

inductive UserPayload where
  | unset
  | inception (i : PlainInception)
  | userMembership (m : UserMembership)
  | userMembershipAction (a : UserMembershipAction)
  deriving DecidableEq

structure GroupEncryptionSessions where
  streamId : Bytes
  senderKey : Bytes
  sessionIds : List Bytes
  ciphertexts : List (Bytes × Bytes)
  deriving DecidableEq

structure InboxAck where
  deviceKey : Bytes
  miniblockNum : Int
  deriving DecidableEq

inductive UserInboxPayload where
  | unset
  | inception (i : PlainInception)
  | ack (a : InboxAck)
  | groupEncryptionSessions (g : GroupEncryptionSessions)
  deriving DecidableEq

structure FullyReadMarkers where
  streamId : Bytes
  content : Option Bytes
  deriving DecidableEq

structure UserBlock where
  userId : Bytes
  isBlocked : Bool
  eventNum : Int
  deriving DecidableEq

inductive UserSettingsPayload where
  | unset
  | inception (i : PlainInception)
  | fullyReadMarkers (m : FullyReadMarkers)
  | userBlock (b : UserBlock)
  deriving DecidableEq

structure EncryptionDevice where
  deviceKey : Bytes
  fallbackKey : Bytes
  deriving DecidableEq

inductive UserDeviceKeyPayload where
  | unset
  | inception (i : PlainInception)
  | encryptionDevice (d : EncryptionDevice)
  deriving DecidableEq

structure MediaChunk where
  data : Bytes
  chunkIndex : Int
  deriving DecidableEq

inductive MediaPayload where
  | unset
  | inception (i : MediaInception)
  | chunk (c : MediaChunk)
  deriving DecidableEq

/-! ## Snapshots -/

structure SpaceSnapshot where
  inception : Option PlainInception
  channels : List SpaceChannel
  deriving DecidableEq

structure GdmChannelSnapshot where
  inception : Option GdmChannelInception
  channelProperties : Option WrappedEncryptedData
  deriving DecidableEq

structure UserSnapshot where
  inception : Option PlainInception
  memberships : List UserMembership
  deriving DecidableEq

structure DeviceSummary where
  lowerBound : Int
  upperBound : Int
  deriving DecidableEq

structure UserInboxSnapshot where
  inception : Option PlainInception
  deviceSummary : List (Bytes × DeviceSummary)
  deriving DecidableEq

structure UserBlocksEntry where
  isBlocked : Bool
  eventNum : Int
  deriving DecidableEq

structure UserBlocks where
  userId : Bytes
  blocks : List UserBlocksEntry
  deriving DecidableEq

structure UserSettingsSnapshot where
  inception : Option PlainInception
  fullyReadMarkers : List FullyReadMarkers
  userBlocksList : List UserBlocks
  deriving DecidableEq

structure UserDeviceKeySnapshot where
  inception : Option PlainInception
  encryptionDevices : List EncryptionDevice
  deriving DecidableEq

inductive SnapshotContent where
  | unset
  | space (s : SpaceSnapshot)
  | channel (inception : Option ChannelInception)
  | dmChannel (inception : Option DmChannelInception)
  | gdmChannel (s : GdmChannelSnapshot)
  | user (s : UserSnapshot)
  | userInbox (s : UserInboxSnapshot)
  | userSettings (s : UserSettingsSnapshot)
  | userDeviceKey (s : UserDeviceKeySnapshot)
  | media (inception : Option MediaInception)
  deriving DecidableEq

structure Snapshot where
  members : Option (List MemberSnapshot)
  snapshotVersion : Int
  content : SnapshotContent
  deriving DecidableEq

def Snapshot.getInceptionPayload (s : Snapshot) : Option InceptionPayload :=
  match s.content with
  | .unset => none
  | .space c => c.inception.map .space
  | .channel i => i.map .channel
  | .dmChannel i => i.map .dmChannel
  | .gdmChannel c => c.inception.map .gdmChannel
  | .user c => c.inception.map .user
  | .userInbox c => c.inception.map .userInbox
  | .userSettings c => c.inception.map .userSettings
  | .userDeviceKey c => c.inception.map .userDeviceKey
  | .media i => i.map .media

/-! ## Stream events and envelopes -/

structure MiniblockHeader where
  miniblockNum : Int
  prevMiniblockHash : Bytes
  timestamp : Option Timestamp
  eventHashes : List Bytes
  snapshot : Option Snapshot
  eventNumOffset : Int
  prevSnapshotMiniblockNum : Int
  deriving DecidableEq

inductive Payload where
  | unset
  | miniblockHeader (h : MiniblockHeader)
  | member (p : MemberPayload)
  | space (p : SpacePayload)
  | channel (p : ChannelPayload)
  | user (p : UserPayload)
  | userSettings (p : UserSettingsPayload)
  | userDeviceKey (p : UserDeviceKeyPayload)
  | userInbox (p : UserInboxPayload)
  | media (p : MediaPayload)
  | dmChannel (p : DmChannelPayload)
  | gdmChannel (p : GdmChannelPayload)
  deriving DecidableEq

structure StreamEvent where
  creatorAddress : Bytes
  delegateSig : Bytes
  salt : Bytes
  prevMiniblockHash : Option Bytes
  createdAtEpochMs : Int
  delegateExpiryEpochMs : Int
  payload : Payload
  deriving DecidableEq

def StreamEvent.getMiniblockHeader (e : StreamEvent) : Option MiniblockHeader :=
  match e.payload with
  | .miniblockHeader h => some h
  | _ => none

def StreamEvent.getInceptionPayload (e : StreamEvent) : Option InceptionPayload :=
  match e.payload with
  | .space (.inception i) => some (.space i)
  | .channel (.inception i) => some (.channel i)
  | .dmChannel (.inception i) => some (.dmChannel i)
  | .gdmChannel (.inception i) => some (.gdmChannel i)
  | .user (.inception i) => some (.user i)
  | .userInbox (.inception i) => some (.userInbox i)
  | .userSettings (.inception i) => some (.userSettings i)
  | .userDeviceKey (.inception i) => some (.userDeviceKey i)
  | .media (.inception i) => some (.media i)
  | _ => none

inductive EventBytes where
  | encoded (event : StreamEvent) (variant : Nat)
  | malformed (bytes : Bytes)
  deriving DecidableEq

def EventBytes.marshal (e : StreamEvent) : EventBytes := .encoded e 0

@[ext]
structure Envelope where
  hash : Bytes
  signature : Bytes
  event : EventBytes
  deriving DecidableEq

/-- The zero `Envelope`. -/
instance : Inhabited Envelope := ⟨⟨[], [], .malformed []⟩⟩

@[ext]
structure Miniblock where
  events : List Envelope
  header : Envelope
  deriving DecidableEq

structure SyncCookie where
  nodeAddress : Bytes
  streamId : Bytes
  minipoolGen : Int
  minipoolSlot : Int
  prevMiniblockHash : Bytes
  deriving DecidableEq

structure StreamAndCookie where
  events : List Envelope
  nextSyncCookie : SyncCookie
  miniblocks : List Miniblock
  syncReset : Bool
  deriving DecidableEq

structure MiniblockProposal where
  hashes : List Bytes
  newMiniblockNum : Int
  prevMiniblockHash : Bytes
  shouldSnapshot : Bool

end River.Node
