/-
  Snapshots of stream state and how events change them (core/node/events/snapshot.go and the
  snapshot migrations).

  `updateSnapshot` works in place, so it takes and returns the heap with the snapshot.
-/

import River.Lib.MergeDiff
import River.Lib.SortedList
import River.Node.Events.ParsedEvent

namespace River.Node

open River.Lib River.Lib.SortedList

/-! ## Sorted collections -/

variable (members : List MemberSnapshot)

def findMember (address : Bytes) : Option MemberSnapshot :=
  findSorted (·.userAddress) members address

def insertMember (m : MemberSnapshot) : List MemberSnapshot :=
  insertSorted (·.userAddress) members m

def removeMember (address : Bytes) : List MemberSnapshot :=
  removeSorted (·.userAddress) members address

def findChannel (channels : List SpaceChannel) (channelId : Bytes) : Option SpaceChannel :=
  findSorted (·.channelId) channels channelId

def insertChannel (channels : List SpaceChannel) (c : SpaceChannel) : List SpaceChannel :=
  insertSorted (·.channelId) channels c

def findUserMembership (memberships : List UserMembership) (streamId : Bytes) :
    Option UserMembership :=
  findSorted (·.streamId) memberships streamId

def insertUserMembership (memberships : List UserMembership) (m : UserMembership) :
    List UserMembership :=
  insertSorted (·.streamId) memberships m

def insertFullyReadMarker (markers : List FullyReadMarkers) (m : FullyReadMarkers) :
    List FullyReadMarkers :=
  insertSorted (·.streamId) markers m

def insertUserBlock (userBlocks : List UserBlocks) (b : UserBlock) : List UserBlocks :=
  let existing := (findSorted (·.userId) userBlocks b.userId).getD ⟨b.userId, []⟩
  insertSorted (·.userId) userBlocks
    { existing with blocks := existing.blocks ++ [⟨b.isBlocked, b.eventNum⟩] }

/-! ## Key solicitations -/

def removeCommon (x y : List Bytes) : List Bytes := mergeDiff x y

def maxSolicitationDevices : Nat := 10

def applyKeySolicitation (solicitations : List SolicitationPtr) (p : SolicitationPtr) :
    List SolicitationPtr :=
  let kept := solicitations.filter (·.deviceKey ≠ p.deviceKey)
  kept.drop (kept.length - maxSolicitationDevices) ++ [p]

def applyKeyFulfillment (heap : Heap) (kf : KeyFulfillment) :
    List SolicitationPtr → Heap × List SolicitationPtr
  | [] => (heap, [])
  | p :: ps =>
    if p.deviceKey = kf.deviceKey then
      let (heap', p') := p.write heap false (removeCommon (p.read heap).sessionIds kf.sessionIds)
      (heap', p' :: ps)
    else
      let (heap', ps') := applyKeyFulfillment heap kf ps
      (heap', p :: ps')

/-! ## Migrations -/

def compactBy {α κ : Type} [DecidableEq κ] (key : α → κ) : List α → List α
  | [] => []
  | a :: l => a :: go (key a) l
where
  go (k : κ) : List α → List α
  | [] => []
  | b :: l => if key b = k then go k l else b :: go (key b) l

def snapshotMigration0000 (s : Snapshot) : Snapshot := s

def snapshotMigration0001 (s : Snapshot) : Snapshot where
  members := s.members.map (compactBy (·.userAddress))
  snapshotVersion := s.snapshotVersion
  content := match s.content with
    | .space c => .space { c with channels := compactBy (·.channelId) c.channels }
    | .user c => .user { c with memberships := compactBy (·.streamId) c.memberships }
    | .userSettings c =>
      .userSettings { c with fullyReadMarkers := compactBy (·.streamId) c.fullyReadMarkers }
    | c => c

def migrations : List (Snapshot → Snapshot) := [snapshotMigration0000, snapshotMigration0001]

def currentSnapshotVersion : Int := migrations.length

def migrateSnapshot (s : Snapshot) : Res Snapshot :=
  if s.snapshotVersion ≥ currentSnapshotVersion then .ok s
  else if s.snapshotVersion < 0 then .panic "index out of range"
  else
    let s' := (migrations.drop s.snapshotVersion.toNat).foldl (fun s m => m s) s
    .ok { s' with snapshotVersion := currentSnapshotVersion }

/-! ## Update_Snapshot -/

def Snapshot.setContent (s : Snapshot) (content : SnapshotContent) : Snapshot :=
  { s with content := content }

def Snapshot.setJoined (s : Snapshot) (joined : List MemberSnapshot) : Snapshot :=
  { s with members := some joined }

def updateSnapshotSpace (s : Snapshot) (p : SpacePayload) : Res Snapshot :=
  match s.content with
  | .space c =>
    match p with
    | .inception _ =>
      riverError .invalidArgument "cannot update blockheader with inception event"
    | .channel ch => .ok (s.setContent (.space { c with channels := insertChannel c.channels ch }))
    | .unset => riverError .invalidArgument "unknown space payload type %T"
  | _ => .panic "interface conversion"

def updateSnapshotChannel (s : Snapshot) (p : ChannelPayload) : Res Snapshot :=
  match s.content with
  | .channel _ =>
    match p with
    | .inception _ =>
      riverError .invalidArgument "cannot update blockheader with inception event"
    | .message _ => .ok s
    | _ => riverError .invalidArgument "unknown channel payload type %T"
  | _ => .panic "interface conversion"

def updateSnapshotDmChannel (s : Snapshot) (p : DmChannelPayload) : Res Snapshot :=
  match s.content with
  | .dmChannel _ =>
    match p with
    | .inception _ =>
      riverError .invalidArgument "cannot update blockheader with inception event"
    | .message _ => .ok s
    | .unset => riverError .invalidArgument "unknown dm channel payload type %T"
  | _ => .panic "interface conversion"

def updateSnapshotGdmChannel (s : Snapshot) (p : GdmChannelPayload) (eventNum : Int)
    (eventHash : Bytes) : Res Snapshot :=
  match s.content with
  | .gdmChannel c =>
    match p with
    | .inception _ =>
      riverError .invalidArgument "cannot update blockheader with inception event"
    | .channelProperties data =>
      .ok (s.setContent (.gdmChannel
        { c with channelProperties := some ⟨data, eventNum, eventHash⟩ }))
    | .message _ => .ok s
    | .unset => riverError .invalidArgument "unknown channel payload type %T"
  | _ => .panic "interface conversion"

def updateSnapshotUser (s : Snapshot) (p : UserPayload) : Res Snapshot :=
  match s.content with
  | .user c =>
    match p with
    | .inception _ =>
      riverError .invalidArgument "cannot update blockheader with inception event"
    | .userMembership m =>
      .ok (s.setContent (.user { c with memberships := insertUserMembership c.memberships m }))
    | .userMembershipAction _ => .ok s
    | .unset => riverError .invalidArgument "unknown user payload type %T"
  | _ => .panic "interface conversion"

def updateSnapshotUserSettings (s : Snapshot) (p : UserSettingsPayload) : Res Snapshot :=
  match s.content with
  | .userSettings c =>
    match p with
    | .inception _ =>
      riverError .invalidArgument "cannot update blockheader with inception event"
    | .fullyReadMarkers m => .ok (s.setContent (.userSettings
        { c with fullyReadMarkers := insertFullyReadMarker c.fullyReadMarkers m }))
    | .userBlock b => .ok (s.setContent (.userSettings
        { c with userBlocksList := insertUserBlock c.userBlocksList b }))
    | .unset => riverError .invalidArgument "unknown user settings payload type %T"
  | _ => .panic "interface conversion"

def insertEncryptionDevice (devices : List EncryptionDevice) (d : EncryptionDevice) :
    List EncryptionDevice :=
  let kept := devices.filter (·.deviceKey ≠ d.deviceKey)
  if kept.length + 1 = devices.length then kept ++ [d]
  else kept.drop (kept.length - 10) ++ [d]

def updateSnapshotUserDeviceKey (s : Snapshot) (p : UserDeviceKeyPayload) : Res Snapshot :=
  match s.content with
  | .userDeviceKey c =>
    match p with
    | .inception _ =>
      riverError .invalidArgument "cannot update blockheader with inception event"
    | .encryptionDevice d => .ok (s.setContent (.userDeviceKey
        { c with encryptionDevices := insertEncryptionDevice c.encryptionDevices d }))
    | .unset => riverError .invalidArgument "unknown user device key payload type %T"
  | _ => .panic "interface conversion"

def cleanupSnapshotUserInbox (summaries : List (Bytes × DeviceSummary))
    (currentMiniblockNum : Int) : List (Bytes × DeviceSummary) :=
  summaries.filter (fun d => ¬ currentMiniblockNum - d.2.lowerBound > 3600)

def touchDeviceSummary (miniblockNum : Int) (summaries : List (Bytes × DeviceSummary))
    (deviceKey : Bytes) : List (Bytes × DeviceSummary) :=
  match findSorted Prod.fst summaries deviceKey with
  | some (_, d) =>
    insertSorted Prod.fst summaries (deviceKey, { d with upperBound := miniblockNum })
  | none => insertSorted Prod.fst summaries (deviceKey, ⟨miniblockNum, miniblockNum⟩)

def ackDeviceSummary (summaries : List (Bytes × DeviceSummary)) (a : InboxAck) :
    List (Bytes × DeviceSummary) :=
  match findSorted Prod.fst summaries a.deviceKey with
  | none => summaries
  | some (_, d) =>
    if d.upperBound ≤ a.miniblockNum then removeSorted Prod.fst summaries a.deviceKey
    else insertSorted Prod.fst summaries (a.deviceKey, { d with lowerBound := a.miniblockNum + 1 })

def updateSnapshotUserInbox (s : Snapshot) (p : UserInboxPayload) (miniblockNum : Int) :
    Res Snapshot :=
  match s.content with
  | .userInbox c =>
    let put (summaries : List (Bytes × DeviceSummary)) : Snapshot :=
      s.setContent (.userInbox { c with deviceSummary := summaries })
    match p with
    | .inception _ =>
      riverError .invalidArgument "cannot update blockheader with inception event"
    | .groupEncryptionSessions g =>
      let touched := (g.ciphertexts.map Prod.fst).foldl (touchDeviceSummary miniblockNum)
        c.deviceSummary
      .ok (put (cleanupSnapshotUserInbox touched miniblockNum))
    | .ack a =>
      .ok (put (cleanupSnapshotUserInbox (ackDeviceSummary c.deviceSummary a) miniblockNum))
    | .unset => riverError .invalidArgument "unknown user to device payload type %T"
  | _ => .panic "interface conversion"

def updateMember (s : Snapshot) (joined : List MemberSnapshot) (address : Bytes)
    (f : MemberSnapshot → MemberSnapshot) : Res Snapshot :=
  match findMember joined address with
  | none => riverError .invalidArgument "element not found"
  | some _ => .ok (s.setJoined (modifySorted (·.userAddress) joined address f))

def updateSnapshotMember (s : Snapshot) (heap : Heap) (p : MemberPayload) (ref : Nat)
    (creatorAddress : Bytes) (miniblockNum eventNum : Int) (eventHash : Bytes) :
    Res (Snapshot × Heap) :=
  match s.members with
  | none => riverError .invalidArgument "blockheader snapshot is not a membership snapshot"
  | some joined =>
    match p with
    | .membership m =>
      match m.op with
      | .join =>
        .ok (s.setJoined (insertMember joined (.new m.userAddress miniblockNum eventNum)), heap)
      | .leave => .ok (s.setJoined (removeMember joined m.userAddress), heap)
      | .invite => .ok (s, heap)
      | .unspecified => riverError .invalidArgument "membership op is unspecified"
      | .unrecognized _ => riverError .invalidArgument "unknown membership op %v"
    | .keySolicitation ks => do
      let s ← updateMember s joined creatorAddress fun m =>
        { m with solicitations := applyKeySolicitation m.solicitations (.event ref ks) }
      .ok (s, heap)
    | .keyFulfillment kf =>
      -- the write goes through a pointer, so the heap changes with the member
      match findMember joined kf.userAddress with
      | none => riverError .invalidArgument "element not found"
      | some member =>
        let (heap', solicitations) := applyKeyFulfillment heap kf member.solicitations
        .ok (s.setJoined (modifySorted (·.userAddress) joined kf.userAddress
          fun m => { m with solicitations := solicitations }), heap')
    | .displayName data => do
      let s ← updateMember s joined creatorAddress fun m =>
        { m with displayName := some ⟨data, eventNum, eventHash⟩ }
      .ok (s, heap)
    | .username data => do
      let s ← updateMember s joined creatorAddress fun m =>
        { m with username := some ⟨data, eventNum, eventHash⟩ }
      .ok (s, heap)
    | .ensAddress address => do
      let s ← updateMember s joined creatorAddress fun m => { m with ensAddress := address }
      .ok (s, heap)
    | .nft nft => do
      let s ← updateMember s joined creatorAddress fun m => { m with nft := some nft }
      .ok (s, heap)
    | .unset => riverError .invalidArgument "unknown membership payload type %T"

def updateMigratedSnapshot (s : Snapshot) (heap : Heap) (e : ParsedEvent)
    (miniblockNum eventNum : Int) : Res (Snapshot × Heap) :=
  match e.event.payload with
  | .space p => do .ok (← updateSnapshotSpace s p, heap)
  | .channel p => do .ok (← updateSnapshotChannel s p, heap)
  | .dmChannel p => do .ok (← updateSnapshotDmChannel s p, heap)
  | .gdmChannel p => do .ok (← updateSnapshotGdmChannel s p miniblockNum e.hash, heap)
  | .user p => do .ok (← updateSnapshotUser s p, heap)
  | .userSettings p => do .ok (← updateSnapshotUserSettings s p, heap)
  | .userDeviceKey p => do .ok (← updateSnapshotUserDeviceKey s p, heap)
  | .userInbox p => do .ok (← updateSnapshotUserInbox s p miniblockNum, heap)
  | .member p =>
    updateSnapshotMember s heap p e.ref e.event.creatorAddress miniblockNum eventNum e.hash
  | .media _ => riverError .badPayload "Media payload snapshots are not supported"
  | .miniblockHeader _ | .unset => riverError .invalidArgument "unknown payload type %T"

def updateSnapshot (s : Snapshot) (heap : Heap) (e : ParsedEvent) (miniblockNum eventNum : Int) :
    Res ((Snapshot × Heap) × Option RiverError) := do
  let s ← migrateSnapshot s
  match updateMigratedSnapshot s heap e miniblockNum eventNum with
  | .ok r => .ok (r, none)
  | .error err => .ok ((s, heap), some err)
  | .panic m => .panic m

/-! ## Genesis -/

def makeSnapshotContent : InceptionPayload → SnapshotContent
  | .space i => .space ⟨some i, []⟩
  | .channel i => .channel (some i)
  | .dmChannel i => .dmChannel (some i)
  | .gdmChannel i => .gdmChannel ⟨some i, none⟩
  | .user i => .user ⟨some i, []⟩
  | .userSettings i => .userSettings ⟨some i, [], []⟩
  | .userInbox i => .userInbox ⟨some i, []⟩
  | .userDeviceKey i => .userDeviceKey ⟨some i, []⟩
  | .media i => .media (some i)

def makeSnapshotMembers (i : InceptionPayload) (creatorAddress : Bytes) :
    Res (List MemberSnapshot) :=
  match i with
  | .user i | .userSettings i | .userInbox i | .userDeviceKey i => do
    let userAddress ← getUserAddressFromStreamIdBytes i.streamId
    .ok (insertMember [] (.new userAddress 0 0))
  | .dmChannel i => .ok (insertMember (insertMember [] (.new i.firstPartyAddress 0 0))
      (.new i.secondPartyAddress 0 0))
  | .media _ => .ok (insertMember [] (.new creatorAddress 0 0))
  | _ => .ok []

def updateGenesisSnapshot : List ParsedEvent → Int → Snapshot → Heap → Res (Snapshot × Heap)
  | [], _, s, heap => .ok (s, heap)
  | e :: es, eventNum, s, heap => do
    let ((s, heap), err) ← updateSnapshot s heap e 0 eventNum
    match err with
    | some err => .error err
    | none => updateGenesisSnapshot es (eventNum + 1) s heap

def makeGenesisSnapshot (events : List ParsedEvent) (heap : Heap) : Res (Snapshot × Heap) :=
  match events with
  | [] => riverError .invalidArgument "no events to make snapshot from"
  | inceptionEvent :: rest =>
    match inceptionEvent.event.getInceptionPayload with
    | none => riverError .invalidArgument "inceptionEvent is not an inception event"
    | some inceptionPayload => do
      let members ← makeSnapshotMembers inceptionPayload inceptionEvent.event.creatorAddress
      let snapshot : Snapshot :=
        ⟨some members, currentSnapshotVersion, makeSnapshotContent inceptionPayload⟩
      updateGenesisSnapshot rest 1 snapshot heap

/-! ## Updates keep the inception -/

theorem migrateSnapshot_getInceptionPayload (h : migrateSnapshot s = .ok s') :
    s'.getInceptionPayload = s.getInceptionPayload := by
  have hmigrations : ∀ ms ⊆ migrations, ∀ s : Snapshot,
      (ms.foldl (fun s m => m s) s).getInceptionPayload = s.getInceptionPayload := by
    intro ms hms
    induction ms with
    | nil => intro s; rfl
    | cons m ms ih =>
      intro s
      rw [List.foldl_cons, ih (fun x hx => hms (List.mem_cons_of_mem _ hx))]
      have hm : m = snapshotMigration0000 ∨ m = snapshotMigration0001 := by
        simpa [migrations] using hms List.mem_cons_self
      rcases hm with rfl | rfl
      · rfl
      · unfold snapshotMigration0001 Snapshot.getInceptionPayload
        cases s.content <;> rfl
  unfold migrateSnapshot at h
  split at h
  · cases h
    rfl
  split at h
  · cases h
  · cases h
    exact hmigrations _ (List.drop_subset _ _) s

theorem updateMember_content (h : updateMember s joined address f = .ok s') :
    s'.content = s.content := by
  unfold updateMember at h
  split at h
  · cases h
  · cases h
    rfl

theorem updateSnapshotMember_content
    (h : updateSnapshotMember s heap p ref creatorAddress miniblockNum eventNum eventHash =
      .ok sh) :
    sh.1.content = s.content := by
  have hupdate : ∀ {joined address f}, (do
      let s ← updateMember s joined address f
      .ok (s, heap)) = .ok sh → sh.1.content = s.content := by
    intro joined address f h
    obtain ⟨_, hs', h⟩ := Res.bind_eq_ok.1 h
    cases h
    exact updateMember_content hs'
  unfold updateSnapshotMember at h
  split at h
  · cases h
  cases p with
  | membership m =>
    obtain ⟨op, _, _⟩ := m
    cases op <;> cases h <;> rfl
  | keyFulfillment kf =>
    simp only at h
    split at h
    · cases h
    · cases h
      rfl
  | unset => cases h
  | _ => exact hupdate h

theorem updateMigratedSnapshot_getInceptionPayload
    (h : updateMigratedSnapshot s heap e miniblockNum eventNum = .ok sh) :
    sh.1.getInceptionPayload = s.getInceptionPayload := by
  have hcontent : ∀ {x : Res Snapshot},
      (∀ s', x = .ok s' → s'.getInceptionPayload = s.getInceptionPayload) →
      (do .ok (← x, heap)) = .ok sh → sh.1.getInceptionPayload = s.getInceptionPayload := by
    intro x hx h
    obtain ⟨s', hs', h⟩ := Res.bind_eq_ok.1 h
    cases h
    exact hx s' hs'
  unfold updateMigratedSnapshot at h
  cases hp : e.event.payload with
  | member p =>
    rw [hp] at h
    unfold Snapshot.getInceptionPayload
    rw [updateSnapshotMember_content h]
  | media p | miniblockHeader p | unset => simp [hp, riverError] at h
  | _ p =>
    -- the eight content types: the new content keeps the inception of the old one
    rw [hp] at h
    refine hcontent (fun s' hs' => ?_) h
    simp only [updateSnapshotSpace, updateSnapshotChannel, updateSnapshotDmChannel,
      updateSnapshotGdmChannel, updateSnapshotUser, updateSnapshotUserSettings,
      updateSnapshotUserDeviceKey, updateSnapshotUserInbox] at hs'
    cases hc : s.content <;> cases p <;> simp only [hc] at hs' <;> cases hs' <;>
      simp [Snapshot.getInceptionPayload, Snapshot.setContent, hc]

theorem updateSnapshot_getInceptionPayload
    (h : updateSnapshot s heap e miniblockNum eventNum = .ok r) :
    r.1.1.getInceptionPayload = s.getInceptionPayload := by
  obtain ⟨s1, hs1, h⟩ := Res.bind_eq_ok.1 h
  rw [← migrateSnapshot_getInceptionPayload hs1]
  cases hu : updateMigratedSnapshot s1 heap e miniblockNum eventNum with
  | ok sh =>
    rw [hu] at h
    cases h
    exact updateMigratedSnapshot_getInceptionPayload hu
  | error err =>
    rw [hu] at h
    cases h
    rfl
  | panic m =>
    rw [hu] at h
    cases h

theorem makeGenesisSnapshot_getInceptionPayload (h : makeGenesisSnapshot events heap = .ok sh) :
    ∃ e, events.head? = some e ∧ sh.1.getInceptionPayload = e.event.getInceptionPayload := by
  have hrest : ∀ (es : List ParsedEvent) (n : Int) (s : Snapshot) (heap : Heap),
      updateGenesisSnapshot es n s heap = .ok sh →
        sh.1.getInceptionPayload = s.getInceptionPayload := by
    intro es
    induction es with
    | nil =>
      intro n s heap h
      cases h
      rfl
    | cons e es ih =>
      intro n s heap h
      obtain ⟨r, hr, h⟩ := Res.bind_eq_ok.1 h
      obtain ⟨⟨s1, heap1⟩, err⟩ := r
      cases err with
      | some err => cases h
      | none => exact (ih _ s1 heap1 h).trans (updateSnapshot_getInceptionPayload hr)
  cases events with
  | nil => cases h
  | cons e es =>
    refine ⟨e, rfl, ?_⟩
    unfold makeGenesisSnapshot at h
    simp only at h
    cases hi : e.event.getInceptionPayload with
    | none =>
      rw [hi] at h
      cases h
    | some i =>
      rw [hi] at h
      obtain ⟨_, -, h⟩ := Res.bind_eq_ok.1 h
      rw [hrest es _ _ _ h]
      cases i <;> rfl

end River.Node
