/-
  What one update does to a snapshot.
-/

import River.Node.Events.Replay

namespace River.Node

open River.Lib River.Lib.SortedList Option Snapshot

/-! ## Well-formed snapshots -/

def SnapshotContent.channels? : SnapshotContent → Option (List SpaceChannel)
  | .space c => some c.channels
  | _ => none

def SnapshotContent.memberships? : SnapshotContent → Option (List UserMembership)
  | .user c => some c.memberships
  | _ => none

structure Snapshot.WellFormed (s : Snapshot) : Prop where
  version : currentSnapshotVersion ≤ s.snapshotVersion
  members : ∃ joined, s.members = some joined ∧ Ascending (·.userAddress) joined
  channels : ∀ cs, s.content.channels? = some cs → Ascending (·.channelId) cs
  memberships : ∀ ms, s.content.memberships? = some ms → Ascending (·.streamId) ms

def Snapshot.solicitations (s : Snapshot) (userAddress : Bytes) : Option (List SolicitationPtr) :=
  (lookup (·.userAddress) (s.members.getD []) userAddress).map (·.solicitations)

namespace Snapshot.WellFormed

variable {s : Snapshot}

theorem migrateSnapshot (h : s.WellFormed) : migrateSnapshot s = .ok s := by
  exact if_pos h.version

theorem clone (h : s.WellFormed) (heap : Heap) : (s.clone heap).WellFormed := by
  obtain ⟨joined, hjoined, hasc⟩ := h.members
  refine ⟨h.version, ⟨joined.map (·.clone heap), ?_, ?_⟩, h.channels, h.memberships⟩
  · simp [Snapshot.clone, hjoined]
  · exact List.pairwise_map.2 hasc

theorem findMember (h : s.WellFormed) (userAddress : Bytes) :
    findMember (s.members.getD []) userAddress =
      lookup (·.userAddress) (s.members.getD []) userAddress := by
  obtain ⟨_, hjoined, hasc⟩ := h.members
  rw [hjoined]
  exact findSorted_eq_lookup hasc userAddress

end Snapshot.WellFormed

theorem lookup_map_clone (heap : Heap) (ms : List MemberSnapshot) (u : Bytes) :
    lookup (·.userAddress) (ms.map (·.clone heap)) u =
      (lookup (·.userAddress) ms u).map (·.clone heap) := by
  unfold lookup
  rw [List.find?_map]
  rfl

theorem Snapshot.solicitations_clone (heap : Heap) (s : Snapshot) (u : Bytes) :
    (s.clone heap).solicitations u =
      (s.solicitations u).map (·.map fun p => .own (p.read heap)) := by
  have hgetD : (s.clone heap).members.getD [] = (s.members.getD []).map (·.clone heap) := by
    cases hm : s.members <;> simp [clone, hm]
  rw [solicitations, hgetD, lookup_map_clone, solicitations, map_map, map_map]
  rfl

/-! ## Steps -/

def solicitationsStep (heap : Heap) (e : ParsedEvent) (userAddress : Bytes)
    (ps : Option (List SolicitationPtr)) : Option (List SolicitationPtr) :=
  match e.event.payload with
  | .member (.membership m) =>
    if m.userAddress = userAddress then
      match m.op with
      | .join => some []
      | .leave => none
      | _ => ps
    else ps
  | .member (.keySolicitation ks) =>
    if e.event.creatorAddress = userAddress then
      ps.map (applyKeySolicitation · (.event e.ref ks))
    else ps
  | .member (.keyFulfillment kf) =>
    if kf.userAddress = userAddress then ps.map fun ps => (applyKeyFulfillment heap kf ps).2
    else ps
  | _ => ps

def heapStep (heap : Heap) (e : ParsedEvent) (ps : Bytes → Option (List SolicitationPtr)) : Heap :=
  match e.event.payload with
  | .member (.keyFulfillment kf) =>
    ((ps kf.userAddress).map fun ps => (applyKeyFulfillment heap kf ps).1).getD heap
  | _ => heap

def channelsStep (e : ParsedEvent) (cs : List SpaceChannel) : List SpaceChannel :=
  match e.event.payload with
  | .space (.channel c) => insertChannel cs c
  | _ => cs

def membershipsStep (e : ParsedEvent) (ms : List UserMembership) : List UserMembership :=
  match e.event.payload with
  | .user (.userMembership m) => insertUserMembership ms m
  | _ => ms

theorem ascending_channelsStep (e : ParsedEvent)
    (hasc : Ascending (·.channelId) cs) : Ascending (·.channelId) (channelsStep e cs) := by
  unfold channelsStep
  split
  · exact hasc.insertSorted _
  · exact hasc

theorem ascending_membershipsStep (e : ParsedEvent)
    (hasc : Ascending (·.streamId) ms) : Ascending (·.streamId) (membershipsStep e ms) := by
  unfold membershipsStep
  split
  · exact hasc.insertSorted _
  · exact hasc

structure Stepped (e : ParsedEvent) (s : Snapshot) (heap : Heap) (sh : Snapshot × Heap) : Prop where
  wellFormed : sh.1.WellFormed
  solicitations : ∀ u, sh.1.solicitations u = solicitationsStep heap e u (s.solicitations u)
  heap_eq : sh.2 = heapStep heap e s.solicitations
  channels : sh.1.content.channels? = s.content.channels?.map (channelsStep e)
  memberships : sh.1.content.memberships? = s.content.memberships?.map (membershipsStep e)

theorem Stepped.of_setJoined {e : ParsedEvent} {s : Snapshot} {heap heap' : Heap}
    (hs : s.WellFormed) (hp : e.event.payload = .member p) (hasc : Ascending (·.userAddress) joined)
    (hsolicitations : ∀ u, (lookup (·.userAddress) joined u).map (·.solicitations) =
      solicitationsStep heap e u (s.solicitations u))
    (hheap : heap' = heapStep heap e s.solicitations) :
    Stepped e s heap (s.setJoined joined, heap') where
  wellFormed := ⟨hs.version, ⟨joined, rfl, hasc⟩, hs.channels, hs.memberships⟩
  solicitations := hsolicitations
  heap_eq := hheap
  channels := by
    have hstep : channelsStep e = id := funext fun cs => by simp [channelsStep, hp]
    rw [hstep, map_id_apply]
    rfl
  memberships := by
    have hstep : membershipsStep e = id := funext fun ms => by simp [membershipsStep, hp]
    rw [hstep, map_id_apply]
    rfl

theorem Stepped.of_eq {s : Snapshot} (hs : s.WellFormed)
    (hsolicitations : ∀ u, s.solicitations u = solicitationsStep heap e u (s.solicitations u))
    (hheap : heap = heapStep heap e s.solicitations)
    (hchannels : ∀ cs, s.content.channels? = some cs → channelsStep e cs = cs)
    (hmemberships : ∀ ms, s.content.memberships? = some ms → membershipsStep e ms = ms) :
    Stepped e s heap (s, heap) where
  wellFormed := hs
  solicitations := hsolicitations
  heap_eq := hheap
  channels := by
    cases hcs : s.content.channels? with
    | none => rfl
    | some cs => rw [map_some, hchannels cs hcs]
  memberships := by
    cases hms : s.content.memberships? with
    | none => rfl
    | some ms => rw [map_some, hmemberships ms hms]

theorem Stepped.of_member {e : ParsedEvent} {s : Snapshot} (hs : s.WellFormed)
    (hp : e.event.payload = .member p)
    (hsolicitations : ∀ u, s.solicitations u = solicitationsStep heap e u (s.solicitations u))
    (hheap : heap = heapStep heap e s.solicitations) : Stepped e s heap (s, heap) :=
  .of_eq hs hsolicitations hheap (fun cs _ => by simp [channelsStep, hp])
    (fun ms _ => by simp [membershipsStep, hp])

/-! ## Update_Snapshot -/

theorem updateMember_stepped {e : ParsedEvent} {s : Snapshot} {address : Bytes}
    {f : MemberSnapshot → MemberSnapshot} {g : List SolicitationPtr → List SolicitationPtr}
    (hs : s.WellFormed) (hp : e.event.payload = .member p) (hjoined : s.members = some joined)
    (hkey : ∀ m, (f m).userAddress = m.userAddress)
    (hf : ∀ m, (f m).solicitations = g m.solicitations)
    (hstep : ∀ u ps, solicitationsStep heap e u ps = if u = address then ps.map g else ps)
    (hheap : heapStep heap e s.solicitations = heap) :
    match (do
      let s ← updateMember s joined address f
      Res.ok (s, heap)) with
    | .ok sh => Stepped e s heap sh
    | .error _ => Stepped e s heap (s, heap)
    | .panic _ => False := by
  obtain ⟨joined', hjoined', hasc⟩ := hs.members
  obtain rfl : joined' = joined := some.inj (hjoined'.symm.trans hjoined)
  have hsol : ∀ u, s.solicitations u =
      (lookup (·.userAddress) joined' u).map (·.solicitations) := by
    intro u
    rw [solicitations, hjoined', getD_some]
  have hfind : findMember joined' address = lookup (·.userAddress) joined' address :=
    findSorted_eq_lookup hasc address
  unfold updateMember
  cases hm : lookup (·.userAddress) joined' address with
  | none =>
    rw [hfind, hm]
    refine .of_member hs hp (fun u => ?_) hheap.symm
    rw [hstep]
    split
    · rename_i hu
      rw [hsol, hu, hm]
      rfl
    · rfl
  | some m =>
    rw [hfind, hm]
    refine .of_setJoined hs hp (hasc.modifySorted address hkey) (fun u => ?_) hheap.symm
    rw [lookup_modifySorted hasc address u hkey, hstep, hsol]
    split
    · rename_i hu
      subst hu
      rw [hm]
      exact congrArg some (hf m)
    · rfl

theorem updateSnapshotMember_stepped {e : ParsedEvent} {s : Snapshot} {heap : Heap}
    {p : MemberPayload} (hs : s.WellFormed) (hp : e.event.payload = .member p)
    (miniblockNum eventNum : Int) :
    match updateSnapshotMember s heap p e.ref e.event.creatorAddress miniblockNum
      eventNum e.hash with
    | .ok sh => Stepped e s heap sh
    | .error _ => Stepped e s heap (s, heap)
    | .panic _ => False := by
  obtain ⟨joined, hjoined, hasc⟩ := hs.members
  have hsol : ∀ u, s.solicitations u = (lookup (·.userAddress) joined u).map (·.solicitations) := by
    intro u
    rw [solicitations, hjoined, getD_some]
  unfold updateSnapshotMember
  rw [hjoined]
  cases p with
  | membership m =>
    have hheap : heap = heapStep heap e s.solicitations := by simp [heapStep, hp]
    have hsame : m.op ≠ .join → m.op ≠ .leave →
        ∀ u, s.solicitations u = solicitationsStep heap e u (s.solicitations u) := by
      intro hjoin hleave u
      simp only [solicitationsStep, hp]
      split <;> rfl
    cases hop : m.op with
    | join =>
      simp only [hop]
      refine .of_setJoined hs hp (hasc.insertSorted _) (fun u => ?_) hheap
      rw [insertMember, lookup_insertSorted hasc, hsol]
      by_cases hu : u = m.userAddress
      · simp [solicitationsStep, hp, hop, hu, MemberSnapshot.new]
      · simp [solicitationsStep, hp, hu, Ne.symm hu, MemberSnapshot.new]
    | leave =>
      simp only [hop]
      refine .of_setJoined hs hp (hasc.removeSorted _) (fun u => ?_) hheap
      rw [removeMember, lookup_removeSorted hasc, hsol]
      by_cases hu : u = m.userAddress
      · simp [solicitationsStep, hp, hop, hu]
      · simp [solicitationsStep, hp, hu, Ne.symm hu]
    | invite =>
      simp only [hop]
      exact .of_member hs hp (hsame (by simp [hop]) (by simp [hop])) hheap
    | _ =>
      simp only [hop]
      exact .of_member hs hp (hsame (by simp [hop]) (by simp [hop])) hheap
  | keySolicitation ks =>
    refine updateMember_stepped (g := (applyKeySolicitation · (.event e.ref ks))) hs hp hjoined
      (fun _ => rfl) (fun _ => rfl) (fun u ps => ?_) ?_
    · simp [solicitationsStep, hp, eq_comm]
    · simp [heapStep, hp]
  | keyFulfillment kf =>
    have hfind : findMember joined kf.userAddress = lookup (·.userAddress) joined kf.userAddress :=
      findSorted_eq_lookup hasc kf.userAddress
    cases hm : lookup (·.userAddress) joined kf.userAddress with
    | none =>
      simp only [hfind, hm]
      refine .of_member hs hp (fun u => ?_) ?_
      · simp only [solicitationsStep, hp]
        split
        · rename_i hu
          rw [hsol, ← hu, hm]
          rfl
        · rfl
      · simp [heapStep, hp, hsol, hm]
    | some member =>
      simp only [hfind, hm]
      refine .of_setJoined hs hp (hasc.modifySorted _ fun _ => rfl) (fun u => ?_) ?_
      · have hmodify := lookup_modifySorted hasc kf.userAddress u (f := fun m : MemberSnapshot =>
          { m with solicitations := (applyKeyFulfillment heap kf member.solicitations).2 })
          fun _ => rfl
        rw [hmodify, hsol]
        by_cases hu : u = kf.userAddress
        · simp [solicitationsStep, hp, hu, hm]
        · simp [solicitationsStep, hp, hu, Ne.symm hu]
      · simp [heapStep, hp, hsol, hm]
  | unset =>
    exact .of_member hs hp (fun u => by simp [solicitationsStep, hp]) (by simp [heapStep, hp])
  | _ =>
    -- names, the ENS address and the NFT are fields that no query reads
    refine updateMember_stepped (g := id) hs hp hjoined (fun _ => rfl) (fun _ => rfl)
      (fun u ps => ?_) ?_
    · simp [solicitationsStep, hp]
    · simp [heapStep, hp]

theorem Stepped.of_setContent {e : ParsedEvent} {s : Snapshot} {heap : Heap}
    {content : SnapshotContent} (hs : s.WellFormed) (hp : ∀ p, e.event.payload ≠ .member p)
    (hchannels : content.channels? = s.content.channels?.map (channelsStep e))
    (hmemberships : content.memberships? = s.content.memberships?.map (membershipsStep e)) :
    Stepped e s heap (s.setContent content, heap) where
  wellFormed := by
    refine ⟨hs.version, hs.members, fun cs hcs => ?_, fun ms hms => ?_⟩
    · rw [setContent, hchannels] at hcs
      obtain ⟨cs', hcs', rfl⟩ := map_eq_some_iff.1 hcs
      exact ascending_channelsStep e (hs.channels cs' hcs')
    · rw [setContent, hmemberships] at hms
      obtain ⟨ms', hms', rfl⟩ := map_eq_some_iff.1 hms
      exact ascending_membershipsStep e (hs.memberships ms' hms')
  solicitations u := by
    unfold solicitationsStep
    cases hpayload : e.event.payload with
    | member p => exact absurd hpayload (hp p)
    | _ => rfl
  heap_eq := by
    unfold heapStep
    cases hpayload : e.event.payload with
    | member p => exact absurd hpayload (hp p)
    | _ => rfl
  channels := hchannels
  memberships := hmemberships

theorem updateSnapshot_stepped {e : ParsedEvent} {s : Snapshot} {heap : Heap} {sh : Snapshot × Heap}
    {err : Option RiverError} (hs : s.WellFormed)
    (h : updateSnapshot s heap e miniblockNum eventNum = .ok (sh, err)) :
    Stepped e s heap sh := by
  unfold updateSnapshot at h
  rw [hs.migrateSnapshot, Res.ok_bind] at h
  have hsame : (∀ p, e.event.payload ≠ .member p) → channelsStep e = id → membershipsStep e = id →
      Stepped e s heap (s, heap) := by
    intro hp hchannels hmemberships
    exact .of_setContent hs hp (by rw [hchannels, map_id_apply])
      (by rw [hmemberships, map_id_apply])
  cases hp : e.event.payload with
  | member p =>
    have hstep := @updateSnapshotMember_stepped e s heap p hs hp miniblockNum eventNum
    simp only [updateMigratedSnapshot, hp] at h
    generalize updateSnapshotMember s heap p e.ref e.event.creatorAddress miniblockNum eventNum
      e.hash = r at h hstep
    cases r with
    | panic m => exact hstep.elim
    | _ =>
      cases h
      exact hstep
  | media p | miniblockHeader p | unset =>
    simp only [updateMigratedSnapshot, hp] at h
    cases h
    exact hsame (by simp [hp]) (by funext cs; simp [channelsStep, hp])
      (by funext ms; simp [membershipsStep, hp])
  | _ p =>
    -- the eight content types: the content is replaced, or left alone
    simp only [updateMigratedSnapshot, hp, updateSnapshotSpace, updateSnapshotChannel,
      updateSnapshotDmChannel, updateSnapshotGdmChannel, updateSnapshotUser,
      updateSnapshotUserSettings, updateSnapshotUserDeviceKey, updateSnapshotUserInbox] at h
    have hcontent : ∃ content, sh = (s.setContent content, heap) ∧
        content.channels? = s.content.channels?.map (channelsStep e) ∧
        content.memberships? = s.content.memberships?.map (membershipsStep e) := by
      cases hc : s.content <;> cases p <;> simp only [hc, riverError, Res.error_bind,
        Res.panic_bind] at h <;> cases h <;> refine ⟨_, rfl, ?_, ?_⟩ <;>
        simp [channelsStep, membershipsStep, hp, hc, SnapshotContent.channels?,
          SnapshotContent.memberships?]
    obtain ⟨content, rfl, hchannels, hmemberships⟩ := hcontent
    exact .of_setContent hs (by simp [hp]) hchannels hmemberships

theorem Updates.wellFormed (h : Updates es sh sh') (hs : sh.1.WellFormed) : sh'.1.WellFormed := by
  refine h.invariant (I := fun sh => sh.1.WellFormed) ?_ hs
  intro e _ s heap miniblockNum eventNum sh err hwf hupdate
  exact (updateSnapshot_stepped hwf hupdate).wellFormed

theorem Updates.content {es : List ParsedEvent} {sh sh' : Snapshot × Heap}
    (h : Updates es sh sh') (hs : sh.1.WellFormed) :
    sh'.1.content.channels? =
        sh.1.content.channels?.map (es.foldl (fun cs e => channelsStep e cs)) ∧
      sh'.1.content.memberships? =
        sh.1.content.memberships?.map (es.foldl (fun ms e => membershipsStep e ms)) := by
  induction h with
  | nil sh => exact ⟨(map_id_apply).symm, (map_id_apply).symm⟩
  | cons first rest ih =>
    have hstep := updateSnapshot_stepped hs first
    obtain ⟨hchannels, hmemberships⟩ := ih hstep.wellFormed
    rw [hchannels, hmemberships, hstep.channels, hstep.memberships, map_map, map_map]
    exact ⟨rfl, rfl⟩

end River.Node
