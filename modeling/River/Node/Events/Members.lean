/-
  The members of a stream.

  The three ways in which the node computes them agree as long as the events are `Regular`.
-/

import River.Node.Events.SnapshotSpec

namespace River.Node

open River.Lib River.Lib.SortedList StreamView Snapshot

/-! ## Events and sets of members -/

def memberStep (members : Finset Bytes) (e : ParsedEvent) : Finset Bytes :=
  match e.event.payload with
  | .member (.membership m) =>
    match m.op with
    | .join => insert m.userAddress members
    | .leave => members.erase m.userAddress
    | _ => members
  | _ => members

def SparesMembers (members : Finset Bytes) (e : ParsedEvent) : Prop :=
  ∀ m, e.event.payload = .member (.membership m) → m.op ≠ .join → m.op ≠ .leave →
    m.userAddress ∉ members

def Regular : Finset Bytes → List ParsedEvent → Prop
  | _, [] => True
  | members, e :: es => SparesMembers members e ∧ Regular (memberStep members e) es

theorem regular_append {members : Finset Bytes} {es es' : List ParsedEvent} :
    Regular members (es ++ es') ↔
      Regular members es ∧ Regular (es.foldl memberStep members) es' := by
  induction es generalizing members with
  | nil => simp [Regular]
  | cons e es ih =>
    rw [List.cons_append, Regular, Regular, ih, List.foldl_cons, and_assoc]

theorem membership_cases (e : ParsedEvent) :
    (∃ m, e.event.payload = .member (.membership m)) ∨
      ∀ m, e.event.payload ≠ .member (.membership m) :=
  (em _).imp_right not_exists.1

theorem memberStep_of_ne {e : ParsedEvent} (h : ∀ m, e.event.payload ≠ .member (.membership m))
    (members : Finset Bytes) : memberStep members e = members := by
  unfold memberStep
  split
  · rename_i m hm
    exact absurd hm (h m)
  · rfl

theorem mem_memberStep {members : Finset Bytes} {e : ParsedEvent}
    (hm : e.event.payload = .member (.membership m)) {u : Bytes} :
    u ∈ memberStep members e ↔
      if m.userAddress = u ∧ m.op = .join then True
      else if m.userAddress = u ∧ m.op = .leave then False
      else u ∈ members := by
  simp only [memberStep, hm]
  by_cases hu : m.userAddress = u
  · cases hop : m.op <;> simp [hu]
  · cases hop : m.op <;> simp [hu, Ne.symm hu]

/-! ## Snapshots -/

def Snapshot.joinedSet (s : Snapshot) : Finset Bytes :=
  ((s.members.getD []).map (·.userAddress)).toFinset

theorem Snapshot.mem_joinedSet {s : Snapshot} {u : Bytes} :
    u ∈ s.joinedSet ↔ (s.solicitations u).isSome := by
  simp [joinedSet, solicitations, lookup]

@[simp] theorem Snapshot.joinedSet_clone (heap : Heap) (s : Snapshot) :
    (s.clone heap).joinedSet = s.joinedSet := by
  ext u
  rw [mem_joinedSet, mem_joinedSet, solicitations_clone, Option.isSome_map]

theorem Stepped.joinedSet
    (h : Stepped e s heap sh) : sh.1.joinedSet = memberStep s.joinedSet e := by
  ext u
  rw [mem_joinedSet, h.solicitations]
  obtain ⟨m, hm⟩ | hno := membership_cases e
  · rw [mem_memberStep hm, mem_joinedSet]
    by_cases hu : m.userAddress = u
    · cases hop : m.op <;> simp [solicitationsStep, hm, hu, hop]
    · simp [solicitationsStep, hm, hu]
  · rw [memberStep_of_ne hno, mem_joinedSet]
    unfold solicitationsStep
    split
    · rename_i m hm
      exact absurd hm (hno m)
    · split <;> simp
    · split <;> simp
    · rfl

theorem Updates.joinedSet (h : Updates es sh sh') (hs : sh.1.WellFormed) :
    sh'.1.WellFormed ∧ sh'.1.joinedSet = es.foldl memberStep sh.1.joinedSet := by
  induction h with
  | nil sh => exact ⟨hs, rfl⟩
  | cons first rest ih =>
    have hstep := updateSnapshot_stepped hs first
    obtain ⟨hwf, hjoined⟩ := ih hstep.wellFormed
    refine ⟨hwf, ?_⟩
    rw [hjoined, hstep.joinedSet, List.foldl_cons]

/-! ## Genesis -/

def inceptionMembers (e : ParsedEvent) : Finset Bytes :=
  match e.event.getInceptionPayload with
  | none => ∅
  | some i =>
    match makeSnapshotMembers i e.event.creatorAddress with
    | .ok members => (members.map (·.userAddress)).toFinset
    | _ => ∅

def genesisMembers : List ParsedEvent → Finset Bytes
  | [] => ∅
  | inception :: events => events.foldl memberStep (inceptionMembers inception)

theorem makeSnapshotMembers_ascending {creatorAddress : Bytes} {members : List MemberSnapshot}
    (h : makeSnapshotMembers i creatorAddress = .ok members) :
    Ascending (·.userAddress) members := by
  have hnil : Ascending (fun m : MemberSnapshot => m.userAddress) [] := .nil
  cases i with
  | user i | userSettings i | userInbox i | userDeviceKey i =>
    obtain ⟨_, -, h⟩ := Res.bind_eq_ok.1 h
    cases h
    exact hnil.insertSorted _
  | dmChannel i =>
    cases h
    exact (hnil.insertSorted _).insertSorted _
  | media i =>
    cases h
    exact hnil.insertSorted _
  | _ =>
    cases h
    exact hnil

theorem makeGenesisSnapshot_eq_ok {heap : Heap} {sh : Snapshot × Heap}
    (h : makeGenesisSnapshot events heap = .ok sh) :
    ∃ e es i members, events = e :: es ∧ e.event.getInceptionPayload = some i ∧
      makeSnapshotMembers i e.event.creatorAddress = .ok members ∧
      WellFormed ⟨some members, currentSnapshotVersion, makeSnapshotContent i⟩ ∧
      Updates es (⟨some members, currentSnapshotVersion, makeSnapshotContent i⟩, heap) sh := by
  cases events with
  | nil => cases h
  | cons e es =>
    unfold makeGenesisSnapshot at h
    simp only at h
    cases hi : e.event.getInceptionPayload with
    | none =>
      rw [hi] at h
      cases h
    | some i =>
      rw [hi] at h
      obtain ⟨members, hmembers, h⟩ := Res.bind_eq_ok.1 h
      refine ⟨e, es, i, members, rfl, hi, hmembers, ?_, updates_of_updateGenesisSnapshot h⟩
      refine ⟨le_refl _, ⟨members, rfl, makeSnapshotMembers_ascending hmembers⟩, ?_, ?_⟩
      · intro cs hcs
        cases i <;> cases hcs
        exact .nil
      · intro ms hms
        cases i <;> cases hms
        exact .nil

theorem makeGenesisSnapshot_joinedSet (h : makeGenesisSnapshot events heap = .ok sh) :
    sh.1.WellFormed ∧ sh.1.joinedSet = genesisMembers events := by
  obtain ⟨e, _, i, _, rfl, hi, hmembers, hwf, hupdates⟩ := makeGenesisSnapshot_eq_ok h
  obtain ⟨hwf', hjoined⟩ := hupdates.joinedSet hwf
  refine ⟨hwf', ?_⟩
  rw [hjoined, genesisMembers, inceptionMembers, hi]
  simp only [hmembers]
  rfl

/-! ## Queries -/

namespace Replay

def members (r : Replay) : Finset Bytes := r.events.foldl memberStep r.snapshot.joinedSet

structure Sound (r : Replay) : Prop where
  wellFormed : r.snapshot.WellFormed
  regular : Regular r.snapshot.joinedSet r.events

theorem foldlM_membershipOp {u : Bytes} {members : Finset Bytes} (hregular : Regular members es)
    {op : MembershipOp} (hop : op = .join ↔ u ∈ members) :
    ∃ op', es.foldlM (membershipOp u) op = .ok op' ∧
      (op' = .join ↔ u ∈ es.foldl memberStep members) := by
  induction es generalizing members op with
  | nil => exact ⟨op, rfl, hop⟩
  | cons e es ih =>
    obtain ⟨hspares, hregular⟩ := hregular
    -- one event: the membership it leaves the user with
    have hone : ∃ op1, membershipOp u op e = .ok op1 ∧
        (op1 = .join ↔ u ∈ memberStep members e) := by
      obtain ⟨m, hm⟩ | hno := membership_cases e
      · refine ⟨if m.userAddress = u then m.op else op, by simp [membershipOp, hm], ?_⟩
        rw [mem_memberStep hm]
        by_cases hu : m.userAddress = u
        · have hnot := hspares m hm
          cases hop' : m.op <;> simp_all
        · simp [hu, hop]
      · refine ⟨op, ?_, by rw [memberStep_of_ne hno, hop]⟩
        unfold membershipOp
        split
        · rename_i m hm
          exact absurd hm (hno m)
        · rfl
    obtain ⟨op1, hop1, hmem⟩ := hone
    rw [List.foldlM_cons, hop1]
    exact ih hregular hmem

theorem Sound.getMembership {r : Replay} (h : r.Sound) (u : Bytes) :
    ∃ op, r.getMembership u = .ok op ∧ (op = .join ↔ u ∈ r.members) := by
  obtain ⟨joined, hjoined, -⟩ := h.wellFormed.members
  have hfind := h.wellFormed.findMember u
  rw [hjoined] at hfind
  have hstart : (if (findMember joined u).isSome then MembershipOp.join else .unspecified) = .join ↔
      u ∈ r.snapshot.joinedSet := by
    rw [mem_joinedSet, solicitations]
    split <;> simp_all
  obtain ⟨op, hop, hmem⟩ := foldlM_membershipOp h.regular hstart
  refine ⟨op, ?_, hmem⟩
  rw [Replay.getMembership, Replay.joined, hjoined]
  exact hop

theorem Sound.isMember {r : Replay} (h : r.Sound) (u : Bytes) :
    r.isMember u = .ok (decide (u ∈ r.members)) := by
  obtain ⟨_, hop, hmem⟩ := h.getMembership u
  rw [Replay.isMember, hop]
  simp [hmem]

theorem memberIds_eq (ms : List MemberSnapshot) (members : Finset Bytes) :
    memberIds ms members =
      if ∀ m ∈ ms, m.userAddress.length = 20 then
        .ok ((ms.map (·.userAddress)).toFinset ∪ members)
      else riverError .badAddress "wrong length" := by
  induction ms generalizing members with
  | nil => simp [memberIds]
  | cons m ms ih =>
    unfold memberIds
    by_cases hm : m.userAddress.length = 20
    · rw [addressHex, if_neg (not_not.2 hm), Res.ok_bind, ih]
      simp [hm]
    · rw [addressHex]
      simp [hm, riverError]

def HasAddress (e : ParsedEvent) : Prop :=
  ∀ m, e.event.payload = .member (.membership m) → m.userAddress.length = 20

instance (e : ParsedEvent) : Decidable (HasAddress e) :=
  match h : e.event.payload with
  | .member (.membership m) =>
    decidable_of_iff (m.userAddress.length = 20) (by simp [HasAddress, h])
  | .member (.keySolicitation _) | .member (.keyFulfillment _) | .member (.displayName _)
  | .member (.username _) | .member (.ensAddress _) | .member (.nft _) | .member .unset
  | .channel _ | .dmChannel _ | .gdmChannel _ | .space _ | .user _ | .userDeviceKey _
  | .userSettings _ | .userInbox _ | .media _ | .miniblockHeader _ | .unset =>
    .isTrue (by simp [HasAddress, h])

theorem channelMembersOp_of_hasAddress (he : HasAddress e) (members : Finset Bytes) :
    channelMembersOp members e = .ok (memberStep members e) := by
  obtain ⟨m, hm⟩ | hno := membership_cases e
  · have haddress : addressHex m.userAddress = .ok m.userAddress :=
      if_neg (not_not.2 (he m hm))
    simp only [channelMembersOp, memberStep, hm, haddress]
    cases m.op <;> rfl
  · rw [memberStep_of_ne hno]
    unfold channelMembersOp
    split
    · rename_i m hm
      exact absurd hm (hno m)
    · rfl

theorem channelMembersOp_eq_ok {members members' : Finset Bytes}
    (h : channelMembersOp members e = .ok members') :
    members' = memberStep members e := by
  by_cases he : HasAddress e
  · rw [channelMembersOp_of_hasAddress he] at h
    exact (Res.ok.inj h).symm
  · obtain ⟨m, he⟩ := not_forall.1 he
    obtain ⟨hm, hlen⟩ := Classical.not_imp.1 he
    simp [channelMembersOp, hm, addressHex, hlen, riverError] at h

theorem foldlM_channelMembersOp_eq_ok {es : List ParsedEvent} {members members' : Finset Bytes}
    (h : es.foldlM channelMembersOp members = .ok members') :
    members' = es.foldl memberStep members := by
  induction es generalizing members with
  | nil =>
    cases h
    rfl
  | cons e es ih =>
    obtain ⟨_, hone, h⟩ := Res.bind_eq_ok.1 h
    rw [ih h, channelMembersOp_eq_ok hone, List.foldl_cons]

theorem Sound.getChannelMembers_eq_ok {r : Replay} (h : r.Sound) {members : Finset Bytes}
    (hr : r.getChannelMembers = .ok members) : members = r.members := by
  obtain ⟨_, hjoined, -⟩ := h.wellFormed.members
  rw [Replay.getChannelMembers, Replay.joined, hjoined, Res.ok_bind, memberIds_eq] at hr
  split at hr
  · rw [foldlM_channelMembersOp_eq_ok hr, Replay.members, joinedSet, hjoined]
    simp
  · cases hr

/-! ## Steps -/

theorem Sound.concat {r : Replay} (h : r.Sound)
    (he : SparesMembers r.members e) : Sound ⟨r.snapshot, r.events ++ [e]⟩ :=
  ⟨h.wellFormed, regular_append.2 ⟨h.regular, he, trivial⟩⟩

theorem members_concat (r : Replay) (e : ParsedEvent) :
    members ⟨r.snapshot, r.events ++ [e]⟩ = memberStep r.members e := by
  simp [members]

theorem Sound.takeIn {r : Replay} (h : r.Sound) {es rest : List ParsedEvent}
    (hevents : r.events = es ++ rest) (hupdates : Updates es (r.snapshot.clone heap, heap) sh) :
    Sound ⟨sh.1, rest⟩ ∧ members ⟨sh.1, rest⟩ = r.members := by
  obtain ⟨hwf, hjoined⟩ := hupdates.joinedSet (h.wellFormed.clone heap)
  rw [joinedSet_clone] at hjoined
  have hregular := h.regular
  rw [hevents, regular_append] at hregular
  refine ⟨⟨hwf, ?_⟩, ?_⟩
  · rw [hjoined]
    exact hregular.2
  · rw [members, members, hjoined, hevents, List.foldl_append]

end Replay

end River.Node
