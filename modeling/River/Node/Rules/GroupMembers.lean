/-
  The members of a new group.
-/

import River.Node.Rules.Membership

namespace River.Node.Rules

open List Res

def IsJoin (e : ParsedEvent) : Prop :=
  ∃ m, e.event.payload = .member (.membership m) ∧ m.op = .join

theorem membershipOf?_eq_some {e : ParsedEvent} {m : Membership} :
    membershipOf? e = some (some m) ↔ e.event.payload = .member (.membership m) := by
  unfold membershipOf?
  split <;> simp_all

def userOf? (e : ParsedEvent) : Option Bytes := (membershipOf? e).join.map (·.userAddress)

/-- The users of the membership events behind the inception. -/
def genesisUsers (events : List ParsedEvent) : List Bytes := events.tail.filterMap userOf?

namespace CsParams

theorem join_of_checkGDMMemberPayload (h : checkGDMMemberPayload e user = .ok ()) :
    IsJoin e ∧ ∀ u, user = some u → userOf? e = some u := by
  unfold checkGDMMemberPayload at h
  split at h
  · cases h
  · cases h
  rename_i m hm
  split at h
  · cases h
  rename_i hop
  split at h
  · cases h
  rename_i huser
  refine ⟨⟨m, membershipOf?_eq_some.1 hm, not_not.1 hop⟩, fun u hu => ?_⟩
  have haddress : u = m.userAddress := by simpa [hu] using huser
  simp [userOf?, hm, haddress]

theorem joins_of_checkGDMMembers (h : checkGDMMembers es = .ok ()) : ∀ e ∈ es, IsJoin e := by
  induction es with
  | nil => simp
  | cons e es ih =>
    obtain ⟨_, hfirst, hrest⟩ := bind_eq_ok.1 h
    exact forall_mem_cons.2 ⟨(join_of_checkGDMMemberPayload hfirst).1, ih hrest⟩

theorem joins_of_checkGDMPayloads {ru : CsParams} (h : ru.checkGDMPayloads = .ok ()) :
    (∀ e ∈ ru.parsedEvents.tail, IsJoin e) ∧
      ru.creatorAddress ∈ genesisUsers ru.parsedEvents := by
  unfold checkGDMPayloads at h
  split at h
  swap
  · cases h
  rename_i hevents
  simp only at h
  split at h
  · cases h
  obtain ⟨_, hfirst, hrest⟩ := bind_eq_ok.1 h
  obtain ⟨hjoin, haddress⟩ := join_of_checkGDMMemberPayload hfirst
  rw [hevents]
  refine ⟨forall_mem_cons.2 ⟨hjoin, joins_of_checkGDMMembers hrest⟩, ?_⟩
  simp [genesisUsers, haddress ru.creatorAddress rfl]

end CsParams

theorem foldl_memberStep_joins {es : List ParsedEvent} (h : ∀ e ∈ es, IsJoin e)
    (members : Finset Bytes) :
    es.foldl memberStep members = members ∪ (es.filterMap userOf?).toFinset := by
  induction es generalizing members with
  | nil => simp
  | cons e es ih =>
    obtain ⟨⟨m, hm, hop⟩, hrest⟩ := forall_mem_cons.1 h
    have hstep : memberStep members e =
        insert m.userAddress members := by simp [memberStep, hm, hop]
    rw [foldl_cons, ih hrest, hstep]
    simp [userOf?, membershipOf?_eq_some.2 hm]

/-- **The members of a new group.** The first snapshot holds the users of the membership events,
    the creator among them; there are three of them exactly if the events name three users. -/
theorem gdm_genesis_members (cfg : Config) (dmHash : Bytes → Bytes) (currentTime : Int)
    (streamId : StreamId) (events : List ParsedEvent) (spaceIdMetadata : Option Bytes)
    (rules : CreateStreamRules) (i : GdmChannelInception) (heap : Heap) (sh : Snapshot × Heap)
    (hrules : canCreateStream cfg dmHash currentTime streamId events spaceIdMetadata = .ok rules)
    (hi : inceptionOf events = some (.gdmChannel i))
    (hgenesis : makeGenesisSnapshot events heap = .ok sh) :
    sh.1.joinedSet = (genesisUsers events).toFinset ∧
      (∀ e ∈ events.head?, e.event.creatorAddress ∈ sh.1.joinedSet) ∧
      (3 ≤ sh.1.joinedSet.card ↔ 3 ≤ (genesisUsers events).dedup.length) := by
  obtain ⟨e, es, ru, _, rfl, hinception, hcreator, -, -, -, hparsed, hbuilder, hchecks⟩ :=
    canCreateStream_eq_ok hrules
  have hgdm : ru.inceptionPayload = .gdmChannel i := Option.some.inj (hinception.symm.trans hi)
  obtain ⟨hjoins, hfirst⟩ := CsParams.joins_of_checkGDMPayloads
    (CsParams.checkGDMPayloads_of_checks hgdm hbuilder hchecks)
  rw [hparsed] at hjoins hfirst
  rw [tail_cons] at hjoins
  have hempty : inceptionMembers e = ∅ :=
    Finset.card_eq_zero.1 (Nat.le_zero.1 (card_inceptionMembers_le e _ hi))
  have hset : sh.1.joinedSet = (genesisUsers (e :: es)).toFinset := by
    rw [(makeGenesisSnapshot_joinedSet hgenesis).2, genesisMembers, foldl_memberStep_joins hjoins,
      hempty, Finset.empty_union, genesisUsers, tail_cons]
  refine ⟨hset, ?_, ?_⟩
  · rintro _ ⟨⟩
    rw [hset, mem_toFinset, ← hcreator]
    exact hfirst
  · rw [hset, card_toFinset]

theorem gdm_genesis_members_sample :
    ∃ sh, makeGenesisSnapshot sampleGdmEvents Heap.empty = .ok sh ∧ 3 ≤ sh.1.joinedSet.card := by
  have hok : (makeGenesisSnapshot sampleGdmEvents .empty).isOk = true := by decide +kernel
  have hrules : (canCreateStream (sampleGdm fun _ => some 10).cfg (fun _ => []) 0
      (sampleId .gdmChannel (by decide)) sampleGdmEvents none).isOk = true := by decide +kernel
  obtain ⟨sh, hsh⟩ := isOk_iff.1 hok
  obtain ⟨rules, hrules⟩ := isOk_iff.1 hrules
  refine ⟨sh, hsh, (gdm_genesis_members _ _ _ _ _ _ rules _ _ sh hrules rfl hsh).2.2.2 ?_⟩
  decide +kernel

/-- The creator's own join, three times, makes a group of one member. -/
theorem gdm_of_one_member :
    let events := [0, 1, 1, 1].filterMap (sampleGdmEvents[·]?)
    (canCreateStream (sampleGdm fun _ => some 10).cfg (fun _ => []) 0
      (sampleId .gdmChannel (by decide)) events none).isOk = true ∧
    ∃ s heap, makeGenesisSnapshot events Heap.empty = .ok (s, heap) ∧
      s.joinedSet = {sampleAddress 1} := by
  decide +kernel

end River.Node.Rules
