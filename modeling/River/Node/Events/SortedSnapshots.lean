/-
  The keyed lists of a snapshot are finite maps.
-/

import River.Node.Events.Members

namespace River.Node

open River.Lib River.Lib.SortedList

/-! ## Settings -/

def SnapshotContent.settings? : SnapshotContent → Option UserSettingsSnapshot
  | .userSettings c => some c
  | _ => none

def settingsStep (e : ParsedEvent) (c : UserSettingsSnapshot) : UserSettingsSnapshot :=
  match e.event.payload with
  | .userSettings (.fullyReadMarkers m) =>
    { c with fullyReadMarkers := insertFullyReadMarker c.fullyReadMarkers m }
  | .userSettings (.userBlock b) =>
    { c with userBlocksList := insertUserBlock c.userBlocksList b }
  | _ => c

structure UserSettingsSnapshot.Sorted (c : UserSettingsSnapshot) : Prop where
  fullyReadMarkers : Ascending (·.streamId) c.fullyReadMarkers
  userBlocksList : Ascending (·.userId) c.userBlocksList

theorem UserSettingsSnapshot.Sorted.step {c : UserSettingsSnapshot} (h : c.Sorted)
    (e : ParsedEvent) : (settingsStep e c).Sorted := by
  unfold settingsStep
  split
  · exact ⟨h.fullyReadMarkers.insertSorted _, h.userBlocksList⟩
  · exact ⟨h.fullyReadMarkers, h.userBlocksList.insertSorted _⟩
  · exact h

variable {s : Snapshot} {heap : Heap} {sh : Snapshot × Heap}

theorem updateMigratedSnapshot_settings
    (h : updateMigratedSnapshot s heap e miniblockNum eventNum = .ok sh) :
    sh.1.content.settings? = s.content.settings?.map (settingsStep e) := by
  unfold updateMigratedSnapshot at h
  cases hp : e.event.payload with
  | member p =>
    have hstep : settingsStep e = id := funext fun c => by simp [settingsStep, hp]
    rw [hp] at h
    rw [updateSnapshotMember_content h, hstep, Option.map_id_apply]
  | media p | miniblockHeader p | unset => simp [hp, riverError] at h
  | _ p =>
    -- the eight content types: the content is replaced, or left alone
    rw [hp] at h
    obtain ⟨_, hs', h⟩ := Res.bind_eq_ok.1 h
    cases h
    simp only [updateSnapshotSpace, updateSnapshotChannel, updateSnapshotDmChannel,
      updateSnapshotGdmChannel, updateSnapshotUser, updateSnapshotUserSettings,
      updateSnapshotUserDeviceKey, updateSnapshotUserInbox] at hs'
    cases hc : s.content <;> cases p <;> simp only [hc] at hs' <;> cases hs' <;>
      simp [settingsStep, hp, hc, SnapshotContent.settings?, Snapshot.setContent]

theorem updateSnapshot_settings {err : Option RiverError} (hs : s.WellFormed)
    (h : updateSnapshot s heap e miniblockNum eventNum = .ok (sh, err)) :
    sh.1.content.settings? = s.content.settings?.map (settingsStep e) ∨
      sh.1.content.settings? = s.content.settings? := by
  unfold updateSnapshot at h
  rw [hs.migrateSnapshot, Res.ok_bind] at h
  cases hu : updateMigratedSnapshot s heap e miniblockNum eventNum with
  | ok r =>
    rw [hu] at h
    cases h
    exact .inl (updateMigratedSnapshot_settings hu)
  | error err' =>
    rw [hu] at h
    cases h
    exact .inr rfl
  | panic m =>
    rw [hu] at h
    cases h

/-! ## All keyed lists -/

structure Snapshot.Sorted (s : Snapshot) : Prop where
  wellFormed : s.WellFormed
  settings : ∀ c, s.content.settings? = some c → c.Sorted

theorem Snapshot.Sorted.update {err : Option RiverError} (hs : s.Sorted)
    (h : updateSnapshot s heap e miniblockNum eventNum = .ok (sh, err)) : sh.1.Sorted := by
  refine ⟨(updateSnapshot_stepped hs.wellFormed h).wellFormed, fun c hc => ?_⟩
  rcases updateSnapshot_settings hs.wellFormed h with hstep | hsame
  · rw [hstep] at hc
    obtain ⟨c', hc', rfl⟩ := Option.map_eq_some_iff.1 hc
    exact (hs.settings c' hc').step e
  · exact hs.settings c (hsame ▸ hc)

theorem Updates.sorted (h : Updates es sh sh') (hs : sh.1.Sorted) : sh'.1.Sorted :=
  h.invariant (I := fun sh => sh.1.Sorted) (fun _ _ _ _ _ _ _ _ hI hupdate => hI.update hupdate) hs

/-- The lists of a snapshot are maps. -/
structure Snapshot.Keyed (s : Snapshot) : Prop where
  members : ∃ joined, s.members = some joined ∧ FiniteMap (·.userAddress) joined
  channels : ∀ c, s.content = .space c → FiniteMap (·.channelId) c.channels
  memberships : ∀ c, s.content = .user c → FiniteMap (·.streamId) c.memberships
  fullyReadMarkers : ∀ c, s.content = .userSettings c → FiniteMap (·.streamId) c.fullyReadMarkers
  userBlocksList : ∀ c, s.content = .userSettings c → FiniteMap (·.userId) c.userBlocksList

theorem Snapshot.Sorted.keyed (h : s.Sorted) : s.Keyed where
  members := by
    obtain ⟨joined, hjoined, hasc⟩ := h.wellFormed.members
    exact ⟨joined, hjoined, hasc.finiteMap⟩
  channels c hc := (h.wellFormed.channels c.channels (by rw [hc]; rfl)).finiteMap
  memberships c hc := (h.wellFormed.memberships c.memberships (by rw [hc]; rfl)).finiteMap
  fullyReadMarkers c hc := (h.settings c (by rw [hc]; rfl)).fullyReadMarkers.finiteMap
  userBlocksList c hc := (h.settings c (by rw [hc]; rfl)).userBlocksList.finiteMap

end River.Node
