/-
  The device lists of snapshots after whole sequences of events (core/node/events/snapshot.go).
-/

import River.Lib.Recent
import River.Node.Events.Snapshot

namespace River.Node

open River.Lib

/-! ## The most recently used devices -/

/-- The last keys used, without repetition. -/
structure MostRecent (used keys : List Bytes) : Prop where
  order : keys = used.dedup.rtake (maxSolicitationDevices + 1)
  nodup : keys.Nodup
  bounded : used.dedup.length ≤ maxSolicitationDevices → keys.length ≤ maxSolicitationDevices

theorem MostRecent.of_order {used keys : List Bytes}
    (h : keys = used.dedup.rtake (maxSolicitationDevices + 1)) : MostRecent used keys := by
  refine ⟨h, ?_, fun hle => ?_⟩
  · rw [h]
    exact used.nodup_dedup.sublist (List.drop_sublist _ _)
  · rw [h, List.rtake, List.length_drop]
    omega

/-- The branch that keeps the length does the same, except to lists that are too long. -/
theorem insertEncryptionDevice_eq (l : List EncryptionDevice) (d : EncryptionDevice)
    (hl : l.length ≤ maxSolicitationDevices + 1) : insertEncryptionDevice l d =
      (l.filter (·.deviceKey ≠ d.deviceKey)).rtake maxSolicitationDevices ++ [d] := by
  unfold insertEncryptionDevice maxSolicitationDevices at *
  dsimp only [List.rtake]
  split
  · rw [Nat.sub_eq_zero_of_le (by omega), List.drop_zero]
  · rfl

/-- **Device lists.** After every sequence of device events the list in the snapshot holds the keys
    used last, each once and in the order of their last use, and so does the list of solicitations
    of a member. Neither exceeds `MAX_DEVICES` while no more keys than that have been used. -/
theorem deviceLists_mostRecent (s : Snapshot) (i : Option PlainInception)
    (ds : List EncryptionDevice) (ps : List SolicitationPtr) :
    (∃ devices, ds.foldlM (fun s d => updateSnapshotUserDeviceKey s (.encryptionDevice d))
        (s.setContent (.userDeviceKey ⟨i, []⟩)) = .ok (s.setContent (.userDeviceKey ⟨i, devices⟩)) ∧
      MostRecent (ds.map (·.deviceKey)) (devices.map (·.deviceKey))) ∧
    MostRecent (ps.map (·.deviceKey)) ((ps.foldl applyKeySolicitation []).map (·.deviceKey)) := by
  have hrun : ∀ devices, ds.foldlM (fun s d => updateSnapshotUserDeviceKey s (.encryptionDevice d))
      (s.setContent (.userDeviceKey ⟨i, devices⟩)) =
        .ok (s.setContent (.userDeviceKey ⟨i, ds.foldl insertEncryptionDevice devices⟩)) := by
    induction ds with
    | nil => exact fun _ => rfl
    | cons d ds ih => exact fun devices => ih (insertEncryptionDevice devices d)
  have hdevices := map_foldl_recent EncryptionDevice.deviceKey maxSolicitationDevices
    insertEncryptionDevice insertEncryptionDevice_eq ds
  have hsolicitations := map_foldl_recent SolicitationPtr.deviceKey maxSolicitationDevices
    applyKeySolicitation (fun _ _ _ => rfl) ps
  exact ⟨⟨_, hrun [], .of_order hdevices⟩, .of_order hsolicitations⟩

/-- Eleven keys, and both lists keep all of them. -/
theorem deviceLists_exceed_max :
    let keys : List Bytes := (List.finRange 11).map fun i => [Fin.castLE (by decide) i]
    ((keys.map fun k => (⟨k, []⟩ : EncryptionDevice)).foldl insertEncryptionDevice []).length = 11 ∧
      ((keys.map fun k => SolicitationPtr.own ⟨k, [], true, []⟩).foldl
        applyKeySolicitation []).length = 11 := by
  decide

end River.Node
