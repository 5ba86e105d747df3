/-
  Key solicitations and fulfillments as sets of session ids (core/node/events/snapshot.go and
  core/node/rules/can_add_event.go).
-/

import River.Node.Rpc.Reload
import River.Node.Rules.Membership

namespace River.Node.Rules

open River.Lib List AeParams

/-! ## Common session ids -/

theorem hasCommon_go_iff (fuel : Nat) (x y : List Bytes) :
    hasCommon.go fuel x y = true ↔ (mergeDiffLoop fuel x y).length < x.length := by
  induction fuel generalizing x y with
  | zero => simp [hasCommon.go, mergeDiffLoop]
  | succ fuel ih =>
    rcases x with - | ⟨a, x⟩
    · simp [hasCommon.go]
    rcases y with - | ⟨b, y⟩
    · simp [hasCommon.go, mergeDiffLoop]
    unfold hasCommon.go mergeDiffLoop
    split
    · simp [ih]
    split
    · exact ih (a :: x) y
    · exact iff_of_true rfl (Nat.lt_succ_of_le (length_mergeDiffLoop_le ..))

theorem hasCommon_iff {x y : List Bytes} (hx : x.Pairwise (· < ·)) (hy : y.Pairwise (· ≤ ·)) :
    hasCommon x y = true ↔ ∃ id ∈ x, id ∈ y := by
  rw [hasCommon, hasCommon_go_iff, ← mergeDiff, mergeDiff_eq_filter hx hy]
  simp

theorem matchesSolicitation_iff {kf : KeyFulfillment} (hkf : kf.sessionIds.Pairwise (· ≤ ·))
    {ys : List KeySolicitation} (hys : ∀ y ∈ ys, y.Sorted) :
    matchesSolicitation kf ys = .ok true ↔ ∃ y, ys.find? (·.deviceKey = kf.deviceKey) = some y ∧
      (y.isNewDevice = true ∨ ∃ id ∈ y.sessionIds, id ∈ kf.sessionIds) := by
  induction ys with
  | nil => simp [matchesSolicitation, riverError]
  | cons y ys ih =>
    have hcommon := hasCommon_iff (hys y mem_cons_self) hkf
    unfold matchesSolicitation
    by_cases hkey : y.deviceKey = kf.deviceKey
    · grind [riverError]
    · simpa [hkey] using ih fun y' h => hys y' (mem_cons_of_mem _ h)

/-! ## Outstanding session ids -/

/-- What a member asked for last for a device, without what was delivered since; nothing for a user
    who is no member. -/
def outstanding (u device : Bytes) (ids : Option (Option (List Bytes))) (e : StreamEvent) :
    Option (Option (List Bytes)) :=
  match e.payload with
  | .member (.membership m) =>
    if m.userAddress = u then
      match m.op with
      | .join => some none
      | .leave => none
      | _ => ids
    else ids
  | .member (.keySolicitation ks) =>
    if e.creatorAddress = u ∧ ks.deviceKey = device then ids.map fun _ => some ks.sessionIds
    else ids
  | .member (.keyFulfillment kf) =>
    if kf.userAddress = u ∧ kf.deviceKey = device then
      ids.map (·.map (·.filter (· ∉ kf.sessionIds)))
    else ids
  | _ => ids

/-- The device that a user asks session ids for. -/
def solicitedDevice (u : Bytes) (e : StreamEvent) : Option Bytes :=
  match e.payload with
  | .member (.keySolicitation ks) => if e.creatorAddress = u then some ks.deviceKey else none
  | _ => none

/-- The session ids of the entry of a device. -/
def entry (device : Bytes) (ys : List KeySolicitation) : Option (List Bytes) :=
  (ys.find? (·.deviceKey = device)).map (·.sessionIds)

/-- Entries of devices of a list, one for each device, with ascending session ids. -/
structure Held (devices : List Bytes) (ys : List KeySolicitation) : Prop where
  nodup : (ys.map (·.deviceKey)).Nodup
  known : ∀ y ∈ ys, y.deviceKey ∈ devices
  sorted : ∀ y ∈ ys, y.Sorted

variable {u : Bytes} {kf : KeyFulfillment} {ks : KeySolicitation} {ys : List KeySolicitation}
  {devices : List Bytes}

theorem Held.nil : Held devices [] := ⟨nodup_nil, nofun, nofun⟩

theorem Held.solicit (h : Held devices ys) (hmem : ks.deviceKey ∈ devices) (hks : ks.Sorted) :
    Held devices (solicit ys ks) := by
  have hcases : ∀ y ∈ River.Node.solicit ys ks, y ∈ ys ∨ y = ks := by
    intro y hy
    exact (mem_append.1 hy).imp (fun hy => mem_of_mem_filter (mem_of_mem_drop hy)) mem_singleton.1
  refine ⟨?_, fun y hy => ?_, fun y hy => ?_⟩
  · exact useKey_map KeySolicitation.deviceKey maxSolicitationDevices ys ks ▸
      useKey_nodup _ h.nodup _
  · rcases hcases y hy with hy | rfl
    · exact h.known y hy
    · exact hmem
  · rcases hcases y hy with hy | rfl
    · exact h.sorted y hy
    · exact hks

/-- No entry is dropped if the devices are few. -/
theorem Held.entry_solicit (h : Held devices ys) (hmem : ks.deviceKey ∈ devices)
    (hfew : devices.length ≤ maxSolicitationDevices + 1) (device : Bytes) :
    entry device (River.Node.solicit ys ks) =
      if ks.deviceKey = device then some ks.sessionIds else entry device ys := by
  set kept := ys.filter (·.deviceKey ≠ ks.deviceKey) with hkept
  have hlength : kept.length ≤ maxSolicitationDevices := by
    have hnodup : (ks.deviceKey :: kept.map (·.deviceKey)).Nodup :=
      nodup_cons.2 ⟨by simp [hkept], h.nodup.sublist (filter_sublist.map _)⟩
    have hsub : ks.deviceKey :: kept.map (·.deviceKey) ⊆ devices := by
      refine cons_subset.2 ⟨hmem, fun d hd => ?_⟩
      obtain ⟨y, hy, rfl⟩ := mem_map.1 hd
      exact h.known y (mem_of_mem_filter hy)
    have hle := (hnodup.subperm hsub).length_le
    rw [length_cons, length_map] at hle
    omega
  have hsolicit : River.Node.solicit ys ks = kept ++ [ks] := by
    show kept.drop (kept.length - maxSolicitationDevices) ++ [ks] = _
    rw [Nat.sub_eq_zero_of_le hlength, drop_zero]
  rw [entry, hsolicit, find?_append, hkept, find?_filter]
  by_cases hkey : ks.deviceKey = device
  · have hnone : ys.find? (fun y => decide (y.deviceKey ≠ ks.deviceKey) ∧
        decide (y.deviceKey = device)) = none := by
      simp [find?_eq_none, hkey]
    rw [if_pos hkey, hnone]
    simp [hkey]
  · have hsame : (fun y : KeySolicitation => decide (decide (y.deviceKey ≠ ks.deviceKey) = true ∧
        decide (y.deviceKey = device) = true)) = fun y => decide (y.deviceKey = device) := by
      funext y
      by_cases hy : y.deviceKey = device
      · simp [hy, Ne.symm hkey]
      · simp [hy]
    rw [if_neg hkey, hsame]
    simp [entry, hkey]

theorem entry_fulfill (device : Bytes) (kf : KeyFulfillment) (ys : List KeySolicitation) :
    entry device (fulfill kf ys) =
      if kf.deviceKey = device then (entry device ys).map (·.filter (· ∉ kf.sessionIds))
      else entry device ys := by
  induction ys with
  | nil => simp [fulfill, entry]
  | cons y ys ih =>
    unfold entry at ih ⊢
    unfold fulfill
    by_cases hkey : y.deviceKey = kf.deviceKey
    · by_cases hdevice : kf.deviceKey = device
      · simp [hkey, hdevice, KeySolicitation.settle]
      · simp [hkey, hdevice]
    · by_cases hdevice : y.deviceKey = device
      · subst hdevice
        simp [hkey, Ne.symm hkey]
      · simpa [hkey, hdevice] using ih

theorem fulfill_deviceKeys (kf : KeyFulfillment) (ys : List KeySolicitation) :
    (fulfill kf ys).map (·.deviceKey) = ys.map (·.deviceKey) := by
  induction ys with
  | nil => rfl
  | cons y ys ih =>
    unfold fulfill
    split
    · simp
    · rw [map_cons, map_cons, ih]

theorem mem_fulfill (h : y ∈ fulfill kf ys) : ∃ x ∈ ys, y = x ∨ y = x.settle [kf] := by
  induction ys with
  | nil => cases h
  | cons x ys ih =>
    unfold fulfill at h
    split at h
    · rcases mem_cons.1 h with rfl | h
      · exact ⟨x, mem_cons_self, .inr rfl⟩
      · exact ⟨y, mem_cons_of_mem _ h, .inl rfl⟩
    · rcases mem_cons.1 h with rfl | h
      · exact ⟨y, mem_cons_self, .inl rfl⟩
      · obtain ⟨x', hx', hy⟩ := ih h
        exact ⟨x', mem_cons_of_mem _ hx', hy⟩

theorem Held.fulfill (h : Held devices ys) (kf : KeyFulfillment) :
    Held devices (fulfill kf ys) := by
  refine ⟨fulfill_deviceKeys kf ys ▸ h.nodup, fun y hy => ?_, fun y hy => ?_⟩
  · have hkey := mem_map_of_mem (f := (·.deviceKey)) hy
    rw [fulfill_deviceKeys] at hkey
    obtain ⟨x, hx, hsame⟩ := mem_map.1 hkey
    exact hsame ▸ h.known x hx
  · obtain ⟨x, hx, rfl | rfl⟩ := mem_fulfill hy
    · exact h.sorted y hx
    · exact (h.sorted x hx).settle _

theorem Held.step {state : Option (List KeySolicitation)} {e : ParsedEvent}
    (h : ∀ ys ∈ state, Held devices ys) (he : SortedIds e)
    (hdevice : ∀ d ∈ solicitedDevice u e.event, d ∈ devices) :
    (∀ ys ∈ solicitationState u state e, Held devices ys) ∧
      (devices.length ≤ maxSolicitationDevices + 1 → ∀ device,
        (solicitationState u state e).map (entry device) =
          outstanding u device (state.map (entry device)) e.event) := by
  unfold solicitationState outstanding
  cases hp : e.event.payload with
  | member p =>
    cases p with
    | membership m =>
      simp only
      split
      · cases m.op with
        | join =>
          refine ⟨fun ys hys => ?_, fun _ _ => rfl⟩
          cases hys
          exact .nil
        | leave =>
          refine ⟨fun ys hys => ?_, fun _ _ => rfl⟩
          cases hys
        | _ => exact ⟨h, fun _ _ => rfl⟩
      · exact ⟨h, fun _ _ => rfl⟩
    | keySolicitation ks =>
      simp only
      by_cases hu : e.event.creatorAddress = u
      swap
      · simpa [hu] using h
      have hmem : ks.deviceKey ∈ devices := hdevice _ (by simp [solicitedDevice, hp, hu])
      cases state with
      | none => simp
      | some ys =>
        have hheld := h ys rfl
        refine ⟨?_, fun hfew device => ?_⟩
        · simpa [hu] using hheld.solicit hmem (he.1 ks hp)
        · have hentry := hheld.entry_solicit hmem hfew device
          by_cases hkey : ks.deviceKey = device <;> simpa [hu, hkey] using hentry
    | keyFulfillment kf =>
      simp only
      by_cases hu : kf.userAddress = u
      swap
      · simpa [hu] using h
      cases state with
      | none => simp
      | some ys =>
        refine ⟨?_, fun hfew device => ?_⟩
        · simpa [hu] using (h ys rfl).fulfill kf
        · have hentry := entry_fulfill device kf ys
          by_cases hkey : kf.deviceKey = device <;> simpa [hu, hkey] using hentry
    | _ => exact ⟨h, fun _ _ => rfl⟩
  | _ => exact ⟨h, fun _ _ => rfl⟩

theorem Held.foldl {state : Option (List KeySolicitation)} {es : List ParsedEvent}
    (h : ∀ ys ∈ state, Held devices ys) (hes : ∀ e ∈ es, SortedIds e)
    (hdevices : ∀ e ∈ es, ∀ d ∈ solicitedDevice u e.event, d ∈ devices) :
    (∀ ys ∈ es.foldl (solicitationState u) state, Held devices ys) ∧
      (devices.length ≤ maxSolicitationDevices + 1 → ∀ device,
        (es.foldl (solicitationState u) state).map (entry device) =
          (es.map (·.event)).foldl (outstanding u device) (state.map (entry device))) := by
  induction es generalizing state with
  | nil => exact ⟨h, fun _ _ => rfl⟩
  | cons e es ih =>
    obtain ⟨he, hes⟩ := forall_mem_cons.1 hes
    obtain ⟨hdevice, hdevices⟩ := forall_mem_cons.1 hdevices
    obtain ⟨hheld, hentry⟩ := Held.step h he hdevice
    obtain ⟨hheld', hentry'⟩ := ih hheld hes hdevices
    refine ⟨hheld', fun hfew device => ?_⟩
    rw [map_cons, foldl_cons, foldl_cons, ← hentry hfew]
    exact hentry' hfew device

/-! ## Runs -/

/-- The events that the stream got since its genesis, as they were signed. -/
def eventsSince (p : StreamParams) (g : Genesis p) (s : NodeState) : List StreamEvent :=
  ((chainEvents (s.stream.storedBlocks p) ++ s.stream.minipool p).drop
    g.miniblock.events.length).filterMap (·.event.unmarshal)

/-- The devices that a user has entries for at the genesis or has asked session ids for since. -/
def devicesOf (p : StreamParams) (g : Genesis p) (s : NodeState) (u : Bytes) : List Bytes :=
  (((g.solicitations u).getD []).map (·.deviceKey) ++
    (eventsSince p g s).filterMap (solicitedDevice u)).dedup

theorem eventsSince_eq {g : Genesis p} {s : NodeState} {L : Ledger}
    (h : L.Covers p g.miniblock.events base s.stream) :
    eventsSince p g s = L.log.map (·.event) := by
  rw [eventsSince, h.events, drop_left, filterMap_map, ← filterMap_eq_map]
  refine filterMap_congr fun e he => ?_
  exact (authenticate_eq_ok (h.decoded e he)).2

/-- **Key solicitations are sets.** In every run in which session ids are in ascending order and the
    events that are added are new and no headers, whenever a view is loaded: if a user has asked
    for no more devices than are kept, the entry of a device holds the session ids that were asked
    for last and not delivered since. A fulfillment is valid if and only if the entry of its device
    is of a new device or shares a session id with it. -/
theorem keySolicitations_as_sets {p : StreamParams} (g : Genesis p)
    (hgenesis : OrderlyWindow g.events) (acts : List Action)
    (hfree : p.crypto.CollisionFree (g.hashedBy acts))
    (hadds : (streamMachine p).Along (AddsSortedEvent p) g.init acts) (v : StreamView)
    (hv : (g.run acts).stream.view = some v) (u : Bytes) :
    ∃ ys heap, v.getKeySolicitations (g.run acts).stream.heap u = .ok (ys, heap) ∧
      ((devicesOf p g (g.run acts) u).length ≤ maxSolicitationDevices + 1 → ∀ device,
        entry device ys = ((eventsSince p g (g.run acts)).foldl (outstanding u device)
          ((g.solicitations u).map (entry device))).getD none) ∧
      ∀ (params : AeParams) (kf : KeyFulfillment), params.streamView = v → kf.userAddress = u →
        kf.sessionIds.Pairwise (· ≤ ·) →
        ((params.validKeyFulfillment kf (g.run acts).stream.heap).1 = .ok true ↔
          ∃ y, ys.find? (·.deviceKey = kf.deviceKey) = some y ∧
            (y.isNewDevice = true ∨ ∃ id ∈ y.sessionIds, id ∈ kf.sessionIds)) := by
  obtain ⟨L, hrecords⟩ := g.records_run hgenesis acts hfree hadds
  obtain ⟨k, hat, hend⟩ := hrecords.covers.view v hv
  obtain ⟨L', ys, hask, -, hanswer⟩ := hat.getKeySolicitations u
  have hys := hanswer hend
  rw [Ledger.state, take_length] at hys
  rw [← hrecords.covers.heap] at hask
  have hsince := eventsSince_eq hrecords.covers
  obtain ⟨hheld, hentry⟩ : (∀ ys ∈ L.log.foldl (solicitationState u) (g.solicitations u),
      Held (devicesOf p g (g.run acts) u) ys) ∧ _ := by
    refine Held.foldl (fun ys hys => ?_) L.sorted fun e he d hd => ?_
    · obtain ⟨hnodup, hsorted⟩ := g.solicitations_orderly hgenesis hys
      refine ⟨hnodup, fun y hy => mem_dedup.2 (mem_append_left _ ?_), hsorted⟩
      rw [Option.mem_def.1 hys]
      exact mem_map_of_mem hy
    · refine mem_dedup.2 (mem_append_right _ ?_)
      rw [hsince]
      exact mem_filterMap.2 ⟨e.event, mem_map_of_mem he, hd⟩
  refine ⟨ys, L'.heap, hask, fun hfew device => ?_, ?_⟩
  · rw [hys, hsince, ← hentry hfew]
    cases L.log.foldl (solicitationState u) (g.solicitations u) <;> rfl
  · rintro params kf rfl rfl hkf
    unfold validKeyFulfillment
    rw [hask]
    refine matchesSolicitation_iff hkf ?_
    rw [hys]
    cases hstate : L.log.foldl (solicitationState kf.userAddress)
      (g.solicitations kf.userAddress) with
    | none => exact nofun
    | some ys => exact (hheld ys hstate).sorted

/-- The run of `sampleBlockRun`: the device asks for two sessions and gets one. -/
theorem keySolicitations_as_sets_sample :
    ∃ v ys heap, (sampleGenesis.run sampleBlockRun).stream.view = some v ∧
      v.getKeySolicitations (sampleGenesis.run sampleBlockRun).stream.heap
        Crypto.salted.walletAddress = .ok (ys, heap) ∧
      entry [1] ys = some [[2]] ∧ entry [2] ys = none := by
  obtain ⟨v, hv⟩ : ∃ v, (sampleGenesis.run sampleBlockRun).stream.view = some v :=
    Option.isSome_iff_exists.1 (by decide +kernel)
  obtain ⟨ys, heap, hask, hentry, -⟩ := keySolicitations_as_sets sampleGenesis
    ⟨by decide +kernel, by decide +kernel⟩ sampleBlockRun (by decide +kernel) (by decide +kernel) v
    hv Crypto.salted.walletAddress
  have hentry := hentry (by decide +kernel)
  refine ⟨v, ys, heap, hv, hask, ?_, ?_⟩
  · rw [hentry]
    decide +kernel
  · rw [hentry]
    decide +kernel

def sampleExchange (asked : List KeySolicitation) (delivered : List Bytes) : Replay where
  snapshot := ⟨some [.new (sampleAddress 1) 0 0], currentSnapshotVersion, .unset⟩
  events := asked.mapIdx (fun i ks => sampleEvent (.member (.keySolicitation ks)) 1 i) ++
    [sampleEvent (.member (.keyFulfillment ⟨sampleAddress 1, [1], delivered⟩)) 2 asked.length]

/-- Two session ids that are asked for out of order. A new device is answered with one of them and
    still asks for both. For a device that is not new the same answer is refused. And of twelve
    devices the first one has no entry. -/
theorem keySolicitations_out_of_order :
    let kf : KeyFulfillment := ⟨sampleAddress 1, [1], [[1]]⟩
    let stored (asked : List KeySolicitation) :=
      Prod.fst <$> (sampleExchange asked [[1]]).getKeySolicitations Heap.empty (sampleAddress 1)
    matchesSolicitation kf [⟨[1], [], true, [[2], [1]]⟩] = .ok true ∧
      stored [⟨[1], [], true, [[2], [1]]⟩] = .ok [⟨[1], [], false, [[2], [1]]⟩] ∧
      (matchesSolicitation kf [⟨[1], [], false, [[2], [1]]⟩]).isOk = false ∧
      (entry [1] <$> stored ((range 12).map fun i => ⟨[Fin.ofNat 256 (i + 1)], [], false, [[2]]⟩)) =
        .ok none := by
  decide +kernel

end River.Node.Rules
