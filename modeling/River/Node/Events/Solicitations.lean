/-
  Key solicitations with and without memory.

  A fulfillment is applied in place and may be met again, which does no harm if session ids are in
  ascending order (`settle`).
-/

import River.Lib.Recent
import River.Node.Events.SnapshotSpec

namespace River.Node

open River.Lib Function List KeySolicitation StreamView

/-! ## Fulfillments as sets -/

def KeySolicitation.settle (ks : KeySolicitation) (fs : List KeyFulfillment) : KeySolicitation :=
  if fs = [] then ks
  else { ks with
    isNewDevice := false
    sessionIds := ks.sessionIds.filter fun id => ∀ f ∈ fs, id ∉ f.sessionIds }

def KeySolicitation.Sorted (ks : KeySolicitation) : Prop := ks.sessionIds.Pairwise (· < ·)

namespace KeySolicitation

variable (ks : KeySolicitation)

@[simp] theorem settle_nil : ks.settle [] = ks := rfl

@[simp] theorem settle_deviceKey (fs : List KeyFulfillment) :
    (ks.settle fs).deviceKey = ks.deviceKey := by
  unfold settle
  split <;> rfl

theorem settle_congr {fs fs' : List KeyFulfillment} (h : ∀ f, f ∈ fs ↔ f ∈ fs') :
    ks.settle fs = ks.settle fs' := by
  have hnil : fs = [] ↔ fs' = [] := by
    simp only [eq_nil_iff_forall_not_mem, h]
  unfold settle
  simp only [hnil, h]

theorem settle_settle (fs fs' : List KeyFulfillment) :
    (ks.settle fs).settle fs' = ks.settle (fs ++ fs') := by
  by_cases hfs : fs = []
  · simp [hfs]
  by_cases hfs' : fs' = []
  · simp [hfs']
  have happend : fs ++ fs' ≠ [] := by simp [hfs]
  simp only [settle, hfs, hfs', happend, if_false, filter_filter]
  congr 2
  funext id
  simp only [mem_append, or_imp, forall_and, Bool.decide_and, Bool.and_comm]

theorem Sorted.settle {ks : KeySolicitation} (h : ks.Sorted) (fs : List KeyFulfillment) :
    (ks.settle fs).Sorted := by
  unfold KeySolicitation.settle
  split
  · exact h
  · exact .filter _ h

theorem Sorted.settle_one {ks : KeySolicitation} (h : ks.Sorted) {kf : KeyFulfillment}
    (hkf : kf.sessionIds.Pairwise (· ≤ ·)) :
    { ks with isNewDevice := false, sessionIds := removeCommon ks.sessionIds kf.sessionIds } =
      ks.settle [kf] := by
  unfold KeySolicitation.settle removeCommon
  rw [mergeDiff_eq_filter h hkf]
  simp

end KeySolicitation

def Lag (fs : List KeyFulfillment) (x y : KeySolicitation) : Prop :=
  ∃ fs', fs' ⊆ fs ∧ x = y.settle fs'

namespace Lag

theorem refl (fs : List KeyFulfillment) (y : KeySolicitation) : Lag fs y y :=
  ⟨[], nil_subset _, rfl⟩

theorem mono (h : Lag fs x y) (hsub : fs ⊆ fs') : Lag fs' x y := by
  obtain ⟨gs, hgs, rfl⟩ := h
  exact ⟨gs, Subset.trans hgs hsub, rfl⟩

theorem eq_of_nil (h : Lag [] x y) : x = y := by
  obtain ⟨_, hgs, rfl⟩ := h
  rw [subset_nil.1 hgs]
  rfl

theorem deviceKey (h : Lag fs x y) : x.deviceKey = y.deviceKey := by
  obtain ⟨gs, -, rfl⟩ := h
  exact y.settle_deviceKey gs

theorem sorted (h : Lag fs x y) (hy : y.Sorted) : x.Sorted := by
  obtain ⟨gs, -, rfl⟩ := h
  exact hy.settle gs

theorem settle_one (h : Lag (kf :: fs) x y) : Lag fs (x.settle [kf]) (y.settle [kf]) := by
  obtain ⟨gs, hgs, rfl⟩ := h
  refine ⟨gs.filter (· ≠ kf), ?_, ?_⟩
  · intro f hf
    obtain ⟨hmem, hne⟩ := mem_filter.1 hf
    rcases mem_cons.1 (hgs hmem) with rfl | hmem
    · simp at hne
    · exact hmem
  · rw [settle_settle, settle_settle]
    refine y.settle_congr fun f => ?_
    by_cases hf : f = kf <;> simp [hf]

theorem early (h : Lag fs x y) (hmem : kf ∈ fs) : Lag fs (x.settle [kf]) y := by
  obtain ⟨gs, hgs, rfl⟩ := h
  exact ⟨gs ++ [kf], forall_mem_append.2 ⟨hgs, forall_mem_singleton.2 hmem⟩, settle_settle _ _ _⟩

end Lag

/-! ## Events without memory -/

def solicit (l : List KeySolicitation) (ks : KeySolicitation) : List KeySolicitation :=
  let kept := l.filter (·.deviceKey ≠ ks.deviceKey)
  kept.drop (kept.length - maxSolicitationDevices) ++ [ks]

def fulfill (kf : KeyFulfillment) : List KeySolicitation → List KeySolicitation
  | [] => []
  | y :: ys => if y.deviceKey = kf.deviceKey then y.settle [kf] :: ys else y :: fulfill kf ys

def solicitationState (u : Bytes) (state : Option (List KeySolicitation)) (e : ParsedEvent) :
    Option (List KeySolicitation) :=
  match e.event.payload with
  | .member (.membership m) =>
    if m.userAddress = u then
      match m.op with
      | .join => some []
      | .leave => none
      | _ => state
    else state
  | .member (.keySolicitation ks) =>
    if e.event.creatorAddress = u then state.map (solicit · ks) else state
  | .member (.keyFulfillment kf) => if kf.userAddress = u then state.map (fulfill kf) else state
  | _ => state

def fulfillmentsFor (u deviceKey : Bytes) (es : List ParsedEvent) : List KeyFulfillment :=
  es.filterMap fun e =>
    match e.event.payload with
    | .member (.keyFulfillment kf) =>
      if kf.userAddress = u ∧ kf.deviceKey = deviceKey then some kf else none
    | _ => none

theorem fulfillmentsFor_append (u d : Bytes) (es es' : List ParsedEvent) :
    fulfillmentsFor u d (es ++ es') = fulfillmentsFor u d es ++ fulfillmentsFor u d es' :=
  filterMap_append

theorem fulfillmentsFor_cons_of_fulfillment {e : ParsedEvent}
    (he : e.event.payload = .member (.keyFulfillment kf)) (u d : Bytes) (es : List ParsedEvent) :
    fulfillmentsFor u d (e :: es) =
      if kf.userAddress = u ∧ kf.deviceKey = d then kf :: fulfillmentsFor u d es
      else fulfillmentsFor u d es := by
  unfold fulfillmentsFor
  rw [filterMap_cons]
  simp only [he]
  by_cases h : kf.userAddress = u ∧ kf.deviceKey = d
  · simp only [if_pos h]
  · simp only [if_neg h]

theorem fulfillmentsFor_cons_of_ne {e : ParsedEvent}
    (he : ∀ kf, e.event.payload ≠ .member (.keyFulfillment kf)) (u d : Bytes)
    (es : List ParsedEvent) : fulfillmentsFor u d (e :: es) = fulfillmentsFor u d es := by
  unfold fulfillmentsFor
  rw [filterMap_cons]
  split
  · rfl
  rename_i kf hkf
  split at hkf
  · rename_i kf' hkf'
    exact absurd hkf' (he kf')
  · cases hkf

/-- Session ids come sorted. -/
def SortedIds (e : ParsedEvent) : Prop :=
  (∀ ks, e.event.payload = .member (.keySolicitation ks) → ks.Sorted) ∧
    ∀ kf, e.event.payload = .member (.keyFulfillment kf) → kf.sessionIds.Pairwise (· ≤ ·)

instance (e : ParsedEvent) : Decidable (SortedIds e) :=
  match h : e.event.payload with
  | .member (.keySolicitation ks) =>
    decidable_of_iff (ks.sessionIds.Pairwise (· < ·)) (by simp [SortedIds, Sorted, h])
  | .member (.keyFulfillment kf) =>
    decidable_of_iff (kf.sessionIds.Pairwise (· ≤ ·)) (by simp [SortedIds, h])
  | .member (.membership _) | .member (.displayName _) | .member (.username _)
  | .member (.ensAddress _) | .member (.nft _) | .member .unset | .channel _ | .dmChannel _
  | .gdmChannel _ | .space _ | .user _ | .userDeviceKey _ | .userSettings _ | .userInbox _
  | .media _ | .miniblockHeader _ | .unset => .isTrue (by simp [SortedIds, h])

/-! ## Pointers and the heap -/

variable (heap : Heap)

theorem Heap.read_update_self (ref : Nat) (ks : KeySolicitation) (b : Bool) (ids : List Bytes) :
    Heap.read (update heap ref (some (b, ids))) ref ks =
      { heap.read ref ks with isNewDevice := b, sessionIds := ids } := by
  unfold Heap.read
  rw [update_self]
  cases heap ref <;> rfl

theorem SolicitationPtr.read_write (b : Bool) (ids : List Bytes) (p : SolicitationPtr) :
    (p.write heap b ids).2.read (p.write heap b ids).1 =
      { p.read heap with isNewDevice := b, sessionIds := ids } := by
  cases p with
  | own ks => rfl
  | event ref ks => exact heap.read_update_self ref ks b ids

/-! ## A fulfillment through pointers -/

theorem applyKeyFulfillment_heap (kf : KeyFulfillment) (l : List SolicitationPtr) :
    (applyKeyFulfillment heap kf l).1 = heap ∨
      ∃ p ∈ l, p.deviceKey = kf.deviceKey ∧ (applyKeyFulfillment heap kf l).1 =
        (p.write heap false (removeCommon (p.read heap).sessionIds kf.sessionIds)).1 := by
  induction l with
  | nil => exact .inl rfl
  | cons p l ih =>
    unfold applyKeyFulfillment
    by_cases hp : p.deviceKey = kf.deviceKey
    · simp only [hp]
      exact .inr ⟨p, mem_cons_self, hp, rfl⟩
    simp only [hp]
    rcases ih with ih | ⟨q, hq, hd, ih⟩
    · exact .inl ih
    · exact .inr ⟨q, mem_cons_of_mem _ hq, hd, ih⟩

theorem applyKeyFulfillment_deviceKeys (kf : KeyFulfillment) (l : List SolicitationPtr) :
    (applyKeyFulfillment heap kf l).2.map (·.deviceKey) = l.map (·.deviceKey) := by
  induction l with
  | nil => rfl
  | cons p l ih =>
    unfold applyKeyFulfillment
    by_cases hp : p.deviceKey = kf.deviceKey
    · simp only [hp, map_cons]
      cases p <;> simp [SolicitationPtr.write] at hp ⊢ <;> exact hp
    · simp only [hp, if_false, map_cons, ih]

/-! ## Folds with memory -/

/-- References are distinct, and ids sorted. -/
structure OrderlyWindow (window : List ParsedEvent) : Prop where
  refs : (window.map (·.ref)).Nodup
  sortedIds : ∀ e ∈ window, SortedIds e

def onlyUser (u : Bytes) (member : Option MemberSnapshot) (v : Bytes) :
    Option (List SolicitationPtr) :=
  if v = u then member.map (·.solicitations) else none

theorem keySolicitationsOp_eq (u : Bytes) (member : Option MemberSnapshot) (heap : Heap)
    (e : ParsedEvent) : ∃ member',
      keySolicitationsOp u (member, heap) e =
        .ok (member', heapStep heap e (onlyUser u member)) ∧
      member'.map (·.solicitations) =
        solicitationsStep heap e u (member.map (·.solicitations)) := by
  cases hp : e.event.payload with
  | member p =>
    cases p with
    | membership m =>
      simp only [keySolicitationsOp, solicitationsStep, heapStep, hp]
      by_cases hu : m.userAddress = u
      · simp only [hu]
        cases m.op <;> exact ⟨_, rfl, rfl⟩
      · simp only [hu]
        exact ⟨_, rfl, rfl⟩
    | keySolicitation ks =>
      simp only [keySolicitationsOp, solicitationsStep, heapStep, hp]
      by_cases hu : e.event.creatorAddress = u
      · simp only [hu]
        exact ⟨_, rfl, by cases member <;> rfl⟩
      · simp only [hu]
        exact ⟨_, rfl, rfl⟩
    | keyFulfillment kf =>
      simp only [keySolicitationsOp, solicitationsStep, heapStep, hp]
      by_cases hu : kf.userAddress = u <;> cases member <;> simp [hu, onlyUser]
    | _ =>
      simp only [keySolicitationsOp, solicitationsStep, heapStep, hp]
      exact ⟨_, rfl, rfl⟩
  | _ =>
    simp only [keySolicitationsOp, solicitationsStep, heapStep, hp]
    exact ⟨_, rfl, rfl⟩

def Snapshot.solicitationsNow (s : Snapshot) (heap : Heap) (u : Bytes) :
    Option (List KeySolicitation) :=
  (s.solicitations u).map (·.map (·.read heap))

end River.Node
