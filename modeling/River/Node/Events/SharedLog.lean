/-
  Event objects that several views share.

  A `Ledger` says that an object reads as it was parsed, up to fulfillments that come after it in
  the log.
-/

import River.Node.Events.Solicitations

namespace River.Node

open River.Lib Function List KeySolicitation Option StreamView

/-! ## Fulfillments, once more -/

theorem Lag.trans (h : Lag fs x y) (h' : Lag fs y z) : Lag fs x z := by
  obtain ⟨gs, hgs, rfl⟩ := h
  obtain ⟨gs', hgs', rfl⟩ := h'
  exact ⟨gs' ++ gs, append_subset.2 ⟨hgs', hgs⟩, settle_settle _ _ _⟩

variable {ks : KeySolicitation}

theorem Lag.absorb {fs done : List KeyFulfillment}
    (h : Lag (done ++ fs) x (ks.settle done)) : Lag fs x (ks.settle done) := by
  obtain ⟨gs, hgs, rfl⟩ := h
  refine ⟨gs.filter (· ∉ done), ?_, ?_⟩
  · intro f hf
    obtain ⟨hmem, hnot⟩ := mem_filter.1 hf
    rcases mem_append.1 (hgs hmem) with hdone | hfs
    · exact absurd hdone (of_decide_eq_true hnot)
    · exact hfs
  · rw [settle_settle, settle_settle]
    refine ks.settle_congr fun f => ?_
    by_cases hf : f ∈ done <;> simp [hf]

variable {es : List ParsedEvent}

theorem fulfillmentsFor_subset {es' : List ParsedEvent} (h : es <+: es') (u d : Bytes) :
    fulfillmentsFor u d es ⊆ fulfillmentsFor u d es' := by
  obtain ⟨-, rfl⟩ := h
  rw [fulfillmentsFor_append]
  exact subset_append_left _ _

theorem fulfillmentsFor_singleton_congr {e e' : ParsedEvent} (h : e.event = e'.event)
    (u d : Bytes) :
    fulfillmentsFor u d [e] = fulfillmentsFor u d [e'] := by
  unfold fulfillmentsFor
  rw [filterMap_cons, filterMap_cons, h]

/-! ## Ledgers -/

structure Ledger where
  log : List ParsedEvent
  position : Nat → Option Nat
  heap : Heap
  sorted : ∀ e ∈ log, SortedIds e
  unwritten : ∀ ref, position ref = none → heap ref = none
  lags : ∀ ref i, position ref = some i → ∃ e, log[i]? = some e ∧
    ∀ ks, e.event.payload = .member (.keySolicitation ks) →
      Lag (fulfillmentsFor e.event.creatorAddress ks.deviceKey (log.drop (i + 1)))
        (heap.read ref ks) ks

namespace Ledger

def empty : Ledger where
  log := []
  position _ := none
  heap := Heap.empty
  sorted := by simp
  unwritten _ _ := rfl
  lags := by simp

structure Le (L L' : Ledger) : Prop where
  log : L.log <+: L'.log
  position : ∀ ref i, L.position ref = some i → L'.position ref = some i
  heap : ∀ ref i e ks, L.position ref = some i → L.log[i]? = some e →
    e.event.payload = .member (.keySolicitation ks) →
      Lag (fulfillmentsFor e.event.creatorAddress ks.deviceKey (L'.log.drop (i + 1)))
        (L'.heap.read ref ks) (L.heap.read ref ks)

structure Writes (L L' : Ledger) : Prop where
  le : L.Le L'
  log_eq : L'.log = L.log
  position_eq : L'.position = L.position

variable {i : Nat}

theorem getElem?_of_front {l l' : List α} (h : l <+: l') (ha : l[i]? = some a) :
    l'[i]? = some a := by
  obtain ⟨-, rfl⟩ := h
  rw [getElem?_append_left (List.getElem?_eq_some_iff.1 ha).1]
  exact ha

theorem Le.refl (L : Ledger) : L.Le L :=
  ⟨prefix_refl _, fun _ _ h => h, fun _ _ _ _ _ _ _ => .refl _ _⟩

theorem Le.trans {L1 L2 L3 : Ledger} (h : L1.Le L2) (h' : L2.Le L3) : L1.Le L3 := by
  refine ⟨h.log.trans h'.log, fun ref i hi => h'.position ref i (h.position ref i hi), ?_⟩
  intro ref i e ks hi he hks
  have hfirst := h.heap ref i e ks hi he hks
  have hsecond := h'.heap ref i e ks (h.position ref i hi) (getElem?_of_front h.log he) hks
  exact hsecond.trans (hfirst.mono (fulfillmentsFor_subset (h'.log.drop _) _ _))

theorem Writes.refl (L : Ledger) : L.Writes L := ⟨.refl L, rfl, rfl⟩

theorem Writes.trans {L1 L2 L3 : Ledger} (h : L1.Writes L2) (h' : L2.Writes L3) : L1.Writes L3 :=
  ⟨h.le.trans h'.le, h'.log_eq.trans h.log_eq, h'.position_eq.trans h.position_eq⟩

variable {L L' : Ledger}

/-! ## Objects at a position -/

structure IsAt (L : Ledger) (e : ParsedEvent) (i : Nat) : Prop where
  position : L.position e.ref = some i
  event : ∃ e0, L.log[i]? = some e0 ∧ e0.event = e.event

structure Window (L : Ledger) (k : Nat) (es : List ParsedEvent) : Prop where
  bound : k + es.length ≤ L.log.length
  isAt : ∀ j e, es[j]? = some e → L.IsAt e (k + j)

theorem IsAt.mono (h : L.IsAt e i) (hle : L.Le L') : L'.IsAt e i := by
  obtain ⟨e0, he0, hevent⟩ := h.event
  exact ⟨hle.position _ _ h.position, e0, getElem?_of_front hle.log he0, hevent⟩

theorem IsAt.sortedIds (h : L.IsAt e i) : SortedIds e := by
  obtain ⟨e0, he0, hevent⟩ := h.event
  have hsorted := L.sorted e0 (mem_of_getElem? he0)
  unfold SortedIds at hsorted ⊢
  rw [← hevent]
  exact hsorted

theorem Window.mono (h : L.Window k es) (hle : L.Le L') : L'.Window k es :=
  ⟨h.bound.trans hle.log.length_le, fun j e he => (h.isAt j e he).mono hle⟩

theorem window_append {es' : List ParsedEvent} :
    L.Window k (es ++ es') ↔ L.Window k es ∧ L.Window (k + es.length) es' := by
  constructor
  · intro h
    have hbound := h.bound
    rw [length_append] at hbound
    refine ⟨⟨by omega, fun j e he => ?_⟩, ⟨by omega, fun j e he => ?_⟩⟩
    · refine h.isAt j e ?_
      rw [getElem?_append_left (List.getElem?_eq_some_iff.1 he).1]
      exact he
    · have hat := h.isAt (es.length + j) e (by
        rw [getElem?_append_right (Nat.le_add_right _ _), Nat.add_sub_cancel_left]
        exact he)
      rw [← Nat.add_assoc] at hat
      exact hat
  · rintro ⟨h, h'⟩
    have hbound := h'.bound
    refine ⟨by rw [length_append]; omega, fun j e he => ?_⟩
    rcases Nat.lt_or_ge j es.length with hj | hj
    · rw [getElem?_append_left hj] at he
      exact h.isAt j e he
    rw [getElem?_append_right hj] at he
    have hat := h'.isAt (j - es.length) e he
    have hpos : k + es.length + (j - es.length) = k + j := by omega
    rw [hpos] at hat
    exact hat

theorem window_cons {e : ParsedEvent} :
    L.Window k (e :: es) ↔ L.IsAt e k ∧ L.Window (k + 1) es := by
  rw [← singleton_append, window_append]
  refine and_congr_left fun _ => ⟨fun h => h.isAt 0 e rfl, fun h => ⟨?_, ?_⟩⟩
  · obtain ⟨_, he0, -⟩ := h.event
    exact (List.getElem?_eq_some_iff.1 he0).1
  intro j e' he'
  cases j with
  | zero =>
    cases he'
    exact h
  | succ j => cases he'

theorem window_nil {k : Nat} (hk : k ≤ L.log.length) : L.Window k [] :=
  ⟨hk, by simp⟩

/-! ## How a ledger grows -/

theorem add (L : Ledger) {e : ParsedEvent} (hnew : L.position e.ref = none) (he : SortedIds e) :
    ∃ L' : Ledger, L.Le L' ∧ L'.log = L.log ++ [e] ∧ L'.heap = L.heap ∧
      L'.position = update L.position e.ref (some L.log.length) := by
  -- an object that was there is another one
  have hne : ∀ ref i, L.position ref = some i → ref ≠ e.ref := by
    rintro ref i hi rfl
    rw [hnew] at hi
    cases hi
  have hold : ∀ ref i, L.position ref = some i →
      update L.position e.ref (some L.log.length) ref = some i := fun ref i hi => by
    rw [update_of_ne (hne ref i hi)]
    exact hi
  refine ⟨⟨L.log ++ [e], update L.position e.ref (some L.log.length), L.heap, ?_, ?_, ?_⟩,
    ⟨prefix_append _ _, hold, fun _ _ _ _ _ _ _ => .refl _ _⟩, rfl, rfl, rfl⟩
  · exact forall_mem_append.2 ⟨L.sorted, forall_mem_singleton.2 he⟩
  · intro ref href
    by_cases hr : ref = e.ref
    · rw [hr, update_self] at href
      cases href
    · rw [update_of_ne hr] at href
      exact L.unwritten ref href
  · intro ref i hi
    by_cases hr : ref = e.ref
    · -- the new object, which nothing has written yet
      subst hr
      rw [update_self, some.injEq] at hi
      subst hi
      refine ⟨e, by simp, fun ks _ => ?_⟩
      have hread : L.heap.read e.ref ks = ks := by
        unfold Heap.read
        rw [L.unwritten e.ref hnew]
      rw [hread]
      exact .refl _ _
    · rw [update_of_ne hr] at hi
      obtain ⟨e0, he0, hlag⟩ := L.lags ref i hi
      refine ⟨e0, getElem?_of_front (prefix_append _ _) he0, fun ks hks => ?_⟩
      exact (hlag ks hks).mono (fulfillmentsFor_subset ((prefix_append _ _).drop _) _ _)

theorem Window.concat {e : ParsedEvent} (h : L.Window k es) (hend : k + es.length = L.log.length)
    (hle : L.Le L') (hlog : L'.log = L.log ++ [e])
    (hposition : L'.position e.ref = some L.log.length) : L'.Window k (es ++ [e]) := by
  rw [window_append, window_cons, hend]
  refine ⟨h.mono hle, ⟨hposition, e, ?_, rfl⟩, window_nil ?_⟩
  · rw [hlog, getElem?_append_right (Nat.le_refl _), Nat.sub_self]
    rfl
  · rw [hlog, length_append]
    exact Nat.le_refl _

theorem register (L : Ledger) {k : Nat} (hbound : k + es.length ≤ L.log.length)
    (hrefs : (es.map (·.ref)).Nodup) (hnew : ∀ e ∈ es, L.position e.ref = none)
    (hevents : ∀ j e, es[j]? = some e → ∃ e0, L.log[k + j]? = some e0 ∧ e0.event = e.event) :
    ∃ L' : Ledger, L.Le L' ∧ L'.log = L.log ∧ L'.heap = L.heap ∧ L'.Window k es ∧
      ∀ ref, ref ∉ es.map (·.ref) → L'.position ref = L.position ref := by
  let refs := es.map (·.ref)
  let position := fun ref =>
    if ref ∈ refs then some (k + refs.idxOf ref) else L.position ref
  have hnewRef : ∀ ref ∈ refs, L.position ref = none := by
    intro ref href
    obtain ⟨e, he, rfl⟩ := mem_map.1 href
    exact hnew e he
  have hold : ∀ ref i, L.position ref = some i → ref ∉ refs := by
    intro ref i hi href
    rw [hnewRef ref href] at hi
    cases hi
  have hnot : ∀ ref, ref ∉ refs → position ref = L.position ref := fun ref href => if_neg href
  have hpos : ∀ j e, es[j]? = some e → position e.ref = some (k + j) := by
    intro j e he
    have hget : refs[j]? = some e.ref := by
      rw [getElem?_map, he]
      rfl
    have hmem : e.ref ∈ refs := mem_of_getElem? hget
    have hidx : refs.idxOf e.ref = j := by
      have hidx' := getElem?_idxOf hmem
      exact (getElem?_inj (idxOf_lt_length_iff.2 hmem) hrefs).1 (hidx'.trans hget.symm)
    show (if e.ref ∈ refs then some (k + refs.idxOf e.ref) else L.position e.ref) = _
    rw [if_pos hmem, hidx]
  refine ⟨⟨L.log, position, L.heap, L.sorted, ?_, ?_⟩,
    ⟨prefix_refl _, fun ref i hi => ?_, fun _ _ _ _ _ _ _ => .refl _ _⟩, rfl, rfl,
    ⟨hbound, fun j e he => ⟨hpos j e he, hevents j e he⟩⟩, hnot⟩
  · intro ref href
    by_cases hmem : ref ∈ refs
    · exact L.unwritten ref (hnewRef ref hmem)
    · exact L.unwritten ref ((hnot ref hmem).symm.trans href)
  · intro ref i hi
    by_cases hmem : ref ∈ refs
    · obtain ⟨e, he, rfl⟩ := mem_map.1 hmem
      obtain ⟨j, hj⟩ := getElem?_of_mem he
      obtain ⟨e0, he0, -⟩ := hevents j e hj
      rw [hpos j e hj, some.injEq] at hi
      subst hi
      refine ⟨e0, he0, fun ks _ => ?_⟩
      have hread : L.heap.read e.ref ks = ks := by
        unfold Heap.read
        rw [L.unwritten e.ref (hnew e he)]
      rw [hread]
      exact .refl _ _
    · exact L.lags ref i ((hnot ref hmem).symm.trans hi)
  · exact (hnot ref (hold ref i hi)).trans hi

theorem exists_of_window (hw : OrderlyWindow es) :
    ∃ L : Ledger, L.log = es ∧ L.heap = Heap.empty ∧ L.Window 0 es := by
  let bare : Ledger := ⟨es, fun _ => none, .empty, hw.sortedIds, fun _ _ => rfl, by simp⟩
  have hbound : 0 + es.length ≤ bare.log.length := Nat.le_of_eq (Nat.zero_add _)
  obtain ⟨L, -, hlog, hheap, hwindow, -⟩ := bare.register hbound hw.refs (fun _ _ => rfl)
    (fun j e he => ⟨e, by rw [Nat.zero_add]; exact he, rfl⟩)
  exact ⟨L, hlog, hheap, hwindow⟩

theorem write (L : Ledger) {ref j : Nat} (hi : L.position ref = some i) (he : L.log[i]? = some e)
    (hks : e.event.payload = .member (.keySolicitation ks)) (hij : i < j)
    (he' : L.log[j]? = some e') (hkf : e'.event.payload = .member (.keyFulfillment kf))
    (hu : kf.userAddress = e.event.creatorAddress) (hd : kf.deviceKey = ks.deviceKey) :
    ∃ L' : Ledger, L.Writes L' ∧ L'.heap = update L.heap ref
      (some (false, removeCommon (L.heap.read ref ks).sessionIds kf.sessionIds)) := by
  have hmem : kf ∈ fulfillmentsFor e.event.creatorAddress ks.deviceKey (L.log.drop (i + 1)) := by
    refine mem_filterMap.2 ⟨e', ?_, ?_⟩
    · refine mem_of_getElem? (i := j - (i + 1)) ?_
      rw [getElem?_drop, ← he']
      congr 1
      omega
    · rw [hkf]
      exact if_pos ⟨hu, hd⟩
  have hsorted := L.sorted e (mem_of_getElem? he)
  have hsorted' := L.sorted e' (mem_of_getElem? he')
  have hlag : Lag (fulfillmentsFor e.event.creatorAddress ks.deviceKey (L.log.drop (i + 1)))
      (L.heap.read ref ks) ks := by
    obtain ⟨_, he0, hlag⟩ := L.lags ref i hi
    rw [he, some.injEq] at he0
    subst he0
    exact hlag ks hks
  -- what is read through the pointer afterwards
  set heap' : Heap := update L.heap ref
    (some (false, removeCommon (L.heap.read ref ks).sessionIds kf.sessionIds)) with hheap'
  have hread : heap'.read ref ks = (L.heap.read ref ks).settle [kf] := by
    rw [Heap.read_update_self]
    exact (hlag.sorted (hsorted.1 ks hks)).settle_one (hsorted'.2 kf hkf)
  have hstep : ∀ ref' i' e1 ks', L.position ref' = some i' → L.log[i']? = some e1 →
      e1.event.payload = .member (.keySolicitation ks') →
        Lag (fulfillmentsFor e1.event.creatorAddress ks'.deviceKey (L.log.drop (i' + 1)))
          (heap'.read ref' ks') (L.heap.read ref' ks') := by
    intro ref' i' e1 ks' hi' he1 hks'
    by_cases href : ref' = ref
    · subst href
      obtain rfl := some.inj (hi'.symm.trans hi)
      obtain rfl := some.inj (he1.symm.trans he)
      obtain rfl := MemberPayload.keySolicitation.inj (Payload.member.inj (hks'.symm.trans hks))
      rw [hread]
      exact .early (.refl _ _) hmem
    · rw [hheap', Heap.read, update_of_ne href]
      exact .refl _ _
  refine ⟨⟨L.log, L.position, heap', L.sorted, ?_, ?_⟩,
    ⟨⟨prefix_refl _, fun _ _ h => h, hstep⟩, rfl, rfl⟩, rfl⟩
  · intro ref' href'
    have hne : ref' ≠ ref := by
      rintro rfl
      rw [hi] at href'
      cases href'
    rw [hheap', update_of_ne hne]
    exact L.unwritten ref' href'
  · intro ref' i' hi'
    obtain ⟨e1, he1, hlag1⟩ := L.lags ref' i' hi'
    exact ⟨e1, he1, fun ks' hks' => (hstep ref' i' e1 ks' hi' he1 hks').trans (hlag1 ks' hks')⟩

/-! ## Pointers -/

structure PointerAt (L : Ledger) (u : Bytes) (k : Nat) (p : SolicitationPtr) (y : KeySolicitation) :
    Prop where
  lag : Lag (fulfillmentsFor u y.deviceKey (L.log.drop k)) (p.read L.heap) y
  sorted : y.Sorted
  origin : ∀ ref ks, p = .event ref ks → ∃ i e, i < k ∧ L.position ref = some i ∧
    L.log[i]? = some e ∧ e.event.payload = .member (.keySolicitation ks) ∧
    e.event.creatorAddress = u ∧
    y = ks.settle (fulfillmentsFor u ks.deviceKey ((L.log.take k).drop (i + 1)))

theorem drop_eq_append (l : List α) {k : Nat} (h : i ≤ k) :
    l.drop i = (l.take k).drop i ++ l.drop k := by
  conv_lhs => rw [← take_append_drop k l]
  rcases Nat.lt_or_ge l.length i with _ | _
  · rw [drop_eq_nil_of_le (by simp; omega), drop_eq_nil_of_le (by simp; omega),
      drop_eq_nil_of_le (by omega)]
    rfl
  · rw [drop_append_of_le_length]
    rw [length_take]
    omega

theorem take_drop_succ {l : List α} {k : Nat} (ha : l[k]? = some a) (h : i ≤ k) :
    (l.take (k + 1)).drop i = (l.take k).drop i ++ [a] := by
  have hlt := (List.getElem?_eq_some_iff.1 ha).1
  rw [take_add_one, ha, toList_some, drop_append_of_le_length]
  rw [length_take]
  omega

theorem drop_eq_cons {l : List α} {k : Nat} (ha : l[k]? = some a) :
    l.drop k = [a] ++ l.drop (k + 1) := by
  obtain ⟨hlt, rfl⟩ := List.getElem?_eq_some_iff.1 ha
  rw [drop_eq_getElem_cons hlt]
  rfl

namespace PointerAt

theorem deviceKey (h : L.PointerAt u k p y) : p.deviceKey = y.deviceKey := by
  rw [← p.read_deviceKey L.heap]
  exact h.lag.deviceKey

theorem mono (h : L.PointerAt u k p y) (hk : k ≤ L.log.length) (hle : L.Le L') :
    L'.PointerAt u k p y := by
  have hgrown : Lag (fulfillmentsFor u y.deviceKey (L'.log.drop k)) (p.read L.heap) y :=
    h.lag.mono (fulfillmentsFor_subset (hle.log.drop k) _ _)
  have htake : L'.log.take k = L.log.take k := by
    obtain ⟨_, hrest⟩ := hle.log
    rw [← hrest, take_append_of_le_length hk]
  cases p with
  | own ks => exact ⟨hgrown, h.sorted, by simp⟩
  | event ref ks =>
    obtain ⟨i, e, hik, hi, he, hks, hu, hy⟩ := h.origin ref ks rfl
    refine ⟨?_, h.sorted, ?_⟩
    · -- the writes are fulfillments after the event: those before `k` were applied already
      have hdevice : y.deviceKey = ks.deviceKey := by rw [hy, settle_deviceKey]
      have hwrites := hle.heap ref i e ks hi he hks
      rw [hu, drop_eq_append L'.log hik, htake, fulfillmentsFor_append] at hwrites
      rw [hdevice] at hgrown ⊢
      have hall := hwrites.trans (hgrown.mono (subset_append_right _ _))
      rw [hy] at hall ⊢
      exact hall.absorb
    · intro ref' ks' heq
      cases heq
      refine ⟨i, e, hik, hle.position ref i hi, getElem?_of_front hle.log he, hks, hu, ?_⟩
      rw [htake]
      exact hy

theorem skip (h : L.PointerAt u k p y) (he : L.log[k]? = some e)
    (hnone : fulfillmentsFor u y.deviceKey [e] = []) : L.PointerAt u (k + 1) p y := by
  refine ⟨?_, h.sorted, ?_⟩
  · have hlag := h.lag
    rw [drop_eq_cons he, fulfillmentsFor_append, hnone] at hlag
    exact hlag
  · intro ref ks hp
    obtain ⟨i, e0, hik, hi, he0, hks, hu, hy⟩ := h.origin ref ks hp
    refine ⟨i, e0, Nat.lt_succ_of_lt hik, hi, he0, hks, hu, ?_⟩
    have hdevice : y.deviceKey = ks.deviceKey := by rw [hy, settle_deviceKey]
    rw [take_drop_succ he hik, fulfillmentsFor_append, ← hdevice, hnone, append_nil, hdevice]
    exact hy

theorem fulfill (h : L.PointerAt u k p y) (hwrites : L.Writes L') (he : L.log[k]? = some e)
    (hone : fulfillmentsFor u y.deviceKey [e] = [kf]) {p' : SolicitationPtr}
    (hread : p'.read L'.heap = (p.read L.heap).settle [kf])
    (hevent : ∀ ref ks, p' = .event ref ks → p = .event ref ks) :
    L'.PointerAt u (k + 1) p' (y.settle [kf]) := by
  refine ⟨?_, h.sorted.settle _, ?_⟩
  · have hlag := h.lag
    rw [drop_eq_cons he, fulfillmentsFor_append, hone] at hlag
    rw [hread, hwrites.log_eq]
    exact hlag.settle_one
  · intro ref ks hp'
    obtain ⟨i, e0, hik, hi, he0, hks, hu, hy⟩ := h.origin ref ks (hevent ref ks hp')
    rw [hwrites.log_eq, hwrites.position_eq]
    refine ⟨i, e0, Nat.lt_succ_of_lt hik, hi, he0, hks, hu, ?_⟩
    have hdevice : y.deviceKey = ks.deviceKey := by rw [hy, settle_deviceKey]
    rw [take_drop_succ he hik, fulfillmentsFor_append, ← hdevice, hone, hdevice]
    rw [← settle_settle, ← hy]

theorem solicit (hat : L.IsAt e k) (hks : e.event.payload = .member (.keySolicitation ks)) :
    L.PointerAt e.event.creatorAddress (k + 1) (.event e.ref ks) ks := by
  obtain ⟨_, he0, hevent⟩ := hat.event
  obtain ⟨e1, he1, hlag⟩ := L.lags e.ref k hat.position
  obtain rfl := some.inj (he1.symm.trans he0)
  rw [hevent] at hlag
  refine ⟨hlag ks hks, hat.sortedIds.1 ks hks, ?_⟩
  intro ref ks' heq
  cases heq
  refine ⟨k, e1, Nat.lt_succ_self k, hat.position,
    he0, by rw [hevent]; exact hks, by rw [hevent], ?_⟩
  have hnil : (L.log.take (k + 1)).drop (k + 1) = [] := by
    rw [drop_eq_nil_iff, length_take]
    omega
  rw [hnil]
  rfl

theorem read_eq (h : L.PointerAt u L.log.length p y) : p.read L.heap = y := by
  have hlag := h.lag
  rw [drop_length] at hlag
  exact hlag.eq_of_nil

end PointerAt

/-! ## Lists of pointers -/

structure UserAt (L : Ledger) (u : Bytes) (k : Nat) (l : List SolicitationPtr)
    (ys : List KeySolicitation) : Prop where
  pointers : Forall₂ (L.PointerAt u k) l ys
  devices : (l.map (·.deviceKey)).Nodup

namespace UserAt

theorem nil (L : Ledger) (u : Bytes) (k : Nat) : L.UserAt u k [] [] :=
  ⟨.nil, nodup_nil⟩

theorem mono (h : L.UserAt u k l ys) (hk : k ≤ L.log.length) (hle : L.Le L') : L'.UserAt u k l ys :=
  ⟨h.pointers.imp fun _ _ hp => hp.mono hk hle, h.devices⟩

theorem skip (h : L.UserAt u k l ys) (he : L.log[k]? = some e)
    (hnone : ∀ d, fulfillmentsFor u d [e] = []) : L.UserAt u (k + 1) l ys :=
  ⟨h.pointers.imp fun _ _ hp => hp.skip he (hnone _), h.devices⟩

theorem clone (h : L.UserAt u k l ys) : L.UserAt u k (l.map fun p => .own (p.read L.heap)) ys := by
  refine ⟨forall₂_map_left_iff.2 (h.pointers.imp fun p y hp => ⟨hp.lag, hp.sorted, by simp⟩), ?_⟩
  have hkeys : ∀ p : SolicitationPtr, (SolicitationPtr.own (p.read L.heap)).deviceKey =
      p.deviceKey :=
    fun p => p.read_deviceKey L.heap
  simpa [comp_def, hkeys] using h.devices

theorem solicit {e : ParsedEvent} (h : L.UserAt e.event.creatorAddress k l ys) (hat : L.IsAt e k)
    (hks : e.event.payload = .member (.keySolicitation ks)) :
    L.UserAt e.event.creatorAddress (k + 1) (applyKeySolicitation l (.event e.ref ks))
      (solicit ys ks) := by
  obtain ⟨_, he0, hevent⟩ := hat.event
  have hskip : L.UserAt e.event.creatorAddress (k + 1) l ys := by
    refine h.skip he0 fun d => ?_
    rw [fulfillmentsFor_singleton_congr hevent, fulfillmentsFor_cons_of_ne (by simp [hks])]
    rfl
  have hdevice : SolicitationPtr.deviceKey (.event e.ref ks) = ks.deviceKey := rfl
  have hkept : Forall₂ (L.PointerAt e.event.creatorAddress (k + 1))
      (l.filter (·.deviceKey ≠ ks.deviceKey)) (ys.filter (·.deviceKey ≠ ks.deviceKey)) := by
    refine rel_filter ?_ hskip.pointers
    intro p y hp
    simp [hp.deviceKey]
  refine ⟨?_, useKey_map SolicitationPtr.deviceKey maxSolicitationDevices l (.event e.ref ks) ▸
    useKey_nodup _ h.devices _⟩
  unfold applyKeySolicitation River.Node.solicit
  simp only [hdevice]
  rw [hkept.length_eq]
  exact rel_append (forall₂_drop _ hkept) (.cons (.solicit hat hks) .nil)

theorem writes (h : L.UserAt u k l ys) (he : L.log[k]? = some e)
    (hkf : e.event.payload = .member (.keyFulfillment kf)) (hu : kf.userAddress = u) :
    ∃ L' : Ledger, L.Writes L' ∧ L'.heap = (applyKeyFulfillment L.heap kf l).1 := by
  rcases applyKeyFulfillment_heap L.heap kf l with hheap | ⟨p, hp, hd, hheap⟩
  · exact ⟨L, .refl L, hheap.symm⟩
  cases p with
  | own ks => exact ⟨L, .refl L, hheap.symm⟩
  | event ref ks =>
    obtain ⟨n, hn⟩ := getElem?_of_mem hp
    obtain ⟨y, -, hptr⟩ := forall₂_getElem? h.pointers hn
    obtain ⟨i, _, hik, hi, he0, hks, hcreator, -⟩ := hptr.origin ref ks rfl
    obtain ⟨L', hwrites, hheap'⟩ := L.write hi he0 hks hik he hkf (hu.trans hcreator.symm) hd.symm
    exact ⟨L', hwrites, hheap'.trans hheap.symm⟩

theorem fulfill (h : L.UserAt u k l ys) (hk : k ≤ L.log.length) (he : L.log[k]? = some e)
    (hkf : e.event.payload = .member (.keyFulfillment kf)) (hu : kf.userAddress = u)
    (hwrites : L.Writes L') (hheap : L'.heap = (applyKeyFulfillment L.heap kf l).1) :
    L'.UserAt u (k + 1) (applyKeyFulfillment L.heap kf l).2 (fulfill kf ys) := by
  have hsorted := (L.sorted e (mem_of_getElem? he)).2 kf hkf
  have he' : L'.log[k]? = some e := by rw [hwrites.log_eq]; exact he
  have hfor : ∀ d, fulfillmentsFor u d [e] = if kf.deviceKey = d then [kf] else [] := by
    intro d
    rw [fulfillmentsFor_cons_of_fulfillment hkf]
    simp [hu, fulfillmentsFor]
  -- a pointer of another device sees at most what other writes may do
  have hother : ∀ {p y}, L.PointerAt u k p y → p.deviceKey ≠ kf.deviceKey →
      L'.PointerAt u (k + 1) p y := by
    intro p y hp hne
    refine (hp.mono hk hwrites.le).skip he' ?_
    rw [hfor, if_neg fun heq => hne (hp.deviceKey.trans heq.symm)]
  refine ⟨?_, by rw [applyKeyFulfillment_deviceKeys]; exact h.devices⟩
  obtain ⟨hpointers, hdevices⟩ := h
  induction hpointers with
  | nil => exact .nil
  | @cons p y l ys hp hpointers ih =>
    rw [map_cons, nodup_cons] at hdevices
    unfold applyKeyFulfillment River.Node.fulfill
    by_cases hd : p.deviceKey = kf.deviceKey
    · have hdy : y.deviceKey = kf.deviceKey := hp.deviceKey.symm.trans hd
      simp only [hd, hdy]
      have hheap' : L'.heap =
          (p.write L.heap false (removeCommon (p.read L.heap).sessionIds kf.sessionIds)).1 := by
        rw [hheap, applyKeyFulfillment]
        simp only [hd, if_true]
      refine .cons (hp.fulfill hwrites he ?_ ?_ ?_) (forall₂_of_mem hpointers fun q hq z hqz => ?_)
      · rw [hfor, if_pos hdy.symm]
      · rw [hheap', SolicitationPtr.read_write]
        exact (hp.lag.sorted hp.sorted).settle_one hsorted
      · intro ref ks hevent
        cases p with
        | own ks' => cases hevent
        | event ref' ks' => exact hevent
      · exact hother hqz fun heq => hdevices.1 (hd.trans heq.symm ▸ mem_map_of_mem hq)
    · have hdy : y.deviceKey ≠ kf.deviceKey := fun heq => hd (hp.deviceKey.trans heq)
      simp only [hd, hdy]
      refine .cons (hother hp hd) (ih ?_ hdevices.2)
      rw [hheap, applyKeyFulfillment]
      simp only [hd, if_false]

theorem read_eq (h : L.UserAt u L.log.length l ys) : l.map (·.read L.heap) = ys := by
  have hsame : Forall₂ (· = ·) (l.map (·.read L.heap)) ys :=
    forall₂_map_left_iff.2 (h.pointers.imp fun _ _ hp => hp.read_eq)
  rw [forall₂_eq_eq_eq] at hsame
  exact hsame

end UserAt

/-! ## Folds over the log -/

def state (L : Ledger) (base : Bytes → Option (List KeySolicitation)) (k : Nat) (u : Bytes) :
    Option (List KeySolicitation) :=
  (L.log.take k).foldl (solicitationState u) (base u)

structure StandsFor (L : Ledger) (T : Bytes → Prop) (base : Bytes → Option (List KeySolicitation))
    (k : Nat) (ps : Bytes → Option (List SolicitationPtr)) : Prop where
  bound : k ≤ L.log.length
  users : ∀ u, T u → Rel (L.UserAt u k) (ps u) (L.state base k u)
  others : ∀ u, ¬T u → ps u = none

namespace StandsFor

theorem mono (h : L.StandsFor T base k ps) (hle : L.Le L') : L'.StandsFor T base k ps := by
  have hstate : ∀ u, L'.state base k u = L.state base k u := by
    intro u
    obtain ⟨_, hrest⟩ := hle.log
    unfold state
    rw [← hrest, take_append_of_le_length h.bound]
  refine ⟨h.bound.trans hle.log.length_le, fun u hu => ?_, h.others⟩
  have huser := h.users u hu
  rw [hstate]
  generalize ps u = l, L.state base k u = y at huser
  cases huser with
  | none => exact .none
  | some hl => exact .some (hl.mono h.bound hle)

theorem skip (h : L.StandsFor T base k ps) (hat : L.IsAt e k) (hu : T u)
    (hnone : ∀ d, fulfillmentsFor u d [e] = []) :
    Rel (L.UserAt u (k + 1)) (ps u) (L.state base k u) := by
  obtain ⟨_, he0, hevent⟩ := hat.event
  have huser := h.users u hu
  generalize ps u = l, L.state base k u = y at huser
  cases huser with
  | none => exact .none
  | some hl =>
    refine .some (hl.skip he0 fun d => ?_)
    rw [fulfillmentsFor_singleton_congr hevent]
    exact hnone d

theorem state_step (hat : L.IsAt e k) (u : Bytes) :
    L.state base (k + 1) u = solicitationState u (L.state base k u) e := by
  obtain ⟨_, he0, hevent⟩ := hat.event
  unfold state
  rw [take_add_one, he0, toList_some, foldl_append]
  simp only [foldl_cons, foldl_nil, solicitationState, hevent]

theorem fulfill (h : L.StandsFor T base k ps) (hat : L.IsAt e k)
    (hkf : e.event.payload = .member (.keyFulfillment kf))
    (hps : ∀ u, T u → ps' u = solicitationsStep L.heap e u (ps u))
    (hothers : ∀ u, ¬T u → ps' u = none) :
    ∃ L' : Ledger, L.Writes L' ∧ L'.heap = heapStep L.heap e ps ∧
      L'.StandsFor T base (k + 1) ps' := by
  obtain ⟨e0, he0, hevent⟩ := hat.event
  have hkf0 : e0.event.payload = .member (.keyFulfillment kf) := by rw [hevent]; exact hkf
  have hlt := (List.getElem?_eq_some_iff.1 he0).1
  -- the only list that is written is that of the user
  have hwrite : ∃ L' : Ledger, L.Writes L' ∧ L'.heap = heapStep L.heap e ps := by
    simp only [heapStep, hkf]
    cases hl : ps kf.userAddress with
    | none => exact ⟨L, .refl L, rfl⟩
    | some l =>
      have hT : T kf.userAddress := by
        by_contra hT
        rw [h.others _ hT] at hl
        cases hl
      have huser := h.users _ hT
      rw [hl] at huser
      generalize L.state base k kf.userAddress = y at huser
      obtain ⟨hy⟩ := huser
      exact hy.writes he0 hkf0 rfl
  obtain ⟨L', hwrites, hheap⟩ := hwrite
  have hat' : L'.IsAt e k := hat.mono hwrites.le
  have h' : L'.StandsFor T base k ps := h.mono hwrites.le
  refine ⟨L', hwrites, hheap, ?_, fun u hu => ?_, hothers⟩
  · rw [hwrites.log_eq]
    exact hlt
  rw [hps u hu, state_step hat']
  by_cases huser : kf.userAddress = u
  · have hbefore := h.users u hu
    have hstate : L'.state base k u = L.state base k u := by
      unfold state
      rw [hwrites.log_eq]
    have hheap' : L'.heap = ((ps u).map fun l => (applyKeyFulfillment L.heap kf l).1).getD
        L.heap := by
      rw [hheap]
      simp only [heapStep, hkf, huser]
    simp only [solicitationsStep, solicitationState, hkf, huser, hstate]
    generalize ps u = l, L.state base k u = y at hbefore hheap'
    cases hbefore with
    | none => exact .none
    | some hl => exact .some (hl.fulfill h.bound he0 hkf0 huser hwrites hheap')
  · simp only [solicitationsStep, solicitationState, hkf, huser]
    refine h'.skip hat' hu fun d => ?_
    rw [fulfillmentsFor_cons_of_fulfillment hkf, if_neg fun hc => huser hc.1]
    rfl

theorem step (h : L.StandsFor T base k ps) (hat : L.IsAt e k)
    (hps : ∀ u, T u → ps' u = solicitationsStep L.heap e u (ps u))
    (hothers : ∀ u, ¬T u → ps' u = none) :
    ∃ L' : Ledger, L.Writes L' ∧ L'.heap = heapStep L.heap e ps ∧
      L'.StandsFor T base (k + 1) ps' := by
  by_cases hkf : ∃ kf, e.event.payload = .member (.keyFulfillment kf)
  · obtain ⟨kf, hkf⟩ := hkf
    exact h.fulfill hat hkf hps hothers
  -- every other event leaves the heap alone
  have hne : ∀ kf, e.event.payload ≠ .member (.keyFulfillment kf) := fun kf hk => hkf ⟨kf, hk⟩
  have hheap : L.heap = heapStep L.heap e ps := by
    unfold heapStep
    split
    · rename_i kf hk
      exact absurd hk (hne kf)
    · rfl
  obtain ⟨_, he0, -⟩ := hat.event
  refine ⟨L, .refl L, hheap, (List.getElem?_eq_some_iff.1 he0).1, fun u hu => ?_, hothers⟩
  have hskip := h.skip hat hu fun d => (fulfillmentsFor_cons_of_ne hne u d []).trans rfl
  have huser := h.users u hu
  rw [hps u hu, state_step hat]
  cases hp : e.event.payload with
  | member p =>
    cases p with
    | membership m =>
      by_cases hmu : m.userAddress = u
      · simp only [solicitationsStep, solicitationState, hp, hmu]
        cases m.op with
        | join => exact .some (.nil L u _)
        | leave => exact .none
        | _ => exact hskip
      · simp only [solicitationsStep, solicitationState, hp, hmu]
        exact hskip
    | keySolicitation ks =>
      by_cases hcreator : e.event.creatorAddress = u
      · subst hcreator
        simp only [solicitationsStep, solicitationState, hp]
        generalize ps e.event.creatorAddress = l, L.state base k e.event.creatorAddress = y at huser
        cases huser with
        | none => exact .none
        | some hl => exact .some (hl.solicit hat hp)
      · simp only [solicitationsStep, solicitationState, hp, hcreator]
        exact hskip
    | keyFulfillment kf => exact absurd hp (hne kf)
    | _ =>
      simp only [solicitationsStep, solicitationState, hp]
      exact hskip
  | _ =>
    simp only [solicitationsStep, solicitationState, hp]
    exact hskip

theorem updates (hupdates : Updates es sh sh') (hwf : sh.1.WellFormed) (hheap : L.heap = sh.2)
    (h : L.StandsFor (fun _ => True) base k sh.1.solicitations) (hw : L.Window k es) :
    ∃ L' : Ledger, L.Writes L' ∧ L'.heap = sh'.2 ∧
      L'.StandsFor (fun _ => True) base (k + es.length) sh'.1.solicitations := by
  induction hupdates generalizing L k with
  | nil sh => exact ⟨L, .refl L, hheap, h⟩
  | @cons e es s heap m n sh1 sh2 err first _ ih =>
    subst hheap
    obtain ⟨hat, hrest⟩ := window_cons.1 hw
    have hstepped := updateSnapshot_stepped hwf first
    obtain ⟨_, hwrites, hheap1, hstands⟩ := h.step hat (fun u _ => hstepped.solicitations u)
      (fun u hu => absurd trivial hu)
    obtain ⟨L2, hwrites2, hheap2, hstands2⟩ := ih hstepped.wellFormed
      (hheap1.trans hstepped.heap_eq.symm) hstands (hrest.mono hwrites.le)
    refine ⟨L2, hwrites.trans hwrites2, hheap2, ?_⟩
    rw [length_cons, Nat.add_comm es.length 1, ← Nat.add_assoc]
    exact hstands2

theorem query {u : Bytes} (h : L.StandsFor (· = u) base k (onlyUser u member))
    (hw : L.Window k es) :
    ∃ (member' : Option MemberSnapshot) (L' : Ledger),
      es.foldlM (keySolicitationsOp u) (member, L.heap) = .ok (member', L'.heap) ∧
        L.Writes L' ∧ L'.StandsFor (· = u) base (k + es.length) (onlyUser u member') := by
  induction es generalizing L k member with
  | nil => exact ⟨member, L, rfl, .refl L, h⟩
  | cons e es ih =>
    obtain ⟨hat, hrest⟩ := window_cons.1 hw
    obtain ⟨member1, hop, hsolicitations⟩ := keySolicitationsOp_eq u member L.heap e
    have hsteps : ∀ v, v = u → onlyUser u member1 v =
        solicitationsStep L.heap e v (onlyUser u member v) := by
      rintro v rfl
      simpa [onlyUser] using hsolicitations
    obtain ⟨_, hwrites, hheap, hstands⟩ := h.step hat hsteps fun v hv => if_neg hv
    obtain ⟨member', L', hrun, hwrites', hstands'⟩ := ih hstands (hrest.mono hwrites.le)
    refine ⟨member', L', ?_, hwrites.trans hwrites', ?_⟩
    · rw [foldlM_cons, hop, ← hheap]
      exact hrun
    · rw [length_cons, Nat.add_comm es.length 1, ← Nat.add_assoc]
      exact hstands'

end StandsFor

/-! ## Snapshots and views -/

variable {base : Bytes → Option (List KeySolicitation)} {k : Nat}

structure SnapshotAt (L : Ledger) (base : Bytes → Option (List KeySolicitation)) (k : Nat)
    (s : Snapshot) : Prop where
  wellFormed : s.WellFormed
  stands : L.StandsFor (fun _ => True) base k s.solicitations

namespace SnapshotAt

theorem mono (h : L.SnapshotAt base k s) (hle : L.Le L') : L'.SnapshotAt base k s :=
  ⟨h.wellFormed, h.stands.mono hle⟩

theorem clone (h : L.SnapshotAt base k s) : L.SnapshotAt base k (s.clone L.heap) := by
  refine ⟨h.wellFormed.clone _, h.stands.bound, fun u hu => ?_, fun u hu => absurd trivial hu⟩
  have huser := h.stands.users u hu
  rw [Snapshot.solicitations_clone]
  generalize s.solicitations u = l, L.state base k u = y at huser
  cases huser with
  | none => exact .none
  | some hl => exact .some hl.clone

theorem updates (h : L.SnapshotAt base k s) (hupdates : Updates es (s.clone L.heap, L.heap) sh')
    (hw : L.Window k es) :
    ∃ L' : Ledger, L.Writes L' ∧ L'.heap = sh'.2 ∧ L'.SnapshotAt base (k + es.length) sh'.1 := by
  obtain ⟨L', hwrites, hheap, hstands⟩ := StandsFor.updates hupdates h.clone.wellFormed rfl
    h.clone.stands hw
  exact ⟨L', hwrites, hheap, hupdates.wellFormed h.clone.wellFormed, hstands⟩

theorem solicitationsNow (h : L.SnapshotAt base L.log.length s) (u : Bytes) :
    s.solicitationsNow L.heap u = L.state base L.log.length u := by
  have huser := h.stands.users u trivial
  unfold Snapshot.solicitationsNow
  generalize s.solicitations u = l, L.state base L.log.length u = y at huser
  cases huser with
  | none => rfl
  | some hl => rw [map_some, hl.read_eq]

end SnapshotAt

structure ReplayAt (L : Ledger) (base : Bytes → Option (List KeySolicitation)) (k : Nat)
    (r : Replay) : Prop where
  snapshot : L.SnapshotAt base k r.snapshot
  window : L.Window k r.events

abbrev ViewAt (L : Ledger) (base : Bytes → Option (List KeySolicitation)) (k : Nat)
    (v : StreamView) : Prop := L.ReplayAt base k v.replay

namespace ReplayAt

theorem mono (h : L.ReplayAt base k r) (hle : L.Le L') : L'.ReplayAt base k r :=
  ⟨h.snapshot.mono hle, h.window.mono hle⟩

theorem getKeySolicitations (h : L.ReplayAt base k r) (u : Bytes) :
    ∃ (L' : Ledger) (answer : List KeySolicitation),
      r.getKeySolicitations L.heap u = .ok (answer, L'.heap) ∧ L.Writes L' ∧
        (k + r.events.length = L.log.length →
          answer = (L.state base L.log.length u).getD []) := by
  obtain ⟨joined, hjoined, -⟩ := h.snapshot.wellFormed.members
  have hfind := h.snapshot.wellFormed.findMember u
  rw [hjoined, getD_some] at hfind
  set member := (SortedList.lookup (·.userAddress) joined u).map (·.clone L.heap) with hmember
  have honly : member.map (·.solicitations) = (r.snapshot.clone L.heap).solicitations u := by
    rw [Snapshot.solicitations_clone, Snapshot.solicitations, hjoined,
      Option.map_map, Option.map_map]
    rfl
  have hstart : L.StandsFor (· = u) base k (onlyUser u member) := by
    refine ⟨h.snapshot.stands.bound, ?_, fun w hw => if_neg hw⟩
    rintro w rfl
    rw [onlyUser, if_pos rfl, honly]
    exact h.snapshot.clone.stands.users w trivial
  obtain ⟨member', L', hrun, hwrites, hstands⟩ := hstart.query h.window
  refine ⟨L', (member'.map (·.solicitations.map (·.read L'.heap))).getD [], ?_, hwrites, ?_⟩
  · rw [Replay.getKeySolicitations, Replay.joined, hjoined, Res.ok_bind, hfind, ← hmember]
    simp only [hrun, Res.ok_bind]
  intro hend
  have huser := hstands.users u rfl
  rw [onlyUser, if_pos rfl, hend] at huser
  have hstate : L'.state base L.log.length u = L.state base L.log.length u := by
    unfold state
    rw [hwrites.log_eq]
  rw [hstate] at huser
  rw [← hwrites.log_eq] at huser ⊢
  generalize L.state base L'.log.length u = y at huser ⊢
  cases member' with
  | none =>
    cases huser
    rfl
  | some m =>
    obtain ⟨hl⟩ := huser
    exact hl.read_eq

end ReplayAt

namespace ViewAt

theorem intro (hsnapshot : L.SnapshotAt base k v.snapshot.value) (hwindow : L.Window k v.window) :
    L.ViewAt base k v := ⟨hsnapshot, hwindow⟩

theorem getKeySolicitations (h : L.ViewAt base k v) (u : Bytes) :
    ∃ (L' : Ledger) (answer : List KeySolicitation),
      v.getKeySolicitations L.heap u = .ok (answer, L'.heap) ∧ L.Writes L' ∧
        (k + v.window.length = L.log.length →
          answer = (L.state base L.log.length u).getD []) := by
  rw [v.getKeySolicitations_eq_replay]
  exact ReplayAt.getKeySolicitations h u

theorem nextSnapshot (h : L.ViewAt base k v) {rest : List ParsedEvent}
    (hpool : v.minipool.events.values = es ++ rest) {s : Snapshot} {heap' : Heap}
    (hnext : v.nextSnapshot L.heap es = .ok (s, heap')) :
    ∃ L' : Ledger, L.Writes L' ∧ L'.heap = heap' ∧ ∃ n, n + rest.length = k + v.window.length ∧
      L'.SnapshotAt base n s := by
  have hwindow : L.Window k v.window := h.window
  rw [window, hpool, ← append_assoc] at hwindow
  obtain ⟨L', hwrites, hheap, hsnapshot⟩ :=
    h.snapshot.updates (updates_of_nextSnapshot hnext) (window_append.1 hwindow).1
  refine ⟨L', hwrites, hheap, _, ?_, hsnapshot⟩
  rw [window, hpool]
  simp only [length_append]
  omega

end ViewAt

end Ledger

end River.Node
