/-
  How a client applies the updates of a sync to its streams (core/sdk/src/syncedStreams.ts,
  `appendStreamAndCookie` of streamStateView.ts).

  The events of a stream are numbered; a cookie is the number of the next event. Within one sync
  the server's updates of a stream are contiguous from the cookie it was given.
-/

import Mathlib.Order.Nat
import River.Lib.Machine

namespace River.Sdk

open Function List

inductive SyncState where
  | canceling | notSyncing | retrying | starting | syncing
  deriving DecidableEq

structure SyncUpdate (κ : Type _) where
  syncId : Nat
  streamId : κ
  syncReset : Bool
  start : Nat
  stop : Nat

structure SyncedView where
  base : Nat
  syncCookie : Option Nat
  applied : List Nat

/-- The state of a client's sync loop. -/
structure SyncedStreams (κ : Type _) where
  syncState : SyncState
  syncId : Option Nat
  responsesQueue : List (SyncUpdate κ)
  inProgressTick : Option (SyncUpdate κ)
  streams : κ → Option SyncedView
  connection : Nat
  isOpen : Bool
  started : Bool
  served : κ → Option Nat

inductive UpdateOutcome where
  | applied
  | unpackError
  | applyError (events : Nat)

inductive SyncAction (κ : Type _) where
  | iterate
  | syncNew
  | syncClose
  | syncUpdate (streamId : κ) (reset : Option Nat) (events : Nat)
  | syncError
  | done
  | tick
  | tickEnd (outcome : UpdateOutcome)

def SyncUpdate.events {κ : Type _} (u : SyncUpdate κ) (n : Nat) : List Nat :=
  range' u.start (min n (u.stop - u.start))

def SyncedView.update {κ : Type _} (u : SyncUpdate κ) (outcome : UpdateOutcome) (v : SyncedView) :
    SyncedView :=
  let v' := if u.syncReset then ⟨u.start, none, []⟩ else v
  match outcome with
  | .applied =>
    { v' with
      syncCookie := some u.stop, applied := v'.applied ++ u.events (u.stop - u.start) }
  | .unpackError => v
  | .applyError n => { v' with applied := v'.applied ++ u.events n }

namespace SyncedStreams

variable {κ : Type _} [DecidableEq κ] (s : SyncedStreams κ)

def iterate : SyncedStreams κ :=
  { s with
    syncState := .starting
    syncId := none
    connection := s.connection + 1
    isOpen := true
    started := false
    served := fun k => (s.streams k).bind (·.syncCookie) }

def tick : SyncedStreams κ :=
  match s.inProgressTick, s.responsesQueue with
  | none, item :: rest =>
    let s := { s with responsesQueue := rest }
    if s.syncId ≠ some item.syncId then s
    else if s.syncState = .syncing ∨ s.syncState = .canceling then
      if (s.streams item.streamId).isNone then s else { s with inProgressTick := some item }
    else s
  | _, _ => s

def tickEnd (outcome : UpdateOutcome) (s : SyncedStreams κ) : SyncedStreams κ :=
  match s.inProgressTick with
  | none => s
  | some u =>
    { s with
      inProgressTick := none
      streams := update s.streams u.streamId
        ((s.streams u.streamId).map (·.update u outcome)) }

def syncUpdate (k : κ) (reset : Option Nat) (events : Nat) (s : SyncedStreams κ) :
    SyncedStreams κ :=
  match s.served k with
  | none => s
  | some position =>
    let start := reset.getD position
    { s with
      responsesQueue :=
        s.responsesQueue ++ [⟨s.connection, k, reset.isSome, start, start + events⟩]
      served := update s.served k (some (start + events)) }

def step : SyncAction κ → SyncedStreams κ
  | .iterate => if s.syncState = .notSyncing ∨ s.syncState = .retrying then s.iterate else s
  | .syncNew =>
    if s.isOpen ∧ ¬s.started then
      -- `syncStarted`
      if s.syncId = none ∧ (s.syncState = .starting ∨ s.syncState = .retrying) then
        { s with started := true, syncState := .syncing, syncId := some s.connection }
      else { s with started := true }
    else s
  -- `syncClosed` makes the loop begin another iteration at once
  | .syncClose => if s.isOpen ∧ s.started then { s with syncState := .retrying }.iterate else s
  | .syncUpdate k reset events => if s.isOpen ∧ s.started then s.syncUpdate k reset events else s
  | .syncError =>
    if s.isOpen then { s with isOpen := false, syncState := .retrying, syncId := none } else s
  | .done => { s with isOpen := false }
  | .tick => s.tick
  | .tickEnd outcome => s.tickEnd outcome

/-- The sync loop of a client. -/
def machine : Lib.Machine (SyncedStreams κ) (SyncAction κ) Unit := ⟨fun s a => (s.step a, ())⟩

def new (cookies : κ → Option Nat) : SyncedStreams κ where
  syncState := .notSyncing
  syncId := none
  responsesQueue := []
  inProgressTick := none
  streams k := (cookies k).map fun cookie => ⟨cookie, some cookie, []⟩
  connection := 0
  isOpen := false
  started := false
  served _ := none

/-! ## Gaps -/

/-- No update before the last applied, or the cookie, is missing. -/
def GapFree (v : SyncedView) : Prop :=
  ∀ n, v.base ≤ n → (∃ m ∈ v.applied, n ≤ m) ∨ (∃ cookie ∈ v.syncCookie, n < cookie) →
    n ∈ v.applied

def Harmless (u : SyncUpdate κ) (v : SyncedView) (outcome : UpdateOutcome) : Prop :=
  if s.syncId = some u.syncId then outcome = .applied
  else u.syncReset = true → outcome = .unpackError ∨
    outcome = .applied ∧ v.base ≤ u.stop ∧ ∀ n ∈ v.applied, n < u.stop

/-- The end of a tick loses no update. -/
def EndsWell : SyncAction κ → Prop
  | .tickEnd outcome => ∀ u ∈ s.inProgressTick, ∀ v ∈ s.streams u.streamId, s.Harmless u v outcome
  | _ => True

def Reaches : Nat → List (SyncUpdate κ) → Nat → Prop
  | f, [], position => position ≤ f
  | f, u :: us, position =>
    (u.syncReset = false → u.start ≤ f) ∧
      Reaches (if u.syncReset then u.stop else max f u.stop) us position

def pending (k : κ) : List (SyncUpdate κ) :=
  (s.inProgressTick.toList ++ s.responsesQueue).filter fun u =>
    u.syncId = s.connection ∧ u.streamId = k

structure Ordered (s : SyncedStreams κ) : Prop where
  waiting : ∀ u ∈ s.inProgressTick.toList ++ s.responsesQueue,
    u.start ≤ u.stop ∧ u.syncId ≤ s.connection ∧ (s.started = false → u.syncId < s.connection)
  syncing : ∀ id ∈ s.syncId, id = s.connection ∧ s.started = true ∧ s.syncState = .syncing

structure UpTo (v : SyncedView) (f : Nat) : Prop where
  base : v.base ≤ f
  below : ∀ n ∈ v.applied, n < f
  all : ∀ n, v.base ≤ n → n < f → n ∈ v.applied
  cookie : ∀ cookie ∈ v.syncCookie, cookie ≤ f

structure Covers (s : SyncedStreams κ) (k : κ) (v : SyncedView) (f : Nat) : Prop
    extends UpTo v f where
  tick : ∀ u ∈ s.inProgressTick, u.streamId = k → u.syncReset = false → u.start ≤ f
  live : s.syncId = some s.connection ∨ s.started = false →
    s.served k = none ∧ s.pending k = [] ∨
      ∃ position, s.served k = some position ∧ Reaches f (s.pending k) position

def Sound : Prop :=
  s.Ordered ∧ ∀ k, ∀ v ∈ s.streams k, ∃ f, s.Covers k v f

omit [DecidableEq κ] in
theorem Reaches.mono {f g : Nat} (hfg : f ≤ g)
    (h : Reaches f us position) : Reaches g us position := by
  induction us generalizing f g with
  | nil => exact Nat.le_trans h hfg
  | cons u us ih =>
    refine ⟨fun hu => (h.1 hu).trans hfg, ih ?_ h.2⟩
    split <;> omega

omit [DecidableEq κ] in
theorem Reaches.concat (h : Reaches f us position) {u : SyncUpdate κ}
    (hu : u.syncReset = false → u.start = position) :
    Reaches f (us ++ [u]) u.stop := by
  induction us generalizing f with
  | nil =>
    refine ⟨fun hreset => (hu hreset).trans_le h, ?_⟩
    show u.stop ≤ ite _ _ _
    split <;> omega
  | cons v us ih => exact ⟨h.1, ih h.2⟩

theorem Covers.gapFree {s : SyncedStreams κ} (h : s.Covers k v f) : GapFree v := by
  rintro n hbase (⟨m, hm, hle⟩ | ⟨cookie, hcookie, hlt⟩)
  · exact h.all n hbase (hle.trans_lt (h.below m hm))
  · exact h.all n hbase (hlt.trans_le (h.cookie cookie hcookie))

/-! ## One action -/

theorem Sound.of_frame {s t : SyncedStreams κ} (hs : s.Sound) (hordered : t.Ordered)
    (hstreams : t.streams = s.streams) (htick : t.inProgressTick = s.inProgressTick)
    (hlive : ∀ k v f, s.streams k = some v → s.Covers k v f →
      t.syncId = some t.connection ∨ t.started = false →
      t.served k = none ∧ t.pending k = [] ∨
        ∃ position, t.served k = some position ∧ Reaches f (t.pending k) position) :
    t.Sound := by
  refine ⟨hordered, fun k v hv => ?_⟩
  rw [hstreams] at hv
  obtain ⟨f, hf⟩ := hs.2 k v hv
  exact ⟨f, { hf with tick := htick ▸ hf.tick, live := hlive k v f hv hf }⟩

theorem pending_eq_nil {s : SyncedStreams κ} (k : κ)
    (h : ∀ u ∈ s.inProgressTick.toList ++ s.responsesQueue, u.syncId < s.connection) :
    s.pending k = [] :=
  filter_eq_nil_iff.2 fun u hu hmem => (h u hu).ne (of_decide_eq_true hmem).1

theorem Sound.iterate {s : SyncedStreams κ} (hs : s.Sound) : s.iterate.Sound := by
  have hearlier : ∀ u ∈ s.inProgressTick.toList ++ s.responsesQueue, u.syncId < s.connection + 1 :=
    fun u hu => Nat.lt_succ_of_le (hs.1.waiting u hu).2.1
  refine hs.of_frame ⟨fun u hu => ?_, nofun⟩ rfl rfl fun k v f hv hf _ => ?_
  · exact ⟨(hs.1.waiting u hu).1, (hearlier u hu).le, fun _ => hearlier u hu⟩
  have hserved : s.iterate.served k = v.syncCookie := by
    show (s.streams k).bind _ = _
    rw [hv]
    rfl
  rw [hserved, pending_eq_nil k hearlier]
  cases hcookie : v.syncCookie with
  | none => exact .inl ⟨rfl, rfl⟩
  | some cookie => exact .inr ⟨cookie, rfl, hf.cookie cookie hcookie⟩

theorem Sound.syncUpdate {s : SyncedStreams κ} (hs : s.Sound) (hstarted : s.started = true) (k : κ)
    (reset : Option Nat) (events : Nat) : (s.syncUpdate k reset events).Sound := by
  unfold SyncedStreams.syncUpdate
  cases hserved : s.served k with
  | none => exact hs
  | some position =>
    dsimp only
    generalize hu : (⟨s.connection, k, reset.isSome, reset.getD position,
      reset.getD position + events⟩ : SyncUpdate κ) = u
    refine hs.of_frame ⟨fun w hw => ?_, hs.1.syncing⟩ rfl rfl fun k' v f hv hf hlive => ?_
    · rw [← append_assoc] at hw
      obtain hw | hw := mem_append.1 hw
      · exact hs.1.waiting w hw
      · obtain rfl := mem_singleton.1 hw
        rw [← hu]
        exact ⟨Nat.le_add_right _ _, le_rfl, fun h => absurd (h.symm.trans hstarted) nofun⟩
    · unfold pending
      dsimp only
      rw [← append_assoc, filter_append]
      by_cases hk : k' = k
      · subst hk
        obtain ⟨hnone, _⟩ | ⟨position', hserved', hreaches⟩ := hf.live hlive
        · exact absurd (hnone.symm.trans hserved) nofun
        obtain rfl : position' = position := Option.some.inj (hserved'.symm.trans hserved)
        refine .inr ⟨u.stop, ?_, ?_⟩
        · rw [update_self, ← hu]
        rw [filter_cons_of_pos (by subst hu; simp)]
        refine hreaches.concat fun hreset => ?_
        rw [← hu] at hreset ⊢
        cases reset with
        | none => rfl
        | some base => cases hreset
      · rw [update_of_ne hk,
          filter_cons_of_neg (by subst hu; simpa using fun h : k = k' => hk h.symm), filter_nil,
          append_nil]
        exact hf.live hlive

section Ticks

variable {s : SyncedStreams κ} {item : SyncUpdate κ} {rest : List (SyncUpdate κ)}

omit [DecidableEq κ] in
theorem waiting_eq (htick : s.inProgressTick = none) (hqueue : s.responsesQueue = item :: rest) :
    s.inProgressTick.toList ++ s.responsesQueue = item :: rest := by
  rw [htick, hqueue]
  rfl

theorem Sound.drop (hs : s.Sound) (htick : s.inProgressTick = none)
    (hqueue : s.responsesQueue = item :: rest)
    (hlost : s.syncId = some item.syncId → s.streams item.streamId = none) :
    Sound { s with responsesQueue := rest } := by
  have hwaiting := waiting_eq htick hqueue
  have hmem : ∀ w ∈ s.inProgressTick.toList ++ rest,
      w ∈ s.inProgressTick.toList ++ s.responsesQueue := fun w hw => by
    rw [htick] at hw
    rw [hwaiting]
    exact mem_cons_of_mem _ hw
  refine hs.of_frame ⟨fun w hw => hs.1.waiting w (hmem w hw), hs.1.syncing⟩ rfl rfl
    fun k v f hv hf hlive => ?_
  have hother : ¬(item.syncId = s.connection ∧ item.streamId = k) := by
    rintro ⟨hid, rfl⟩
    obtain hsync | hstarted := hlive
    · exact absurd (hv.symm.trans (hlost (hid ▸ hsync))) nofun
    · have hitem := hs.1.waiting item (by rw [hwaiting]; exact mem_cons_self)
      exact (hitem.2.2 hstarted).ne hid
  have hsame : pending { s with responsesQueue := rest } k = s.pending k := by
    unfold pending
    rw [hwaiting, filter_cons_of_neg (by simpa using hother), htick]
    rfl
  rw [hsame]
  exact hf.live hlive

theorem Sound.take (hs : s.Sound) (htick : s.inProgressTick = none)
    (hqueue : s.responsesQueue = item :: rest) (hid : s.syncId = some item.syncId) :
    Sound { s with responsesQueue := rest, inProgressTick := some item } := by
  have hwaiting := waiting_eq htick hqueue
  have hconnection := (hs.1.syncing _ hid).1
  refine ⟨⟨fun w hw => hs.1.waiting w (by rw [hwaiting]; exact hw), hs.1.syncing⟩, fun k v hv => ?_⟩
  obtain ⟨f, hf⟩ := hs.2 k v hv
  have hsame : pending { s with responsesQueue := rest, inProgressTick := some item } k
      = s.pending k := by
    unfold pending
    rw [hwaiting]
    rfl
  refine ⟨f, { hf with tick := ?_, live := by rw [hsame]; exact hf.live }⟩
  rintro _ ⟨⟩ rfl hreset
  have hpending : s.pending item.streamId = item :: rest.filter fun u =>
      u.syncId = s.connection ∧ u.streamId = item.streamId := by
    unfold pending
    rw [hwaiting, filter_cons_of_pos (by simp [hconnection])]
  obtain ⟨_, hnil⟩ | ⟨_, _, hreaches⟩ := hf.live (.inl (hconnection ▸ hid))
  · exact absurd (hpending.symm.trans hnil) nofun
  · rw [hpending] at hreaches
    exact hreaches.1 hreset

theorem Sound.tick (hs : s.Sound) : s.tick.Sound := by
  unfold SyncedStreams.tick
  split
  · rename_i item rest htick hqueue
    dsimp only
    split
    · rename_i hid
      exact hs.drop htick hqueue fun h => absurd h hid
    rename_i hid
    rw [if_pos (.inl (hs.1.syncing _ (not_not.1 hid)).2.2)]
    split
    · rename_i hnone
      exact hs.drop htick hqueue fun _ => Option.isNone_iff_eq_none.1 hnone
    · exact hs.take htick hqueue (not_not.1 hid)
  · exact hs

end Ticks

theorem UpTo.append (h : UpTo v f) {start : Nat} (hstart : start ≤ f) (n : Nat)
    (cookie : Option Nat) (hcookie : ∀ c ∈ cookie, c ≤ max f (start + n)) :
    UpTo { v with syncCookie := cookie, applied := v.applied ++ range' start n }
      (max f (start + n)) where
  base := h.base.trans (le_max_left _ _)
  below m hm := by
    obtain hm | hm := mem_append.1 hm
    · exact (h.below m hm).trans_le (le_max_left _ _)
    · exact (mem_range'_1.1 hm).2.trans_le (le_max_right _ _)
  all m hbase hm := by
    by_cases hf : m < f
    · exact mem_append_left _ (h.all m hbase hf)
    · exact mem_append_right _ (mem_range'_1.2 (by omega))
  cookie := hcookie

omit [DecidableEq κ] in
theorem UpTo.update (h : UpTo v f) {u : SyncUpdate κ} (hu : u.start ≤ u.stop)
    (hstart : u.syncReset = false → u.start ≤ f) (outcome : UpdateOutcome) :
    ∃ g, UpTo (v.update u outcome) g ∧
      (outcome = .applied → g = if u.syncReset then u.stop else max f u.stop) ∧
      (outcome = .unpackError ∨ u.syncReset = false → f ≤ g) := by
  -- a reset starts with an empty view
  obtain ⟨v', f', hv', h', hstart', hcookie, hf'⟩ : ∃ v' f',
      (if u.syncReset then ⟨u.start, none, []⟩ else v) = v' ∧ UpTo v' f' ∧ u.start ≤ f' ∧
        (max f' u.stop = if u.syncReset then u.stop else max f u.stop) ∧
        (u.syncReset = false → f ≤ f') := by
    cases hreset : u.syncReset with
    | false => exact ⟨v, f, rfl, h, hstart hreset, rfl, fun _ => le_rfl⟩
    | true =>
      refine ⟨⟨u.start, none, []⟩, u.start, rfl,
        ⟨le_rfl, nofun, fun n hge hlt => ?_, nofun⟩, le_rfl,
        max_eq_right hu, nofun⟩
      exact absurd hlt hge.not_gt
  unfold SyncedView.update SyncUpdate.events
  rw [hv']
  cases outcome with
  | applied =>
    have hend : u.start + min (u.stop - u.start) (u.stop - u.start) = u.stop := by omega
    refine ⟨_, h'.append hstart' _ (some u.stop) ?_, fun _ => ?_, ?_⟩
    · rintro _ ⟨⟩
      exact hend.symm.le.trans (le_max_right _ _)
    · rw [hend, hcookie]
    · rintro (h | h)
      · cases h
      · exact (hf' h).trans (le_max_left _ _)
  | unpackError => exact ⟨f, h, nofun, fun _ => le_rfl⟩
  | applyError n =>
    refine ⟨_, h'.append hstart' _ _ fun c hc => ?_, nofun, ?_⟩
    · exact (h'.cookie c hc).trans (le_max_left _ _)
    · rintro (h | h)
      · cases h
      · exact (hf' h).trans (le_max_left _ _)

theorem Sound.tickEnd {s : SyncedStreams κ} (hs : s.Sound)
    (hwell : s.EndsWell (.tickEnd outcome)) : (s.tickEnd outcome).Sound := by
  unfold SyncedStreams.tickEnd
  split
  · exact hs
  rename_i u hu
  have hwaiting : s.inProgressTick.toList ++ s.responsesQueue = u :: s.responsesQueue := by
    rw [hu]
    rfl
  have hmem : u ∈ s.inProgressTick.toList ++ s.responsesQueue := by
    rw [hwaiting]
    exact mem_cons_self
  refine ⟨⟨fun w hw => hs.1.waiting w (by rw [hwaiting]; exact mem_cons_of_mem _ hw),
    hs.1.syncing⟩, fun k v hv => ?_⟩
  -- the updates that wait for a stream, with the one that was in progress
  have hpending : ∀ k, s.pending k = if u.syncId = s.connection ∧ u.streamId = k then
      u :: s.responsesQueue.filter (fun w => w.syncId = s.connection ∧ w.streamId = k)
      else s.responsesQueue.filter fun w => w.syncId = s.connection ∧ w.streamId = k := by
    intro k
    unfold pending
    rw [hwaiting, filter_cons]
    simp only [decide_eq_true_eq]
  by_cases hk : k = u.streamId
  · subst hk
    obtain ⟨v, hold, rfl⟩ : ∃ w, s.streams u.streamId = some w ∧ w.update u outcome = v := by
      simpa using hv
    obtain ⟨f, hf⟩ := hs.2 _ v hold
    have hharmless := hwell u hu v hold
    obtain ⟨g, hg, happlied, hkept⟩ :=
      hf.toUpTo.update (hs.1.waiting u hmem).1 (hf.tick u hu rfl) outcome
    refine ⟨g, { hg with tick := nofun, live := fun hlive => ?_ }⟩
    have hlive' := hf.live hlive
    rw [hpending] at hlive'
    unfold Harmless at hharmless
    split at hharmless
    · -- its sync goes on
      rename_i hid
      rw [if_pos ⟨(hs.1.syncing _ hid).1, rfl⟩] at hlive'
      obtain ⟨_, hnil⟩ | ⟨position, hserved, hreaches⟩ := hlive'
      · cases hnil
      · refine .inr ⟨position, hserved, ?_⟩
        rw [happlied hharmless]
        exact hreaches.2
    · -- its sync is over, and another one was given a position that is covered
      rename_i hid
      have hne : u.syncId ≠ s.connection := by
        intro heq
        obtain hsync | hstarted := hlive
        · exact hid (heq ▸ hsync)
        · exact ((hs.1.waiting u hmem).2.2 hstarted).ne heq
      rw [if_neg fun h => hne h.1] at hlive'
      have hle : f ≤ g := by
        cases hreset : u.syncReset with
        | false => exact hkept (.inr hreset)
        | true =>
          obtain herror | ⟨happly, hbase, hbelow⟩ := hharmless hreset
          · exact hkept (.inl herror)
          · rw [happlied happly, hreset]
            by_contra hlt
            exact (hbelow _ (hf.all u.stop hbase (not_le.1 hlt))).false
      obtain hnone | ⟨position, hserved, hreaches⟩ := hlive'
      · exact .inl hnone
      · exact .inr ⟨position, hserved, hreaches.mono hle⟩
  · have hsame : s.streams k = some v := (update_of_ne hk _ _).symm.trans hv
    obtain ⟨f, hf⟩ := hs.2 k v hsame
    refine ⟨f, { hf with tick := nofun, live := fun hlive => ?_ }⟩
    have hlive' := hf.live hlive
    rw [hpending, if_neg fun h => hk h.2.symm] at hlive'
    exact hlive'

theorem Sound.step {s : SyncedStreams κ} (hs : s.Sound) (ha : s.EndsWell a) : (s.step a).Sound := by
  cases a with
  | syncNew =>
    unfold SyncedStreams.step
    dsimp only
    split
    · rename_i hopen
      have hstarted : s.started = false := eq_false_of_ne_true hopen.2
      have hwaiting := fun u hu => (hs.1.waiting u hu)
      split
      · exact hs.of_frame ⟨fun u hu => ⟨(hwaiting u hu).1, (hwaiting u hu).2.1, nofun⟩,
          by rintro _ ⟨⟩; exact ⟨rfl, rfl, rfl⟩⟩ rfl rfl fun k v f _ hf _ => hf.live (.inr hstarted)
      have hnone : ∀ id, s.syncId ≠ some id := fun id hid =>
        absurd ((hs.1.syncing id hid).2.1.symm.trans hstarted) nofun
      refine hs.of_frame ⟨fun u hu => ⟨(hwaiting u hu).1, (hwaiting u hu).2.1, nofun⟩,
        fun id hid => absurd hid (hnone id)⟩ rfl rfl fun k v f _ hf hlive => ?_
      exact hlive.elim (fun hid => absurd hid (hnone _)) nofun
    · exact hs
  | syncUpdate k reset events =>
    unfold SyncedStreams.step
    dsimp only
    split
    · rename_i hopen
      exact hs.syncUpdate hopen.2 k reset events
    · exact hs
  | syncError =>
    unfold SyncedStreams.step
    dsimp only
    split
    · exact hs.of_frame ⟨hs.1.waiting, nofun⟩ rfl rfl fun k v f _ hf hlive =>
        hf.live (hlive.imp nofun id)
    · exact hs
  | done => exact hs.of_frame ⟨hs.1.waiting, hs.1.syncing⟩ rfl rfl fun k v f _ hf => hf.live
  | tick => exact hs.tick
  | tickEnd outcome => exact hs.tickEnd ha
  | _ =>
    unfold SyncedStreams.step
    dsimp only
    split
    · exact hs.iterate
    · exact hs

/-! ## Whole runs -/

/-- **Streams are free of gaps if ticks end well.** For any responses, failures and reconnects: if
    no update of the sync that is followed fails, and no reset of an earlier sync leads back, then
    the events applied to a stream since its initialisation or last reset leave no event out. -/
theorem streams_gapFree (cookies : κ → Option Nat) (actions : List (SyncAction κ))
    (h : machine.Along EndsWell (new cookies) actions) :
    ∀ k, ∀ v ∈ (machine.exec (new cookies) actions).streams k, GapFree v := by
  have hnew : (new cookies).Sound := by
    refine ⟨⟨nofun, nofun⟩, fun k v hv => ?_⟩
    obtain ⟨cookie, _, rfl⟩ := Option.map_eq_some_iff.1 hv
    refine ⟨cookie, ⟨⟨le_rfl, nofun, fun n hge hlt => absurd hlt hge.not_gt, ?_⟩, nofun,
      fun _ => .inl ⟨rfl, rfl⟩⟩⟩
    rintro _ ⟨⟩
    exact le_rfl
  have hsound : (machine.exec (new cookies) actions).Sound :=
    Lib.Machine.exec_invariant_along
      (fun _ _ hs ha => hs.step ha) hnew h
  intro k v hv
  obtain ⟨f, hf⟩ := hsound.2 k v hv
  exact hf.gapFree

def exampleReconnect : List (SyncAction Nat) :=
  [.iterate, .syncNew, .syncUpdate 0 none 2, .tick, .syncError, .iterate, .syncNew,
    .tickEnd (.applyError 1), .syncUpdate 0 none 2, .tick, .tickEnd .applied]

theorem streams_gapFree_reconnect :
    (machine.exec (new fun k => if k = 0 then some 5 else none) exampleReconnect).streams 0
      = some ⟨5, some 7, [5, 5, 6]⟩ ∧ GapFree ⟨5, some 7, [5, 5, 6]⟩ :=
  ⟨rfl, streams_gapFree (fun k => if k = 0 then some 5 else none) exampleReconnect (by
    refine ⟨trivial, trivial, trivial, trivial, trivial, trivial, trivial, ?_, trivial, trivial, ?_,
      trivial⟩
    · rintro _ ⟨⟩ _ ⟨⟩
      exact nofun
    · rintro _ ⟨⟩ _ ⟨⟩
      rfl) 0 _ rfl⟩

/-- **An update that fails is skipped.** Two updates of a stream at event 5 arrive. The first cannot
    be unpacked. The second is applied and moves the cookie to 9: events 5 and 6 are lost, also
    for every later sync. -/
theorem streams_gap :
    let s := machine.exec (new fun k : Nat => if k = 0 then some 5 else none)
      [.iterate, .syncNew, .syncUpdate 0 none 2, .syncUpdate 0 none 2, .tick, .tickEnd .unpackError,
        .tick, .tickEnd .applied]
    s.streams 0 = some ⟨5, some 9, [7, 8]⟩ ∧ ¬∀ v ∈ s.streams 0, GapFree v := by
  refine ⟨rfl, fun h => ?_⟩
  have hmem := h _ rfl 5 le_rfl (.inl ⟨7, mem_cons_self, by decide⟩)
  exact absurd hmem (by decide)

end SyncedStreams

end River.Sdk
