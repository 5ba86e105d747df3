/-
  The sync loop of a client (`createSyncLoop`, core/sdk/src/syncedStreams.ts).

  A loop runs from one await to the next in one action. `loops` are those that have not ended.
-/

import River.Sdk.SyncedStreams

namespace River.Sdk

def stateConstraints : SyncState → List SyncState
  | .notSyncing => [.starting]
  | .starting => [.syncing, .retrying, .canceling]
  | .syncing => [.canceling, .retrying]
  | .retrying => [.starting, .canceling, .syncing, .retrying]
  | .canceling => [.notSyncing]

inductive LoopAwait where
  | response | retry
  deriving DecidableEq

structure SyncLoops where
  syncState : SyncState
  syncId : Option String
  syncLoop : Bool
  loops : List LoopAwait

inductive LoopAction where
  | startSyncStreams
  | stopSync
  | syncNew (loop : Nat) (syncId : String)
  | syncClose (loop : Nat)
  | syncUpdate (loop : Nat)
  | done (loop : Nat)
  | error (loop : Nat)
  | releaseRetryWait (loop : Nat)

namespace SyncLoops

def new : SyncLoops := ⟨.notSyncing, none, false, []⟩

variable (s : SyncLoops)

def stopped : SyncLoops × Option LoopAwait :=
  if .notSyncing ∈ stateConstraints s.syncState then
    ({ s with syncState := .notSyncing, syncId := none }, none)
  else (s, none)

def iteration : SyncLoops × Option LoopAwait :=
  match s.syncState with
  | .starting | .syncing => ({ s with syncId := none }, some .response)
  | .retrying => ({ s with syncState := .starting, syncId := none }, some .response)
  | _ => s.stopped

def nextResponse : SyncLoops × Option LoopAwait :=
  match s.syncState with
  | .starting | .syncing => (s, some .response)
  | _ => s.iteration

def attemptRetry : SyncLoops × Option LoopAwait :=
  if .retrying ∈ stateConstraints s.syncState then
    (if s.syncState = .retrying then s else { s with syncState := .retrying, syncId := none },
      some .retry)
  else s.iteration

def syncStarted (syncId : String) : SyncLoops :=
  if s.syncId = none ∧ .syncing ∈ stateConstraints s.syncState then
    { s with syncState := .syncing, syncId := some syncId }
  else s

def syncClosed : SyncLoops × Option LoopAwait :=
  if s.syncState = .canceling then s.nextResponse
  -- `setSyncState` throws into the error handler of the loop
  else if s.syncState = .retrying ∨ .retrying ∉ stateConstraints s.syncState then s.attemptRetry
  else nextResponse { s with syncState := .retrying }

def createSyncLoop : SyncLoops × Bool :=
  let starts := decide (.starting ∈ stateConstraints s.syncState)
  -- `reject` does not return
  let r := (if starts then { s with syncState := .starting } else s).iteration
  ({ r.1 with syncLoop := true, loops := s.loops ++ r.2.toList }, !starts || s.syncLoop)

def resume (loop : Nat) (await : LoopAwait) (r : SyncLoops × Option LoopAwait) : SyncLoops :=
  if s.loops[loop]? = some await then
    { r.1 with loops := match r.2 with
      | some await => s.loops.set loop await
      | none => s.loops.eraseIdx loop }
  else s

/-- The outcome is whether a promise of `startSyncStreams` is rejected. -/
def machine : Lib.Machine SyncLoops LoopAction Bool where
  step s
    | .startSyncStreams => s.createSyncLoop
    | .stopSync =>
      (if .canceling ∈ stateConstraints s.syncState then { s with syncState := .canceling } else s,
        false)
    | .syncNew loop syncId => (s.resume loop .response (s.syncStarted syncId).nextResponse, false)
    | .syncClose loop => (s.resume loop .response s.syncClosed, false)
    | .syncUpdate loop => (s.resume loop .response s.nextResponse, false)
    | .done loop => (s.resume loop .response s.stopped, false)
    | .error loop => (s.resume loop .response s.attemptRetry, false)
    | .releaseRetryWait loop => (s.resume loop .retry s.iteration, false)

def calm : LoopAction → Bool
  | .startSyncStreams => !s.syncLoop
  | .done _ => s.syncState = .canceling
  | _ => true

structure OneLoop : Prop where
  length_le : s.loops.length ≤ 1
  notSyncing : s.syncState = .notSyncing ↔ s.loops = []
  started : s.syncLoop = false → s.loops = []

variable {s}

def Ends (s : SyncLoops) (r : SyncLoops × Option LoopAwait) : Prop :=
  (r.1.syncState = .notSyncing ↔ r.2 = none) ∧ r.1.syncLoop = s.syncLoop

theorem OneLoop.resume (hs : s.OneLoop) (loop : Nat) (await : LoopAwait)
    (hr : s.syncState ≠ .notSyncing → s.Ends r) : (s.resume loop await r).OneLoop := by
  unfold SyncLoops.resume
  split
  · rename_i hloop
    obtain ⟨hlt, -⟩ := List.getElem?_eq_some_iff.1 hloop
    obtain ⟨p, hp⟩ := List.length_eq_one_iff.1 (Nat.le_antisymm hs.length_le (by omega))
    obtain ⟨hends, hset⟩ := hr fun hnot => by simp [hs.notSyncing.1 hnot] at hp
    obtain rfl : loop = 0 := by simpa [hp] using hlt
    have hstarted := hs.started
    cases hawait : r.2 <;> constructor <;> simp_all
  · exact hs

theorem ends (h : s.syncState ≠ .notSyncing) :
    s.Ends s.iteration ∧ s.Ends s.nextResponse ∧ s.Ends s.attemptRetry ∧ s.Ends s.syncClosed := by
  unfold Ends syncClosed attemptRetry nextResponse iteration stopped
  cases hstate : s.syncState <;> simp_all [stateConstraints]

theorem syncStarted_ends (h : s.syncState ≠ .notSyncing) (syncId : String) :
    s.Ends (s.syncStarted syncId).nextResponse := by
  unfold syncStarted
  split
  · exact ⟨iff_of_false nofun nofun, rfl⟩
  · exact (ends h).2.1

theorem OneLoop.next (hs : s.OneLoop) (a : LoopAction) (ha : s.calm a = true) :
    (machine.next s a).OneLoop := by
  unfold Lib.Machine.next machine
  cases a with
  | startSyncStreams =>
    have hloops := hs.started (by simpa [calm] using ha)
    have hstate := hs.notSyncing.2 hloops
    constructor <;> simp [createSyncLoop, iteration, stateConstraints, hstate, hloops]
  | stopSync =>
    obtain ⟨hle, hnot, hstarted⟩ := hs
    dsimp only
    split
    · rename_i hcancel
      refine ⟨hle, iff_of_false nofun fun hnil => ?_, hstarted⟩
      simp [hnot.2 hnil, stateConstraints] at hcancel
    · exact ⟨hle, hnot, hstarted⟩
  | syncNew loop syncId => exact hs.resume _ _ fun h => syncStarted_ends h syncId
  | syncClose loop => exact hs.resume _ _ fun h => (ends h).2.2.2
  | syncUpdate loop => exact hs.resume _ _ fun h => (ends h).2.1
  | done loop =>
    have hcanceling : s.syncState = .canceling := of_decide_eq_true ha
    exact hs.resume _ _ fun _ => by simp [Ends, stopped, hcanceling, stateConstraints]
  | error loop => exact hs.resume _ _ fun h => (ends h).2.2.1
  | releaseRetryWait loop => exact hs.resume _ _ fun h => (ends h).1

/-- **Sync loop.** If `startSyncStreams` is called once and the stream of responses ends only
    while canceling, at most one loop is running, the state is `NotSyncing` exactly if none is,
    and a call that is rejected has started no loop. -/
theorem one_sync_loop (acts : List LoopAction)
    (hacts : machine.Along (fun s a => s.calm a) new acts) :
    let s := machine.exec new acts
    s.loops.length ≤ 1 ∧ (s.syncState = .notSyncing ↔ s.loops = []) ∧
      ∀ a, s.calm a → machine.out s a = true → (machine.next s a).loops = s.loops := by
  intro s
  have hs : s.OneLoop := Lib.Machine.exec_invariant_along (fun _ a h ha => h.next a ha)
    ⟨Nat.zero_le _, iff_of_true rfl rfl, fun _ => rfl⟩ hacts
  refine ⟨hs.length_le, hs.notSyncing, fun a ha hrejected => ?_⟩
  cases a with
  | startSyncStreams =>
    have hset : s.syncLoop = false := by simpa [calm] using ha
    have hstate := hs.notSyncing.2 (hs.started hset)
    simp [Lib.Machine.out, machine, createSyncLoop, stateConstraints, hstate, hset] at hrejected
  | _ => cases hrejected

def sampleLoop : List LoopAction :=
  [.startSyncStreams, .syncNew 0 "a", .error 0, .releaseRetryWait 0, .syncNew 0 "b"]

theorem one_sync_loop_sample :
    let s := machine.exec new (sampleLoop ++ [.stopSync, .syncClose 0])
    s.syncState = .notSyncing ∧ s.loops = [] :=
  ⟨rfl, (one_sync_loop _ (by decide)).2.1.1 rfl⟩

/-- A second call is rejected and starts a second loop; so is a call after the first loop has
    ended; and the end of the stream ends the loop in state `Syncing`. -/
theorem rejected_sync_loop :
    let s := machine.exec new sampleLoop
    machine.out s .startSyncStreams = true ∧
      (machine.next s .startSyncStreams).loops = [.response, .response] ∧
      (machine.out (machine.exec s [.stopSync, .syncClose 0]) .startSyncStreams = true ∧
        (machine.exec s [.stopSync, .syncClose 0, .startSyncStreams]).loops = [.response]) ∧
      (machine.next s (.done 0)).loops = [] ∧ (machine.next s (.done 0)).syncState = .syncing := by
  decide

/-! ## The loop of the synced streams -/

section Simulation

variable {κ : Type _} {l : SyncLoops} {s : SyncedStreams κ}

/-- The loop of `SyncedStreams` is one of these, at its await. -/
structure Runs (l : SyncLoops) (s : SyncedStreams κ) : Prop where
  syncState : l.syncState = s.syncState
  syncId : l.syncId = none ↔ s.syncId = none
  loops : l.loops = if s.isOpen then [.response] else if s.syncState =
    .retrying then [.retry] else []
  isOpen : s.isOpen = true → s.syncState = if s.started then .syncing else .starting
  fresh : s.isOpen = true → s.started = false → s.syncId = none

theorem Runs.congr {s' : SyncedStreams κ} (h : Runs l s) (hstate : s'.syncState = s.syncState)
    (hid : s'.syncId = s.syncId) (hopen : s'.isOpen = s.isOpen)
    (hstarted : s'.started = s.started) :
    Runs l s' := by
  refine ⟨hstate ▸ h.syncState, hid ▸ h.syncId, ?_, ?_, ?_⟩
  · rw [hopen, hstate]
    exact h.loops
  · rw [hopen, hstate, hstarted]
    exact h.isOpen
  · rw [hopen, hstarted, hid]
    exact h.fresh

theorem runs_iterate (hl : l.syncState = .starting ∧ l.syncId = none ∧ l.loops = [.response])
    (s : SyncedStreams κ) : Runs l s.iterate :=
  ⟨hl.1, iff_of_true hl.2.1 rfl, hl.2.2, fun _ => rfl, fun _ _ => rfl⟩

theorem Runs.iterate (h : Runs l s) (hidle : s.syncState = .notSyncing ∨ s.syncState = .retrying) :
    ∃ acts, Runs (machine.exec l acts) s.iterate := by
  have hclosed : s.isOpen = false := by
    by_contra hisOpen
    have hrunning := h.isOpen (Bool.not_eq_false _ ▸ hisOpen)
    split at hrunning <;> simp [hrunning] at hidle
  have hloops := h.loops
  have hstate := h.syncState
  rcases hidle with hidle | hidle
  · refine ⟨[.startSyncStreams], runs_iterate ?_ s⟩
    simp [Lib.Machine.next, machine, createSyncLoop, iteration, stateConstraints, hstate, hidle,
      hloops, hclosed]
  · refine ⟨[.releaseRetryWait 0], runs_iterate ?_ s⟩
    simp [Lib.Machine.next, machine, resume, iteration, hstate, hidle, hloops, hclosed]

variable [DecidableEq κ]

/-- Between its awaits a loop makes the transitions of `SyncedStreams.step`. -/
theorem Runs.step (h : Runs l s) (a : SyncAction κ) :
    ∃ acts, Runs (machine.exec l acts) (s.step a) := by
  have hsame : ∃ acts, Runs (machine.exec l acts) s := ⟨[], h⟩
  have hstate := h.syncState
  have hloops := h.loops
  cases a with
  | iterate =>
    rw [SyncedStreams.step]
    split
    · exact h.iterate ‹_›
    · exact hsame
  | syncNew =>
    rw [SyncedStreams.step]
    split
    · rename_i hnew
      have hstarted : s.started = false := Bool.not_eq_true _ ▸ hnew.2
      have hfresh := h.fresh hnew.1 hstarted
      have hstarting := h.isOpen hnew.1
      rw [hstarted] at hstarting
      rw [if_pos ⟨hfresh, .inl hstarting⟩]
      refine ⟨[.syncNew 0 ""], ?_⟩
      have hid := h.syncId.2 hfresh
      constructor <;> simp [Lib.Machine.next, machine, resume, syncStarted, nextResponse,
        stateConstraints, hstate, hstarting, hloops, hnew.1, hid]
    · exact hsame
  | syncClose =>
    rw [SyncedStreams.step]
    split
    · rename_i hlive
      have hsyncing := h.isOpen hlive.1
      rw [hlive.2] at hsyncing
      refine ⟨[.syncClose 0], runs_iterate ?_ _⟩
      simp [Lib.Machine.next, machine, resume, syncClosed, nextResponse, iteration,
        stateConstraints, hstate, hsyncing, hloops, hlive.1]
    · exact hsame
  | syncError =>
    rw [SyncedStreams.step]
    split
    · rename_i hopen
      have hrunning := h.isOpen hopen
      refine ⟨[.error 0], ?_⟩
      cases hstarted : s.started <;> rw [hstarted] at hrunning <;> constructor <;>
        simp [Lib.Machine.next, machine, resume, attemptRetry, stateConstraints, hstate, hrunning,
          hloops, hopen]
    · exact hsame
  | done =>
    rw [SyncedStreams.step]
    by_cases hopen : s.isOpen = true
    · have hrunning := h.isOpen hopen
      have hid := h.syncId
      refine ⟨[.done 0], ?_⟩
      cases hstarted : s.started <;> rw [hstarted] at hrunning <;> constructor <;>
        simp [Lib.Machine.next, machine, resume, stopped, stateConstraints, hstate, hrunning,
          hloops, hopen, hid]
    · exact ⟨[], h.congr rfl rfl (by simpa using hopen) rfl⟩
  | syncUpdate k reset events =>
    rw [SyncedStreams.step]
    split
    · unfold SyncedStreams.syncUpdate
      split
      · exact hsame
      · exact ⟨[], h.congr rfl rfl rfl rfl⟩
    · exact hsame
  | tick =>
    refine ⟨[], ?_⟩
    rw [SyncedStreams.step, SyncedStreams.tick]
    dsimp only
    repeat' split
    all_goals exact h.congr rfl rfl rfl rfl
  | tickEnd outcome =>
    refine ⟨[], ?_⟩
    rw [SyncedStreams.step, SyncedStreams.tickEnd]
    split
    all_goals exact h.congr rfl rfl rfl rfl

/-- Every run of the synced streams is a run of the loop. -/
theorem exists_runs (cookies : κ → Option Nat) (acts : List (SyncAction κ)) :
    ∃ loopActs, Runs (machine.exec new loopActs)
      (SyncedStreams.machine.exec (SyncedStreams.new cookies) acts) := by
  have hnew : Runs new (SyncedStreams.new cookies) := by
    constructor <;> simp [new, SyncedStreams.new]
  refine Lib.Machine.exec_invariant (I := fun s => ∃ loopActs, Runs (machine.exec new loopActs) s)
    (fun s a h => ?_) ⟨[], hnew⟩ acts
  obtain ⟨loopActs, h⟩ := h
  obtain ⟨more, hmore⟩ := h.step a
  refine ⟨loopActs ++ more, ?_⟩
  rw [Lib.Machine.exec_append]
  exact hmore

end Simulation

end SyncLoops

end River.Sdk
