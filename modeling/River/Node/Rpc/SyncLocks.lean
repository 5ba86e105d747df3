/-
  The locks of streams and of sync subscriptions (core/node/events/stream.go,
  core/node/rpc/sync_subscription.go).

  `OnUpdate` takes the lock of a subscription under the lock of a stream, `unsubLocalStreams` the
  other way round.
-/

import River.Node.Rpc.SyncSubscription

namespace River.Node

open Function

inductive SyncLock (χ σ : Type _) where
  | stream (x : χ)
  | subscription (y : σ)
  deriving DecidableEq

inductive StreamWork (σ : Type _) where
  | fails
  | notifySubscribers
  | sub (y : σ)

inductive SyncTask (χ σ : Type _) where
  | idle
  | streamLock (x : χ) (work : StreamWork σ)
  | streamHeld (x : χ) (work : StreamWork σ)
  | notify (x : χ) (receivers : List σ)
  | send (x : χ) (y : σ) (receivers : List σ)
  | errorLock (y : σ) (caller : Option (χ × List σ))
  | errorHeld (y : σ) (caller : Option (χ × List σ))
  | errorCancel (y : σ) (caller : Option (χ × List σ))
  | onSyncError (y : σ)
  | addLock (y : σ) (x : χ) (work : StreamWork σ)
  | addHeld (y : σ) (x : χ) (work : StreamWork σ)
  | removeLock (y : σ) (x : χ)
  | removeHeld (y : σ) (x : χ)
  | unsubLock (x : χ) (y : σ) (all : Bool)
  | unsubHeld (x : χ) (y : σ) (all : Bool)
  | unsubAllLock (y : σ)
  | unsubAllHeld (y : σ)

inductive SyncLockCall (χ σ : Type _) where
  | stream (x : χ) (work : StreamWork σ)
  | addLocalStream (y : σ) (x : χ) (fails : Bool)
  | removeLocalStream (y : σ) (x : χ)
  | unsubLocalStreams (y : σ)
  | onSyncError (y : σ)
  | dispatchError (y : σ)

inductive SyncLockAction (γ χ σ : Type _) where
  | start (g : γ) (call : SyncLockCall χ σ)
  | run (g : γ) (choice : Nat)
  | receive (y : σ)
  | cancel (y : σ)

structure SyncLocks (γ χ σ : Type _) where
  tasks : γ → SyncTask χ σ
  holder : SyncLock χ σ → Option γ
  receivers : χ → List σ
  localStreams : σ → List χ
  cancelled : σ → Bool
  fill : σ → Nat

namespace SyncTask

variable {χ σ : Type _}

def start : SyncLockCall χ σ → SyncTask χ σ
  | .stream x work => .streamLock x work
  | .addLocalStream y x fails => .addLock y x (if fails then .fails else .sub y)
  | .removeLocalStream y x => .removeLock y x
  | .unsubLocalStreams y => .unsubAllLock y
  | .onSyncError y => .onSyncError y
  | .dispatchError y => .errorLock y none

def resume : Option (χ × List σ) → SyncTask χ σ
  | none => .idle
  | some (x, receivers) => .notify x receivers

def wants : SyncTask χ σ → Option (SyncLock χ σ)
  | .streamLock x _ | .unsubLock x _ _ => some (.stream x)
  | .errorLock y _ | .addLock y _ _ | .removeLock y _ | .unsubAllLock y => some (.subscription y)
  | _ => none

def acquired : SyncTask χ σ → SyncTask χ σ
  | .streamLock x work => .streamHeld x work
  | .unsubLock x y all => .unsubHeld x y all
  | .errorLock y caller => .errorHeld y caller
  | .addLock y x work => .addHeld y x work
  | .removeLock y x => .removeHeld y x
  | .unsubAllLock y => .unsubAllHeld y
  | task => task

def holds : SyncTask χ σ → List (SyncLock χ σ)
  | .streamHeld x _ | .notify x _ | .send x _ _ => [.stream x]
  | .errorLock _ caller | .errorCancel _ caller => caller.toList.map (.stream ·.1)
  | .errorHeld y caller => .subscription y :: caller.toList.map (.stream ·.1)
  | .addHeld y _ _ | .removeHeld y _ | .unsubAllHeld y => [.subscription y]
  | .unsubLock _ y all => if all then [.subscription y] else []
  | .unsubHeld x y all => .stream x :: if all then [.subscription y] else []
  | _ => []

def cancels : SyncTask χ σ → Option σ
  | .errorLock y (some _) => some y
  | _ => none

def unsubscribes : SyncTask χ σ → Option σ
  | .unsubAllHeld y | .unsubLock _ y true | .unsubHeld _ y true => some y
  | _ => none

theorem nodup_holds (task : SyncTask χ σ) : task.holds.Nodup := by
  cases task with
  | errorHeld y caller | errorLock y caller | errorCancel y caller => cases caller <;> simp [holds]
  | unsubLock x y all | unsubHeld x y all => cases all <;> simp [holds]
  | _ => simp [holds]

theorem holds_acquired {task : SyncTask χ σ} (h : task.wants = some l) :
    task.acquired.holds = l :: task.holds := by
  cases task <;> cases h <;> rfl

theorem cancels_acquired (task : SyncTask χ σ) : task.acquired.cancels = none := by
  cases task <;> rfl

theorem unsubscribes_acquired {task : SyncTask χ σ} (h : task.acquired.unsubscribes = some y) :
    task.unsubscribes = some y ∨ task = .unsubAllLock y := by
  cases task with
  | unsubLock x y' all => cases all <;> exact .inl h
  | unsubAllLock y' => cases h; exact .inr rfl
  | _ => exact .inl h

theorem wants_of_holds {task : SyncTask χ σ} {l l' : SyncLock χ σ} (hwants : task.wants = some l)
    (hholds : l' ∈ task.holds) :
    (∃ x y, task.cancels = some y ∧ l = .subscription y ∧ l' = .stream x) ∨
      ∃ x y, task.unsubscribes = some y ∧ l = .stream x ∧ l' = .subscription y := by
  cases task with
  | errorLock y caller =>
    cases hwants
    cases caller with
    | none => cases hholds
    | some caller => exact .inl ⟨caller.1, y, rfl, rfl, List.mem_singleton.1 hholds⟩
  | unsubLock x y all =>
    cases hwants
    cases all with
    | false => cases hholds
    | true => exact .inr ⟨x, y, rfl, rfl, List.mem_singleton.1 hholds⟩
  | streamLock x work => cases hholds
  | addLock y x work => cases hholds
  | removeLock y x => cases hholds
  | unsubAllLock y => cases hholds
  | _ => cases hwants

end SyncTask

namespace SyncLocks

variable {γ χ σ : Type _}

/-- Task `g` wants a lock that `g'` holds. -/
def WaitsFor (s : SyncLocks γ χ σ) (g g' : γ) : Prop :=
  ∃ l, (s.tasks g).wants = some l ∧ s.holder l = some g'

variable [DecidableEq γ] [DecidableEq χ] [DecidableEq σ]

def new (fill : σ → Nat) : SyncLocks γ χ σ :=
  ⟨fun _ => .idle, fun _ => none, fun _ => [], fun _ => [], fun _ => false, fill⟩

def goto (g : γ) (task : SyncTask χ σ) (s : SyncLocks γ χ σ) : SyncLocks γ χ σ :=
  { s with tasks := update s.tasks g task }

def release (l : SyncLock χ σ) (s : SyncLocks γ χ σ) : SyncLocks γ χ σ :=
  { s with holder := update s.holder l none }

def advance (g : γ) (choice : Nat) (s : SyncLocks γ χ σ) : SyncLocks γ χ σ :=
  match s.tasks g with
  | .streamHeld x .fails => s.goto g (.notify x [])
  | .streamHeld x .notifySubscribers => s.goto g (.notify x (s.receivers x))
  | .streamHeld x (.sub y) =>
    { s with receivers := update s.receivers x ((s.receivers x).insert y) }.goto g
      (.notify x [y])
  | .notify x [] => (s.release (.stream x)).goto g .idle
  -- `OnUpdate` returns if the context is done
  | .notify x (y :: receivers) =>
    s.goto g (if s.cancelled y then .notify x receivers else .send x y receivers)
  | .send x y receivers =>
    if s.fill y < dataChannelCapacity then
      { s with fill := update s.fill y (s.fill y + 1) }.goto g (.notify x receivers)
    else s.goto g (.errorLock y (some (x, receivers)))
  | .errorHeld y caller => (s.release (.subscription y)).goto g (.errorCancel y caller)
  | .errorCancel y caller =>
    { s with cancelled := update s.cancelled y true }.goto g (.resume caller)
  | .onSyncError y => s.goto g (if s.cancelled y then .idle else .errorLock y none)
  | .addHeld y x work =>
    if x ∈ s.localStreams y then (s.release (.subscription y)).goto g .idle
    else
      ({ s with localStreams := update s.localStreams y (x :: s.localStreams y) }.release
        (.subscription y)).goto g (.streamLock x work)
  | .removeHeld y x =>
    if x ∈ s.localStreams y then
      ({ s with
          localStreams := update s.localStreams y ((s.localStreams y).erase x) }.release
        (.subscription y)).goto g (.unsubLock x y false)
    else (s.release (.subscription y)).goto g .idle
  | .unsubHeld x y all =>
    { s.release (.stream x) with
      receivers := update s.receivers x ((s.receivers x).erase y)
      localStreams := if all then
          update s.localStreams y ((s.localStreams y).erase x)
        else s.localStreams }.goto g (if all then .unsubAllHeld y else .idle)
  | .unsubAllHeld y =>
    match (s.localStreams y)[choice]? with
    | some x => s.goto g (.unsubLock x y true)
    | none => if s.localStreams y = [] then (s.release (.subscription y)).goto g .idle else s
  | _ => s

def run (g : γ) (choice : Nat) (s : SyncLocks γ χ σ) : SyncLocks γ χ σ :=
  match (s.tasks g).wants with
  | some l =>
    if s.holder l = none then
      { s with holder := update s.holder l (some g) }.goto g (s.tasks g).acquired
    else s
  | none => s.advance g choice

def step (s : SyncLocks γ χ σ) : SyncLockAction γ χ σ → SyncLocks γ χ σ
  | .start g call =>
    match s.tasks g with
    | .idle => s.goto g (.start call)
    | _ => s
  | .run g choice => s.run g choice
  | .receive y => { s with fill := update s.fill y (s.fill y - 1) }
  | .cancel y => { s with cancelled := update s.cancelled y true }

/-- Tasks and the locks they take. -/
def machine : Lib.Machine (SyncLocks γ χ σ) (SyncLockAction γ χ σ) Unit :=
  ⟨fun s a => (s.step a, ())⟩

/-! ## One step -/

/-- Sends that wait, unsubscribes and cancels are apart. -/
def Apart (s : SyncLocks γ χ σ) : SyncLockAction γ χ σ → Prop
  | .run g _ =>
    match s.tasks g with
    | .send _ y _ => s.fill y ≥ dataChannelCapacity → ∀ g', (s.tasks g').unsubscribes ≠ some y
    | .unsubAllLock y => ∀ g', (s.tasks g').cancels ≠ some y
    | _ => True
  | _ => True

inductive LockMove (s t : SyncLocks γ χ σ) (g : γ) (task : SyncTask χ σ) : Prop where
  | keep (hholder : t.holder = s.holder) (hholds : task.holds = (s.tasks g).holds)
  | release (l : SyncLock χ σ) (hholder : t.holder = update s.holder l none)
      (hholds : (s.tasks g).holds = l :: task.holds)
  | take (l : SyncLock χ σ) (hfree : s.holder l = none)
      (hholder : t.holder = update s.holder l (some g))
      (hholds : task.holds = l :: (s.tasks g).holds)

structure Moves (s t : SyncLocks γ χ σ) (g : γ) (task : SyncTask χ σ) : Prop where
  tasks : t.tasks = update s.tasks g task
  lock : LockMove s t g task
  cancels : ∀ y ∈ task.cancels,
    ∃ x receivers, s.tasks g = .send x y receivers ∧ s.fill y ≥ dataChannelCapacity
  unsubscribes : ∀ y ∈ task.unsubscribes,
    (s.tasks g).unsubscribes = some y ∨ s.tasks g = .unsubAllLock y

theorem advance_moves (s : SyncLocks γ χ σ) (g : γ) (choice : Nat) :
    s.advance g choice = s ∨ ∃ task, Moves s (s.advance g choice) g task := by
  unfold advance
  cases htask : s.tasks g with
  | streamHeld x work =>
    cases work <;> exact .inr ⟨_, rfl, .keep rfl (by rw [htask]; rfl), nofun, nofun⟩
  | notify x receivers =>
    cases receivers with
    | nil => exact .inr ⟨_, rfl, .release (.stream x) rfl (by rw [htask]; rfl), nofun, nofun⟩
    | cons y receivers =>
      refine .inr ⟨_, rfl, .keep rfl ?_, ?_, ?_⟩
      all_goals split
      all_goals first | (rw [htask]; rfl) | exact nofun
  | send x y receivers =>
    dsimp only
    split
    · exact .inr ⟨_, rfl, .keep rfl (by rw [htask]; rfl), nofun, nofun⟩
    rename_i hfull
    refine .inr ⟨_, rfl, .keep rfl (by rw [htask]; rfl), ?_, nofun⟩
    rintro _ ⟨⟩
    exact ⟨x, receivers, htask, not_lt.1 hfull⟩
  | errorHeld y caller =>
    exact .inr ⟨_, rfl, .release (.subscription y) rfl (by rw [htask]; rfl), nofun, nofun⟩
  | errorCancel y caller =>
    cases caller <;> exact .inr ⟨_, rfl, .keep rfl (by rw [htask]; rfl), nofun, nofun⟩
  | onSyncError y =>
    refine .inr ⟨_, rfl, .keep rfl ?_, ?_, ?_⟩
    all_goals split
    all_goals first | (rw [htask]; rfl) | exact nofun
  | addHeld y x work | removeHeld y x =>
    dsimp only
    split
    all_goals exact .inr ⟨_, rfl, .release (.subscription y) rfl (by rw [htask]; rfl), nofun, nofun⟩
  | unsubHeld x y all =>
    refine .inr ⟨_, rfl, .release (.stream x) rfl (by rw [htask]; cases all <;> rfl), ?_, ?_⟩
    · cases all <;> exact nofun
    · cases all with
      | false => exact nofun
      | true => rintro _ ⟨⟩; exact .inl (by rw [htask]; rfl)
  | unsubAllHeld y =>
    dsimp only
    split
    · refine .inr ⟨_, rfl, .keep rfl (by rw [htask]; rfl), nofun, ?_⟩
      rintro _ ⟨⟩
      exact .inl (by rw [htask]; rfl)
    · split
      · exact .inr ⟨_, rfl, .release (.subscription y) rfl (by rw [htask]; rfl), nofun, nofun⟩
      · exact .inl rfl
  | _ => exact .inl rfl

open SyncTask

theorem run_moves (s : SyncLocks γ χ σ) (g : γ) (choice : Nat) :
    s.run g choice = s ∨ ∃ task, Moves s (s.run g choice) g task := by
  unfold run
  cases hwants : (s.tasks g).wants with
  | none => exact s.advance_moves g choice
  | some l =>
    dsimp only
    split
    · rename_i hfree
      refine .inr ⟨_, rfl, .take l hfree rfl (holds_acquired hwants), ?_, ?_⟩
      · rw [cancels_acquired]
        exact nofun
      · exact fun y => unsubscribes_acquired
    · exact .inl rfl

/-! ## What every step keeps -/

def Locked (s : SyncLocks γ χ σ) : Prop := ∀ l g, s.holder l = some g ↔ l ∈ (s.tasks g).holds

def Disjoint (s : SyncLocks γ χ σ) : Prop :=
  ∀ g g' y, (s.tasks g).cancels = some y → (s.tasks g').unsubscribes ≠ some y

theorem Locked.move {s t : SyncLocks γ χ σ} (h : s.Locked)
    (htasks : t.tasks = update s.tasks g task) (hmove : LockMove s t g task) :
    t.Locked := by
  intro l g'
  rw [htasks]
  by_cases hg : g' = g
  · subst hg
    rw [update_self]
    cases hmove with
    | keep hholder hholds => rw [hholder, hholds, h l g']
    | release l' hholder hholds =>
      have hnew : l' ∉ task.holds := (List.nodup_cons.1 (hholds ▸ (s.tasks g').nodup_holds)).1
      rw [hholder]
      by_cases hl : l = l'
      · rw [hl, update_self]
        exact iff_of_false nofun hnew
      · rw [update_of_ne hl, h l g', hholds, List.mem_cons, or_iff_right hl]
    | take l' hfree hholder hholds =>
      rw [hholder, hholds, List.mem_cons]
      by_cases hl : l = l'
      · rw [hl, update_self]
        exact iff_of_true rfl (.inl rfl)
      · rw [update_of_ne hl, h l g', or_iff_right hl]
  · rw [update_of_ne hg]
    cases hmove with
    | keep hholder hholds => rw [hholder, h l g']
    | release l' hholder hholds =>
      rw [hholder]
      by_cases hl : l = l'
      · -- the released lock was held by the goroutine that moves
        subst hl
        have hheld : s.holder l = some g := (h l g).2 (hholds ▸ List.mem_cons_self)
        rw [update_self, ← h l g', hheld]
        exact iff_of_false nofun fun heq => hg (Option.some.inj heq).symm
      · rw [update_of_ne hl, h l g']
    | take l' hfree hholder hholds =>
      rw [hholder]
      by_cases hl : l = l'
      · subst hl
        rw [update_self, ← h l g', hfree]
        exact iff_of_false (fun heq => hg (Option.some.inj heq).symm) nofun
      · rw [update_of_ne hl, h l g']

omit [DecidableEq χ] [DecidableEq σ] in
theorem Disjoint.move {s t : SyncLocks γ χ σ} (h : s.Disjoint)
    (htasks : t.tasks = update s.tasks g task)
    (hcancels : ∀ y ∈ task.cancels, ∀ g', (s.tasks g').unsubscribes ≠ some y)
    (hunsubscribes : ∀ y ∈ task.unsubscribes, ∀ g', (s.tasks g').cancels ≠ some y) :
    t.Disjoint := by
  intro g1 g2 y h1 h2
  rw [htasks] at h1 h2
  by_cases hg1 : g1 = g
  · by_cases hg2 : g2 = g
    · rw [hg1, update_self] at h1
      rw [hg2, update_self] at h2
      cases task <;> first | cases h1 | cases h2
    · rw [hg1, update_self] at h1
      rw [update_of_ne hg2] at h2
      exact hcancels y h1 g2 h2
  · rw [update_of_ne hg1] at h1
    by_cases hg2 : g2 = g
    · rw [hg2, update_self] at h2
      exact hunsubscribes y h2 g1 h1
    · rw [update_of_ne hg2] at h2
      exact h g1 g2 y h1 h2

theorem sound_step {s : SyncLocks γ χ σ} (hs : s.Locked ∧ s.Disjoint)
    (ha : s.Apart a) : (s.step a).Locked ∧ (s.step a).Disjoint := by
  obtain ⟨hlocked, hdisjoint⟩ := hs
  cases a with
  | start g call =>
    unfold step
    dsimp only
    split
    · rename_i hidle
      refine ⟨hlocked.move rfl (.keep rfl ?_), hdisjoint.move rfl ?_ ?_⟩
      · rw [hidle]
        cases call <;> rfl
      all_goals cases call <;> exact nofun
    · exact ⟨hlocked, hdisjoint⟩
  | run g choice =>
    obtain hsame | ⟨_, htasks, hlock, hcancels, hunsubscribes⟩ := s.run_moves g choice
    · show (s.run g choice).Locked ∧ (s.run g choice).Disjoint
      rw [hsame]
      exact ⟨hlocked, hdisjoint⟩
    · refine ⟨hlocked.move htasks hlock, hdisjoint.move htasks (fun y hy => ?_) fun y hy => ?_⟩
      · obtain ⟨x, _, htask, hfull⟩ := hcancels y hy
        simp only [Apart, htask] at ha
        exact ha hfull
      · obtain hold | htask := hunsubscribes y hy
        · exact fun g' hg' => hdisjoint g' g y hg' hold
        · simp only [Apart, htask] at ha
          exact ha
  | _ => exact ⟨hlocked, hdisjoint⟩

/-! ## No cycle -/

omit [DecidableEq γ] [DecidableEq χ] [DecidableEq σ] in
theorem next_of_cycle {s : SyncLocks γ χ σ} (h : Relation.TransGen s.WaitsFor g g) :
    ∃ g', s.WaitsFor g g' ∧ Relation.TransGen s.WaitsFor g' g' := by
  obtain ⟨g', hwaits, hrest⟩ := Relation.TransGen.head'_iff.1 h
  exact ⟨g', hwaits, .tail' hrest hwaits⟩

omit [DecidableEq γ] [DecidableEq χ] [DecidableEq σ] in
theorem no_cycle {s : SyncLocks γ χ σ} (hlocked : s.Locked) (hdisjoint : s.Disjoint) (g : γ) :
    ¬Relation.TransGen s.WaitsFor g g := by
  -- a goroutine at a full channel is followed by one that holds the subscription and waits
  have hfull : ∀ g y, (s.tasks g).cancels = some y → (s.tasks g).wants = some (.subscription y) →
      ¬Relation.TransGen s.WaitsFor g g := by
    intro g y hcancels hwants hcycle
    obtain ⟨g', ⟨l, hl, hholder⟩, hcycle'⟩ := next_of_cycle hcycle
    obtain rfl : .subscription y = l := Option.some.inj (hwants.symm.trans hl)
    obtain ⟨_, ⟨_, hl', _⟩, _⟩ := next_of_cycle hcycle'
    obtain ⟨_, _, _, _, heq⟩ | ⟨_, y', hunsubscribes, _, heq⟩ :=
      wants_of_holds hl' ((hlocked _ g').1 hholder)
    · cases heq
    · cases heq
      exact hdisjoint g g' y hcancels hunsubscribes
  intro hcycle
  obtain ⟨g1, ⟨l, _, hholder⟩, hcycle1⟩ := next_of_cycle hcycle
  obtain ⟨g2, ⟨_, hl1, hholder1⟩, hcycle2⟩ := next_of_cycle hcycle1
  obtain ⟨x, y, hcancels, rfl, _⟩ | ⟨x, y, _, rfl, _⟩ :=
    wants_of_holds hl1 ((hlocked l g1).1 hholder)
  · exact hfull g1 y hcancels hl1 hcycle1
  -- `unsubLocalStreams` waits for a stream, whose holder is at a full channel
  obtain ⟨_, ⟨_, hl2, _⟩, _⟩ := next_of_cycle hcycle2
  obtain ⟨_, y', hcancels, rfl, _⟩ | ⟨_, _, _, _, heq⟩ :=
    wants_of_holds hl2 ((hlocked _ g2).1 hholder1)
  · exact hfull g2 y' hcancels hl2 hcycle2
  · cases heq

/-- **Locks are taken without deadlock if full channels and `unsubLocalStreams` stay apart.** In
    every interleaving of the calls, over any streams, subscriptions and fill levels: as long as
    they do not meet at one subscription, no goroutines wait for each other in a cycle. -/
theorem locks_no_deadlock (fill : σ → Nat) (actions : List (SyncLockAction γ χ σ))
    (h : machine.Along Apart (new fill) actions) (g : γ) :
    ¬Relation.TransGen (machine.exec (new fill) actions).WaitsFor g g := by
  have hnew : (new fill : SyncLocks γ χ σ).Locked ∧ (new fill : SyncLocks γ χ σ).Disjoint :=
    ⟨fun _ _ => iff_of_false nofun nofun, fun _ _ _ => nofun⟩
  have hrun := Lib.Machine.exec_invariant_along (M := machine)
    (I := fun s => s.Locked ∧ s.Disjoint) (fun _ _ hs ha => sound_step hs ha) hnew h
  exact no_cycle hrun.1 hrun.2 g

def exampleEvent : List (SyncLockAction Nat Nat Nat) :=
  [.start 0 (.addLocalStream 0 0 false), .run 0 0, .run 0 0, .run 0 0, .run 0 0, .run 0 0, .run 0 0,
    .run 0 0, .start 1 (.stream 0 .notifySubscribers), .run 1 0, .run 1 0, .run 1 0, .run 1 0]

theorem locks_no_deadlock_at_full_channel :
    ¬Relation.TransGen (machine.exec (new fun _ : Nat => 255) exampleEvent).WaitsFor 1 1 :=
  locks_no_deadlock (fun _ => 255) exampleEvent
    (by
      refine ⟨trivial, trivial, trivial, trivial, trivial, trivial, ?_, trivial, trivial, trivial,
        trivial, trivial, ?_, trivial⟩
      · exact fun hfull => absurd hfull (by decide)
      · rintro _ (_ | _ | g) hg <;> cases hg) 1

/-- **Deadlock.** While the event waits for the lock of the subscription, `unsubLocalStreams` has
    taken it and waits for the lock of the stream. -/
theorem locks_deadlock :
    let s := machine.exec (new fun _ : Nat => 255)
      (exampleEvent ++ [.start 2 (.unsubLocalStreams 0), .run 2 0, .run 2 0])
    s.WaitsFor 1 2 ∧ s.WaitsFor 2 1 :=
  ⟨⟨.subscription 0, rfl, rfl⟩, ⟨.stream 0, rfl, rfl⟩⟩

end SyncLocks

end River.Node
