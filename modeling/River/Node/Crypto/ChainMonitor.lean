/-
  The polling loop that delivers blocks and logs of a chain to callbacks
  (core/node/crypto/chain_monitor.go, chain_monitor_builder.go and chain_utils.go).
-/

import Mathlib.Tactic.Ring
import River.Lib.Machine

namespace River.Node

open List

structure ChainLog where
  address : Nat
  topics : List Nat
  index : Nat
  deriving DecidableEq

inductive EventCallback where
  | allEvents
  | contractEvent (addr : Nat)
  | contractWithTopicsEvent (addr : Nat) (topics : List (List Nat))

namespace EventCallback

def address : EventCallback → Option Nat
  | .allEvents => none
  | .contractEvent addr | .contractWithTopicsEvent addr _ => some addr

def topics : EventCallback → List (List Nat)
  | .allEvents | .contractEvent _ => []
  | .contractWithTopicsEvent _ topics => topics

end EventCallback

def matchTopics (cbTopics : List (List Nat)) (logTopics : List Nat) : Bool :=
  if cbTopics = [] then true
  else if cbTopics.length > logTopics.length then false
  else (cbTopics.zip logTopics).all fun (allowed, topic) => allowed.contains topic

def EventCallback.accepts (cb : EventCallback) (log : ChainLog) : Bool :=
  (cb.address = none ∨ cb.address = some log.address) && matchTopics cb.topics log.topics

namespace ChainMonitor

variable (callbacks : List EventCallback)

def query : List Nat :=
  if callbacks.any fun cb => cb.address = none ∧ cb.topics = [] then []
  else (callbacks.filterMap EventCallback.address).eraseDups

variable (chain : Nat → List ChainLog)

def filterLogs (height : Nat) (addresses : List Nat) (fromBlock toBlock : Nat) : List ChainLog :=
  (range' fromBlock (min toBlock height + 1 - fromBlock)).flatMap fun n =>
    (chain n).filter fun log => addresses = [] ∨ log.address ∈ addresses

def blocksFor : Nat → List Nat → List Nat × Nat
  | fromBlock, [] => ([], fromBlock)
  | fromBlock, n :: blocks =>
    if fromBlock < n then (n :: (blocksFor n blocks).1, (blocksFor n blocks).2)
    else blocksFor fromBlock blocks

structure State where
  fromBlock : Nat
  lastProcessed : Option Nat
  blockCallbacks : List Nat

structure Poll where
  head : Option Nat
  height : Nat
  logsError : Bool

structure Delivery where
  blocks : List (List Nat)
  logs : List (List ChainLog)

def rangeEnd (fromBlock head : Nat) : Nat :=
  if (head % 2 ^ 64 + 2 ^ 64 - fromBlock % 2 ^ 64) % 2 ^ 64 > 25 then
    (fromBlock % 2 ^ 64 + 25) % 2 ^ 64
  else head

def poll (s : State) (p : Poll) : State × Delivery :=
  match p.head with
  | none => (s, ⟨[], []⟩)
  | some head =>
    if s.lastProcessed.any (· ≥ head) then (s, ⟨[], []⟩)
    else
      let toBlock := rangeEnd s.fromBlock head
      -- the counter of the source has 64 bits: at the largest one the loop would not end
      let newBlocks := range' (s.fromBlock % 2 ^ 64)
        (toBlock % 2 ^ 64 + 1 - s.fromBlock % 2 ^ 64)
      if callbacks ≠ [] ∧ p.logsError = true then (s, ⟨[], []⟩)
      else
        let collectedLogs := filterLogs chain p.height (query callbacks) s.fromBlock toBlock
        ({ fromBlock := toBlock + 1
           lastProcessed := some toBlock
           blockCallbacks := s.blockCallbacks.map fun cb => (blocksFor cb newBlocks).2 },
          { blocks := s.blockCallbacks.map fun cb => (blocksFor cb newBlocks).1
            logs := callbacks.map fun cb => collectedLogs.filter cb.accepts })

/-- The polls of the monitor. -/
def machine : Lib.Machine State Poll Delivery := ⟨poll callbacks chain⟩

def start (initialBlock blockCallbacks : Nat) : State :=
  ⟨initialBlock, none, replicate blockCallbacks 0⟩

def blocksTo (i : Nat) (s : State) (p : Poll) :
    List Nat := ((machine callbacks chain).out s p).blocks.getD i []

def logsTo (i : Nat) (s : State) (p : Poll) :
    List ChainLog := ((machine callbacks chain).out s p).logs.getD i []

/-- The head is on the chain and not before the start. -/
def Catches (s : State) (p : Poll) : Prop :=
  ∀ head ∈ p.head, head + 1 < 2 ^ 64 ∧ head ≤ p.height ∧
    (s.lastProcessed = none → s.fromBlock ≤ head)

/-! ## A range of blocks -/

theorem rangeEnd_bounds {fromBlock head : Nat} (hfrom : fromBlock ≤ head) (hhead : head < 2 ^ 64) :
    fromBlock ≤ rangeEnd fromBlock head ∧ rangeEnd fromBlock head ≤ head := by
  unfold rangeEnd
  split <;> omega

theorem blocksFor_range' {b n : Nat} (h : b < n) (len : Nat) :
    blocksFor b (range' n len) = (range' n len, if len = 0 then b else n + len - 1) := by
  induction len generalizing b n with
  | zero => rfl
  | succ len ih =>
    rw [range'_succ, blocksFor, if_pos h, ih (Nat.lt_succ_self n), if_neg (Nat.succ_ne_zero _)]
    refine Prod.ext rfl ?_
    split <;> omega

theorem asked_of_accepts {callbacks : List EventCallback} {cb : EventCallback}
    (hcb : cb ∈ callbacks) (haccepts : cb.accepts log = true) :
    query callbacks = [] ∨ log.address ∈ query callbacks := by
  have haddress : cb.address = none ∨ cb.address = some log.address :=
    of_decide_eq_true (Bool.and_eq_true_iff.1 haccepts).1
  unfold query
  split
  · exact .inl rfl
  rename_i hall
  refine .inr (mem_eraseDups.2 (mem_filterMap.2 ⟨cb, hcb, haddress.resolve_left ?_⟩))
  -- only a callback for all events has no address
  intro hnone
  cases cb with
  | allEvents => exact hall (any_eq_true.2 ⟨_, hcb, rfl⟩)
  | _ => cases hnone

theorem filterLogs_accepts {callbacks : List EventCallback} {cb : EventCallback}
    (hcb : cb ∈ callbacks) (chain : Nat → List ChainLog) {height fromBlock toBlock : Nat}
    (hheight : toBlock ≤ height) :
    (filterLogs chain height (query callbacks) fromBlock toBlock).filter cb.accepts
      = (range' fromBlock (toBlock + 1 - fromBlock)).flatMap fun n =>
        (chain n).filter cb.accepts := by
  rw [filterLogs, Nat.min_eq_left hheight, filter_flatMap]
  congr 1
  funext n
  rw [filter_filter]
  refine filter_congr fun log _ => ?_
  cases haccepts : cb.accepts log with
  | false => rfl
  | true => exact decide_eq_true (asked_of_accepts hcb haccepts)

/-! ## Polls -/

def between (a b : Nat) : List Nat := range' a (b - a)

def acceptedIn (cb : EventCallback) (blocks : List Nat) :
    List ChainLog := blocks.flatMap fun n => (chain n).filter cb.accepts

structure Sound (initialBlock k : Nat) (s : State) : Prop where
  last : ∀ last ∈ s.lastProcessed, initialBlock ≤ last ∧ s.fromBlock = last + 1
  initial : s.lastProcessed = none → s.fromBlock = initialBlock
  callbacks : ∃ b < s.fromBlock, s.blockCallbacks = replicate k b

structure Delivered (callbacks : List EventCallback) (chain : Nat → List ChainLog) (k a b : Nat)
    (blocks : Nat → List Nat) (logs : Nat → List ChainLog) : Prop where
  ordered : a ≤ b
  blocks : ∀ i < k, blocks i = between a b
  logs : ∀ i (h : i < callbacks.length), logs i = acceptedIn chain callbacks[i] (between a b)

theorem between_append {a b c : Nat} (hab : a ≤ b) (hbc : b ≤ c) :
    between a b ++ between b c = between a c := by
  unfold between
  rw [show range' b (c - b) = range' (a + 1 * (b - a)) (c - b) by congr 1; omega, range'_append]
  congr 1
  omega

theorem Delivered.append {callbacks : List EventCallback} {chain : Nat → List ChainLog}
    {k a b c : Nat} {blocks blocks' : Nat → List Nat} {logs logs' : Nat → List ChainLog}
    (h : Delivered callbacks chain k a b blocks logs)
    (h' : Delivered callbacks chain k b c blocks' logs') :
    Delivered callbacks chain k a c (fun i => blocks i ++ blocks' i)
      (fun i => logs i ++ logs' i) where
  ordered := h.ordered.trans h'.ordered
  blocks i hi := by rw [h.blocks i hi, h'.blocks i hi, between_append h.ordered h'.ordered]
  logs i hi := by
    rw [h.logs i hi, h'.logs i hi, ← between_append h.ordered h'.ordered, acceptedIn, acceptedIn,
      acceptedIn, flatMap_append]

section Polls

variable (callbacks : List EventCallback) (chain : Nat → List ChainLog)

theorem Sound.poll (hs : Sound initialBlock k s) (hp : Catches s p) :
    poll callbacks chain s p = (s, ⟨[], []⟩) ∨
      ∃ head ∈ p.head, ∃ toBlock, s.fromBlock ≤ toBlock ∧ toBlock ≤ head ∧
        poll callbacks chain s p
          = (⟨toBlock + 1, some toBlock, replicate k toBlock⟩,
            ⟨replicate k (between s.fromBlock (toBlock + 1)),
              callbacks.map fun cb =>
                acceptedIn chain cb (between s.fromBlock (toBlock + 1))⟩) := by
  unfold ChainMonitor.poll
  cases hhead : p.head with
  | none => exact .inl rfl
  | some head =>
    dsimp only
    split
    · exact .inl rfl
    split
    · exact .inl rfl
    rename_i hnew _
    obtain ⟨_, hheight, hinitial⟩ := hp head hhead
    have hfrom : s.fromBlock ≤ head := by
      cases hlast : s.lastProcessed with
      | none => exact hinitial hlast
      | some last =>
        rw [hlast, Option.any_some, decide_eq_true_eq] at hnew
        rw [(hs.last last hlast).2]
        omega
    obtain ⟨hle, hend⟩ := rangeEnd_bounds hfrom (by omega)
    obtain ⟨b, hb, hcallbacks⟩ := hs.callbacks
    refine .inr ⟨head, rfl, rangeEnd s.fromBlock head, hle, hend, ?_⟩
    have hlast : s.fromBlock + (rangeEnd s.fromBlock head + 1 - s.fromBlock) - 1
        = rangeEnd s.fromBlock head := by omega
    have hlogs : (callbacks.map fun cb => (filterLogs chain p.height (query callbacks) s.fromBlock
          (rangeEnd s.fromBlock head)).filter cb.accepts)
        = callbacks.map fun cb =>
          acceptedIn chain cb (between s.fromBlock (rangeEnd s.fromBlock head + 1)) :=
      map_congr_left fun cb hcb => filterLogs_accepts hcb chain (hend.trans hheight)
    rw [Nat.mod_eq_of_lt (by omega : s.fromBlock < 2 ^ 64),
      Nat.mod_eq_of_lt (by omega : rangeEnd s.fromBlock head < 2 ^ 64), hcallbacks,
      map_replicate, map_replicate, blocksFor_range' hb, if_neg (by omega), hlast, hlogs]
    rfl

theorem Sound.step (hs : Sound initialBlock k s) (hp : Catches s p) :
    Sound initialBlock k ((machine callbacks chain).next s p) ∧
      Delivered callbacks chain k s.fromBlock ((machine callbacks chain).next s p).fromBlock
        (fun i => blocksTo callbacks chain i s p) (fun i => logsTo callbacks chain i s p) ∧
      (((machine callbacks chain).next s p).fromBlock = s.fromBlock ∨
        ∃ head ∈ p.head, ((machine callbacks chain).next s p).fromBlock ≤ head + 1) := by
  unfold blocksTo logsTo Lib.Machine.out Lib.Machine.next machine
  dsimp only
  obtain heq | ⟨head, hhead, toBlock, hle, hend, heq⟩ := hs.poll callbacks chain hp
  · rw [heq]
    refine ⟨hs, ⟨le_rfl, fun i _ => ?_, fun i _ => ?_⟩, .inl rfl⟩
    all_goals simp [between, acceptedIn]
  · have hinitial : initialBlock ≤ toBlock := by
      cases hlast : s.lastProcessed with
      | none => exact (hs.initial hlast).symm.le.trans hle
      | some last =>
        obtain ⟨_, heq⟩ := hs.last last hlast
        omega
    rw [heq]
    refine ⟨⟨?_, nofun, toBlock, toBlock.lt_succ_self, rfl⟩, ⟨?_, fun i hi => ?_, fun i hi => ?_⟩,
      .inr ⟨head, hhead, Nat.succ_le_succ hend⟩⟩
    · rintro last hlast
      cases hlast
      exact ⟨hinitial, rfl⟩
    · exact hle.trans toBlock.le_succ
    · simp [hi]
    · simp [hi]

theorem Sound.run (hs : Sound initialBlock k s) {polls : List Poll}
    (hp : (machine callbacks chain).Along Catches s polls) :
    Sound initialBlock k ((machine callbacks chain).exec s polls) ∧
      Delivered callbacks chain k s.fromBlock ((machine callbacks chain).exec s polls).fromBlock
        (fun i => (machine callbacks chain).collect (blocksTo callbacks chain i) s polls)
        (fun i => (machine callbacks chain).collect (logsTo callbacks chain i) s polls) ∧
      (((machine callbacks chain).exec s polls).fromBlock = s.fromBlock ∨
        ∃ p ∈ polls, ∃ head ∈ p.head,
          ((machine callbacks chain).exec s polls).fromBlock ≤ head + 1) := by
  induction polls generalizing s with
  | nil =>
    refine ⟨hs, ⟨le_rfl, fun i _ => ?_, fun i _ => ?_⟩, .inl rfl⟩
    all_goals simp [between, acceptedIn]
  | cons p polls ih =>
    obtain ⟨hnext, hfirst, hhead⟩ := hs.step callbacks chain hp.1
    obtain ⟨hsound, hrest, hheads⟩ := ih hnext hp.2
    refine ⟨hsound, hfirst.append hrest, ?_⟩
    obtain hsame | ⟨q, hq, head, hmem, hle⟩ := hheads
    · obtain hkept | ⟨head, hmem, hle⟩ := hhead
      · exact .inl (hsame.trans hkept)
      · exact .inr ⟨p, mem_cons_self, head, hmem, hsame.trans_le hle⟩
    · exact .inr ⟨q, mem_cons_of_mem _ hq, head, hmem, hle⟩

end Polls

/-! ## What a monitor delivers -/

/-- **A monitor that does not start ahead of the chain delivers every block and log once.** Let no
    head be below the initial block until something is processed. Then each block callback was
    passed the blocks from the initial to the last processed one, each once and in order, and every
    event callback the logs of these blocks that match its filter. -/
theorem monitor_delivers (callbacks : List EventCallback) (chain : Nat → List ChainLog)
    {initialBlock : Nat} (hinitial : 1 ≤ initialBlock) (k : Nat) (polls : List Poll)
    (hp : (machine callbacks chain).Along Catches (start initialBlock k) polls) :
    let s := (machine callbacks chain).exec (start initialBlock k) polls
    (∀ i < k, (machine callbacks chain).collect (blocksTo callbacks chain i)
        (start initialBlock k) polls = between initialBlock s.fromBlock) ∧
      (∀ n, initialBlock ≤ n → n < s.fromBlock → ∃ p ∈ polls, ∃ head ∈ p.head, n ≤ head) ∧
      (s.lastProcessed = none ∧ s.fromBlock = initialBlock ∨
        ∃ last, s.lastProcessed = some last ∧ initialBlock ≤ last ∧ s.fromBlock = last + 1) ∧
      ∀ i (h : i < callbacks.length), (machine callbacks chain).collect (logsTo callbacks chain i)
        (start initialBlock k) polls
          = acceptedIn chain callbacks[i] (between initialBlock s.fromBlock) := by
  intro s
  have hstart : Sound initialBlock k (start initialBlock k) :=
    ⟨nofun, fun _ => rfl, 0, hinitial, rfl⟩
  obtain ⟨hsound, hdelivered, hheads⟩ := hstart.run callbacks chain hp
  refine ⟨hdelivered.blocks, fun n hge hlt => ?_, ?_, hdelivered.logs⟩
  · obtain hsame | ⟨p, hmem, head, hhead, hle⟩ := hheads
    · exact absurd (hlt.trans_eq hsame) hge.not_gt
    · exact ⟨p, hmem, head, hhead, Nat.le_of_lt_succ (hlt.trans_le hle)⟩
  · cases hlast : s.lastProcessed with
    | none => exact .inl ⟨rfl, hsound.initial hlast⟩
    | some last => exact .inr ⟨last, rfl, hsound.last last hlast⟩

def exampleChain (n : Nat) : List ChainLog := [⟨7, [1, n], 0⟩]

/-- Two polls and a failed one. -/
theorem monitor_delivers_two_blocks :
    (machine [.contractEvent 7] exampleChain).collect (blocksTo [.contractEvent 7] exampleChain 0)
        (start 100 1) [⟨none, 0, false⟩, ⟨some 100, 101, false⟩, ⟨some 99, 101, false⟩,
          ⟨some 101, 101, false⟩]
      = between 100 102 :=
  (monitor_delivers [.contractEvent 7] exampleChain (by decide) 1
    [⟨none, 0, false⟩, ⟨some 100, 101, false⟩, ⟨some 99, 101, false⟩, ⟨some 101, 101, false⟩]
    (by
      refine ⟨nofun, ?_, ?_, ?_, trivial⟩
      all_goals
        rintro - ⟨⟩
        decide)).1 0 (by decide)

/-- **A head below the initial block makes the monitor run ahead.** It starts at block 100 with the
    head 90, and passes the blocks 100 to 125. When they exist, their logs are not asked for: at
    head 130 only those from block 126 on are delivered. -/
theorem monitor_runs_ahead :
    let M := machine [.contractEvent 7] exampleChain
    let polls : List Poll := [⟨some 90, 90, false⟩, ⟨some 130, 130, false⟩]
    (M.next (start 100 1) ⟨some 90, 90, false⟩).lastProcessed = some 125 ∧
      M.collect (blocksTo [.contractEvent 7] exampleChain 0) (start 100 1) polls
        = between 100 131 ∧
      M.collect (logsTo [.contractEvent 7] exampleChain 0) (start 100 1) polls
        = acceptedIn exampleChain (.contractEvent 7) (between 126 131) := by
  decide +kernel

end ChainMonitor

end River.Node
