/-
  Writes that go to all nodes of a stream (core/node/rpc/quorum_pool.go, util.go,
  replicated_add.go and the pool of createReplicatedStream).
-/

import Mathlib.Data.Fintype.Card
import Mathlib.Tactic.SplitIfs

namespace River.Node

open Option Prod

/-! ## The pool -/

def totalQuorumNum (totalNumNodes : Nat) : Nat := (totalNumNodes + 1) / 2

def remoteQuorumNum (remotes : Nat) (isLocal : Bool) : Nat :=
  if isLocal then totalQuorumNum (remotes + 1) - 1 else totalQuorumNum remotes

structure QuorumPool where
  hasLocal : Bool
  remotes : Nat

namespace QuorumPool

variable {ν ε : Type}

def waitRemotes (remotes remoteQuorum i success failure : Nat) (firstErr : Option ε)
    (channel : List (ν × Option ε)) : Option (Option ε × List (ν × Option ε)) :=
  if i < remotes then
    match channel with
    | [] => none
    | (_, none) :: channel =>
      if remoteQuorum ≤ success + 1 then some (none, channel)
      else waitRemotes remotes remoteQuorum (i + 1) (success + 1) failure firstErr channel
    | (_, some err) :: channel =>
      if remotes - remoteQuorum < failure + 1 then some (firstErr.or (some err), channel)
      else waitRemotes remotes remoteQuorum (i + 1) success (failure + 1)
        (firstErr.or (some err)) channel
  else some (firstErr, channel)
  termination_by structural channel

def wait (q : QuorumPool) (localErr : Option ε) (channel : List (ν × Option ε)) :
    Option (Option ε × List (ν × Option ε)) :=
  if q.hasLocal && localErr.isSome then some (localErr, channel)
  else if 0 < q.remotes then
    waitRemotes q.remotes (remoteQuorumNum q.remotes q.hasLocal) 0 0 0 none channel
  else some (none, channel)

/-! ## The loop -/

def succeeded (results : List (ν × Option ε)) : List ν :=
  (results.filter fun r => r.2.isNone).map fst

theorem waitRemotes_eq_none {remotes remoteQuorum : Nat} :
    ∀ {channel unread : List (ν × Option ε)} {i success failure : Nat} {firstErr : Option ε},
      i = success + failure → (firstErr = none → failure = 0) →
      (success = 0 ∨ success < remoteQuorum) → remoteQuorum ≤ remotes → 0 < remotes →
      waitRemotes remotes remoteQuorum i success failure firstErr channel = some (none, unread) →
      ∃ read, channel = read ++ unread ∧ 0 < (succeeded read).length ∧
        remoteQuorum ≤ success + (succeeded read).length := by
  intro channel
  induction channel with
  | nil =>
    intro unread i success failure firstErr hi hfirst hsuccess hquorum hremotes h
    rw [waitRemotes] at h
    split at h
    · cases h
    -- the loop has come to its end: all remote nodes succeeded, but then it had stopped before
    cases h
    have := hfirst rfl
    omega
  | cons r channel ih =>
    intro unread i success failure firstErr hi hfirst hsuccess hquorum hremotes h
    obtain ⟨node, result⟩ := r
    by_cases hlt : i < remotes
    · cases result with
      | none =>
        rw [waitRemotes, if_pos hlt] at h
        by_cases hreached : remoteQuorum ≤ success + 1
        · simp only [if_pos hreached] at h
          cases h
          exact ⟨[(node, none)], rfl, Nat.one_pos, hreached⟩
        · simp only [if_neg hreached] at h
          obtain ⟨read, hread, hpos, hle⟩ :=
            ih (by omega) hfirst (by omega) hquorum hremotes h
          refine ⟨(node, none) :: read, by rw [hread]; rfl, ?_, ?_⟩
          · show 0 < (succeeded read).length + 1
            omega
          · show remoteQuorum ≤ success + ((succeeded read).length + 1)
            omega
      | some err =>
        rw [waitRemotes, if_pos hlt] at h
        have hsome : firstErr.or (some err) ≠ none := by
          cases firstErr <;> simp
        by_cases hfailed : remotes - remoteQuorum < failure + 1
        · simp only [if_pos hfailed] at h
          exact absurd (congrArg fst (some.inj h)) hsome
        simp only [if_neg hfailed] at h
        obtain ⟨read, hread, hpos, hle⟩ :=
          ih (by omega) (fun hnone => absurd hnone hsome) hsuccess hquorum hremotes h
        exact ⟨(node, some err) :: read, by rw [hread]; rfl, hpos, hle⟩
    · rw [waitRemotes.eq_def, if_neg hlt] at h
      cases h
      have := hfirst rfl
      omega

theorem waitRemotes_of_le {remotes remoteQuorum : Nat} :
    ∀ {channel : List (ν × Option ε)} {i success failure : Nat} {firstErr : Option ε},
      i = success + failure → i + channel.length ≤ remotes → success < remoteQuorum →
      remoteQuorum ≤ success + (succeeded channel).length →
      ∃ unread, waitRemotes remotes remoteQuorum i success failure firstErr channel
        = some (none, unread) := by
  intro channel
  induction channel with
  | nil =>
    intro i success failure firstErr _ _ hlt hle
    exact absurd hle (by simp [succeeded]; omega)
  | cons r channel ih =>
    intro i success failure firstErr hi hlength hlt hle
    obtain ⟨_, result⟩ := r
    rw [List.length_cons] at hlength
    cases result with
    | none =>
      have hle' : remoteQuorum ≤ success + ((succeeded channel).length + 1) := hle
      rw [waitRemotes, if_pos (by omega)]
      by_cases hreached : remoteQuorum ≤ success + 1
      · simp only [if_pos hreached]
        exact ⟨channel, rfl⟩
      · simp only [if_neg hreached]
        exact ih (by omega) (by omega) (by omega) (by omega)
    | some err =>
      -- so many can still succeed that this failure is not one too many
      have hsucceeded : (succeeded channel).length ≤ channel.length := by
        rw [succeeded, List.length_map]
        exact List.length_filter_le _ _
      have hle' : remoteQuorum ≤ success + (succeeded channel).length := hle
      rw [waitRemotes, if_pos (by omega)]
      simp only [if_neg (show ¬ remotes - remoteQuorum < failure + 1 by omega)]
      exact ih (by omega) (by omega) hlt hle'

theorem wait_iff (q : QuorumPool) (localErr : Option ε) (channel : List (ν × Option ε)) :
    (q.wait localErr channel).map Prod.fst = some none ↔ (q.hasLocal → localErr = none) ∧
      (0 < q.remotes → ∃ unread, waitRemotes q.remotes (remoteQuorumNum q.remotes q.hasLocal)
        0 0 0 none channel = some (none, unread)) := by
  rw [wait]
  by_cases hlocal : q.hasLocal && localErr.isSome
  · rw [Bool.and_eq_true] at *
    obtain ⟨hsome, herr⟩ := hlocal
    obtain ⟨_, herr⟩ := isSome_iff_exists.mp herr
    simp [hsome, herr]
  · rw [if_neg hlocal]
    have hlocal' : q.hasLocal → localErr = none := by
      intro hsome
      rw [hsome] at hlocal
      exact not_isSome_iff_eq_none.mp hlocal
    by_cases hremotes : 0 < q.remotes
    · simp only [if_pos hremotes, map_eq_some_iff, Prod.exists, exists_and_right, exists_eq_right]
      exact ⟨fun h => ⟨hlocal', fun _ => h⟩, fun h => h.2 hremotes⟩
    · simp only [if_neg hremotes, map_some, true_iff]
      exact ⟨hlocal', fun h => absurd h hremotes⟩

end QuorumPool

open QuorumPool

/-! ## A replicated write -/

structure ReplicatedWrite (ε : Type) (n : Nat) where
  localNode : Option (Fin n)
  localErr : Option ε
  results : List (Fin n × Option ε)
  nodup : (results.map fst).Nodup
  remote : ∀ node ∈ results.map fst, localNode ≠ some node

def QuorumPool.ofNumNodes {n : Nat} (localNode : Option (Fin n)) : QuorumPool :=
  ⟨localNode.isSome, n - localNode.toList.length⟩

namespace ReplicatedWrite

variable {ε : Type} {n : Nat} (w : ReplicatedWrite ε n)

def wait : Option (Option ε × List (Fin n × Option ε)) :=
  (ofNumNodes w.localNode).wait w.localErr w.results

/-- The wait ends without an error. -/
def Succeeds : Prop := w.wait.map fst = some none

def read : List (Fin n × Option ε) :=
  w.results.take (w.results.length - ((w.wait.map snd).getD []).length)

def acknowledged : Finset (Fin n) :=
  ((if w.localErr.isNone then w.localNode.toList else []) ++
    succeeded w.read).toFinset

theorem succeeds_iff {w : ReplicatedWrite ε n} :
    w.Succeeds ↔ (w.localNode.isSome → w.localErr = none) ∧
      (0 < n - w.localNode.toList.length → ∃ unread,
        waitRemotes (n - w.localNode.toList.length)
          (remoteQuorumNum (n - w.localNode.toList.length) w.localNode.isSome) 0 0 0 none w.results
            = some (none, unread)) :=
  wait_iff (ofNumNodes w.localNode) w.localErr w.results

theorem succeeded_read_sublist : (succeeded w.read).Sublist (w.results.map fst) :=
  (List.filter_sublist.trans (List.take_sublist _ _)).map fst

theorem card_acknowledged {w : ReplicatedWrite ε n} (h : w.localNode.isSome → w.localErr = none) :
    w.acknowledged.card
      = w.localNode.toList.length + (succeeded w.read).length := by
  have hlocal : (if w.localErr.isNone then w.localNode.toList else []) = w.localNode.toList := by
    cases hnode : w.localNode with
    | none => simp
    | some node =>
      rw [h (by rw [hnode]; rfl)]
      rfl
  have hnodup : (w.localNode.toList ++ succeeded w.read).Nodup := by
    refine .append ?_ (w.nodup.sublist w.succeeded_read_sublist) ?_
    · cases w.localNode <;> simp
    · intro node hnode hread
      exact w.remote node (w.succeeded_read_sublist.subset hread) (mem_toList.mp hnode)
  rw [acknowledged, hlocal, List.toFinset_card_of_nodup hnodup, List.length_append]

theorem read_eq {w : ReplicatedWrite ε n} (hlocal : w.localNode.isSome → w.localErr = none)
    (hremotes : 0 < n - w.localNode.toList.length) {front unread : List (Fin n × Option ε)}
    (hresults : w.results = front ++ unread)
    (hloop : waitRemotes (n - w.localNode.toList.length)
      (remoteQuorumNum (n - w.localNode.toList.length) w.localNode.isSome) 0 0 0 none w.results
        = some (none, unread)) :
    w.read = front := by
  have hguard : ¬ (w.localNode.isSome && w.localErr.isSome) = true := by
    rw [Bool.and_eq_true]
    rintro ⟨hsome, herr⟩
    rw [hlocal hsome] at herr
    cases herr
  have hwait : w.wait = some (none, unread) := by
    rw [wait, QuorumPool.wait, QuorumPool.ofNumNodes, if_neg hguard]
    simp only [if_pos hremotes]
    exact hloop
  rw [read, hwait, hresults]
  simp

theorem remoteQuorumNum_le {remotes : Nat} (isLocal : Bool) (h : 0 < remotes) :
    remoteQuorumNum remotes isLocal ≤ remotes := by
  unfold remoteQuorumNum totalQuorumNum
  split <;> omega

theorem Succeeds.le_length {w : ReplicatedWrite ε n} (h : w.Succeeds)
    (hremotes : 0 < n - w.localNode.toList.length) :
    0 < (succeeded w.read).length ∧
      remoteQuorumNum (n - w.localNode.toList.length) w.localNode.isSome
        ≤ (succeeded w.read).length := by
  obtain ⟨hlocal, hloop⟩ := succeeds_iff.mp h
  obtain ⟨_, hloop⟩ := hloop hremotes
  obtain ⟨_, hresults, hpos, _⟩ := waitRemotes_eq_none rfl (fun _ => rfl)
    (.inl rfl) (remoteQuorumNum_le _ hremotes) hremotes hloop
  rw [read_eq hlocal hremotes hresults hloop]
  exact ⟨hpos, by omega⟩

/-! ## Majorities -/

variable (localNode : Option (Fin n))

/-- When a quorum is a majority of the nodes. -/
def HasMajority : Prop :=
  n % 2 = 1 ∨ n = 2 ∧ localNode.isSome

theorem Succeeds.majority {w : ReplicatedWrite ε n} (h : w.Succeeds)
    (hmajority : HasMajority w.localNode) : n < 2 * w.acknowledged.card := by
  have hlocal := (succeeds_iff.mp h).1
  rw [card_acknowledged hlocal]
  have hread := h.le_length
  unfold HasMajority at hmajority
  unfold remoteQuorumNum totalQuorumNum at hread
  cases hnode : w.localNode with
  | none =>
    rw [hnode] at hread hmajority
    simp only [isSome_none, Bool.false_eq_true, and_false, or_false, if_false] at hread hmajority ⊢
    omega
  | some node =>
    rw [hnode] at hread hmajority
    simp only [isSome_some, if_true, toList_some, List.length_singleton] at hread hmajority ⊢
    -- a single node is its own majority
    by_cases hone : n = 1
    · omega
    · omega

theorem inter_nonempty {s t : Finset (Fin n)} (hs : n < 2 * s.card) (ht : n < 2 * t.card) :
    (s ∩ t).Nonempty := by
  apply Finset.inter_nonempty_of_card_lt_card_add_card (Finset.subset_univ s) (Finset.subset_univ t)
  rw [Finset.card_univ, Fintype.card_fin]
  omega

def remotes : List (Fin n) :=
  (List.finRange n).filter fun node => localNode ≠ some node

theorem length_remotes : (remotes localNode).length = n - localNode.toList.length := by
  cases localNode with
  | none => simp [remotes]
  | some l =>
    have herase : remotes (some l) = (List.finRange n).erase l := by
      rw [(List.nodup_finRange n).erase_eq_filter]
      apply List.filter_congr
      intro node _
      simp [bne, eq_comm, beq_eq_decide]
    rw [herase, List.length_erase_of_mem (List.mem_finRange l), List.length_finRange]
    rfl

def acknowledgedBy (ε : Type) (localNode : Option (Fin n)) (k : Nat) : ReplicatedWrite ε n where
  localNode := localNode
  localErr := none
  results := ((remotes localNode).take k).map fun node => (node, none)
  nodup := by
    rw [List.map_map]
    exact (((List.nodup_finRange n).filter _).sublist (List.take_sublist _ _)).map
      Function.injective_id
  remote := by
    intro node hnode
    rw [List.map_map] at hnode
    obtain ⟨node, hmem, rfl⟩ := List.mem_map.mp hnode
    have hremote := List.mem_of_mem_take hmem
    rw [remotes, List.mem_filter] at hremote
    exact of_decide_eq_true hremote.2

theorem exists_half {localNode : Option (Fin n)} (h : ¬ HasMajority localNode) :
    ∃ w : ReplicatedWrite ε n,
      w.localNode = localNode ∧ w.Succeeds ∧ 2 * w.acknowledged.card ≤ n := by
  -- one node fewer would not reach the quorum, so this many are exactly enough
  let k := n / 2 - localNode.toList.length
  have hlength : ((remotes localNode).take k).length = k := by
    rw [List.length_take, length_remotes]
    omega
  have harith : localNode.toList.length + k = n / 2 ∧ (0 < n - localNode.toList.length →
      0 < remoteQuorumNum (n - localNode.toList.length) localNode.isSome ∧
        remoteQuorumNum (n - localNode.toList.length) localNode.isSome ≤ k) := by
    unfold HasMajority at h
    unfold remoteQuorumNum totalQuorumNum
    cases localNode with
    | none =>
      simp only [k, isSome_none, Bool.false_eq_true, if_false, toList_none, List.length_nil] at h ⊢
      omega
    | some node =>
      have := node.isLt
      simp only [k, isSome_some, and_true, if_true, toList_some, List.length_singleton] at h ⊢
      omega
  refine ⟨acknowledgedBy ε localNode k, rfl,
    succeeds_iff.mpr ⟨fun _ => rfl, fun hremotes => ?_⟩, ?_⟩
  · obtain ⟨hpos, -⟩ := harith.2 hremotes
    refine waitRemotes_of_le rfl ?_ hpos ?_
    · simp only [acknowledgedBy, List.length_map]
      omega
    · simp only [acknowledgedBy, succeeded, List.filter_map, List.length_map]
      simp only [Function.comp_def, isNone_none, List.filter_true]
      omega
  · have hread : (succeeded (acknowledgedBy ε localNode k).read).length ≤ k := by
      refine ((acknowledgedBy ε localNode k).succeeded_read_sublist.length_le).trans ?_
      simp only [acknowledgedBy, List.length_map, hlength, Nat.le_refl]
    rw [card_acknowledged (fun _ => rfl)]
    show 2 * (localNode.toList.length + _) ≤ n
    omega

end ReplicatedWrite

open ReplicatedWrite in
/-- **Majority quorum.** Every write that succeeds was acknowledged by more than half of the nodes
    exactly for the numbers of nodes of `HasMajority`; two such writes share a node, also when
    different nodes run them. -/
theorem quorum_majority_iff (ε : Type) (n : Nat) :
    (∀ localNode : Option (Fin n),
      (∀ w : ReplicatedWrite ε n, w.localNode = localNode → w.Succeeds →
        n < 2 * w.acknowledged.card) ↔ HasMajority localNode) ∧
    ∀ w1 w2 : ReplicatedWrite ε n, w1.Succeeds → w2.Succeeds →
      HasMajority w1.localNode → HasMajority w2.localNode →
        (w1.acknowledged ∩ w2.acknowledged).Nonempty := by
  refine ⟨fun localNode => ⟨fun hall => ?_, ?_⟩, ?_⟩
  · by_contra hnot
    obtain ⟨w, hlocal, hsucceeds, _⟩ := exists_half (ε := ε) hnot
    have := hall w hlocal hsucceeds
    omega
  · rintro hmajority w rfl hsucceeds
    exact hsucceeds.majority hmajority
  · intro w1 w2 h1 h2 hm1 hm2
    exact inter_nonempty (h1.majority hm1) (h2.majority hm2)

/-- Three nodes: the local one and one remote node are a majority, and share a node with the
    other two. -/
theorem quorum_majority_three :
    (ReplicatedWrite.acknowledgedBy Unit (some (0 : Fin 3)) 1).Succeeds ∧
      3 < 2 * (ReplicatedWrite.acknowledgedBy Unit (some (0 : Fin 3)) 1).acknowledged.card ∧
      ((ReplicatedWrite.acknowledgedBy Unit (some (0 : Fin 3)) 1).acknowledged ∩
        (ReplicatedWrite.acknowledgedBy Unit (some (2 : Fin 3)) 1).acknowledged).Nonempty := by
  have hfirst : (ReplicatedWrite.acknowledgedBy Unit (some (0 : Fin 3)) 1).Succeeds := by
    unfold ReplicatedWrite.Succeeds
    decide
  have hsecond : (ReplicatedWrite.acknowledgedBy Unit (some (2 : Fin 3)) 1).Succeeds := by
    unfold ReplicatedWrite.Succeeds
    decide
  exact ⟨hfirst, ((quorum_majority_iff Unit 3).1 _).mpr (.inl rfl) _ rfl hfirst,
    (quorum_majority_iff Unit 3).2 _ _ hfirst hsecond (.inl rfl) (.inl rfl)⟩

/-- Four nodes: the local one and one remote node are enough, and so are the other two, which
    have not heard of that write. -/
theorem quorum_half_of_four :
    (ReplicatedWrite.acknowledgedBy Unit (some (0 : Fin 4)) 1).Succeeds ∧
      ¬ 4 < 2 * (ReplicatedWrite.acknowledgedBy Unit (some (0 : Fin 4)) 1).acknowledged.card ∧
      ∃ w : ReplicatedWrite Unit 4, w.Succeeds ∧
        (ReplicatedWrite.acknowledgedBy Unit (some (0 : Fin 4)) 1).acknowledged ∩ w.acknowledged
          = ∅ := by
  unfold ReplicatedWrite.Succeeds
  refine ⟨by decide, by decide, ⟨some 2, none, [(3, none)], by decide, by decide⟩, ?_⟩
  decide

/-! ## The decision -/

theorem wait_iff_of_ne {ν ε : Type} {q : QuorumPool} (localErr : Option ε)
    {channel : List (ν × Option ε)} (hlength : channel.length = q.remotes)
    (hq : q.hasLocal → q.remotes ≠ 1) :
    (q.wait localErr channel).map fst = some none ↔ (q.hasLocal → localErr = none) ∧
      remoteQuorumNum q.remotes q.hasLocal ≤ (succeeded channel).length := by
  rw [wait_iff]
  refine and_congr_right fun _ => ⟨fun h => ?_, fun hle hremotes => ?_⟩
  · by_cases hremotes : 0 < q.remotes
    · obtain ⟨_, hloop⟩ := h hremotes
      obtain ⟨_, rfl, -, hle⟩ := waitRemotes_eq_none rfl (fun _ => rfl) (.inl rfl)
        (ReplicatedWrite.remoteQuorumNum_le _ hremotes) hremotes hloop
      rw [succeeded, List.filter_append, List.map_append, List.length_append]
      exact (hle.trans_eq (Nat.zero_add _)).trans (Nat.le_add_right _ _)
    · rw [Nat.eq_zero_of_not_pos hremotes, remoteQuorumNum]
      split <;> exact Nat.zero_le _
  · have hpos : 0 < remoteQuorumNum q.remotes q.hasLocal := by
      unfold remoteQuorumNum totalQuorumNum
      split
      next hlocal =>
        have := hq hlocal
        omega
      next => omega
    exact waitRemotes_of_le rfl (by omega) hpos (by omega)

/-- **Quorum decision.** Once every remote task has sent its result, in whatever order, `Wait`
    returns nil exactly when the local task succeeded and a quorum of the remotes did, except if
    the local task succeeds next to a single remote, which fails. -/
theorem quorumPool_decision {ν ε : Type} (q : QuorumPool) (localErr : Option ε)
    (channel : List (ν × Option ε)) (hlength : channel.length = q.remotes) :
    ((q.wait localErr channel).map fst = some none ↔ (q.hasLocal → localErr = none) ∧
      remoteQuorumNum q.remotes q.hasLocal ≤ (succeeded channel).length) ↔
    ¬ (q.hasLocal ∧ localErr = none ∧ q.remotes = 1 ∧ succeeded channel = []) := by
  by_cases hq : q.hasLocal → q.remotes ≠ 1
  · exact iff_of_true (wait_iff_of_ne localErr hlength hq) fun h => hq h.1 h.2.2.1
  obtain ⟨hasLocal, remotes⟩ := q
  obtain ⟨hlocal, hone⟩ : hasLocal = true ∧ remotes = 1 := by simpa using hq
  subst hlocal hone
  -- the quorum is 0, and the loop returns what the only remote sends
  obtain ⟨⟨node, result⟩, rfl⟩ := List.length_eq_one_iff.1 hlength
  cases localErr <;> cases result <;>
    simp [wait, waitRemotes, remoteQuorumNum, totalQuorumNum, succeeded]

theorem quorumPool_decision_two_remotes :
    ((⟨true, 2⟩ : QuorumPool).wait (none : Option Unit) [(0, some ()), (1, none)]).map fst
      = some none :=
  ((quorumPool_decision ⟨true, 2⟩ none [(0, some ()), (1, none)] rfl).2 (by simp)).2
    ⟨fun _ => rfl, by decide⟩

/-- One remote next to a local task: none of the remotes has to succeed, but when that one fails
    `Wait` returns its error. -/
theorem quorumPool_lone_remote :
    remoteQuorumNum 1 true = 0 ∧
      (⟨true, 1⟩ : QuorumPool).wait none [((), some ())] = some (some (), []) := by
  decide

end River.Node
