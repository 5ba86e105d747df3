/-
  The nodes that answer entitlement checks
  (contracts/src/base/registry/facets/checker/EntitlementChecker.sol).
-/

import River.Contracts.BaseRegistry

namespace River.Contracts

open River.Lib Function Machine EnumerableSet

inductive EntitlementCheckerError where
  | nodeAlreadyRegistered | nodeNotRegistered | invalidNodeOperator | invalidOperator

section Checker

variable [ERC20Votes]

structure CheckerDiamond where
  registry : BaseRegistry
  nodes : EnumerableSet Address
  operatorByNode : Address → Address

namespace CheckerDiamond

variable (s : CheckerDiamond)

def onlyNodeOperator (node operator : Address) : Except EntitlementCheckerError Unit :=
  if s.operatorByNode node ≠ operator then .error .invalidNodeOperator else .ok ()

def onlyRegisteredOperator (msgSender : Address) : Except EntitlementCheckerError Unit :=
  if msgSender ∉ s.registry.operators then .error .invalidOperator else .ok ()

def registerNode (msgSender node : Address) : Except EntitlementCheckerError CheckerDiamond :=
  if node ∈ s.nodes then .error .nodeAlreadyRegistered
  else .ok { s with
    nodes := s.nodes.add node
    operatorByNode := update s.operatorByNode node msgSender }

def unregisterNode (node : Address) : Except EntitlementCheckerError CheckerDiamond :=
  if node ∉ s.nodes then .error .nodeNotRegistered
  else .ok { s with
    nodes := s.nodes.remove node
    operatorByNode := update s.operatorByNode node 0 }

end CheckerDiamond

inductive CheckerCall where
  | registerNode (node : Address)
  | unregisterNode (node : Address)
  | registerOperator (claimer : Address)

structure CheckerMessage where
  msgSender : Address
  call : CheckerCall

inductive CheckerRevert where
  | checker (e : EntitlementCheckerError)
  | registry (e : BaseRegistryRevert)

def CheckerDiamond.answer (s : CheckerDiamond) (msg : CheckerMessage) :
    Except CheckerRevert CheckerDiamond :=
  match msg.call with
  | .registerNode node => (s.registerNode msg.msgSender node).mapError .checker
  | .unregisterNode node => (s.unregisterNode node).mapError .checker
  | .registerOperator claimer =>
    ((s.registry.registerOperator msg.msgSender claimer).map fun r =>
      { s with registry := r }).mapError
      .registry

/-- The entitlement checker. -/
def checkerDiamond : Machine CheckerDiamond CheckerMessage (Except CheckerRevert Unit) where
  step s msg :=
    match s.answer msg with
    | .ok s' => (s', .ok ())
    | .error e => (s, .error e)

namespace CheckerDiamond

/-- The message would pass the modifiers declared. -/
def ByOperator (s : CheckerDiamond) (msg : CheckerMessage) : Prop :=
  match msg.call with
  | .registerNode node => node ∉ s.nodes → s.onlyRegisteredOperator msg.msgSender = .ok ()
  | .unregisterNode node => node ∈ s.nodes → s.onlyNodeOperator node msg.msgSender = .ok ()
  | .registerOperator _ => True

/-! ## One message -/

section Step

variable {s s' : CheckerDiamond} {msgSender : Address}

theorem onlyRegisteredOperator_ok :
    s.onlyRegisteredOperator msgSender = .ok () ↔ msgSender ∈ s.registry.operators := by
  unfold onlyRegisteredOperator
  rw [ite_error_ok, not_not]
  exact and_iff_left rfl

theorem onlyNodeOperator_ok :
    s.onlyNodeOperator node msgSender = .ok () ↔ s.operatorByNode node = msgSender := by
  unfold onlyNodeOperator
  rw [ite_error_ok, not_not]
  exact and_iff_left rfl

inductive NodeStep (s : CheckerDiamond) : CheckerMessage → CheckerDiamond → Prop where
  | registered {msgSender node : Address} (fresh : node ∉ s.nodes) :
      NodeStep s ⟨msgSender, .registerNode node⟩ { s with
        nodes := s.nodes.add node
        operatorByNode := update s.operatorByNode node msgSender }
  | unregistered {msgSender node : Address} (mem : node ∈ s.nodes) :
      NodeStep s ⟨msgSender, .unregisterNode node⟩ { s with
        nodes := s.nodes.remove node
        operatorByNode := update s.operatorByNode node 0 }
  /-- The message reverts, or it registers an operator. -/
  | other {msg : CheckerMessage} {s' : CheckerDiamond} (nodes : s'.nodes = s.nodes)
      (operatorByNode : s'.operatorByNode = s.operatorByNode) (byOperator : s.ByOperator msg) :
      NodeStep s msg s'

theorem nodeStep_next (s : CheckerDiamond) (msg : CheckerMessage) :
    NodeStep s msg (checkerDiamond.next s msg) := by
  obtain ⟨msgSender, call⟩ := msg
  cases call with
  | registerNode node =>
    by_cases hmem : node ∈ s.nodes
    · have hnext : checkerDiamond.next s ⟨msgSender, .registerNode node⟩ = s := by
        simp [next, checkerDiamond, answer, registerNode, hmem, Except.mapError]
      rw [hnext]
      exact .other rfl rfl fun hfresh => absurd hmem hfresh
    · have hnext : checkerDiamond.next s ⟨msgSender, .registerNode node⟩ = { s with
          nodes := s.nodes.add node
          operatorByNode := update s.operatorByNode node msgSender } := by
        simp [next, checkerDiamond, answer, registerNode, hmem, Except.mapError]
      rw [hnext]
      exact .registered hmem
  | unregisterNode node =>
    by_cases hmem : node ∈ s.nodes
    · have hnext : checkerDiamond.next s ⟨msgSender, .unregisterNode node⟩ = { s with
          nodes := s.nodes.remove node
          operatorByNode := update s.operatorByNode node 0 } := by
        simp [next, checkerDiamond, answer, unregisterNode, hmem, Except.mapError]
      rw [hnext]
      exact .unregistered hmem
    · have hnext : checkerDiamond.next s ⟨msgSender, .unregisterNode node⟩ = s := by
        simp [next, checkerDiamond, answer, unregisterNode, hmem, Except.mapError]
      rw [hnext]
      exact .other rfl rfl fun hin => absurd hin hmem
  | registerOperator claimer =>
    unfold next checkerDiamond answer
    simp only
    cases s.registry.registerOperator msgSender claimer <;> exact .other rfl rfl trivial

def RegisteredByOperator (s : CheckerDiamond) (msg : CheckerMessage) (s' : CheckerDiamond) : Prop :=
  ∀ node, node ∉ s.nodes → node ∈ s'.nodes → msg.msgSender ∈ s.registry.operators

def Keeps (s : CheckerDiamond) (msgs : List CheckerMessage) (s' : CheckerDiamond) : Prop :=
  ∀ node ∈ s.nodes, (node ∈ s'.nodes ∧ s'.operatorByNode node = s.operatorByNode node) ∨
    ⟨s.operatorByNode node, .unregisterNode node⟩ ∈ msgs

theorem NodeStep.byOperator_iff (h : NodeStep s msg s') :
    s.ByOperator msg ↔ RegisteredByOperator s msg s' ∧ Keeps s [msg] s' := by
  cases h with
  | @registered msgSender node fresh =>
    have hkeeps : Keeps s [⟨msgSender, .registerNode node⟩] { s with
        nodes := s.nodes.add node
        operatorByNode := update s.operatorByNode node msgSender } := by
      intro n hn
      have hne : n ≠ node := fun heq => fresh (heq ▸ hn)
      exact .inl ⟨mem_add.2 (.inl hn), update_of_ne hne _ _⟩
    rw [and_iff_left hkeeps]
    show (node ∉ s.nodes → s.onlyRegisteredOperator msgSender = .ok ()) ↔ _
    rw [imp_iff_right fresh, onlyRegisteredOperator_ok]
    constructor
    · exact fun hoperator n _ _ => hoperator
    · exact fun hregistered => hregistered node fresh (mem_add.2 (.inr rfl))
  | @unregistered msgSender node mem =>
    have hregistered : RegisteredByOperator s ⟨msgSender, .unregisterNode node⟩ { s with
        nodes := s.nodes.remove node
        operatorByNode := update s.operatorByNode node 0 } :=
      fun n hn hn' => absurd (mem_remove.1 hn').1 hn
    rw [and_iff_right hregistered]
    show (node ∈ s.nodes → s.onlyNodeOperator node msgSender = .ok ()) ↔ _
    rw [imp_iff_right mem, onlyNodeOperator_ok]
    constructor
    · intro hoperator n hn
      by_cases heq : n = node
      · subst heq
        rw [hoperator]
        exact .inr List.mem_cons_self
      · exact .inl ⟨mem_remove.2 ⟨hn, heq⟩, update_of_ne heq _ _⟩
    · intro hkeeps
      rcases hkeeps node mem with ⟨hmem, -⟩ | hmsg
      · exact absurd rfl (mem_remove.1 hmem).2
      · exact congrArg CheckerMessage.msgSender (List.mem_singleton.1 hmsg)
  | other nodes operatorByNode byOperator =>
    refine iff_of_true byOperator ⟨?_, ?_⟩
    · intro node hnode hnode'
      rw [nodes] at hnode'
      exact absurd hnode' hnode
    · intro node hnode
      rw [nodes, operatorByNode]
      exact .inl ⟨hnode, rfl⟩

theorem Keeps.trans {s'' : CheckerDiamond} (h : Keeps s msgs s')
    (h' : Keeps s' msgs' s'') : Keeps s (msgs ++ msgs') s'' := by
  intro node hnode
  rcases h node hnode with ⟨hmem, hoperator⟩ | hmsg
  · rcases h' node hmem with ⟨hmem', hoperator'⟩ | hmsg
    · exact .inl ⟨hmem', hoperator'.trans hoperator⟩
    · rw [hoperator] at hmsg
      exact .inr (List.mem_append_right _ hmsg)
  · exact .inr (List.mem_append_left _ hmsg)

end Step

/-! ## Runs -/

/-- Operators register nodes, and each keeps its own. -/
structure NodesKept (s : CheckerDiamond) (run : List CheckerMessage) : Prop where
  registered : ∀ front msg, front ++ [msg] <+: run →
    RegisteredByOperator (checkerDiamond.exec s front) msg (checkerDiamond.exec s (front ++ [msg]))
  kept : ∀ front rest, front ++ rest <+: run →
    Keeps (checkerDiamond.exec s front) rest (checkerDiamond.exec s (front ++ rest))

theorem keeps_of_along
    (h : checkerDiamond.Along ByOperator s run) : Keeps s run (checkerDiamond.exec s run) := by
  induction run generalizing s with
  | nil => exact fun node hnode => .inl ⟨hnode, rfl⟩
  | cons msg run ih =>
    obtain ⟨hmsg, hrun⟩ := h
    exact ((nodeStep_next s msg).byOperator_iff.1 hmsg).2.trans (ih hrun)

end CheckerDiamond

open CheckerDiamond

/-- **Authority over nodes.** In a run from any state, only operators register nodes and every node
    stays with its operator until that operator takes it out, exactly if every message that does
    not revert would pass the modifiers that the contract declares. -/
theorem nodesKept_iff (s : CheckerDiamond) (run : List CheckerMessage) :
    s.NodesKept run ↔ checkerDiamond.Along ByOperator s run := by
  constructor
  · intro h
    induction run generalizing s with
    | nil => trivial
    | cons msg run ih =>
      refine ⟨(nodeStep_next s msg).byOperator_iff.2 ⟨?_, ?_⟩, ih _ ⟨?_, ?_⟩⟩
      · exact h.registered [] msg ⟨run, rfl⟩
      · exact h.kept [] [msg] ⟨run, rfl⟩
      · intro front msg' hprefix
        exact h.registered (msg :: front) msg' (List.cons_prefix_cons.2 ⟨rfl, hprefix⟩)
      · intro front rest hprefix
        exact h.kept (msg :: front) rest (List.cons_prefix_cons.2 ⟨rfl, hprefix⟩)
  · intro h
    -- a stretch inside the run meets the condition where it starts
    have hstretch : ∀ front rest, front ++ rest <+: run →
        checkerDiamond.Along ByOperator (checkerDiamond.exec s front) rest := by
      rintro front rest ⟨_, rfl⟩
      rw [along_append, along_append] at h
      exact h.1.2
    refine ⟨?_, ?_⟩
    · intro front msg hprefix
      rw [exec_append]
      exact ((nodeStep_next _ msg).byOperator_iff.1 (hstretch front [msg] hprefix).1).1
    · intro front rest hprefix
      rw [exec_append]
      exact keeps_of_along (hstretch front rest hprefix)

end Checker

/-- Operator 9 registers node 7. The stranger 5, who is no operator, takes it out and registers it
    again, as its operator. -/
theorem not_nodesKept_stranger :
    let s : CheckerDiamond := ⟨.init 8 9 3 (.init 0 9 1), .empty, fun _ => 0⟩
    let front : List CheckerMessage := [⟨9, .registerOperator 9⟩, ⟨9, .registerNode 7⟩]
    let rest : List CheckerMessage := [⟨5, .unregisterNode 7⟩, ⟨5, .registerNode 7⟩]
    (checkerDiamond.exec s front).operatorByNode 7 = 9 ∧
      5 ∉ (checkerDiamond.exec s (front ++ rest)).registry.operators ∧
      (checkerDiamond.exec s (front ++ rest)).operatorByNode 7 = 5 ∧
        ¬s.NodesKept (front ++ rest) := by
  intro s front rest
  have hbefore : (checkerDiamond.exec s front).operatorByNode 7 = 9 := by decide
  have hafter : (checkerDiamond.exec s (front ++ rest)).operatorByNode 7 = 5 := by decide
  have hmem : 7 ∈ (checkerDiamond.exec s front).nodes := by decide
  refine ⟨hbefore, by decide, hafter, fun h => ?_⟩
  rcases h.kept front rest (List.prefix_refl _) 7 hmem with ⟨-, hoperator⟩ | hmsg
  · exact absurd hoperator (by decide)
  · rw [hbefore] at hmsg
    simp [rest] at hmsg

/-! ## Random nodes -/

open List

inductive RandomNodesRevert where
  | insufficientNumberOfNodes | panicDivisionByZero | panicArithmetic | panicIndexOutOfBounds

def readAt {α : Type} (l : List α) (i : Nat) : Except RandomNodesRevert α :=
  match l[i]? with
  | some a => .ok a
  | none => .error .panicIndexOutOfBounds

def pseudoRandom (hash : Nat → Nat) (seed nodeCount : Nat) : Except RandomNodesRevert Nat :=
  if nodeCount = 0 then .error .panicDivisionByZero else .ok (hash seed % nodeCount)

def pickNodes (nodes : List Address) (hash : Nat → Nat) :
    Nat → Nat → Nat → List Nat → Except RandomNodesRevert (List Address)
  | 0, _, _, _ => .ok []
  | count + 1, i, n, indices => do
    let rand ← pseudoRandom hash i n
    let index ← readAt indices rand
    let node ← readAt nodes index
    let n ← subChecked .panicArithmetic n 1
    let last ← readAt indices n
    let randomNodes ← pickNodes nodes hash count (i + 1) n (indices.set rand last)
    .ok (node :: randomNodes)

def CheckerDiamond.getRandomNodes [ERC20Votes] (s : CheckerDiamond) (hash : Nat → Nat)
    (count : Nat) :
    Except RandomNodesRevert (List Address) :=
  let nodes := s.nodes.values
  if count > nodes.length then .error .insufficientNumberOfNodes
  else pickNodes nodes hash count 0 nodes.length (.range nodes.length)

theorem readAt_ok {α : Type} {l : List α} {i : Nat} {a : α} (h : l[i]? = some a) :
    readAt l i = .ok a := by
  rw [readAt, h]

theorem take_set_last {indices : List Nat} {n last : Nat} (rand : Nat) (hn : n < indices.length)
    (hlast : indices[n]? = some last) :
    (indices.set rand last).take n = swapRemoveAt (indices.take (n + 1)) rand := by
  have hgetLast : (indices.take (n + 1)).getLast? = some last := by
    rw [getLast?_take, if_neg (Nat.succ_ne_zero n), Nat.add_sub_cancel, hlast, Option.some_or]
  rw [swapRemoveAt, hgetLast]
  show _ = ((indices.take (n + 1)).set rand last).dropLast
  rw [dropLast_eq_take, length_set, length_take, Nat.min_eq_left hn,
    Nat.succ_sub_one, ← take_set, take_take, Nat.min_eq_left (Nat.le_succ n)]

/-- What is left to pick from are the first `n` indices: the picked one is replaced by the last. -/
theorem pickNodes_ok {nodes : List Address} (hnodes : nodes.Nodup) (hash : Nat → Nat)
    {count : Nat} :
    ∀ {i n : Nat} {indices : List Nat}, count ≤ n → n ≤ indices.length → (indices.take n).Nodup →
      (∀ x ∈ indices.take n, x < nodes.length) →
      ∃ randomNodes, pickNodes nodes hash count i n indices = .ok randomNodes ∧
        randomNodes.length = count ∧ randomNodes.Nodup ∧
        ∀ a ∈ randomNodes, ∃ x ∈ indices.take n, nodes[x]? = some a := by
  induction count with
  | zero =>
    intro i n indices _ _ _ _
    exact ⟨[], rfl, rfl, nodup_nil, fun a ha => absurd ha not_mem_nil⟩
  | succ count ih =>
    intro i n indices hcount hlen hnodup hbound
    obtain ⟨n, rfl⟩ : ∃ m, n = m + 1 := ⟨n - 1, by omega⟩
    have hrand : hash i % (n + 1) < n + 1 := Nat.mod_lt _ (Nat.succ_pos n)
    generalize hr : hash i % (n + 1) = rand at hrand
    have hpool : rand < (indices.take (n + 1)).length := by
      rw [length_take]
      omega
    -- the index that is picked, its node, and the last index of the pool
    obtain ⟨index, hindex⟩ : ∃ x, indices[rand]? = some x := ⟨_, getElem?_eq_getElem (by omega)⟩
    have hpicked : (indices.take (n + 1))[rand]? = some index := by
      rw [getElem?_take_of_lt hrand, hindex]
    have hmem := mem_of_getElem? hpicked
    obtain ⟨node, hnode⟩ : ∃ a, nodes[index]? = some a :=
      ⟨_, getElem?_eq_getElem (hbound index hmem)⟩
    obtain ⟨last, hlast⟩ : ∃ x, indices[n]? = some x := ⟨_, getElem?_eq_getElem (by omega)⟩
    have hrest := take_set_last rand hlen hlast
    have hperm := swapRemoveAt_perm hpool
    rw [← hrest] at hperm
    have hsub : ∀ x ∈ (indices.set rand last).take n, x ∈ indices.take (n + 1) ∧ x ≠ index := by
      intro x hx
      rw [hperm.mem_iff] at hx
      refine ⟨mem_of_mem_eraseIdx hx, ?_⟩
      rintro rfl
      obtain ⟨j, hj, hjx⟩ := mem_eraseIdx_iff_getElem?.1 hx
      exact hj ((getElem?_inj hpool hnodup).1 (hpicked.trans hjx.symm)).symm
    obtain ⟨randomNodes, hok, hlength, hdistinct, hfrom⟩ := ih (by omega)
      (by rw [length_set]; omega) (hperm.nodup_iff.2 (hnodup.sublist (eraseIdx_sublist _ _)))
      fun x hx => hbound x (hsub x hx).1
    refine ⟨node :: randomNodes, ?_, by rw [length_cons, hlength], ?_, ?_⟩
    · have hpseudo : pseudoRandom hash i (n + 1) = .ok rand := by
        rw [pseudoRandom, if_neg (Nat.succ_ne_zero n), hr]
      exact bind_ok.2 ⟨rand, hpseudo, bind_ok.2 ⟨index, readAt_ok hindex, bind_ok.2
        ⟨node, readAt_ok hnode, bind_ok.2 ⟨n, subChecked_ok.2 ⟨Nat.le_add_left 1 n, rfl⟩, bind_ok.2
        ⟨last, readAt_ok hlast, bind_ok.2 ⟨randomNodes, hok, rfl⟩⟩⟩⟩⟩⟩
    · refine nodup_cons.2 ⟨fun hagain => ?_, hdistinct⟩
      obtain ⟨x, hx, hxnode⟩ := hfrom node hagain
      have heq := (getElem?_inj (hbound index hmem) hnodes).1 (hnode.trans hxnode.symm)
      exact (hsub x hx).2 heq.symm
    · intro a ha
      rcases mem_cons.1 ha with rfl | ha
      · exact ⟨index, hmem, hnode⟩
      · obtain ⟨x, hx, hxa⟩ := hfrom a ha
        exact ⟨x, (hsub x hx).1, hxa⟩

/-- **Random nodes.** From any set of nodes, for every count that it has and all outputs of the
    hash, `_getRandomNodes` returns that many registered nodes, pairwise distinct. -/
theorem getRandomNodes_distinct [ERC20Votes] (s : CheckerDiamond) (hash : Nat → Nat) (count : Nat)
    (hcount : count ≤ s.nodes.values.length) :
    ∃ randomNodes, s.getRandomNodes hash count = .ok randomNodes ∧ randomNodes.length = count ∧
      randomNodes.Nodup ∧ ∀ node ∈ randomNodes, node ∈ s.nodes := by
  obtain ⟨randomNodes, hok, hlength, hnodup, hfrom⟩ := pickNodes_ok s.nodes.nodup hash hcount
    (length_range.ge) (nodup_range.sublist (take_sublist _ _))
    fun x hx => mem_range.1 (mem_of_mem_take hx)
  refine ⟨randomNodes, ?_, hlength, hnodup, fun node hnode => ?_⟩
  · rw [CheckerDiamond.getRandomNodes, if_neg (Nat.not_lt.2 hcount), hok]
  · obtain ⟨x, -, hx⟩ := hfrom node hnode
    exact mem_of_getElem? hx

/-- Two of three nodes, with a hash that always gives 7. -/
theorem getRandomNodes_distinct_two :
    let s : CheckerDiamond := ⟨.init 8 9 3 (.init 0 9 1), ⟨[4, 5, 6], by decide⟩, fun _ => 0⟩
    ∃ randomNodes, s.getRandomNodes (fun _ => 7) 2 = .ok randomNodes ∧ randomNodes.length = 2 ∧
      randomNodes.Nodup ∧ ∀ node ∈ randomNodes, node ∈ s.nodes :=
  getRandomNodes_distinct _ (fun _ => 7) 2 (by decide)

end River.Contracts
