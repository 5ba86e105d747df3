/-
  The transaction pool of a node (core/node/crypto/chain_txpool.go).

  Every answer of the chain client and of the `createTx` callbacks is an input. A call that has
  not returned keeps the lock.
-/

import Mathlib.Data.List.Chain
import Mathlib.Tactic.Ring
import River.Lib.LinkedList
import River.Lib.Machine

namespace River.Node

open Function List Option Nat

structure ChainTx where
  hash : Nat
  nonce : UInt64
  gasFeeCap : Option Nat

structure CreateTransaction where
  create : UInt64 → Option ChainTx
  nonce_create : ∀ nonce, ∀ tx ∈ create nonce, tx.nonce = nonce

structure PendingTransaction where
  txHashes : List Nat
  nonce : UInt64
  optsNonce : UInt64
  next : Option Nat
  listener : List Nat
  executedHash : Option Nat

inductive PoolLock where
  | free | held | blocked
  deriving DecidableEq

structure TransactionPool where
  lock : PoolLock
  firstPendingTx : Option Nat
  lastPendingTx : Option Nat
  pendingTxCount : Int
  processedTxCount : Nat
  replacementsSent : Nat
  heap : Nat → PendingTransaction
  allocated : Nat

structure SentReceipt where
  tx : Nat
  txHash : Nat
  receipt : Nat

inductive ReceiptResponse where
  | receipt (receipt : Nat)
  | notFound
  | empty
  | error

inductive ReceiptAnswer where
  | receipt (txHash receipt : Nat)
  | nothing
  | failed

inductive SubmitError where
  | client | createTx | tooExpensive

structure SubmitArgs where
  pendingNonceAt : Option UInt64
  createTx : CreateTransaction
  sendTransaction : Bool

structure ReplaceArgs where
  eligible : Bool
  resubmit : CreateTransaction
  sendTransaction : Bool

structure OnBlockArgs where
  nonceAt : Option UInt64
  receipts : List (Nat → ReceiptResponse)
  head : Bool
  replacements : List ReplaceArgs

namespace TransactionPool

def new : TransactionPool :=
  ⟨.free, none, none, 0, 0, 0, fun _ => ⟨[], 0, 0, none, [], none⟩, 0⟩

/-! ## Submit -/

def nextNonce (pendingNonceAt : Option UInt64) (s : TransactionPool) : Option UInt64 :=
  match s.lastPendingTx with
  | some last => some ((s.heap last).nonce + 1)
  | none => pendingNonceAt

def append (tx : ChainTx) (nonce : UInt64) (s : TransactionPool) : TransactionPool :=
  let heap := update s.heap s.allocated ⟨[tx.hash], tx.nonce, nonce, none, [], none⟩
  { s with
    firstPendingTx := if s.lastPendingTx = none then some s.allocated else s.firstPendingTx
    lastPendingTx := some s.allocated
    heap := match s.lastPendingTx with
      | none => heap
      | some last => update heap last { heap last with next := some s.allocated }
    pendingTxCount := s.pendingTxCount + 1
    allocated := s.allocated + 1 }

variable (gasFeeCap : Option Nat)

def submit (args : SubmitArgs) (s : TransactionPool) : TransactionPool × Except SubmitError Nat :=
  match s.nextNonce args.pendingNonceAt with
  | none => (s, .error .client)
  | some nonce =>
    match args.createTx.create nonce with
    | none => (s, .error .createTx)
    | some tx =>
      if tx.gasFeeCap.any fun fee => gasFeeCap.any (fee > ·) then (s, .error .tooExpensive)
      else if args.sendTransaction = false then (s, .error .client)
      else (s.append tx nonce, .ok s.allocated)

/-! ## OnBlock -/

def answer : List Nat → (Nat → ReceiptResponse) → ReceiptAnswer
  | [], _ => .nothing
  | txHash :: txHashes, responses =>
    match responses 0 with
    | .receipt receipt => .receipt txHash receipt
    | .notFound | .empty => answer txHashes fun i => responses (i + 1)
    | .error => .failed

def received (p txHash : Nat) (s : TransactionPool) : TransactionPool :=
  { s with
    pendingTxCount := s.pendingTxCount - 1
    processedTxCount := s.processedTxCount + 1
    lastPendingTx := s.lastPendingTx.filter fun last => (s.heap last).nonce ≠ (s.heap p).nonce
    heap := update s.heap p { s.heap p with executedHash := some txHash } }

def sendReceipt (p receipt : Nat) (s : TransactionPool) : TransactionPool :=
  { s with
    firstPendingTx := (s.heap p).next
    heap := update s.heap p
      { s.heap p with listener := (s.heap p).listener ++ [receipt], next := none } }

inductive LoopEnd where
  | done | returned | waiting | blocked

def LoopEnd.lock : LoopEnd → PoolLock
  | .done | .returned => .free
  | .waiting => .held
  | .blocked => .blocked

def due (nonce : UInt64) (s : TransactionPool) : Option Nat :=
  s.firstPendingTx.filter fun p => (s.heap p).nonce < nonce

def receiptLoop (nonce : UInt64) : List (Nat → ReceiptResponse) → TransactionPool →
    TransactionPool × List SentReceipt × LoopEnd
  | [], s => (s, [], if (s.due nonce).isSome then .waiting else .done)
  | responses :: rest, s =>
    match s.due nonce with
    | none => (s, [], .done)
    | some p =>
      match answer (s.heap p).txHashes responses with
      | .nothing => receiptLoop nonce rest s
      | .failed => (s, [], .returned)
      | .receipt txHash receipt =>
        let s := s.received p txHash
        -- the channel has room for one receipt
        if (s.heap p).listener.length < 1 then
          let (t, sent, loopEnd) := receiptLoop nonce rest (s.sendReceipt p receipt)
          (t, ⟨p, txHash, receipt⟩ :: sent, loopEnd)
        else (s, [], .blocked)

def replace (p : Nat) (args : ReplaceArgs) (s : TransactionPool) : TransactionPool :=
  if args.eligible then
    match args.resubmit.create (s.heap p).optsNonce with
    | none => s
    | some tx =>
      if args.sendTransaction then
        { s with
          heap := update s.heap p
            { s.heap p with nonce := tx.nonce, txHashes := (s.heap p).txHashes ++ [tx.hash] }
          replacementsSent := s.replacementsSent + 1 }
      else s
  else s

def replaceLoop : List ReplaceArgs → Option Nat → TransactionPool → TransactionPool × LoopEnd
  | _, none, s => (s, .done)
  | [], some _, s => (s, .waiting)
  | args :: rest, some p, s =>
    let s := s.replace p args
    replaceLoop rest (s.heap p).next s

def onBlock (args : OnBlockArgs) (s : TransactionPool) : TransactionPool × List SentReceipt :=
  if s.firstPendingTx = none then (s, [])
  else
    match args.nonceAt with
    | none => (s, [])
    | some nonce =>
      match receiptLoop nonce args.receipts s with
      | (s, sent, .done) =>
        if s.firstPendingTx = none ∨ args.head = false then (s, sent)
        else
          let (s, loopEnd) := replaceLoop args.replacements s.firstPendingTx s
          ({ s with lock := loopEnd.lock }, sent)
      | (s, sent, loopEnd) => ({ s with lock := loopEnd.lock }, sent)

/-! ## Runs -/

inductive Call where
  | submit (args : SubmitArgs)
  | onBlock (args : OnBlockArgs)
  | receive (tx : Nat)

structure Effect where
  submitted : Option (Except SubmitError Nat)
  sent : List SentReceipt

variable (s : TransactionPool)

def step : Call → TransactionPool × Effect
  | .submit args =>
    if s.lock = .free then
      ((s.submit gasFeeCap args).1, ⟨some (s.submit gasFeeCap args).2, []⟩)
    else (s, ⟨none, []⟩)
  | .onBlock args =>
    if s.lock = .free then ((s.onBlock args).1, ⟨none, (s.onBlock args).2⟩) else (s, ⟨none, []⟩)
  | .receive p =>
    ({ s with
        heap := update s.heap p
          { s.heap p with listener := (s.heap p).listener.tail } }, ⟨none, []⟩)

/-- Submitted transactions, and their receipts. -/
def machine : Lib.Machine TransactionPool Call Effect :=
  ⟨step gasFeeCap⟩

def sent (call : Call) : List SentReceipt :=
  ((machine gasFeeCap).out s call).sent

/-- The count of pending transactions does not wrap. -/
def Fits : Call → Prop
  | .submit _ => s.pendingTxCount + 1 < 2 ^ 63
  | .onBlock _ | .receive _ => True

instance decidableFits (s : TransactionPool) : ∀ call, Decidable (Fits s call)
  | .submit _ => inferInstanceAs (Decidable (_ < _))
  | .onBlock _ | .receive _ => .isTrue trivial

/-! ## The list -/

/-- Nonces go up by one. -/
def Consecutive (l : List Nat) : Prop :=
  l.IsChain fun p q => (s.heap q).nonce = (s.heap p).nonce + 1

/-- What was sent to the listener of a transaction. -/
def sentTo (receipts : List SentReceipt) (p : Nat) : List Nat :=
  (receipts.filter (·.tx = p)).map (·.receipt)

/-- The pending transactions are the list `l`, and `receipts` were sent so far. -/
structure Listed (receipts : List SentReceipt) (l : List Nat) (s : TransactionPool) : Prop where
  linked : Lib.IsLinked (fun p => (s.heap p).next) s.firstPendingTx l
  last : s.lastPendingTx = l.getLast?
  consecutive : s.Consecutive l
  count : s.pendingTxCount = l.length
  short : l.length < 2 ^ 63
  distinct : l.Nodup
  allocated : ∀ p ∈ l, p < s.allocated
  options : ∀ p ∈ l, (s.heap p).optsNonce = (s.heap p).nonce
  listener : ∀ p < s.allocated, (s.heap p).listener <:+ sentTo receipts p
  once : (receipts.map (·.tx)).Nodup
  removed : ∀ e ∈ receipts, e.tx ∉ l ∧ e.tx < s.allocated
  own : ∀ e ∈ receipts, e.txHash ∈ (s.heap e.tx).txHashes
  lock : s.lock ≠ .blocked

structure Kept (s t : TransactionPool) : Prop where
  allocated : s.allocated ≤ t.allocated
  nonce : ∀ p < s.allocated, (t.heap p).nonce = (s.heap p).nonce

theorem Kept.refl : Kept s s := ⟨le_rfl, fun _ _ => rfl⟩

theorem Kept.trans {s t u : TransactionPool} (h : Kept s t) (h' : Kept t u) : Kept s u :=
  ⟨h.allocated.trans h'.allocated, fun p hp =>
    (h'.nonce p (hp.trans_le h.allocated)).trans (h.nonce p hp)⟩

theorem nonce_getLast {s : TransactionPool} {p : Nat} {l : List Nat} (h : s.Consecutive (p :: l)) :
    (s.heap ((p :: l).getLast (cons_ne_nil p l))).nonce
      = (s.heap p).nonce + UInt64.ofNat l.length := by
  induction l generalizing p with
  | nil => simp
  | cons q l ih =>
    obtain ⟨hq, hl⟩ := isChain_cons_cons.1 h
    rw [getLast_cons (cons_ne_nil q l), ih hl, hq]
    rw [length_cons, UInt64.ofNat_add, UInt64.add_assoc, UInt64.add_comm 1]
    rfl

theorem Listed.last_filter {p : Nat} {l : List Nat} (h : Listed receipts (p :: l) s) :
    (s.lastPendingTx.filter fun last => (s.heap last).nonce ≠ (s.heap p).nonce) = l.getLast? := by
  have hshort := h.short
  cases l with
  | nil => simp [h.last]
  | cons q l =>
    have hlast := nonce_getLast h.consecutive
    have hne : UInt64.ofNat (q :: l).length ≠ 0 := by
      intro heq
      have htoNat := congrArg UInt64.toNat heq
      rw [UInt64.toNat_ofNat'] at htoNat
      simp only [length_cons, UInt64.toNat_zero] at htoNat hshort
      omega
    rw [h.last, getLast?_eq_some_getLast (cons_ne_nil p _),
      getLast?_eq_some_getLast (cons_ne_nil q l), filter_some, if_pos,
      getLast_cons (cons_ne_nil q l)]
    refine decide_eq_true fun heq => hne ?_
    rw [hlast] at heq
    exact UInt64.add_eq_left.1 heq

theorem Listed.unanswered {s : TransactionPool} (h : Listed receipts l s) {p : Nat} (hp : p ∈ l) :
    (s.heap p).listener = [] := by
  have hnone : sentTo receipts p = [] := by
    rw [sentTo, filter_eq_nil_iff.2, map_nil]
    intro e he heq
    exact (h.removed e he).1 (of_decide_eq_true heq ▸ hp)
  exact suffix_nil.1 (hnone ▸ h.listener p (h.allocated p hp))

/-! ## What one change keeps -/

structure KeepsTx (tx tx' : PendingTransaction) : Prop where
  next : tx'.next = tx.next
  nonce : tx'.nonce = tx.nonce
  optsNonce : tx'.optsNonce = tx.optsNonce
  listener : tx'.listener <:+ tx.listener
  txHashes : ∀ txHash ∈ tx.txHashes, txHash ∈ tx'.txHashes

theorem KeepsTx.refl (tx : PendingTransaction) : KeepsTx tx tx :=
  ⟨rfl, rfl, rfl, suffix_refl _, fun _ => id⟩

theorem keepsTx_update {heap : Nat → PendingTransaction} (tx : PendingTransaction)
    (h : KeepsTx (heap p) tx) (q : Nat) : KeepsTx (heap q) (update heap p tx q) :=
  (forall_update_iff heap fun q tx => KeepsTx (heap q) tx).2
    ⟨h, fun q _ => .refl (heap q)⟩ q

section Changes

variable {receipts : List SentReceipt} {l : List Nat} {s : TransactionPool}

theorem Listed.modify (h : Listed receipts l s) {heap : Nat → PendingTransaction}
    (hkeeps : ∀ q, KeepsTx (s.heap q) (heap q)) (n : Nat) :
    Listed receipts l { s with heap, replacementsSent := n } ∧
      Kept s { s with heap, replacementsSent := n } := by
  refine ⟨{ h with
    linked := h.linked.congr fun p _ => (hkeeps p).next
    consecutive := ?_
    options := fun p hp => ?_
    listener := fun p hp => (hkeeps p).listener.trans (h.listener p hp)
    own := fun e he => (hkeeps e.tx).txHashes e.txHash (h.own e he) },
    ⟨le_rfl, fun p _ => (hkeeps p).nonce⟩⟩
  · refine h.consecutive.imp fun p q hpq => ?_
    rw [(hkeeps p).nonce, (hkeeps q).nonce]
    exact hpq
  · rw [(hkeeps p).nonce, (hkeeps p).optsNonce]
    exact h.options p hp

theorem Listed.replace (h : Listed receipts l s) {p : Nat} (hp : p ∈ l) (args : ReplaceArgs) :
    Listed receipts l (s.replace p args) ∧ Kept s (s.replace p args) ∧
      ∀ q, ((s.replace p args).heap q).next = (s.heap q).next := by
  have hsame : Listed receipts l s ∧ Kept s s ∧ ∀ q, (s.heap q).next = (s.heap q).next :=
    ⟨h, .refl s, fun _ => rfl⟩
  unfold TransactionPool.replace
  split
  · cases hcreate : args.resubmit.create (s.heap p).optsNonce with
    | none => exact hsame
    | some tx =>
      dsimp only
      split
      · have hnonce : tx.nonce = (s.heap p).nonce :=
          (args.resubmit.nonce_create _ tx hcreate).trans (h.options p hp)
        have hkeeps := keepsTx_update
          { s.heap p with nonce := tx.nonce, txHashes := (s.heap p).txHashes ++ [tx.hash] }
          ⟨rfl, hnonce, rfl, suffix_refl _, fun _ => mem_append_left _⟩
        obtain ⟨hlisted, hkept⟩ := h.modify hkeeps (s.replacementsSent + 1)
        exact ⟨hlisted, hkept, fun q => (hkeeps q).next⟩
      · exact hsame
  · exact hsame

theorem Listed.sendReceipt {p : Nat} (h : Listed receipts (p :: l) s) {txHash : Nat}
    (hown : txHash ∈ (s.heap p).txHashes) (receipt : Nat) :
    Listed (receipts ++ [⟨p, txHash, receipt⟩]) l ((s.received p txHash).sendReceipt p receipt) ∧
      Kept s ((s.received p txHash).sendReceipt p receipt) := by
  obtain ⟨hp, hdistinct⟩ := nodup_cons.1 h.distinct
  set t := (s.received p txHash).sendReceipt p receipt with ht
  have hfirst : t.firstPendingTx = (s.heap p).next := by
    simp [ht, TransactionPool.sendReceipt, received]
  -- the transactions that stay in the list are not the removed one
  have hother : ∀ q ∈ l, t.heap q = s.heap q := fun q hq => by
    simp [ht, TransactionPool.sendReceipt, received, ne_of_mem_of_not_mem hq hp]
  have hsame : ∀ q, (t.heap q).nonce = (s.heap q).nonce ∧
      (t.heap q).txHashes = (s.heap q).txHashes := fun q => by
    by_cases hq : q = p <;> simp [ht, TransactionPool.sendReceipt, received, hq]
  refine ⟨{
    linked := hfirst ▸ h.linked.2.congr fun q hq => congrArg _ (hother q hq)
    last := h.last_filter
    consecutive := ?_
    count := ?_
    short := (lt_succ_self _).trans h.short
    distinct := hdistinct
    allocated := fun q hq => h.allocated q (mem_cons_of_mem _ hq)
    options := fun q hq => ?_
    listener := fun q hq => ?_
    once := ?_
    removed := fun e he => ?_
    own := fun e he => ?_
    lock := h.lock }, ⟨le_rfl, fun q _ => (hsame q).1⟩⟩
  · refine (IsChain.tail h.consecutive).imp fun q r hqr => ?_
    rw [(hsame r).1, (hsame q).1]
    exact hqr
  · show s.pendingTxCount - 1 = _
    rw [h.count, length_cons]
    omega
  · rw [hother q hq]
    exact h.options q (mem_cons_of_mem _ hq)
  · obtain ⟨earlier, hearlier⟩ := h.listener q hq
    rw [sentTo, filter_append, map_append]
    by_cases heq : q = p
    · subst heq
      refine ⟨earlier, ?_⟩
      simp [ht, TransactionPool.sendReceipt, received, ← append_assoc, hearlier, sentTo]
    · refine ⟨earlier, ?_⟩
      simp [ht, TransactionPool.sendReceipt, received, heq, Ne.symm heq, hearlier, sentTo]
  · rw [map_append]
    refine nodup_append.2 ⟨h.once, pairwise_singleton _ _, ?_⟩
    rintro _ hq _ hr rfl
    obtain ⟨e, he, rfl⟩ := mem_map.1 hq
    exact (h.removed e he).1 (mem_cons.2 (.inl (mem_singleton.1 hr)))
  · obtain he | he := mem_append.1 he
    · exact ⟨fun hmem => (h.removed e he).1 (mem_cons_of_mem _ hmem), (h.removed e he).2⟩
    · obtain rfl := mem_singleton.1 he
      exact ⟨hp, h.allocated p mem_cons_self⟩
  · rw [(hsame _).2]
    obtain he | he := mem_append.1 he
    · exact h.own e he
    · obtain rfl := mem_singleton.1 he
      exact hown

open TransactionPool

theorem append_heap (s : TransactionPool) (tx : ChainTx) (nonce : UInt64) {q : Nat}
    (hq : q < s.allocated) :
    (s.append tx nonce).heap q
      = { s.heap q with
          next := if s.lastPendingTx = some q then some s.allocated else (s.heap q).next } := by
  unfold append
  have hne : q ≠ s.allocated := hq.ne
  cases hlast : s.lastPendingTx with
  | none => simp [update_of_ne hne]
  | some last =>
    by_cases hql : q = last
    · subst hql
      simp [update_of_ne hne]
    · have hne' : last ≠ q := fun heq => hql heq.symm
      simp [update_of_ne hne, update_of_ne hql, hne']

theorem Listed.append (h : Listed receipts l s) {args : SubmitArgs} {nonce : UInt64}
    (hnonce : s.nextNonce args.pendingNonceAt = some nonce) {tx : ChainTx} (htx : tx.nonce = nonce)
    (hfits : s.pendingTxCount + 1 < 2 ^ 63) :
    Listed receipts (l ++ [s.allocated]) (s.append tx nonce) ∧ Kept s (s.append tx nonce) := by
  have hlast : ∀ last ∈ s.lastPendingTx, last ∈ l := fun last hmem =>
    mem_of_getLast? (h.last ▸ hmem)
  have hnew : (s.append tx nonce).heap s.allocated
      = ⟨[tx.hash], tx.nonce, nonce, none, [], none⟩ := by
    unfold TransactionPool.append
    cases hs : s.lastPendingTx with
    | none => simp
    | some last =>
      have hne : s.allocated ≠ last := (h.allocated last (hlast last hs)).ne'
      simp [update_of_ne hne]
  have hold : ∀ q ∈ l, (s.append tx nonce).heap q = { s.heap q with
      next := if s.lastPendingTx = some q then some s.allocated else (s.heap q).next } :=
    fun q hq => append_heap s tx nonce (h.allocated q hq)
  have hfresh : s.allocated ∉ l := fun hmem => (h.allocated _ hmem).false
  refine ⟨{
    linked := ?_
    last := getLast?_concat.symm
    consecutive := ?_
    count := ?_
    short := ?_
    distinct := nodup_append.2 ⟨h.distinct, pairwise_singleton _ _, ?_⟩
    allocated := ?_
    options := ?_
    listener := fun q hq => ?_
    once := h.once
    removed := fun e he => ⟨?_, (h.removed e he).2.trans (lt_succ_self _)⟩
    own := fun e he => ?_
    lock := h.lock }, ⟨le_succ _, fun q hq => by rw [append_heap s tx nonce hq]⟩⟩
  · -- the list is empty, or its last transaction is linked to the new one
    obtain rfl | ⟨_, last, rfl⟩ := eq_nil_or_concat' l
    · have hnone : s.lastPendingTx = none := h.last
      refine ⟨if_pos hnone, ?_⟩
      show ((s.append tx nonce).heap s.allocated).next = none
      rw [hnew]
    · have hsome : s.lastPendingTx = some last := h.last.trans getLast?_concat
      have hdistinct := (nodup_append.1 h.distinct).2.2
      rw [append_assoc]
      show Lib.IsLinked _ (if s.lastPendingTx = none then _ else s.firstPendingTx) _
      rw [if_neg (by rw [hsome]; exact nofun)]
      refine h.linked.concat (fun q hq => ?_) ?_ ?_
      · have hne : last ≠ q := fun heq => hdistinct q hq last (mem_singleton_self _) heq.symm
        rw [hold q (mem_append_left _ hq), hsome]
        exact if_neg fun heq => hne (some.inj heq)
      · rw [hold last (mem_append_right _ (mem_singleton_self _)), hsome]
        exact if_pos rfl
      · rw [hnew]
  · refine isChain_append.2 ⟨?_, isChain_singleton _, ?_⟩
    · refine .imp_of_mem_imp ?_ h.consecutive
      intro q r hq hr hqr
      rw [hold q hq, hold r hr]
      exact hqr
    · rintro last hmem _ ⟨⟩
      have hs : s.lastPendingTx = some last := h.last.trans hmem
      rw [hnew, hold last (hlast last hs)]
      rw [nextNonce, hs] at hnonce
      exact htx.trans (some.inj hnonce).symm
  · show s.pendingTxCount + 1 = _
    rw [h.count, length_append]
    rfl
  · have hcount := h.count
    rw [length_append, length_singleton]
    omega
  · rintro q hq _ hr rfl
    exact hfresh (mem_singleton.1 hr ▸ hq)
  · exact forall_mem_append.2 ⟨fun q hq => (h.allocated q hq).trans (lt_succ_self _),
      forall_mem_singleton.2 (lt_succ_self _)⟩
  · refine forall_mem_append.2 ⟨fun q hq => ?_, forall_mem_singleton.2 ?_⟩
    · rw [hold q hq]
      exact h.options q hq
    · rw [hnew]
      exact htx.symm
  · rcases Nat.lt_succ_iff_lt_or_eq.1 hq with hq | rfl
    · rw [append_heap s tx nonce hq]
      exact h.listener q hq
    · rw [hnew]
      exact nil_suffix
  · intro hmem
    obtain hmem | hmem := mem_append.1 hmem
    · exact (h.removed e he).1 hmem
    · exact (h.removed e he).2.ne (mem_singleton.1 hmem)
  · rw [append_heap s tx nonce (h.removed e he).2]
    exact h.own e he

end Changes

/-! ## What the calls keep -/

section Calls

variable {receipts : List SentReceipt} {l : List Nat} {s : TransactionPool}

theorem answer_mem {txHashes : List Nat} {txHash receipt : Nat}
    (h : answer txHashes responses = .receipt txHash receipt) : txHash ∈ txHashes := by
  induction txHashes generalizing responses with
  | nil => cases h
  | cons head txHashes ih =>
    unfold answer at h
    split at h
    · cases h
      exact mem_cons_self
    · exact mem_cons_of_mem _ (ih h)
    · exact mem_cons_of_mem _ (ih h)
    · cases h

theorem Listed.receiptLoop (nonce : UInt64) (passes : List (Nat → ReceiptResponse))
    (h : Listed receipts l s) :
    ∃ l', Listed (receipts ++ (receiptLoop nonce passes s).2.1) l' (receiptLoop nonce passes s).1 ∧
      Kept s (receiptLoop nonce passes s).1 ∧ (receiptLoop nonce passes s).2.2.lock ≠ .blocked ∧
      l'.length ≤ l.length := by
  induction passes generalizing receipts l s with
  | nil =>
    refine ⟨l, by simpa [receiptLoop] using h, .refl s, ?_, le_rfl⟩
    unfold receiptLoop
    split <;> exact nofun
  | cons responses passes ih =>
    have hsame : Listed (receipts ++ []) l s := by rwa [append_nil]
    unfold receiptLoop
    cases hdue : s.due nonce with
    | none => exact ⟨l, hsame, .refl s, nofun, le_rfl⟩
    | some p =>
      dsimp only
      cases hanswer : answer (s.heap p).txHashes responses with
      | nothing => exact ih h
      | failed => exact ⟨l, hsame, .refl s, nofun, le_rfl⟩
      | receipt txHash receipt =>
        have hfirst : s.firstPendingTx = some p := (filter_eq_some_iff.1 hdue).1
        cases l with
        | nil => exact absurd (h.linked.symm.trans hfirst) nofun
        | cons q l =>
          obtain rfl : q = p := some.inj (h.linked.1.symm.trans hfirst)
          have hempty : ((s.received q txHash).heap q).listener.length < 1 := by
            simp [received, h.unanswered mem_cons_self]
          obtain ⟨hlisted, hkept⟩ := h.sendReceipt (answer_mem hanswer) receipt
          obtain ⟨l', hlisted', hkept', hend, hlength⟩ := ih hlisted
          rw [append_assoc] at hlisted'
          dsimp only
          rw [if_pos hempty]
          exact ⟨l', hlisted', hkept.trans hkept', hend, le_succ_of_le hlength⟩

theorem Listed.replaceLoop (args : List ReplaceArgs) {p : Option Nat} (front back : List Nat)
    (h : Listed receipts (front ++ back) s) (hp : Lib.IsLinked (fun p => (s.heap p).next) p back) :
    Listed receipts (front ++ back) (replaceLoop args p s).1 ∧ Kept s (replaceLoop args p s).1 ∧
      (replaceLoop args p s).2.lock ≠ .blocked ∧
      (back.length ≤ args.length → (replaceLoop args p s).2 = .done) := by
  induction args generalizing p front back s with
  | nil =>
    cases p with
    | none => exact ⟨h, .refl s, nofun, fun _ => rfl⟩
    | some p =>
      refine ⟨h, .refl s, nofun, fun hlength => ?_⟩
      rw [length_eq_zero_iff.1 (le_zero.1 hlength)] at hp
      cases hp
  | cons args rest ih =>
    cases back with
    | nil =>
      rw [show p = none from hp]
      exact ⟨h, .refl s, nofun, fun _ => rfl⟩
    | cons q back =>
      rw [hp.1]
      obtain ⟨hlisted, hkept, hnext⟩ :=
        h.replace (mem_append_right _ mem_cons_self) args
      have hrest : Lib.IsLinked (fun p => ((s.replace q args).heap p).next)
          ((s.replace q args).heap q).next back := by
        rw [hnext q]
        exact hp.2.congr fun r _ => hnext r
      rw [append_cons] at hlisted ⊢
      obtain ⟨hlisted', hkept', hend, hdone⟩ := ih _ _ hlisted hrest
      exact ⟨hlisted', hkept.trans hkept', hend, fun h => hdone (le_of_succ_le_succ h)⟩

theorem Listed.withLock (h : Listed receipts l s) {lock : PoolLock} (hlock : lock ≠ .blocked) :
    Listed receipts l { s with lock } := { h with lock := hlock }

theorem Listed.onBlock (h : Listed receipts l s) (args : OnBlockArgs) :
    ∃ l', Listed (receipts ++ (s.onBlock args).2) l' (s.onBlock args).1 ∧
      Kept s (s.onBlock args).1 := by
  have hsame : ∃ l', Listed (receipts ++ []) l' s ∧ Kept s s :=
    ⟨l, by rwa [append_nil], .refl s⟩
  unfold TransactionPool.onBlock
  split
  · exact hsame
  cases args.nonceAt with
  | none => exact hsame
  | some nonce =>
    obtain ⟨l', hlisted, hkept, hend, -⟩ := h.receiptLoop nonce args.receipts
    dsimp only
    generalize TransactionPool.receiptLoop nonce args.receipts s = result at hlisted hkept hend ⊢
    obtain ⟨t, _, loopEnd⟩ := result
    cases loopEnd with
    | done =>
      dsimp only at hlisted hkept ⊢
      split
      · exact ⟨l', hlisted, hkept⟩
      · obtain ⟨hlisted', hkept', hend', -⟩ :=
          Listed.replaceLoop args.replacements [] l' hlisted hlisted.linked
        exact ⟨l', hlisted'.withLock hend', hkept.trans ⟨hkept'.allocated, hkept'.nonce⟩⟩
    | blocked => exact absurd rfl hend
    | _ => exact ⟨l', hlisted.withLock hend, ⟨hkept.allocated, hkept.nonce⟩⟩

theorem Listed.submit (h : Listed receipts l s) (gasFeeCap : Option Nat) (args : SubmitArgs)
    (hfits : s.pendingTxCount + 1 < 2 ^ 63) :
    ∃ l', Listed receipts l' (s.submit gasFeeCap args).1 ∧ Kept s (s.submit gasFeeCap args).1 := by
  have hsame : ∃ l', Listed receipts l' s ∧ Kept s s := ⟨l, h, .refl s⟩
  unfold TransactionPool.submit
  cases hnonce : s.nextNonce args.pendingNonceAt with
  | none => exact hsame
  | some nonce =>
    dsimp only
    cases hcreate : args.createTx.create nonce with
    | none => exact hsame
    | some tx =>
      dsimp only
      split
      · exact hsame
      split
      · exact hsame
      · exact ⟨_, h.append hnonce (args.createTx.nonce_create nonce tx hcreate) hfits⟩

theorem Listed.step (h : Listed receipts l s) (gasFeeCap : Option Nat) (hfits : Fits s call) :
    ∃ l', Listed (receipts ++ sent gasFeeCap s call) l' ((machine gasFeeCap).next s call) ∧
      Kept s ((machine gasFeeCap).next s call) := by
  have hsame : ∃ l', Listed (receipts ++ []) l' s ∧ Kept s s :=
    ⟨l, by rwa [append_nil], .refl s⟩
  unfold TransactionPool.sent Lib.Machine.out Lib.Machine.next machine
  cases call with
  | submit args =>
    unfold TransactionPool.step
    dsimp only
    split
    · rw [append_nil]
      exact h.submit gasFeeCap args hfits
    · exact hsame
  | onBlock args =>
    unfold TransactionPool.step
    dsimp only
    split
    · exact h.onBlock args
    · exact hsame
  | receive p =>
    refine ⟨l, ?_⟩
    rw [show (TransactionPool.step gasFeeCap s (.receive p)).2.sent = [] from rfl, append_nil]
    have hkeeps := keepsTx_update { s.heap p with listener := (s.heap p).listener.tail }
      ⟨rfl, rfl, rfl, tail_suffix _, fun _ => id⟩
    exact h.modify hkeeps s.replacementsSent

end Calls

/-! ## The pool over a whole run -/

theorem listed_exec {gasFeeCap : Option Nat} {calls : List Call}
    (hfits : (machine gasFeeCap).Along Fits new calls) :
    ∃ l, Listed ((machine gasFeeCap).collect (sent gasFeeCap) new calls) l
      ((machine gasFeeCap).exec new calls) := by
  have hnew : ∃ l, Listed [] l new :=
    ⟨[], ⟨rfl, rfl, .nil, rfl, by decide, nodup_nil, nofun, nofun, nofun,
      nodup_nil, nofun, nofun, nofun⟩⟩
  exact Lib.Machine.collect_invariant
    (J := fun receipts s => ∃ l, Listed receipts l s) (fun _ _ _ => trivial)
    (fun _ _ _ ⟨_, hlisted⟩ hfits _ => (hlisted.step gasFeeCap hfits).imp fun _ => And.left)
    hnew hfits trivial

/-- **The pool is a list, and every transaction is answered once.** After any calls, with any
    answers: the list from the first transaction ends in the last one, the nonces are consecutive
    and the counter is the length. No call waits for a listener, and no transaction was sent a
    second receipt or one of another hash. -/
theorem pool_listed (gasFeeCap : Option Nat) (calls : List Call)
    (hfits : (machine gasFeeCap).Along Fits new calls) :
    let s := (machine gasFeeCap).exec new calls
    let receipts := (machine gasFeeCap).collect (sent gasFeeCap) new calls
    (∃ l, Lib.IsLinked (fun p => (s.heap p).next) s.firstPendingTx l ∧
        s.lastPendingTx = l.getLast? ∧ (s.firstPendingTx = none ↔ s.lastPendingTx = none) ∧
        s.Consecutive l ∧ s.pendingTxCount = l.length) ∧
      s.lock ≠ .blocked ∧
      (∀ call, Fits s call → ∀ p < s.allocated,
        (((machine gasFeeCap).next s call).heap p).nonce = (s.heap p).nonce) ∧
      (receipts.map (·.tx)).Nodup ∧
      (∀ e ∈ receipts, e.tx < s.allocated ∧ e.txHash ∈ (s.heap e.tx).txHashes) ∧
      ∀ p < s.allocated, (s.heap p).listener <:+ sentTo receipts p := by
  intro s receipts
  obtain ⟨l, h⟩ := listed_exec hfits
  refine ⟨⟨l, h.linked, h.last, ?_, h.consecutive, h.count⟩, h.lock, fun call hcall => ?_, h.once,
    fun e he => ⟨(h.removed e he).2, h.own e he⟩, h.listener⟩
  · rw [h.linked.eq_none_iff, h.last, getLast?_eq_none_iff]
  · obtain ⟨_, _, hkept⟩ := h.step gasFeeCap hcall
    exact hkept.nonce

def exampleTx (hash : Nat) : CreateTransaction where
  create nonce := some ⟨hash, nonce, none⟩
  nonce_create := by
    rintro nonce tx ⟨⟩
    rfl

def exampleCalls : List Call :=
  [.submit ⟨some 7, exampleTx 70, true⟩, .submit ⟨none, exampleTx 80, true⟩,
    .onBlock ⟨some 7, [], true, [⟨true, exampleTx 71, true⟩, ⟨false, exampleTx 81, true⟩]⟩,
    .onBlock ⟨some 8, [fun _ => .notFound, fun i => if i = 0 then .notFound else .receipt 5], true,
      [⟨false, exampleTx 81, true⟩]⟩]

theorem pool_listed_replaced :
    let receipts := (machine none).collect (sent none) new exampleCalls
    receipts.map (·.txHash) = [71] ∧ (receipts.map (·.tx)).Nodup :=
  ⟨by decide, (pool_listed none exampleCalls (by decide)).2.2.2.1⟩

/-! ## The end of a call -/

/-- From pass `k` on, a transaction of the list that is due is asked for without end: the first
    one, or one behind those for which a receipt comes. -/
def Stuck (nonce : UInt64) (responses : Nat → Nat → ReceiptResponse)
    (heap : Nat → PendingTransaction) : List Nat → Nat → Prop
  | [], _ => False
  | p :: l, k => (heap p).nonce < nonce ∧
    ((∀ m ≥ k, answer (heap p).txHashes (responses m) = .nothing) ∨
      ∃ m ≥ k, (∀ i ≥ k, i < m → answer (heap p).txHashes (responses i) = .nothing) ∧
        (∃ txHash receipt, answer (heap p).txHashes (responses m) = .receipt txHash receipt) ∧
        Stuck nonce responses heap l (m + 1))

/-- The receipts loop ends after finitely many passes. -/
def Ends (nonce : UInt64) (responses : Nat → Nat → ReceiptResponse) (s : TransactionPool)
    (k : Nat) : Prop :=
  ∃ n, ∀ N ≥ n, (receiptLoop nonce ((range' k N).map responses) s).2.2.lock = .free

section Ends

variable {nonce : UInt64} {responses : Nat → Nat → ReceiptResponse} {s : TransactionPool}

theorem receiptLoop_lock (passes : List (Nat → ReceiptResponse)) (s : TransactionPool) :
    (receiptLoop nonce passes s).1.lock = s.lock := by
  induction passes generalizing s with
  | nil => rfl
  | cons responses passes ih =>
    unfold receiptLoop
    split
    · rfl
    split
    · exact ih s
    · rfl
    · dsimp only
      split
      · exact ih _
      · rfl

theorem Stuck.congr {heap heap' : Nat → PendingTransaction} {l : List Nat}
    (hsame : ∀ p ∈ l, heap' p = heap p) (k : Nat) :
    Stuck nonce responses heap' l k ↔ Stuck nonce responses heap l k := by
  induction l generalizing k with
  | nil => exact Iff.rfl
  | cons p l ih =>
    obtain ⟨hp, hl⟩ := forall_mem_cons.1 hsame
    simp only [Stuck, hp, ih hl]

theorem ends_of_due_eq_none (hdue : s.due nonce = none) (k : Nat) : Ends nonce responses s k := by
  refine ⟨0, fun N _ => ?_⟩
  cases N <;> simp [range'_succ, receiptLoop, hdue, LoopEnd.lock]

theorem ends_iff_succ {k : Nat} {t : TransactionPool}
    (hpass : ∀ rest, (receiptLoop nonce (responses k :: rest) s).2.2 =
      (receiptLoop nonce rest t).2.2) :
    Ends nonce responses s k ↔ Ends nonce responses t (k + 1) := by
  constructor
  · rintro ⟨n, hn⟩
    refine ⟨n, fun N hN => ?_⟩
    have hfree := hn (N + 1) (by omega)
    rwa [range'_succ, map_cons, hpass] at hfree
  · rintro ⟨n, hn⟩
    refine ⟨n + 1, fun N hN => ?_⟩
    obtain ⟨N, rfl⟩ := Nat.exists_eq_add_of_lt hN
    rw [range'_succ, map_cons, hpass]
    exact hn _ (by omega)

variable {p : Nat} (hdue : s.due nonce = some p)

include hdue

theorem ends_iff_of_nothing {k m : Nat} (hk : k ≤ m)
    (hnothing : ∀ i ≥ k, i < m → answer (s.heap p).txHashes (responses i) = .nothing) :
    Ends nonce responses s k ↔ Ends nonce responses s m := by
  obtain ⟨d, rfl⟩ := Nat.exists_eq_add_of_le hk
  clear hk
  induction d generalizing k with
  | zero => exact Iff.rfl
  | succ d ih =>
    have hfirst := hnothing k le_rfl (by omega)
    rw [ends_iff_succ (t := s) fun rest => by simp only [receiptLoop, hdue, hfirst],
      ih fun i hi hlt => hnothing i (by omega) (by omega), Nat.add_right_comm]
    rfl

theorem not_ends_of_nothing {k : Nat}
    (hnothing : ∀ m ≥ k, answer (s.heap p).txHashes (responses m) = .nothing) :
    ¬ Ends nonce responses s k := by
  rintro ⟨n, hn⟩
  have hwaiting : ∀ N k, (∀ m ≥ k, answer (s.heap p).txHashes (responses m) = .nothing) →
      (receiptLoop nonce ((range' k N).map responses) s).2.2 = .waiting := by
    intro N
    induction N with
    | zero =>
      intro k _
      simp [receiptLoop, hdue]
    | succ N ih =>
      intro k hk
      rw [range'_succ, map_cons, receiptLoop, hdue]
      simp only [hk k le_rfl]
      exact ih (k + 1) fun m hm => hk m (by omega)
  have hfree := hn n le_rfl
  rw [hwaiting n k hnothing] at hfree
  cases hfree

omit hdue

theorem Listed.ends_iff {receipts : List SentReceipt} {l : List Nat} (h : Listed receipts l s)
    (k : Nat) : Ends nonce responses s k ↔ ¬ Stuck nonce responses s.heap l k := by
  induction l generalizing receipts s k with
  | nil =>
    have hfirst : s.firstPendingTx = none := h.linked
    exact iff_of_true (ends_of_due_eq_none (by rw [due, hfirst, filter_none]) k) id
  | cons p l ih =>
    have hfirst : s.firstPendingTx = some p := h.linked.1
    by_cases hnonce : (s.heap p).nonce < nonce
    swap
    · refine iff_of_true (ends_of_due_eq_none ?_ k) fun hstuck => hnonce hstuck.1
      rw [due, hfirst, filter_some, if_neg (by simpa using hnonce)]
    have hdue : s.due nonce = some p := by
      rw [due, hfirst, filter_some, if_pos (by simpa using hnonce)]
    by_cases hnothing : ∀ m ≥ k, answer (s.heap p).txHashes (responses m) = .nothing
    · exact iff_of_false (not_ends_of_nothing hdue hnothing) fun hfree =>
        hfree ⟨hnonce, .inl hnothing⟩
    -- the first pass with an answer ends the loop or takes the transaction out
    obtain ⟨m, ⟨hm, hanswer⟩, hbefore⟩ : ∃ m, (k ≤ m ∧
        answer (s.heap p).txHashes (responses m) ≠ .nothing) ∧
        ∀ i < m, ¬ (k ≤ i ∧ answer (s.heap p).txHashes (responses i) ≠ .nothing) := by
      push Not at hnothing
      classical exact ⟨Nat.find hnothing, Nat.find_spec hnothing, fun i => Nat.find_min hnothing⟩
    have hquiet : ∀ i ≥ k, i < m → answer (s.heap p).txHashes (responses i) = .nothing :=
      fun i hi hlt => by_contra fun hne => hbefore i hlt ⟨hi, hne⟩
    have honly : ∀ {m'}, m' ≥ k →
        (∀ i ≥ k, i < m' → answer (s.heap p).txHashes (responses i) = .nothing) →
        answer (s.heap p).txHashes (responses m') ≠ .nothing → m' = m := by
      intro m' hm' hquiet' hanswer'
      rcases Nat.lt_trichotomy m' m with hlt | heq | hlt
      · exact absurd (hquiet m' hm' hlt) hanswer'
      · exact heq
      · exact absurd (hquiet' m hm hlt) hanswer
    rw [ends_iff_of_nothing hdue hm hquiet]
    cases hcase : answer (s.heap p).txHashes (responses m) with
    | nothing => exact absurd hcase hanswer
    | failed =>
      refine iff_of_true ⟨1, fun N hN => ?_⟩ ?_
      · obtain ⟨N, rfl⟩ := Nat.exists_eq_add_of_lt hN
        simp [range'_succ, TransactionPool.receiptLoop, hdue, hcase, LoopEnd.lock]
      · rintro ⟨-, hstuck | ⟨m', hm', hquiet', ⟨_, _, hreceipt⟩, -⟩⟩
        · exact hnothing hstuck
        · cases honly hm' hquiet' (by rw [hreceipt]; exact nofun)
          rw [hcase] at hreceipt
          cases hreceipt
    | receipt txHash receipt =>
      have hempty : ((s.received p txHash).heap p).listener.length < 1 := by
        simp [received, h.unanswered mem_cons_self]
      have hother : ∀ q ∈ l, ((s.received p txHash).sendReceipt p receipt).heap q = s.heap q := by
        intro q hq
        have hne := ne_of_mem_of_not_mem hq (nodup_cons.1 h.distinct).1
        simp [TransactionPool.sendReceipt, received, update_of_ne hne]
      rw [ends_iff_succ (t := (s.received p txHash).sendReceipt p receipt) fun rest => by
          simp only [TransactionPool.receiptLoop, hdue, hcase, if_pos hempty],
        ih (h.sendReceipt (answer_mem hcase) receipt).1, Stuck.congr hother, not_iff_not]
      constructor
      · exact fun hstuck => ⟨hnonce, .inr ⟨m, hm, hquiet, ⟨txHash, receipt, hcase⟩, hstuck⟩⟩
      · rintro ⟨-, hstuck | ⟨m', hm', hquiet', ⟨_, _, hreceipt⟩, hstuck⟩⟩
        · exact absurd hstuck hnothing
        · cases honly hm' hquiet' (by rw [hreceipt]; exact nofun)
          exact hstuck

end Ends

/-- **A block is processed.** After any calls that have returned, with any answers: the call returns
    after finitely many answers, with the lock free, exactly if no transaction that is due is asked
    for without end. -/
theorem onBlock_releases_lock (gasFeeCap : Option Nat) (calls : List Call)
    (hfits : (machine gasFeeCap).Along Fits new calls)
    (hfree : ((machine gasFeeCap).exec new calls).lock = .free) (nonceAt : Option UInt64)
    (responses : Nat → Nat → ReceiptResponse) (head : Bool) (replacements : Nat → ReplaceArgs) :
    let s := (machine gasFeeCap).exec new calls
    ∃ l, Lib.IsLinked (fun p => (s.heap p).next) s.firstPendingTx l ∧
      ((∃ n, ∀ N ≥ n, (s.onBlock ⟨nonceAt, (range N).map responses, head,
        (range N).map replacements⟩).1.lock = .free) ↔
      ∀ nonce ∈ nonceAt, ¬ Stuck nonce responses s.heap l 0) := by
  intro s
  obtain ⟨l, h⟩ := listed_exec hfits
  refine ⟨l, h.linked, ?_⟩
  cases nonceAt with
  | none =>
    refine iff_of_true ⟨0, fun N _ => ?_⟩ nofun
    unfold onBlock
    split <;> exact hfree
  | some nonce =>
    have hcall : ∀ N ≥ l.length, (s.onBlock ⟨some nonce, (range N).map responses, head,
        (range N).map replacements⟩).1.lock = .free ↔
        (receiptLoop nonce ((range' 0 N).map responses) s).2.2.lock = .free := by
      intro N hN
      rw [← range_eq_range']
      obtain ⟨l', hlisted, -, -, _⟩ := h.receiptLoop nonce ((range N).map responses)
      have hlock : (receiptLoop nonce ((range N).map responses) s).1.lock = .free :=
        (receiptLoop_lock _ s).trans hfree
      unfold onBlock
      split
      · rename_i hnone
        refine iff_of_true hfree ?_
        have hdue : s.due nonce = none := by rw [due, hnone, filter_none]
        cases N <;> simp [range_succ_eq_map, receiptLoop, hdue, LoopEnd.lock]
      dsimp only
      generalize receiptLoop nonce _ _ = result at hlock hlisted ⊢
      obtain ⟨t, _, loopEnd⟩ := result
      cases loopEnd with
      | done =>
        dsimp only at hlisted ⊢
        split
        · exact iff_of_true hlock rfl
        · have hdone := (Listed.replaceLoop ((range N).map replacements) [] l' hlisted
            hlisted.linked).2.2.2 (by rw [length_map, length_range]; omega)
          rw [hdone]
      | _ => exact Iff.rfl
    have hnonce : (∀ nonce' ∈ some nonce, ¬ Stuck nonce' responses s.heap l 0) ↔
        Ends nonce responses s 0 := by
      rw [h.ends_iff]
      exact ⟨fun hall => hall nonce rfl, fun hnot _ hmem => some.inj hmem ▸ hnot⟩
    rw [hnonce]
    constructor
    · rintro ⟨n, hn⟩
      exact ⟨max n l.length, fun N hN => (hcall N (by omega)).1 (hn N (by omega))⟩
    · rintro ⟨n, hn⟩
      exact ⟨max n l.length, fun N hN => (hcall N (by omega)).2 (hn N (by omega))⟩

theorem onBlock_releases_lock_two :
    ∃ n, ∀ N ≥ n, (((machine none).exec new (exampleCalls.take 2)).onBlock
      ⟨some 9, (range N).map fun _ _ => .receipt 5, true,
        (range N).map fun _ => ⟨false, exampleTx 81, true⟩⟩).1.lock = .free := by
  obtain ⟨l, hl, hiff⟩ := onBlock_releases_lock none (exampleCalls.take 2) (by decide) rfl (some 9)
    (fun _ _ => .receipt 5) true fun _ => ⟨false, exampleTx 81, true⟩
  refine hiff.2 fun nonce _ => ?_
  -- the list is that of the two transactions, and each is answered
  rcases l with _ | ⟨p, l⟩
  · exact id
  obtain ⟨⟨⟩, hl⟩ := hl
  rintro ⟨-, hstuck | ⟨m, -, -, -, hstuck⟩⟩
  · cases hstuck 0 le_rfl
  rcases l with _ | ⟨q, l⟩
  · exact hstuck
  obtain ⟨⟨⟩, hl⟩ := hl
  obtain ⟨-, hstuck | ⟨m', -, -, -, hstuck⟩⟩ := hstuck
  · cases hstuck _ le_rfl
  rcases l with _ | ⟨r, l⟩
  · exact hstuck
  · cases hl.1

/-- A client that knows none of the receipts of a transaction that is executed is asked forever. -/
theorem onBlock_never_returns :
    ¬ ∃ n, ∀ N ≥ n, (((machine none).exec new (exampleCalls.take 1)).onBlock
      ⟨some 8, replicate N fun _ => .notFound, true, []⟩).1.lock = .free := by
  have hloop : ∀ N, receiptLoop 8 (replicate N fun _ => .notFound)
      ((machine none).exec new (exampleCalls.take 1))
        = ((machine none).exec new (exampleCalls.take 1), [], .waiting) := by
    intro N
    induction N with
    | zero => rfl
    | succ N ih => exact ih
  rintro ⟨n, hn⟩
  have hfree := hn n le_rfl
  simp only [onBlock, hloop] at hfree
  cases hfree

end TransactionPool

end River.Node
