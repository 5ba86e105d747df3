/-
  `Sub` and `notifySubscribers` of a stream.
-/

import River.Node.Events.StreamSound

namespace River.Node

open List

/-! ## The reply -/

variable {k n : Nat} {cookie : SyncCookie}

namespace StreamView.Window

variable {C : Crypto} {sid : StreamId} {v : StreamView} {pbs : List Miniblock}

theorem miniblockNum (hc : Chain C sid pbs)
    (hk : Forall₂ (MiniblockInfo.Holds C) v.blocks (pbs.drop k)) {i : Nat}
    (hb : v.blocks[i]? = some b) : b.header.miniblockNum = (k + i : Nat) := by
  obtain ⟨_, _, hpb, hat⟩ := at_of_getElem? hc hk hb
  have hnum := hat.miniblockNum
  rw [length_take, Nat.min_eq_left (List.getElem?_eq_some_iff.1 hpb).1.le] at hnum
  exact hnum

theorem indexOfMiniblockWithNum (hc : Chain C sid pbs)
    (hk : Forall₂ (MiniblockInfo.Holds C) v.blocks (pbs.drop k)) (hn : n < pbs.length) :
    (k ≤ n ∧ v.indexOfMiniblockWithNum n = .ok (n - k)) ∨
      ∃ err, v.indexOfMiniblockWithNum n = .error err := by
  have hlen : v.blocks.length = pbs.length - k := by rw [hk.length_eq, length_drop]
  have hhead : (v.blocks.head v.blocks_ne).header.miniblockNum = (k + 0 : Nat) := by
    apply miniblockNum hc hk
    rw [← head?_eq_getElem?, head?_eq_some_head]
  unfold StreamView.indexOfMiniblockWithNum
  rw [hhead]
  by_cases hkn : k ≤ n
  · have hdiff : ((n : Int) - (k + 0 : Nat)).toNat = n - k := by omega
    have hlt : n - k < v.blocks.length := by omega
    have hb := getElem?_eq_getElem hlt
    have hnum : v.blocks[n - k].header.miniblockNum = n := by
      rw [miniblockNum hc hk hb, Nat.add_sub_cancel' hkn]
    refine .inl ⟨hkn, ?_⟩
    simp only [hdiff, hb, hnum]
    rw [if_pos (by omega), if_neg (by simp)]
  · refine .inr ⟨⟨.invalidArgument, "indexOfMiniblockWithNum index not found"⟩, ?_⟩
    rw [if_neg (by omega)]
    rfl

theorem eventsFrom (hk : Forall₂ (MiniblockInfo.Holds C) v.blocks (pbs.drop k)) (i : Nat) :
    (v.eventsFrom i).map (·.envelope) =
      chainEnvelopes (pbs.drop (k + i)) ++ v.minipoolEnvelopes := by
  have hall : ∀ {bs : List MiniblockInfo} {pbs : List Miniblock},
      Forall₂ (MiniblockInfo.Holds C) bs pbs →
        (bs.flatMap MiniblockInfo.allEvents).map (·.envelope) = chainEnvelopes pbs := by
    intro bs pbs h
    induction h with
    | nil => rfl
    | @cons b pb bs pbs hb _ ih =>
      rw [flatMap_cons, map_append, ih, hb.envelopes]
      rfl
  have hdrop := forall₂_drop i hk
  rw [drop_drop] at hdrop
  rw [StreamView.eventsFrom, map_append, hall hdrop]
  rfl

theorem syncReply (h : v.Window C sid pbs) (hc : Chain C sid pbs) (hgen : cookie.minipoolGen = n)
    (hn : n < pbs.length) :
    ∃ reply, StreamImpl.syncReply p v cookie = .ok reply ∧
      ((reply.syncReset = false ∧ reply.events = chainEnvelopes (pbs.drop n) ++
        v.minipoolEnvelopes) ∨
        (reply.syncReset = true ∧ reply.events = v.minipoolEnvelopes ∧
          ∃ m, IsLatestSnapshot pbs m ∧ reply.miniblocks = pbs.drop m)) := by
  obtain ⟨k, hk, hlatest⟩ := h.blocks
  unfold StreamImpl.syncReply
  rw [hgen]
  rcases indexOfMiniblockWithNum hc hk hn with ⟨hkn, hidx⟩ | ⟨_, hidx⟩
  · rw [hidx]
    have hlen : v.blocks.length = pbs.length - k := by rw [hk.length_eq, length_drop]
    simp only
    rw [if_neg (by omega)]
    refine ⟨_, rfl, .inl ⟨rfl, ?_⟩⟩
    rw [eventsFrom hk, Nat.add_sub_cancel' hkn]
  · rw [hidx]
    refine ⟨_, rfl, .inr ⟨rfl, rfl, _, hlatest, ?_⟩⟩
    have hprotos : ∀ {bs : List MiniblockInfo} {pbs : List Miniblock},
        Forall₂ (MiniblockInfo.Holds C) bs pbs → bs.map (·.proto) = pbs := by
      intro bs pbs h
      induction h with
      | nil => rfl
      | cons hb _ ih => rw [map_cons, hb.proto, ih]
    have hdrop := forall₂_drop v.snapshotIndex hk
    rw [drop_drop] at hdrop
    exact hprotos hdrop

end StreamView.Window

/-- The reply has all from block `n`, event `k`. -/
def StreamAndCookie.IsTail (reply : StreamAndCookie) (blocks : List Miniblock)
    (pool : List Envelope) (n k : Nat) : Prop :=
  reply.syncReset = false ∧ reply.events =
    if n < blocks.length then chainEnvelopes (blocks.drop n) ++ pool else pool.drop k

/-- The reply starts from the last snapshot. -/
def StreamAndCookie.IsReset (reply : StreamAndCookie) (blocks : List Miniblock)
    (pool : List Envelope) : Prop :=
  reply.syncReset = true ∧ reply.events = pool ∧
    ∃ m, IsLatestSnapshot blocks m ∧ reply.miniblocks = blocks.drop m

namespace StreamImpl

variable {p : StreamParams} {s : StreamImpl} {r : Record}

theorem subImpl_reply {v : StreamView} (hv : v.Window p.crypto p.streamId r.blocks)
    (hc : Chain p.crypto p.streamId r.blocks) (hgen : cookie.minipoolGen = n)
    (hslot : cookie.minipoolSlot = k) (hn : n ≤ r.blocks.length)
    (hk : n = r.blocks.length → k ≤ v.minipoolEnvelopes.length) (receiver : Nat) :
    ∃ reply, subImpl p cookie receiver s v =
        ({ s with receivers := s.receivers.insert receiver }, ⟨.ok (), [(receiver, reply)]⟩) ∧
      (reply.IsTail r.blocks v.minipoolEnvelopes n k ∨
        reply.IsReset r.blocks v.minipoolEnvelopes) := by
  unfold subImpl
  by_cases hcur : n = r.blocks.length
  · have hlen := hk hcur
    rw [v.length_minipoolEnvelopes] at hlen
    rw [if_pos (by rw [hgen, hv.generation, hcur]), if_neg (by rw [hslot]; omega)]
    refine ⟨_, rfl, .inl ⟨rfl, ?_⟩⟩
    rw [if_neg (by omega), hslot, Int.toNat_natCast, StreamView.minipoolEnvelopes, map_drop]
  · rw [if_neg (by rw [hv.generation]; omega)]
    obtain ⟨reply, hreply, hcases⟩ := hv.syncReply hc (p := p) hgen (by omega)
    simp only [hreply]
    refine ⟨reply, rfl, ?_⟩
    rcases hcases with ⟨hreset, hevents⟩ | hreset
    · refine .inl ⟨hreset, ?_⟩
      rw [if_pos (by omega), hevents]
    · exact .inr hreset

theorem sub_reply (h : s.Sound p r) (hnode : cookie.nodeAddress = p.crypto.walletAddress)
    (hsid : cookie.streamId = p.streamId.bytes) (hgen : cookie.minipoolGen = n)
    (hslot : cookie.minipoolSlot = k) (hn : n ≤ r.blocks.length)
    (hk : n = r.blocks.length → k ≤ (s.minipool p).length) (receiver : Nat) (faults : Faults) :
    (∃ reply, (s.sub p cookie receiver faults).2 = ⟨.ok (), [(receiver, reply)]⟩ ∧
        (s.sub p cookie receiver faults).1.receivers = s.receivers.insert receiver ∧
        (reply.IsTail r.blocks (s.minipool p) n k ∨ reply.IsReset r.blocks (s.minipool p))) ∨
      ((s.loadInternal p faults).2.isOk = false ∧
        (∀ m, (s.sub p cookie receiver faults).2.result ≠ .error ⟨.badSyncCookie, m⟩) ∧
        (s.sub p cookie receiver faults).2.result.isOk = false) := by
  have hid : p.streamId.equalsBytes cookie.streamId = true := by
    rw [hsid]
    exact decide_eq_true rfl
  unfold sub
  rw [if_neg (not_not.2 hnode), if_neg (by simp [hid]), if_neg (by omega)]
  unfold withView
  rcases loadInternal_cases h faults with ⟨v, m, heq, hwindow, hpool, -⟩ | ⟨-, _, hres, heq⟩
  · rw [← hpool] at hk ⊢
    obtain ⟨reply, hsub, hreply⟩ := subImpl_reply (s := { s with view := some v, nextRef := m })
      hwindow h.stored.chain hgen hslot hn hk receiver
    refine .inl ⟨reply, ?_, ?_, hreply⟩
    · simp only [heq, hsub]
    · simp only [heq, hsub]
  · right
    rw [heq]
    cases hres with
    | read => exact ⟨rfl, fun m hm => by simp [Outcome.failed] at hm, rfl⟩
    | duplicate => exact ⟨rfl, fun m hm => by simp [Outcome.panicked] at hm, rfl⟩

end StreamImpl

/-! ## Updates -/

def received (receiver : Nat) (updates : List Update) : List Envelope :=
  (updates.filter (·.1 = receiver)).flatMap (·.2.events)

theorem received_notifySubscribers {s : StreamImpl} {receiver : Nat} (hmem : receiver ∈ s.receivers)
    (hnodup : s.receivers.Nodup) (envelopes : List Envelope) (cookie : SyncCookie) :
    received receiver (s.notifySubscribers envelopes cookie) = envelopes := by
  unfold received StreamImpl.notifySubscribers
  generalize s.receivers = receivers at hmem hnodup
  induction receivers with
  | nil => cases hmem
  | cons x xs ih =>
    obtain ⟨hx, hxs⟩ := nodup_cons.1 hnodup
    by_cases hrec : x = receiver
    · -- the first of the receivers, and not again
      subst hrec
      have hrest : (xs.map fun receiver => (receiver,
          (⟨envelopes, cookie, [], false⟩ : StreamAndCookie))).filter (·.1 = x) = [] := by
        rw [filter_eq_nil_iff]
        intro u hu
        obtain ⟨y, hy, rfl⟩ := mem_map.1 hu
        simp only [decide_eq_true_eq]
        rintro rfl
        exact hx hy
      rw [map_cons, filter_cons_of_pos (by simp), hrest]
      simp
    · rw [map_cons, filter_cons_of_neg (by simpa using hrec)]
      exact ih ((mem_cons.1 hmem).resolve_left (Ne.symm hrec)) hxs

namespace StreamImpl

variable {s : StreamImpl}

theorem store_receivers (c : Storage.Call StreamId Bytes Miniblock Envelope) (fault : Bool) :
    (s.store p c fault).1.receivers = s.receivers := rfl

theorem setView_receivers (data : Storage.ReadStreamFromLastSnapshotResult Miniblock Envelope) :
    (s.setView p data).1.receivers = s.receivers := by
  unfold setView
  split <;> rfl

theorem loadInternal_receivers (faults : Faults) :
    (s.loadInternal p faults).1.receivers = s.receivers := by
  unfold loadInternal
  split
  · rfl
  split
  · exact setView_receivers _
  · split
    · unfold initFromBlockchain
      split
      · rfl
      · rfl
      split
      · rfl
      split
      · rfl
      rename_i record _ _ _
      have hst := store_receivers (p := p) (s := s)
        (.createStreamStorage p.streamId record.genesisMiniblock) faults.write
      split
      all_goals
        rename_i st heq
        rw [heq] at hst
      · exact (setView_receivers _).trans hst
      · exact hst
      · exact hst
    · rfl
  · rfl

structure Notifies (s : StreamImpl) (envelope : Envelope) (x : StreamImpl × Outcome) : Prop where
  receivers : x.1.receivers = s.receivers
  updates : (x.2.result = .ok () ∧ ∃ cookie, x.2.updates = s.notifySubscribers [envelope] cookie) ∨
    (x.2.result.isOk = false ∧ x.2.updates = [])

theorem withView_notifies {f : StreamImpl → StreamView → StreamImpl × Outcome}
    (hf : ∀ s v, Notifies s envelope (f s v)) (faults : Faults) :
    Notifies s envelope (s.withView p faults f) := by
  have hload := loadInternal_receivers (p := p) (s := s) faults
  unfold withView
  split
  all_goals
    rename_i st x heq
    rw [heq] at hload
  · obtain ⟨hreceivers, hupdates⟩ := hf st x
    have hsame : ∀ envelopes cookie,
        st.notifySubscribers envelopes cookie = s.notifySubscribers envelopes cookie := by
      intro envelopes cookie
      rw [notifySubscribers, notifySubscribers, hload]
    refine ⟨hreceivers.trans hload, ?_⟩
    simpa only [hsame] using hupdates
  · exact ⟨hload, .inr ⟨rfl, rfl⟩⟩
  · exact ⟨hload, .inr ⟨rfl, rfl⟩⟩

theorem publish_notifies {st : StreamImpl} (hst : st.receivers = s.receivers) (v : StreamView)
    (envelope : Envelope) : Notifies s envelope (st.publish p v envelope) := by
  refine ⟨hst, .inl ⟨rfl, v.syncCookie p.crypto.walletAddress, ?_⟩⟩
  rw [publish, notifySubscribers, notifySubscribers, hst]

theorem addEvent_notifies (e : ParsedEvent) (faults : Faults) :
    Notifies s e.envelope (s.addEvent p e faults) := by
  refine withView_notifies (fun s v => ?_) faults
  unfold addEventImpl
  have hst := store_receivers (p := p) (s := s) (.writeEvent p.streamId v.minipool.generation
    v.minipool.nextSlotNumber e.envelope) faults.write
  split
  all_goals
    rename_i st _ heq
    rw [heq] at hst
  · exact ⟨hst, .inr ⟨rfl, rfl⟩⟩
  · exact ⟨hst, .inr ⟨rfl, rfl⟩⟩
  split
  · exact publish_notifies hst _ _
  · exact ⟨hst, .inr ⟨rfl, rfl⟩⟩
  · exact ⟨hst, .inr ⟨rfl, rfl⟩⟩

theorem applyMiniblock_notifies (b : MiniblockInfo) (faults : Faults) :
    Notifies s b.headerEvent.envelope (s.applyMiniblock p b faults) := by
  refine withView_notifies (fun s v => ?_) faults
  unfold applyMiniblockImpl
  split
  · exact ⟨rfl, .inr ⟨rfl, rfl⟩⟩
  · exact ⟨rfl, .inr ⟨rfl, rfl⟩⟩
  rename_i v' _
  have hst := store_receivers (p := p) (s := s) (.promoteBlock p.streamId v.minipool.generation
    b.hash b.header.snapshot.isSome v'.minipoolEnvelopes) faults.write
  split
  all_goals
    rename_i st _ heq
    rw [heq] at hst
  · exact ⟨hst, .inr ⟨rfl, rfl⟩⟩
  · exact ⟨hst, .inr ⟨rfl, rfl⟩⟩
  · exact publish_notifies hst _ _

theorem Notifies.received (h : Notifies s envelope x) {receiver : Nat}
    (hmem : receiver ∈ s.receivers)
    (hnodup : s.receivers.Nodup) : received receiver x.2.updates = x.2.onSuccess [envelope] := by
  rcases h.updates with ⟨hok, _, hupdates⟩ | ⟨hfail, hupdates⟩
  · rw [hupdates, received_notifySubscribers hmem hnodup, Outcome.onSuccess, hok]
  · have hnone := Outcome.onSuccess_of_isOk_eq_false hfail x.2.updates [envelope]
    rw [hupdates]
    exact hnone.symm

theorem sub_receivers (cookie : SyncCookie) (receiver : Nat) (faults : Faults) :
    (s.sub p cookie receiver faults).1.receivers = s.receivers ∨
      (s.sub p cookie receiver faults).1.receivers = s.receivers.insert receiver := by
  have hload := loadInternal_receivers (p := p) (s := s) faults
  unfold sub
  split
  · exact .inl rfl
  split
  · exact .inl rfl
  split
  · exact .inl rfl
  unfold withView
  split
  all_goals
    rename_i st _ heq
    rw [heq] at hload
  · unfold subImpl
    split
    · split
      · exact .inl hload
      · exact .inr (by rw [← hload])
    · split <;> exact .inr (by rw [← hload])
  · exact .inl hload
  · exact .inl hload

end StreamImpl

end River.Node
