/-
  Every stored header says the truth about the blocks before it, and the statistics of a view
  count the whole stream.
-/

import River.Node.Rpc.Invariant

namespace River.Node

open List

theorem countEvents_holds (h : Forall₂ (MiniblockInfo.Holds C) bs pbs) :
    StreamView.countEvents bs = (chainEnvelopes pbs).length := by
  induction h with
  | nil => rfl
  | @cons b pb bs pbs hb _ ih =>
    have hcons : chainEnvelopes (pb :: pbs) = pb.envelopes ++ chainEnvelopes pbs := rfl
    rw [hcons, length_append, ← ih, Miniblock.envelopes, length_append, ← hb.length_events]
    rfl

theorem StreamView.Window.totalEventsEver {v : StreamView} (h : v.Window C sid pbs)
    (hc : Chain C sid pbs) :
    v.getStats.totalEventsEver = (chainEnvelopes pbs).length + v.minipoolEnvelopes.length := by
  obtain ⟨k, hk, -⟩ := h.blocks
  have hb : v.blocks[v.snapshotIndex]? =
      some (v.blocks.get ⟨v.snapshotIndex, v.snapshotIndex_lt⟩) :=
    getElem?_eq_getElem v.snapshotIndex_lt
  obtain ⟨_, _, -, hat⟩ := at_of_getElem? hc hk hb
  have hoffset : (v.blocks.get ⟨v.snapshotIndex, v.snapshotIndex_lt⟩).header.eventNumOffset =
      (chainEnvelopes (pbs.take (k + v.snapshotIndex))).length := by
    rw [← hat.eventNumOffset]
    rfl
  have hrest : StreamView.countEvents (v.blocks.drop v.snapshotIndex) =
      (chainEnvelopes (pbs.drop (k + v.snapshotIndex))).length := by
    rw [countEvents_holds (forall₂_drop v.snapshotIndex hk), drop_drop]
  have htotal : (chainEnvelopes pbs).length =
      (chainEnvelopes (pbs.take (k + v.snapshotIndex))).length +
        (chainEnvelopes (pbs.drop (k + v.snapshotIndex))).length := by
    rw [← length_append, ← chainEnvelopes_append, take_append_drop]
  rw [StreamView.getStats, v.length_minipoolEnvelopes]
  push_cast
  omega

/-- After every run the header of block `n + 1` has that number, the hash of block `n`, the number
    of events and headers and of the latest snapshot before it, and a later timestamp than block
    `n`; and the statistics of the view count all events and headers with the minipool. -/
theorem headerChain {p : StreamParams} (g : Genesis p) (acts : List Action)
    (hfree : p.crypto.CollisionFree (g.hashedBy acts)) :
    let blocks := (g.run acts).stream.storedBlocks p
    (∀ (n : Nat) pb pb', blocks[n]? = some pb → blocks[n + 1]? = some pb' →
      ∃ h h' : MiniblockHeader, pb.header? = some h ∧ pb'.header? = some h' ∧
        h'.miniblockNum = n + 1 ∧ h'.prevMiniblockHash = pb.hash ∧
        h'.eventNumOffset = (chainEnvelopes (blocks.take (n + 1))).length ∧
        (∃ m : Nat, IsLatestSnapshot (blocks.take (n + 1)) m ∧ h'.prevSnapshotMiniblockNum = m) ∧
        ∃ t t', h.timestamp = some t ∧ h'.timestamp = some t' ∧ t.Before t') ∧
    ∀ v, (g.run acts).stream.view = some v →
      v.getStats.totalEventsEver = (chainEnvelopes blocks).length + v.minipool.events.len := by
  intro blocks
  obtain ⟨r, h⟩ := g.inv_run acts hfree
  have hblocks : blocks = r.blocks := h.sound.storedBlocks
  have hchain := h.sound.stored.chain
  rw [hblocks]
  constructor
  · intro n pb pb' hpb hpb'
    obtain ⟨-, h', hh', hfollows, -⟩ := hchain.follows hpb'
    have hlt := (List.getElem?_eq_some_iff.1 hpb').1
    have hlast : (r.blocks.take (n + 1)).getLast? = some pb := by
      rw [getLast?_eq_getElem?, length_take, Nat.min_eq_left hlt.le, Nat.add_sub_cancel,
        getElem?_take_of_lt (Nat.lt_succ_self n), hpb]
    obtain ⟨_, hlast', hhash⟩ := hfollows.prevMiniblockHash
    obtain ⟨_, header, t, t', hlast'', hheader, ht, ht', hbefore⟩ := hfollows.timestamp
    rw [hlast, Option.some.injEq] at hlast' hlast''
    subst hlast' hlast''
    refine ⟨header, h', hheader, hh', ?_, hhash, hfollows.eventNumOffset,
      hfollows.prevSnapshotMiniblockNum, t, t', ht, ht', hbefore⟩
    rw [hfollows.miniblockNum, length_take, Nat.min_eq_left hlt.le]
    rfl
  · intro v hv
    rw [← v.length_minipoolEnvelopes]
    exact (h.sound.view v hv).1.totalEventsEver hchain

def twoEventsRun : List Action :=
  [.newEventReceived (sampleEvent none 3) ⟨false, false⟩, .generateMiniblockProposal false,
    .makeMiniblockHeader 0 ⟨0, 0⟩, .makeMiniblock 0 [4] 0,
    .newEventReceived (sampleEvent none 5) ⟨false, false⟩, .storeMiniblockCandidate 0 false,
    .applyMiniblock 0 ⟨false, false⟩]

/-- With a clock that runs backwards, a block is applied and one event stays behind. -/
theorem headerChain_two_events :
    ((sampleGenesis.run twoEventsRun).stream.storedBlocks sampleParams).length = 2 ∧
      ∀ v, (sampleGenesis.run twoEventsRun).stream.view = some v →
        v.getStats.totalEventsEver =
          (chainEnvelopes ((sampleGenesis.run twoEventsRun).stream.storedBlocks
            sampleParams)).length +
            v.minipool.events.len :=
  ⟨by decide +kernel, (headerChain sampleGenesis twoEventsRun (by decide +kernel)).2⟩

end River.Node
