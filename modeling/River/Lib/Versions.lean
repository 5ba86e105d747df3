/-
  Lists of versions: values that are in force from a number on.
-/

import River.Lib.EnumerableSet
import Mathlib.Data.List.Sort

namespace River.Lib.Versions

open Function List

variable {β : Type} {l l' : List (Nat × β)} {f : Nat → Option β}

/-! ## Operations -/

def indexOf (l : List (Nat × β)) (n : Nat) : Option Nat := l.findIdx? (·.1 = n)

def put (l : List (Nat × β)) (n : Nat) (v : β) : List (Nat × β) :=
  match indexOf l n with
  | some i => l.set i (n, v)
  | none => l ++ [(n, v)]

def putSorted (l : List (Nat × β)) (n : Nat) (v : β) : List (Nat × β) :=
  match indexOf l n with
  | some i => l.set i (n, v)
  | none => (l ++ [(n, v)]).insertionSort (·.1 ≤ ·.1)

def remove (l : List (Nat × β)) (n : Nat) : List (Nat × β) :=
  match indexOf l n with
  | some i => swapRemoveAt l i
  | none => l

def active (l : List (Nat × β)) (n : Nat) : Option (Nat × β) := l.reverse.find? (·.1 ≤ n)

/-! ## The function of a list -/

structure Reads (l : List (Nat × β)) (f : Nat → Option β) : Prop where
  distinct : (l.map Prod.fst).Nodup
  mem : ∀ n v, (n, v) ∈ l ↔ f n = some v

theorem reads_nil : Reads ([] : List (Nat × β)) fun _ => none :=
  ⟨nodup_nil, fun _ _ => iff_of_false not_mem_nil nofun⟩

theorem Reads.perm (h : Reads l f) (hperm : l'.Perm l) : Reads l' f :=
  ⟨(hperm.map _).nodup_iff.2 h.distinct, fun n v => hperm.mem_iff.trans (h.mem n v)⟩

theorem reads_cons {n : Nat} {v : β} :
    Reads ((n, v) :: l) f ↔ f n = some v ∧ Reads l (update f n none) := by
  constructor
  · intro h
    obtain ⟨hnew, hdistinct⟩ := nodup_cons.1 h.distinct
    refine ⟨(h.mem n v).1 mem_cons_self, hdistinct, fun m w => ?_⟩
    by_cases hm : m = n
    · subst hm
      rw [update_self]
      exact iff_of_false (fun hmem => hnew (mem_map.2 ⟨_, hmem, rfl⟩)) nofun
    · rw [update_of_ne hm, ← h.mem, mem_cons, or_iff_right]
      exact fun heq => hm (congrArg Prod.fst heq)
  · rintro ⟨hvalue, h⟩
    refine ⟨nodup_cons.2 ⟨?_, h.distinct⟩, fun m w => ?_⟩
    · intro hmem
      obtain ⟨⟨m, w⟩, hmem', rfl⟩ := mem_map.1 hmem
      have hnone := (h.mem m w).1 hmem'
      rw [update_self] at hnone
      cases hnone
    · rw [mem_cons, h.mem]
      by_cases hm : m = n
      · subst hm
        rw [hvalue]
        simp [eq_comm]
      · rw [update_of_ne hm, or_iff_right]
        exact fun heq => hm (congrArg Prod.fst heq)

theorem lt_length_of_indexOf (h : indexOf l n = some i) : ∃ hi : i < l.length, l[i].1 = n := by
  obtain ⟨hi, hn, -⟩ := findIdx?_eq_some_iff_getElem.1 h
  exact ⟨hi, of_decide_eq_true hn⟩

theorem Reads.eraseIdx (h : Reads l f) (hi : indexOf l n = some i) :
    Reads (l.eraseIdx i) (update f n none) := by
  obtain ⟨hlt, rfl⟩ := lt_length_of_indexOf hi
  exact (reads_cons.1 (h.perm (getElem_cons_eraseIdx_perm hlt))).2

theorem Reads.eq_none (h : Reads l f) (hn : indexOf l n = none) : f n = none := by
  cases hf : f n with
  | none => rfl
  | some v =>
    have habsent := findIdx?_eq_none_iff.1 hn _ ((h.mem n v).2 hf)
    simp at habsent

theorem Reads.remove (h : Reads l f) (n : Nat) : Reads (remove l n) (update f n none) := by
  unfold Versions.remove
  split
  · rename_i i hi
    obtain ⟨hlt, -⟩ := lt_length_of_indexOf hi
    exact (h.eraseIdx hi).perm (swapRemoveAt_perm hlt)
  · rename_i hnone
    rw [update_eq_self_iff.2 (h.eq_none hnone).symm]
    exact h

theorem Reads.overwrite (h : Reads l f) (hi : indexOf l n = some i) (v : β) :
    Reads (l.set i (n, v)) (update f n (some v)) := by
  obtain ⟨hlt, -⟩ := lt_length_of_indexOf hi
  refine .perm (reads_cons.2 ⟨update_self .., ?_⟩) (set_perm_cons_eraseIdx hlt (n, v))
  rw [update_idem]
  exact h.eraseIdx hi

theorem Reads.append (h : Reads l f) (hn : indexOf l n = none) (v : β) :
    Reads (l ++ [(n, v)]) (update f n (some v)) := by
  refine .perm (reads_cons.2 ⟨update_self .., ?_⟩) (perm_append_singleton (n, v) l)
  rw [update_idem, update_eq_self_iff.2 (h.eq_none hn).symm]
  exact h

theorem Reads.put (h : Reads l f) (n : Nat) (v : β) : Reads (put l n v) (update f n (some v)) := by
  unfold Versions.put
  split
  · rename_i i hi
    exact h.overwrite hi v
  · rename_i hnone
    exact h.append hnone v

theorem Reads.putSorted (h : Reads l f) (n : Nat) (v : β) :
    Reads (putSorted l n v) (update f n (some v)) := by
  unfold Versions.putSorted
  split
  · rename_i i hi
    exact h.overwrite hi v
  · rename_i hnone
    exact (h.append hnone v).perm (perm_insertionSort _ _)

/-! ## Order -/

def Ordered (l : List (Nat × β)) : Prop := l.Pairwise (·.1 < ·.1)

theorem Ordered.putSorted (h : Reads l f) (hordered : Ordered l) (n : Nat) (v : β) :
    Ordered (putSorted l n v) := by
  have hreads := h.putSorted n v
  unfold Versions.putSorted at hreads ⊢
  split at hreads
  · rename_i i hi
    -- overwriting keeps the numbers
    obtain ⟨_, hn⟩ := lt_length_of_indexOf hi
    have hsame : (l.set i (n, v)).map Prod.fst = l.map Prod.fst := by
      refine ext_getElem (by simp) fun j hj hj' => ?_
      rw [getElem_map, getElem_map, getElem_set]
      split
      · rename_i hij
        subst hij
        exact hn.symm
      · rfl
    unfold Ordered at hordered ⊢
    rw [← pairwise_map] at hordered ⊢
    rwa [hsame]
  · have hsorted := pairwise_insertionSort (fun a b : Nat × β => a.1 ≤ b.1) (l ++ [(n, v)])
    exact hsorted.imp₂ (fun _ _ hle hne => Nat.lt_of_le_of_ne hle hne)
      (pairwise_map.1 hreads.distinct)

theorem Ordered.remove (hordered : Ordered l) {n : Nat}
    (hlate : n ∈ l.map Prod.fst → ∀ x ∈ l, ∀ y ∈ l, n < x.1 → n < y.1 → x = y) :
    Ordered (remove l n) := by
  unfold Versions.remove
  split
  · rename_i i hi
    obtain ⟨hlt, hn⟩ := lt_length_of_indexOf hi
    have hafter : ∀ x ∈ l.drop (i + 1), n < x.1 := by
      have hsplit : l.take i ++ l[i] :: l.drop (i + 1) = l := by
        rw [getElem_cons_drop, take_append_drop]
      have hpair := hordered
      rw [Ordered, ← hsplit, pairwise_append, pairwise_cons] at hpair
      rw [← hn]
      exact hpair.2.1.1
    have hmem : n ∈ l.map Prod.fst := hn ▸ mem_map_of_mem (getElem_mem hlt)
    have herase : swapRemoveAt l i = l.eraseIdx i := by
      refine (swapRemoveAt_eq_eraseIdx hlt).2 fun x hx y hy => ?_
      exact hlate hmem x (mem_of_mem_drop hx) y (mem_of_mem_drop hy) (hafter x hx) (hafter y hy)
    rw [herase]
    exact hordered.sublist (eraseIdx_sublist _ _)
  · exact hordered

theorem active_some (hordered : Ordered l) (h : active l n = some x) :
    x ∈ l ∧ x.1 ≤ n ∧ ∀ y ∈ l, y.1 ≤ n → y.1 ≤ x.1 := by
  obtain ⟨hx, later, earlier, hsplit, hlater⟩ := find?_eq_some_iff_append.1 h
  have hl : l = earlier.reverse ++ x :: later.reverse := by
    rw [← reverse_reverse l, hsplit]
    simp
  rw [Ordered, hl, pairwise_append] at hordered
  refine ⟨by rw [hl]; simp, of_decide_eq_true hx, fun y hy hyn => ?_⟩
  rw [hl, mem_append, mem_cons] at hy
  rcases hy with hy | rfl | hy
  · exact Nat.le_of_lt (hordered.2.2 y hy x mem_cons_self)
  · exact Nat.le_refl _
  · have hskipped := hlater y (mem_reverse.1 hy)
    simp [hyn] at hskipped

theorem active_none (h : active l n = none) : ∀ y ∈ l, n < y.1 := by
  intro y hy
  have hskipped := find?_eq_none.1 h y (mem_reverse.2 hy)
  simpa using hskipped

end River.Lib.Versions
