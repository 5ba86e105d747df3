/-
  Mappings to numbers with a total: what a ledger of a contract is.
-/

import Mathlib.Algebra.BigOperators.Group.List.Basic
import Mathlib.Tactic.Ring

namespace River.Lib

open List

structure Mapping (κ : Type) where
  entries : List (κ × Nat)
  nodup : (entries.map Prod.fst).Nodup

namespace Mapping

variable {κ : Type} [DecidableEq κ]

def empty : Mapping κ := ⟨[], nodup_nil⟩

variable (m : Mapping κ) (k : κ)

def others : List (κ × Nat) := m.entries.filter (·.1 ≠ k)

def get : Nat := ((m.entries.find? (·.1 = k)).map Prod.snd).getD 0

def set (v : Nat) : Mapping κ where
  entries := (k, v) :: m.others k
  nodup := by
    rw [map_cons, nodup_cons]
    refine ⟨?_, m.nodup.sublist ((filter_sublist).map _)⟩
    intro hmem
    obtain ⟨e, he, hk⟩ := mem_map.1 hmem
    have hne := (mem_filter.1 he).2
    simp [hk] at hne

def total : Nat := (m.entries.map Prod.snd).sum

omit [DecidableEq κ] in
@[simp] theorem total_empty : (empty : Mapping κ).total = 0 := rfl

theorem total_eq : m.total = m.get k + ((m.others k).map Prod.snd).sum := by
  obtain ⟨entries, hnodup⟩ := m
  unfold total get others
  simp only
  induction entries with
  | nil => rfl
  | cons e es ih =>
    rw [map_cons, nodup_cons] at hnodup
    by_cases h : e.1 = k
    · -- the key is not among the other entries
      have hrest : es.filter (·.1 ≠ k) = es := by
        rw [filter_eq_self]
        intro e' he'
        refine decide_eq_true fun heq => hnodup.1 ?_
        rw [h, ← heq]
        exact mem_map_of_mem he'
      rw [find?_cons_of_pos (by simpa using h), filter_cons_of_neg (by simpa using h), hrest]
      rfl
    · rw [find?_cons_of_neg (by simpa using h), filter_cons_of_pos (by simpa using h),
        map_cons, map_cons, sum_cons, sum_cons, ih hnodup.2]
      omega

theorem get_le_total : m.get k ≤ m.total := by
  rw [m.total_eq k]
  exact Nat.le_add_right _ _

theorem total_set (v : Nat) : (m.set k v).total + m.get k = m.total + v := by
  have hset : (m.set k v).total = v + ((m.others k).map Prod.snd).sum := rfl
  rw [m.total_eq k]
  omega

/-! ## Reading after a write -/

@[simp] theorem get_set_self (v : Nat) : (m.set k v).get k = v := by
  simp [get, set]

theorem get_set_of_ne {k k' : κ} (v : Nat) (h : k' ≠ k) : (m.set k v).get k' = m.get k' := by
  have hskip : (fun e : κ × Nat => decide (e.1 ≠ k ∧ e.1 = k')) = fun e => decide (e.1 = k') := by
    funext e
    have hne : e.1 = k' → e.1 ≠ k := fun he => he ▸ h
    simpa using hne
  unfold get set others
  rw [find?_cons_of_neg (by simpa using h.symm), find?_filter]
  simp only [decide_eq_true_eq]
  rw [hskip]

/-! ## Sums over a part of the keys -/

section Where

variable (p : κ → Prop) [DecidablePred p] (m : Mapping κ)

def restrict : Mapping κ where
  entries := m.entries.filter fun e => p e.1
  nodup := m.nodup.sublist ((filter_sublist).map _)

def totalWhere : Nat := (m.restrict p).total

theorem get_restrict (k : κ) : (m.restrict p).get k = if p k then m.get k else 0 := by
  unfold get restrict
  rw [find?_filter]
  simp only [decide_eq_true_eq]
  by_cases hk : p k
  · have hsame : (fun e : κ × Nat => decide (p e.1 ∧ e.1 = k)) = fun e => decide (e.1 = k) := by
      funext e
      have hpe : e.1 = k → p e.1 := fun he => he ▸ hk
      simpa using hpe
    rw [if_pos hk, hsame]
  · have hnone : ∀ e ∈ m.entries, ¬decide (p e.1 ∧ e.1 = k) = true := by
      intro e _ he
      have he := of_decide_eq_true he
      exact hk (he.2 ▸ he.1)
    rw [if_neg hk, find?_eq_none.2 hnone]
    rfl

theorem others_restrict (k : κ) : (m.restrict p).others k = (m.others k).filter fun e => p e.1 := by
  exact filter_comm _ _ _

theorem totalWhere_eq (k : κ) : m.totalWhere p =
      (if p k then m.get k else 0) + (((m.others k).filter fun e => p e.1).map Prod.snd).sum := by
  rw [totalWhere, total_eq _ k, get_restrict, others_restrict]

omit [DecidableEq κ] in
theorem totalWhere_true (m : Mapping κ) : m.totalWhere (fun _ => True) = m.total := by
  unfold totalWhere restrict total
  simp

theorem totalWhere_eq_key (k : κ) : m.totalWhere (fun k' => k' = k) = m.get k := by
  have hnone : ((m.others k).filter fun e => decide (e.1 = k)) = [] := by
    unfold others
    simp
  rw [totalWhere_eq _ m k, hnone]
  simp

theorem totalWhere_set (k : κ) (v : Nat) : (m.set k v).totalWhere p + (if p k then m.get k else 0) =
      m.totalWhere p + (if p k then v else 0) := by
  have hothers : (m.set k v).others k = m.others k := by
    unfold others set
    unfold others
    simp
  rw [totalWhere_eq p (m.set k v) k, totalWhere_eq p m k, get_set_self, hothers]
  omega

theorem totalWhere_congr (q : κ → Prop) [DecidablePred q] (k : κ)
    (h : ∀ k', k' ≠ k → (p k' ↔ q k')) :
    m.totalWhere q + (if p k then m.get k else 0) =
      m.totalWhere p + (if q k then m.get k else 0) := by
  have hrest : ((m.others k).filter fun e => q e.1) = (m.others k).filter fun e => p e.1 := by
    apply filter_congr
    intro e he
    have hne : e.1 ≠ k := by simpa using (mem_filter.1 he).2
    simp [h e.1 hne]
  rw [totalWhere_eq q m k, totalWhere_eq p m k, hrest]
  omega

end Where

end Mapping

end River.Lib
