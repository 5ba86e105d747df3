/-
  Lists of the most recently used keys. A key that is used moves to the end, behind the last `n` of
  the others.
-/

import Mathlib.Data.List.Dedup
import Mathlib.Data.List.DropRight

namespace River.Lib

open List

variable {κ : Type*} [DecidableEq κ]

def useKey (n : Nat) (l : List κ) (k : κ) : List κ := (l.filter (· ≠ k)).rtake n ++ [k]

theorem useKey_nodup (n : Nat) {l : List κ} (hl : l.Nodup) (k : κ) : (useKey n l k).Nodup := by
  have hsub : (l.filter (· ≠ k)).rtake n <+ l.filter (· ≠ k) := drop_sublist _ _
  refine nodup_append.2 ⟨(hl.filter _).sublist hsub, nodup_singleton k, ?_⟩
  rintro a ha b hb rfl
  simpa [mem_singleton.1 hb] using hsub.subset ha

theorem dedup_concat (l : List κ) (k : κ) : (l ++ [k]).dedup = l.dedup.filter (· ≠ k) ++ [k] := by
  induction l with
  | nil => rfl
  | cons a l ih =>
    by_cases ha : a ∈ l
    · simp [ha, ih]
    · by_cases hk : a = k <;> simp_all

theorem take_filter_take (k : κ) {l : List κ} (hl : l.Nodup) (n : Nat) :
    ((l.take (n + 1)).filter (· ≠ k)).take n = (l.filter (· ≠ k)).take n := by
  induction l generalizing n with
  | nil => simp
  | cons a l ih =>
    obtain ⟨ha, hl⟩ := nodup_cons.mp hl
    by_cases hk : a = k
    · -- the other keys are all kept, so `n` of them are enough
      subst hk
      have hkeep : ∀ l' ⊆ l, l'.filter (· ≠ a) = l' := fun l' hsub =>
        filter_eq_self.mpr fun b hb => decide_eq_true fun h => ha (h ▸ hsub hb)
      rw [take_succ_cons, filter_cons_of_neg (by simp), filter_cons_of_neg (by simp),
        hkeep _ (take_subset n l), hkeep l (.refl l), take_take, min_self]
    · cases n with
      | zero => simp
      | succ n => simpa [hk] using ih hl n

theorem useKey_rtake (n : Nat) (k : κ) {l : List κ} (hl : l.Nodup) :
    useKey n (l.rtake (n + 1)) k = (l.filter (· ≠ k) ++ [k]).rtake (n + 1) := by
  have htake := congrArg reverse (take_filter_take k (nodup_reverse.mpr hl) n)
  rw [useKey]
  simpa [rtake_eq_reverse_take_reverse] using htake

theorem useKey_map {α : Type*} (key : α → κ) (n : Nat) (l : List α) (a : α) :
    useKey n (l.map key) (key a) = ((l.filter (key · ≠ key a)).rtake n ++ [a]).map key := by
  simp only [useKey, rtake, map_append, map_drop, filter_map, length_map]
  rfl

/-- Items that are told apart by a key. A step need not do this to lists that do not arise. -/
theorem map_foldl_recent {α : Type*} (key : α → κ) (n : Nat) (step : List α → α → List α)
    (hstep : ∀ l a, l.length ≤ n + 1 → step l a = (l.filter (key · ≠ key a)).rtake n ++ [a])
    (as : List α) : (as.foldl step []).map key = (as.map key).dedup.rtake (n + 1) := by
  induction as using reverseRecOn with
  | nil => simp
  | append_singleton as a ih =>
    have hlength := congrArg length ih
    rw [rtake, length_map, length_drop] at hlength
    rw [foldl_concat, hstep _ a (by omega), ← useKey_map, ih, map_append,
      map_singleton, useKey_rtake n (key a) (as.map key).nodup_dedup, dedup_concat]

end River.Lib
