/-
  The difference of two lists by a merge scan.
-/

import Mathlib.Data.List.Basic
import Mathlib.Tactic.Ring

namespace River.Lib

open List

variable {α : Type _} [LinearOrder α]

def mergeDiffLoop : Nat → List α → List α → List α
  | 0, xs, _ => xs
  | _ + 1, [], _ => []
  | _ + 1, xs, [] => xs
  | fuel + 1, x :: xs, y :: ys =>
    if x < y then x :: mergeDiffLoop fuel xs (y :: ys)
    else if y < x then mergeDiffLoop fuel (x :: xs) ys
    else mergeDiffLoop fuel xs ys

def mergeDiff (xs ys : List α) : List α := mergeDiffLoop (xs.length + ys.length) xs ys

theorem length_mergeDiffLoop_le (fuel : Nat) (xs ys : List α) :
    (mergeDiffLoop fuel xs ys).length ≤ xs.length := by
  fun_induction mergeDiffLoop with grind

theorem mergeDiffLoop_eq_filter {fuel : Nat} {xs ys : List α} (hfuel : xs.length + ys.length ≤ fuel)
    (hxs : xs.Pairwise (· < ·)) (hys : ys.Pairwise (· ≤ ·)) :
    mergeDiffLoop fuel xs ys = xs.filter (· ∉ ys) := by
  induction fuel generalizing xs ys with
  | zero =>
    obtain rfl : xs = [] := eq_nil_of_length_eq_zero (by omega)
    rfl
  | succ fuel ih =>
    cases xs with
    | nil => simp [mergeDiffLoop]
    | cons x xs =>
      cases ys with
      | nil => simp [mergeDiffLoop]
      | cons y ys =>
        obtain ⟨hx, hxs'⟩ := pairwise_cons.1 hxs
        obtain ⟨hy, hys'⟩ := pairwise_cons.1 hys
        simp only [length_cons] at hfuel
        unfold mergeDiffLoop
        split
        · -- `x` is below everything left in the other list
          rename_i hlt
          have hnot : x ∉ y :: ys := by
            intro hmem
            rcases mem_cons.1 hmem with rfl | hmem
            · exact lt_irrefl _ hlt
            · exact absurd (hy x hmem) (not_le.2 hlt)
          rw [ih (by simp only [length_cons]; omega) hxs' hys,
            filter_cons_of_pos (by simpa using hnot)]
        · split
          · -- `y` is below everything left in `x :: xs`
            rename_i hlt
            rw [ih (by simp only [length_cons]; omega) hxs hys']
            refine filter_congr fun z hz => ?_
            have hne : z ≠ y := by
              rcases mem_cons.1 hz with rfl | hz
              · exact ne_of_gt hlt
              · exact ne_of_gt (lt_trans hlt (hx z hz))
            simp [hne]
          · -- the heads are equal and `x` does not occur again
            rename_i h1 h2
            obtain rfl : x = y := le_antisymm (not_lt.1 h2) (not_lt.1 h1)
            rw [ih (by omega) hxs' hys', filter_cons_of_neg (by simp)]
            refine filter_congr fun z hz => ?_
            have hne : z ≠ x := ne_of_gt (hx z hz)
            simp [hne]

theorem mergeDiff_eq_filter {xs ys : List α} (hxs : xs.Pairwise (· < ·))
    (hys : ys.Pairwise (· ≤ ·)) : mergeDiff xs ys = xs.filter (· ∉ ys) :=
  mergeDiffLoop_eq_filter (Nat.le_refl _) hxs hys

end River.Lib
