/-
  Singly linked lists in a heap, and what stays of them when links are changed.
-/

import Mathlib.Data.List.Basic

namespace River.Lib

variable {π : Type _}

/-- What is read along `next` from the first cell. -/
def IsLinked (next : π → Option π) : Option π → List π → Prop
  | first, [] => first = none
  | first, p :: l => first = some p ∧ IsLinked next (next p) l

namespace IsLinked

theorem congr (h : IsLinked next first l) (hsame : ∀ p ∈ l, next' p = next p) :
    IsLinked next' first l := by
  induction l generalizing first with
  | nil => exact h
  | cons p l ih =>
    refine ⟨h.1, ih ?_ fun q hq => hsame q (List.mem_cons_of_mem _ hq)⟩
    rw [hsame p List.mem_cons_self]
    exact h.2

theorem eq_none_iff (h : IsLinked next first l) : first = none ↔ l = [] := by
  cases l with
  | nil => exact iff_of_true h rfl
  | cons p l => rw [h.1]; exact iff_of_false nofun nofun

theorem concat {front : List π} {last q : π} (h : IsLinked next first (front ++ [last]))
    (hsame : ∀ p ∈ front, next' p = next p) (hlast : next' last = some q) (hq : next' q = none) :
    IsLinked next' first (front ++ [last, q]) := by
  induction front generalizing first with
  | nil => exact ⟨h.1, hlast, hq⟩
  | cons p front ih =>
    refine ⟨h.1, ih ?_ fun r hr => hsame r (List.mem_cons_of_mem _ hr)⟩
    rw [hsame p List.mem_cons_self]
    exact h.2

end IsLinked

end River.Lib
