/-
  Two lists related item by item (`List.Forall₂`).
-/

import Mathlib.Data.List.Forall2

namespace River.Lib

theorem forall₂_getElem? {R : α → β → Prop} (h : List.Forall₂ R as bs) {i : Nat}
    (ha : as[i]? = some a) :
    ∃ b, bs[i]? = some b ∧ R a b := by
  induction h generalizing i with
  | nil => simp at ha
  | cons hab _ ih =>
    cases i with
    | zero =>
      rw [List.getElem?_cons_zero, Option.some.injEq] at ha
      exact ⟨_, rfl, ha ▸ hab⟩
    | succ i => exact ih ha

theorem forall₂_of_mem {R S : α → β → Prop} (h : List.Forall₂ R l l')
    (hRS : ∀ a ∈ l, ∀ b, R a b → S a b) : List.Forall₂ S l l' := by
  induction h with
  | nil => exact .nil
  | cons hab _ ih =>
    refine .cons (hRS _ List.mem_cons_self _ hab) (ih fun a ha => ?_)
    exact hRS a (List.mem_cons_of_mem _ ha)

theorem forall₂_common {R : α → γ → Prop} {R' : β → γ → Prop} {S : α → β → Prop}
    (h : List.Forall₂ R as cs) (h' : List.Forall₂ R' bs cs)
    (hS : ∀ a b c, R a c → R' b c → S a b) : List.Forall₂ S as bs := by
  induction h generalizing bs with
  | nil =>
    cases h'
    exact .nil
  | cons hac _ ih =>
    cases h' with
    | cons hbc hrest => exact .cons (hS _ _ _ hac hbc) (ih hrest)

end River.Lib
