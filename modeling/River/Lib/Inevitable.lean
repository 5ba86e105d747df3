/-
  What every schedule of a nondeterministic system comes to: no run gets stuck before and none
  goes on for ever.
-/

import Mathlib.Logic.Relation

namespace River.Lib

open Relation (ReflTransGen)

variable {σ : Type _} {step : σ → σ → Prop} {P : σ → Prop}

/-- `P` is met on every run from the state. -/
inductive Inevitable (step : σ → σ → Prop) (P : σ → Prop) : σ → Prop where
  | now {s : σ} (h : P s) : Inevitable step P s
  | later {s : σ} (hprogress : ∃ s', step s s') (hnext : ∀ s', step s s' → Inevitable step P s') :
      Inevitable step P s

theorem invariant_run {I : σ → Prop} (hstep : ∀ s s', I s → step s s' → I s') {s s' : σ} (hs : I s)
    (hrun : ReflTransGen step s s') : I s' := by
  induction hrun with
  | refl => exact hs
  | tail _ hlast ih => exact hstep _ _ ih hlast

theorem Inevitable.of_invariant {I : σ → Prop} (measure : σ → Nat)
    (hstep : ∀ s s', I s → step s s' → I s') (hsmaller : ∀ s s', step s s' → measure s' < measure s)
    (hprogress : ∀ s, I s → P s ∨ ∃ s', step s s') {s : σ} (hs : I s) : Inevitable step P s := by
  generalize hn : measure s = n
  induction n using Nat.strongRecOn generalizing s with
  | _ n ih =>
    rcases hprogress s hs with hP | hgo
    · exact .now hP
    · refine .later hgo fun s' hs' => ?_
      exact ih (measure s') (hn ▸ hsmaller s s' hs') (hstep s s' hs hs') rfl

theorem Inevitable.of_run (hfinal : ∀ s s', P s → ¬ step s s') {s s' : σ}
    (h : Inevitable step P s) (hrun : ReflTransGen step s s') (hstuck : ∀ s'', ¬ step s' s'') :
    P s' := by
  induction h with
  | now hP =>
    rcases hrun.cases_head with rfl | ⟨s1, hfirst, -⟩
    · exact hP
    · exact absurd hfirst (hfinal _ _ hP)
  | later hprogress _ ih =>
    rcases hrun.cases_head with rfl | ⟨s1, hfirst, hrest⟩
    · obtain ⟨s1, hgo⟩ := hprogress
      exact absurd hgo (hstuck s1)
    · exact ih s1 hfirst hrest

end River.Lib
