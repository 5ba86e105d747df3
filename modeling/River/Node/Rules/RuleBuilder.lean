/-
  The two rule builders on the same groups of checks (rule_builder_cs.go and rule_builder_ae.go).
-/

import River.Node.Rules.CanCreateStream

namespace River.Node.Rules

open List

variable {fns : List (Res Unit)}

def Check.ofCS (fn : Res Unit) : Check := .pure (fn >>= fun _ => .ok true)

theorem runOneOf_ofCS_of_mem (h : .ok () ∈ fns) (hpanic : ∀ fn ∈ fns, ∀ m, fn ≠ .panic m)
    (errors : Nat) (heap : Heap) :
    runOneOf (fns.map Check.ofCS) errors heap = (.ok true, heap) := by
  induction fns generalizing errors with
  | nil => exact absurd h not_mem_nil
  | cons fn fns ih =>
    cases fn with
    | ok u => rfl
    | error e =>
      exact ih ((mem_cons.1 h).resolve_left nofun) (fun fn hfn => hpanic fn (mem_cons_of_mem _ hfn))
        (errors + 1)
    | panic m => exact absurd rfl (hpanic _ mem_cons_self m)

theorem runOneOf_ofCS_ne (h : .ok () ∉ fns) (errors : Nat) (heap : Heap) :
    (runOneOf (fns.map Check.ofCS) errors heap).1 ≠ .ok true := by
  induction fns generalizing errors with
  | nil => rcases errors with _ | _ | _ <;> nofun
  | cons fn fns ih =>
    cases fn with
    | ok u => exact absurd mem_cons_self h
    | error e => exact ih (fun hmem => h (mem_cons_of_mem _ hmem)) (errors + 1)
    | panic m => nofun

theorem runChecksAE_ofCS {groups : List (List (Res Unit))}
    (hpanic : ∀ fns ∈ groups, ∀ fn ∈ fns, ∀ m, fn ≠ .panic m) (heap : Heap) :
    (runChecksAE (groups.map (·.map Check.ofCS)) heap).1 = .ok true ↔
      ∀ fns ∈ groups, .ok () ∈ fns := by
  induction groups with
  | nil => simp [runChecksAE]
  | cons fns groups ih =>
    rw [forall_mem_cons] at hpanic ⊢
    rw [← ih hpanic.2, map_cons, runChecksAE]
    by_cases hfns : .ok () ∈ fns
    · rw [runOneOf_ofCS_of_mem hfns hpanic.1]
      exact (and_iff_right hfns).symm
    · have hne := runOneOf_ofCS_ne hfns 0 heap
      refine iff_of_false ?_ fun h => hfns h.1
      split
      · rename_i hone
        rw [hone] at hne
        exact absurd rfl hne
      · exact hne

/-- All checks pass and no group is empty, or a check fails and some group has no passing one. -/
def OrsAsAnds (groups : List (List (Res Unit))) : Prop :=
  (∀ fns ∈ groups, fns ≠ [] ∧ ∀ fn ∈ fns, fn = .ok ()) ∨
    (∃ fns ∈ groups, ∃ fn ∈ fns, fn ≠ .ok ()) ∧ ∃ fns ∈ groups, .ok () ∉ fns

/-- **Rule combinators.** `runChecksCS` answers like an and of ors exactly for the groups of
    `OrsAsAnds`; `runChecksAE` is one for all groups whose checks return. -/
theorem runChecksCS_and_of_ors (groups : List (List (Res Unit))) (heap : Heap) :
    ((runChecksCS groups = .ok () ↔ ∀ fns ∈ groups, .ok () ∈ fns) ↔ OrsAsAnds groups) ∧
      ((∀ fns ∈ groups, ∀ fn ∈ fns, ∀ m, fn ≠ .panic m) →
        ((runChecksAE (groups.map (·.map Check.ofCS)) heap).1 = .ok true ↔
          ∀ fns ∈ groups, .ok () ∈ fns)) := by
  refine ⟨?_, fun hpanic => runChecksAE_ofCS hpanic heap⟩
  rw [runChecksCS_eq_ok]
  constructor
  · intro hsame
    by_cases hall : ∀ fns ∈ groups, ∀ fn ∈ fns, fn = .ok ()
    · exact .inl fun fns hfns => ⟨ne_nil_of_mem (hsame.1 hall fns hfns), hall fns hfns⟩
    · have hnone := mt hsame.2 hall
      push Not at hall hnone
      exact .inr ⟨hall, hnone⟩
  · rintro (hall | ⟨⟨fns, hfns, fn, hfn, hfail⟩, none, hnone, hno⟩)
    · refine iff_of_true (fun fns hfns => (hall fns hfns).2) fun fns hfns => ?_
      obtain ⟨fn, hfn⟩ := exists_mem_of_ne_nil fns (hall fns hfns).1
      exact (hall fns hfns).2 fn hfn ▸ hfn
    · exact iff_of_false (fun h => hfail (h fns hfns fn hfn)) fun h => hno (h none hnone)

/-- A group in which the second check passes and the first does not is refused, and an empty
    group is accepted; `runChecksAE` answers the other way. -/
theorem runChecksCS_not_or :
    let failed : Res Unit := riverError .permissionDenied "check"
    runChecksCS [[failed, .ok ()]] = riverError .permissionDenied "check failed" ∧
      (runChecksAE [[.ofCS failed, .ofCS (.ok ())]] .empty).1 = .ok true ∧
      runChecksCS [[]] = .ok () ∧ (runChecksAE [[]] .empty).1 = .ok false :=
  ⟨rfl, rfl, rfl, rfl⟩

end River.Node.Rules
