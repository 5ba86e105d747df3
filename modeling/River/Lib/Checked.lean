/-
  Unsigned arithmetic that fails where the result does not fit.
-/

import Mathlib.Tactic.Ring

namespace River.Lib

variable {ε α β : Type} {x : Except ε α} {f : α → Except ε β}

theorem bind_ok : (x >>= f) = .ok b ↔ ∃ a, x = .ok a ∧ f a = .ok b := by
  cases x with
  | ok a =>
    constructor
    · intro h
      exact ⟨a, rfl, h⟩
    · rintro ⟨_, ha, h⟩
      cases ha
      exact h
  | error e =>
    constructor
    · intro h
      cases h
    · rintro ⟨_, ha, -⟩
      cases ha

theorem guard_ok {x : Except ε Unit} {y : Except ε α} :
    (x >>= fun _ => y) = .ok a ↔ x = .ok () ∧ y = .ok a := by
  rw [bind_ok]
  constructor
  · rintro ⟨⟨⟩, hx, hy⟩
    exact ⟨hx, hy⟩
  · rintro ⟨hx, hy⟩
    exact ⟨(), hx, hy⟩

theorem foldlM_invariant {σ : Type} {f : σ → α → Except ε σ} {I : σ → Prop}
    (hstep : ∀ s a s', I s → f s a = .ok s' → I s') {l : List α} {s s' : σ} (hs : I s)
    (h : l.foldlM f s = .ok s') : I s' := by
  induction l generalizing s with
  | nil =>
    cases h
    exact hs
  | cons a l ih =>
    obtain ⟨s1, hfirst, hrest⟩ := bind_ok.1 h
    exact ih (hstep s a s1 hs hfirst) hrest

theorem foldlM_establishes {σ : Type} {f : σ → α → Except ε σ} {I P : σ → Prop}
    (hstep : ∀ s a s', I s → f s a = .ok s' → I s' ∧ P s') {l : List α} (hl : l ≠ []) {s s' : σ}
    (hs : I s) (h : l.foldlM f s = .ok s') : I s' ∧ P s' := by
  cases l with
  | nil => exact absurd rfl hl
  | cons a l =>
    obtain ⟨s1, hfirst, hrest⟩ := bind_ok.1 h
    exact foldlM_invariant (fun s a s' hs => hstep s a s' hs.1) (hstep s a s1 hs hfirst) hrest

theorem bind_error : (x >>= f) = .error e ↔ x = .error e ∨ ∃ a, x = .ok a ∧ f a = .error e := by
  cases x with
  | ok a =>
    constructor
    · intro h
      exact .inr ⟨a, rfl, h⟩
    rintro (h | ⟨_, ha, h⟩)
    · cases h
    · cases ha
      exact h
  | error e' =>
    constructor
    · intro h
      cases h
      exact .inl rfl
    · rintro (h | ⟨_, ha, -⟩)
      · cases h
        rfl
      · cases ha

theorem bind_ne_error (hx : x ≠ .error e) (hf : ∀ a, f a ≠ .error e) : (x >>= f) ≠ .error e := by
  rw [Ne, bind_error]
  rintro (h | ⟨a, -, h⟩)
  · exact hx h
  · exact hf a h

theorem exists_of_isOk (h : x.isOk = true) : ∃ a, x = .ok a := by
  cases x with
  | ok a => exact ⟨a, rfl⟩
  | error e => cases h

theorem ite_error_ok [Decidable c] : (if c then .error e else x) = .ok a ↔ ¬c ∧ x = .ok a := by
  by_cases h : c
  · rw [if_pos h]
    constructor
    · intro hx
      cases hx
    · exact fun hx => absurd h hx.1
  · rw [if_neg h]
    exact (and_iff_right h).symm

def addChecked (overflow : ε) (width a b : Nat) : Except ε Nat :=
  if a + b < 2 ^ width then .ok (a + b) else .error overflow

def subChecked (underflow : ε) (a b : Nat) : Except ε Nat :=
  if b ≤ a then .ok (a - b) else .error underflow

def mulChecked (overflow : ε) (width a b : Nat) : Except ε Nat :=
  if a * b < 2 ^ width then .ok (a * b) else .error overflow

def divChecked (byZero : ε) (a b : Nat) : Except ε Nat :=
  if b = 0 then .error byZero else .ok (a / b)

def sumChecked (overflow : ε) (width : Nat) : Nat → List Nat → Except ε Nat
  | sum, [] => .ok sum
  | sum, x :: xs => do
    let sum ← addChecked overflow width sum x
    sumChecked overflow width sum xs

theorem addChecked_ok : addChecked e width a b = .ok c ↔ a + b < 2 ^ width ∧ c = a + b := by
  unfold addChecked
  split
  · simp_all [eq_comm]
  · rename_i h
    simp [h]

theorem subChecked_ok : subChecked e a b = .ok c ↔ b ≤ a ∧ c = a - b := by
  unfold subChecked
  split
  · simp_all [eq_comm]
  · rename_i h
    simp [h]

theorem mulChecked_ok : mulChecked e width a b = .ok c ↔ a * b < 2 ^ width ∧ c = a * b := by
  unfold mulChecked
  split
  · simp_all [eq_comm]
  · rename_i h
    simp [h]

theorem divChecked_ok : divChecked e a b = .ok c ↔ b ≠ 0 ∧ c = a / b := by
  unfold divChecked
  split
  · simp_all
  · simp_all [eq_comm]

theorem sumChecked_ok (h : sumChecked e width a xs = .ok c) : c = a + xs.sum := by
  induction xs generalizing a with
  | nil =>
    cases h
    simp
  | cons x xs ih =>
    obtain ⟨b, hb, hrest⟩ := bind_ok.1 h
    rw [ih hrest, (addChecked_ok.1 hb).2, List.sum_cons, Nat.add_assoc]

end River.Lib
