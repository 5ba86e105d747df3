/-
  Computations on a state that may fail, together with what their outcome rests on.
-/

import Mathlib.Data.List.Basic

namespace River.Lib

structure Outcome (ι ε α : Type) where
  result : Except ε α
  sources : List ι

def Sourced (ι σ ε α : Type) : Type := σ → Outcome ι ε α × σ

namespace Sourced

variable {ι σ ε α β : Type}

def andThen (m : Sourced ι σ ε α) (f : α → Sourced ι σ ε β) : Sourced ι σ ε β := fun s =>
  match m s with
  | (⟨.error e, sources⟩, s') => (⟨.error e, sources⟩, s')
  | (⟨.ok a, sources⟩, s') =>
    let (last, s'') := f a s'
    (⟨last.result, sources ++ last.sources⟩, s'')

instance : Monad (Sourced ι σ ε) where
  pure a s := (⟨.ok a, []⟩, s)
  bind := andThen

def fail (e : ε) : Sourced ι σ ε α := fun s => (⟨.error e, []⟩, s)

def source (sources : List ι) (answer : Except ε α) : Sourced ι σ ε α := fun s =>
  (⟨answer, sources⟩, s)

def attempt (m : Sourced ι σ ε α) : Sourced ι σ ε (Except ε α) := fun s =>
  let (outcome, s') := m s
  (⟨.ok outcome.result, outcome.sources⟩, s')

def Ensures (I : σ → Prop) (m : Sourced ι σ ε α) (Q : Except ε α → List ι → Prop) : Prop :=
  ∀ s, I s → Q (m s).1.result (m s).1.sources ∧ I (m s).2

variable {I : σ → Prop} {m : Sourced ι σ ε α} {f : α → Sourced ι σ ε β}
  {Q Q' : Except ε α → List ι → Prop} {R : Except ε β → List ι → Prop}

theorem Ensures.mono (h : Ensures I m Q) (hQ : ∀ r l, Q r l → Q' r l) : Ensures I m Q' :=
  fun s hs => ⟨hQ _ _ (h s hs).1, (h s hs).2⟩

theorem ensures_pure (h : Q (.ok a) []) : Ensures I (pure a) Q := fun _ hs => ⟨h, hs⟩

theorem ensures_fail (h : Q (.error e) []) : Ensures I (fail e) Q := fun _ hs => ⟨h, hs⟩

theorem ensures_source (h : Q answer sources) :
    Ensures I (source sources answer) Q := fun _ hs => ⟨h, hs⟩

theorem ensures_attempt {Q : Except ε (Except ε α) → List ι → Prop}
    (h : Ensures I m fun r l => Q (.ok r) l) : Ensures I (attempt m) Q := fun s hs => h s hs

theorem ensures_bind (hm : Ensures I m Q) (herror : ∀ e l, Q (.error e) l → R (.error e) l)
    (hf : ∀ a l, Q (.ok a) l → Ensures I (f a) fun r l' => R r (l ++ l')) :
    Ensures I (m >>= f) R := by
  intro s hs
  obtain ⟨hQ, hs'⟩ := hm s hs
  show R (andThen m f s).1.result (andThen m f s).1.sources ∧ I (andThen m f s).2
  unfold andThen
  rcases hms : m s with ⟨⟨e | a, l⟩, s'⟩
  · rw [hms] at hQ hs'
    exact ⟨herror e l hQ, hs'⟩
  · rw [hms] at hQ hs'
    exact hf a l hQ s' hs'

end Sourced

end River.Lib
