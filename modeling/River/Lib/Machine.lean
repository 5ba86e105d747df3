/-
  Deterministic machines with outputs, and the induction rules every safety result about a
  component is assembled from.

  Every choice of the environment is an argument of the action.
-/

import Mathlib.Data.List.Basic

namespace River.Lib

/-- A deterministic machine with outputs. -/
structure Machine (σ α ω : Type _) where
  /-- One action: the state after it, and its outcome. -/
  step : σ → α → σ × ω

namespace Machine

variable {σ α ω : Type _} (M : Machine σ α ω)

def next (s : σ) (a : α) : σ := (M.step s a).1

def out (s : σ) (a : α) : ω := (M.step s a).2

def exec : σ → List α → σ
  | s, [] => s
  | s, a :: as => exec (M.next s a) as

/-- `P` holds of every action of the run. -/
def Along (P : σ → α → Prop) : σ → List α → Prop
  | _, [] => True
  | s, a :: as => P s a ∧ Along P (M.next s a) as

def collect {β : Type _} (f : σ → α → List β) : σ → List α → List β
  | _, [] => []
  | s, a :: as => f s a ++ collect f (M.next s a) as

instance decidableAlong (P : σ → α → Prop) [∀ s a, Decidable (P s a)] :
    ∀ s as, Decidable (M.Along P s as)
  | _, [] => .isTrue trivial
  | s, a :: as =>
    have := decidableAlong P (M.next s a) as
    inferInstanceAs (Decidable (P s a ∧ M.Along P (M.next s a) as))

/-- The machine of calls that can fail: one that does leaves the state as it was. -/
def ofCall {ε : Type _} (call : σ → α → Except ε σ) : Machine σ α (Option ε) where
  step s a :=
    match call s a with
    | .ok s' => (s', none)
    | .error e => (s, some e)

variable {M}

@[simp] theorem exec_nil (s : σ) : M.exec s [] = s := rfl

@[simp] theorem exec_cons (s : σ) (a : α) (as : List α) :
    M.exec s (a :: as) = M.exec (M.next s a) as := rfl

@[simp] theorem along_nil (P : σ → α → Prop) (s : σ) : M.Along P s [] := trivial

@[simp] theorem along_cons (P : σ → α → Prop) (s : σ) (a : α) (as : List α) :
    M.Along P s (a :: as) ↔ P s a ∧ M.Along P (M.next s a) as := .rfl

variable {β : Type _} (f : σ → α → List β)

@[simp] theorem collect_nil (s : σ) : M.collect f s [] = [] := rfl

@[simp] theorem collect_cons (s : σ) (a : α) (as : List α) :
    M.collect f s (a :: as) = f s a ++ M.collect f (M.next s a) as := rfl

theorem exec_append (s : σ) (as bs : List α) : M.exec s (as ++ bs) = M.exec (M.exec s as) bs := by
  induction as generalizing s with
  | nil => rfl
  | cons a as ih => exact ih (M.next s a)

theorem along_append (P : σ → α → Prop) (s : σ) (as bs : List α) :
    M.Along P s (as ++ bs) ↔ M.Along P s as ∧ M.Along P (M.exec s as) bs := by
  induction as generalizing s with
  | nil => simp
  | cons a as ih => simp [ih, and_assoc]

theorem collect_append (s : σ) (as bs : List α) :
    M.collect f s (as ++ bs) = M.collect f s as ++ M.collect f (M.exec s as) bs := by
  induction as generalizing s with
  | nil => rfl
  | cons a as ih => simp [ih]

theorem map_collect {γ : Type _} (g : β → γ) (s : σ) (as : List α) :
    (M.collect f s as).map g = M.collect (fun s a => (f s a).map g) s as := by
  induction as generalizing s with
  | nil => rfl
  | cons a as ih => rw [collect_cons, collect_cons, List.map_append, ih]

theorem collect_sublist {f g : σ → α → List β} (h : ∀ s a, (f s a).Sublist (g s a)) (s : σ)
    (as : List α) : (M.collect f s as).Sublist (M.collect g s as) := by
  induction as generalizing s with
  | nil => exact .refl _
  | cons a as ih => exact (h s a).append (ih _)

variable {P : σ → α → Prop}

theorem along_of_forall (h : ∀ s a, P s a) (s : σ) (as : List α) : M.Along P s as := by
  induction as generalizing s with
  | nil => trivial
  | cons a as ih => exact ⟨h s a, ih _⟩

variable {as : List α}

theorem along_of_mem {P : α → Prop} (h : ∀ a ∈ as, P a) (s : σ) :
    M.Along (fun _ a => P a) s as := by
  induction as generalizing s with
  | nil => trivial
  | cons a as ih =>
    exact ⟨h a List.mem_cons_self, ih (fun b hb => h b (List.mem_cons_of_mem _ hb)) _⟩

variable {Q : σ → α → Prop} {s : σ}

theorem Along.mono (h : ∀ s a, P s a → Q s a) (hP : M.Along P s as) : M.Along Q s as := by
  induction as generalizing s with
  | nil => trivial
  | cons a as ih => exact ⟨h s a hP.1, ih hP.2⟩

variable {I : σ → Prop}

theorem Along.imp_of_invariant (hstep : ∀ s a, I s → P s a → I (M.next s a))
    (hQ : ∀ s a, I s → P s a → Q s a) (hs : I s) (hP : M.Along P s as) : M.Along Q s as := by
  induction as generalizing s with
  | nil => trivial
  | cons a as ih => exact ⟨hQ s a hs hP.1, ih (hstep s a hs hP.1) hP.2⟩

theorem Along.and (hP : M.Along P s as) (hQ : M.Along Q s as) :
    M.Along (fun s a => P s a ∧ Q s a) s as := by
  induction as generalizing s with
  | nil => trivial
  | cons a as ih => exact ⟨⟨hP.1, hQ.1⟩, ih hP.2 hQ.2⟩

theorem exec_invariant_along (hstep : ∀ s a, I s → P s a → I (M.next s a)) (hs : I s)
    (hP : M.Along P s as) : I (M.exec s as) := by
  induction as generalizing s with
  | nil => exact hs
  | cons a as ih => exact ih (hstep s a hs hP.1) hP.2

theorem exec_invariant (hstep : ∀ s a, I s → I (M.next s a)) (hs : I s) (as : List α) :
    I (M.exec s as) := by
  induction as generalizing s with
  | nil => exact hs
  | cons a as ih => exact ih (hstep s a hs)

theorem always_iff_along_of_stronger {L : σ → Prop} (hI : ∀ s, L s → I s)
    (hkeep : ∀ s a, L s → P s a → L (M.next s a)) (hbreak : ∀ s a, L s → ¬P s a → ¬I (M.next s a))
    (hs : L s) (as : List α) :
    (∀ front, front <+: as → I (M.exec s front)) ↔ M.Along P s as := by
  induction as generalizing s with
  | nil => simpa using hI s hs
  | cons a as ih =>
    constructor
    · intro h
      have hP : P s a := by
        by_contra hP
        exact hbreak s a hs hP (h [a] ⟨as, rfl⟩)
      refine ⟨hP, (ih (hkeep s a hs hP)).1 ?_⟩
      intro front hfront
      exact h (a :: front) (List.cons_prefix_cons.2 ⟨rfl, hfront⟩)
    · rintro ⟨hP, hrest⟩ front hfront
      rcases List.prefix_cons_iff.1 hfront with rfl | ⟨rest, rfl, hprefix⟩
      · exact hI s hs
      · exact (ih (hkeep s a hs hP)).2 hrest rest hprefix

theorem always_iff_along {J : σ → Prop} (hJ : ∀ s a, J s → J (M.next s a))
    (hstep : ∀ s a, J s → I s → (I (M.next s a) ↔ P s a)) (hj : J s) (hs : I s) (as : List α) :
    (∀ front, front <+: as → I (M.exec s front)) ↔ M.Along P s as :=
  always_iff_along_of_stronger (L := fun s => J s ∧ I s) (fun _ hs => hs.2)
    (fun s a hs hP => ⟨hJ s a hs.1, (hstep s a hs.1 hs.2).2 hP⟩)
    (fun s a hs hP hnext => hP ((hstep s a hs.1 hs.2).1 hnext)) ⟨hj, hs⟩ as

section Calls

variable {ε : Type _} {call : σ → α → Except ε σ} {a : α}

theorem next_ofCall_ok (h : call s a = .ok s') : (ofCall call).next s a = s' := by
  simp only [next, ofCall, h]

theorem next_ofCall_error (h : call s a = .error e) : (ofCall call).next s a = s := by
  simp only [next, ofCall, h]

theorem out_ofCall_ok (h : call s a = .ok s') : (ofCall call).out s a = none := by
  simp only [out, ofCall, h]

theorem out_ofCall_error (h : call s a = .error e) : (ofCall call).out s a = some e := by
  simp only [out, ofCall, h]

theorem next_ofCall {P : σ → Prop} (hs : P s) (h : ∀ s', call s a = .ok s' → P s') :
    P ((ofCall call).next s a) := by
  cases hcall : call s a with
  | ok s' =>
    rw [next_ofCall_ok hcall]
    exact h s' hcall
  | error e =>
    rw [next_ofCall_error hcall]
    exact hs

end Calls

theorem collect_invariant {f : σ → α → List β} {G : List β → Prop} {J : List β → σ → Prop}
    (hG : ∀ l l', G (l ++ l') → G l)
    (hstep : ∀ l s a, J l s → P s a → G (l ++ f s a) → J (l ++ f s a) (M.next s a)) {l : List β}
    (hs : J l s) (hP : M.Along P s as) (hg : G (l ++ M.collect f s as)) :
    J (l ++ M.collect f s as) (M.exec s as) := by
  induction as generalizing l s with
  | nil => simpa using hs
  | cons a as ih =>
    rw [collect_cons, ← List.append_assoc] at hg ⊢
    exact ih (hstep l s a hs hP.1 (hG _ _ hg)) hP.2 hg

theorem collect_congr {f g : σ → α → List β} (hstep : ∀ s a, I s → P s a → I (M.next s a))
    (hfg : ∀ s a, I s → P s a → f s a = g s a) (hs : I s) (hP : M.Along P s as) :
    M.collect f s as = M.collect g s as := by
  induction as generalizing s with
  | nil => rfl
  | cons a as ih => rw [collect_cons, collect_cons, hfg s a hs hP.1, ih (hstep s a hs hP.1) hP.2]

end Machine

end River.Lib
