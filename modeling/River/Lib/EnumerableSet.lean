/-
  Removal by moving the last element, and the sets that are built on it.
-/

import Mathlib.Data.List.Nodup
import Mathlib.Data.List.Perm.Basic

namespace River.Lib

open List

variable {α : Type}

/-! ## Removal -/

def swapRemoveAt (l : List α) (i : Nat) : List α :=
  match l.getLast? with
  | none => l
  | some last => (l.set i last).dropLast

theorem swapRemoveAt_concat (front : List α) (a : α) :
    swapRemoveAt (front ++ [a]) front.length = front := by
  simp [swapRemoveAt]

theorem swapRemoveAt_append (front : List α) (a : α) (middle : List α) (last : α) :
    swapRemoveAt (front ++ a :: (middle ++ [last])) front.length = front ++ last :: middle := by
  have hlast : (front ++ a :: (middle ++ [last])).getLast? = some last := by
    simp [getLast?_cons]
  unfold swapRemoveAt
  rw [hlast]
  simp only [set_append_right _ _ (Nat.le_refl _), Nat.sub_self, set_cons_zero]
  rw [← cons_append, ← append_assoc, dropLast_concat]

variable {l : List α}

theorem exists_place (hi : i < l.length) :
    (∃ front a, l = front ++ [a] ∧ front.length = i) ∨
      ∃ front a middle last, l = front ++ a :: (middle ++ [last]) ∧ front.length = i := by
  have hsplit : l = l.take i ++ l[i] :: l.drop (i + 1) := by
    rw [getElem_cons_drop, take_append_drop]
  have hlen : (l.take i).length = i := by
    rw [length_take]
    omega
  rcases eq_nil_or_concat (l.drop (i + 1)) with hnil | ⟨middle, last, hback⟩
  · rw [hnil] at hsplit
    exact .inl ⟨_, _, hsplit, hlen⟩
  · rw [hback, concat_eq_append] at hsplit
    exact .inr ⟨_, _, middle, last, hsplit, hlen⟩

theorem swapRemoveAt_perm (hi : i < l.length) : (swapRemoveAt l i).Perm (l.eraseIdx i) := by
  rcases exists_place hi with ⟨front, a, rfl, rfl⟩ | ⟨front, a, middle, last, rfl, rfl⟩
  · rw [swapRemoveAt_concat, eraseIdx_append_of_length_le (Nat.le_refl _)]
    simp
  · rw [swapRemoveAt_append, eraseIdx_append_of_length_le (Nat.le_refl _)]
    simp only [Nat.sub_self]
    exact (perm_append_singleton last middle).symm.append_left front

variable {x : α}

theorem cons_eq_concat_iff : x :: l = l ++ [x] ↔ ∀ y ∈ l, y = x := by
  induction l with
  | nil => simp
  | cons y l ih =>
    rw [cons_append, cons.injEq, forall_mem_cons]
    constructor
    · rintro ⟨rfl, h⟩
      exact ⟨rfl, ih.1 h⟩
    · rintro ⟨rfl, h⟩
      exact ⟨rfl, ih.2 h⟩

theorem swapRemoveAt_eq_eraseIdx (hi : i < l.length) :
    swapRemoveAt l i = l.eraseIdx i ↔ ∀ x ∈ l.drop (i + 1), ∀ y ∈ l.drop (i + 1), x = y := by
  rcases exists_place hi with ⟨front, a, rfl, rfl⟩ | ⟨front, a, middle, last, rfl, rfl⟩
  · rw [swapRemoveAt_concat, eraseIdx_append_of_length_le (Nat.le_refl _)]
    simp
  have hback : (front ++ a :: (middle ++ [last])).drop (front.length + 1) = middle ++ [last] := by
    simp [drop_append]
  rw [swapRemoveAt_append, eraseIdx_append_of_length_le (Nat.le_refl _), hback]
  simp only [Nat.sub_self, eraseIdx_cons_zero]
  rw [append_cancel_left_eq, cons_eq_concat_iff]
  constructor
  · intro h x hx y hy
    have hsame := forall_mem_append.2 ⟨h, forall_mem_singleton.2 rfl⟩
    rw [hsame x hx, hsame y hy]
  · intro h y hy
    exact h y (mem_append_left _ hy) last (mem_append_right _ (mem_singleton.2 rfl))

/-! ## Sets -/

structure EnumerableSet (α : Type) where
  values : List α
  nodup : values.Nodup

namespace EnumerableSet

variable [DecidableEq α]

instance : Membership α (EnumerableSet α) := ⟨fun s x => x ∈ s.values⟩

instance (x : α) (s : EnumerableSet α) : Decidable (x ∈ s) :=
  inferInstanceAs (Decidable (x ∈ s.values))

omit [DecidableEq α] in
theorem mem_values {x : α} {s : EnumerableSet α} : x ∈ s.values ↔ x ∈ s := .rfl

def empty : EnumerableSet α := ⟨[], nodup_nil⟩

def add (s : EnumerableSet α) (x : α) : EnumerableSet α :=
  if h : x ∈ s.values then s
  else ⟨s.values ++ [x], by
    rw [nodup_append]
    refine ⟨s.nodup, nodup_singleton x, ?_⟩
    intro y hy z hz heq
    rw [mem_singleton.1 hz] at heq
    exact h (heq ▸ hy)⟩

def remove (s : EnumerableSet α) (x : α) : EnumerableSet α :=
  if h : x ∈ s.values then
    ⟨swapRemoveAt s.values (s.values.idxOf x),
      (swapRemoveAt_perm (idxOf_lt_length_of_mem h)).nodup_iff.2
        (s.nodup.sublist (eraseIdx_sublist _ _))⟩
  else s

variable {s : EnumerableSet α}

theorem remove_of_not_mem (h : x ∉ s) : s.remove x = s := dif_neg h

omit [DecidableEq α] in
@[simp] theorem not_mem_empty (x : α) : x ∉ (empty : EnumerableSet α) := not_mem_nil

@[simp] theorem mem_add {y : α} : y ∈ s.add x ↔ y ∈ s ∨ y = x := by
  rw [← mem_values, ← mem_values]
  unfold add
  split
  · rename_i hx
    constructor
    · exact fun hy => .inl hy
    · rintro (hy | rfl)
      · exact hy
      · exact hx
  · simp

@[simp] theorem mem_remove {y : α} : y ∈ s.remove x ↔ y ∈ s ∧ y ≠ x := by
  rw [← mem_values]
  unfold remove
  split
  · rename_i hx
    have hperm := swapRemoveAt_perm (idxOf_lt_length_of_mem hx)
    rw [hperm.mem_iff, ← erase_eq_eraseIdx_of_idxOf rfl, s.nodup.mem_erase_iff]
    exact and_comm
  · rename_i hx
    constructor
    · exact fun hy => ⟨hy, fun heq => hx (heq ▸ hy)⟩
    · exact fun hy => hy.1

variable {l : List α}

theorem mem_foldl_remove {y : α} : y ∈ l.foldl remove s ↔ y ∈ s ∧ y ∉ l := by
  induction l generalizing s with
  | nil => simp
  | cons x l ih => rw [foldl_cons, ih, mem_remove, mem_cons, not_or, and_assoc]

end EnumerableSet

end River.Lib
