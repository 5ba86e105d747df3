/-
  Relational tables as lists of rows.
-/

import Mathlib.Data.List.Sort

namespace River.Lib.Table

open List

variable {ρ κ ο : Type _} [DecidableEq κ] [DecidableEq ο]

def insertUnique (key : ρ → κ) (rows : List ρ) (r : ρ) : Option (List ρ) :=
  if key r ∈ rows.map key then none else some (rows ++ [r])

def rowsOf (owner : ρ → ο) (o : ο) (rows : List ρ) : List ρ :=
  rows.filter (owner · = o)

def orderBy {κ : Type _} [LinearOrder κ] (key : ρ → κ) (rows : List ρ) : List ρ :=
  rows.insertionSort (fun a b => key a ≤ key b)

variable {rows : List ρ} {r : ρ}

theorem insertUnique_eq_some {key : ρ → κ} {rows' : List ρ} :
    insertUnique key rows r = some rows' ↔ key r ∉ rows.map key ∧ rows' = rows ++ [r] := by
  unfold insertUnique
  split <;> simp_all [eq_comm]

@[simp] theorem rowsOf_append (owner : ρ → ο) (o : ο) (xs ys : List ρ) :
    rowsOf owner o (xs ++ ys) = rowsOf owner o xs ++ rowsOf owner o ys := by
  simp [rowsOf]

variable {owner : ρ → ο} {o : ο}

theorem mem_rowsOf : r ∈ rowsOf owner o rows ↔ r ∈ rows ∧ owner r = o := by
  simp [rowsOf]

theorem rowsOf_eq_self (h : ∀ r ∈ rows, owner r = o) : rowsOf owner o rows = rows := by
  simpa [rowsOf] using h

theorem rowsOf_eq_nil (h : ∀ r ∈ rows, owner r ≠ o) : rowsOf owner o rows = [] := by
  simpa [rowsOf] using h

theorem rowsOf_append_of_ne {new : List ρ} (h : ∀ r ∈ new, owner r ≠ o) :
    rowsOf owner o (rows ++ new) = rowsOf owner o rows := by
  rw [rowsOf_append, rowsOf_eq_nil h, append_nil]

theorem rowsOf_append_of_eq {new : List ρ} (h : ∀ r ∈ new, owner r = o) :
    rowsOf owner o (rows ++ new) = rowsOf owner o rows ++ new := by
  rw [rowsOf_append, rowsOf_eq_self h]

@[simp] theorem rowsOf_singleton (owner : ρ → ο) (o : ο) (r : ρ) :
    rowsOf owner o [r] = if owner r = o then [r] else [] := by
  by_cases h : owner r = o <;> simp [rowsOf, h]

theorem rowsOf_filter_of_keep {p : ρ → Bool} (h : ∀ r ∈ rows, owner r = o → p r = true) :
    rowsOf owner o (rows.filter p) = rowsOf owner o rows := by
  unfold rowsOf
  rw [filter_filter]
  refine filter_congr fun r hr => ?_
  by_cases ho : owner r = o
  · simp [h r hr ho]
  · simp [ho]

theorem rowsOf_filter (owner : ρ → ο) (o : ο) (p : ρ → Bool) (rows : List ρ) :
    rowsOf owner o (rows.filter p) = (rowsOf owner o rows).filter p := by
  unfold rowsOf
  rw [filter_filter, filter_filter]
  exact filter_congr fun r _ => Bool.and_comm _ _

theorem rowsOf_map {f : ρ → ρ} (hf : ∀ r, owner (f r) = owner r) (o : ο) (rows : List ρ) :
    rowsOf owner o (rows.map f) = (rowsOf owner o rows).map f := by
  unfold rowsOf
  rw [filter_map]
  congr 1
  exact filter_congr fun r _ => by simp [hf]

theorem mem_map_key_iff {κ : Type _} (owner : ρ → ο) (key : ρ → κ)
    (hkey : ∀ a b, key a = key b → owner a = owner b) (rows : List ρ) (r : ρ) :
    key r ∈ rows.map key ↔ key r ∈ (rowsOf owner (owner r) rows).map key := by
  simp only [mem_map, mem_rowsOf]
  constructor
  · rintro ⟨a, ha, he⟩
    exact ⟨a, ⟨ha, hkey a r he⟩, he⟩
  · rintro ⟨a, ⟨ha, -⟩, he⟩
    exact ⟨a, ha, he⟩

theorem insertUnique_of_rowsOf (owner : ρ → ο) (key : ρ → κ)
    (hkey : ∀ a b, key a = key b → owner a = owner b) (rows : List ρ) (r : ρ)
    (h : key r ∉ (rowsOf owner (owner r) rows).map key) :
    insertUnique key rows r = some (rows ++ [r]) :=
  insertUnique_eq_some.2 ⟨fun hmem => h ((mem_map_key_iff owner key hkey rows r).1 hmem), rfl⟩

theorem orderBy_eq_self {ι : Type _} [LinearOrder ι] {key : ρ → ι}
    (h : rows.Pairwise (fun a b => key a ≤ key b)) : orderBy key rows = rows :=
  h.insertionSort_eq

/-! ## Consecutively numbered rows -/

section Numbered

variable {α : Type _}

def number (mk : Int → α → ρ) : Int → List α → List ρ
  | _, [] => []
  | i, a :: as => mk i a :: number mk (i + 1) as

@[simp] theorem number_nil (mk : Int → α → ρ) (i : Int) : number mk i [] = [] := rfl

@[simp] theorem number_cons (mk : Int → α → ρ) (i : Int) (a : α) (as : List α) :
    number mk i (a :: as) = mk i a :: number mk (i + 1) as := rfl

@[simp] theorem length_number (mk : Int → α → ρ) (i : Int) (as : List α) :
    (number mk i as).length = as.length := by
  induction as generalizing i with
  | nil => rfl
  | cons a as ih => simp [ih]

theorem number_append (mk : Int → α → ρ) (i : Int) (as bs : List α) :
    number mk i (as ++ bs) = number mk i as ++ number mk (i + as.length) bs := by
  induction as generalizing i with
  | nil => simp
  | cons a as ih => simp [ih, Int.add_assoc, Int.add_comm 1]

theorem exists_of_mem_number (h : r ∈ number mk i as) :
    ∃ j a, r = mk j a ∧ i ≤ j ∧ j < i + as.length := by
  induction as generalizing i with
  | nil => simp at h
  | cons a as ih =>
    rcases mem_cons.1 h with rfl | h
    · exact ⟨i, a, rfl, le_refl i, by simp only [length_cons]; omega⟩
    · obtain ⟨j, b, rfl, _, _⟩ := ih h
      exact ⟨j, b, rfl, by omega, by simp only [length_cons]; omega⟩

variable (key : ρ → Int)

theorem map_number (hkey : ∀ i a, key (mk i a) = i) (i : Int) (as : List α) :
    (number mk i as).map key = number (fun j (_ : α) => j) i as := by
  induction as generalizing i with
  | nil => rfl
  | cons a as ih => simp [ih, hkey]

theorem number_eq_range (i : Int) (as : List α) :
    number (fun j (_ : α) => j) i as = (range as.length).map (fun k : Nat => i + (k : Int)) := by
  induction as generalizing i with
  | nil => rfl
  | cons a as ih =>
    rw [number_cons, ih, length_cons, range_succ_eq_map]
    simp [Int.add_assoc, Int.add_comm 1]

theorem pairwise_number (hkey : ∀ i a, key (mk i a) = i) (i : Int) (as : List α) :
    (number mk i as).Pairwise (fun a b => key a < key b) := by
  induction as generalizing i with
  | nil => exact .nil
  | cons a as ih =>
    refine .cons (fun r hr => ?_) (ih (i + 1))
    obtain ⟨j, b, rfl, _, -⟩ := exists_of_mem_number hr
    rw [hkey, hkey]
    omega

theorem orderBy_number (hkey : ∀ i a, key (mk i a) = i) (i : Int) (as : List α) :
    orderBy key (number mk i as) = number mk i as :=
  orderBy_eq_self ((pairwise_number key hkey i as).imp fun h => le_of_lt h)

theorem filterMap_number {f : ρ → Option α} (hf : ∀ i a, f (mk i a) = some a) (i : Int)
    (as : List α) :
    (number mk i as).filterMap f = as := by
  induction as generalizing i with
  | nil => rfl
  | cons a as ih => rw [number_cons, filterMap_cons_some (hf i a), ih]

theorem filter_number (hkey : ∀ i a, key (mk i a) = i) (i : Int) (k : Nat) (as : List α) :
    (number mk i as).filter (fun r => key r ≥ i + k) = number mk (i + k) (as.drop k) := by
  induction as generalizing i k with
  | nil => simp
  | cons a as ih =>
    cases k with
    | zero =>
      have hrest : ∀ r ∈ number mk i (a :: as), key r ≥ i + (0 : Nat) := by
        intro r hr
        obtain ⟨j, b, rfl, _, -⟩ := exists_of_mem_number hr
        rw [hkey]
        omega
      rw [filter_eq_self.2 (by simpa using hrest)]
      simp
    | succ k =>
      have hhead : ¬ key (mk i a) ≥ i + (k + 1 : Nat) := by
        rw [hkey]
        omega
      rw [number_cons, filter_cons_of_neg (by simpa using hhead)]
      have := ih (i + 1) k
      simpa [Int.add_assoc, Int.add_comm 1] using this

end Numbered

end River.Lib.Table
