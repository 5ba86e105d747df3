/-
  Lists kept in strictly ascending order of a key, searched by bisection: finite maps.
-/

import Mathlib.Data.List.InsertIdx
import Mathlib.Data.List.Sort

namespace River.Lib.SortedList

open List Option

variable {α κ : Type _} [LinearOrder κ] (key : α → κ)

def searchLoop (xs : List α) (target : κ) : Nat → Nat → Nat → Nat
  | 0, i, _ => i
  | fuel + 1, i, j =>
    if i < j then
      match xs[(i + j) / 2]? with
      | none => i
      | some x =>
        if key x < target then searchLoop xs target fuel ((i + j) / 2 + 1) j
        else searchLoop xs target fuel i ((i + j) / 2)
    else i

variable (xs : List α)

def binarySearch (target : κ) : Nat × Bool :=
  let i := searchLoop key xs target xs.length 0 xs.length
  (i, xs[i]?.any (key · = target))

def findSorted (k : κ) : Option α :=
  let (i, found) := binarySearch key xs k
  if found then xs[i]? else none

def insertSorted (x : α) : List α :=
  let (i, found) := binarySearch key xs (key x)
  if found then xs.set i x else xs.insertIdx i x

def removeSorted (k : κ) : List α :=
  let (i, found) := binarySearch key xs k
  if found then xs.eraseIdx i else xs

def modifySorted (k : κ) (f : α → α) : List α :=
  let (i, found) := binarySearch key xs k
  if found then xs.modify i f else xs

def Ascending : Prop := xs.Pairwise (fun a b => key a < key b)

def lookup (k : κ) : Option α := xs.find? (fun x => key x = k)

variable {key}

/-! ## Bisection -/

theorem searchLoop_spec (key : α → κ) (xs : List α) (target : κ) (hasc : Ascending key xs) :
    ∀ fuel i j : Nat, j - i ≤ fuel → i ≤ j → j ≤ xs.length →
      (∀ n x, n < i → xs[n]? = some x → key x < target) →
      (∀ n x, j ≤ n → xs[n]? = some x → target ≤ key x) →
      (∀ n x, n < searchLoop key xs target fuel i j → xs[n]? = some x → key x < target) ∧
        (∀ n x, searchLoop key xs target fuel i j ≤ n → xs[n]? = some x → target ≤ key x) ∧
        searchLoop key xs target fuel i j ≤ xs.length := by
  have hpair : ∀ (m n : Nat) x y, m < n → xs[m]? = some x → xs[n]? = some y → key x < key y := by
    intro m n x y hmn hx hy
    obtain ⟨hm, rfl⟩ := List.getElem?_eq_some_iff.1 hx
    obtain ⟨hn, rfl⟩ := List.getElem?_eq_some_iff.1 hy
    exact pairwise_iff_getElem.1 hasc m n hm hn hmn
  intro fuel
  induction fuel with
  | zero =>
    intro i j hfuel hij hj hlo hhi
    obtain rfl : i = j := by omega
    exact ⟨hlo, hhi, hj⟩
  | succ fuel ih =>
    intro i j hfuel hij hj hlo hhi
    unfold searchLoop
    by_cases hlt : i < j
    swap
    · obtain rfl : i = j := by omega
      simp only [lt_irrefl]
      exact ⟨hlo, hhi, hj⟩
    simp only [hlt, if_true]
    have hmid : (i + j) / 2 < xs.length := by omega
    rw [getElem?_eq_getElem hmid]
    simp only
    split
    · -- the probe is below the target: so is everything before it
      rename_i hbelow
      refine ih _ _ (by omega) (by omega) hj (fun n x hn hx => ?_) hhi
      rcases Nat.lt_or_ge n ((i + j) / 2) with hn' | hn'
      · exact lt_trans (hpair _ _ _ _ hn' hx (getElem?_eq_getElem hmid)) hbelow
      obtain rfl : n = (i + j) / 2 := by omega
      rw [getElem?_eq_getElem hmid] at hx
      cases hx
      exact hbelow
    · -- the probe is not below the target: nor is anything after it
      rename_i habove
      refine ih _ _ (by omega) (by omega) (by omega) hlo (fun n x hn hx => ?_)
      rcases Nat.lt_or_ge ((i + j) / 2) n with hn' | hn'
      · exact le_of_lt (lt_of_le_of_lt (not_lt.1 habove)
          (hpair _ _ _ _ hn' (getElem?_eq_getElem hmid) hx))
      obtain rfl : n = (i + j) / 2 := by omega
      rw [getElem?_eq_getElem hmid] at hx
      cases hx
      exact not_lt.1 habove

theorem binarySearch_split {xs : List α} (hasc : Ascending key xs) (target : κ) :
    ∃ lo hi, xs = lo ++ hi ∧ (∀ x ∈ lo, key x < target) ∧ (∀ x ∈ hi, target ≤ key x) ∧
      binarySearch key xs target = (lo.length, hi.head?.any (key · = target)) := by
  obtain ⟨hlo, hhi, hlen⟩ := searchLoop_spec key xs target hasc xs.length 0 xs.length
    (by omega) (by omega) (le_refl _)
    (fun n x hn => absurd hn (Nat.not_lt_zero n))
    (fun n x hn hx => absurd (List.getElem?_eq_some_iff.1 hx).1 (by omega))
  set p := searchLoop key xs target xs.length 0 xs.length with hp
  refine ⟨xs.take p, xs.drop p, (take_append_drop p xs).symm, fun x hx => ?_, fun x hx => ?_, ?_⟩
  · obtain ⟨n, hn, rfl⟩ := mem_take_iff_getElem.1 hx
    exact hlo n _ (by omega) (getElem?_eq_getElem _)
  · obtain ⟨n, hn, rfl⟩ := mem_drop_iff_getElem.1 hx
    exact hhi (p + n) _ (Nat.le_add_right p n) (getElem?_eq_getElem _)
  · unfold binarySearch
    rw [length_take, Nat.min_eq_left hlen, head?_drop]

/-! ## Ascending lists as finite maps -/

section Map

variable {xs : List α}

theorem lookup_append (lo hi : List α) (k : κ) :
    lookup key (lo ++ hi) k = (lookup key lo k).or (lookup key hi k) := by
  simp [lookup]

theorem lookup_eq_none {k : κ} (h : ∀ x ∈ xs, key x ≠ k) : lookup key xs k = none := by
  simpa [lookup] using h

theorem Ascending.cut (hasc : Ascending key xs) (k : κ) :
    ∃ lo hi, (∀ x ∈ lo, key x < k) ∧ (∀ x ∈ hi, k < key x) ∧
      ((∃ x, key x = k ∧ xs = lo ++ x :: hi ∧ binarySearch key xs k = (lo.length, true)) ∨
        (xs = lo ++ hi ∧ binarySearch key xs k = (lo.length, false))) := by
  obtain ⟨lo, hi, rfl, hlo, hhi, hsearch⟩ := binarySearch_split hasc k
  cases hi with
  | nil => exact ⟨lo, [], hlo, by simp, .inr ⟨rfl, by simpa using hsearch⟩⟩
  | cons x hi =>
    have htail : ∀ y ∈ hi, key x < key y := by
      have := (pairwise_append.1 hasc).2.1
      exact (pairwise_cons.1 this).1
    by_cases hx : key x = k
    · exact ⟨lo, hi, hlo, fun y hy => hx ▸ htail y hy,
        .inl ⟨x, hx, rfl, by simpa [hx] using hsearch⟩⟩
    refine ⟨lo, x :: hi, hlo, fun y hy => ?_, .inr ⟨rfl, by simpa [hx] using hsearch⟩⟩
    rcases mem_cons.1 hy with rfl | hy
    · exact lt_of_le_of_ne (hhi y (by simp)) (.symm hx)
    · exact lt_of_le_of_lt (hhi x (by simp)) (htail y hy)

theorem lookup_cut {lo hi : List α} {k : κ} (hlo : ∀ x ∈ lo, key x < k) (hhi : ∀ x ∈ hi, k < key x)
    (o : Option α) (ho : ∀ x ∈ o, key x = k) : lookup key (lo ++ (o.toList ++ hi)) k = o := by
  have hlo' : lookup key lo k = none := lookup_eq_none fun y hy => ne_of_lt (hlo y hy)
  have hhi' : lookup key hi k = none := lookup_eq_none fun y hy => ne_of_gt (hhi y hy)
  rw [lookup_append, hlo', lookup_append, hhi']
  cases o with
  | none => rfl
  | some x => simp [lookup, ho x rfl]

theorem lookup_cut_of_ne {lo hi : List α} {k k' : κ} (o : Option α) (ho : ∀ x ∈ o, key x = k)
    (hne : k' ≠ k) : lookup key (lo ++ (o.toList ++ hi)) k' = lookup key (lo ++ hi) k' := by
  have ho' : lookup key o.toList k' = none := by
    refine lookup_eq_none fun x hx => ?_
    rw [ho x (mem_toList.1 hx)]
    exact .symm hne
  rw [lookup_append, lookup_append, ho', lookup_append]
  rfl

theorem Ascending.append_iff {lo hi : List α} :
    Ascending key (lo ++ hi) ↔
      Ascending key lo ∧ Ascending key hi ∧ ∀ a ∈ lo, ∀ b ∈ hi, key a < key b :=
  pairwise_append

open Ascending

theorem Ascending.replace {lo hi : List α} {k : κ} {o o' : Option α}
    (hasc : Ascending key (lo ++ (o.toList ++ hi))) (hlo : ∀ x ∈ lo, key x < k)
    (hhi : ∀ x ∈ hi, k < key x) (ho : ∀ x ∈ o', key x = k) :
    Ascending key (lo ++ (o'.toList ++ hi)) := by
  obtain ⟨h1, h2, -⟩ := append_iff.1 hasc
  obtain ⟨-, h3, -⟩ := append_iff.1 h2
  have hmem : ∀ b ∈ o'.toList ++ hi, k ≤ key b := by
    intro b hb
    rcases mem_append.1 hb with hb | hb
    · exact (ho b (mem_toList.1 hb)).ge
    · exact le_of_lt (hhi b hb)
  refine append_iff.2 ⟨h1, append_iff.2 ⟨?_, h3, fun a ha b hb => ?_⟩,
    fun a ha b hb => lt_of_lt_of_le (hlo a ha) (hmem b hb)⟩
  · cases o' with
    | none => exact .nil
    | some x => exact pairwise_singleton _ _
  · rw [ho a (mem_toList.1 ha)]
    exact hhi b hb

theorem Ascending.lookup_of_mem (hasc : Ascending key xs) {x : α} (hx : x ∈ xs) :
    lookup key xs (key x) = some x := by
  obtain ⟨lo, hi, rfl⟩ := append_of_mem hx
  obtain ⟨-, htail, hbelow⟩ := append_iff.1 hasc
  have hlo : ∀ y ∈ lo, key y < key x := fun y hy => hbelow y hy x mem_cons_self
  have hhi : ∀ y ∈ hi, key x < key y := (pairwise_cons.1 htail).1
  exact lookup_cut hlo hhi (some x) (by simp)

private theorem insertIdx_length_append (lo hi : List α) (x : α) :
    (lo ++ hi).insertIdx lo.length x = lo ++ x :: hi := by
  induction lo with
  | nil => rfl
  | cons a lo ih => simp [ih]

private theorem modify_length_append (lo hi : List α) (x : α) (f : α → α) :
    (lo ++ x :: hi).modify lo.length f = lo ++ f x :: hi := by
  induction lo with
  | nil => rfl
  | cons a lo ih => simp [ih]

section

variable (hasc : Ascending key xs)

include hasc

theorem Ascending.writes (k : κ) :
    ∃ lo hi, ∃ o : Option α, (∀ x ∈ lo, key x < k) ∧ (∀ x ∈ hi, k < key x) ∧
      (∀ x ∈ o, key x = k) ∧ xs = lo ++ (o.toList ++ hi) ∧
      (∀ x, key x = k → insertSorted key xs x = lo ++ ((some x).toList ++ hi)) ∧
      removeSorted key xs k = lo ++ ((none : Option α).toList ++ hi) ∧
      (∀ f, modifySorted key xs k f = lo ++ ((o.map f).toList ++ hi)) ∧
      findSorted key xs k = o := by
  obtain ⟨lo, hi, hlo, hhi, ⟨y, hy, rfl, hs⟩ | ⟨rfl, hs⟩⟩ := hasc.cut k
  · refine ⟨lo, hi, some y, hlo, hhi, by simpa using hy, rfl, fun x hx => ?_, ?_, fun f => ?_, ?_⟩
    · simp [insertSorted, hx, hs]
    · simp [removeSorted, hs, eraseIdx_append_of_length_le (le_refl _)]
    · simp [modifySorted, hs, modify_length_append]
    · simp [findSorted, hs]
  · refine ⟨lo, hi, none, hlo, hhi, by simp, rfl, fun x hx => ?_, ?_, fun f => ?_, ?_⟩
    · simp [insertSorted, hx, hs, insertIdx_length_append]
    · simp [removeSorted, hs]
    · simp [modifySorted, hs]
    · simp [findSorted, hs]

theorem findSorted_eq_lookup (k : κ) : findSorted key xs k = lookup key xs k := by
  obtain ⟨_, _, o, hlo, hhi, ho, rfl, -, -, -, hfind⟩ := hasc.writes k
  rw [hfind, lookup_cut hlo hhi o ho]

theorem Ascending.insertSorted (x : α) : Ascending key (insertSorted key xs x) := by
  obtain ⟨_, _, o, hlo, hhi, -, rfl, hins, -, -, -⟩ := hasc.writes (key x)
  rw [hins x rfl]
  exact hasc.replace hlo hhi (by simp)

theorem Ascending.removeSorted (k : κ) : Ascending key (removeSorted key xs k) := by
  obtain ⟨_, _, o, hlo, hhi, -, rfl, -, hrem, -, -⟩ := hasc.writes k
  rw [hrem]
  exact hasc.replace hlo hhi (by simp)

theorem Ascending.modifySorted (k : κ) {f : α → α}
    (hf : ∀ x, key (f x) = key x) : Ascending key (modifySorted key xs k f) := by
  obtain ⟨_, _, o, hlo, hhi, ho, rfl, -, -, hmod, -⟩ := hasc.writes k
  rw [hmod]
  refine hasc.replace hlo hhi fun x hx => ?_
  obtain ⟨y, hy, rfl⟩ := map_eq_some_iff.1 hx
  rw [hf]
  exact ho y hy

theorem lookup_insertSorted (x : α) (k : κ) :
    lookup key (insertSorted key xs x) k = if k = key x then some x else lookup key xs k := by
  obtain ⟨_, _, o, hlo, hhi, ho, rfl, hins, -, -, -⟩ := hasc.writes (key x)
  rw [hins x rfl]
  split
  · rename_i h
    subst h
    exact lookup_cut hlo hhi (some x) (by simp)
  · rename_i h
    rw [lookup_cut_of_ne (some x) (by simp) h, lookup_cut_of_ne o ho h]

theorem lookup_removeSorted (k k' : κ) :
    lookup key (removeSorted key xs k) k' = if k' = k then none else lookup key xs k' := by
  obtain ⟨_, _, o, hlo, hhi, ho, rfl, -, hrem, -, -⟩ := hasc.writes k
  rw [hrem]
  split
  · rename_i h
    subst h
    exact lookup_cut hlo hhi none (by simp)
  · rename_i h
    rw [lookup_cut_of_ne none (by simp) h, lookup_cut_of_ne o ho h]

theorem lookup_modifySorted (k k' : κ) {f : α → α} (hf : ∀ x, key (f x) = key x) :
    lookup key (modifySorted key xs k f) k' =
      if k' = k then (lookup key xs k).map f else lookup key xs k' := by
  obtain ⟨_, _, o, hlo, hhi, ho, rfl, -, -, hmod, -⟩ := hasc.writes k
  have hof : ∀ x ∈ o.map f, key x = k := by
    intro x hx
    obtain ⟨y, hy, rfl⟩ := map_eq_some_iff.1 hx
    rw [hf]
    exact ho y hy
  rw [hmod]
  split
  · rename_i h
    subst h
    rw [lookup_cut hlo hhi _ hof, lookup_cut hlo hhi o ho]
  · rename_i h
    rw [lookup_cut_of_ne _ hof h, lookup_cut_of_ne o ho h]

end

variable (key xs) in
structure FiniteMap : Prop where
  ascending : Ascending key xs
  find_insert : ∀ x k, findSorted key (insertSorted key xs x) k =
    if k = key x then some x else findSorted key xs k
  find_remove : ∀ k k', findSorted key (removeSorted key xs k) k' =
    if k' = k then none else findSorted key xs k'

theorem Ascending.finiteMap (hasc : Ascending key xs) : FiniteMap key xs where
  ascending := hasc
  find_insert x k := by
    rw [findSorted_eq_lookup (hasc.insertSorted x), lookup_insertSorted hasc,
      findSorted_eq_lookup hasc]
  find_remove k k' := by
    rw [findSorted_eq_lookup (hasc.removeSorted k), lookup_removeSorted hasc,
      findSorted_eq_lookup hasc]

end Map

/-! ## Maps that keep the keys -/

section KeepsKeys

variable {β : Type _} {key' : β → κ} {f : α → β} (hf : ∀ x, key' (f x) = key x)

include hf

variable (xs : List α)

theorem searchLoop_map (target : κ) (fuel i j : Nat) :
    searchLoop key' (xs.map f) target fuel i j = searchLoop key xs target fuel i j := by
  induction fuel generalizing i j with
  | zero => rfl
  | succ fuel ih =>
    unfold searchLoop
    rw [getElem?_map]
    cases xs[(i + j) / 2]? with
    | none => rfl
    | some x => simp only [map_some, hf, ih]

theorem binarySearch_map (target : κ) :
    binarySearch key' (xs.map f) target = binarySearch key xs target := by
  unfold binarySearch
  simp only [length_map, searchLoop_map hf, getElem?_map, Option.any_map, hf]

theorem findSorted_map (k : κ) : findSorted key' (xs.map f) k = (findSorted key xs k).map f := by
  unfold findSorted
  rw [binarySearch_map hf]
  obtain ⟨i, found⟩ := binarySearch key xs k
  cases found with
  | true => exact getElem?_map
  | false => rfl

theorem insertSorted_map (x : α) :
    insertSorted key' (xs.map f) (f x) = (insertSorted key xs x).map f := by
  unfold insertSorted
  rw [hf, binarySearch_map hf]
  obtain ⟨i, found⟩ := binarySearch key xs (key x)
  cases found with
  | true => exact map_set.symm
  | false => exact (map_insertIdx f xs i x).symm

theorem removeSorted_map (k : κ) :
    removeSorted key' (xs.map f) k = (removeSorted key xs k).map f := by
  unfold removeSorted
  rw [binarySearch_map hf]
  obtain ⟨i, found⟩ := binarySearch key xs k
  cases found with
  | true => exact eraseIdx_map f xs i
  | false => rfl

theorem modifySorted_map {g : α → α} {g' : β → β}
    (hg : ∀ x, f (g x) = g' (f x)) (xs : List α) (k : κ) :
    modifySorted key' (xs.map f) k g' = (modifySorted key xs k g).map f := by
  unfold modifySorted
  rw [binarySearch_map hf]
  obtain ⟨i, found⟩ := binarySearch key xs k
  cases found with
  | true =>
    refine ext_getElem? fun n => ?_
    simp only [if_true, getElem?_map, getElem?_modify]
    cases xs[n]? with
    | none => rfl
    | some x => by_cases hn : i = n <;> simp [hn, hg]
  | false => rfl

end KeepsKeys

end River.Lib.SortedList
