/-
  A function and the sets that list, for each of its values, the arguments with this value.
-/

import River.Lib.EnumerableSet

namespace River.Lib

open Function EnumerableSet

variable {ι κ : Type} [DecidableEq ι] [DecidableEq κ]

def Lists (sets : κ → EnumerableSet ι) (f : ι → κ) (none : κ) : Prop :=
  ∀ i k, k ≠ none → (i ∈ sets k ↔ f i = k)

variable {sets : κ → EnumerableSet ι} {f : ι → κ} {none : κ}

omit [DecidableEq ι] [DecidableEq κ] in
theorem lists_empty (none : κ) : Lists (fun _ => (.empty : EnumerableSet ι)) (fun _ => none) none :=
  fun i _ hk => iff_of_false (not_mem_empty i) hk.symm

omit [DecidableEq ι] in
theorem mem_update {j : ι} : j ∈ update sets k s k' ↔ if k' = k then j ∈ s else j ∈ sets k' := by
  rw [update_apply]
  split
  · rfl
  · rfl

theorem Lists.remove (h : Lists sets f none) (i : ι) :
    Lists (update sets (f i) ((sets (f i)).remove i)) (update f i none) none := by
  intro j k hk
  have hkey := h j k hk
  rw [mem_update, mem_remove]
  by_cases hj : j = i
  · -- no set lists it any more
    grind
  · grind

theorem Lists.add (h : Lists sets f none) (hi : f i = none) (k : κ) :
    Lists (update sets k ((sets k).add i)) (update f i k) none := by
  intro j k' hk'
  have hkey := h j k' hk'
  rw [mem_update, mem_add]
  by_cases hj : j = i
  · subst hj
    grind
  · grind

theorem update_remove_of_not_mem {i : ι} (h : i ∉ sets k) :
    update sets k ((sets k).remove i) = sets := by
  rw [remove_of_not_mem h, update_eq_self]

theorem Lists.move (h : Lists sets f none) (i : ι) (k : κ) :
    let removed := update sets (f i) ((sets (f i)).remove i)
    Lists (update removed k ((removed k).add i)) (update f i k) none := by
  intro removed
  have hadd := (h.remove i).add (update_self i none f) k
  rw [update_idem] at hadd
  exact hadd

end River.Lib
