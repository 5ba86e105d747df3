/-
  The insertion-ordered map of core/node/utils/ordered_map.go.
-/

import River.Node.Base

namespace River.Node

variable {K V : Type}

structure OrderedMap (K V : Type) where
  entries : List (K × V)
  keys_nodup : (entries.map Prod.fst).Nodup
  deriving DecidableEq

namespace OrderedMap

def empty : OrderedMap K V := ⟨[], by simp⟩

def values (m : OrderedMap K V) : List V := m.entries.map Prod.snd

def keys (m : OrderedMap K V) : List K := m.entries.map Prod.fst

def len (m : OrderedMap K V) : Nat := m.values.length

variable {m : OrderedMap K V}

@[ext] theorem ext {m' : OrderedMap K V} (h : m.entries = m'.entries) : m = m' := by
  cases m
  cases m'
  simpa using h

variable [DecidableEq K]

def get (m : OrderedMap K V) (k : K) : Option V :=
  (m.entries.find? (·.1 = k)).map Prod.snd

def set (m : OrderedMap K V) (k : K) (v : V) : Res (OrderedMap K V) :=
  if h : k ∈ m.entries.map Prod.fst then .panic "key already exists"
  else .ok ⟨m.entries ++ [(k, v)], by
    rw [List.map_append, List.nodup_append]
    refine ⟨m.keys_nodup, by simp, ?_⟩
    intro a ha b hb hab
    obtain rfl : b = k := by simpa using hb
    exact h (hab ▸ ha)⟩

def filter (m : OrderedMap K V) (p : K → Bool) : OrderedMap K V :=
  ⟨m.entries.filter (p ·.1), m.keys_nodup.sublist (List.filter_sublist.map _)⟩

theorem set_eq_ok : m.set k v = .ok m' ↔ k ∉ m.keys ∧ m'.entries = m.entries ++ [(k, v)] := by
  unfold set keys
  split
  · rename_i h
    simp [h]
  rename_i h
  simp only [Res.ok.injEq, h, not_false_eq_true, true_and]
  constructor
  · rintro rfl
    rfl
  · intro he
    exact ext he.symm

theorem set_of_mem (h : k ∈ m.keys) : m.set k v = .panic "key already exists" := by
  exact dif_pos h

theorem set_of_notMem (h : k ∉ m.keys) :
    ∃ m', m.set k v = .ok m' ∧ m'.entries = m.entries ++ [(k, v)] := by
  exact ⟨_, dif_neg h, rfl⟩

theorem get_of_mem (h : (k, v) ∈ m.entries) : m.get k = some v := by
  unfold get
  cases hfind : m.entries.find? (·.1 = k) with
  | none =>
    have hne : ¬ (k = k) := by simpa using List.find?_eq_none.1 hfind (k, v) h
    exact absurd rfl hne
  | some p =>
    have hk : p.1 = k := by simpa using List.find?_some hfind
    -- distinct keys leave only one entry under `k`
    have hp : p = (k, v) :=
      List.inj_on_of_nodup_map m.keys_nodup (List.mem_of_find?_eq_some hfind) h hk
    rw [hp]
    rfl

end OrderedMap

end River.Node
