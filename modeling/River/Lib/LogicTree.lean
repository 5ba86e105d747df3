/-
  Trees of conjunctions and disjunctions, and their post-order listings, read with a stack.
-/

import Mathlib.Data.List.Basic

namespace River.Lib

open List

inductive LogicOp where
  | and | or
  deriving DecidableEq

def LogicOp.apply : LogicOp → Bool → Bool → Bool
  | .and, a, b => a && b
  | .or, a, b => a || b

inductive LogicTree (α : Type) where
  | leaf (a : α)
  | node (op : LogicOp) (left right : LogicTree α)

inductive Token (α : Type) where
  | leaf (a : α)
  | op (o : LogicOp)

namespace LogicTree

variable {α : Type}

def nodes : LogicTree α → Nat
  | .leaf _ => 0
  | .node _ left right => left.nodes + right.nodes + 1

def size : LogicTree α → Nat
  | .leaf _ => 1
  | .node _ left right => left.size + right.size + 1

theorem size_eq (t : LogicTree α) : t.size = 2 * t.nodes + 1 := by
  induction t with
  | leaf a => rfl
  | node op left right ihl ihr =>
    rw [size, nodes]
    omega

def eval (value : α → Bool) : LogicTree α → Bool
  | .leaf a => value a
  | .node op left right => op.apply (left.eval value) (right.eval value)

def postOrder : LogicTree α → List (Token α)
  | .leaf a => [.leaf a]
  | .node op left right => left.postOrder ++ right.postOrder ++ [.op op]

theorem length_postOrder (t : LogicTree α) : t.postOrder.length = t.size := by
  induction t with
  | leaf a => rfl
  | node op left right ihl ihr =>
    rw [postOrder, length_append, length_append, ihl, ihr]
    rfl

theorem exists_split {t : LogicTree α} {p : Nat} (hp : p < t.size) :
    ∃ before token after, t.postOrder = before ++ token :: after ∧ before.length = p := by
  have hp' : p < t.postOrder.length := by
    rw [length_postOrder]
    exact hp
  refine ⟨t.postOrder.take p, t.postOrder[p], t.postOrder.drop (p + 1), ?_, ?_⟩
  · rw [← drop_eq_getElem_cons hp', take_append_drop]
  · rw [length_take, Nat.min_eq_left (Nat.le_of_lt hp')]

end LogicTree

/-! ## Reading -/

section Read

variable {α : Type}

def Token.push : Token α → List (LogicTree α) → Option (List (LogicTree α))
  | .leaf a, stack => some (.leaf a :: stack)
  | .op o, right :: left :: stack => some (.node o left right :: stack)
  | .op _, _ => none

def read : List (Token α) → List (LogicTree α) → Option (List (LogicTree α))
  | [], stack => some stack
  | token :: tokens, stack => (token.push stack).bind (read tokens)

theorem read_append (ts us : List (Token α)) (stack : List (LogicTree α)) :
    read (ts ++ us) stack = (read ts stack).bind (read us) := by
  induction ts generalizing stack with
  | nil => rfl
  | cons token ts ih =>
    rw [cons_append, read, read]
    cases token.push stack with
    | none => rfl
    | some stack' => exact ih stack'

open LogicTree

theorem read_postOrder (t : LogicTree α) (rest : List (Token α)) (stack : List (LogicTree α)) :
    read (t.postOrder ++ rest) stack = read rest (t :: stack) := by
  induction t generalizing rest stack with
  | leaf a => rfl
  | node op left right ihl ihr =>
    rw [postOrder, append_assoc, append_assoc, ihl, ihr]
    rfl

def listings (stack : List (LogicTree α)) : List (Token α) :=
  stack.reverse.flatMap postOrder

theorem listings_cons (t : LogicTree α) (stack : List (LogicTree α)) :
    listings (t :: stack) = listings stack ++ t.postOrder := by
  simp [listings]

theorem listings_push {token : Token α}
    (h : token.push stack = some stack') : listings stack' = listings stack ++ [token] := by
  cases token with
  | leaf a =>
    cases h
    rw [listings_cons, postOrder]
  | op o =>
    match stack, h with
    | right :: left :: stack, h =>
      cases h
      rw [listings_cons, listings_cons, listings_cons, postOrder]
      simp only [append_assoc]

theorem listings_read
    (h : read ts stack = some stack') : listings stack' = listings stack ++ ts := by
  induction ts generalizing stack with
  | nil =>
    cases h
    rw [append_nil]
  | cons token ts ih =>
    obtain ⟨_, hpush, hrest⟩ := Option.bind_eq_some_iff.1 h
    rw [ih hrest, listings_push hpush, append_assoc, singleton_append]

theorem read_eq_singleton_iff {t : LogicTree α} : read ts [] = some [t] ↔ ts = t.postOrder := by
  constructor
  · intro h
    have hlist := listings_read h
    simpa [listings] using hlist.symm
  · rintro rfl
    have hall := read_postOrder t [] []
    rwa [append_nil] at hall

def opCount (ts : List (Token α)) : Nat := ts.countP fun token => token matches .op _

theorem opCount_append (ts us : List (Token α)) : opCount (ts ++ us) = opCount ts + opCount us :=
  countP_append

theorem opCount_cons (token : Token α) (ts : List (Token α)) :
    opCount (token :: ts) = opCount [token] + opCount ts :=
  opCount_append [token] ts

@[simp] theorem opCount_leaf (a : α) : opCount [Token.leaf a] = 0 := rfl

@[simp] theorem opCount_op (o : LogicOp) : opCount [(Token.op o : Token α)] = 1 := rfl

theorem opCount_postOrder (t : LogicTree α) : opCount t.postOrder = t.nodes := by
  induction t with
  | leaf a => rfl
  | node op left right ihl ihr =>
    rw [postOrder, opCount_append, opCount_append, ihl, ihr]
    rfl

theorem length_read (h : read ts stack = some stack') :
    stack'.length + 2 * opCount ts = stack.length + ts.length := by
  induction ts generalizing stack with
  | nil =>
    cases h
    rfl
  | cons token ts ih =>
    obtain ⟨_, hpush, hrest⟩ := Option.bind_eq_some_iff.1 h
    have hlength := ih hrest
    rw [opCount_cons, length_cons]
    cases token with
    | leaf a =>
      cases hpush
      rw [length_cons] at hlength
      rw [opCount_leaf]
      omega
    | op o =>
      rw [opCount_op]
      match stack, hpush with
      | right :: left :: stack, hpush =>
        cases hpush
        rw [length_cons] at hlength ⊢
        rw [length_cons]
        omega

theorem two_operands {t : LogicTree α} {before after : List (Token α)}
    (h : t.postOrder = before ++ .op o :: after) : 2 * opCount before + 2 ≤ before.length := by
  have hread : read t.postOrder [] = some [t] := read_eq_singleton_iff.2 rfl
  rw [h, read_append] at hread
  obtain ⟨stack, hbefore, hrest⟩ := Option.bind_eq_some_iff.1 hread
  have hlength := length_read hbefore
  obtain ⟨_, hpush, -⟩ := Option.bind_eq_some_iff.1 hrest
  match stack, hpush with
  | right :: left :: stack, _ =>
    rw [length_cons, length_cons, length_nil] at hlength
    omega

end Read

end River.Lib
