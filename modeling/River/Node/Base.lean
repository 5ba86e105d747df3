/-
  Errors and results of the node's Go code.

  A Go function that returns `(T, error)` is a function into `Res T`: it returns a value, it
  returns an error, or it panics. The tags and wrapping messages that errors get on the way up are
  left out.
-/

import Mathlib.Data.Fintype.Card
import Mathlib.Data.List.Lex
import Mathlib.Tactic.Ring

namespace River.Node

-- without a name for it every definition gets its own proof
instance neZero256 : NeZero 256 := ⟨nofun⟩

abbrev Bytes := List (Fin 256)

instance : LawfulBEq Bytes := inferInstance

inductive Err where
  | invalidArgument | notFound | alreadyExists | permissionDenied | internal
  | badStreamId | badStreamCreationParams | badEventSignature | badPrevMiniblockHash
  | badEvent | streamEmpty | streamBadEvent | badPayload | badEventHash | badSyncCookie
  | duplicateEvent | badBlock | streamNoInceptionEvent | dbOperationFailure
  | miniblocksStorageFailure | badAddress | wrongStreamType | minipoolMissingEvents
  | streamLastBlockMismatch | unknownNode | failedPrecondition | unknown
  deriving DecidableEq

structure RiverError where
  code : Err
  msg : String
  deriving DecidableEq

inductive Res (α : Type) where
  | ok (a : α)
  | error (e : RiverError)
  | panic (msg : String)
  deriving DecidableEq

namespace Res

variable {α β : Type}

def bind : Res α → (α → Res β) → Res β
  | ok a, f => f a
  | error e, _ => error e
  | panic m, _ => panic m

instance : Monad Res where
  pure := ok
  bind := bind

instance : LawfulMonad Res := LawfulMonad.mk' Res
  (fun x => by cases x <;> rfl)
  (fun _ _ => rfl)
  (fun x _ _ => by cases x <;> rfl)

@[simp] theorem pure_eq (a : α) : (pure a : Res α) = ok a := rfl
@[simp] theorem ok_bind (a : α) (f : α → Res β) : (ok a >>= f) = f a := rfl
@[simp] theorem error_bind (e : RiverError) (f : α → Res β) : (error e >>= f) = error e := rfl
@[simp] theorem panic_bind (m : String) (f : α → Res β) : (panic m >>= f) = panic m := rfl

variable {x : Res α}

theorem bind_eq_ok {f : α → Res β} : (x >>= f) = ok b ↔ ∃ a, x = ok a ∧ f a = ok b := by
  cases x <;> simp

theorem foldlM_of_steps {σ τ : Type} {op : τ → α → Res τ} {step : σ → α → σ} {I : σ → Prop}
    (read : σ → τ) {l : List α} (hop : ∀ s, ∀ a ∈ l, I s → op (read s) a = ok (read (step s a)))
    (hI : ∀ s a, I s → I (step s a)) {s : σ} (hs : I s) :
    l.foldlM op (read s) = ok (read (l.foldl step s)) := by
  induction l generalizing s with
  | nil => rfl
  | cons a l ih =>
    rw [List.foldlM_cons, hop s a List.mem_cons_self hs]
    exact ih (fun s b hb => hop s b (List.mem_cons_of_mem _ hb)) (hI s a hs)

def isOk : Res α → Bool
  | ok _ => true
  | _ => false

@[simp] theorem isOk_ok (a : α) : (ok a).isOk = true := rfl
@[simp] theorem isOk_error (e : RiverError) : (error e : Res α).isOk = false := rfl
@[simp] theorem isOk_panic (m : String) : (panic m : Res α).isOk = false := rfl

theorem isOk_iff : x.isOk = true ↔ ∃ a, x = ok a := by
  cases x <;> simp

/-- An existential over the value of a result is evaluated. -/
instance {P : α → Prop} [DecidablePred P] : Decidable (∃ a, x = ok a ∧ P a) :=
  match x with
  | ok a => decidable_of_iff (P a) (by simp)
  | error _ => isFalse (by simp)
  | panic _ => isFalse (by simp)

instance {x : Res (α × β)} {P : α → β → Prop} [∀ a b, Decidable (P a b)] :
    Decidable (∃ a b, x = ok (a, b) ∧ P a b) :=
  decidable_of_iff (∃ r, x = ok r ∧ P r.1 r.2) Prod.exists

def Rel (R : α → β → Prop) : Res α → Res β → Prop
  | ok a, ok b => R a b
  | error e, error e' => e = e'
  | panic m, panic m' => m = m'
  | _, _ => False

theorem Rel.bind {γ δ : Type} {S : γ → δ → Prop} {f : α → Res γ} {g : β → Res δ} (hxy : Rel R x y)
    (hfg : ∀ a b, R a b → Rel S (f a) (g b)) : Rel S (x >>= f) (y >>= g) := by
  cases x with
  | ok a =>
    cases y with
    | ok b => exact hfg a b hxy
    | _ => exact hxy.elim
  | error e =>
    cases y with
    | error e' => exact hxy
    | _ => exact hxy.elim
  | panic m =>
    cases y with
    | panic m' => exact hxy
    | _ => exact hxy.elim

theorem rel_eq {y : Res α} : Rel (· = ·) x y ↔ x = y := by
  cases x <;> cases y <;> simp [Rel]

theorem Rel.imp {S : α → β → Prop} (hRS : ∀ a b, R a b → S a b) (h : Rel R x y) : Rel S x y := by
  cases x <;> cases y <;> first | exact hRS _ _ h | exact h

theorem Rel.withEq (h : Rel R x y) : Rel (fun a b => R a b ∧ x = ok a ∧ y = ok b) x y := by
  cases x <;> cases y <;> first | exact ⟨h, rfl, rfl⟩ | exact h

theorem Rel.isOk_eq (h : Rel R x y) : x.isOk = y.isOk := by
  cases x <;> cases y <;> first | rfl | exact h.elim

end Res

def riverError {α : Type} (code : Err) (msg : String) : Res α := .error ⟨code, msg⟩

end River.Node
