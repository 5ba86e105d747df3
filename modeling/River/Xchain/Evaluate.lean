/-
  The evaluation of an operation tree (`evaluateOp`, `evaluateAndOperation` and
  `evaluateOrOperation` of core/xchain/entitlement/entitlement.go).

  A step is what some goroutine does next, so a run is a schedule.
-/

import River.Lib.Inevitable
import River.Lib.LogicTree

namespace River.Xchain

open Bool

open Lib (LogicTree LogicOp Inevitable)
open Relation (ReflTransGen)

inductive Outcome where
  | pass | fail | error

def Outcome.passes : Outcome → Bool
  | .pass => true
  | .fail | .error => false

def Outcome.errs : Outcome → Bool
  | .error => true
  | .pass | .fail => false

/-! ## Tasks and steps -/

inductive Task where
  | check (outcome : Outcome)
  | returned (result err : Bool)
  | wait (op : LogicOp) (left : Task) (leftCancelled leftDone : Bool)
      (right : Task) (rightCancelled rightDone : Bool)

def evaluateOp : LogicTree Outcome → Task
  | .leaf outcome => .check outcome
  | .node op left right => .wait op (evaluateOp left) false false (evaluateOp right) false false

def cancels : LogicOp → Bool → Bool → Bool
  | .and, result, err => !result || err
  | .or, result, err => result || err

/-- One step of the tasks of an evaluation. -/
inductive Step (late : Bool) : Bool → Task → Task → Prop where
  | finish {cancelled : Bool} {outcome : Outcome} (h : cancelled = false ∨ late = true) :
      Step late cancelled (.check outcome) (.returned outcome.passes outcome.errs)
  | abort {outcome : Outcome} : Step late true (.check outcome) (.returned false true)
  | left {cancelled lc ld rc rd : Bool} {op : LogicOp} {left left' right : Task}
      (h : Step late (cancelled || lc) left left') :
      Step late cancelled (.wait op left lc ld right rc rd) (.wait op left' lc ld right rc rd)
  | right {cancelled lc ld rc rd : Bool} {op : LogicOp} {left right right' : Task}
      (h : Step late (cancelled || rc) right right') :
      Step late cancelled (.wait op left lc ld right rc rd) (.wait op left lc ld right' rc rd)
  | leftDone {cancelled lc rc rd b e : Bool} {op : LogicOp} {right : Task} :
      Step late cancelled (.wait op (.returned b e) lc false right rc rd)
        (.wait op (.returned b e) lc true right (rc || cancels op b e) rd)
  | rightDone {cancelled lc ld rc b e : Bool} {op : LogicOp} {left : Task} :
      Step late cancelled (.wait op left lc ld (.returned b e) rc false)
        (.wait op left (lc || cancels op b e) ld (.returned b e) rc true)
  | join {cancelled lc rc b e b' e' : Bool} {op : LogicOp} :
      Step late cancelled (.wait op (.returned b e) lc true (.returned b' e') rc true)
        (.returned (op.apply b b') false)

abbrev Returns (late cancelled : Bool) (t : LogicTree Outcome) (b e : Bool) : Prop :=
  ReflTransGen (Step late cancelled) (evaluateOp t) (.returned b e)

/-- Every run of the tasks returns `result`. -/
def AlwaysReturns (late : Bool) (t : LogicTree Outcome) (result : Bool) : Prop :=
  Inevitable (Step late false) (fun s => ∃ err, s = .returned result err) (evaluateOp t)

/-! ## Every schedule comes to an end -/

section Progress

def Task.work : Task → Nat
  | .check _ => 1
  | .returned _ _ => 0
  | .wait _ left _ leftDone right _ rightDone =>
    left.work + right.work + (!leftDone).toNat + (!rightDone).toNat + 1

theorem Step.work_lt (h : Step late cancelled s s') : s'.work < s.work := by
  induction h with
  | finish _ | abort => exact Nat.one_pos
  | left _ ih | right _ ih =>
    simp only [Task.work]
    omega
  | leftDone | rightDone =>
    simp only [Task.work, Bool.not_false, Bool.not_true, toNat_true, toNat_false]
    omega
  | join =>
    simp only [Task.work]
    omega

theorem returned_or_step (late cancelled : Bool) (s : Task) :
    (∃ b e, s = .returned b e) ∨ ∃ s', Step late cancelled s s' := by
  induction s generalizing cancelled with
  | check outcome =>
    right
    cases cancelled with
    | false => exact ⟨_, .finish (.inl rfl)⟩
    | true => exact ⟨_, .abort⟩
  | returned b e => exact .inl ⟨b, e, rfl⟩
  | wait op left lc ld right rc rd ihl ihr =>
    right
    rcases ihl (cancelled || lc) with ⟨b, e, rfl⟩ | ⟨_, hleft⟩
    · rcases ihr (cancelled || rc) with ⟨-, -, rfl⟩ | ⟨_, hright⟩
      · cases ld with
        | false => exact ⟨_, .leftDone⟩
        | true =>
          cases rd with
          | false => exact ⟨_, .rightDone⟩
          | true => exact ⟨_, .join⟩
      · exact ⟨_, .right hright⟩
    · exact ⟨_, .left hleft⟩

theorem exists_run_returned (late cancelled : Bool) (s : Task) :
    ∃ b e, ReflTransGen (Step late cancelled) s (.returned b e) := by
  generalize hn : s.work = n
  induction n using Nat.strongRecOn generalizing s with
  | _ n ih =>
    rcases returned_or_step late cancelled s with ⟨b, e, rfl⟩ | ⟨s', hs'⟩
    · exact ⟨b, e, .refl⟩
    · obtain ⟨b, e, hrun⟩ := ih s'.work (hn ▸ hs'.work_lt) s' rfl
      exact ⟨b, e, .head hs' hrun⟩

theorem not_step_returned (s : Task) : ¬ Step late cancelled (.returned b e) s := nofun

end Progress

/-! ## The value, and when a schedule can miss it -/

def value (t : LogicTree Outcome) : Bool := t.eval Outcome.passes

def isErrorLeaf : LogicTree Outcome → Bool
  | .leaf outcome => outcome.errs
  | .node _ _ _ => false

def fragile : LogicTree Outcome → Bool
  | .leaf _ => false
  | .node .and left right => value left && value right && (fragile left || fragile right)
  | .node .or left right =>
    value left && value right && fragile left && fragile right ||
    value left && !value right && (isErrorLeaf right || fragile left) ||
    !value left && value right && (isErrorLeaf left || fragile right)

theorem value_and (left right : LogicTree Outcome) :
    value (.node .and left right) = (value left && value right) := rfl

theorem value_or (left right : LogicTree Outcome) :
    value (.node .or left right) = (value left || value right) := rfl

theorem value_of_isErrorLeaf (h : isErrorLeaf t = true) : value t = false := by
  match t, h with
  | .leaf .error, _ => rfl

theorem isErrorLeaf_of_value (h : value t = true) : isErrorLeaf t = false := by
  cases herr : isErrorLeaf t with
  | false => rfl
  | true =>
    rw [value_of_isErrorLeaf herr] at h
    cases h

theorem robust_or (hvalue : value (.node .or left right) = true)
    (hrobust : fragile (.node .or left right) = false) :
    (value left = true ∧ fragile left = false) ∨ (value right = true ∧ fragile right = false) := by
  rw [value_or] at hvalue
  rw [fragile] at hrobust
  revert hvalue hrobust
  cases value left <;> cases value right <;> cases fragile left <;> cases fragile right <;> simp

theorem robust_or_isErrorLeaf (hvalue : value (.node .or left right) = true)
    (hrobust : fragile (.node .or left right) = false) :
    isErrorLeaf left = false ∧ isErrorLeaf right = false := by
  rw [fragile] at hrobust
  rw [value_or] at hvalue
  constructor
  · cases herr : isErrorLeaf left with
    | false => rfl
    | true =>
      rw [value_of_isErrorLeaf herr] at hvalue hrobust
      simp [hvalue, herr] at hrobust
  · cases herr : isErrorLeaf right with
    | false => rfl
    | true =>
      rw [value_of_isErrorLeaf herr] at hvalue hrobust
      simp [hvalue, herr] at hrobust

/-! ## Robust trees: an invariant of every schedule -/

def Safe : LogicOp → Task → Bool → Task → Bool → Prop
  | .and, _, lc, _, rc => lc = false ∧ rc = false
  | .or, left, lc, right, rc =>
    (∃ e, left = .returned true e) ∨ (∃ e, right = .returned true e) ∨ (lc = false ∧ rc = false)

inductive Evaluates : Bool → LogicTree Outcome → Task → Prop where
  | check {cancelled : Bool} {outcome : Outcome} : Evaluates cancelled (.leaf outcome)
    (.check outcome)
  | returned {cancelled b e : Bool} {t : LogicTree Outcome} (hsound : b = true → value t = true)
      (herr : cancelled = false → e = isErrorLeaf t)
      (hrobust : cancelled = false → fragile t = false → b = value t) :
      Evaluates cancelled t (.returned b e)
  | wait {cancelled lc ld rc rd : Bool} {op : LogicOp} {l r : LogicTree Outcome} {left right : Task}
      (hleft : Evaluates (cancelled || lc) l left) (hright : Evaluates (cancelled || rc) r right)
      (hsafe : cancelled = false → value (.node op l r) = true → fragile (.node op l r) = false →
        Safe op left lc right rc) :
      Evaluates cancelled (.node op l r) (.wait op left lc ld right rc rd)

theorem evaluates_evaluateOp (cancelled : Bool) (t : LogicTree Outcome) :
    Evaluates cancelled t (evaluateOp t) := by
  induction t generalizing cancelled with
  | leaf outcome => exact .check
  | node op l r ihl ihr =>
    refine .wait (ihl _) (ihr _) fun _ _ _ => ?_
    cases op with
    | and => exact ⟨rfl, rfl⟩
    | or => exact .inr (.inr ⟨rfl, rfl⟩)

theorem Evaluates.cancel (h : Evaluates cancelled t s)
    (more : Bool) : Evaluates (cancelled || more) t s := by
  induction h generalizing more with
  | check => exact .check
  | returned hsound herr hrobust =>
    refine .returned hsound (fun hc => herr ?_) (fun hc => hrobust ?_)
    · exact (or_eq_false_iff.1 hc).1
    · exact (or_eq_false_iff.1 hc).1
  | wait hleft hright hsafe ihl ihr =>
    refine .wait ?_ ?_ fun hc => hsafe (or_eq_false_iff.1 hc).1
    · have hl := ihl more
      rwa [Bool.or_right_comm] at hl
    · have hr := ihr more
      rwa [Bool.or_right_comm] at hr

section Steps

theorem robust_and (hvalue : value (.node .and l r) = true)
    (hrobust : fragile (.node .and l r) = false) :
    (value l = true ∧ fragile l = false) ∧ (value r = true ∧ fragile r = false) := by
  rw [value_and, and_eq_true] at hvalue
  rw [fragile, hvalue.1, hvalue.2, Bool.and_true, Bool.true_and, or_eq_false_iff] at hrobust
  exact ⟨⟨hvalue.1, hrobust.1⟩, hvalue.2, hrobust.2⟩

theorem Safe.left {left left' right : Task} (h : Safe op left lc right rc)
    (hstep : Step late cancelled left left') : Safe op left' lc right rc := by
  cases op with
  | and => exact h
  | or =>
    rcases h with ⟨e, rfl⟩ | hrest
    · exact absurd hstep (not_step_returned _)
    · exact .inr hrest

theorem Safe.right {left right right' : Task} (h : Safe op left lc right rc)
    (hstep : Step late cancelled right right') :
    Safe op left lc right' rc := by
  cases op with
  | and => exact h
  | or =>
    rcases h with hleft | ⟨e, rfl⟩ | hrest
    · exact .inl hleft
    · exact absurd hstep (not_step_returned _)
    · exact .inr (.inr hrest)

theorem not_cancels (op : LogicOp) (hdone : Evaluates false t (.returned b e))
    (hand : op = .and → value t = true ∧ fragile t = false)
    (hor : op = .or → isErrorLeaf t = false ∧ b = false) : cancels op b e = false := by
  cases hdone with
  | returned hsound herr hrobust =>
    rw [herr rfl]
    cases op with
    | and =>
      obtain ⟨hvalue, hfragile⟩ := hand rfl
      rw [hrobust rfl hfragile, hvalue, isErrorLeaf_of_value hvalue]
      rfl
    | or =>
      obtain ⟨hleaf, rfl⟩ := hor rfl
      rw [hleaf]
      rfl

theorem Safe.leftDone {right : Task} (h : Safe op (.returned b e) lc right rc)
    (hvalue : value (.node op l r) = true) (hrobust : fragile (.node op l r) = false)
    (hdone : Evaluates lc l (.returned b e)) :
    Safe op (.returned b e) lc right (rc || cancels op b e) := by
  cases op with
  | and =>
    obtain ⟨rfl, rfl⟩ := h
    have hkeeps := not_cancels .and hdone (fun _ => (robust_and hvalue hrobust).1) nofun
    exact ⟨rfl, by rw [hkeeps]; rfl⟩
  | or =>
    rcases h with hleft | hright | ⟨rfl, rfl⟩
    · exact .inl hleft
    · exact .inr (.inl hright)
    cases b with
    | true => exact .inl ⟨e, rfl⟩
    | false =>
      have hkeeps := not_cancels .or hdone nofun
        fun _ => ⟨(robust_or_isErrorLeaf hvalue hrobust).1, rfl⟩
      exact .inr (.inr ⟨rfl, by rw [hkeeps]; rfl⟩)

theorem Safe.rightDone {left : Task} (h : Safe op left lc (.returned b e) rc)
    (hvalue : value (.node op l r) = true) (hrobust : fragile (.node op l r) = false)
    (hdone : Evaluates rc r (.returned b e)) :
    Safe op left (lc || cancels op b e) (.returned b e) rc := by
  cases op with
  | and =>
    obtain ⟨rfl, rfl⟩ := h
    have hkeeps := not_cancels .and hdone (fun _ => (robust_and hvalue hrobust).2) nofun
    exact ⟨by rw [hkeeps]; rfl, rfl⟩
  | or =>
    rcases h with hleft | hright | ⟨rfl, rfl⟩
    · exact .inl hleft
    · exact .inr (.inl hright)
    cases b with
    | true => exact .inr (.inl ⟨e, rfl⟩)
    | false =>
      have hkeeps := not_cancels .or hdone nofun
        fun _ => ⟨(robust_or_isErrorLeaf hvalue hrobust).2, rfl⟩
      exact .inr (.inr ⟨by rw [hkeeps]; rfl, rfl⟩)

theorem apply_sound {b b' : Bool} (hb : b = true → value l = true)
    (hb' : b' = true → value r = true)
    (h : op.apply b b' = true) : value (.node op l r) = true := by
  cases op with
  | and =>
    obtain ⟨hleft, hright⟩ := and_eq_true_iff.1 h
    rw [value_and, hb hleft, hb' hright]
    rfl
  | or =>
    rw [value_or, or_eq_true]
    rcases or_eq_true_iff.1 h with hleft | hright
    · exact .inl (hb hleft)
    · exact .inr (hb' hright)

theorem Safe.join (h : Safe op (.returned b e) lc (.returned b' e') rc)
    (hvalue : value (.node op l r) = true) (hrobust : fragile (.node op l r) = false)
    (hleft : lc = false → fragile l = false → b = value l)
    (hright : rc = false → fragile r = false → b' = value r) : op.apply b b' = true := by
  cases op with
  | and =>
    obtain ⟨⟨hl, hlr⟩, hr, hrr⟩ := robust_and hvalue hrobust
    rw [hleft h.1 hlr, hright h.2 hrr, hl, hr]
    rfl
  | or =>
    rcases h with ⟨_, hb⟩ | ⟨_, hb'⟩ | ⟨hlc, hrc⟩
    · cases hb
      rfl
    · cases hb'
      exact or_true b
    rcases robust_or hvalue hrobust with ⟨hl, hlr⟩ | ⟨hr, hrr⟩
    · rw [hleft hlc hlr, hl]
      rfl
    · rw [hright hrc hrr, hr]
      exact or_true b

theorem Evaluates.step (h : Evaluates cancelled t s)
    (hstep : Step late cancelled s s') : Evaluates cancelled t s' := by
  induction hstep generalizing t with
  | finish _ =>
    cases h with
    | check => exact .returned id (fun _ => rfl) (fun _ _ => rfl)
  | abort => exact .returned nofun nofun nofun
  | left hstep ih =>
    cases h with
    | wait hleft hright hsafe =>
      exact .wait (ih hleft) hright fun hc hv hr => (hsafe hc hv hr).left hstep
  | right hstep ih =>
    cases h with
    | wait hleft hright hsafe =>
      exact .wait hleft (ih hright) fun hc hv hr => (hsafe hc hv hr).right hstep
  | @leftDone cancelled lc rc rd b e op right =>
    cases h with
    | wait hleft hright hsafe =>
      have hcancelled := hright.cancel (cancels op b e)
      rw [Bool.or_assoc] at hcancelled
      refine .wait hleft hcancelled fun hc hv hr => ?_
      subst hc
      exact (hsafe rfl hv hr).leftDone hv hr hleft
  | @rightDone cancelled lc ld rc b e op left =>
    cases h with
    | wait hleft hright hsafe =>
      have hcancelled := hleft.cancel (cancels op b e)
      rw [Bool.or_assoc] at hcancelled
      refine .wait hcancelled hright fun hc hv hr => ?_
      subst hc
      exact (hsafe rfl hv hr).rightDone hv hr hright
  | @join cancelled lc rc b e b' e' op =>
    cases h with
    | @wait _ _ _ _ _ _ l r _ _ hleft hright hsafe =>
      cases hleft with
      | returned hsoundl _ hrobustl =>
        cases hright with
        | returned hsoundr _ hrobustr =>
          refine .returned (apply_sound hsoundl hsoundr) (fun _ => rfl) fun hc hr => ?_
          subst hc
          cases hv : value (.node op l r) with
          | true => exact (hsafe rfl hv hr).join hv hr hrobustl hrobustr
          | false =>
            -- true is never returned for the value false
            rw [← not_eq_true]
            intro htrue
            rw [apply_sound hsoundl hsoundr htrue] at hv
            cases hv

theorem Evaluates.run (h : Evaluates cancelled t s)
    (hrun : ReflTransGen (Step late cancelled) s s') :
    Evaluates cancelled t s' :=
  Lib.invariant_run (fun _ _ hs hstep => hs.step hstep) h hrun

theorem result_sound (hrun : Returns late cancelled t b e)
    (hvalue : value t = false) : b = false := by
  cases (evaluates_evaluateOp cancelled t).run hrun with
  | returned hsound _ _ =>
    cases b with
    | false => rfl
    | true =>
      rw [hsound rfl] at hvalue
      cases hvalue

theorem alwaysReturns_of_robust (h : fragile t = false) : AlwaysReturns late t (value t) := by
  refine .of_invariant Task.work (fun _ _ hs hstep => .step hs hstep)
    (fun _ _ hstep => hstep.work_lt) (fun s hs => ?_) (evaluates_evaluateOp false t)
  rcases returned_or_step late false s with ⟨b, e, rfl⟩ | hgo
  · cases hs with
    | returned _ _ hrobust =>
      rw [← hrobust rfl h]
      exact .inl ⟨e, rfl⟩
  · exact .inr hgo

end Steps

/-! ## Fragile trees: a schedule that misses the value -/

section Schedules

theorem run_left {cancelled lc ld rc rd : Bool}
    (h : ReflTransGen (Step late (cancelled || lc)) left left') :
    ReflTransGen (Step late cancelled) (.wait op left lc ld right rc rd)
      (.wait op left' lc ld right rc rd) := by
  induction h with
  | refl => exact .refl
  | tail _ hlast ih => exact .tail ih (.left hlast)

theorem run_right {cancelled lc ld rc rd : Bool}
    (h : ReflTransGen (Step late (cancelled || rc)) right right') :
    ReflTransGen (Step late cancelled) (.wait op left lc ld right rc rd)
      (.wait op left lc ld right' rc rd) := by
  induction h with
  | refl => exact .refl
  | tail _ hlast ih => exact .tail ih (.right hlast)

theorem run_left_first (op : LogicOp) (hleft : Returns late cancelled l b e)
    (hright : Returns late (cancelled || cancels op b e) r b' e') :
    Returns late cancelled (.node op l r) (op.apply b b') false := by
  have hleft' : Returns late (cancelled || false) l b e := by
    rwa [Bool.or_false]
  have hfirst : ReflTransGen (Step late cancelled) (evaluateOp (.node op l r))
      (.wait op (.returned b e) false true (evaluateOp r) (false || cancels op b e) false) :=
    (run_left hleft').tail .leftDone
  have hsecond := (hfirst.trans (run_right hright)).tail .rightDone
  exact hsecond.tail .join

theorem run_right_first (op : LogicOp) (hright : Returns late cancelled r b' e')
    (hleft : Returns late (cancelled || cancels op b' e') l b e) :
    Returns late cancelled (.node op l r) (op.apply b b') false := by
  have hright' : Returns late (cancelled || false) r b' e' := by
    rwa [Bool.or_false]
  have hfirst : ReflTransGen (Step late cancelled) (evaluateOp (.node op l r))
      (.wait op (evaluateOp l) (false || cancels op b' e') false (.returned b' e') false true) :=
    (run_right hright').tail .rightDone
  have hsecond := (hfirst.trans (run_left hleft)).tail .leftDone
  exact hsecond.tail .join

theorem exists_run_false_of_cancelled (late : Bool) (t : LogicTree Outcome) :
    ∃ e, Returns late true t false e := by
  induction t with
  | leaf outcome => exact ⟨true, .single .abort⟩
  | node op l r ihl ihr =>
    obtain ⟨e, hleft⟩ := ihl
    obtain ⟨_, hright⟩ := ihr
    have hrun := run_left_first op hleft hright
    refine ⟨false, ?_⟩
    cases op with
    | _ => exact hrun

theorem exists_run_false_and
    (h : Returns late false l false false ∨ Returns late false r false false) :
    Returns late false (.node .and l r) false false := by
  rcases h with hleft | hright
  · obtain ⟨_, _, hright⟩ := exists_run_returned late true (evaluateOp r)
    exact run_left_first .and hleft hright
  · obtain ⟨b, e, hleft⟩ := exists_run_returned late true (evaluateOp l)
    have hrun := run_right_first .and hright hleft
    rwa [LogicOp.apply, Bool.and_false] at hrun

theorem exists_run_false_or (hleft : Returns late false l false false)
    (hright : value r = true → Returns late false r false false) :
    Returns late false (.node .or l r) false false := by
  cases hvalue : value r with
  | true => exact run_left_first .or hleft (hright hvalue)
  | false =>
    obtain ⟨_, _, hrun⟩ := exists_run_returned late false (evaluateOp r)
    have hresult := result_sound hrun hvalue
    subst hresult
    exact run_left_first .or hleft hrun

theorem exists_run_false_or' (hright : Returns late false r false false)
    (hvalue : value l = false) :
    Returns late false (.node .or l r) false false := by
  obtain ⟨b, e, hrun⟩ := exists_run_returned late false (evaluateOp l)
  have hresult := result_sound hrun hvalue
  subst hresult
  exact run_right_first .or hright hrun

theorem run_isErrorLeaf (h : isErrorLeaf t = true) : Returns late false t false true := by
  match t, h with
  | .leaf .error, _ => exact .single (.finish (.inl rfl))

theorem exists_run_false_of_isErrorLeaf (h : isErrorLeaf l = true ∨ isErrorLeaf r = true) :
    Returns late false (.node .or l r) false false := by
  rcases h with hleft | hright
  · obtain ⟨_, hrun⟩ := exists_run_false_of_cancelled late r
    exact run_left_first .or (run_isErrorLeaf hleft) hrun
  · obtain ⟨e, hrun⟩ := exists_run_false_of_cancelled late l
    exact run_right_first .or (run_isErrorLeaf hright) hrun

theorem exists_run_false_of_fragile (h : fragile t = true) : Returns late false t false false := by
  induction t with
  | leaf outcome => cases h
  | node op l r ihl ihr =>
    cases op with
    | and =>
      rw [fragile, and_eq_true, or_eq_true] at h
      exact exists_run_false_and (h.2.imp ihl ihr)
    | or =>
      rw [fragile, or_eq_true, or_eq_true] at h
      rcases h with (hboth | honly) | honly
      · simp only [and_eq_true] at hboth
        exact exists_run_false_or (ihl hboth.1.2) fun _ => ihr hboth.2
      · simp only [and_eq_true, or_eq_true, not_eq_true'] at honly
        obtain ⟨⟨-, hr⟩, herr | hl⟩ := honly
        · exact exists_run_false_of_isErrorLeaf (.inr herr)
        · refine exists_run_false_or (ihl hl) fun htrue => ?_
          rw [hr] at htrue
          cases htrue
      · simp only [and_eq_true, or_eq_true, not_eq_true'] at honly
        obtain ⟨⟨hl, -⟩, herr | hr⟩ := honly
        · exact exists_run_false_of_isErrorLeaf (.inl herr)
        · exact exists_run_false_or' (ihr hr) hl

theorem value_of_fragile (h : fragile t = true) : value t = true := by
  match t, h with
  | .node .and l r, h =>
    rw [fragile, and_eq_true] at h
    exact h.1
  | .node .or l r, h =>
    rw [value_or]
    rw [fragile] at h
    revert h
    cases value l <;> cases value r <;> simp

end Schedules

/-- Every schedule of the evaluation of a tree returns its value if and only if the tree is not
    fragile. -/
theorem evaluateRuleData_schedules (late : Bool) (t : LogicTree Outcome) :
    AlwaysReturns late t (value t) ↔ fragile t = false := by
  constructor
  · intro h
    rw [← not_eq_true]
    intro hfragile
    have hrun : Returns late false t false false :=
      exists_run_false_of_fragile hfragile
    have hfinal : ∀ s s', (∃ err, s = .returned (value t) err) → ¬ Step late false s s' := by
      rintro s s' ⟨err, rfl⟩
      exact not_step_returned s'
    obtain ⟨err, hresult⟩ := Inevitable.of_run hfinal h hrun (fun s => not_step_returned s)
    rw [value_of_fragile hfragile] at hresult
    cases hresult
  · exact alwaysReturns_of_robust

/-- The OR of a check that returns an error and one that passes: if the first one returns first,
    the second one is cancelled and the result is false; otherwise the result is true. -/
theorem evaluateRuleData_schedule_dependent :
    value (.node .or (.leaf .error) (.leaf .pass)) = true ∧
    ReflTransGen (Step false false) (evaluateOp (.node .or (.leaf .error) (.leaf .pass)))
      (.returned false false) ∧
    ReflTransGen (Step false false) (evaluateOp (.node .or (.leaf .error) (.leaf .pass)))
      (.returned true false) := by
  refine ⟨rfl, ?_, ?_⟩
  · have herror : ReflTransGen (Step false false) (evaluateOp (.leaf .error))
        (.returned false true) :=
      .single (.finish (.inl rfl))
    have hcancelled : ReflTransGen (Step false true) (evaluateOp (.leaf .pass))
        (.returned false true) :=
      .single .abort
    exact run_left_first .or herror hcancelled
  · have hpass : ReflTransGen (Step false false) (evaluateOp (.leaf .pass))
        (.returned true false) :=
      .single (.finish (.inl rfl))
    have hcancelled : ReflTransGen (Step false true) (evaluateOp (.leaf .error))
        (.returned false true) :=
      .single .abort
    exact run_right_first .or hpass hcancelled

end River.Xchain
