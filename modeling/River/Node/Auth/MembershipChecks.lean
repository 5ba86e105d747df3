/-
  The goroutines in which `checkEntitlement` asks for the membership of each wallet
  (core/node/auth/auth_impl.go).
-/

import River.Lib.Inevitable
import River.Node.Auth.ChainAuth

namespace River.Node.Auth

open River.Lib List
open River.Contracts (Address)
open Relation (ReflTransGen)

/-- A goroutine of `checkMembership`: in its call, before its send, or at its end. -/
inductive Check where
  | calling (isMember : Bool)
  | sending
  | done
  deriving DecidableEq

/-- `buffered` results are in the channel, which has room for one. `reading` says that the loop over
    the results has not been left. -/
structure MembershipChecks where
  checks : List Check
  buffered : Nat
  closed : Bool
  reading : Bool

namespace MembershipChecks

def start (isMember : Address → Bool) (wallets : List Address) : MembershipChecks :=
  ⟨wallets.map fun address => .calling (isMember address), 0, false, true⟩

/-- One step of a check, or of the reader. -/
inductive Step (s : MembershipChecks) : MembershipChecks → Prop where
  | found (front : List Check) {back : List Check}
      (h : s.checks = front ++ .calling true :: back) :
      Step s { s with checks := front ++ .sending :: back }
  -- not a member, or the call failed, which it also may because the context is cancelled
  | missed {isMember : Bool} (front : List Check) {back : List Check}
      (h : s.checks = front ++ .calling isMember :: back) :
      Step s { s with checks := front ++ .done :: back }
  | send (front : List Check) {back : List Check}
      (h : s.checks = front ++ .sending :: back) (room : s.buffered < 1) :
      Step s { s with checks := front ++ .done :: back, buffered := s.buffered + 1 }
  | receive (reading : s.reading = true) (result : 0 < s.buffered) :
      Step s { s with buffered := s.buffered - 1, reading := false }
  | close (wait : ∀ c ∈ s.checks, c = .done) (h : s.closed = false) :
      Step s { s with closed := true }
  | drained (reading : s.reading = true) (closed : s.closed = true) (empty : s.buffered = 0) :
      Step s { s with reading := false }

/-- All checks are done and the channel is closed. -/
def Ended (s : MembershipChecks) : Prop := (∀ c ∈ s.checks, c = .done) ∧ s.closed = true

/-! ## Results that are still to come -/

/-- The results that a goroutine may still send. -/
def pending : Check → Nat
  | .calling isMember => if isMember then 1 else 0
  | .sending => 1
  | .done => 0

def weight : Check → Nat
  | .calling _ => 3
  | .sending => 2
  | .done => 0

def measure (s : MembershipChecks) : Nat :=
  (s.checks.map weight).sum + s.buffered + (if s.reading then 1 else 0) + if s.closed then 0 else 1

variable {s s' : MembershipChecks}

/-- The channel and the reader have room for all results that may still come. -/
structure Bounded (s : MembershipChecks) : Prop where
  results : (s.checks.map pending).sum + s.buffered ≤ if s.reading then 2 else 1
  closed : s.closed = true → ∀ c ∈ s.checks, c = .done

theorem pending_done {checks : List Check} (h : ∀ c ∈ checks, c = .done) :
    (checks.map pending).sum = 0 := by
  rw [map_congr_left fun c hc => congrArg pending (h c hc)]
  simp [pending]

theorem mem_checks {front back : List Check} {c : Check} (h : s.checks = front ++ c :: back) :
    c ∈ s.checks := by
  rw [h]
  exact mem_append_right _ mem_cons_self

theorem Bounded.step (h : s.Bounded) (hstep : Step s s') : s'.Bounded := by
  have hresults := h.results
  cases hstep with
  | found front hchecks =>
    refine ⟨?_, fun hclosed => nomatch h.closed hclosed _ (mem_checks hchecks)⟩
    simpa [hchecks, pending] using hresults
  | missed front hchecks | send front hchecks room =>
    refine ⟨?_, fun hclosed => nomatch h.closed hclosed _ (mem_checks hchecks)⟩
    simp only [hchecks, map_append, map_cons, sum_append, sum_cons, pending] at hresults ⊢
    omega
  | receive reading result =>
    refine ⟨?_, h.closed⟩
    simp only [reading, if_true, Bool.false_eq_true, if_false] at hresults ⊢
    omega
  | close wait hopen => exact ⟨hresults, fun _ => wait⟩
  | drained reading closed empty =>
    refine ⟨?_, h.closed⟩
    have hnone := pending_done (h.closed closed)
    simp only [Bool.false_eq_true]
    omega

theorem measure_lt (hstep : Step s s') : s'.measure < s.measure := by
  cases hstep with
  | found front hchecks | missed front hchecks => simp [measure, hchecks, weight]
  | send front hchecks room =>
    simp only [measure, hchecks, map_append, map_cons, sum_append, sum_cons, weight]
    omega
  | receive reading result =>
    simp only [measure, Bool.false_eq_true, if_false]
    omega
  | close wait hopen => simp [measure, hopen]
  | drained reading closed empty => simp [measure, reading]

/-- A sender that finds the channel full is one of two results that are still there, so the reader
    has not left. -/
theorem Bounded.progress (h : s.Bounded) : s.Ended ∨ ∃ s', Step s s' := by
  by_cases hdone : ∀ c ∈ s.checks, c = .done
  · by_cases hclosed : s.closed = true
    · exact .inl ⟨hdone, hclosed⟩
    · exact .inr ⟨_, .close hdone (Bool.not_eq_true _ ▸ hclosed)⟩
  · push Not at hdone
    obtain ⟨c, hc, hne⟩ := hdone
    obtain ⟨front, _, hchecks⟩ := append_of_mem hc
    cases c with
    | calling isMember => exact .inr ⟨_, .missed front hchecks⟩
    | done => exact absurd rfl hne
    | sending =>
      by_cases hroom : s.buffered < 1
      · exact .inr ⟨_, .send front hchecks hroom⟩
      have hresults := h.results
      simp only [hchecks, map_append, map_cons, sum_append, sum_cons, pending] at hresults
      have hreading : s.reading = true := by
        by_contra hleft
        rw [if_neg hleft] at hresults
        omega
      exact .inr ⟨_, .receive hreading (by omega)⟩

theorem bounded_start {wallets : List Address}
    (h : wallets.countP isMember ≤ 2) : (start isMember wallets).Bounded := by
  refine ⟨?_, nofun⟩
  have hcount : ((start isMember wallets).checks.map pending).sum = wallets.countP isMember := by
    clear h
    induction wallets with
    | nil => rfl
    | cons address wallets ih =>
      simp only [start, map_cons, sum_cons, countP_cons, pending] at ih ⊢
      rw [ih, Nat.add_comm]
  rw [hcount]
  exact h

/-! ## Three results -/

/-- A send waits for a reader that has left. -/
structure Blocked (s : MembershipChecks) : Prop where
  full : 1 ≤ s.buffered
  left : s.reading = false
  waiting : .sending ∈ s.checks

theorem Blocked.step (h : s.Blocked) (hstep : Step s s') : s'.Blocked := by
  obtain ⟨hfull, hleft, hwaiting⟩ := h
  cases hstep with
  | found front hchecks => exact ⟨hfull, hleft, by simp⟩
  | missed front hchecks =>
    rw [hchecks] at hwaiting
    exact ⟨hfull, hleft, by simpa using hwaiting⟩
  | send front hchecks room => omega
  | receive reading | drained reading =>
    rw [hleft] at reading
    cases reading
  | close wait => cases wait _ hwaiting

theorem Blocked.not_inevitable (h : s.Blocked) : ¬ Inevitable Step Ended s := by
  intro hend
  induction hend with
  | now hended => cases hended.1 _ h.waiting
  | later hprogress _ ih =>
    obtain ⟨s', hstep⟩ := hprogress
    exact ih s' hstep (h.step hstep)

theorem exists_member {wallets : List Address} (h : n < wallets.countP isMember) :
    ∃ front address back, wallets = front ++ address :: back ∧ isMember address = true ∧
      n ≤ back.countP isMember := by
  induction wallets with
  | nil => cases h
  | cons address wallets ih =>
    by_cases hmember : isMember address = true
    · rw [countP_cons_of_pos hmember] at h
      exact ⟨[], address, wallets, rfl, hmember, Nat.le_of_lt_succ h⟩
    · rw [countP_cons_of_neg hmember] at h
      obtain ⟨front, member, back, rfl, hback⟩ := ih h
      exact ⟨address :: front, member, back, rfl, hback⟩

/-- The reader leaves with the first result, the second one fills the channel, and the third check
    waits for ever. -/
theorem exists_blocked {wallets : List Address} (h : 2 < wallets.countP isMember) :
    ∃ s, ReflTransGen Step (start isMember wallets) s ∧ s.Blocked := by
  obtain ⟨front, a, _, hwallets, ha, hrest⟩ := exists_member h
  obtain ⟨front', b, _, rfl, hb, hrest⟩ := exists_member hrest
  obtain ⟨front'', c, back, rfl, hc, -⟩ := exists_member hrest
  let calls := map fun address => Check.calling (isMember address)
  let front₁ := calls front
  let front₂ := front₁ ++ .done :: calls front'
  let front₃ := front₂ ++ .done :: calls front''
  have hstart : (start isMember wallets).checks = front₁ ++ .calling true :: (calls front' ++
      .calling true :: (calls front'' ++ .calling true :: calls back)) := by
    simp only [start, hwallets, map_append, map_cons, ha, hb, hc]
    rfl
  have hsecond : front₁ ++ .done :: (calls front' ++ .calling true :: (calls front'' ++
      .calling true :: calls back)) = front₂ ++ .calling true :: (calls front'' ++
      .calling true :: calls back) := by simp [front₂]
  have hthird : front₂ ++ .done :: (calls front'' ++ .calling true :: calls back) =
      front₃ ++ .calling true :: calls back := by simp [front₃]
  refine ⟨⟨front₃ ++ .sending :: calls back, 1, false, false⟩, ?_, ⟨Nat.le_refl 1, rfl, by simp⟩⟩
  exact .head (.found front₁ hstart) (.head (.send front₁ rfl Nat.one_pos)
    (.head (.receive rfl Nat.one_pos) (.head (.found front₂ hsecond)
      (.head (.send front₂ rfl Nat.one_pos) (.single (.found front₃ hthird))))))

end MembershipChecks

open MembershipChecks

/-- **No check is left behind.** From every state that a run reaches every schedule ends all checks
    and closes the channel exactly if at most two of the wallets are members. -/
theorem membership_checks_end (isMember : Address → Bool) (wallets : List Address) :
    (∀ s, ReflTransGen Step (start isMember wallets) s → Inevitable Step Ended s) ↔
      wallets.countP isMember ≤ 2 := by
  constructor
  · intro h
    by_contra hmany
    obtain ⟨s, hrun, hblocked⟩ := exists_blocked (Nat.lt_of_not_le hmany)
    exact hblocked.not_inevitable (h s hrun)
  · intro h s hrun
    exact .of_invariant measure (fun _ _ hs hstep => hs.step hstep) (fun _ _ => measure_lt)
      (fun _ hs => hs.progress) (invariant_run (fun _ _ hs hstep => hs.step hstep) (bounded_start h)
        hrun)

/-- Two wallets of a user, both members. -/
theorem membership_checks_end_two : Inevitable Step Ended (start (fun _ => true) [7, 8]) :=
  (membership_checks_end _ _).2 (by decide) _ .refl

/-- Three wallets of a user, all members: the reader leaves with the first result, the second one
    fills the channel, and the third check waits for ever. -/
theorem membership_check_leaks :
    let s : MembershipChecks := ⟨[.done, .done, .sending], 1, false, false⟩
    ReflTransGen Step (start (fun _ => true) [7, 8, 9]) s ∧ ∀ s', ¬Step s s' := by
  refine ⟨?_, fun s' hstep => ?_⟩
  · have hfound : ReflTransGen Step (start (fun _ => true) [7, 8, 9])
        ⟨[.sending, .sending, .sending], 0, false, true⟩ :=
      ((ReflTransGen.single (.found [] rfl)).tail
        (.found [.sending] rfl)).tail (.found [.sending, .sending] rfl)
    exact ((hfound.tail (.send [] rfl (by decide))).tail
      (.receive rfl (by decide))).tail (.send [.done] rfl (by decide))
  · cases hstep with
    | found front h | missed front h => simpa using mem_checks h
    | send front h room => exact absurd room (by decide)
    | receive reading => cases reading
    | close wait => cases wait .sending (by simp)
    | drained reading => cases reading

end River.Node.Auth
