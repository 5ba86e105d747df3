/-
  The referral codes of a space
  (contracts/src/spaces/facets/membership/referral/MembershipReferralBase.sol).

  Only a removal clears the window of a code.
-/

import River.Contracts.MembershipFacet

namespace River.Contracts

open River.Lib Function Space

inductive ReferralError where
  | notOwner | invalidReferralCode | invalidReferralBps | invalidReferralTime

inductive ReferralCall where
  | createReferralCode (code bps : Nat)
  | createReferralCodeWithTime (code bps startTime endTime : Nat)
  | removeReferralCode (code : Nat)

namespace Space

def createReferralCode (code bps : Nat) (s : Space) : Except ReferralError Space :=
  if code = 0 then .error .invalidReferralCode
  else if bps > 10000 then .error .invalidReferralBps
  else if s.referralCodes code ≠ 0 then .error .invalidReferralCode
  else .ok { s with referralCodes := update s.referralCodes code bps }

def createReferralCodeWithTime (timestamp code bps startTime endTime : Nat) (s : Space) :
    Except ReferralError Space :=
  if code = 0 then .error .invalidReferralCode
  else if startTime < timestamp then .error .invalidReferralTime
  else if endTime ≤ startTime then .error .invalidReferralTime
  else if bps > 10000 then .error .invalidReferralBps
  else if s.referralCodes code ≠ 0 then .error .invalidReferralCode
  else .ok { s with
    referralCodes := update s.referralCodes code bps
    referralCodeTimes := update s.referralCodeTimes code (startTime, endTime) }

def removeReferralCode (code : Nat) (s : Space) : Except ReferralError Space :=
  if s.referralCodes code = 0 then .error .invalidReferralCode
  else .ok { s with
    referralCodes := update s.referralCodes code 0
    referralCodeTimes := update s.referralCodeTimes code (0, 0) }

def answerReferral (env : Env) (call : ReferralCall) (s : Space) : Except ReferralError Space :=
  if env.sender ≠ env.owner then .error .notOwner
  else match call with
    | .createReferralCode code bps => s.createReferralCode code bps
    | .createReferralCodeWithTime code bps startTime endTime =>
      s.createReferralCodeWithTime env.timestamp code bps startTime endTime
    | .removeReferralCode code => s.removeReferralCode code

/-- `__MembershipReferralBase_init`, where no code was created before. -/
def initReferrals (s : Space) : Space :=
  { s with
    referralCodes := update (fun _ => 0) 123 1000
    referralCodeTimes := fun _ => (0, 0) }

end Space

/-- The referral codes of a space. -/
def referrals : Machine Space (Env × ReferralCall) (Option ReferralError) :=
  .ofCall fun s a => s.answerReferral a.1 a.2

/-! ## What was created last -/

structure Referral where
  bps : Nat
  window : Option (Nat × Nat)

def record (created : Nat → Option Referral) : ReferralCall → Nat → Option Referral
  | .createReferralCode code bps => update created code (some ⟨bps, none⟩)
  | .createReferralCodeWithTime code bps startTime endTime =>
    update created code (some ⟨bps, some (startTime, endTime)⟩)
  | .removeReferralCode code => update created code none

def acceptedCalls (s : Space) (a : Env × ReferralCall) : List ReferralCall :=
  match s.answerReferral a.1 a.2 with
  | .ok _ => [a.2]
  | .error _ => []

/-- For each code its last creation in a run, if it was not removed since. The code for developers
    is there from the beginning. -/
def lastCreated (s : Space) (run : List (Env × ReferralCall)) : Nat → Option Referral :=
  (referrals.collect acceptedCalls s run).foldl record
    (update (fun _ => none) 123 (some ⟨1000, none⟩))

def Referral.pays (price now : Nat) : Option Referral → Result Nat
  | none => .ok 0
  | some ⟨bps, none⟩ => basisPointsCalculate price bps
  | some ⟨bps, some (startTime, endTime)⟩ =>
    if startTime ≤ now ∧ now ≤ endTime then basisPointsCalculate price bps else .ok 0

/-- A code that is created has a rate, and time is not 0. -/
def HasRate (a : Env × ReferralCall) : Prop :=
  a.1.timestamp ≠ 0 ∧
    ∀ code bps startTime endTime,
      a.2 = .createReferralCodeWithTime code bps startTime endTime → bps ≠ 0

/-! ## What is stored -/

inductive MatchesAt : Option Referral → Nat → Nat × Nat → Prop where
  | absent : MatchesAt none 0 (0, 0)
  | always (bps : Nat) : MatchesAt (some ⟨bps, none⟩) bps (0, 0)
  | within {bps startTime : Nat} (endTime : Nat) (hbps : bps ≠ 0) (hstart : startTime ≠ 0) :
      MatchesAt (some ⟨bps, some (startTime, endTime)⟩) bps (startTime, endTime)

def Matches (created : Nat → Option Referral) (s : Space) : Prop :=
  ∀ code, MatchesAt (created code) (s.referralCodes code) (s.referralCodeTimes code)

variable {created : Nat → Option Referral} {s : Space} {times : Nat × Nat}

theorem MatchesAt.no_window (h : MatchesAt r 0 times) : times = (0, 0) := by
  cases h with
  | absent => rfl
  | always => rfl
  | within endTime hbps hstart => exact absurd rfl hbps

theorem Matches.update (h : Matches created s) (code : Nat) (hcode : MatchesAt r bps times) :
    Matches (update created code r) { s with
      referralCodes := update s.referralCodes code bps
      referralCodeTimes := update s.referralCodeTimes code times } := by
  intro code'
  by_cases heq : code' = code
  · subst heq
    simpa using hcode
  · simpa [heq] using h code'

variable {env : Env}

theorem Matches.answer {call : ReferralCall} {s' : Space} (h : Matches created s)
    (hrate : HasRate (env, call)) (hok : s.answerReferral env call = .ok s') :
    Matches (record created call) s' := by
  obtain ⟨-, hok⟩ := ite_error_ok.1 hok
  cases call with
  | createReferralCode code bps =>
    simp only [createReferralCode, ite_error_ok, not_not] at hok
    obtain ⟨-, -, hnew, hok⟩ := hok
    -- the window of a code that does not exist is not cleared, it is none
    have hwindow : s.referralCodeTimes code = (0, 0) := (hnew ▸ h code).no_window
    have hmatches := h.update code (.always bps)
    rw [← hwindow, update_eq_self] at hmatches
    cases hok
    exact hmatches
  | createReferralCodeWithTime code bps startTime endTime =>
    simp only [createReferralCodeWithTime, ite_error_ok] at hok
    obtain ⟨-, _, -, -, -, hok⟩ := hok
    have htime : env.timestamp ≠ 0 := hrate.1
    cases hok
    exact h.update code (.within endTime (hrate.2 _ _ _ _ rfl) (by omega))
  | removeReferralCode code =>
    obtain ⟨-, hok⟩ := ite_error_ok.1 hok
    cases hok
    exact h.update code .absent

theorem matches_exec {run : List (Env × ReferralCall)} (hrun : ∀ a ∈ run, HasRate a) (s : Space) :
    Matches (lastCreated s.initReferrals run) (referrals.exec s.initReferrals run) := by
  let start : Nat → Option Referral := update (fun _ => none) 123 (some ⟨1000, none⟩)
  refine Machine.collect_invariant (G := fun _ => True)
    (J := fun calls s => Matches (calls.foldl record start) s) (fun _ _ h => h)
    (fun calls s a hs hrate _ => ?_) (l := []) ?_ (Machine.along_of_mem hrun _) trivial
  · rw [List.foldl_append]
    simp only [acceptedCalls, Machine.next, referrals, Machine.ofCall]
    cases hanswer : s.answerReferral a.1 a.2 with
    | ok s' => exact hs.answer hrate hanswer
    | error e => exact hs
  · intro code
    by_cases heq : code = 123
    · subst heq
      exact .always 1000
    · simpa [start, initReferrals, heq] using .absent

variable {code price : Nat}

theorem MatchesAt.calculateReferralAmount
    (h : MatchesAt r (s.referralCodes code) (s.referralCodeTimes code)) :
    s.calculateReferralAmount env price code = Referral.pays price env.timestamp r := by
  unfold Space.calculateReferralAmount
  generalize s.referralCodes code = bps at h
  generalize s.referralCodeTimes code = times at h
  cases h with
  | absent => rfl
  | always =>
    by_cases hbps : bps = 0
    · simp [hbps, Referral.pays, basisPointsCalculate]
    · simp [hbps, Referral.pays]
  | @within _ startTime endTime hbps hstart =>
    simp only [if_neg hbps, Referral.pays]
    by_cases hwithin : startTime ≤ env.timestamp ∧ env.timestamp ≤ endTime
    · rw [if_neg (by omega), if_pos hwithin]
    · rw [if_pos (by omega), if_neg hwithin]

variable {amount : Nat}

theorem basisPointsCalculate_le (h : basisPointsCalculate price bps = .ok amount) :
    amount ≤ price := by
  obtain ⟨_, h⟩ := ite_error_ok.1 h
  split at h
  · cases h
    have hmul : price * bps ≤ price * 10000 := Nat.mul_le_mul_left price (by omega)
    omega
  · cases h

theorem calculateReferralAmount_le (h : s.calculateReferralAmount env price code = .ok amount) :
    amount ≤ price := by
  unfold calculateReferralAmount at h
  simp only at h
  split at h
  · cases h
    exact Nat.zero_le _
  split at h
  · cases h
    exact Nat.zero_le _
  · exact basisPointsCalculate_le h

/-- **Referral codes.** After every history in which no code is created with a window and the rate
    zero, every code pays what its last creation says: always if it was created without times,
    exactly in its window otherwise, and nothing if it was not created or is removed. The amount is
    at most the price after every history. -/
theorem referral_amount (s : Space) (run : List (Env × ReferralCall)) (env : Env)
    (price code : Nat) :
    ((∀ a ∈ run, HasRate a) →
        (referrals.exec s.initReferrals run).calculateReferralAmount env price code =
          Referral.pays price env.timestamp (lastCreated s.initReferrals run code)) ∧
      ∀ amount,
        (referrals.exec s.initReferrals run).calculateReferralAmount env price code = .ok amount →
          amount ≤ price :=
  ⟨fun hrun => (matches_exec hrun s code).calculateReferralAmount,
    fun _ h => calculateReferralAmount_le h⟩

/-- A code with a window and a rate pays a tenth inside it and nothing after it. -/
theorem referral_amount_window :
    let s := create .sample 0
    let run : List (Env × ReferralCall) :=
      [(.call 2 0, .createReferralCodeWithTime 7 1000 2000 3000)]
    let s' := referrals.exec s.initReferrals run
    s'.calculateReferralAmount { Env.sample with timestamp := 2500 } 500 7 = .ok 50 ∧
      s'.calculateReferralAmount { Env.sample with timestamp := 3001 } 500 7 = .ok 0 := by
  intro s run s'
  have hrun : ∀ a ∈ run, HasRate a := by
    rintro a ha
    cases List.mem_singleton.1 ha
    exact ⟨by decide, by rintro _ _ _ _ ⟨⟩; decide⟩
  exact ⟨((referral_amount s run _ 500 7).1 hrun).trans (by decide),
    ((referral_amount s run _ 500 7).1 hrun).trans (by decide)⟩

/-- A creation with a window and the rate zero leaves its window to the next creation, which has
    none: the code pays nothing before the window. -/
theorem referral_amount_stale_window :
    let s := (create .sample 0).initReferrals
    let run : List (Env × ReferralCall) :=
      [(.call 2 0, .createReferralCodeWithTime 7 0 2000 3000),
        (.call 2 0, .createReferralCode 7 1000)]
    referrals.collect acceptedCalls s run = run.map Prod.snd ∧
      Referral.pays 500 1500 (lastCreated s run 7) = .ok 50 ∧
      (referrals.exec s run).calculateReferralAmount { Env.sample with timestamp := 1500 } 500 7 =
        .ok 0 :=
  ⟨rfl, rfl, rfl⟩

end River.Contracts
