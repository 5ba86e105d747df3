/-
  The tiered prices of memberships
  (contracts/src/spaces/facets/membership/pricing/tiered/TieredLogPricingOracle.sol, through
  `_getMembershipPrice`).

  The logarithm of the fixed-point library that the oracle imports is a parameter, with what is
  used of it in `IsLog10`.
-/

import River.Contracts.MembershipFacet
import Mathlib.Data.Nat.Log

namespace River.Contracts

namespace TieredPricing

/-! ## Logarithms -/

def SCALE : Nat := 10 ^ 18

/-- The common logarithm of fixed-point numbers with 18 digits, on the integers the prices use: it
    grows, it is exact on powers of ten, and log10 2 = 0.30 to two digits. -/
structure IsLog10 (log10 : Nat → Nat) : Prop where
  mono : ∀ v w, v ≠ 0 → v ≤ w → w ≤ 10 ^ 4 → log10 (v * SCALE) ≤ log10 (w * SCALE)
  pow : ∀ k ≤ 4, log10 (10 ^ k * SCALE) = k * SCALE
  two : log10 (2 * SCALE) / 10 ^ 16 = 30

section

variable (log10 : Nat → Nat)

def calculateLogScale (value : Nat) : Nat := log10 (value * SCALE) / 10 ^ 16

variable {log10}

theorem IsLog10.logScale_mono (h : IsLog10 log10) {v w : Nat} (hv : v ≠ 0) (hle : v ≤ w)
    (hw : w ≤ 10 ^ 4) : calculateLogScale log10 v ≤ calculateLogScale log10 w :=
  Nat.div_le_div_right (h.mono v w hv hle hw)

theorem IsLog10.logScale_pow (h : IsLog10 log10) {k : Nat} (hk : k ≤ 4) :
    calculateLogScale log10 (10 ^ k) = k * 100 := by
  rw [calculateLogScale, h.pow k hk, SCALE]
  omega

variable (log10)

/-! ## Prices in cents -/

def calculateStablePrice (freeAllocation totalMinted : Nat) : Nat :=
  if freeAllocation > 0 ∧ totalMinted ≤ freeAllocation then 0
  else if totalMinted > 10000 then 10000
  else if totalMinted > 1000 then calculateLogScale log10 (totalMinted - 1000 + 1) * 22 + 1000
  else if totalMinted > 100 then calculateLogScale log10 (totalMinted - 100 + 1) * 3 + 100
  else if freeAllocation > totalMinted then 0
  else calculateLogScale log10 (if totalMinted = 0 then 1 else totalMinted) / 2 + 100

def tierPrice (totalMinted : Nat) : Nat := calculateStablePrice log10 0 totalMinted

theorem calculateStablePrice_eq (freeAllocation totalMinted : Nat) :
    calculateStablePrice log10 freeAllocation totalMinted =
      if freeAllocation > 0 ∧ totalMinted ≤ freeAllocation then 0
      else tierPrice log10 totalMinted := by
  unfold tierPrice calculateStablePrice
  split
  · rfl
  · rw [if_neg (by omega : ¬ ((0 : Nat) > 0 ∧ totalMinted ≤ 0)),
      if_neg (by omega : ¬ freeAllocation > totalMinted), if_neg (Nat.not_lt_zero totalMinted)]

theorem tierPrice_cases (n : Nat) :
    (n ≤ 100 ∧ tierPrice log10 n = calculateLogScale log10 (if n = 0 then 1 else n) / 2 + 100) ∨
    (100 < n ∧ n ≤ 1000 ∧ tierPrice log10 n = calculateLogScale log10 (n - 100 + 1) * 3 + 100) ∨
    (1000 < n ∧ n ≤ 10000 ∧
      tierPrice log10 n = calculateLogScale log10 (n - 1000 + 1) * 22 + 1000) ∨
    (10000 < n ∧ tierPrice log10 n = 10000) := by
  unfold tierPrice calculateStablePrice
  by_cases h3 : n > 10000
  · exact .inr (.inr (.inr ⟨h3, if_pos h3⟩))
  rw [if_neg h3]
  by_cases h2 : n > 1000
  · exact .inr (.inr (.inl ⟨h2, Nat.not_lt.1 h3, if_pos h2⟩))
  rw [if_neg h2]
  by_cases h1 : n > 100
  · exact .inr (.inl ⟨h1, Nat.not_lt.1 h2, if_pos h1⟩)
  · exact .inl ⟨Nat.not_lt.1 h1, if_neg h1⟩

theorem tierPrice_pos (n : Nat) : 0 < tierPrice log10 n := by
  rcases tierPrice_cases log10 n with ⟨-, h⟩ | ⟨-, -, h⟩ | ⟨-, -, h⟩ | ⟨-, h⟩ <;> omega

variable {log10}

theorem tierPrice_le_succ (hlog : IsLog10 log10) (n : Nat) :
    tierPrice log10 n ≤ tierPrice log10 (n + 1) ↔ n ≠ 100 := by
  rcases tierPrice_cases log10 n with ⟨hn, h⟩ | ⟨hn, hn', h⟩ | ⟨hn, hn', h⟩ | ⟨hn, h⟩ <;>
  rcases tierPrice_cases log10 (n + 1) with ⟨hm, h'⟩ | ⟨hm, hm', h'⟩ | ⟨hm, hm', h'⟩ | ⟨hm, h'⟩ <;>
  try omega
  · have hmono := hlog.logScale_mono (v := if n = 0 then 1 else n) (w := n + 1)
      (by split <;> omega) (by split <;> omega) (by omega)
    rw [if_neg (Nat.succ_ne_zero n)] at h'
    omega
  · -- two dollars for the last membership of the tier, and less for the next
    obtain rfl : n = 100 := by omega
    have hlast : calculateLogScale log10 100 = 200 := hlog.logScale_pow (k := 2) (by decide)
    have hnext : calculateLogScale log10 2 = 30 := hlog.two
    change tierPrice log10 100 = calculateLogScale log10 100 / 2 + 100 at h
    change tierPrice log10 101 = calculateLogScale log10 2 * 3 + 100 at h'
    rw [h, h', hlast, hnext]
    decide
  · have hmono := hlog.logScale_mono (v := n - 100 + 1) (w := n + 1 - 100 + 1) (by omega)
      (by omega) (by omega)
    omega
  · have hlast : n = 1000 := by omega
    have htop := hlog.logScale_mono (v := n - 100 + 1) (w := 10 ^ 3) (by omega) (by omega)
      (by omega)
    rw [hlog.logScale_pow (by decide)] at htop
    omega
  · have hmono := hlog.logScale_mono (v := n - 1000 + 1) (w := n + 1 - 1000 + 1) (by omega)
      (by omega) (by omega)
    omega
  · have hlast : n = 10000 := by omega
    have htop := hlog.logScale_mono (v := n - 1000 + 1) (w := 10 ^ 4) (by omega) (by omega)
      (by omega)
    rw [hlog.logScale_pow (by decide)] at htop
    omega

end

/-! ## Prices in wei -/

structure PriceFeed where
  exchangeRate : Nat
  exchangeRateDecimals : Nat

def oneCentInWei (feed : PriceFeed) : Option Nat :=
  if feed.exchangeRate * 100 < 2 ^ 256 then
    let ethToUsdExchangeRateCents := feed.exchangeRate * 100 / feed.exchangeRateDecimals
    if ethToUsdExchangeRateCents = 0 then none else some (SCALE / ethToUsdExchangeRateCents)
  else none

def getPrice (log10 : Nat → Nat) (feed : PriceFeed) (freeAllocation totalMinted : Nat) :
    Option Nat :=
  (oneCentInWei feed).map (· * calculateStablePrice log10 freeAllocation totalMinted)

end TieredPricing

open TieredPricing

theorem getMembershipPrice_tiered {env : Env} {s : Space} (hmodule : s.pricingModule ≠ 0)
    (horacle : env.getPrice = getPrice log10 feed) (hcent : oneCentInWei feed = some cent)
    (n : Nat) :
    s.getMembershipPrice env n = .ok
      (if s.getMembershipFreeAllocation env > n ∨ env.prepaidMembershipSupply > n ∨
          (s.getMembershipFreeAllocation env > 0 ∧ n ≤ s.getMembershipFreeAllocation env) then 0
        else cent * tierPrice log10 n) := by
  have hanswer : env.getPrice (s.getMembershipFreeAllocation env) n = some
      (cent * calculateStablePrice log10 (s.getMembershipFreeAllocation env) n) := by
    rw [horacle, getPrice, hcent]
    rfl
  unfold Space.getMembershipPrice
  rw [calculateStablePrice_eq] at hanswer
  simp only [hanswer]
  split
  · rw [if_pos (by omega)]
  split
  · rw [if_pos (by omega)]
  split
  · rw [if_pos (by omega), Nat.mul_zero]
  · rw [if_neg (by omega)]

/-- **The price curve.** The price does not fall from one supply to the next, except from 100 to 101
    if 100 is not free; and it is zero exactly below the free allocation, except where a prepayment
    reaches further, at the allocation itself, and if a cent is worth nothing. -/
theorem tieredPrice_curve {log10 : Nat → Nat} (hlog : IsLog10 log10) (env : Env) (s : Space)
    (feed : PriceFeed) (cent : Nat) (hmodule : s.pricingModule ≠ 0)
    (horacle : env.getPrice = getPrice log10 feed) (hcent : oneCentInWei feed = some cent)
    (n : Nat) :
    ∃ price price', s.getMembershipPrice env n = .ok price ∧
      s.getMembershipPrice env (n + 1) = .ok price' ∧
      (price ≤ price' ↔ n ≠ 100 ∨ s.getMembershipFreeAllocation env ≥ 100 ∨
        env.prepaidMembershipSupply > 100 ∨ cent = 0) ∧
      ((price = 0 ↔ n < s.getMembershipFreeAllocation env) ↔
        n < s.getMembershipFreeAllocation env ∨ (env.prepaidMembershipSupply ≤ n ∧
          ¬ (n = s.getMembershipFreeAllocation env ∧ s.getMembershipFreeAllocation env > 0) ∧
          cent ≠ 0)) := by
  refine ⟨_, _, getMembershipPrice_tiered hmodule horacle hcent n,
    getMembershipPrice_tiered hmodule horacle hcent (n + 1), ?_, ?_⟩
  all_goals
    generalize s.getMembershipFreeAllocation env = free
    generalize env.prepaidMembershipSupply = prepaid
  · by_cases hfree : free > n ∨ prepaid > n ∨ (free > 0 ∧ n ≤ free)
    · rw [if_pos hfree]
      exact iff_of_true (Nat.zero_le _) (by omega)
    rw [if_neg hfree, if_neg (by omega)]
    rcases Nat.eq_zero_or_pos cent with rfl | hpos
    · simp
    · rw [Nat.mul_le_mul_left_iff hpos, tierPrice_le_succ hlog]
      omega
  · have hpos := tierPrice_pos log10 n
    by_cases hfree : free > n ∨ prepaid > n ∨ (free > 0 ∧ n ≤ free)
    · rw [if_pos hfree]
      omega
    · rw [if_neg hfree, Nat.mul_eq_zero]
      omega

def sampleFeed : PriceFeed := ⟨2500 * 10 ^ 8, 10 ^ 8⟩

/-- The logarithm to two digits. -/
def sampleLog10 (x : Nat) : Nat := Nat.log 10 ((x / SCALE) ^ 100) * 10 ^ 16

theorem sampleLog10_isLog10 : IsLog10 sampleLog10 := by
  have hlog : ∀ v, sampleLog10 (v * SCALE) = Nat.log 10 (v ^ 100) * 10 ^ 16 := by
    intro v
    rw [sampleLog10, Nat.mul_div_cancel _ (by decide)]
  refine ⟨fun v w _ hle _ => ?_, fun k _ => ?_, ?_⟩
  · rw [hlog, hlog]
    exact Nat.mul_le_mul_right _ (Nat.log_mono_right (Nat.pow_le_pow_left hle 100))
  · rw [hlog, ← Nat.pow_mul, Nat.log_pow (by decide), SCALE]
    omega
  · have htwo : Nat.log 10 (2 ^ 100) = 30 := (Nat.log_eq_iff (by decide)).2 (by decide)
    rw [hlog, htwo]
    decide

def tieredPrice (freeAllocation n : Nat) : Result Nat :=
  (Space.create { Settings.sample with freeAllocation := freeAllocation } 0).getMembershipPrice
    { Env.sample with getPrice := getPrice sampleLog10 sampleFeed } n

theorem tieredPrice_curve_at_50 :
    ∃ price price', tieredPrice 10 50 = .ok price ∧ tieredPrice 10 51 = .ok price' ∧
      price ≤ price' ∧ price ≠ 0 := by
  obtain ⟨price, price', hprice, hprice', hmono, hzero⟩ := tieredPrice_curve sampleLog10_isLog10
    { Env.sample with getPrice := getPrice sampleLog10 sampleFeed }
    (.create { Settings.sample with freeAllocation := 10 } 0) sampleFeed (4 * 10 ^ 12)
    (by decide) rfl (by decide +kernel) 50
  refine ⟨price, price', hprice, hprice', hmono.2 (.inl (by decide)), ?_⟩
  exact fun h => absurd ((hzero.2 (.inr (by decide))).1 h) (by decide)

/-- The price falls from 100 memberships to 101, and the join at the free allocation is free. -/
theorem tieredPrice_falls :
    tieredPrice 0 100 = .ok (200 * 4 * 10 ^ 12) ∧ tieredPrice 0 101 = .ok (190 * 4 * 10 ^ 12) ∧
    tieredPrice 10 10 = .ok 0 := by
  decide +kernel

end River.Contracts
