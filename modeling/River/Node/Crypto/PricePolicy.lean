/-
  The prices of replacement transactions (core/node/crypto/chain_txpool_policy.go).
-/

import Mathlib.Tactic.Ring

namespace River.Node

structure PricePolicy where
  gasPricePercentage : Nat
  gasFeeCap : Option Nat
  minerTipPercentage : Nat

def newDefaultTransactionPricePolicy
    (gasPricePercentage gasFeeCap minerTipReplacementPercentage : Nat) : PricePolicy where
  gasPricePercentage := if gasPricePercentage = 0 then 10 else gasPricePercentage
  gasFeeCap := if gasFeeCap ≠ 0 then some gasFeeCap else none
  minerTipPercentage :=
    if minerTipReplacementPercentage = 0 then 10 else minerTipReplacementPercentage

structure TxPrice where
  gasPrice : Option Nat
  gasFeeCap : Option Nat
  gasTipCap : Option Nat
  deriving DecidableEq

/-- The prices of an EIP-1559 transaction. -/
def TxPrice.dynamicFee (fee tip : Nat) : TxPrice := ⟨none, some fee, some tip⟩

namespace PricePolicy

def inc (val percentage : Nat) : Nat :=
  let newVal := val * (100 + percentage) / 100
  -- replacements are accepted from more than 10% on
  if percentage % 2 ^ 64 = 10 then newVal + 1 else newVal

def reprice (pol : PricePolicy) (tx : TxPrice) : TxPrice :=
  match tx.gasFeeCap with
  | some fee =>
    let newGasFeeCap := inc fee 10 + 1
    let tip := tx.gasTipCap.map (inc · pol.minerTipPercentage)
    match pol.gasFeeCap with
    | none => ⟨none, none, tip⟩
    | some cap => ⟨none, some (if newGasFeeCap > cap then cap else newGasFeeCap), tip⟩
  | none => ⟨tx.gasPrice.map (inc · pol.gasPricePercentage), none, none⟩

variable {cap pct fee tip : Nat}

theorem inc_ten (val : Nat) : inc val 10 = val * 110 / 100 + 1 := rfl

theorem inc_eq (hpct : pct < 2 ^ 63) (val : Nat) :
    inc val pct = val * (100 + pct) / 100 + if pct = 10 then 1 else 0 := by
  rw [inc, Nat.mod_eq_of_lt (by omega)]
  split <;> rfl

theorem reprice_eq (gasPricePercentage : Nat) (hcap : 0 < cap) (hpct : 10 ≤ pct) :
    (newDefaultTransactionPricePolicy gasPricePercentage cap pct).reprice (.dynamicFee fee tip) =
      .dynamicFee (min (fee * 110 / 100 + 2) cap) (inc tip pct) := by
  have hfee : (if inc fee 10 + 1 > cap then cap else inc fee 10 + 1) =
      min (fee * 110 / 100 + 2) cap := by
    rw [inc_ten]
    split <;> omega
  simp only [reprice, newDefaultTransactionPricePolicy, TxPrice.dynamicFee, if_pos hcap.ne', hfee,
    if_neg (show pct ≠ 0 by omega), Option.map_some]

/-- The tip is at most the fee cap, and that at most the configured one. -/
def InOrder (cap : Nat) : TxPrice → Prop
  | ⟨none, some fee, some tip⟩ => tip ≤ fee ∧ fee ≤ cap
  | _ => False

/-- Fee cap and tip grow by more than 10 percent, unless the fee cap is the configured one. -/
def Outbids (cap : Nat) : TxPrice → TxPrice → Prop
  | ⟨none, some fee, some tip⟩, ⟨none, some fee', some tip'⟩ =>
    fee = cap ∨ 11 * fee < 10 * fee' ∧ 11 * tip < 10 * tip'
  | _, _ => False

/-- The next tip fits under the next fee cap, and both can grow as they have to. -/
def HasRoom (cap pct : Nat) : TxPrice → Prop
  | ⟨none, some fee, some tip⟩ =>
    tip * (100 + pct) / 100 + (if pct = 10 then 1 else 0) ≤ min (fee * 110 / 100 + 2) cap ∧
    (fee = cap ∨ 11 * fee < 10 * cap ∧ (pct = 10 ∨ 100 * (11 * tip / 10 + 1) ≤ tip * (100 + pct)))
  | _ => False

section Sequence

variable (gasPricePercentage : Nat) (hcap : 0 < cap) (hpct : 10 ≤ pct)

include hcap hpct

theorem exists_iterate (hfee : fee ≤ cap) (tip n : Nat) :
    ∃ fee' tip', (newDefaultTransactionPricePolicy gasPricePercentage cap pct).reprice^[n]
      (.dynamicFee fee tip) = .dynamicFee fee' tip' ∧ fee' ≤ cap := by
  induction n with
  | zero => exact ⟨fee, tip, rfl, hfee⟩
  | succ n ih =>
    obtain ⟨fee', tip', hn, -⟩ := ih
    exact ⟨_, _, by rw [Function.iterate_succ_apply', hn, reprice_eq _ hcap hpct], by omega⟩

theorem reprice_iff (hint : pct < 2 ^ 63) (hfee : fee ≤ cap) (tip : Nat) :
    let tx := TxPrice.dynamicFee fee tip
    let tx' := (newDefaultTransactionPricePolicy gasPricePercentage cap pct).reprice tx
    InOrder cap tx' ∧ Outbids cap tx tx' ↔ HasRoom cap pct tx := by
  have hgrowth : 11 * tip < 10 * inc tip pct ↔
      pct = 10 ∨ 100 * (11 * tip / 10 + 1) ≤ tip * (100 + pct) := by
    rw [inc_eq hint]
    split
    next h => subst h; omega
    next h => simp only [h, false_or]; omega
  intro tx tx'
  have htx' : tx' = .dynamicFee (min (fee * 110 / 100 + 2) cap) (inc tip pct) :=
    reprice_eq gasPricePercentage hcap hpct
  rw [htx']
  show (inc tip pct ≤ _ ∧ _ ≤ cap) ∧ (fee = cap ∨ 11 * fee < 10 * _ ∧ 11 * tip < 10 * inc tip pct) ↔
    _ ≤ _ ∧ (fee = cap ∨ _)
  rw [hgrowth, inc_eq hint]
  omega

/-- A tip that grows once grows on, past every bound. -/
theorem le_iterate_tip (hint : pct < 2 ^ 63) (hgrows : tip < inc tip pct) (fee n : Nat) :
    ∃ fee' tip', (newDefaultTransactionPricePolicy gasPricePercentage cap pct).reprice^[n]
      (.dynamicFee fee tip) = .dynamicFee fee' tip' ∧ tip + n ≤ tip' := by
  have hstep : ∀ t, tip ≤ t → t < inc t pct := by
    intro t ht
    rw [inc_eq hint] at hgrows ⊢
    have hmul := Nat.mul_le_mul_right pct ht
    rw [Nat.mul_add] at hgrows ⊢
    split
    · omega
    next h =>
      rw [if_neg h] at hgrows
      omega
  induction n with
  | zero => exact ⟨fee, tip, rfl, Nat.le_refl _⟩
  | succ n ih =>
    obtain ⟨fee', tip', hn, hle⟩ := ih
    refine ⟨_, _, by rw [Function.iterate_succ_apply', hn, reprice_eq _ hcap hpct], ?_⟩
    have := hstep tip' (by omega)
    omega

end Sequence

end PricePolicy

open PricePolicy

/-- **Replacement prices.** Up to the n-th replacement everything is as it should be exactly if each
    replaced transaction had room. For the whole sequence that is so exactly if the first fee cap
    is the configured one and the tip never grows. -/
theorem replacement_prices (gasPricePercentage cap pct fee tip : Nat) (hcap : 0 < cap)
    (hpct : 10 ≤ pct) (hint : pct < 2 ^ 63) (htip : tip ≤ fee) (hfee : fee ≤ cap) :
    let reprice := (newDefaultTransactionPricePolicy gasPricePercentage cap pct).reprice
    let tx n := reprice^[n] (.dynamicFee fee tip)
    (∀ n, (∀ k < n, InOrder cap (tx (k + 1)) ∧ Outbids cap (tx k) (tx (k + 1))) ↔
      ∀ k < n, HasRoom cap pct (tx k)) ∧
    ((∀ n, InOrder cap (tx n) ∧ Outbids cap (tx n) (tx (n + 1))) ↔
      fee = cap ∧ pct ≠ 10 ∧ tip * pct < 100) := by
  intro reprice tx
  refine ⟨fun n => forall₂_congr fun k _ => ?_, ?_, ?_⟩
  · obtain ⟨fee', tip', hk, hle⟩ := exists_iterate gasPricePercentage hcap hpct hfee tip k
    have hstep := reprice_iff gasPricePercentage hcap hpct hint hle tip'
    simp only [← hk] at hstep
    simp only [tx, Function.iterate_succ_apply']
    exact hstep
  · intro hall
    have hfixed : ¬ tip < inc tip pct := by
      intro hgrows
      obtain ⟨fee', tip', hn, hle⟩ :=
        le_iterate_tip gasPricePercentage hcap hpct hint hgrows fee (cap + 1)
      have horder : InOrder cap (.dynamicFee fee' tip') := hn ▸ (hall (cap + 1)).1
      obtain ⟨_, _⟩ : tip' ≤ fee' ∧ fee' ≤ cap := horder
      omega
    have hfirst := (hall 0).2
    simp only [tx, Function.iterate_succ_apply', Function.iterate_zero, id, reprice,
      reprice_eq gasPricePercentage hcap hpct] at hfirst
    have hreached : fee = cap := by
      rcases (hfirst : fee = cap ∨ _ ∧ 11 * tip < 10 * inc tip pct) with h | ⟨-, h⟩
      · exact h
      · omega
    rw [inc_eq hint, Nat.mul_add] at hfixed
    split at hfixed
    · omega
    · exact ⟨hreached, ‹_›, by omega⟩
  · rintro ⟨rfl, hten, hsmall⟩ n
    have hfixed : inc tip pct = tip := by
      rw [inc_eq hint, if_neg hten, Nat.mul_add]
      omega
    have hsame : reprice (.dynamicFee fee tip) = .dynamicFee fee tip := by
      simp only [reprice, reprice_eq gasPricePercentage hcap hpct, hfixed]
      congr 1
      omega
    have htx : ∀ n, tx n = .dynamicFee fee tip := fun n => Function.iterate_fixed hsame n
    rw [htx, htx]
    exact ⟨⟨htip, hfee⟩, .inl rfl⟩

theorem replacement_prices_fixed :
    let reprice := (newDefaultTransactionPricePolicy 0 1000 20).reprice
    ∀ n, InOrder 1000 (reprice^[n] (.dynamicFee 1000 4)) ∧
      Outbids 1000 (reprice^[n] (.dynamicFee 1000 4)) (reprice^[n + 1] (.dynamicFee 1000 4)) :=
  (replacement_prices 0 1000 20 1000 4 (by decide) (by decide) (by decide) (by decide)
    (by decide)).2.2 (by decide)

/-- Where fee cap and tip are the configured fee cap, the next tip is over it. A fee cap close to it
    grows by 5 percent, and a tip of 9 does not grow with a percentage of 11. -/
theorem replacement_prices_violated :
    let reprice (cap pct fee tip : Nat) :=
      (newDefaultTransactionPricePolicy 0 cap pct).reprice ⟨none, some fee, some tip⟩
    reprice 100 10 100 100 = ⟨none, some 100, some 111⟩ ∧
      reprice 100 10 95 50 = ⟨none, some 100, some 56⟩ ∧
      reprice 100 11 50 9 = ⟨none, some 57, some 9⟩ := by
  decide

end River.Node
