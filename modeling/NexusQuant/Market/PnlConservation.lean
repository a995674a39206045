import Mathlib.Tactic.LinearCombination
import NexusQuant.Market.BookIdentities

/-!
# Conservation of profit

A fill trades at its own price, so at that price it can move value between what is realized and what
is still open, but make none.  In exact numbers this holds in each branch of `basisAfter`; what is
stored is rounded, the realized profit to two places and the basis to eight.
-/

namespace NexusQuant.Market

open Execution Rounding

/-- The realized profit and what closing the position at `price` would add to it. -/
def markedValue (p : Position) (price : ℚ) : ℚ :=
  parseDecimal p.realizedPnl + parseDecimal p.netQty * (price - parseDecimal p.avgEntryPrice)

section Basis

variable {cur a realized f price : ℚ}

theorem abs_eq_mul_mathSign (x : ℚ) : |x| = x * mathSign x := by
  unfold mathSign
  by_cases hneg : x < 0
  · rw [if_pos hneg, abs_of_neg hneg, mul_neg_one]
  · rw [if_neg hneg, abs_of_nonneg (not_lt.mp hneg)]
    by_cases hpos : x > 0
    · rw [if_pos hpos, mul_one]
    · rw [if_neg hpos, mul_zero]
      exact le_antisymm (not_lt.mp hpos) (not_lt.mp hneg)

theorem mathSign_mul_self {x : ℚ} (hx : x ≠ 0) : mathSign x * mathSign x = 1 := by
  unfold mathSign
  rcases lt_or_gt_of_ne hx with hneg | hpos
  · rw [if_pos hneg]
    norm_num
  · rw [if_neg (not_lt.mpr hpos.le), if_pos hpos]
    norm_num

theorem mathSign_opposite {x y : ℚ} (hx : x ≠ 0) (hy : y ≠ 0) (h : mathSign x ≠ mathSign y) :
    mathSign y = -mathSign x := by
  unfold mathSign at *
  rcases lt_or_gt_of_ne hx with hxneg | hxpos <;> rcases lt_or_gt_of_ne hy with hyneg | hypos
  · simp [hxneg, hyneg] at h
  · simp [hxneg, hypos, not_lt.mpr hypos.le]
  · simp [hxpos, hyneg, not_lt.mpr hxpos.le]
  · simp [hxpos, hypos, not_lt.mpr hxpos.le, not_lt.mpr hypos.le] at h

/-- The weighted average is the price at which both parts are worth what they were worth apart. -/
theorem average_conserves {x y : ℚ} (hsum : x + y ≠ 0) :
    (x + y) * (price - (x * a + y * price) / (x + y)) = x * (price - a) := by
  rw [mul_sub, mul_div_cancel₀ _ hsum]
  ring

/-- Before anything is rounded, a fill makes nothing: opening and adding realize nothing, and what a
reduction realizes is what the closed part was worth. -/
theorem basisAfter_conserves (hf : f ≠ 0) (hflat : |cur| ≤ qtyEpsilon → cur = 0) :
    (basisAfter cur a realized f price).2 +
        (cur + f) * (price - (basisAfter cur a realized f price).1) =
      realized + cur * (price - a) := by
  unfold basisAfter
  simp only [Arithmetic.rounded_exact]
  by_cases hopen : |cur| ≤ qtyEpsilon
  · rw [if_pos hopen, hflat hopen]
    dsimp only
    ring
  · have hcur : cur ≠ 0 := by
      intro hzero
      apply hopen
      rw [hzero]
      norm_num [qtyEpsilon]
    rw [if_neg hopen]
    by_cases hsign : mathSign cur = mathSign f
    · rw [if_pos hsign]
      dsimp only
      -- The sizes carry the common sign of the two quantities.
      have hsizes : |cur| + |f| ≠ 0 := (add_pos (abs_pos.mpr hcur) (abs_pos.mpr hf)).ne'
      have hheld : cur + f = mathSign cur * (|cur| + |f|) := by
        rw [abs_eq_mul_mathSign, abs_eq_mul_mathSign f, ← hsign]
        linear_combination (-(cur + f)) * mathSign_mul_self hcur
      rw [hheld, mul_assoc, average_conserves hsizes, abs_eq_mul_mathSign]
      linear_combination (cur * (price - a)) * mathSign_mul_self hcur
    · rw [if_neg hsign]
      have hopposite := mathSign_opposite hcur hf hsign
      by_cases hreduce : |f| < |cur|
      · rw [if_pos hreduce, min_eq_left hreduce.le, abs_eq_mul_mathSign, hopposite]
        linear_combination (-(f * (price - a))) * mathSign_mul_self hcur
      · rw [if_neg hreduce, min_eq_right (not_lt.mp hreduce)]
        -- All of the old quantity is closed, and what is left was bought at the price.
        have hclosed : |cur| * (price - a) * mathSign cur = cur * (price - a) := by
          rw [abs_eq_mul_mathSign]
          linear_combination (cur * (price - a)) * mathSign_mul_self hcur
        rw [hclosed]
        by_cases hflip : |f| > |cur|
        · rw [if_pos hflip]
          dsimp only
          ring
        · rw [if_neg hflip]
          have hsize : |f| = |cur| := le_antisymm (not_lt.mp hflip) (not_lt.mp hreduce)
          have hnothing : cur + f = 0 := by
            rcases abs_eq_abs.mp hsize with heq | heq
            · rw [heq] at hsign
              exact absurd rfl hsign
            · rw [heq, add_neg_cancel]
          rw [hnothing]
          dsimp only
          ring

end Basis

/-- The basis and the realized profit after a fill, before either is rounded. -/
def exactAfter (p : Position) (fill : Fill) : ℚ × ℚ :=
  basisAfter (parseDecimal p.netQty) (parseDecimal p.avgEntryPrice) (parseDecimal p.realizedPnl)
    (signedFillQty fill) (parseDecimal fill.price)

theorem realizedPnl_sub_exactAfter_le (p : Position) (fill : Fill) :
    |parseDecimal (applyFill p fill).realizedPnl - (exactAfter p fill).2| ≤
      1 / 2 / 10 ^ notionalDp := by
  have hrounded : parseDecimal (applyFill p fill).realizedPnl =
      roundTo notionalDp (exactAfter p fill).2 := parseDecimal_quantizePnl _
  rw [hrounded]
  exact abs_roundTo_sub_le notionalDp _

/-- The stored basis is off by its own rounding only, unless nothing is held. -/
theorem netQty_mul_avgEntryPrice_sub_le {p : Position} {fill : Fill}
    (hnet : parseDecimal p.netQty ∈ grid qtyDp) (hqty : parseDecimal fill.qty ∈ grid qtyDp) :
    |parseDecimal (applyFill p fill).netQty *
        (parseDecimal (applyFill p fill).avgEntryPrice - (exactAfter p fill).1)| ≤
      |parseDecimal (applyFill p fill).netQty| * (1 / 2 / 10 ^ priceDp) := by
  have havg : parseDecimal (applyFill p fill).avgEntryPrice = roundTo priceDp
      (if |parseDecimal p.netQty + signedFillQty fill| ≤ qtyEpsilon then 0
        else (exactAfter p fill).1) := parseDecimal_quantizePrice _
  rw [abs_mul, applyFill_netQty hnet hqty, havg]
  by_cases hflat : |parseDecimal p.netQty + signedFillQty fill| ≤ qtyEpsilon
  · have hmem : parseDecimal p.netQty + signedFillQty fill ∈ grid qtyDp := by
      rw [← applyFill_netQty hnet hqty]
      exact parseDecimal_mem_grid (canonical_applyFill p fill).netQty
    rw [eq_zero_of_le_qtyEpsilon hmem hflat]
    simp
  · rw [if_neg hflat]
    exact mul_le_mul_of_nonneg_left (abs_roundTo_sub_le priceDp _) (abs_nonneg _)

/-- Marked at the price of the fill, a position is worth after it what it was worth before, up to
the rounding of one amount of capital and of one price for all that is held. -/
theorem applyFill_conserves_markedValue {p : Position} {fill : Fill}
    (hnet : isCanonicalDecimalString p.netQty qtyDp) (hfill : PositiveFill fill) :
    |markedValue (applyFill p fill) (parseDecimal fill.price) -
        markedValue p (parseDecimal fill.price)| ≤
      5 / 1000 + |parseDecimal (applyFill p fill).netQty| * (1 / 2 / 10 ^ 8) := by
  have hcur := parseDecimal_mem_grid hnet
  have hqty := parseDecimal_mem_grid hfill.qty
  have hexact : (exactAfter p fill).2 + (parseDecimal p.netQty + signedFillQty fill) *
      (parseDecimal fill.price - (exactAfter p fill).1) = markedValue p (parseDecimal fill.price) :=
    basisAfter_conserves hfill.signed_ne_zero (eq_zero_of_le_qtyEpsilon hcur)
  rw [← applyFill_netQty hcur hqty] at hexact
  -- The two roundings are all that separates the stored value from the exact one.
  have hdifference : markedValue (applyFill p fill) (parseDecimal fill.price) -
      markedValue p (parseDecimal fill.price) =
      (parseDecimal (applyFill p fill).realizedPnl - (exactAfter p fill).2) -
        parseDecimal (applyFill p fill).netQty *
          (parseDecimal (applyFill p fill).avgEntryPrice - (exactAfter p fill).1) := by
    rw [← hexact]
    unfold markedValue
    ring
  calc |markedValue (applyFill p fill) (parseDecimal fill.price) -
          markedValue p (parseDecimal fill.price)|
      ≤ 1 / 2 / 10 ^ notionalDp +
          |parseDecimal (applyFill p fill).netQty| * (1 / 2 / 10 ^ priceDp) := by
        rw [hdifference]
        apply (abs_sub _ _).trans
        exact add_le_add (realizedPnl_sub_exactAfter_le p fill)
          (netQty_mul_avgEntryPrice_sub_le hcur hqty)
    _ = 5 / 1000 + |parseDecimal (applyFill p fill).netQty| * (1 / 2 / 10 ^ 8) := by
        norm_num [notionalDp, priceDp]

/-- A short of two sold at 100.33333333, bought back with one and a half more at 90.00000007. -/
theorem applyFill_conserves_markedValue_flip :
    |markedValue (applyFill ⟨"BTC", "-2.00000000", "100.33333333", "-1.25", "101.00000000"⟩
          (fillOf "BTC" .buy "3.50000000" "90.00000007")) (parseDecimal "90.00000007") -
        markedValue ⟨"BTC", "-2.00000000", "100.33333333", "-1.25", "101.00000000"⟩
          (parseDecimal "90.00000007")| ≤
      5 / 1000 + |parseDecimal (applyFill ⟨"BTC", "-2.00000000", "100.33333333", "-1.25",
        "101.00000000"⟩ (fillOf "BTC" .buy "3.50000000" "90.00000007")).netQty| *
          (1 / 2 / 10 ^ 8) := by
  apply applyFill_conserves_markedValue
  · decide +kernel
  · constructor <;> decide +kernel

end NexusQuant.Market
