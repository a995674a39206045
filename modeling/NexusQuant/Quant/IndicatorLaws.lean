import NexusQuant.Lib.Fallible
import NexusQuant.Lib.Smoothing
import NexusQuant.Quant.CoreTechnical

/-!
# What the indicators promise

Every average of the vector is an exponential smoothing that starts from a mean, with the share
`2 / (period + 1)` or Wilder's `1 / period`; the laws of the indicators are those of the smoothing,
read on closes, on gains and losses, and on true ranges.
-/

namespace NexusQuant.Quant

open Smoothing

/-! ## The averages as smoothings -/

theorem seed_eq_mean {values : List ℚ} {period : ℕ} (h : period ≤ values.length) :
    seed values period = mean (values.take period) := by
  rw [seed, mean, List.length_take_of_le h]

theorem ema_eq_seeded {closes : List ℚ} {period : ℕ} (h : period ≤ closes.length) :
    ema closes period = seeded (2 / ((period : ℚ) + 1)) period closes := by
  rw [ema, seed_eq_mean h]
  rfl

theorem wilderStep_eq {period : ℕ} (hperiod : 0 < period) (avg value : ℚ) :
    wilderStep period avg value = (value - avg) * (1 / period) + avg := by
  have hne : (period : ℚ) ≠ 0 := Nat.cast_ne_zero.mpr hperiod.ne'
  unfold wilderStep
  field_simp
  ring

theorem wilder_eq_seeded {values : List ℚ} {period : ℕ} (hperiod : 0 < period)
    (h : period ≤ values.length) :
    (values.drop period).foldl (wilderStep period) (seed values period) =
      seeded (1 / (period : ℚ)) period values := by
  have hstep : wilderStep period = fun e x => (x - e) * (1 / (period : ℚ)) + e := by
    ext avg value
    exact wilderStep_eq hperiod avg value
  rw [seed_eq_mean h, hstep]
  rfl

theorem foldl_zip {f : ℚ → ℚ → ℚ} {a b : ℚ} {xs ys : List ℚ} (h : xs.length = ys.length) :
    (xs.zip ys).foldl (fun avg move => (f avg.1 move.1, f avg.2 move.2)) (a, b) =
      (xs.foldl f a, ys.foldl f b) := by
  induction xs generalizing ys a b with
  | nil =>
      rw [List.length_eq_zero_iff.mp h.symm]
      rfl
  | cons x xs ih =>
      cases ys with
      | nil => cases h
      | cons y ys => exact ih (Nat.succ.inj h)

/-! ## Changes -/

theorem length_diff (closes : List ℚ) : (diff closes).length = closes.length - 1 := by
  rw [diff, List.length_zipWith, List.length_tail, min_eq_left (Nat.sub_le _ 1)]

theorem diff_map {f g : ℚ → ℚ} (h : ∀ a b, f a - f b = g (a - b)) (closes : List ℚ) :
    diff (closes.map f) = (diff closes).map g := by
  rw [diff, ← List.map_tail, List.zipWith_map, diff, List.map_zipWith]
  congr 1
  ext a b
  exact h a b

theorem gains_nonneg {closes : List ℚ} : ∀ g ∈ gains closes, 0 ≤ g := by
  intro g hg
  obtain ⟨d, -, rfl⟩ := List.mem_map.mp hg
  split
  · rename_i h
    exact h.le
  · exact le_rfl

theorem losses_nonneg {closes : List ℚ} : ∀ l ∈ losses closes, 0 ≤ l := by
  intro l hl
  obtain ⟨d, -, rfl⟩ := List.mem_map.mp hl
  split
  · rename_i h
    exact (neg_pos.mpr h).le
  · exact le_rfl

theorem exists_gain_iff {closes : List ℚ} : (∃ g ∈ gains closes, 0 < g) ↔ ∃ d ∈ diff closes, 0 < d := by
  constructor
  · rintro ⟨g, hg, hpos⟩
    obtain ⟨d, hd, rfl⟩ := List.mem_map.mp hg
    by_cases h : 0 < d
    · exact ⟨d, hd, h⟩
    · rw [if_neg h] at hpos
      exact absurd hpos (lt_irrefl 0)
  · rintro ⟨d, hd, hpos⟩
    exact ⟨_, List.mem_map_of_mem hd, by rwa [if_pos hpos]⟩

theorem exists_loss_iff {closes : List ℚ} : (∃ l ∈ losses closes, 0 < l) ↔ ∃ d ∈ diff closes, d < 0 := by
  constructor
  · rintro ⟨l, hl, hpos⟩
    obtain ⟨d, hd, rfl⟩ := List.mem_map.mp hl
    by_cases h : d < 0
    · exact ⟨d, hd, h⟩
    · rw [if_neg h] at hpos
      exact absurd hpos (lt_irrefl 0)
  · rintro ⟨d, hd, hneg⟩
    exact ⟨_, List.mem_map_of_mem hd, by rw [if_pos hneg]; exact neg_pos.mpr hneg⟩

/-! ## The index of relative strength -/

/-- The index of two averages. -/
def rsiOf (gain loss : ℚ) : ℚ :=
  if gain = 0 ∧ loss = 0 then 50 else if loss = 0 then 100 else 100 - 100 / (1 + gain / loss)

theorem rsiOf_eq {gain loss : ℚ} (hgain : 0 ≤ gain) (hloss : 0 < loss) :
    rsiOf gain loss = 100 * gain / (gain + loss) := by
  have hsum : gain + loss ≠ 0 := by linarith
  have hne : loss ≠ 0 := hloss.ne'
  have hden : 1 + gain / loss = (gain + loss) / loss := by
    rw [add_div, div_self hne, add_comm]
  rw [rsiOf, if_neg (fun h => hne h.2), if_neg hne, hden, div_div_eq_mul_div]
  field_simp
  ring

theorem rsiOf_of_loss_eq_zero {gain : ℚ} (hgain : 0 < gain) : rsiOf gain 0 = 100 := by
  rw [rsiOf, if_neg (fun h => hgain.ne' h.1), if_pos rfl]

theorem rsiOf_zero : rsiOf 0 0 = 50 := if_pos ⟨rfl, rfl⟩

variable {gain loss : ℚ}

theorem rsiOf_mem (hgain : 0 ≤ gain) (hloss : 0 ≤ loss) : 0 ≤ rsiOf gain loss ∧ rsiOf gain loss ≤ 100 := by
  rcases hloss.eq_or_lt with rfl | hpos
  · rcases hgain.eq_or_lt with rfl | hgpos
    · rw [rsiOf_zero]
      norm_num
    · rw [rsiOf_of_loss_eq_zero hgpos]
      norm_num
  · rw [rsiOf_eq hgain hpos]
    constructor
    · positivity
    · rw [div_le_iff₀ (by linarith)]
      linarith

theorem rsiOf_eq_hundred_iff (hgain : 0 ≤ gain) (hloss : 0 ≤ loss) :
    rsiOf gain loss = 100 ↔ 0 < gain ∧ ¬0 < loss := by
  rcases hloss.eq_or_lt with rfl | hpos
  · rcases hgain.eq_or_lt with rfl | hgpos
    · rw [rsiOf_zero]
      norm_num
    · exact iff_of_true (rsiOf_of_loss_eq_zero hgpos) ⟨hgpos, lt_irrefl 0⟩
  · apply iff_of_false
    · rw [rsiOf_eq hgain hpos, div_eq_iff (by linarith)]
      intro h
      linarith
    · exact fun h => h.2 hpos

theorem rsiOf_eq_zero_iff (hgain : 0 ≤ gain) (hloss : 0 ≤ loss) :
    rsiOf gain loss = 0 ↔ 0 < loss ∧ ¬0 < gain := by
  rcases hloss.eq_or_lt with rfl | hpos
  · rcases hgain.eq_or_lt with rfl | hgpos
    · rw [rsiOf_zero]
      norm_num
    · rw [rsiOf_of_loss_eq_zero hgpos]
      norm_num
  · rw [rsiOf_eq hgain hpos, div_eq_zero_iff, not_lt]
    constructor
    · rintro (h | h)
      · exact ⟨hpos, by linarith⟩
      · linarith
    · intro h
      left
      linarith [h.2]

/-- Gains and losses changing places mirror the index. -/
theorem rsiOf_swap (hgain : 0 ≤ gain) (hloss : 0 ≤ loss) : rsiOf loss gain = 100 - rsiOf gain loss := by
  rcases hloss.eq_or_lt with rfl | hlpos
  · rcases hgain.eq_or_lt with rfl | hgpos
    · rw [rsiOf_zero]
      norm_num
    · rw [rsiOf_of_loss_eq_zero hgpos, rsiOf_eq le_rfl hgpos]
      norm_num
  · rcases hgain.eq_or_lt with rfl | hgpos
    · rw [rsiOf_of_loss_eq_zero hlpos, rsiOf_eq le_rfl hlpos]
      norm_num
    · rw [rsiOf_eq hgain hlpos, rsiOf_eq hloss hgpos, add_comm loss gain]
      have hsum : gain + loss ≠ 0 := by linarith
      field_simp
      ring

theorem rsiOf_mul {c : ℚ} (hc : c ≠ 0) : rsiOf (c * gain) (c * loss) = rsiOf gain loss := by
  simp only [rsiOf, mul_eq_zero, hc, false_or, mul_div_mul_left _ _ hc]

/-! ## The two averages -/

def avgGain (closes : List ℚ) (period : ℕ) : ℚ := seeded (1 / (period : ℚ)) period (gains closes)

def avgLoss (closes : List ℚ) (period : ℕ) : ℚ := seeded (1 / (period : ℚ)) period (losses closes)

variable {closes : List ℚ} {period : ℕ}

theorem length_gains : (gains closes).length = closes.length - 1 := by
  rw [gains, List.length_map, length_diff]

theorem length_losses : (losses closes).length = closes.length - 1 := by
  rw [losses, List.length_map, length_diff]

theorem rsiWilder_eq (hperiod : 0 < period) (h : period < closes.length) :
    rsiWilder closes period = rsiOf (avgGain closes period) (avgLoss closes period) := by
  have hlength : ((gains closes).drop period).length = ((losses closes).drop period).length := by
    rw [List.length_drop, List.length_drop, length_gains, length_losses]
  have hzip : ((gains closes).zip (losses closes)).drop period =
      ((gains closes).drop period).zip ((losses closes).drop period) := List.drop_zipWith
  have hgains := wilder_eq_seeded hperiod (by rw [length_gains]; omega : period ≤ (gains closes).length)
  have hlosses := wilder_eq_seeded hperiod
    (by rw [length_losses]; omega : period ≤ (losses closes).length)
  unfold rsiWilder
  dsimp only
  rw [hzip, foldl_zip hlength, hgains, hlosses]
  rfl

theorem share_bounds (hperiod : 1 < period) : (0 : ℚ) < 1 / period ∧ 1 / (period : ℚ) < 1 := by
  have hp : (1 : ℚ) < period := Nat.one_lt_cast.mpr hperiod
  exact ⟨by positivity, (div_lt_one (by linarith)).mpr hp⟩

theorem gains_ne_nil (h : 1 < closes.length) : gains closes ≠ [] ∧ losses closes ≠ [] := by
  constructor
  · apply List.ne_nil_of_length_pos
    rw [length_gains]
    omega
  · apply List.ne_nil_of_length_pos
    rw [length_losses]
    omega

section Averages

variable (hperiod : 1 < period) (h : 1 < closes.length)

include hperiod h

theorem avgGain_nonneg : 0 ≤ avgGain closes period := by
  obtain ⟨hlow, hhigh⟩ := share_bounds hperiod
  exact le_seeded hlow.le hhigh.le (by omega) (gains_ne_nil h).1 gains_nonneg

theorem avgLoss_nonneg : 0 ≤ avgLoss closes period := by
  obtain ⟨hlow, hhigh⟩ := share_bounds hperiod
  exact le_seeded hlow.le hhigh.le (by omega) (gains_ne_nil h).2 losses_nonneg

theorem avgGain_pos_iff : 0 < avgGain closes period ↔ ∃ d ∈ diff closes, 0 < d := by
  obtain ⟨hlow, hhigh⟩ := share_bounds hperiod
  rw [← exists_gain_iff]
  exact seeded_pos_iff hlow hhigh (by omega) (gains_ne_nil h).1 gains_nonneg

theorem avgLoss_pos_iff : 0 < avgLoss closes period ↔ ∃ d ∈ diff closes, d < 0 := by
  obtain ⟨hlow, hhigh⟩ := share_bounds hperiod
  rw [← exists_loss_iff]
  exact seeded_pos_iff hlow hhigh (by omega) (gains_ne_nil h).2 losses_nonneg

end Averages

section Strength

variable (hperiod : 1 < period) (h : period < closes.length)

include hperiod h

theorem rsi_mem : 0 ≤ rsiWilder closes period ∧ rsiWilder closes period ≤ 100 := by
  rw [rsiWilder_eq (by omega) h]
  exact rsiOf_mem (avgGain_nonneg hperiod (by omega)) (avgLoss_nonneg hperiod (by omega))

theorem rsi_eq_hundred_iff : rsiWilder closes period = 100 ↔
    (∃ d ∈ diff closes, 0 < d) ∧ ¬∃ d ∈ diff closes, d < 0 := by
  rw [rsiWilder_eq (by omega) h, rsiOf_eq_hundred_iff (avgGain_nonneg hperiod (by omega))
    (avgLoss_nonneg hperiod (by omega)), avgGain_pos_iff hperiod (by omega),
    avgLoss_pos_iff hperiod (by omega)]

theorem rsi_eq_zero_iff : rsiWilder closes period = 0 ↔
    (∃ d ∈ diff closes, d < 0) ∧ ¬∃ d ∈ diff closes, 0 < d := by
  rw [rsiWilder_eq (by omega) h, rsiOf_eq_zero_iff (avgGain_nonneg hperiod (by omega))
    (avgLoss_nonneg hperiod (by omega)), avgGain_pos_iff hperiod (by omega),
    avgLoss_pos_iff hperiod (by omega)]

/-- A series without a change. -/
theorem rsi_of_flat (hflat : ∀ d ∈ diff closes, d = 0) : rsiWilder closes period = 50 := by
  have hgain : avgGain closes period = 0 := by
    apply le_antisymm _ (avgGain_nonneg hperiod (by omega))
    rw [← not_lt, avgGain_pos_iff hperiod (by omega)]
    rintro ⟨d, hd, hpos⟩
    exact hpos.ne' (hflat d hd)
  have hloss : avgLoss closes period = 0 := by
    apply le_antisymm _ (avgLoss_nonneg hperiod (by omega))
    rw [← not_lt, avgLoss_pos_iff hperiod (by omega)]
    rintro ⟨d, hd, hneg⟩
    exact hneg.ne (hflat d hd)
  rw [rsiWilder_eq (by omega) h, hgain, hloss, rsiOf_zero]

/-- Reflected closes change the other way. -/
theorem rsi_reflect (m : ℚ) : rsiWilder (closes.map (m - ·)) period = 100 - rsiWilder closes period := by
  have hdiff : diff (closes.map (m - ·)) = (diff closes).map (- ·) :=
    diff_map (fun a b => by ring) closes
  have hgains : gains (closes.map (m - ·)) = losses closes := by
    rw [gains, hdiff, List.map_map, losses]
    apply List.map_congr_left
    intro d _
    simp only [Function.comp_apply, neg_pos]
  have hlosses : losses (closes.map (m - ·)) = gains closes := by
    rw [losses, hdiff, List.map_map, gains]
    apply List.map_congr_left
    intro d _
    simp only [Function.comp_apply, neg_lt_zero, neg_neg]
  have hgain : avgGain (closes.map (m - ·)) period = avgLoss closes period := by
    rw [avgGain, hgains, avgLoss]
  have hloss : avgLoss (closes.map (m - ·)) period = avgGain closes period := by
    rw [avgLoss, hlosses, avgGain]
  rw [rsiWilder_eq (by omega) (by rwa [List.length_map]), rsiWilder_eq (by omega) h, hgain, hloss,
    rsiOf_swap (avgGain_nonneg hperiod (by omega)) (avgLoss_nonneg hperiod (by omega))]

theorem rsi_mul {c : ℚ} (hc : 0 < c) : rsiWilder (closes.map (c * ·)) period = rsiWilder closes period := by
  have hdiff : diff (closes.map (c * ·)) = (diff closes).map (c * ·) :=
    diff_map (fun a b => (mul_sub c a b).symm) closes
  have hgains : gains (closes.map (c * ·)) = (gains closes).map (c * ·) := by
    rw [gains, hdiff, List.map_map, gains, List.map_map]
    apply List.map_congr_left
    intro d _
    simp only [Function.comp_apply, mul_pos_iff_of_pos_left hc, mul_ite, mul_zero]
  have hlosses : losses (closes.map (c * ·)) = (losses closes).map (c * ·) := by
    rw [losses, hdiff, List.map_map, losses, List.map_map]
    apply List.map_congr_left
    intro d _
    have hneg : c * d < 0 ↔ d < 0 := by
      rw [← neg_pos, ← mul_neg, mul_pos_iff_of_pos_left hc, neg_pos]
    simp only [Function.comp_apply, hneg, mul_ite, mul_zero, mul_neg]
  have hgain : avgGain (closes.map (c * ·)) period = c * avgGain closes period := by
    rw [avgGain, hgains, seeded_mul, avgGain]
  have hloss : avgLoss (closes.map (c * ·)) period = c * avgLoss closes period := by
    rw [avgLoss, hlosses, seeded_mul, avgLoss]
  rw [rsiWilder_eq (by omega) (by rwa [List.length_map]), rsiWilder_eq (by omega) h, hgain, hloss,
    rsiOf_mul hc.ne']

end Strength

end NexusQuant.Quant
