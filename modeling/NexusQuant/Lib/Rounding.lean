import Mathlib.Data.Rat.Floor
import Mathlib.Algebra.Order.Round
import Mathlib.Algebra.Group.Subgroup.ZPowers.Basic
import Mathlib.Tactic.Linarith
import Mathlib.Tactic.Ring
import Mathlib.Tactic.FieldSimp
import Mathlib.Tactic.NormNum
import Mathlib.Tactic.Positivity

/-!
# Rounding to a number of decimal places

`roundTo dp x` is the multiple of `10⁻ᵈᵖ` nearest to `x`, a tie going away from zero.  The multiples
themselves are the additive subgroup `grid dp` of the rationals, so that sums, differences and
negations of decimals with `dp` places are handled by Mathlib's subgroup lemmas.
-/

namespace Rounding

/-- The number of units of `10⁻ᵈᵖ` nearest to `x`, ties away from zero. -/
def units (dp : ℕ) (x : ℚ) : ℤ :=
  if x < 0 then -⌊-x * 10 ^ dp + 1 / 2⌋ else ⌊x * 10 ^ dp + 1 / 2⌋

def roundTo (dp : ℕ) (x : ℚ) : ℚ := units dp x / 10 ^ dp

/-- The decimals with `dp` places. -/
def grid (dp : ℕ) : AddSubgroup ℚ := AddSubgroup.zmultiples (1 / 10 ^ dp)

theorem pow_ten_pos (dp : ℕ) : (0 : ℚ) < 10 ^ dp := by positivity

theorem mem_grid {dp : ℕ} {x : ℚ} : x ∈ grid dp ↔ ∃ k : ℤ, x = k / 10 ^ dp := by
  rw [grid, AddSubgroup.mem_zmultiples_iff]
  constructor
  · rintro ⟨k, rfl⟩
    exact ⟨k, by rw [zsmul_eq_mul]; ring⟩
  · rintro ⟨k, rfl⟩
    exact ⟨k, by rw [zsmul_eq_mul]; ring⟩

theorem natCast_mem_grid (dp n : ℕ) : (n : ℚ) ∈ grid dp :=
  mem_grid.mpr ⟨n * 10 ^ dp, by push_cast; field_simp⟩

theorem roundTo_mem_grid (dp : ℕ) (x : ℚ) : roundTo dp x ∈ grid dp :=
  mem_grid.mpr ⟨units dp x, rfl⟩

theorem min_mem_grid {dp : ℕ} {x y : ℚ} (hx : x ∈ grid dp) (hy : y ∈ grid dp) :
    min x y ∈ grid dp := by
  rcases min_choice x y with h | h
  · rw [h]; exact hx
  · rw [h]; exact hy

theorem units_neg (dp : ℕ) (x : ℚ) : units dp (-x) = -units dp x := by
  unfold units
  rcases lt_trichotomy x 0 with hx | rfl | hx
  · rw [if_neg (by linarith), if_pos hx, neg_neg]
  · norm_num
  · rw [if_pos (by linarith), if_neg (by linarith), neg_neg]

theorem units_of_nonneg {dp : ℕ} {x : ℚ} (hx : 0 ≤ x) : units dp x = ⌊x * 10 ^ dp + 1 / 2⌋ :=
  if_neg (not_lt.mpr hx)

theorem roundTo_neg (dp : ℕ) (x : ℚ) : roundTo dp (-x) = -roundTo dp x := by
  rw [roundTo, roundTo, units_neg, Int.cast_neg, neg_div]

@[simp] theorem roundTo_zero (dp : ℕ) : roundTo dp 0 = 0 := by
  norm_num [roundTo, units]

theorem units_nonneg {dp : ℕ} {x : ℚ} (hx : 0 ≤ x) : 0 ≤ units dp x := by
  rw [units_of_nonneg hx]
  have hp := pow_ten_pos dp
  exact Int.floor_nonneg.mpr (by positivity)

theorem roundTo_nonneg {dp : ℕ} {x : ℚ} (hx : 0 ≤ x) : 0 ≤ roundTo dp x :=
  div_nonneg (Int.cast_nonneg (units_nonneg hx)) (pow_ten_pos dp).le

theorem units_mono (dp : ℕ) {x y : ℚ} (hxy : x ≤ y) : units dp x ≤ units dp y := by
  have hp := pow_ten_pos dp
  by_cases hx : 0 ≤ x
  · rw [units_of_nonneg hx, units_of_nonneg (hx.trans hxy)]
    exact Int.floor_le_floor (by nlinarith)
  · by_cases hy : 0 ≤ y
    · have hneg : 0 ≤ units dp (-x) := units_nonneg (by linarith)
      rw [units_neg] at hneg
      exact le_trans (by linarith) (units_nonneg hy)
    · unfold units
      rw [if_pos (by linarith), if_pos (by linarith)]
      exact neg_le_neg (Int.floor_le_floor (by nlinarith))

theorem roundTo_mono (dp : ℕ) {x y : ℚ} (hxy : x ≤ y) : roundTo dp x ≤ roundTo dp y :=
  div_le_div_of_nonneg_right (Int.cast_le.mpr (units_mono dp hxy)) (pow_ten_pos dp).le

theorem roundTo_pos_iff {dp : ℕ} {x : ℚ} : 0 < roundTo dp x ↔ 1 / 2 / 10 ^ dp ≤ x := by
  have hp := pow_ten_pos dp
  by_cases hx : 0 ≤ x
  · have hunits : 0 < roundTo dp x ↔ 0 < units dp x := by
      rw [roundTo, div_pos_iff_of_pos_right hp, Int.cast_pos]
    rw [hunits, units_of_nonneg hx, Int.floor_pos, div_le_iff₀ hp]
    constructor <;> intro h <;> linarith
  · have hneg : roundTo dp x ≤ 0 := roundTo_zero dp ▸ roundTo_mono dp (not_le.mp hx).le
    have hhalf : (0 : ℚ) < 1 / 2 / 10 ^ dp := by positivity
    constructor <;> intro h <;> linarith

/-- Two numbers that are not negative round to different decimals exactly when the midpoint of two
neighbouring decimals lies between them. -/
theorem roundTo_lt_roundTo_iff {dp : ℕ} {x y : ℚ} (hx : 0 ≤ x) (hy : 0 ≤ y) :
    roundTo dp x < roundTo dp y ↔
      ∃ k : ℤ, x < (k + 1 / 2) / 10 ^ dp ∧ (k + 1 / 2) / 10 ^ dp ≤ y := by
  have hp := pow_ten_pos dp
  rw [roundTo, roundTo, div_lt_div_iff_of_pos_right hp, Int.cast_lt, units_of_nonneg hx,
    units_of_nonneg hy]
  -- Rounding up at the midpoint: the decimals differ when the floors of the shifted numbers do.
  constructor
  · intro h
    refine ⟨⌊y * 10 ^ dp + 1 / 2⌋ - 1, ?_, ?_⟩
    · rw [lt_div_iff₀ hp]
      have := Int.floor_lt.mp h
      push_cast
      linarith
    · rw [div_le_iff₀ hp]
      have := Int.floor_le (y * 10 ^ dp + 1 / 2)
      push_cast
      linarith
  · rintro ⟨k, hlo, hhi⟩
    rw [lt_div_iff₀ hp] at hlo
    rw [div_le_iff₀ hp] at hhi
    have h₁ : ⌊x * 10 ^ dp + 1 / 2⌋ < k + 1 := Int.floor_lt.mpr (by push_cast; linarith)
    have h₂ : k + 1 ≤ ⌊y * 10 ^ dp + 1 / 2⌋ := Int.le_floor.mpr (by push_cast; linarith)
    linarith

/-- Of two numbers of the unit interval the greater one is rounded like the other exactly when every midpoint
it reaches is reached by the other. -/
theorem roundTo_eq_iff_levels {dp : ℕ} {x y : ℚ} (hx : 0 ≤ x) (hxy : x ≤ y) (hy : y ≤ 1) :
    roundTo dp y = roundTo dp x ↔
      ∀ m : ℕ, m < 10 ^ dp → ((m : ℚ) + 1 / 2) / 10 ^ dp ≤ y → ((m : ℚ) + 1 / 2) / 10 ^ dp ≤ x := by
  have hp := pow_ten_pos dp
  have heq : roundTo dp y = roundTo dp x ↔ ¬ roundTo dp x < roundTo dp y := by
    rw [not_lt]
    exact ⟨fun h => h.le, fun h => le_antisymm h (roundTo_mono dp hxy)⟩
  rw [heq, roundTo_lt_roundTo_iff hx (hx.trans hxy)]
  constructor
  · intro h m _ hreach
    by_contra hlt
    exact h ⟨m, by push_cast; exact not_le.mp hlt, by push_cast; exact hreach⟩
  · intro h hlevel
    obtain ⟨k, hlo, hhi⟩ := hlevel
    -- The midpoint is in the unit interval, so its number is a natural one below the power of ten.
    have hpos : 0 < (k : ℚ) + 1 / 2 := by
      by_contra hneg
      exact absurd hlo (not_lt.mpr ((div_nonpos_of_nonpos_of_nonneg (not_lt.mp hneg) hp.le).trans hx))
    have hone : (k : ℚ) + 1 / 2 ≤ 10 ^ dp := (div_le_one₀ hp).mp (hhi.trans hy)
    have hk : 0 ≤ k := by
      by_contra hneg
      have hcast : (k : ℚ) ≤ -1 := by exact_mod_cast (show k ≤ -1 by omega)
      linarith
    lift k to ℕ using hk
    have hlt : k < 10 ^ dp := by
      have hcast : (k : ℚ) < 10 ^ dp := by push_cast at hone; linarith
      exact_mod_cast hcast
    push_cast at hlo hhi
    exact absurd (h k hlt hhi) (not_le.mpr hlo)

/-- Two numbers of the unit interval are rounded alike exactly when they reach the same midpoints. -/
theorem roundTo_eq_iff_same_levels {dp : ℕ} {x y : ℚ} (hx : 0 ≤ x) (hx1 : x ≤ 1) (hy : 0 ≤ y)
    (hy1 : y ≤ 1) : roundTo dp y = roundTo dp x ↔
      ∀ m : ℕ, m < 10 ^ dp →
        (((m : ℚ) + 1 / 2) / 10 ^ dp ≤ y ↔ ((m : ℚ) + 1 / 2) / 10 ^ dp ≤ x) := by
  rcases le_total x y with hxy | hyx
  · rw [roundTo_eq_iff_levels hx hxy hy1]
    constructor
    · exact fun h m hm => ⟨h m hm, fun hreach => hreach.trans hxy⟩
    · exact fun h m hm => (h m hm).mp
  · rw [eq_comm, roundTo_eq_iff_levels hy hyx hx1]
    constructor
    · exact fun h m hm => ⟨fun hreach => hreach.trans hyx, h m hm⟩
    · exact fun h m hm => (h m hm).mpr

/-- What is rounded to a bound or above starts half a unit below the first decimal from that bound. -/
theorem le_roundTo_iff {dp : ℕ} {t x : ℚ} (hx : 0 ≤ x) :
    t ≤ roundTo dp x ↔ (⌈t * 10 ^ dp⌉ - 1 / 2) / 10 ^ dp ≤ x := by
  have hp := pow_ten_pos dp
  rw [roundTo, units_of_nonneg hx, le_div_iff₀ hp, ← Int.ceil_le, Int.le_floor, div_le_iff₀ hp]
  constructor <;> intro h <;> linarith

/-- A share and a greater one of the same weight are rounded alike exactly when no midpoint of two
neighbouring decimals lies between them. -/
theorem roundTo_mul_eq_iff {dp : ℕ} {w x y : ℚ} (hx : 0 ≤ x) (hxy : x ≤ y) :
    roundTo dp (w * y) = roundTo dp (w * x) ↔
      ¬ ∃ k : ℤ, |w| * x < (k + 1 / 2) / 10 ^ dp ∧ (k + 1 / 2) / 10 ^ dp ≤ |w| * y := by
  have hw := abs_nonneg w
  have hmul : |w| * x ≤ |w| * y := mul_le_mul_of_nonneg_left hxy hw
  rw [← roundTo_lt_roundTo_iff (mul_nonneg hw hx) (mul_nonneg hw (hx.trans hxy)), not_lt]
  -- The rounding is odd, so the sign of the weight does not matter.
  have habs : roundTo dp (w * y) = roundTo dp (w * x) ↔ roundTo dp (|w| * y) = roundTo dp (|w| * x) := by
    rcases abs_choice w with h | h
    · rw [h]
    · rw [h, neg_mul, neg_mul, roundTo_neg, roundTo_neg, neg_inj]
  rw [habs]
  constructor
  · exact fun h => h.le
  · exact fun h => le_antisymm h (roundTo_mono dp hmul)

/-- A decimal with `dp` places is its own rounding. -/
theorem roundTo_eq_self {dp : ℕ} {x : ℚ} (hx : x ∈ grid dp) : roundTo dp x = x := by
  obtain ⟨k, rfl⟩ := mem_grid.mp hx
  have hp := pow_ten_pos dp
  -- It is enough to treat one sign, the rounding being odd.
  have main : ∀ k : ℤ, 0 ≤ k → roundTo dp (k / 10 ^ dp : ℚ) = k / 10 ^ dp := by
    intro k hk
    have hnn : (0 : ℚ) ≤ (k : ℚ) / 10 ^ dp := div_nonneg (Int.cast_nonneg hk) hp.le
    rw [roundTo, units_of_nonneg hnn, div_mul_cancel₀ _ hp.ne', Int.floor_intCast_add]
    norm_num
  by_cases hk : 0 ≤ k
  · exact main k hk
  · have h := main (-k) (by omega)
    rw [Int.cast_neg, neg_div, roundTo_neg] at h
    exact neg_inj.mp h

/-- A positive decimal is at least one unit of the last place. -/
theorem le_of_pos_of_mem_grid {dp : ℕ} {x : ℚ} (hx : x ∈ grid dp) (hpos : 0 < x) :
    1 / 10 ^ dp ≤ x := by
  obtain ⟨k, rfl⟩ := mem_grid.mp hx
  have hp := pow_ten_pos dp
  have hk : 0 < k := by
    rw [div_pos_iff_of_pos_right hp] at hpos
    exact_mod_cast hpos
  apply div_le_div_of_nonneg_right _ hp.le
  exact_mod_cast hk

/-- A decimal less than one unit below zero is not negative. -/
theorem nonneg_of_neg_unit_lt {dp : ℕ} {x : ℚ} (hx : x ∈ grid dp) (h : -(1 / 10 ^ dp) < x) :
    0 ≤ x := by
  by_contra hneg
  have hle := le_of_pos_of_mem_grid ((grid dp).neg_mem hx) (by linarith)
  linarith

/-- A decimal below one unit of the last place is zero. -/
theorem eq_zero_of_abs_lt {dp : ℕ} {x : ℚ} (hx : x ∈ grid dp) (h : |x| < 1 / 10 ^ dp) : x = 0 := by
  by_contra hne
  have habs : |x| ∈ grid dp := by
    rcases abs_choice x with heq | heq
    · rw [heq]; exact hx
    · rw [heq]; exact (grid dp).neg_mem hx
  have hle := le_of_pos_of_mem_grid habs (abs_pos.mpr hne)
  linarith

/-- Rounding moves a number by at most half a unit of the last place. -/
theorem abs_roundTo_sub_le (dp : ℕ) (x : ℚ) : |roundTo dp x - x| ≤ 1 / 2 / 10 ^ dp := by
  have hp := pow_ten_pos dp
  -- For a number that is not negative; the rounding is odd.
  have main : ∀ x : ℚ, 0 ≤ x → |roundTo dp x - x| ≤ 1 / 2 / 10 ^ dp := by
    intro x hx
    have hlo := Int.floor_le (x * 10 ^ dp + 1 / 2)
    have hhi := Int.lt_floor_add_one (x * 10 ^ dp + 1 / 2)
    have heq : roundTo dp x - x = ((⌊x * 10 ^ dp + 1 / 2⌋ : ℚ) - x * 10 ^ dp) / 10 ^ dp := by
      rw [roundTo, units_of_nonneg hx]
      field_simp
    rw [heq, abs_div, abs_of_pos hp]
    apply div_le_div_of_nonneg_right _ hp.le
    rw [abs_le]
    constructor <;> linarith
  by_cases hx : 0 ≤ x
  · exact main x hx
  · have h := main (-x) (by linarith)
    rw [roundTo_neg, show -roundTo dp x - -x = -(roundTo dp x - x) by ring, abs_neg] at h
    exact h

/-- What is within less than half a unit of a decimal is rounded to it. -/
theorem roundTo_eq_of_abs_lt {dp : ℕ} {x y : ℚ} (hy : y ∈ grid dp) (h : |x - y| < 1 / 2 / 10 ^ dp) :
    roundTo dp x = y := by
  have hhalves : (1 : ℚ) / 2 / 10 ^ dp + 1 / 2 / 10 ^ dp = 1 / 10 ^ dp := by ring
  apply sub_eq_zero.mp
  apply eq_zero_of_abs_lt ((grid dp).sub_mem (roundTo_mem_grid dp x) hy)
  calc |roundTo dp x - y| ≤ |roundTo dp x - x| + |x - y| := abs_sub_le _ _ _
    _ < 1 / 2 / 10 ^ dp + 1 / 2 / 10 ^ dp := add_lt_add_of_le_of_lt (abs_roundTo_sub_le dp x) h
    _ = 1 / 10 ^ dp := hhalves

end Rounding
