import Mathlib.Algebra.Order.Field.Power
import Mathlib.Data.Nat.Log
import NexusQuant.Lib.DecimalText

/-!
# Rounding to a double

`round q` is the double nearest to a rational, a tie going to the even mantissa, and infinite from
half a unit below `2 ^ 1024` on.  The operations of `JsNumber` are exact; `add`, `sub`, `mul` and `div`
are the same operations rounded, for the places where the code depends on the last digit, and `toNumber`
reads a numeric text of any length.
-/

namespace Binary64

/-- The nearest integer, a tie going to the even one. -/
def halfEven (x : ℚ) : ℤ :=
  if x - ⌊x⌋ < 1 / 2 then ⌊x⌋
  else if 1 / 2 < x - ⌊x⌋ then ⌊x⌋ + 1
  else if ⌊x⌋ % 2 = 0 then ⌊x⌋ else ⌊x⌋ + 1

/-- The exponent of the leading binary digit. -/
def exponent (q : ℚ) : ℤ :=
  let e : ℤ := Nat.log2 q.num.natAbs - Nat.log2 q.den
  -- The quotient of the leading digits is the exponent or one too many.
  if q < 2 ^ e then e - 1 else e

/-- The exponent of the last binary digit that is kept, of 53 or down to the smallest there is. -/
def lastExponent (q : ℚ) : ℤ := max (exponent q - 52) (-1074)

/-- The rounding of a number that is not negative, before it is seen whether it overflows. -/
def magnitude (q : ℚ) : ℚ := halfEven (q / 2 ^ lastExponent q) * 2 ^ lastExponent q

def round (q : ℚ) : JsNumber :=
  if 2 ^ (1024 : ℤ) ≤ magnitude |q| then JsNumber.infOfSign q
  else .fin (if q < 0 then -magnitude |q| else magnitude |q|)

/-- The nearest double of a number that does not overflow. -/
def nearest (q : ℚ) : ℚ := if q < 0 then -magnitude |q| else magnitude |q|

/-- The bound from which on a number overflows. -/
def overflowBound : ℚ := 2 ^ (1024 : ℤ) - 2 ^ (970 : ℤ)

/-- A result that is kept exactly unless it overflows. -/
def overflowing : JsNumber → JsNumber
  | .fin q => if overflowBound ≤ |q| then JsNumber.infOfSign q else .fin q
  | x => x

/-- The rounded result of an exact operation. -/
def rounded : JsNumber → JsNumber
  | .fin q => round q
  | x => x

def add (a b : JsNumber) : JsNumber := rounded (a + b)

def sub (a b : JsNumber) : JsNumber := rounded (a - b)

def mul (a b : JsNumber) : JsNumber := rounded (a * b)

def div (a b : JsNumber) : JsNumber := rounded (a / b)

/-- The rounding to 53 binary digits, however large or small the number is. -/
def significant (q : ℚ) : ℚ := nearest (q / 2 ^ exponent q) * 2 ^ exponent q

/-- How far above a whole number the numbers lie that are still rounded down to it. -/
def halfGap (d : ℕ) : ℚ := if d = 0 then 2 ^ (-1075 : ℤ) else 2 ^ ((Nat.log2 d : ℤ) - 53)

/-- `Number(text)` of a text of any length. -/
def toNumber (text : String) : JsNumber :=
  match DecimalText.toNumber text with
  | .fin q => round q
  | x => x

/-! ## The nearest integer -/

theorem le_halfEven_iff {x : ℚ} {m : ℤ} :
    m ≤ halfEven x ↔ (m : ℚ) - 1 / 2 < x ∨ (x = m - 1 / 2 ∧ m % 2 = 0) := by
  have hlow := Int.floor_le x
  have hhigh := Int.lt_floor_add_one x
  have hcast : ∀ k : ℤ, m ≤ k ↔ (m : ℚ) ≤ k := fun k => Int.cast_le.symm
  -- Above the floor, at it, or one above, where the fraction decides.
  rcases lt_trichotomy m (⌊x⌋ + 1) with hm | hm | hm
  · have hle : m ≤ ⌊x⌋ := by omega
    have hleQ : (m : ℚ) ≤ ⌊x⌋ := by exact_mod_cast hle
    have hhalf : ⌊x⌋ ≤ halfEven x := by
      unfold halfEven
      split_ifs <;> omega
    exact iff_of_true (hle.trans hhalf) (.inl (by linarith))
  · have hmQ : (m : ℚ) = ⌊x⌋ + 1 := by exact_mod_cast hm
    unfold halfEven
    split_ifs with h₁ h₂ h₃
    · refine iff_of_false (by omega) ?_
      rintro (h | ⟨h, -⟩) <;> linarith
    · exact iff_of_true (by omega) (.inl (by linarith))
    · refine iff_of_false (by omega) ?_
      rintro (h | ⟨-, heven⟩)
      · linarith
      · omega
    · exact iff_of_true (by omega) (.inr ⟨by linarith, by omega⟩)
  · have hmQ : (⌊x⌋ : ℚ) + 2 ≤ m := by exact_mod_cast (by omega : ⌊x⌋ + 2 ≤ m)
    have hhalf : halfEven x ≤ ⌊x⌋ + 1 := by
      unfold halfEven
      split_ifs <;> omega
    refine iff_of_false (by omega) ?_
    rintro (h | ⟨h, -⟩) <;> linarith

theorem le_halfEven {x : ℚ} {m : ℤ} (h : (m : ℚ) ≤ x) : m ≤ halfEven x :=
  le_halfEven_iff.mpr (.inl (by linarith))

theorem halfEven_le {x : ℚ} {m : ℤ} (h : x ≤ m) : halfEven x ≤ m := by
  by_contra hlt
  have hge : m + 1 ≤ halfEven x := by omega
  rcases le_halfEven_iff.mp hge with hx | ⟨hx, -⟩
  · push_cast at hx
    linarith
  · push_cast at hx
    linarith

/-! ## Exponents -/

theorem two_zpow_pos (e : ℤ) : (0 : ℚ) < 2 ^ e := zpow_pos (by norm_num) e

theorem two_zpow_le {a b : ℤ} (h : a ≤ b) : (2 : ℚ) ^ a ≤ 2 ^ b :=
  zpow_le_zpow_right₀ (by norm_num) h

theorem two_zpow_lt {a b : ℤ} (h : a < b) : (2 : ℚ) ^ a < 2 ^ b :=
  zpow_lt_zpow_right₀ (by norm_num) h

theorem two_zpow_add (a b : ℤ) : (2 : ℚ) ^ (a + b) = 2 ^ a * 2 ^ b := zpow_add₀ (by norm_num) a b

theorem exponent_spec {q : ℚ} (hq : 0 < q) :
    (2 : ℚ) ^ exponent q ≤ q ∧ q < 2 ^ (exponent q + 1) := by
  have hnum : 0 < q.num := Rat.num_pos.mpr hq
  have hden : (0 : ℚ) < q.den := by exact_mod_cast q.den_pos
  have hq' : q * q.den = q.num.natAbs := by
    have h := Rat.mul_den_eq_num q
    have habs : ((q.num.natAbs : ℤ) : ℚ) = (q.num : ℚ) := by
      rw [Int.natAbs_of_nonneg hnum.le]
    rw [h, ← habs]
    rfl
  have hn : q.num.natAbs ≠ 0 := by omega
  have hd : q.den ≠ 0 := q.den_ne_zero
  -- The numerator and the denominator between two powers of two each.
  have hnlow : (2 : ℚ) ^ (Nat.log2 q.num.natAbs : ℤ) ≤ q.num.natAbs := by
    rw [zpow_natCast]
    exact_mod_cast Nat.log2_self_le hn
  have hnhigh : (q.num.natAbs : ℚ) < 2 ^ ((Nat.log2 q.num.natAbs : ℤ) + 1) := by
    have h := Nat.lt_log2_self (n := q.num.natAbs)
    rw [← Nat.cast_one, ← Nat.cast_add, zpow_natCast]
    exact_mod_cast h
  have hdlow : (2 : ℚ) ^ (Nat.log2 q.den : ℤ) ≤ q.den := by
    rw [zpow_natCast]
    exact_mod_cast Nat.log2_self_le hd
  have hdhigh : (q.den : ℚ) < 2 ^ ((Nat.log2 q.den : ℤ) + 1) := by
    have h := Nat.lt_log2_self (n := q.den)
    rw [← Nat.cast_one, ← Nat.cast_add, zpow_natCast]
    exact_mod_cast h
  have hlow : (2 : ℚ) ^ ((Nat.log2 q.num.natAbs : ℤ) - Nat.log2 q.den - 1) < q := by
    have hsplit : (2 : ℚ) ^ ((Nat.log2 q.num.natAbs : ℤ) - Nat.log2 q.den - 1) *
        2 ^ ((Nat.log2 q.den : ℤ) + 1) = 2 ^ (Nat.log2 q.num.natAbs : ℤ) := by
      rw [← two_zpow_add]
      congr 1
      ring
    have := two_zpow_pos ((Nat.log2 q.num.natAbs : ℤ) - Nat.log2 q.den - 1)
    nlinarith
  have hhigh : q < (2 : ℚ) ^ ((Nat.log2 q.num.natAbs : ℤ) - Nat.log2 q.den + 1) := by
    have hsplit : (2 : ℚ) ^ ((Nat.log2 q.num.natAbs : ℤ) - Nat.log2 q.den + 1) *
        2 ^ (Nat.log2 q.den : ℤ) = 2 ^ ((Nat.log2 q.num.natAbs : ℤ) + 1) := by
      rw [← two_zpow_add]
      congr 1
      ring
    have := two_zpow_pos ((Nat.log2 q.num.natAbs : ℤ) - Nat.log2 q.den + 1)
    nlinarith
  unfold exponent
  dsimp only
  split_ifs with h
  · rw [sub_add_cancel]
    exact ⟨hlow.le, h⟩
  · exact ⟨not_lt.mp h, hhigh⟩

/-! ## Overflow and underflow -/

/-- Nothing is rounded above a power of two that is a number of units. -/
theorem magnitude_le_two_zpow {q : ℚ} {e : ℤ} (hq : q ≤ 2 ^ e) (hlast : lastExponent q ≤ e) :
    magnitude q ≤ 2 ^ e := by
  have hp := two_zpow_pos (lastExponent q)
  have hround : halfEven (q / 2 ^ lastExponent q) ≤ 2 ^ (e - lastExponent q).toNat := by
    apply halfEven_le
    rw [div_le_iff₀ hp]
    push_cast
    rw [← zpow_natCast, Int.toNat_of_nonneg (by omega), ← two_zpow_add, sub_add_cancel]
    exact hq
  have hroundQ : (halfEven (q / 2 ^ lastExponent q) : ℚ) ≤ 2 ^ (e - lastExponent q) := by
    have := (Int.cast_le (R := ℚ)).mpr hround
    push_cast at this
    rwa [← zpow_natCast, Int.toNat_of_nonneg (by omega)] at this
  calc magnitude q ≤ 2 ^ (e - lastExponent q) * 2 ^ lastExponent q :=
        mul_le_mul_of_nonneg_right hroundQ hp.le
    _ = 2 ^ e := by rw [← two_zpow_add, sub_add_cancel]

/-- Nothing is rounded below the power of two it starts from. -/
theorem two_zpow_exponent_le_magnitude {q : ℚ} (hq : 0 < q) (hlast : lastExponent q = exponent q - 52) :
    2 ^ exponent q ≤ magnitude q := by
  have hp := two_zpow_pos (lastExponent q)
  have hlead : (2 : ℚ) ^ exponent q = ((2 ^ 52 : ℤ) : ℚ) * 2 ^ lastExponent q := by
    rw [hlast, show exponent q = 52 + (exponent q - 52) by ring, two_zpow_add]
    norm_num
  have hround : 2 ^ 52 ≤ halfEven (q / 2 ^ lastExponent q) := by
    apply le_halfEven
    rw [le_div_iff₀ hp, ← hlead]
    exact (exponent_spec hq).1
  rw [hlead]
  exact mul_le_mul_of_nonneg_right (Int.cast_le.mpr hround) hp.le

/-- The largest numbers round up from half a unit below `2 ^ 1024` on. -/
theorem overflow_iff {q : ℚ} (hq : 0 < q) :
    2 ^ (1024 : ℤ) ≤ magnitude q ↔ (2 : ℚ) ^ (1024 : ℤ) - 2 ^ (970 : ℤ) ≤ q := by
  obtain ⟨hlow, hhigh⟩ := exponent_spec hq
  have hunit := two_zpow_pos 970
  rcases lt_trichotomy (exponent q) 1023 with he | he | he
  · -- Below `2 ^ 1023` nothing is rounded above it.
    have hq1023 : q ≤ 2 ^ (1023 : ℤ) := hhigh.le.trans (two_zpow_le (by omega))
    have hlast : lastExponent q ≤ 1023 := by
      unfold lastExponent
      omega
    have hgap : (2 : ℚ) ^ (1023 : ℤ) < 2 ^ (1024 : ℤ) - 2 ^ (970 : ℤ) := by
      rw [show (1024 : ℤ) = 1 + 1023 by norm_num, two_zpow_add, zpow_one, two_mul, add_sub_assoc]
      exact lt_add_of_pos_right _ (sub_pos.mpr (two_zpow_lt (by norm_num)))
    apply iff_of_false
    · exact not_le.mpr ((magnitude_le_two_zpow hq1023 hlast).trans_lt (two_zpow_lt (by norm_num)))
    · exact not_le.mpr (hq1023.trans_lt hgap)
  · -- The units are those of `2 ^ 971`, and the last number is a unit below the bound.
    have hlast : lastExponent q = 971 := by
      unfold lastExponent
      omega
    have htwice : (2 : ℚ) ^ (971 : ℤ) = 2 * 2 ^ (970 : ℤ) := by
      rw [show (971 : ℤ) = 1 + 970 by norm_num, two_zpow_add, zpow_one]
    have hsplit : (2 : ℚ) ^ (1024 : ℤ) = ((2 ^ 53 : ℤ) : ℚ) * 2 ^ (971 : ℤ) := by
      rw [show (1024 : ℤ) = 53 + 971 by norm_num, two_zpow_add]
      norm_num
    have hunits : 2 ^ (1024 : ℤ) ≤ magnitude q ↔ 2 ^ 53 ≤ halfEven (q / 2 ^ (971 : ℤ)) := by
      unfold magnitude
      rw [hlast, hsplit, mul_le_mul_iff_left₀ (two_zpow_pos 971), Int.cast_le]
    have hmul : (((2 ^ 53 : ℤ) : ℚ) - 1 / 2) * 2 ^ (971 : ℤ) = 2 ^ (1024 : ℤ) - 2 ^ (970 : ℤ) := by
      rw [hsplit, htwice]
      ring
    rw [hunits, le_halfEven_iff, ← hmul, ← le_div_iff₀ (two_zpow_pos 971)]
    constructor
    · rintro (h | ⟨h, -⟩)
      · exact h.le
      · exact h.ge
    · intro h
      rcases h.lt_or_eq with h | h
      · exact .inl h
      · exact .inr ⟨h.symm, by norm_num⟩
  · have hbound : (2 : ℚ) ^ (1024 : ℤ) ≤ 2 ^ exponent q := two_zpow_le (by omega)
    have hlast : lastExponent q = exponent q - 52 := by
      unfold lastExponent
      omega
    apply iff_of_true
    · exact hbound.trans (two_zpow_exponent_le_magnitude hq hlast)
    · exact (sub_le_self _ hunit.le).trans (hbound.trans hlow)

/-- The smallest numbers round down to zero up to half the smallest unit. -/
theorem magnitude_pos_iff {q : ℚ} (hq : 0 < q) : 0 < magnitude q ↔ (2 : ℚ) ^ (-1075 : ℤ) < q := by
  obtain ⟨hlow, hhigh⟩ := exponent_spec hq
  have hp := two_zpow_pos (lastExponent q)
  have hunits : 0 < magnitude q ↔ (2 : ℚ) ^ (lastExponent q - 1) < q := by
    have hone : 0 < halfEven (q / 2 ^ lastExponent q) ↔ 1 ≤ halfEven (q / 2 ^ lastExponent q) :=
      Iff.rfl
    have hhalf : (2 : ℚ) ^ (lastExponent q - 1) = (((1 : ℤ) : ℚ) - 1 / 2) * 2 ^ lastExponent q := by
      rw [sub_eq_neg_add, two_zpow_add, zpow_neg_one]
      norm_num
    unfold magnitude
    rw [mul_pos_iff_of_pos_right hp, Int.cast_pos, hone, le_halfEven_iff, hhalf, ← lt_div_iff₀ hp]
    constructor
    · rintro (h | ⟨-, hodd⟩)
      · exact h
      · omega
    · exact .inl
  rw [hunits]
  by_cases he : exponent q - 52 ≤ -1074
  · have hlast : lastExponent q = -1074 := max_eq_right he
    rw [hlast]
    norm_num
  · have hlast : lastExponent q = exponent q - 52 := max_eq_left (by omega)
    have hstrict : ∀ e : ℤ, e < exponent q → (2 : ℚ) ^ e < q := fun e h =>
      (two_zpow_lt h).trans_le hlow
    exact iff_of_true (hstrict _ (by omega)) (hstrict _ (by omega))

/-- A positive number rounds neither to an infinity nor to zero. -/
theorem round_finite_pos_iff {q : ℚ} (hq : 0 < q) :
    ((round q).isFinite ∧ JsNumber.lt (.fin 0) (round q)) ↔
      (2 : ℚ) ^ (-1075 : ℤ) < q ∧ q < 2 ^ (1024 : ℤ) - 2 ^ (970 : ℤ) := by
  have hover := overflow_iff hq
  have hunder := magnitude_pos_iff hq
  unfold round
  rw [abs_of_pos hq, if_neg hq.not_gt]
  split_ifs with h
  · have hinf : JsNumber.infOfSign q = .posInf := if_neg hq.not_gt
    rw [hinf]
    apply iff_of_false
    · intro hfinite
      cases hfinite.1
    · intro hsmall
      exact absurd (hover.mp h) (not_le.mpr hsmall.2)
  · have hlt : q < 2 ^ (1024 : ℤ) - 2 ^ (970 : ℤ) := not_le.mp fun hge => h (hover.mpr hge)
    simp only [JsNumber.isFinite_fin, true_and, JsNumber.fin_lt, decide_eq_true_eq, hunder, hlt,
      and_true]

/-! ## The nearest double -/

theorem halfEven_mono {x y : ℚ} (hxy : x ≤ y) : halfEven x ≤ halfEven y := by
  rcases le_halfEven_iff.mp (le_refl (halfEven x)) with h | ⟨h, heven⟩
  · exact le_halfEven_iff.mpr (.inl (h.trans_le hxy))
  · rcases hxy.lt_or_eq with hlt | rfl
    · exact le_halfEven_iff.mpr (.inl (h ▸ hlt))
    · exact le_rfl

@[simp] theorem halfEven_intCast (m : ℤ) : halfEven m = m :=
  le_antisymm (halfEven_le le_rfl) (le_halfEven le_rfl)

theorem abs_halfEven_sub_le (x : ℚ) : |(halfEven x : ℚ) - x| ≤ 1 / 2 := by
  have hlow : (halfEven x : ℚ) - 1 / 2 ≤ x := by
    rcases le_halfEven_iff.mp (le_refl (halfEven x)) with h | ⟨h, -⟩
    · exact h.le
    · exact h.ge
  have hhigh : x ≤ halfEven x + 1 / 2 := by
    by_contra hlt
    have hnext : halfEven x + 1 ≤ halfEven x :=
      le_halfEven_iff.mpr (.inl (by push_cast; linarith))
    omega
  rw [abs_le]
  constructor <;> linarith

theorem magnitude_zero : magnitude 0 = 0 := by
  have hzero : halfEven 0 = 0 := by exact_mod_cast halfEven_intCast 0
  rw [magnitude, zero_div, hzero, Int.cast_zero, zero_mul]

theorem magnitude_nonneg {q : ℚ} (hq : 0 ≤ q) : 0 ≤ magnitude q := by
  have hp := two_zpow_pos (lastExponent q)
  have hround : 0 ≤ halfEven (q / 2 ^ lastExponent q) :=
    le_halfEven (by push_cast; exact div_nonneg hq hp.le)
  exact mul_nonneg (Int.cast_nonneg hround) hp.le

theorem exponent_mono {x y : ℚ} (hx : 0 < x) (hxy : x ≤ y) : exponent x ≤ exponent y := by
  have hlow := (exponent_spec hx).1
  have hhigh := (exponent_spec (hx.trans_le hxy)).2
  have hlt : (2 : ℚ) ^ exponent x < 2 ^ (exponent y + 1) := hlow.trans_lt (hxy.trans_lt hhigh)
  have := (zpow_lt_zpow_iff_right₀ (by norm_num : (1 : ℚ) < 2)).mp hlt
  omega

theorem magnitude_mono {x y : ℚ} (hx : 0 ≤ x) (hxy : x ≤ y) : magnitude x ≤ magnitude y := by
  rcases hx.lt_or_eq with hpos | rfl
  · have hexp := exponent_mono hpos hxy
    have hlastLe : lastExponent x ≤ lastExponent y := by
      unfold lastExponent
      omega
    rcases hlastLe.lt_or_eq with hlast | hlast
    · -- A power of two lies between the two.
      have hlastY : lastExponent y = exponent y - 52 := by
        unfold lastExponent at hlast ⊢
        omega
      have hexpLt : exponent x + 1 ≤ exponent y := by
        unfold lastExponent at hlast
        omega
      have hxLe : x ≤ 2 ^ exponent y := (exponent_spec hpos).2.le.trans (two_zpow_le hexpLt)
      exact (magnitude_le_two_zpow hxLe (by omega)).trans
        (two_zpow_exponent_le_magnitude (hpos.trans_le hxy) hlastY)
    · have hp := two_zpow_pos (lastExponent y)
      unfold magnitude
      rw [hlast]
      apply mul_le_mul_of_nonneg_right _ hp.le
      exact Int.cast_le.mpr (halfEven_mono (div_le_div_of_nonneg_right hxy hp.le))
  · rw [magnitude_zero]
    exact magnitude_nonneg hxy

/-- A number of at most 53 binary digits, none of them too small, is a double. -/
theorem magnitude_eq_self {m e : ℤ} (hm : 0 ≤ m) (hdigits : m ≤ 2 ^ 53) (he : -1074 ≤ e) :
    magnitude (m * 2 ^ e) = m * 2 ^ e := by
  rcases hm.lt_or_eq with hpos | rfl
  · have hq : (0 : ℚ) < m * 2 ^ e := mul_pos (Int.cast_pos.mpr hpos) (two_zpow_pos e)
    -- It is a whole number of its last digit.
    have hwhole : ∃ n : ℤ, (m : ℚ) * 2 ^ e = n * 2 ^ lastExponent (m * 2 ^ e) := by
      by_cases hlast : lastExponent (m * 2 ^ e) ≤ e
      · refine ⟨m * 2 ^ (e - lastExponent (m * 2 ^ e)).toNat, ?_⟩
        push_cast
        rw [← zpow_natCast, Int.toNat_of_nonneg (by omega), mul_assoc, ← two_zpow_add, sub_add_cancel]
      · -- Only the power of two after the last number of 53 digits is shifted.
        have hbound : (m : ℚ) * 2 ^ e ≤ 2 ^ (53 + e) := by
          rw [two_zpow_add]
          apply mul_le_mul_of_nonneg_right _ (two_zpow_pos e).le
          exact_mod_cast hdigits
        have hexpLe : (2 : ℚ) ^ exponent (m * 2 ^ e) ≤ 2 ^ (53 + e) := (exponent_spec hq).1.trans hbound
        have hexp := (zpow_le_zpow_iff_right₀ (by norm_num : (1 : ℚ) < 2)).mp hexpLe
        have heq : exponent (m * 2 ^ e) = 53 + e := by
          unfold lastExponent at hlast
          omega
        have hlastEq : lastExponent (m * 2 ^ e) = e + 1 := by
          unfold lastExponent at hlast ⊢
          omega
        have hpow : (m : ℚ) * 2 ^ e = 2 ^ (53 + e) :=
          le_antisymm hbound (heq ▸ (exponent_spec hq).1)
        refine ⟨2 ^ 52, ?_⟩
        rw [hlastEq, hpow, show (53 : ℤ) + e = 52 + (e + 1) by ring, two_zpow_add 52]
        norm_num
    obtain ⟨n, hn⟩ := hwhole
    have hunits : (m : ℚ) * 2 ^ e / 2 ^ lastExponent (m * 2 ^ e) = n :=
      (div_eq_iff (two_zpow_pos _).ne').mpr hn
    rw [magnitude, hunits, halfEven_intCast]
    exact hn.symm
  · rw [Int.cast_zero, zero_mul, magnitude_zero]

theorem nearest_of_nonneg {q : ℚ} (hq : 0 ≤ q) : nearest q = magnitude q := by
  rw [nearest, if_neg (not_lt.mpr hq), abs_of_nonneg hq]

theorem nearest_neg (q : ℚ) : nearest (-q) = -nearest q := by
  rcases lt_trichotomy q 0 with h | rfl | h
  · rw [nearest_of_nonneg (by linarith), nearest, if_pos h, abs_of_neg h, neg_neg]
  · rw [neg_zero, nearest_of_nonneg le_rfl, magnitude_zero, neg_zero]
  · rw [nearest_of_nonneg h.le, nearest, if_pos (by linarith), abs_neg, abs_of_pos h]

@[simp] theorem nearest_zero : nearest 0 = 0 := by
  rw [nearest_of_nonneg le_rfl, magnitude_zero]

theorem nearest_nonneg {q : ℚ} (hq : 0 ≤ q) : 0 ≤ nearest q := by
  rw [nearest_of_nonneg hq]
  exact magnitude_nonneg hq

theorem nearest_mono {x y : ℚ} (hxy : x ≤ y) : nearest x ≤ nearest y := by
  rcases le_total 0 x with hx | hx
  · rw [nearest_of_nonneg hx, nearest_of_nonneg (hx.trans hxy)]
    exact magnitude_mono hx hxy
  · rcases le_total 0 y with hy | hy
    · have hneg := nearest_nonneg (q := -x) (by linarith)
      rw [nearest_neg] at hneg
      exact (by linarith : nearest x ≤ 0).trans (nearest_nonneg hy)
    · -- Below zero the order is turned around twice.
      have hneg := magnitude_mono (x := -y) (y := -x) (by linarith) (by linarith)
      rw [← nearest_of_nonneg (by linarith), ← nearest_of_nonneg (by linarith), nearest_neg,
        nearest_neg] at hneg
      linarith

/-- A number of at most 53 binary digits, none of them too small, is its own nearest double. -/
theorem nearest_eq_self {m e : ℤ} (hdigits : |m| ≤ 2 ^ 53) (he : -1074 ≤ e) :
    nearest (m * 2 ^ e) = m * 2 ^ e := by
  rcases le_total 0 m with hm | hm
  · rw [nearest_of_nonneg (mul_nonneg (Int.cast_nonneg hm) (two_zpow_pos e).le)]
    exact magnitude_eq_self hm ((le_abs_self m).trans hdigits) he
  · have hflip : (m : ℚ) * 2 ^ e = -(((-m : ℤ) : ℚ) * 2 ^ e) := by
      push_cast
      ring
    rw [hflip, nearest_neg, nearest_of_nonneg, magnitude_eq_self (by omega)
      ((neg_le_abs m).trans hdigits) he]
    exact mul_nonneg (Int.cast_nonneg (by omega)) (two_zpow_pos e).le

theorem nearest_intCast {n : ℤ} (hn : |n| ≤ 2 ^ 53) : nearest n = n := by
  have h := nearest_eq_self hn (show (-1074 : ℤ) ≤ 0 by norm_num)
  rwa [zpow_zero, mul_one] at h

/-- Rounding moves a number by at most half a unit of its last binary digit. -/
theorem abs_magnitude_sub_le (q : ℚ) : |magnitude q - q| ≤ 2 ^ lastExponent q / 2 := by
  have hp := two_zpow_pos (lastExponent q)
  have hunits : magnitude q - q =
      ((halfEven (q / 2 ^ lastExponent q) : ℚ) - q / 2 ^ lastExponent q) * 2 ^ lastExponent q := by
    rw [sub_mul, div_mul_cancel₀ _ hp.ne', magnitude]
  rw [hunits, abs_mul, abs_of_pos hp]
  calc _ ≤ 1 / 2 * 2 ^ lastExponent q :=
        mul_le_mul_of_nonneg_right (abs_halfEven_sub_le _) hp.le
    _ = 2 ^ lastExponent q / 2 := by ring

/-- Below a power of two a number moves by at most the `2 ^ -54`th part of it. -/
theorem abs_nearest_sub_le {q : ℚ} {e : ℤ} (hq : |q| < 2 ^ e) (he : -1021 ≤ e) :
    |nearest q - q| ≤ 2 ^ (e - 54) := by
  have main : ∀ q : ℚ, 0 ≤ q → q < 2 ^ e → |nearest q - q| ≤ 2 ^ (e - 54) := by
    intro q hq hlt
    rcases hq.lt_or_eq with hpos | rfl
    · have hexpLt : (2 : ℚ) ^ exponent q < 2 ^ e := (exponent_spec hpos).1.trans_lt hlt
      have hexp := (zpow_lt_zpow_iff_right₀ (by norm_num : (1 : ℚ) < 2)).mp hexpLt
      have hlast : lastExponent q ≤ e - 53 := by
        unfold lastExponent
        omega
      rw [nearest_of_nonneg hq]
      calc |magnitude q - q| ≤ 2 ^ lastExponent q / 2 := abs_magnitude_sub_le q
        _ ≤ 2 ^ (e - 53) / 2 := div_le_div_of_nonneg_right (two_zpow_le hlast) (by norm_num)
        _ = 2 ^ (e - 54) := by
            rw [show e - 53 = 1 + (e - 54) by ring, two_zpow_add, zpow_one]
            ring
    · rw [nearest_zero, sub_zero, abs_zero]
      exact (two_zpow_pos _).le
  rcases le_total 0 q with hpos | hneg
  · exact main q hpos (by rwa [abs_of_nonneg hpos] at hq)
  · have h := main (-q) (by linarith) (by rwa [abs_of_nonpos hneg] at hq)
    rwa [nearest_neg, show -nearest q - -q = -(nearest q - q) by ring, abs_neg] at h

/-- No whole number is nearer than the one that is taken. -/
theorem abs_halfEven_sub_le_abs (x : ℚ) (m : ℤ) : |(halfEven x : ℚ) - x| ≤ |(m : ℚ) - x| := by
  by_cases heq : m = halfEven x
  · rw [heq]
  · have hhalf := abs_halfEven_sub_le x
    have hapart : (1 : ℚ) ≤ |(m : ℚ) - halfEven x| := by
      have hint : 1 ≤ |m - halfEven x| := Int.one_le_abs (sub_ne_zero.mpr heq)
      exact_mod_cast hint
    have htriangle := abs_sub_le (m : ℚ) x (halfEven x)
    rw [abs_sub_comm x] at htriangle
    linarith

/-- No multiple of the last digit is nearer. -/
theorem abs_magnitude_sub_le_abs (x : ℚ) (m : ℤ) :
    |magnitude x - x| ≤ |(m : ℚ) * 2 ^ lastExponent x - x| := by
  have hp := two_zpow_pos (lastExponent x)
  have hscale : ∀ k : ℚ, k * 2 ^ lastExponent x - x =
      (k - x / 2 ^ lastExponent x) * 2 ^ lastExponent x := by
    intro k
    rw [sub_mul, div_mul_cancel₀ _ hp.ne']
  rw [magnitude, hscale, hscale, abs_mul, abs_mul]
  exact mul_le_mul_of_nonneg_right (abs_halfEven_sub_le_abs _ _) (abs_nonneg _)

/-- No double is nearer than the one that is taken. -/
theorem abs_nearest_sub_le_abs {x y : ℚ} (hy : nearest y = y) : |nearest x - x| ≤ |y - x| := by
  have main : ∀ x y : ℚ, 0 < x → nearest y = y → |magnitude x - x| ≤ |y - x| := by
    intro x y hx hy
    -- From the far side of a multiple of the last digit nothing is nearer than that multiple.
    have hfar : ∀ m : ℤ, y ≤ m * 2 ^ lastExponent x → (m : ℚ) * 2 ^ lastExponent x ≤ x →
        |magnitude x - x| ≤ |y - x| := by
      intro m hym hmx
      apply (abs_magnitude_sub_le_abs x m).trans
      rw [abs_of_nonpos (by linarith), abs_of_nonpos (by linarith)]
      linarith
    rcases le_or_gt y 0 with hneg | hpos
    · exact hfar 0 (by simpa using hneg) (by simpa using hx.le)
    · have hunits : y = (halfEven (y / 2 ^ lastExponent y) : ℚ) * 2 ^ lastExponent y := by
        rw [← magnitude, ← nearest_of_nonneg hpos.le, hy]
      by_cases hle : lastExponent x ≤ lastExponent y
      · -- A double with larger digits is such a multiple itself.
        have hmultiple : y = ((halfEven (y / 2 ^ lastExponent y) *
            2 ^ (lastExponent y - lastExponent x).toNat : ℤ) : ℚ) * 2 ^ lastExponent x := by
          push_cast
          rw [← zpow_natCast, Int.toNat_of_nonneg (by omega), mul_assoc, ← two_zpow_add,
            sub_add_cancel]
          exact hunits
        rw [hmultiple]
        exact abs_magnitude_sub_le_abs x _
      · -- One with smaller digits lies below the power of two that `x` starts from.
        have hlast : lastExponent x = exponent x - 52 ∧ exponent y < exponent x := by
          unfold lastExponent at hle ⊢
          omega
        have hlead : (2 : ℚ) ^ exponent x = ((2 ^ 52 : ℤ) : ℚ) * 2 ^ lastExponent x := by
          rw [hlast.1, show exponent x = 52 + (exponent x - 52) by ring, two_zpow_add]
          norm_num
        apply hfar (2 ^ 52)
        · rw [← hlead]
          exact (exponent_spec hpos).2.le.trans (two_zpow_le (by omega))
        · rw [← hlead]
          exact (exponent_spec hx).1
  rcases lt_trichotomy x 0 with hx | rfl | hx
  · have hflip : nearest (-y) = -y := by rw [nearest_neg, hy]
    have h := main (-x) (-y) (by linarith) hflip
    rwa [← nearest_of_nonneg (by linarith), nearest_neg, ← neg_sub', abs_neg, ← neg_sub', abs_neg] at h
  · rw [nearest_zero, sub_zero, abs_zero]
    exact abs_nonneg _
  · rw [nearest_of_nonneg hx.le]
    exact main x y hx hy

/-- The nearest double is a double. -/
theorem nearest_nearest (q : ℚ) : nearest (nearest q) = nearest q := by
  have main : ∀ q : ℚ, 0 < q → nearest (magnitude q) = magnitude q := by
    intro q hq
    have hp := two_zpow_pos (lastExponent q)
    have hlast : exponent q + 1 ≤ 53 + lastExponent q := by
      unfold lastExponent
      omega
    have hlow : 0 ≤ halfEven (q / 2 ^ lastExponent q) :=
      le_halfEven (by push_cast; exact div_nonneg hq.le hp.le)
    have hhigh : halfEven (q / 2 ^ lastExponent q) ≤ 2 ^ 53 := by
      apply halfEven_le
      rw [div_le_iff₀ hp]
      calc q ≤ 2 ^ (exponent q + 1) := (exponent_spec hq).2.le
        _ ≤ 2 ^ (53 + lastExponent q) := two_zpow_le hlast
        _ = ((2 ^ 53 : ℤ) : ℚ) * 2 ^ lastExponent q := by
            rw [two_zpow_add]
            norm_num
    exact nearest_eq_self (abs_le.mpr ⟨by omega, hhigh⟩) (le_max_right _ _)
  rcases lt_trichotomy q 0 with hq | rfl | hq
  · have h := main (-q) (by linarith)
    rw [← nearest_of_nonneg (by linarith), nearest_neg, nearest_neg] at h
    exact neg_inj.mp h
  · rw [nearest_zero, nearest_zero]
  · rw [nearest_of_nonneg hq.le]
    exact main q hq

theorem nearest_abs (q : ℚ) : nearest |q| = |nearest q| := by
  rcases le_total 0 q with hq | hq
  · rw [abs_of_nonneg hq, abs_of_nonneg (nearest_nonneg hq)]
  · have hneg := nearest_nonneg (neg_nonneg.mpr hq)
    rw [nearest_neg] at hneg
    rw [abs_of_nonpos hq, nearest_neg, abs_of_nonpos (neg_nonneg.mp hneg)]

/-- The largest double is a unit of its last digit below `2 ^ 1024`. -/
theorem le_largest {q : ℚ} (hq : 0 < q) (hself : nearest q = q) (hlt : q < 2 ^ (1024 : ℤ)) :
    q ≤ 2 ^ (1024 : ℤ) - 2 ^ (971 : ℤ) := by
  obtain ⟨hlow, hhigh⟩ := exponent_spec hq
  have hexp : exponent q < 1024 :=
    (zpow_lt_zpow_iff_right₀ (by norm_num : (1 : ℚ) < 2)).mp (hlow.trans_lt hlt)
  by_cases he : exponent q = 1023
  · have hlast : lastExponent q = 971 := by
      unfold lastExponent
      omega
    have hunits : q = (halfEven (q / 2 ^ (971 : ℤ)) : ℚ) * 2 ^ (971 : ℤ) := by
      rw [← hlast, ← magnitude, ← nearest_of_nonneg hq.le, hself]
    have hsplit : (2 : ℚ) ^ (1024 : ℤ) = ((2 ^ 53 : ℤ) : ℚ) * 2 ^ (971 : ℤ) := by
      rw [show (1024 : ℤ) = 53 + 971 by norm_num, two_zpow_add]
      norm_num
    have hp := two_zpow_pos 971
    generalize halfEven (q / 2 ^ (971 : ℤ)) = m at hunits
    rw [hunits, hsplit, mul_lt_mul_iff_left₀ hp, Int.cast_lt] at hlt
    have hm : (m : ℚ) ≤ ((2 ^ 53 - 1 : ℤ) : ℚ) := Int.cast_le.mpr (by omega)
    calc q = m * 2 ^ (971 : ℤ) := hunits
      _ ≤ ((2 ^ 53 - 1 : ℤ) : ℚ) * 2 ^ (971 : ℤ) := mul_le_mul_of_nonneg_right hm hp.le
      _ = 2 ^ (1024 : ℤ) - 2 ^ (971 : ℤ) := by
          rw [hsplit, Int.cast_sub, Int.cast_one, sub_mul, one_mul]
  · have hdouble : (2 : ℚ) ^ (1024 : ℤ) = 2 ^ (1023 : ℤ) + 2 ^ (1023 : ℤ) := by
      rw [show (1024 : ℤ) = 1 + 1023 by norm_num, two_zpow_add, zpow_one, two_mul]
    calc q ≤ 2 ^ (exponent q + 1) := hhigh.le
      _ ≤ 2 ^ (1023 : ℤ) := two_zpow_le (by omega)
      _ ≤ 2 ^ (1024 : ℤ) - 2 ^ (971 : ℤ) := by
          rw [hdouble]
          exact le_sub_iff_add_le.mpr (add_le_add le_rfl (two_zpow_le (by norm_num)))

/-- A step of one does not lead from a finite double to an infinity. -/
theorem abs_nearest_lt_of_near {x y : ℚ} (hself : nearest y = y) (hy : |y| < 2 ^ (1024 : ℤ))
    (h : |x - y| ≤ 1) : |nearest x| < 2 ^ (1024 : ℤ) := by
  have hgap : (2 : ℚ) ^ (971 : ℤ) = 2 ^ (970 : ℤ) + 2 ^ (970 : ℤ) := by
    rw [show (971 : ℤ) = 1 + 970 by norm_num, two_zpow_add, zpow_one, two_mul]
  have hone : (1 : ℚ) < 2 ^ (970 : ℤ) := by
    rw [← zpow_zero (2 : ℚ)]
    exact two_zpow_lt (by norm_num)
  have hlargest : |y| ≤ 2 ^ (1024 : ℤ) - 2 ^ (971 : ℤ) := by
    rcases (abs_nonneg y).lt_or_eq with hpos | hzero
    · exact le_largest hpos (by rw [nearest_abs, hself]) hy
    · rw [← hzero]
      exact sub_nonneg.mpr (two_zpow_le (by norm_num))
  have hx : |x| ≤ |y| + 1 := by
    have := abs_sub_abs_le_abs_sub x y
    linarith
  rw [← nearest_abs]
  rcases (abs_nonneg x).lt_or_eq with hpos | hzero
  · rw [nearest_of_nonneg (abs_nonneg x)]
    apply not_le.mp
    rw [overflow_iff hpos, not_le]
    rw [hgap] at hlargest
    clear hgap
    generalize (2 : ℚ) ^ (1024 : ℤ) = a at hlargest ⊢
    generalize (2 : ℚ) ^ (970 : ℤ) = b at hlargest hone ⊢
    linarith
  · rw [← hzero, nearest_zero]
    exact two_zpow_pos _

theorem round_eq_nearest {q : ℚ} (hq : |q| < overflowBound) : round q = .fin (nearest q) := by
  have hsmall : ¬ (2 : ℚ) ^ (1024 : ℤ) ≤ magnitude |q| := by
    rcases (abs_nonneg q).lt_or_eq with hpos | hzero
    · exact fun h => absurd ((overflow_iff hpos).mp h) (not_le.mpr hq)
    · rw [← hzero, magnitude_zero]
      exact not_le.mpr (two_zpow_pos _)
  rw [round, if_neg hsmall]
  rfl

theorem round_eq_inf {q : ℚ} (hq : overflowBound ≤ |q|) : round q = JsNumber.infOfSign q := by
  have hbound : (0 : ℚ) < overflowBound :=
    sub_pos.mpr (two_zpow_lt (by norm_num))
  exact if_pos ((overflow_iff (hbound.trans_le hq)).mpr hq)

/-! ## Whole numbers -/

theorem two_zpow_natCast (n : ℕ) : (2 : ℚ) ^ (n : ℤ) = ((2 ^ n : ℕ) : ℚ) := by
  rw [zpow_natCast, Nat.cast_pow, Nat.cast_ofNat]

theorem natCast_lt_overflowBound {n : ℕ} (hn : n ≤ 2 ^ 53) : (n : ℚ) < overflowBound := by
  have hn' : (n : ℚ) ≤ 2 ^ (53 : ℤ) := by exact_mod_cast hn
  have hbound : (2 : ℚ) ^ (1023 : ℤ) < overflowBound := by
    rw [overflowBound, show (1024 : ℤ) = 1 + 1023 by norm_num, two_zpow_add, zpow_one, two_mul,
      add_sub_assoc]
    exact lt_add_of_pos_right _ (sub_pos.mpr (two_zpow_lt (by norm_num)))
  exact hn'.trans_lt ((two_zpow_lt (by norm_num)).trans hbound)

theorem round_intCast {n : ℤ} (hn : |n| ≤ 2 ^ 53) : round n = .fin n := by
  have hsmall : |(n : ℚ)| < overflowBound := by
    have habs : n.natAbs ≤ 2 ^ 53 := by
      rw [Int.abs_eq_natAbs] at hn
      exact_mod_cast hn
    have h := natCast_lt_overflowBound habs
    rwa [Nat.cast_natAbs, Int.cast_abs] at h
  rw [round_eq_nearest hsmall, nearest_intCast hn]

theorem add_intCast {a b : ℤ} (h : |a + b| ≤ 2 ^ 53) : add (.fin a) (.fin b) = .fin ((a + b : ℤ) : ℚ) := by
  have hround := round_intCast h
  rw [Int.cast_add] at hround ⊢
  exact hround

theorem sub_intCast {a b : ℤ} (h : |a - b| ≤ 2 ^ 53) : sub (.fin a) (.fin b) = .fin ((a - b : ℤ) : ℚ) := by
  have hround := round_intCast h
  rw [Int.cast_sub] at hround ⊢
  rw [sub, JsNumber.fin_sub]
  exact hround

theorem halfGap_pos (d : ℕ) : 0 < halfGap d := by
  unfold halfGap
  split <;> exact two_zpow_pos _

theorem halfGap_le_one {d : ℕ} (hd : d < 2 ^ 52) : halfGap d ≤ 1 := by
  have hzpow : ∀ {e : ℤ}, e ≤ 0 → (2 : ℚ) ^ e ≤ 1 := by
    intro e he
    rw [← zpow_zero (2 : ℚ)]
    exact two_zpow_le he
  unfold halfGap
  split
  · exact hzpow (by norm_num)
  · rename_i hne
    have hlog : Nat.log2 d < 52 := (Nat.log2_lt hne).mpr hd
    exact hzpow (by omega)

theorem magnitude_natCast {d : ℕ} (hd : d ≤ 2 ^ 53) : magnitude (d : ℚ) = d := by
  have h := magnitude_eq_self (Int.natCast_nonneg d) (m := d) (e := 0) (by exact_mod_cast hd)
    (by norm_num)
  rwa [zpow_zero, mul_one] at h

/-- In the binary range of a number with a last digit below the ones a whole number is even in units
of that digit, so a tie goes to it. -/
theorem magnitude_le_natCast_iff {x : ℚ} {d e : ℕ} (he : e < 52) (hexp : exponent x = e) :
    magnitude x ≤ d ↔ x ≤ d + 2 ^ ((e : ℤ) - 53) := by
  have hlast : lastExponent x = (e : ℤ) - 52 := by
    unfold lastExponent
    omega
  have hp := two_zpow_pos ((e : ℤ) - 52)
  have hunits : (d : ℚ) = ((d * 2 ^ (52 - e) : ℕ) : ℤ) * 2 ^ ((e : ℤ) - 52) := by
    push_cast
    rw [mul_assoc, ← zpow_natCast, ← two_zpow_add, Nat.cast_sub he.le]
    norm_num
  have heven : ((d * 2 ^ (52 - e) : ℕ) : ℤ) % 2 = 0 := by
    have hsplit : d * 2 ^ (52 - e) = 2 * (d * 2 ^ (51 - e)) := by
      rw [show 52 - e = (51 - e) + 1 by omega, pow_succ]
      ring
    rw [hsplit, Nat.cast_mul]
    exact Int.mul_emod_right 2 _
  generalize ((d * 2 ^ (52 - e) : ℕ) : ℤ) = D at hunits heven
  have hhalf : (2 : ℚ) ^ ((e : ℤ) - 53) = 1 / 2 * 2 ^ ((e : ℤ) - 52) := by
    rw [show (e : ℤ) - 53 = -1 + ((e : ℤ) - 52) by ring, two_zpow_add, zpow_neg_one]
    norm_num
  rw [magnitude, hlast, hhalf, hunits, ← add_mul, mul_le_mul_iff_left₀ hp, Int.cast_le,
    ← div_le_iff₀ hp, ← not_lt, ← not_lt, not_iff_not]
  show D + 1 ≤ _ ↔ _
  rw [le_halfEven_iff]
  push_cast
  constructor
  · rintro (h | ⟨h, hodd⟩)
    · linarith
    · omega
  · intro h
    exact .inl (by linarith)

/-- What is rounded to at most a whole number. -/
theorem nearest_le_natCast_iff {x : ℚ} {d : ℕ} (hd : d < 2 ^ 52) :
    nearest x ≤ d ↔ x ≤ d + halfGap d := by
  have hgap := halfGap_pos d
  have hdq : (0 : ℚ) ≤ d := Nat.cast_nonneg d
  rcases le_or_gt x 0 with hx | hx
  · have hneg : nearest x ≤ 0 := by
      rw [← nearest_zero]
      exact nearest_mono hx
    exact iff_of_true (by linarith) (by linarith)
  · rw [nearest_of_nonneg hx.le]
    by_cases hzero : d = 0
    · rw [halfGap, if_pos hzero, hzero, Nat.cast_zero, zero_add, ← not_lt, magnitude_pos_iff hx, not_lt]
    · -- Between two neighbouring powers of two the doubles have one distance.
      set e := Nat.log2 d with he
      have hlow : 2 ^ e ≤ d := Nat.log2_self_le hzero
      have hhigh : d < 2 ^ (e + 1) := Nat.lt_log2_self
      have he52 : e < 52 := (Nat.pow_lt_pow_iff_right (by norm_num)).mp (hlow.trans_lt hd)
      have hlowQ : (2 : ℚ) ^ (e : ℤ) ≤ d := by
        rw [two_zpow_natCast]
        exact_mod_cast hlow
      have hhighQ : (d : ℚ) + 1 ≤ 2 ^ ((e : ℤ) + 1) := by
        rw [show (e : ℤ) + 1 = ((e + 1 : ℕ) : ℤ) by push_cast; rfl, two_zpow_natCast]
        exact_mod_cast hhigh
      obtain ⟨hxlow, hxhigh⟩ := exponent_spec hx
      rw [halfGap, if_neg hzero]
      have hunit : (2 : ℚ) ^ ((e : ℤ) - 53) < 1 := by
        rw [← zpow_zero (2 : ℚ)]
        exact two_zpow_lt (by omega)
      rcases lt_trichotomy (exponent x) e with hexp | hexp | hexp
      · have hxd : x ≤ d := (hxhigh.le.trans (two_zpow_le (by omega))).trans hlowQ
        have hmono := magnitude_mono hx.le hxd
        rw [magnitude_natCast (hd.trans (by norm_num)).le] at hmono
        exact iff_of_true hmono (by linarith [two_zpow_pos ((e : ℤ) - 53)])
      · exact magnitude_le_natCast_iff he52 hexp
      · have hlast : lastExponent x = exponent x - 52 := by
          unfold lastExponent
          omega
        have hbig : (d : ℚ) + 1 ≤ 2 ^ exponent x := hhighQ.trans (two_zpow_le (by omega))
        have hmag := two_zpow_exponent_le_magnitude hx hlast
        exact iff_of_false (by linarith) (by linarith)

/-! ## Numbers of 53 digits -/

theorem div_two_zpow_exponent {q : ℚ} (hq : 0 < q) :
    1 ≤ q / 2 ^ exponent q ∧ q / 2 ^ exponent q < 2 := by
  obtain ⟨hlow, hhigh⟩ := exponent_spec hq
  have hp := two_zpow_pos (exponent q)
  rw [two_zpow_add, zpow_one, mul_comm] at hhigh
  exact ⟨(one_le_div hp).mpr hlow, (div_lt_iff₀ hp).mpr hhigh⟩

theorem two_zpow_exponent_le_significant {q : ℚ} (hq : 0 < q) : 2 ^ exponent q ≤ significant q := by
  have hone : nearest 1 = 1 := by exact_mod_cast nearest_intCast (n := 1) (by norm_num)
  have hround := nearest_mono (div_two_zpow_exponent hq).1
  rw [hone] at hround
  exact le_mul_of_one_le_left (two_zpow_pos _).le hround

theorem significant_le {q : ℚ} (hq : 0 < q) : significant q ≤ 2 ^ (exponent q + 1) := by
  have htwo : nearest 2 = 2 := by exact_mod_cast nearest_intCast (n := 2) (by norm_num)
  have hround := nearest_mono (div_two_zpow_exponent hq).2.le
  rw [htwo] at hround
  rw [two_zpow_add, zpow_one, mul_comm]
  exact mul_le_mul_of_nonneg_right hround (two_zpow_pos _).le

theorem significant_pos {q : ℚ} (hq : 0 < q) : 0 < significant q :=
  (two_zpow_pos _).trans_le (two_zpow_exponent_le_significant hq)

theorem significant_mono {x y : ℚ} (hx : 0 < x) (hxy : x ≤ y) : significant x ≤ significant y := by
  rcases (exponent_mono hx hxy).lt_or_eq with hexp | hexp
  · exact ((significant_le hx).trans (two_zpow_le hexp)).trans
      (two_zpow_exponent_le_significant (hx.trans_le hxy))
  · have hp := two_zpow_pos (exponent y)
    unfold significant
    rw [hexp]
    exact mul_le_mul_of_nonneg_right (nearest_mono (div_le_div_of_nonneg_right hxy hp.le)) hp.le

/-- At most the `2 ^ -53`th part of a number is lost. -/
theorem mul_le_significant {q : ℚ} (hq : 0 < q) : q * (1 - 2 ^ (-53 : ℤ)) ≤ significant q := by
  obtain ⟨hone, htwo⟩ := div_two_zpow_exponent hq
  have hp := two_zpow_pos (exponent q)
  have herror := abs_nearest_sub_le (q := q / 2 ^ exponent q) (e := 1)
    (by rw [abs_of_nonneg (by linarith), zpow_one]; exact htwo) (by norm_num)
  have hlow := (abs_le.mp herror).1
  have hunit : (2 : ℚ) ^ (-53 : ℤ) ≤ q / 2 ^ exponent q * 2 ^ (-53 : ℤ) :=
    le_mul_of_one_le_left (two_zpow_pos _).le hone
  calc q * (1 - 2 ^ (-53 : ℤ))
      = (q / 2 ^ exponent q * (1 - 2 ^ (-53 : ℤ))) * 2 ^ exponent q := by
        field_simp
    _ ≤ significant q := by
        refine mul_le_mul_of_nonneg_right ?_ hp.le
        rw [show (1 : ℤ) - 54 = -53 by norm_num] at hlow
        linarith

theorem overflowing_eq_fin {x : JsNumber} {q : ℚ} :
    overflowing x = .fin q ↔ x = .fin q ∧ |q| < overflowBound := by
  have hinf : ∀ r : ℚ, JsNumber.infOfSign r ≠ .fin q := by
    intro r
    unfold JsNumber.infOfSign
    split <;> simp
  cases x with
  | fin r =>
      unfold overflowing
      dsimp only
      split
      · rename_i hover
        refine iff_of_false (hinf r) ?_
        rintro ⟨heq, hlt⟩
        rw [JsNumber.fin.inj heq] at hover
        exact absurd hlt (not_lt.mpr hover)
      · rename_i hlt
        constructor
        · intro heq
          exact ⟨heq, JsNumber.fin.inj heq ▸ not_le.mp hlt⟩
        · exact fun h => h.1
  | nan | posInf | negInf => simp [overflowing]

theorem overflowing_fin {q : ℚ} (hq : 0 ≤ q) :
    overflowing (.fin q) = if q < overflowBound then .fin q else .posInf := by
  unfold overflowing
  dsimp only
  rw [abs_of_nonneg hq]
  by_cases h : q < overflowBound
  · rw [if_neg (not_le.mpr h), if_pos h]
  · rw [if_pos (not_lt.mp h), if_neg h]
    exact if_neg (not_lt.mpr hq)

end Binary64
