import Mathlib.Algebra.BigOperators.Ring.List
import Mathlib.Algebra.Order.BigOperators.Group.List
import Mathlib.Algebra.Order.Field.Basic
import Mathlib.Algebra.Order.Ring.Abs
import Mathlib.Tactic.Linarith
import Mathlib.Tactic.Ring

/-!
# Exponential smoothing

`smooth k s xs` moves from `s` towards each value in turn by the share `k` of the distance.  It stays
between bounds of the values, scales with them, and is positive as soon as one of them is.
-/

namespace Smoothing

variable {K : Type*} [Field K]

def smooth (k s : K) (xs : List K) : K := xs.foldl (fun e x => (x - e) * k + e) s

/-- The mean of some values, by their sum. -/
def mean (xs : List K) : K := xs.sum / xs.length

/-- Smoothing from the mean of the first `n` values on. -/
def seeded (k : K) (n : ℕ) (xs : List K) : K := smooth k (mean (xs.take n)) (xs.drop n)

variable {k s c : K} {xs : List K}

@[simp] theorem smooth_nil : smooth k s [] = s := rfl

@[simp] theorem smooth_cons (x : K) : smooth k s (x :: xs) = smooth k ((x - s) * k + s) xs := rfl

theorem smooth_mul : smooth k (c * s) (xs.map (c * ·)) = c * smooth k s xs := by
  induction xs generalizing s with
  | nil => rfl
  | cons x xs ih =>
      rw [List.map_cons, smooth_cons, smooth_cons, ← ih]
      congr 1
      ring

theorem mean_mul : mean (xs.map (c * ·)) = c * mean xs := by
  rw [mean, mean, List.sum_map_mul_left, List.map_id', List.length_map, mul_div_assoc]

theorem seeded_mul {n : ℕ} : seeded k n (xs.map (c * ·)) = c * seeded k n xs := by
  rw [seeded, ← List.map_take, ← List.map_drop, mean_mul, smooth_mul, seeded]

variable [LinearOrder K] [IsStrictOrderedRing K] {a b : K}

theorem le_smooth (hk : 0 ≤ k) (hk' : k ≤ 1) (hs : a ≤ s) (hxs : ∀ x ∈ xs, a ≤ x) :
    a ≤ smooth k s xs := by
  induction xs generalizing s with
  | nil => exact hs
  | cons x xs ih =>
      rw [List.forall_mem_cons] at hxs
      apply ih _ hxs.2
      -- The next value is a weighted mean of `x` and `s`.
      have hx := mul_nonneg hk (sub_nonneg.mpr hxs.1)
      have hs' := mul_nonneg (sub_nonneg.mpr hk') (sub_nonneg.mpr hs)
      linarith

theorem smooth_le (hk : 0 ≤ k) (hk' : k ≤ 1) (hs : s ≤ b) (hxs : ∀ x ∈ xs, x ≤ b) :
    smooth k s xs ≤ b := by
  induction xs generalizing s with
  | nil => exact hs
  | cons x xs ih =>
      rw [List.forall_mem_cons] at hxs
      apply ih _ hxs.2
      have hx := mul_nonneg hk (sub_nonneg.mpr hxs.1)
      have hs' := mul_nonneg (sub_nonneg.mpr hk') (sub_nonneg.mpr hs)
      linarith

/-- A positive value is never forgotten. -/
theorem smooth_pos_iff (hk : 0 < k) (hk' : k < 1) (hs : 0 ≤ s) (hxs : ∀ x ∈ xs, 0 ≤ x) :
    0 < smooth k s xs ↔ 0 < s ∨ ∃ x ∈ xs, 0 < x := by
  induction xs generalizing s with
  | nil => simp
  | cons x xs ih =>
      rw [List.forall_mem_cons] at hxs
      have hnext : (x - s) * k + s = k * x + (1 - k) * s := by ring
      have hx := mul_nonneg hk.le hxs.1
      have hs' := mul_nonneg (sub_nonneg.mpr hk'.le) hs
      have hpos : 0 < k * x + (1 - k) * s ↔ 0 < x ∨ 0 < s := by
        constructor
        · intro h
          by_contra hnone
          rw [not_or, not_lt, not_lt] at hnone
          rw [le_antisymm hnone.1 hxs.1, le_antisymm hnone.2 hs] at h
          simp at h
        · rintro (h | h)
          · have := mul_pos hk h
            linarith
          · have := mul_pos (sub_pos.mpr hk') h
            linarith
      rw [smooth_cons, hnext, ih (by linarith) hxs.2, hpos, List.exists_mem_cons_iff]
      tauto

theorem length_pos_cast (h : xs ≠ []) : (0 : K) < xs.length :=
  Nat.cast_pos.mpr (List.length_pos_of_ne_nil h)

theorem le_mean (hne : xs ≠ []) (h : ∀ x ∈ xs, a ≤ x) : a ≤ mean xs := by
  rw [mean, le_div_iff₀ (length_pos_cast hne), mul_comm, ← nsmul_eq_mul]
  exact List.card_nsmul_le_sum xs a h

theorem mean_le (hne : xs ≠ []) (h : ∀ x ∈ xs, x ≤ b) : mean xs ≤ b := by
  rw [mean, div_le_iff₀ (length_pos_cast hne), mul_comm, ← nsmul_eq_mul]
  exact List.sum_le_card_nsmul xs b h

theorem mean_pos_iff (hne : xs ≠ []) (hxs : ∀ x ∈ xs, 0 ≤ x) : 0 < mean xs ↔ ∃ x ∈ xs, 0 < x := by
  rw [mean, div_pos_iff_of_pos_right (length_pos_cast hne)]
  constructor
  · intro h
    by_contra hnone
    have hle : xs.sum ≤ 0 := by
      have hcard := List.sum_le_card_nsmul xs 0 fun x hx => not_lt.mp fun hpos => hnone ⟨x, hx, hpos⟩
      rwa [nsmul_zero] at hcard
    exact absurd h (not_lt.mpr hle)
  · rintro ⟨x, hx, hpos⟩
    exact hpos.trans_le (List.single_le_sum hxs x hx)

variable {n : ℕ}

theorem take_ne_nil {α : Type*} {ys : List α} (hn : 0 < n) (hne : ys ≠ []) : ys.take n ≠ [] := by
  rw [Ne, List.take_eq_nil_iff, not_or]
  exact ⟨hn.ne', hne⟩

theorem le_seeded (hk : 0 ≤ k) (hk' : k ≤ 1) (hn : 0 < n) (hne : xs ≠ []) (h : ∀ x ∈ xs, a ≤ x) :
    a ≤ seeded k n xs :=
  le_smooth hk hk' (le_mean (take_ne_nil hn hne) fun x hx => h x (List.mem_of_mem_take hx))
    fun x hx => h x (List.mem_of_mem_drop hx)

theorem seeded_le (hk : 0 ≤ k) (hk' : k ≤ 1) (hn : 0 < n) (hne : xs ≠ []) (h : ∀ x ∈ xs, x ≤ b) :
    seeded k n xs ≤ b :=
  smooth_le hk hk' (mean_le (take_ne_nil hn hne) fun x hx => h x (List.mem_of_mem_take hx))
    fun x hx => h x (List.mem_of_mem_drop hx)

theorem seeded_pos_iff (hk : 0 < k) (hk' : k < 1) (hn : 0 < n) (hne : xs ≠ []) (h : ∀ x ∈ xs, 0 ≤ x) :
    0 < seeded k n xs ↔ ∃ x ∈ xs, 0 < x := by
  have htake : ∀ x ∈ xs.take n, 0 ≤ x := fun x hx => h x (List.mem_of_mem_take hx)
  have hdrop : ∀ x ∈ xs.drop n, 0 ≤ x := fun x hx => h x (List.mem_of_mem_drop hx)
  have hmean := take_ne_nil hn hne
  rw [seeded, smooth_pos_iff hk hk' (le_mean hmean htake) hdrop, mean_pos_iff hmean htake]
  conv_rhs => rw [← List.take_append_drop n xs]
  simp only [List.mem_append, or_and_right, exists_or]

end Smoothing
