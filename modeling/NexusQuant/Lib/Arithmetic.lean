import Mathlib.Data.List.Forall2
import NexusQuant.Lib.Binary64

/-!
# Exact and rounded arithmetic

A calculation is written down once, with `rounded` around every number that it reads or works out.  In
`exact`, which is meant where no arithmetic is named, nothing is rounded; in `doubles` everything is, to
the nearest double.  An infinity is the number it was rounded from: one beyond the largest double.
`Lawful` is what the two arithmetics have in common.
-/

class Arithmetic where
  rounded : ℚ → ℚ
  finite : ℚ → Bool

namespace Arithmetic

instance exact : Arithmetic := ⟨id, fun _ => true⟩

/-- The arithmetic of the numbers of JavaScript. -/
@[reducible] def doubles : Arithmetic := ⟨Binary64.nearest, fun x => |x| < 2 ^ (1024 : ℤ)⟩

@[simp] theorem rounded_exact (x : ℚ) : exact.rounded x = x := rfl

/-- `Number.isFinite(x) ? x : 0`. -/
def finiteOrZero [A : Arithmetic] (x : ℚ) : ℚ := bif A.finite x then x else 0

@[simp] theorem finiteOrZero_exact (x : ℚ) : exact.finiteOrZero x = x := rfl

theorem finiteOrZero_of_finite [A : Arithmetic] {x : ℚ} (h : A.finite x) : A.finiteOrZero x = x := by
  rw [finiteOrZero, h]
  rfl

@[simp] theorem finiteOrZero_zero [A : Arithmetic] : A.finiteOrZero 0 = 0 := by
  unfold finiteOrZero
  cases A.finite 0 <;> rfl

theorem finiteOrZero_nonneg [A : Arithmetic] {x : ℚ} (hx : 0 ≤ x) : 0 ≤ A.finiteOrZero x := by
  unfold finiteOrZero
  cases A.finite x with
  | true => exact hx
  | false => exact le_rfl

/-- The rounding of a number that may not be finite. -/
def number [A : Arithmetic] : JsNumber → JsNumber
  | .fin q => bif A.finite (A.rounded q) then .fin (A.rounded q) else JsNumber.infOfSign q
  | x => x

@[simp] theorem number_exact (x : JsNumber) : exact.number x = x := by
  cases x <;> rfl

/-- The numbers added up one after another. -/
def sumOf [A : Arithmetic] (xs : List ℚ) : ℚ := xs.foldl (fun acc x => A.rounded (acc + x)) 0

theorem sumOf_concat [A : Arithmetic] (xs : List ℚ) (x : ℚ) :
    sumOf (xs ++ [x]) = A.rounded (sumOf xs + x) := by
  rw [sumOf, List.foldl_append]
  rfl

class Lawful (A : Arithmetic) : Prop where
  mono : ∀ {x y : ℚ}, x ≤ y → A.rounded x ≤ A.rounded y
  neg : ∀ x : ℚ, A.rounded (-x) = -A.rounded x
  idem : ∀ x : ℚ, A.rounded (A.rounded x) = A.rounded x
  /-- No number of the arithmetic is nearer. -/
  nearest : ∀ {x y : ℚ}, A.rounded y = y → |A.rounded x - x| ≤ |y - x|
  two_zpow : ∀ {e : ℤ}, -1074 ≤ e → A.rounded (2 ^ e) = 2 ^ e
  finite_mono : ∀ {x y : ℚ}, |x| ≤ |y| → A.finite y → A.finite x
  /-- A step of one does not lead to an infinity. -/
  finite_near : ∀ {x y : ℚ}, A.rounded y = y → A.finite y → |x - y| ≤ 1 → A.finite (A.rounded x)
  finite_zero : A.finite 0

instance : Lawful exact where
  mono h := h
  neg _ := rfl
  idem _ := rfl
  nearest _ := by
    rw [rounded_exact, sub_self, abs_zero]
    exact abs_nonneg _
  two_zpow _ := rfl
  finite_mono _ _ := rfl
  finite_near _ _ _ := rfl
  finite_zero := rfl

instance : Lawful doubles where
  mono := Binary64.nearest_mono
  neg := Binary64.nearest_neg
  idem := Binary64.nearest_nearest
  nearest := Binary64.abs_nearest_sub_le_abs
  two_zpow := by
    intro e he
    have h := Binary64.nearest_eq_self (show |(1 : ℤ)| ≤ 2 ^ 53 by norm_num) he
    rwa [Int.cast_one, one_mul] at h
  finite_mono := by
    intro x y h hy
    exact decide_eq_true (h.trans_lt (of_decide_eq_true hy))
  finite_near := by
    intro x y hself hy h
    exact decide_eq_true (Binary64.abs_nearest_lt_of_near hself (of_decide_eq_true hy) h)
  finite_zero := decide_eq_true (by rw [abs_zero]; exact Binary64.two_zpow_pos _)

theorem sumOf_exact (xs : List ℚ) : sumOf (A := exact) xs = xs.sum := by
  show xs.foldl (fun acc x => acc + x) 0 = xs.sum
  rw [List.sum_eq_foldl]

section Lawful

variable {A : Arithmetic} [A.Lawful]

@[simp] theorem rounded_zero : A.rounded 0 = 0 := by
  have h := Lawful.neg (A := A) 0
  rw [neg_zero] at h
  linarith

theorem rounded_nonneg {x : ℚ} (hx : 0 ≤ x) : 0 ≤ A.rounded x := by
  rw [← rounded_zero (A := A)]
  exact Lawful.mono hx

theorem rounded_nonpos {x : ℚ} (hx : x ≤ 0) : A.rounded x ≤ 0 := by
  rw [← rounded_zero (A := A)]
  exact Lawful.mono hx

/-- Every number that is not vanishingly small stays positive. -/
theorem rounded_pos {x : ℚ} (hx : 2 ^ (-1074 : ℤ) ≤ x) : 0 < A.rounded x := by
  calc (0 : ℚ) < 2 ^ (-1074 : ℤ) := Binary64.two_zpow_pos _
    _ = A.rounded (2 ^ (-1074 : ℤ)) := (Lawful.two_zpow le_rfl).symm
    _ ≤ A.rounded x := Lawful.mono hx

theorem pos_of_rounded_pos {x : ℚ} (h : 0 < A.rounded x) : 0 < x := by
  by_contra hle
  exact absurd h (not_lt.mpr (rounded_nonpos (not_lt.mp hle)))

theorem finite_finiteOrZero (x : ℚ) : A.finite (A.finiteOrZero x) := by
  unfold finiteOrZero
  cases h : A.finite x with
  | true => exact h
  | false => exact Lawful.finite_zero

theorem rounded_finiteOrZero {x : ℚ} (h : A.rounded x = x) :
    A.rounded (A.finiteOrZero x) = A.finiteOrZero x := by
  unfold finiteOrZero
  cases A.finite x with
  | true => exact h
  | false => exact rounded_zero

theorem rounded_abs (x : ℚ) : A.rounded |x| = |A.rounded x| := by
  rcases le_total 0 x with hx | hx
  · rw [abs_of_nonneg hx, abs_of_nonneg (rounded_nonneg hx)]
  · rw [abs_of_nonpos hx, abs_of_nonpos (rounded_nonpos hx), Lawful.neg]

/-! ## Sums of what is not negative -/

theorem rounded_sumOf (xs : List ℚ) : A.rounded (A.sumOf xs) = A.sumOf xs := by
  induction xs using List.reverseRecOn with
  | nil => exact rounded_zero
  | append_singleton xs x ih =>
      rw [sumOf_concat]
      exact Lawful.idem _

/-- Adding more to more gives more, in any number of steps. -/
theorem foldl_le_foldl {xs ys : List ℚ} (h : List.SublistForall₂ (· ≤ ·) xs ys) (hys : ∀ y ∈ ys, 0 ≤ y)
    {a b : ℚ} (hab : a ≤ b) (hb : A.rounded b = b) :
    xs.foldl (fun acc x => A.rounded (acc + x)) a ≤ ys.foldl (fun acc y => A.rounded (acc + y)) b := by
  induction h generalizing a b with
  | @nil ys =>
      -- Nothing is left on the one side, and the other one only grows.
      induction ys generalizing b with
      | nil => exact hab
      | cons y ys ih =>
          obtain ⟨hy, hrest⟩ := List.forall_mem_cons.mp hys
          apply ih hrest _ (Lawful.idem _)
          calc a ≤ b := hab
            _ = A.rounded b := hb.symm
            _ ≤ A.rounded (b + y) := Lawful.mono (le_add_of_nonneg_right hy)
  | cons hxy _ ih =>
      exact ih (List.forall_mem_cons.mp hys).2 (Lawful.mono (add_le_add hab hxy)) (Lawful.idem _)
  | @cons_right y xs ys _ ih =>
      obtain ⟨hy, hrest⟩ := List.forall_mem_cons.mp hys
      apply ih hrest _ (Lawful.idem _)
      calc a ≤ b := hab
        _ = A.rounded b := hb.symm
        _ ≤ A.rounded (b + y) := Lawful.mono (le_add_of_nonneg_right hy)

theorem sumOf_le_sumOf {xs ys : List ℚ} (h : List.SublistForall₂ (· ≤ ·) xs ys)
    (hys : ∀ y ∈ ys, 0 ≤ y) : A.sumOf xs ≤ A.sumOf ys :=
  foldl_le_foldl h hys le_rfl rounded_zero

/-- Smaller numbers in the same places. -/
theorem sumOf_le_of_forall₂ {xs ys : List ℚ} (h : List.Forall₂ (· ≤ ·) xs ys)
    (hys : ∀ y ∈ ys, 0 ≤ y) : A.sumOf xs ≤ A.sumOf ys :=
  sumOf_le_sumOf (List.sublistForall₂_iff.mpr ⟨ys, h, List.Sublist.refl ys⟩) hys

theorem sumOf_nonneg {xs : List ℚ} (h : ∀ x ∈ xs, 0 ≤ x) : 0 ≤ A.sumOf xs :=
  foldl_le_foldl .nil h le_rfl rounded_zero

end Lawful

end Arithmetic
