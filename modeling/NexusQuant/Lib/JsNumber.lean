import NexusQuant.Lib.Rounding

/-!
# Numbers of a dynamic language

A `JsNumber` is an exact rational or one of the three non-finite values of an IEEE number.  The
operations follow the IEEE rules on the non-finite values and are exact on the finite ones; there is
one zero, so that `x / 0` takes the sign of `x`.  Comparisons are Booleans, false as soon as one side
is not a number.
-/

inductive JsNumber where
  | fin (q : ℚ)
  | nan
  | posInf
  | negInf
deriving DecidableEq, Repr

namespace JsNumber

open Rounding

instance : Coe ℚ JsNumber := ⟨fin⟩

instance : Inhabited JsNumber := ⟨fin 0⟩

/-- `Number.isFinite`. -/
def isFinite : JsNumber → Bool
  | fin _ => true
  | _ => false

/-- The finite value, when there is one. -/
def finite? : JsNumber → Option ℚ
  | fin q => some q
  | _ => none

def neg : JsNumber → JsNumber
  | fin q => fin (-q)
  | nan => nan
  | posInf => negInf
  | negInf => posInf

def add : JsNumber → JsNumber → JsNumber
  | fin a, fin b => fin (a + b)
  | nan, _ => nan
  | _, nan => nan
  | posInf, negInf => nan
  | negInf, posInf => nan
  | posInf, _ => posInf
  | _, posInf => posInf
  | negInf, _ => negInf
  | _, negInf => negInf

def sub (a b : JsNumber) : JsNumber := add a (neg b)

/-- The infinity with the sign of `q`; an infinity times or over zero is resolved by the caller. -/
def infOfSign (q : ℚ) : JsNumber := if q < 0 then negInf else posInf

def mul : JsNumber → JsNumber → JsNumber
  | fin a, fin b => fin (a * b)
  | nan, _ => nan
  | _, nan => nan
  | fin a, posInf => if a = 0 then nan else infOfSign a
  | fin a, negInf => if a = 0 then nan else infOfSign (-a)
  | posInf, fin b => if b = 0 then nan else infOfSign b
  | negInf, fin b => if b = 0 then nan else infOfSign (-b)
  | posInf, posInf => posInf
  | posInf, negInf => negInf
  | negInf, posInf => negInf
  | negInf, negInf => posInf

def div : JsNumber → JsNumber → JsNumber
  | fin a, fin b => if b = 0 then (if a = 0 then nan else infOfSign a) else fin (a / b)
  | nan, _ => nan
  | _, nan => nan
  | fin _, _ => fin 0
  | posInf, fin b => infOfSign b
  | negInf, fin b => infOfSign (-b)
  | _, _ => nan

instance : Neg JsNumber := ⟨neg⟩
instance : Add JsNumber := ⟨add⟩
instance : Sub JsNumber := ⟨sub⟩
instance : Mul JsNumber := ⟨mul⟩
instance : Div JsNumber := ⟨div⟩

/-- `a < b`. -/
def lt : JsNumber → JsNumber → Bool
  | fin a, fin b => decide (a < b)
  | fin _, posInf => true
  | negInf, fin _ => true
  | negInf, posInf => true
  | _, _ => false

/-- `a <= b`. -/
def le : JsNumber → JsNumber → Bool
  | fin a, fin b => decide (a ≤ b)
  | fin _, posInf => true
  | posInf, posInf => true
  | negInf, fin _ => true
  | negInf, posInf => true
  | negInf, negInf => true
  | _, _ => false

/-- `Math.max`. -/
def max (a b : JsNumber) : JsNumber :=
  if a = nan ∨ b = nan then nan else if le a b then b else a

/-- `Math.min`. -/
def min (a b : JsNumber) : JsNumber :=
  if a = nan ∨ b = nan then nan else if le a b then a else b

/-- `Number(x.toFixed(dp))` for a finite `x`, and zero for the others, as the helpers that round
before a value leaves a package do. -/
def round (x : JsNumber) (dp : ℕ) : ℚ :=
  match x with
  | fin q => roundTo dp q
  | _ => 0

@[simp] theorem isFinite_fin (q : ℚ) : isFinite (fin q) = true := rfl
@[simp] theorem finite?_fin (q : ℚ) : finite? (fin q) = some q := rfl
@[simp] theorem fin_add (a b : ℚ) : fin a + fin b = fin (a + b) := rfl
@[simp] theorem fin_sub (a b : ℚ) : fin a - fin b = fin (a - b) := by
  rw [sub_eq_add_neg]; rfl
@[simp] theorem fin_mul (a b : ℚ) : fin a * fin b = fin (a * b) := rfl
@[simp] theorem fin_div {a b : ℚ} (hb : b ≠ 0) : fin a / fin b = fin (a / b) := if_neg hb
@[simp] theorem fin_lt (a b : ℚ) : lt (fin a) (fin b) = decide (a < b) := rfl
@[simp] theorem fin_le (a b : ℚ) : le (fin a) (fin b) = decide (a ≤ b) := rfl
@[simp] theorem round_fin (q : ℚ) (dp : ℕ) : round (fin q) dp = roundTo dp q := rfl

@[simp] theorem fin_max (a b : ℚ) : max (fin a) (fin b) = fin (Max.max a b) := by
  simp only [max, fin_le, reduceCtorEq, or_self, if_false, decide_eq_true_eq, max_def]
  split <;> rfl

@[simp] theorem fin_min (a b : ℚ) : min (fin a) (fin b) = fin (Min.min a b) := by
  simp only [min, fin_le, reduceCtorEq, or_self, if_false, decide_eq_true_eq, min_def]
  split <;> rfl

theorem lt_eq_false_of_le {a b : JsNumber} (h : le a b) : lt b a = false := by
  cases a <;> cases b <;> simp_all [le, lt]

theorem le_trans {a b c : JsNumber} (hab : le a b) (hbc : le b c) : le a c := by
  cases a <;> cases b <;> cases c <;> simp_all [le]
  linarith

theorem le_of_lt_eq_false {a b : JsNumber} (ha : a.isFinite) (hb : b.isFinite)
    (h : lt a b = false) : le b a := by
  cases a <;> cases b <;> simp_all [le, lt, isFinite]

theorem isFinite_neg {a : JsNumber} (h : a.isFinite) : (-a).isFinite := by
  cases a with
  | fin q => rfl
  | nan | posInf | negInf => cases h

theorem eq_fin_of_isFinite {a : JsNumber} (h : a.isFinite) : ∃ q, a = fin q := by
  cases a with
  | fin q => exact ⟨q, rfl⟩
  | nan | posInf | negInf => cases h

theorem round_mem_grid (x : JsNumber) (dp : ℕ) : round x dp ∈ grid dp := by
  cases x with
  | fin q => exact roundTo_mem_grid dp q
  | nan => exact (grid dp).zero_mem
  | posInf => exact (grid dp).zero_mem
  | negInf => exact (grid dp).zero_mem

end JsNumber
