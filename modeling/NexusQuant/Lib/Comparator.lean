import Mathlib.Algebra.Order.Ring.Rat
import Mathlib.Data.List.Sort

/-!
# Comparators

A comparator in the manner of `Array.prototype.sort`: the sign of `cmp a b` says which of two values
comes first.  `lex` tries a list of them one after the other.  A sort by a consistent comparator
depends on the values alone, and not on the order they came in, as soon as the comparator tells
different values apart.
-/

namespace Comparator

variable {α β R : Type*} [LinearOrder R] [Zero R]

/-- Swapping the values swaps the sign, and what is not after is transitive. -/
structure Consistent (cmp : α → α → R) : Prop where
  swap : ∀ a b, cmp a b < 0 ↔ 0 < cmp b a
  trans : ∀ a b c, cmp a b ≤ 0 → cmp b c ≤ 0 → cmp a c ≤ 0

/-- Only equal values compare as equal. -/
def Separates (cmp : α → α → R) : Prop := ∀ a b, cmp a b = 0 → a = b

namespace Consistent

variable {cmp : α → α → R} (h : Consistent cmp) {a b c : α}

include h

theorem not_pos_iff : cmp a b ≤ 0 ↔ 0 ≤ cmp b a := by
  rw [← not_lt, ← h.swap b a, not_lt]

theorem eq_zero_comm : cmp a b = 0 ↔ cmp b a = 0 := by
  rw [le_antisymm_iff, le_antisymm_iff, h.not_pos_iff, ← h.not_pos_iff (a := b), and_comm]

theorem total (a b : α) : cmp a b ≤ 0 ∨ cmp b a ≤ 0 := by
  rw [h.not_pos_iff]
  exact le_total 0 (cmp b a)

theorem lt_of_lt_of_le (hab : cmp a b < 0) (hbc : cmp b c ≤ 0) : cmp a c < 0 := by
  by_contra hac
  -- Otherwise `c` is not after `a`, and so `b` is not after `a` either.
  have hca : cmp c a ≤ 0 := h.not_pos_iff.mpr (not_lt.mp hac)
  have hba := h.not_pos_iff.mp (h.trans _ _ _ hbc hca)
  exact absurd hab (not_lt.mpr hba)

theorem lt_of_le_of_lt (hab : cmp a b ≤ 0) (hbc : cmp b c < 0) : cmp a c < 0 := by
  by_contra hac
  have hca : cmp c a ≤ 0 := h.not_pos_iff.mpr (not_lt.mp hac)
  have hcb := h.not_pos_iff.mp (h.trans _ _ _ hca hab)
  exact absurd hbc (not_lt.mpr hcb)

theorem comap (f : β → α) : Consistent fun a b => cmp (f a) (f b) where
  swap _ _ := h.swap _ _
  trans _ _ _ := h.trans _ _ _

theorem reverse : Consistent fun a b => cmp b a where
  swap _ _ := h.swap _ _
  trans _ _ _ hab hbc := h.trans _ _ _ hbc hab

end Consistent

theorem consistent_sub (f : α → ℚ) : Consistent fun a b => f a - f b where
  swap a b := by rw [sub_neg, sub_pos]
  trans a b c hab hbc := by
    rw [sub_nonpos] at *
    exact hab.trans hbc

theorem Consistent.intCast {cmp : α → α → ℤ} (h : Consistent cmp) :
    Consistent fun a b => (cmp a b : ℚ) where
  swap a b := by exact_mod_cast h.swap a b
  trans a b c hab hbc := by exact_mod_cast h.trans a b c (by exact_mod_cast hab) (by exact_mod_cast hbc)

/-- The comparator of a linear order. -/
def ofOrder [LinearOrder α] (a b : α) : ℤ := if a < b then -1 else if b < a then 1 else 0

theorem ofOrder_nonpos [LinearOrder α] {a b : α} : ofOrder a b ≤ 0 ↔ a ≤ b := by
  unfold ofOrder
  rcases lt_trichotomy a b with hlt | rfl | hgt
  · simp [hlt, hlt.le]
  · simp
  · simp [hgt, hgt.not_gt]

theorem ofOrder_nonneg [LinearOrder α] {a b : α} : 0 ≤ ofOrder a b ↔ b ≤ a := by
  unfold ofOrder
  rcases lt_trichotomy a b with hlt | rfl | hgt
  · simp [hlt]
  · simp
  · simp [hgt, hgt.le, hgt.not_gt]

theorem consistent_ofOrder [LinearOrder α] : Consistent (ofOrder (α := α)) where
  swap a b := by rw [← not_le, ← not_le, ofOrder_nonneg, ofOrder_nonpos]
  trans a b c := by
    rw [ofOrder_nonpos, ofOrder_nonpos, ofOrder_nonpos]
    exact le_trans

theorem separates_ofOrder [LinearOrder α] : Separates (ofOrder (α := α)) :=
  fun _ _ h => le_antisymm (ofOrder_nonpos.mp h.le) (ofOrder_nonneg.mp h.ge)

/-! ## One comparator after the other -/

/-- The first of the results that is not zero. -/
def lex (keys : List (α → α → R)) (a b : α) : R :=
  ((keys.map fun key => key a b).find? (· ≠ 0)).getD 0

variable {key : α → α → R} {keys : List (α → α → R)} {a b : α}

@[simp] theorem lex_nil : lex ([] : List (α → α → R)) a b = 0 := rfl

theorem lex_cons : lex (key :: keys) a b = if key a b = 0 then lex keys a b else key a b := by
  unfold lex
  by_cases hzero : key a b = 0
  · rw [List.map_cons, List.find?_cons_of_neg (by simp [hzero]), if_pos hzero]
  · rw [List.map_cons, List.find?_cons_of_pos (by simp [hzero]), if_neg hzero]
    rfl

theorem lex_cons_lt : lex (key :: keys) a b < 0 ↔ key a b < 0 ∨ key a b = 0 ∧ lex keys a b < 0 := by
  rw [lex_cons]
  by_cases hzero : key a b = 0 <;> simp [hzero]

theorem lex_cons_pos : 0 < lex (key :: keys) a b ↔ 0 < key a b ∨ key a b = 0 ∧ 0 < lex keys a b := by
  rw [lex_cons]
  by_cases hzero : key a b = 0 <;> simp [hzero]

theorem lex_cons_le : lex (key :: keys) a b ≤ 0 ↔ key a b < 0 ∨ key a b = 0 ∧ lex keys a b ≤ 0 := by
  rw [lex_cons]
  by_cases hzero : key a b = 0
  · simp [hzero]
  · rw [if_neg hzero, le_iff_lt_or_eq]
    simp [hzero]

theorem lex_eq_zero : lex keys a b = 0 ↔ ∀ key ∈ keys, key a b = 0 := by
  induction keys with
  | nil => simp
  | cons key keys ih =>
      rw [lex_cons, List.forall_mem_cons, ← ih]
      by_cases hzero : key a b = 0 <;> simp [hzero]

theorem consistent_lex (h : ∀ key ∈ keys, Consistent key) : Consistent (lex keys) := by
  induction keys with
  | nil => constructor <;> simp
  | cons key keys ih =>
      obtain ⟨hkey, hkeys⟩ := List.forall_mem_cons.mp h
      have hrest := ih hkeys
      constructor
      · intro a b
        rw [lex_cons_lt, lex_cons_pos, hkey.swap, hkey.eq_zero_comm, hrest.swap]
      · intro a b c hab hbc
        rw [lex_cons_le] at *
        -- The first comparator decides the first step, the second one, or neither.
        rcases hab with hab | ⟨hab, hab'⟩
        · left
          apply hkey.lt_of_lt_of_le hab
          rcases hbc with hbc | ⟨hbc, -⟩ <;> exact hbc.le
        · rcases hbc with hbc | ⟨hbc, hbc'⟩
          · exact .inl (hkey.lt_of_le_of_lt hab.le hbc)
          · right
            constructor
            · apply le_antisymm (hkey.trans _ _ _ hab.le hbc.le)
              apply hkey.not_pos_iff.mp
              exact hkey.trans _ _ _ (hkey.eq_zero_comm.mp hbc).le (hkey.eq_zero_comm.mp hab).le
            · exact hrest.trans _ _ _ hab' hbc'

/-! ## Sorting -/

def sort (cmp : α → α → R) (values : List α) : List α :=
  values.insertionSort fun a b => cmp a b ≤ 0

variable {cmp : α → α → R} {values other : List α}

theorem perm_sort (cmp : α → α → R) (values : List α) : (sort cmp values).Perm values :=
  List.perm_insertionSort _ _

theorem Consistent.pairwise_sort (h : Consistent cmp) (values : List α) :
    (sort cmp values).Pairwise fun a b => cmp a b ≤ 0 := by
  have : Std.Total fun a b => cmp a b ≤ 0 := ⟨h.total⟩
  have : IsTrans α fun a b => cmp a b ≤ 0 := ⟨h.trans⟩
  exact List.pairwise_insertionSort _ values

/-- Two sorted lists of the same values are the same where the comparator tells the values apart. -/
theorem Consistent.eq_of_perm_of_pairwise (h : Consistent cmp)
    (hapart : ∀ a ∈ values, ∀ b ∈ values, cmp a b = 0 → a = b) (hperm : values.Perm other)
    (hvalues : values.Pairwise fun a b => cmp a b ≤ 0) (hother : other.Pairwise fun a b => cmp a b ≤ 0) :
    values = other := by
  apply hperm.eq_of_pairwise _ hvalues hother
  intro a b ha hb hab hba
  apply hapart a ha b (hperm.mem_iff.mpr hb)
  exact le_antisymm hab (h.not_pos_iff.mp hba)

theorem Consistent.sort_eq_of_perm_of_apart (h : Consistent cmp)
    (hapart : ∀ a ∈ values, ∀ b ∈ values, cmp a b = 0 → a = b) (hperm : values.Perm other) :
    sort cmp values = sort cmp other := by
  have hsorted : (sort cmp values).Perm (sort cmp other) :=
    (perm_sort cmp values).trans (hperm.trans (perm_sort cmp other).symm)
  apply h.eq_of_perm_of_pairwise _ hsorted (h.pairwise_sort values) (h.pairwise_sort other)
  intro a ha b hb
  exact hapart a ((perm_sort cmp values).mem_iff.mp ha) b ((perm_sort cmp values).mem_iff.mp hb)

theorem Consistent.sort_eq_of_perm (h : Consistent cmp) (hseparates : Separates cmp)
    (hperm : values.Perm other) : sort cmp values = sort cmp other :=
  h.sort_eq_of_perm_of_apart (fun a _ b _ => hseparates a b) hperm

/-- Filtering and sorting commute. -/
theorem Consistent.filter_sort (h : Consistent cmp)
    (hapart : ∀ a ∈ values, ∀ b ∈ values, cmp a b = 0 → a = b) (p : α → Bool) :
    (sort cmp values).filter p = sort cmp (values.filter p) := by
  have hperm : ((sort cmp values).filter p).Perm (sort cmp (values.filter p)) :=
    ((perm_sort cmp values).filter p).trans (perm_sort cmp (values.filter p)).symm
  apply h.eq_of_perm_of_pairwise _ hperm ((h.pairwise_sort values).filter p) (h.pairwise_sort _)
  intro a ha b hb
  have hmem {c : α} (hc : c ∈ (sort cmp values).filter p) : c ∈ values :=
    (perm_sort cmp values).mem_iff.mp (List.mem_filter.mp hc).1
  exact hapart a (hmem ha) b (hmem hb)

/-- In a sorted list a value stands behind as many values as compare as smaller. -/
theorem Consistent.findIdx_of_pairwise (h : Consistent cmp) {x : α} {p : α → Bool}
    (hp : ∀ a ∈ values, p a = true ↔ a = x) (hapart : ∀ a ∈ values, cmp a x = 0 → a = x)
    (hsorted : values.Pairwise fun a b => cmp a b ≤ 0) (hx : x ∈ values) :
    values.findIdx p = values.countP fun a => cmp a x < 0 := by
  have hself : ¬ cmp x x < 0 := fun hlt => absurd (h.swap x x |>.mp hlt) hlt.not_gt
  induction values with
  | nil => cases hx
  | cons a values ih =>
      obtain ⟨hfirst, hrest⟩ := List.pairwise_cons.mp hsorted
      rw [List.findIdx_cons]
      by_cases ha : a = x
      · -- Nothing behind the value compares as smaller.
        subst ha
        rw [(hp a List.mem_cons_self).mpr rfl]
        symm
        apply List.countP_eq_zero.mpr
        intro b hb
        rw [decide_eq_true_eq]
        rcases List.mem_cons.mp hb with rfl | hb
        · exact hself
        · exact not_lt.mpr (h.not_pos_iff.mp (hfirst b hb))
      · have hx' : x ∈ values := (List.mem_cons.mp hx).resolve_left (Ne.symm ha)
        have hlt : cmp a x < 0 :=
          lt_of_le_of_ne (hfirst x hx') fun hzero => ha (hapart a List.mem_cons_self hzero)
        have hpa : p a = false := by
          rw [← Bool.not_eq_true, hp a List.mem_cons_self]
          exact ha
        rw [hpa, List.countP_cons_of_pos (by simpa using hlt), cond_false]
        rw [ih (fun b hb => hp b (List.mem_cons_of_mem a hb))
          (fun b hb => hapart b (List.mem_cons_of_mem a hb)) hrest hx']

theorem Consistent.findIdx_sort (h : Consistent cmp) {x : α} {p : α → Bool}
    (hp : ∀ a ∈ values, p a = true ↔ a = x) (hapart : ∀ a ∈ values, cmp a x = 0 → a = x)
    (hx : x ∈ values) : (sort cmp values).findIdx p = values.countP fun a => cmp a x < 0 := by
  have hperm := perm_sort cmp values
  rw [← hperm.countP_eq]
  exact h.findIdx_of_pairwise (fun a ha => hp a (hperm.mem_iff.mp ha))
    (fun a ha => hapart a (hperm.mem_iff.mp ha)) (h.pairwise_sort values) (hperm.mem_iff.mpr hx)

end Comparator
