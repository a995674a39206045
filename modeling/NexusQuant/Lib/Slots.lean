import Mathlib.Data.List.Nodup
import Mathlib.Data.List.Perm.Basic

/-!
# Tables of calls in flight

A list of what is under way, each entry addressed by its position: an entry ends (`eraseIdx`), goes on
to its next stage (`set`) or joins at the end.  What matters of the list is which entries it has, so
the lemmas say it up to order; where entries have distinct names, a name tells its entry.
-/

namespace Slots

variable {α β : Type*} {l : List α} {i : ℕ} {a b : α}

theorem perm_cons_eraseIdx (h : l[i]? = some a) : (a :: l.eraseIdx i).Perm l := by
  obtain ⟨hi, rfl⟩ := List.getElem?_eq_some_iff.mp h
  exact List.getElem_cons_eraseIdx_perm hi

theorem perm_cons_set (h : l[i]? = some a) : (a :: l.set i b).Perm (b :: l) := by
  obtain ⟨hi, rfl⟩ := List.getElem?_eq_some_iff.mp h
  induction l generalizing i with
  | nil => exact absurd hi (Nat.not_lt_zero i)
  | cons c l ih =>
      cases i with
      | zero => exact List.Perm.swap b c l
      | succ i =>
          have hlt : i < l.length := Nat.lt_of_succ_lt_succ hi
          have hrest := ih hlt (List.getElem?_eq_getElem hlt)
          exact (List.Perm.swap c _ _).trans ((hrest.cons c).trans (List.Perm.swap b c l))

theorem mem_set_self (h : l[i]? = some a) : b ∈ l.set i b :=
  List.mem_set (List.getElem?_eq_some_iff.mp h).1 b

/-- An entry is the one that moved, or is still there. -/
theorem eq_or_mem_set (h : l[i]? = some a) {c : α} (hc : c ∈ l) : c = a ∨ c ∈ l.set i b :=
  List.mem_cons.mp ((perm_cons_set h).mem_iff.mpr (List.mem_cons_of_mem b hc))

theorem eq_or_mem_eraseIdx (h : l[i]? = some a) {c : α} (hc : c ∈ l) : c = a ∨ c ∈ l.eraseIdx i :=
  List.mem_cons.mp ((perm_cons_eraseIdx h).mem_iff.mpr hc)

/-! ## Entries with distinct names -/

section Names

variable {f : α → β}

theorem map_set (h : l[i]? = some a) (hf : f b = f a) : (l.set i b).map f = l.map f := by
  obtain ⟨hi, rfl⟩ := List.getElem?_eq_some_iff.mp h
  rw [List.map_set, hf]
  apply List.ext_getElem?
  intro j
  rw [List.getElem?_set, List.getElem?_map]
  by_cases hj : i = j
  · subst hj
    simp [hi]
  · simp [hj]

/-- No other entry has the name of the one that moved. -/
theorem eq_of_mem_set (h : l[i]? = some a) (hf : f b = f a) (hnodup : (l.map f).Nodup) {c : α}
    (hc : c ∈ l.set i b) (hname : f c = f b) : c = b := by
  rw [← map_set h hf] at hnodup
  exact List.inj_on_of_nodup_map hnodup hc (mem_set_self h) hname

theorem map_eraseIdx [DecidableEq β] (h : l[i]? = some a) (hnodup : (l.map f).Nodup) :
    (l.eraseIdx i).map f = (l.map f).filter (· ≠ f a) := by
  induction l generalizing i with
  | nil => cases h
  | cons c l ih =>
      rw [List.map_cons, List.nodup_cons] at hnodup
      cases i with
      | zero =>
          obtain rfl : c = a := Option.some.inj h
          show l.map f = ((f c) :: l.map f).filter _
          rw [List.filter_cons_of_neg (by simp), List.filter_eq_self.mpr]
          intro x hx
          apply decide_eq_true
          rintro rfl
          exact hnodup.1 hx
      | succ i =>
          have hne : f c ≠ f a := by
            intro heq
            exact hnodup.1 (heq ▸ List.mem_map_of_mem (List.mem_of_getElem? h))
          show f c :: (l.eraseIdx i).map f = (f c :: l.map f).filter _
          rw [List.filter_cons_of_pos (by simpa using hne), ih h hnodup.2]

end Names

end Slots
