import Mathlib.Data.List.Sort

/-!
# Keyset paging

Rows with distinct keys, read in the order of the keys: a page is the first rows after a cursor, and
the cursor then moves to the last row of the page.  What a reader has got is a window of the table,
all the rows between two keys.  A page extends the window at its end; a row inserted behind the
cursor leaves it; what was got of a window in order is a window again.
-/

namespace Keyset

variable {α κ : Type*} (key : α → κ)

/-- Where a reader at `cursor` is after the rows of a page. -/
def moved (cursor : κ) (page : List α) : κ := (page.getLast?.map key).getD cursor

theorem moved_eq_of_getLast {key : α → κ} {cursor : κ} {page : List α} {a : α}
    (h : page.getLast? = some a) : moved key cursor page = key a := by
  unfold moved
  rw [h]
  rfl

theorem moved_nil {key : α → κ} {cursor : κ} : moved key cursor [] = cursor := rfl

variable [LinearOrder κ]

def ascending (rows : List α) : List α := rows.insertionSort fun a b => key a ≤ key b

def descending (rows : List α) : List α := rows.insertionSort fun a b => key b ≤ key a

/-- The first rows after the cursor. -/
def after (cursor : κ) (limit : ℕ) (rows : List α) : List α :=
  (ascending key (rows.filter fun a => cursor < key a)).take limit

/-- The last rows, the very last one first. -/
def latest (limit : ℕ) (rows : List α) : List α := (descending key rows).take limit

def Increasing (l : List α) : Prop := l.Pairwise fun a b => key a < key b

/-- All the rows from one key to another, in order. -/
structure Window (rows : List α) (lo hi : κ) (l : List α) : Prop where
  le : lo ≤ hi
  increasing : Increasing key l
  mem_iff : ∀ a, a ∈ l ↔ a ∈ rows ∧ lo ≤ key a ∧ key a ≤ hi

variable {key} {rows l l' : List α} {lo hi cursor : κ} {limit : ℕ} {a b : α}

/-! ## Order -/

theorem increasing_ascending (hkeys : (rows.map key).Nodup) : Increasing key (ascending key rows) := by
  have hle : (ascending key rows).Pairwise fun a b => key a ≤ key b :=
    List.pairwise_insertionSort (fun a b => key a ≤ key b) rows
  have hne : ((ascending key rows).map key).Nodup :=
    (((List.perm_insertionSort _ rows).map key).nodup_iff).mpr hkeys
  rw [List.Nodup, List.pairwise_map] at hne
  exact (hle.and hne).imp fun h => lt_of_le_of_ne h.1 h.2

theorem increasing_reverse_descending (hkeys : (rows.map key).Nodup) :
    Increasing key (descending key rows).reverse := by
  have hle : (descending key rows).Pairwise fun a b => key b ≤ key a :=
    List.pairwise_insertionSort (fun a b => key b ≤ key a) rows
  have hne : ((descending key rows).map key).Nodup :=
    (((List.perm_insertionSort _ rows).map key).nodup_iff).mpr hkeys
  rw [List.Nodup, List.pairwise_map] at hne
  apply List.pairwise_reverse.mpr
  exact (hle.and hne).imp fun h => lt_of_le_of_ne h.1 h.2.symm

theorem Increasing.le_getLast (h : Increasing key l) (hlast : l.getLast? = some b) (ha : a ∈ l) :
    key a ≤ key b := by
  obtain ⟨init, rfl⟩ := List.getLast?_eq_some_iff.mp hlast
  rcases List.mem_append.mp ha with hinit | hend
  · exact ((List.pairwise_append.mp h).2.2 a hinit b List.mem_cons_self).le
  · rw [List.mem_singleton.mp hend]

theorem Increasing.head_le (h : Increasing key l) (hhead : l.head? = some b) (ha : a ∈ l) :
    key b ≤ key a := by
  obtain ⟨tail, rfl⟩ := List.head?_eq_some_iff.mp hhead
  rcases List.mem_cons.mp ha with rfl | htail
  · exact le_refl _
  · exact ((List.pairwise_cons.mp h).1 a htail).le

theorem mem_after (ha : a ∈ after key cursor limit rows) : a ∈ rows ∧ cursor < key a := by
  have hmem := (List.perm_insertionSort _ _).mem_iff.mp (List.mem_of_mem_take ha)
  exact ⟨(List.mem_filter.mp hmem).1, of_decide_eq_true (List.mem_filter.mp hmem).2⟩

theorem le_moved_after : cursor ≤ moved key cursor (after key cursor limit rows) := by
  cases hlast : (after key cursor limit rows).getLast? with
  | none => rw [List.getLast?_eq_none_iff.mp hlast, moved_nil]
  | some a =>
      rw [moved_eq_of_getLast hlast]
      exact (mem_after (List.mem_of_getLast? hlast)).2.le

theorem increasing_sorted_after (hkeys : (rows.map key).Nodup) :
    Increasing key (ascending key (rows.filter fun a => cursor < key a)) :=
  increasing_ascending (hkeys.sublist (List.filter_sublist.map key))

/-- A row after the cursor is on the page or after the page. -/
theorem mem_after_or_lt (hkeys : (rows.map key).Nodup) (ha : a ∈ rows) (hlt : cursor < key a) :
    a ∈ after key cursor limit rows ∨ moved key cursor (after key cursor limit rows) < key a := by
  have hmem : a ∈ ascending key (rows.filter fun a => cursor < key a) :=
    (List.perm_insertionSort _ _).mem_iff.mpr (List.mem_filter.mpr ⟨ha, decide_eq_true hlt⟩)
  have hinc : Increasing key (ascending key (rows.filter fun a => cursor < key a)) :=
    increasing_sorted_after hkeys
  rw [← List.take_append_drop limit (ascending key _)] at hmem hinc
  rcases List.mem_append.mp hmem with htake | hdrop
  · exact .inl htake
  · refine .inr ?_
    cases hlast : (after key cursor limit rows).getLast? with
    | none =>
        rw [List.getLast?_eq_none_iff.mp hlast, moved_nil]
        exact hlt
    | some b =>
        rw [moved_eq_of_getLast hlast]
        exact (List.pairwise_append.mp hinc).2.2 b (List.mem_of_getLast? hlast) a hdrop

theorem eq_nil_of_latest (hlimit : 0 < limit) (h : latest key limit rows = []) : rows = [] := by
  rcases List.take_eq_nil_iff.mp h with hzero | hnil
  · omega
  · exact List.perm_nil.mp (hnil ▸ (List.perm_insertionSort _ rows).symm)

/-! ## Windows -/

theorem window_nil (lo : κ) : Window key [] lo lo [] :=
  ⟨le_refl lo, List.Pairwise.nil, fun _ => ⟨fun h => absurd h List.not_mem_nil,
    fun h => absurd h.1 List.not_mem_nil⟩⟩

theorem Window.after (h : Window key rows lo hi l) (hkeys : (rows.map key).Nodup) (limit : ℕ) :
    Window key rows lo (moved key hi (after key hi limit rows)) (l ++ after key hi limit rows) := by
  have hinc : Increasing key (Keyset.after key hi limit rows) :=
    (increasing_sorted_after hkeys).sublist (List.take_sublist limit _)
  constructor
  · exact h.le.trans le_moved_after
  · apply List.pairwise_append.mpr
    refine ⟨h.increasing, hinc, fun a ha b hb => ?_⟩
    exact lt_of_le_of_lt ((h.mem_iff a).mp ha).2.2 (mem_after hb).2
  · intro a
    rw [List.mem_append]
    constructor
    · rintro (hold | hnew)
      · obtain ⟨hrow, hlo, hhi⟩ := (h.mem_iff a).mp hold
        exact ⟨hrow, hlo, hhi.trans le_moved_after⟩
      · obtain ⟨hrow, hlt⟩ := mem_after hnew
        refine ⟨hrow, h.le.trans hlt.le, ?_⟩
        cases hlast : (Keyset.after key hi limit rows).getLast? with
        | none =>
            rw [List.getLast?_eq_none_iff.mp hlast] at hnew
            exact absurd hnew List.not_mem_nil
        | some b =>
            rw [moved_eq_of_getLast hlast]
            exact hinc.le_getLast hlast hnew
    · intro ⟨hrow, hlo, hhi⟩
      by_cases hbefore : key a ≤ hi
      · exact .inl ((h.mem_iff a).mpr ⟨hrow, hlo, hbefore⟩)
      · rcases mem_after_or_lt hkeys hrow (not_le.mp hbefore) with hpage | hlt
        · exact .inr hpage
        · exact absurd hhi (not_le.mpr hlt)

theorem Window.insert (h : Window key rows lo hi l) (ha : hi < key a) :
    Window key (rows ++ [a]) lo hi l := by
  refine ⟨h.le, h.increasing, fun b => ?_⟩
  rw [h.mem_iff, List.mem_append]
  constructor
  · exact fun ⟨hrow, hbounds⟩ => ⟨.inl hrow, hbounds⟩
  · rintro ⟨hold | hnew, hbounds⟩
    · exact ⟨hold, hbounds⟩
    · rw [List.mem_singleton.mp hnew] at hbounds
      exact absurd hbounds.2 (not_le.mpr ha)

/-- What was got first of a window. -/
theorem Window.of_append (h : Window key rows lo hi (l ++ l')) (hlast : l.getLast? = some a) :
    Window key rows lo (key a) l := by
  have ha : a ∈ l := List.mem_of_getLast? hlast
  have hin := (h.mem_iff a).mp (List.mem_append_left l' ha)
  obtain ⟨hinc, -, hcross⟩ := List.pairwise_append.mp h.increasing
  refine ⟨hin.2.1, hinc, fun b => ⟨fun hb => ?_, fun ⟨hrow, hlo, hhi⟩ => ?_⟩⟩
  · have hb' := (h.mem_iff b).mp (List.mem_append_left l' hb)
    exact ⟨hb'.1, hb'.2.1, Increasing.le_getLast hinc hlast hb⟩
  · rcases List.mem_append.mp ((h.mem_iff b).mpr ⟨hrow, hlo, hhi.trans hin.2.2⟩) with hl | hl'
    · exact hl
    · exact absurd hhi (not_le.mpr (hcross a ha b hl'))

/-- The latest rows are those from the first of them on, and no row is after them. -/
theorem window_latest (hkeys : (rows.map key).Nodup) (cursor : κ)
    (hhead : (latest key limit rows).reverse.head? = some a) :
    Window key rows (key a) (moved key cursor (latest key limit rows).reverse)
      (latest key limit rows).reverse ∧
    ∀ b ∈ rows, key b ≤ moved key cursor (latest key limit rows).reverse := by
  have hsorted := increasing_reverse_descending hkeys
  have hsplit : (descending key rows).reverse =
      ((descending key rows).drop limit).reverse ++ (latest key limit rows).reverse := by
    rw [← List.reverse_append]
    exact congrArg List.reverse (List.take_append_drop limit (descending key rows)).symm
  rw [hsplit] at hsorted
  obtain ⟨-, hinc, hcross⟩ := List.pairwise_append.mp hsorted
  have hmem : ∀ b, b ∈ rows ↔ b ∈ ((descending key rows).drop limit).reverse ∨
      b ∈ (latest key limit rows).reverse := by
    intro b
    rw [← List.mem_append, ← hsplit, List.mem_reverse]
    exact (List.perm_insertionSort _ rows).mem_iff.symm
  have ha : a ∈ (latest key limit rows).reverse := List.mem_of_head? hhead
  obtain ⟨z, hlast⟩ : ∃ z, (latest key limit rows).reverse.getLast? = some z := by
    cases hlast : (latest key limit rows).reverse.getLast? with
    | none =>
        rw [List.getLast?_eq_none_iff.mp hlast] at ha
        exact absurd ha List.not_mem_nil
    | some z => exact ⟨z, rfl⟩
  have htop : ∀ b ∈ rows, key b ≤ key z := by
    intro b hb
    rcases (hmem b).mp hb with hold | hnew
    · exact (hcross b hold z (List.mem_of_getLast? hlast)).le
    · exact Increasing.le_getLast hinc hlast hnew
  rw [moved_eq_of_getLast hlast]
  refine ⟨⟨htop a ((hmem a).mpr (.inr ha)), hinc, fun b => ⟨fun hb => ?_, fun h => ?_⟩⟩, htop⟩
  · exact ⟨(hmem b).mpr (.inr hb), Increasing.head_le hinc hhead hb, Increasing.le_getLast hinc hlast hb⟩
  · rcases (hmem b).mp h.1 with hold | hnew
    · exact absurd h.2.1 (not_le.mpr (hcross b hold a ha))
    · exact hnew

/-! ## Progress -/

/-- How many rows are after the cursor. -/
def ahead (key : α → κ) (cursor : κ) (rows : List α) : ℕ :=
  (rows.filter fun a => cursor < key a).length

theorem lt_of_ahead_eq_zero (h : ahead key cursor rows = 0) (ha : a ∈ rows) : key a ≤ cursor := by
  by_contra hlt
  have hmem : a ∈ rows.filter fun a => cursor < key a :=
    List.mem_filter.mpr ⟨ha, decide_eq_true (not_le.mp hlt)⟩
  rw [List.length_eq_zero_iff.mp h] at hmem
  exact absurd hmem List.not_mem_nil

/-- A page leaves fewer rows ahead. -/
theorem ahead_after (hlimit : 0 < limit) :
    ahead key (moved key cursor (after key cursor limit rows)) rows ≤ ahead key cursor rows - 1 := by
  unfold ahead
  have hfilter : (rows.filter fun a => moved key cursor (after key cursor limit rows) < key a) =
      (rows.filter fun a => cursor < key a).filter
        fun a => moved key cursor (after key cursor limit rows) < key a := by
    rw [List.filter_filter]
    apply List.filter_congr
    intro a _
    rw [Bool.eq_iff_iff, Bool.and_eq_true, decide_eq_true_eq, decide_eq_true_eq]
    exact ⟨fun h => ⟨h, lt_of_le_of_lt le_moved_after h⟩, fun h => h.1⟩
  rw [hfilter]
  cases hlast : (after key cursor limit rows).getLast? with
  | none =>
      have hempty : rows.filter (fun a => cursor < key a) = [] := by
        have htake := List.getLast?_eq_none_iff.mp hlast
        rcases List.take_eq_nil_iff.mp htake with hzero | hnil
        · omega
        · exact List.perm_nil.mp (hnil ▸ (List.perm_insertionSort _ _).symm)
      rw [hempty]
      exact Nat.zero_le _
  | some b =>
      have hb := mem_after (List.mem_of_getLast? hlast)
      apply Nat.le_sub_one_of_lt
      apply List.length_filter_lt_length_iff_exists.mpr
      refine ⟨b, List.mem_filter.mpr ⟨hb.1, decide_eq_true hb.2⟩, ?_⟩
      rw [moved_eq_of_getLast hlast, decide_eq_true_eq]
      exact lt_irrefl _

end Keyset
