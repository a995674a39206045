import Mathlib.Algebra.Order.Ring.Int
import Mathlib.Data.Int.Order.Basic
import Mathlib.Data.List.Pairwise
import Mathlib.Data.List.Range
import Mathlib.Tactic.Linarith
import Mathlib.Tactic.Ring

/-!
# Fetching a window in pages

A series is a list in the order of its times, neighbours at least `step` apart.  A window is fetched in
pages of at most `limit` entries: page `k` asks for the times from `lo + k * width` on, where
`width = limit * step`, up to `step` before the next page begins.  No page is cut short by the limit;
what the pages leave out are exactly the entries in the open intervals between two of them.
-/

namespace Paging

/-- The beginnings of the pages: `for (cursor = lo; cursor <= hi; cursor += width)`. -/
def cursors (lo hi width : ℤ) : List ℤ :=
  (List.range ((hi - lo) / width + 1).toNat).map fun k : ℕ => lo + k * width

theorem cursors_of_lt {lo hi width : ℤ} (hwidth : 0 < width) (h : hi < lo) :
    cursors lo hi width = [] := by
  have hdiv : (hi - lo) / width < 0 := Int.ediv_neg_of_neg_of_pos (by omega) hwidth
  unfold cursors
  rw [Int.toNat_of_nonpos (by omega)]
  rfl

theorem cursors_of_le {lo hi width : ℤ} (hwidth : 0 < width) (h : lo ≤ hi) :
    cursors lo hi width = lo :: cursors (lo + width) hi width := by
  have hdiv : (hi - (lo + width)) / width = (hi - lo) / width - 1 := by
    rw [← sub_sub, Int.sub_ediv_of_dvd _ (dvd_refl width), Int.ediv_self hwidth.ne']
  have hnonneg : 0 ≤ (hi - lo) / width := Int.ediv_nonneg (by omega) hwidth.le
  have hcount : ((hi - lo) / width + 1).toNat = ((hi - (lo + width)) / width + 1).toNat + 1 := by
    rw [hdiv]
    omega
  unfold cursors
  rw [hcount, List.range_succ_eq_map, List.map_cons, List.map_map]
  congr 1
  · simp
  · apply List.map_congr_left
    intro k _
    show lo + ((k + 1 : ℕ) : ℤ) * width = lo + width + k * width
    push_cast
    ring

theorem le_of_mem_cursors {lo hi width c : ℤ} (hwidth : 0 < width) (h : c ∈ cursors lo hi width) :
    lo ≤ c := by
  obtain ⟨k, -, rfl⟩ := List.mem_map.mp h
  have hk : 0 ≤ (k : ℤ) * width := by positivity
  omega

variable {α : Type*} (time : α → ℤ)

/-- The entries whose time lies in the inclusive interval. -/
def inWindow (lo hi : ℤ) (l : List α) : List α := l.filter fun a => lo ≤ time a ∧ time a ≤ hi

/-- The answer to one request: the first entries of the interval, at most `limit`. -/
def page (limit : ℕ) (lo hi : ℤ) (l : List α) : List α := (inWindow time lo hi l).take limit

/-- Neighbours are at least `step` apart. -/
def Spaced (step : ℤ) (l : List α) : Prop := l.Pairwise fun a b => time a + step ≤ time b

variable {time} {l : List α} {step : ℤ}

theorem Spaced.length_le (h : Spaced time step l) {lo hi : ℤ}
    (hlo : ∀ a ∈ l, lo ≤ time a) (hhi : ∀ a ∈ l, time a ≤ hi) {limit : ℕ}
    (hroom : hi < lo + limit * step) : l.length ≤ limit := by
  -- On the list: every entry takes one step of the room.
  induction l generalizing lo limit with
  | nil => exact Nat.zero_le _
  | cons a l ih =>
      obtain ⟨hnext, hrest⟩ := List.pairwise_cons.mp h
      have ha := hlo a List.mem_cons_self
      have ha' := hhi a List.mem_cons_self
      cases limit with
      | zero =>
          rw [Nat.cast_zero, zero_mul] at hroom
          omega
      | succ limit =>
          apply Nat.succ_le_succ
          have hfrom : ∀ b ∈ l, lo + step ≤ time b := by
            intro b hb
            have := hnext b hb
            omega
          apply ih hrest hfrom
          · exact fun b hb => hhi b (List.mem_cons_of_mem a hb)
          · push_cast at hroom
            linarith

theorem Spaced.page_eq (h : Spaced time step l) {limit : ℕ} {lo hi : ℤ}
    (hroom : hi < lo + limit * step) : page time limit lo hi l = inWindow time lo hi l := by
  apply List.take_of_length_le
  have hspaced : Spaced time step (inWindow time lo hi l) := h.filter _
  have hlo : ∀ a ∈ inWindow time lo hi l, lo ≤ time a :=
    fun a ha => (of_decide_eq_true (List.mem_filter.mp ha).2).1
  have hhi : ∀ a ∈ inWindow time lo hi l, time a ≤ hi :=
    fun a ha => (of_decide_eq_true (List.mem_filter.mp ha).2).2
  exact hspaced.length_le hlo hhi hroom

/-- In the order of time, what comes before a threshold stands before the rest. -/
theorem Spaced.filter_split (h : Spaced time step l) (hstep : 0 < step) (p : α → Bool) (t : ℤ) :
    l.filter p = (l.filter fun a => p a && decide (time a < t)) ++
      l.filter fun a => p a && decide (t ≤ time a) := by
  induction l with
  | nil => rfl
  | cons a l ih =>
      obtain ⟨hnext, hrest⟩ := List.pairwise_cons.mp h
      by_cases hlt : time a < t
      · have hnot : decide (t ≤ time a) = false := decide_eq_false (not_le.mpr hlt)
        rw [List.filter_cons, List.filter_cons, List.filter_cons, hnot, decide_eq_true hlt,
          Bool.and_true, Bool.and_false, ih hrest]
        split <;> rfl
      · -- From the first entry at the threshold on, all of them are.
        have hnone : ∀ b ∈ a :: l, (p b && decide (time b < t)) = false := by
          intro b hb
          rw [Bool.and_eq_false_iff, decide_eq_false_iff_not]
          right
          rcases List.mem_cons.mp hb with rfl | hb
          · exact hlt
          · have := hnext b hb
            omega
        have hempty : ((a :: l).filter fun a => p a && decide (time a < t)) = [] := by
          rw [List.filter_eq_nil_iff]
          intro b hb
          rw [hnone b hb]
          exact Bool.false_ne_true
        rw [hempty, List.nil_append]
        apply List.filter_congr
        intro b hb
        have hge : t ≤ time b := by
          rcases List.mem_cons.mp hb with rfl | hb
          · exact not_lt.mp hlt
          · have := hnext b hb
            omega
        rw [decide_eq_true hge, Bool.and_true]

/-- A time that some page asks for, when the first one begins at `lo`. -/
def Asked (lo width step t : ℤ) : Prop := (t - lo) % width ≤ width - step

instance (lo width step t : ℤ) : Decidable (Asked lo width step t) :=
  inferInstanceAs (Decidable (_ ≤ _))

theorem asked_add (lo width step t : ℤ) :
    Asked (lo + width) width step t ↔ Asked lo width step t := by
  unfold Asked
  rw [← sub_sub, Int.sub_emod_right]

/-- The first page asks up to `step` before the second begins. -/
theorem asked_iff {lo width step t : ℤ} (hlo : lo ≤ t) (hlt : t < lo + width) :
    Asked lo width step t ↔ t ≤ lo + width - step := by
  unfold Asked
  rw [Int.emod_eq_of_lt (by omega) (by omega)]
  omega

/-- The pages together are the entries of the window that some page asks for. -/
theorem Spaced.flatMap_pages (h : Spaced time step l) (hstep : 0 < step) {limit : ℕ}
    (hlimit : 0 < limit) (lo hi : ℤ) :
    ((cursors lo hi (limit * step)).flatMap fun cursor =>
      page time limit cursor (min (cursor + limit * step - step) hi) l) =
    (inWindow time lo hi l).filter fun a => Asked lo (limit * step) step (time a) := by
  have hwidth : 0 < (limit : ℤ) * step := by positivity
  have hle : step ≤ (limit : ℤ) * step := by nlinarith [(Nat.one_le_cast (α := ℤ)).mpr hlimit]
  -- On the number of pages; every page takes the times up to the beginning of the next.
  obtain ⟨n, hn⟩ : ∃ n : ℕ, hi < lo + n * (limit * step) := by
    refine ⟨(hi - lo).toNat + 1, ?_⟩
    push_cast
    nlinarith [Int.self_le_toNat (hi - lo)]
  induction n generalizing lo with
  | zero =>
      rw [Nat.cast_zero, zero_mul, add_zero] at hn
      rw [cursors_of_lt hwidth hn]
      symm
      rw [List.flatMap_nil, List.filter_eq_nil_iff]
      intro a ha
      have hboth := of_decide_eq_true (List.mem_filter.mp ha).2
      omega
  | succ n ih =>
      by_cases hempty : hi < lo
      · rw [cursors_of_lt hwidth hempty]
        symm
        rw [List.flatMap_nil, List.filter_eq_nil_iff]
        intro a ha
        have hboth := of_decide_eq_true (List.mem_filter.mp ha).2
        omega
      · have hrest := ih (lo + limit * step) (by push_cast at hn ⊢; linarith)
        have hroom : min (lo + limit * step - step) hi < lo + limit * step := by omega
        rw [cursors_of_le hwidth (not_lt.mp hempty), List.flatMap_cons, hrest,
          h.page_eq hroom]
        unfold inWindow
        rw [List.filter_filter, List.filter_filter, h.filter_split hstep (fun a =>
          decide (Asked lo (limit * step) step (time a)) && decide (lo ≤ time a ∧ time a ≤ hi))
          (lo + limit * step)]
        congr 1
        · -- Before the next page begins: what is asked for lies up to the end of this one.
          apply List.filter_congr
          intro a _
          rw [Bool.eq_iff_iff]
          simp only [Bool.and_eq_true, decide_eq_true_eq]
          constructor
          · rintro ⟨hlo, hhi⟩
            have hlt : time a < lo + limit * step := by omega
            exact ⟨⟨(asked_iff hlo hlt).mpr (by omega), hlo, by omega⟩, hlt⟩
          · rintro ⟨⟨hasked, hlo, hhi⟩, hlt⟩
            have hend := (asked_iff hlo hlt).mp hasked
            omega
        · apply List.filter_congr
          intro a _
          rw [Bool.eq_iff_iff]
          simp only [Bool.and_eq_true, decide_eq_true_eq, asked_add]
          constructor
          · rintro ⟨hasked, hlo, hhi⟩
            exact ⟨⟨hasked, by omega, hhi⟩, hlo⟩
          · rintro ⟨⟨hasked, -, hhi⟩, hlo⟩
            exact ⟨hasked, hlo, hhi⟩

end Paging
