import Mathlib.Data.List.MinMax
import Mathlib.Data.List.Sort
import NexusQuant.Lib.LiveMap

/-!
# Values at instants

A collection with an entry for a name and an instant, as a table of time series is: `latestBefore`
reads, for a name and an instant, the value at the greatest smaller instant the name has one at, and
`newest` the last entries of a name.
-/

namespace LiveMap

variable {κ τ α : Type*} [DecidableEq κ] [LinearOrder τ]

/-- The entry of the name at the greatest instant before `t`. -/
def cellBefore (m : LiveMap (κ × τ) α) (k : κ) (t : τ) : Option (Cell (κ × τ) α) :=
  (m.cells.filter fun c => c.key.1 = k ∧ c.key.2 < t).argmax fun c => c.key.2

def latestBefore (m : LiveMap (κ × τ) α) (k : κ) (t : τ) : Option α :=
  (m.cellBefore k t).map Cell.value

variable {m : LiveMap (κ × τ) α} {k : κ} {t : τ} {v : α}

theorem mem_before {c : Cell (κ × τ) α} :
    (c ∈ m.cells.filter fun c => c.key.1 = k ∧ c.key.2 < t) ↔
      c ∈ m.cells ∧ c.key.1 = k ∧ c.key.2 < t := by
  rw [List.mem_filter, decide_eq_true_iff]

theorem latestBefore_eq_some : m.latestBefore k t = some v ↔
    ∃ s < t, m.get? (k, s) = some v ∧ ∀ s' < t, (∃ w, m.get? (k, s') = some w) → s' ≤ s := by
  unfold latestBefore cellBefore
  rw [Option.map_eq_some_iff]
  constructor
  · rintro ⟨c, hc, rfl⟩
    obtain ⟨hmem, rfl, hlt⟩ := mem_before.mp (List.argmax_mem hc)
    refine ⟨c.key.2, hlt, get?_eq_some.mpr ⟨c, hmem, rfl, rfl⟩, ?_⟩
    rintro s hs ⟨w, hw⟩
    obtain ⟨d, hd, hkey, -⟩ := get?_eq_some.mp hw
    have hle := List.le_of_mem_argmax (mem_before.mpr ⟨hd, by rw [hkey], by rw [hkey]; exact hs⟩) hc
    rw [hkey] at hle
    exact hle
  · rintro ⟨s, hs, hget, hmax⟩
    obtain ⟨c, hc, hkey, rfl⟩ := get?_eq_some.mp hget
    have hmem := mem_before.mpr ⟨hc, by rw [hkey], by rw [hkey]; exact hs⟩
    cases hbest : (m.cells.filter fun c => c.key.1 = k ∧ c.key.2 < t).argmax fun c => c.key.2 with
    | none => rw [List.argmax_eq_none.mp hbest] at hmem; cases hmem
    | some d =>
        -- The greatest instant is the one at hand, and it has one entry.
        obtain ⟨hd, hk, hlt⟩ := mem_before.mp (List.argmax_mem hbest)
        have hle := List.le_of_mem_argmax hmem hbest
        rw [hkey] at hle
        have hge := hmax d.key.2 hlt ⟨d.value, get?_eq_some.mpr ⟨d, hd, by rw [← hk], rfl⟩⟩
        have hsame : d.key = c.key := by
          rw [hkey]
          exact Prod.ext hk (le_antisymm hge hle)
        exact ⟨d, rfl, by rw [List.inj_on_of_nodup_map m.nodup hd hc hsame]⟩

theorem latestBefore_eq_none :
    m.latestBefore k t = none ↔ ∀ s < t, m.get? (k, s) = none := by
  unfold latestBefore cellBefore
  rw [Option.map_eq_none_iff, List.argmax_eq_none, List.filter_eq_nil_iff]
  constructor
  · intro h s hs
    cases hget : m.get? (k, s) with
    | none => rfl
    | some w =>
        obtain ⟨d, hd, hkey, -⟩ := get?_eq_some.mp hget
        have hnot := h d hd
        rw [hkey] at hnot
        simp [hs] at hnot
  · intro h c hc hboth
    obtain ⟨rfl, hlt⟩ := of_decide_eq_true hboth
    have hget := h c.key.2 hlt
    rw [get?_eq_some.mpr ⟨c, hc, rfl, rfl⟩] at hget
    cases hget

/-- The latest value before an instant depends on what is found under each key, nothing else. -/
theorem latestBefore_mapValues {β : Type*} (f : α → β) (m : LiveMap (κ × τ) α) (k : κ) (t : τ) :
    (m.mapValues f).latestBefore k t = (m.latestBefore k t).map f := by
  cases hlatest : m.latestBefore k t with
  | none =>
      rw [Option.map_none, latestBefore_eq_none]
      intro s hs
      rw [get?_mapValues, latestBefore_eq_none.mp hlatest s hs]
      rfl
  | some v =>
      obtain ⟨s, hs, hget, hmax⟩ := latestBefore_eq_some.mp hlatest
      rw [Option.map_some, latestBefore_eq_some]
      refine ⟨s, hs, by rw [get?_mapValues, hget]; rfl, ?_⟩
      rintro s' hs' ⟨w, hw⟩
      rw [get?_mapValues, Option.map_eq_some_iff] at hw
      obtain ⟨w', hw', -⟩ := hw
      exact hmax s' hs' ⟨w', hw'⟩

/-! ## The last entries -/

/-- The entries of the name, the latest first. -/
def series (m : LiveMap (κ × τ) α) (k : κ) : List (Cell (κ × τ) α) :=
  (m.cells.filter fun c => c.key.1 = k).insertionSort fun c d => d.key.2 ≤ c.key.2

def newest (m : LiveMap (κ × τ) α) (k : κ) (n : ℕ) : List (Cell (κ × τ) α) :=
  (m.series k).take n

variable {n : ℕ} {c : Cell (κ × τ) α}

theorem mem_series : c ∈ m.series k ↔ c ∈ m.cells ∧ c.key.1 = k := by
  unfold series
  rw [List.mem_insertionSort, List.mem_filter, decide_eq_true_iff]

theorem mem_of_mem_newest (h : c ∈ m.newest k n) : c ∈ m.cells ∧ c.key.1 = k :=
  mem_series.mp (List.mem_of_mem_take h)

/-- The first of the newest entries is the latest of the name. -/
theorem le_of_head_newest (h : (m.newest k n).head? = some c) {d : Cell (κ × τ) α}
    (hd : d ∈ m.cells) (hk : d.key.1 = k) : d.key.2 ≤ c.key.2 := by
  unfold newest at h
  have hmem : d ∈ m.series k := mem_series.mpr ⟨hd, hk⟩
  have hsorted : (m.series k).Pairwise fun c d => d.key.2 ≤ c.key.2 :=
    @List.pairwise_insertionSort _ (fun c d : Cell (κ × τ) α => d.key.2 ≤ c.key.2) _
      ⟨fun c d => le_total d.key.2 c.key.2⟩ ⟨fun _ _ _ hab hbc => le_trans hbc hab⟩ _
  cases n with
  | zero => cases h
  | succ n =>
      cases hl : m.series k with
      | nil =>
          rw [hl] at hmem
          cases hmem
      | cons e rest =>
          rw [hl] at h hmem hsorted
          obtain rfl : e = c := Option.some.inj h
          rcases List.mem_cons.mp hmem with rfl | hrest
          · exact le_refl _
          · exact (List.pairwise_cons.mp hsorted).1 d hrest

/-- A write under another name does not touch the entries of this one. -/
theorem series_set_of_ne {key : κ × τ} (h : key.1 ≠ k) : (m.set key v).series k = m.series k := by
  have hcells : ((m.set key v).cells.filter fun c => c.key.1 = k) =
      m.cells.filter fun c => c.key.1 = k := by
    unfold set
    by_cases hkey : key ∈ m.keys
    · rw [dif_pos hkey]
      show (m.cells.map (Cell.put key v)).filter _ = _
      rw [List.filter_map]
      have hsame : (fun c : Cell (κ × τ) α => decide (c.key.1 = k)) ∘ Cell.put key v =
          fun c => decide (c.key.1 = k) := by
        funext c
        simp
      rw [hsame]
      conv_rhs => rw [← List.map_id (m.cells.filter _)]
      apply List.map_congr_left
      intro c hc
      have hck := of_decide_eq_true (List.mem_filter.mp hc).2
      show Cell.put key v c = c
      unfold Cell.put
      rw [if_neg]
      rintro rfl
      exact h hck
    · rw [dif_neg hkey]
      show (m.cells ++ [_]).filter _ = _
      rw [List.filter_append]
      simp [h]
  unfold series
  rw [hcells]

theorem newest_set_of_ne {key : κ × τ} (h : key.1 ≠ k) :
    (m.set key v).newest k n = m.newest k n := by
  unfold newest
  rw [series_set_of_ne h]

end LiveMap
