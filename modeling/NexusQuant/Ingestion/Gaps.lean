import NexusQuant.Ingestion.Candles

/-!
# Gaps of a candle series

`dq/gaps.ts`: the slots of the timeframe grid in a window that no timestamp fills, as half-open runs.
One scan over the slots carries the run that is open; `Scanned` says what the scan has found of the
slots it has passed.
-/

namespace NexusQuant.Ingestion

open Paging

structure CandleGap where
  fromMs : ℤ
  toMs : ℤ
  missingBars : ℕ
deriving DecidableEq, Repr

/-- `Math.ceil(a / b)` of integers, for a positive `b`. -/
def ceilDiv (a b : ℤ) : ℤ := -(-a / b)

/-- The first slot of the grid that is not before an instant. -/
def firstAligned (gridMs fromMs : ℤ) : ℤ := ceilDiv fromMs gridMs * gridMs

structure GapScan where
  gaps : List CandleGap
  runStart : Option ℤ
  runBars : ℕ
deriving DecidableEq, Repr

/-- The open run is pushed. -/
def GapScan.flush (gridMs : ℤ) (s : GapScan) : GapScan :=
  match s.runStart with
  | none => s
  | some start =>
      { gaps := s.gaps ++ [⟨start, start + s.runBars * gridMs, s.runBars⟩]
        runStart := none
        runBars := 0 }

/-- One slot. -/
def GapScan.slot (gridMs : ℤ) (present : List ℤ) (s : GapScan) (ms : ℤ) : GapScan :=
  if ms ∈ present then s.flush gridMs
  else { s with runStart := some (s.runStart.getD ms), runBars := s.runBars + 1 }

/-- The timestamps that fill a slot of the window. -/
def presentSlots (timestamps : List ℤ) (gridMs first endMs : ℤ) : List ℤ :=
  timestamps.filter fun ms => ms % gridMs = 0 ∧ first ≤ ms ∧ ms < endMs

def detectCandleGaps (timestamps : List ℤ) (timeframe : Timeframe) (fromMs toMs : ℤ) :
    List CandleGap :=
  let gridMs := timeframeMs timeframe
  let first := firstAligned gridMs fromMs
  if toMs ≤ first then []
  else
    let present := presentSlots timestamps gridMs first toMs
    -- `for (ms = first; ms < toMs; ms += gridMs)`, and the run that reaches the end.
    let scan := (cursors first (toMs - 1) gridMs).foldl (GapScan.slot gridMs present) ⟨[], none, 0⟩
    (scan.flush gridMs).gaps

/-! ## The grid -/

section Grid

variable {gridMs : ℤ}

theorem ceilDiv_eq (hgrid : 0 < gridMs) (a : ℤ) : ceilDiv a gridMs = (a - 1) / gridMs + 1 := by
  have hdiv := Int.mul_ediv_add_emod (-a) gridMs
  have hlow := Int.emod_nonneg (-a) hgrid.ne'
  have hhigh := Int.emod_lt_of_pos (-a) hgrid
  have hfloor : (a - 1) / gridMs = -(-a / gridMs) - 1 := by
    apply (Int.ediv_eq_iff_of_pos hgrid).mpr
    rw [sub_mul, neg_mul, one_mul, mul_comm]
    omega
  unfold ceilDiv
  rw [hfloor, sub_add_cancel]

theorem dvd_firstAligned (fromMs : ℤ) : gridMs ∣ firstAligned gridMs fromMs := Dvd.intro_left _ rfl

theorem firstAligned_spec (hgrid : 0 < gridMs) (fromMs : ℤ) :
    fromMs ≤ firstAligned gridMs fromMs ∧ firstAligned gridMs fromMs < fromMs + gridMs := by
  have hdiv := Int.mul_ediv_add_emod (-fromMs) gridMs
  have hlow := Int.emod_nonneg (-fromMs) hgrid.ne'
  have hhigh := Int.emod_lt_of_pos (-fromMs) hgrid
  unfold firstAligned ceilDiv
  rw [neg_mul, mul_comm]
  omega

/-- No slot lies between an instant and its first slot. -/
theorem firstAligned_le {fromMs ms : ℤ} (hgrid : 0 < gridMs) (hdvd : gridMs ∣ ms) :
    firstAligned gridMs fromMs ≤ ms ↔ fromMs ≤ ms := by
  obtain ⟨hlow, hhigh⟩ := firstAligned_spec hgrid fromMs
  constructor
  · exact hlow.trans
  · intro h
    obtain ⟨a, ha⟩ := @dvd_firstAligned gridMs fromMs
    obtain ⟨b, rfl⟩ := hdvd
    rw [ha] at hhigh ⊢
    have hlt : gridMs * a < gridMs * (b + 1) := by
      rw [mul_add, mul_one]
      omega
    have hab := lt_of_mul_lt_mul_left hlt hgrid.le
    exact mul_le_mul_of_nonneg_left (by omega) hgrid.le

/-- The number of slots from `first` on before `endMs`, as the loop counts them. -/
def slotCount (gridMs first endMs : ℤ) : ℕ := ((endMs - 1 - first) / gridMs + 1).toNat

theorem cursors_eq (gridMs first endMs : ℤ) : cursors first (endMs - 1) gridMs =
    (List.range (slotCount gridMs first endMs)).map fun k : ℕ => first + k * gridMs := rfl

/-- The loop stops at the first slot that is not before the end. -/
theorem slotCount_spec (hgrid : 0 < gridMs) (first endMs : ℤ) (k : ℕ) :
    k < slotCount gridMs first endMs ↔ first + k * gridMs < endMs := by
  have hdiv : (k : ℤ) ≤ (endMs - 1 - first) / gridMs ↔ k * gridMs ≤ endMs - 1 - first :=
    Int.le_ediv_iff_mul_le hgrid
  unfold slotCount
  omega

/-- What `checkGaps` computes apart: the expected number of bars. -/
def expectedBars (gridMs fromMs toMs : ℤ) : ℤ :=
  max 0 (ceilDiv (toMs - firstAligned gridMs fromMs) gridMs)

theorem expectedBars_eq (hgrid : 0 < gridMs) (fromMs toMs : ℤ) :
    expectedBars gridMs fromMs toMs = slotCount gridMs (firstAligned gridMs fromMs) toMs := by
  unfold expectedBars slotCount
  rw [ceilDiv_eq hgrid, show toMs - firstAligned gridMs fromMs - 1 =
    toMs - 1 - firstAligned gridMs fromMs by ring]
  omega

end Grid

/-! ## What the scan finds -/

/-- The gaps are the maximal runs of empty slots from `first` on before `pos`. -/
structure Runs (gridMs first pos : ℤ) (present : List ℤ) (gaps : List CandleGap) : Prop where
  bars : ∀ g ∈ gaps, 0 < g.missingBars ∧ g.toMs = g.fromMs + g.missingBars * gridMs
  placed : ∀ g ∈ gaps, gridMs ∣ g.fromMs ∧ first ≤ g.fromMs ∧ g.toMs ≤ pos
  apart : gaps.Pairwise fun a b => a.toMs < b.fromMs
  slots : ∀ ms, gridMs ∣ ms → first ≤ ms → ms < pos →
    (ms ∉ present ↔ ∃ g ∈ gaps, g.fromMs ≤ ms ∧ ms < g.toMs)

/-- Up to the open run the gaps are complete; all slots of the open run are empty. -/
structure Scanned (gridMs first pos : ℤ) (present : List ℤ) (s : GapScan) : Prop where
  closed : Runs gridMs first (s.runStart.getD pos) present s.gaps
  ended : ∀ g ∈ s.gaps, g.toMs < s.runStart.getD pos
  run : ∀ start ∈ s.runStart, gridMs ∣ start ∧ first ≤ start ∧ 0 < s.runBars ∧
    pos = start + s.runBars * gridMs
  empty : ∀ start ∈ s.runStart, ∀ ms, gridMs ∣ ms → start ≤ ms → ms < pos → ms ∉ present
  idle : s.runStart = none → s.runBars = 0

section Scan

variable {gridMs first pos : ℤ} {present : List ℤ} {gaps : List CandleGap} {s : GapScan}

/-- Between two neighbouring slots there is none. -/
theorem eq_of_dvd_of_lt (hpos : gridMs ∣ pos) {ms : ℤ} (hms : gridMs ∣ ms) (hle : pos ≤ ms)
    (hlt : ms < pos + gridMs) : ms = pos := by
  have hzero : ms - pos = 0 :=
    Int.eq_zero_of_dvd_of_nonneg_of_lt (by omega) (by omega) (dvd_sub hms hpos)
  omega

/-- A filled slot adds nothing. -/
theorem Runs.filled (h : Runs gridMs first pos present gaps) (hgrid : 0 < gridMs)
    (hdvd : gridMs ∣ pos) (hpresent : pos ∈ present) :
    Runs gridMs first (pos + gridMs) present gaps where
  bars := h.bars
  placed := by
    intro g hg
    obtain ⟨hfrom, hfirst, hto⟩ := h.placed g hg
    exact ⟨hfrom, hfirst, by omega⟩
  apart := h.apart
  slots := by
    intro ms hms hfirst hlt
    by_cases hbefore : ms < pos
    · exact h.slots ms hms hfirst hbefore
    · have hsame := eq_of_dvd_of_lt hdvd hms (not_lt.mp hbefore) hlt
      apply iff_of_false
      · rw [hsame]
        exact not_not_intro hpresent
      · rintro ⟨g, hg, -, hin⟩
        have hto := (h.placed g hg).2.2
        omega

/-- The gaps with the open run pushed. -/
theorem Scanned.flush (h : Scanned gridMs first pos present s) (hgrid : 0 < gridMs) :
    Runs gridMs first pos present (s.flush gridMs).gaps := by
  cases hstart : s.runStart with
  | none =>
      have hclosed := h.closed
      rw [hstart] at hclosed
      rw [GapScan.flush, hstart]
      exact hclosed
  | some start =>
      obtain ⟨hdvd, hfirst, hbars, hpos⟩ := h.run start hstart
      have hclosed := h.closed
      have hended := h.ended
      rw [hstart] at hclosed hended
      rw [GapScan.flush, hstart]
      dsimp only
      rw [← hpos]
      have hlong : start < pos := by
        have : 0 < (s.runBars : ℤ) * gridMs := mul_pos (by omega) hgrid
        omega
      exact
        { bars := by
            intro g hg
            rcases List.mem_append.mp hg with hg | hg
            · exact hclosed.bars g hg
            · rw [List.mem_singleton.mp hg]
              exact ⟨hbars, hpos⟩
          placed := by
            intro g hg
            rcases List.mem_append.mp hg with hg | hg
            · obtain ⟨hfrom, hfirst', hto⟩ := hclosed.placed g hg
              exact ⟨hfrom, hfirst', hto.trans hlong.le⟩
            · rw [List.mem_singleton.mp hg]
              exact ⟨hdvd, hfirst, le_rfl⟩
          apart := by
            refine List.pairwise_append.mpr ⟨hclosed.apart, List.pairwise_singleton _ _, ?_⟩
            intro g hg g' hg'
            rw [List.mem_singleton.mp hg']
            exact hended g hg
          slots := by
            intro ms hms hfirst' hlt
            by_cases hbefore : ms < start
            · rw [hclosed.slots ms hms hfirst' hbefore]
              constructor
              · rintro ⟨g, hg, hin⟩
                exact ⟨g, List.mem_append_left _ hg, hin⟩
              · rintro ⟨g, hg, hin⟩
                rcases List.mem_append.mp hg with hg | hg
                · exact ⟨g, hg, hin⟩
                · rw [List.mem_singleton.mp hg] at hin
                  exact absurd hin.1 (not_le.mpr hbefore)
            · exact iff_of_true (h.empty start hstart ms hms (not_lt.mp hbefore) hlt)
                ⟨_, List.mem_append_right _ (List.mem_singleton_self _), not_lt.mp hbefore, hlt⟩ }

/-- Nothing is open. -/
theorem Runs.scanned (h : Runs gridMs first pos present gaps) (hended : ∀ g ∈ gaps, g.toMs < pos) :
    Scanned gridMs first pos present ⟨gaps, none, 0⟩ where
  closed := h
  ended := hended
  run := by
    intro start hstart
    cases hstart
  empty := by
    intro start hstart
    cases hstart
  idle := fun _ => rfl

theorem Scanned.flush_eq (h : Scanned gridMs first pos present s) :
    s.flush gridMs = ⟨(s.flush gridMs).gaps, none, 0⟩ := by
  obtain ⟨gaps, runStart, runBars⟩ := s
  cases runStart with
  | none =>
      have hidle : runBars = 0 := h.idle rfl
      rw [hidle]
      rfl
  | some start => rfl

/-- One slot. -/
theorem Scanned.slot (h : Scanned gridMs first pos present s) (hgrid : 0 < gridMs)
    (hdvd : gridMs ∣ pos) (hfirst : first ≤ pos) :
    Scanned gridMs first (pos + gridMs) present (s.slot gridMs present pos) := by
  by_cases hpresent : pos ∈ present
  · -- The open run ends here, so that the gaps are complete again.
    rw [GapScan.slot, if_pos hpresent, h.flush_eq]
    apply ((h.flush hgrid).filled hgrid hdvd hpresent).scanned
    intro g hg
    have hto := ((h.flush hgrid).placed g hg).2.2
    omega
  · have hlast : ∀ ms, gridMs ∣ ms → pos ≤ ms → ms < pos + gridMs → ms ∉ present := by
      intro ms hms hle hlt
      rw [eq_of_dvd_of_lt hdvd hms hle hlt]
      exact hpresent
    rw [GapScan.slot, if_neg hpresent]
    obtain ⟨gaps, runStart, runBars⟩ := s
    cases runStart with
    | none =>
        have hidle : runBars = 0 := h.idle rfl
        exact
          { closed := h.closed
            ended := h.ended
            run := by
              intro start hstart
              cases hstart
              refine ⟨hdvd, hfirst, Nat.succ_pos _, ?_⟩
              show pos + gridMs = pos + ((runBars + 1 : ℕ) : ℤ) * gridMs
              rw [hidle]
              ring
            empty := by
              intro start hstart
              cases hstart
              exact hlast
            idle := fun hnone => by cases hnone }
    | some start =>
        obtain ⟨hsdvd, hsfirst, hbars, hpos⟩ := h.run start rfl
        exact
          { closed := h.closed
            ended := h.ended
            run := by
              intro start' hstart
              cases hstart
              refine ⟨hsdvd, hsfirst, Nat.succ_pos _, ?_⟩
              show pos + gridMs = start + ((runBars + 1 : ℕ) : ℤ) * gridMs
              dsimp only at hpos
              rw [hpos]
              push_cast
              ring
            empty := by
              intro start' hstart ms hms hle hlt
              cases hstart
              by_cases hbefore : ms < pos
              · exact h.empty start rfl ms hms hle hbefore
              · exact hlast ms hms (not_lt.mp hbefore) hlt
            idle := fun hnone => by cases hnone }

/-- The slots passed so far. -/
theorem scanned_range (hgrid : 0 < gridMs) (hdvd : gridMs ∣ first) (present : List ℤ) (n : ℕ) :
    Scanned gridMs first (first + n * gridMs) present
      (((List.range n).map fun k : ℕ => first + k * gridMs).foldl (GapScan.slot gridMs present)
        ⟨[], none, 0⟩) := by
  induction n with
  | zero =>
      apply Runs.scanned
      · exact
          { bars := by simp
            placed := by simp
            apart := List.Pairwise.nil
            slots := by
              intro ms _ hfirst hlt
              rw [Nat.cast_zero, zero_mul, add_zero] at hlt
              omega }
      · simp
  | succ n ih =>
      rw [List.range_succ, List.map_append, List.foldl_append]
      have hnext : first + ((n + 1 : ℕ) : ℤ) * gridMs = first + n * gridMs + gridMs := by
        push_cast
        ring
      rw [hnext]
      have hnonneg : 0 ≤ (n : ℤ) * gridMs := mul_nonneg (Int.natCast_nonneg n) hgrid.le
      exact ih.slot hgrid (dvd_add hdvd (Dvd.intro_left _ rfl)) (by omega)

/-! ## What the scan counts -/

def GapScan.bars (s : GapScan) : ℕ := (s.gaps.map CandleGap.missingBars).sum + s.runBars

theorem Scanned.sum_flush (h : Scanned gridMs first pos present s) :
    ((s.flush gridMs).gaps.map CandleGap.missingBars).sum = s.bars := by
  obtain ⟨gaps, runStart, runBars⟩ := s
  cases runStart with
  | none =>
      have hidle : runBars = 0 := h.idle rfl
      rw [hidle]
      rfl
  | some start => simp [GapScan.flush, GapScan.bars]

theorem bars_flush (s : GapScan) : (s.flush gridMs).bars = s.bars := by
  obtain ⟨gaps, runStart, runBars⟩ := s
  cases runStart with
  | none => rfl
  | some start => simp [GapScan.flush, GapScan.bars]

/-- Every empty slot is counted once. -/
theorem bars_foldl (slots : List ℤ) (s : GapScan) :
    (slots.foldl (GapScan.slot gridMs present) s).bars =
      s.bars + (slots.filter (· ∉ present)).length := by
  induction slots generalizing s with
  | nil => rfl
  | cons ms slots ih =>
      rw [List.foldl_cons, ih, List.filter_cons]
      by_cases hpresent : ms ∈ present
      · simp [GapScan.slot, hpresent, bars_flush]
      · simp [GapScan.slot, hpresent, GapScan.bars]
        omega

end Scan

/-! ## The detected gaps -/

section Detect

variable (timestamps : List ℤ) (timeframe : Timeframe) (fromMs toMs : ℤ)

/-- The slots of a window, in order. -/
def gridSlots : List ℤ :=
  cursors (firstAligned (timeframeMs timeframe) fromMs) (toMs - 1) (timeframeMs timeframe)

theorem mem_gridSlots {ms : ℤ} : ms ∈ gridSlots timeframe fromMs toMs ↔
    timeframeMs timeframe ∣ ms ∧ fromMs ≤ ms ∧ ms < toMs := by
  have hgrid := timeframeMs_pos timeframe
  have hdvd := @dvd_firstAligned (timeframeMs timeframe) fromMs
  rw [gridSlots, cursors_eq, List.mem_map]
  constructor
  · rintro ⟨k, hk, rfl⟩
    have hslot := dvd_add hdvd (Dvd.intro_left (k : ℤ) rfl)
    have hnonneg : 0 ≤ (k : ℤ) * timeframeMs timeframe :=
      mul_nonneg (Int.natCast_nonneg k) hgrid.le
    refine ⟨hslot, ?_, (slotCount_spec hgrid _ _ k).mp (List.mem_range.mp hk)⟩
    exact (firstAligned_le hgrid hslot).mp (by omega)
  · rintro ⟨hms, hfrom, hto⟩
    have hfirst := (firstAligned_le hgrid hms).mpr hfrom
    obtain ⟨k, hk⟩ := dvd_sub hms hdvd
    have hk0 : 0 ≤ k := nonneg_of_mul_nonneg_right (by omega : 0 ≤ _ * k) hgrid
    have heq : firstAligned (timeframeMs timeframe) fromMs + (k.toNat : ℤ) * timeframeMs timeframe =
        ms := by
      rw [Int.toNat_of_nonneg hk0, mul_comm, ← hk]
      ring
    refine ⟨k.toNat, List.mem_range.mpr ((slotCount_spec hgrid _ _ _).mpr ?_), heq⟩
    rw [heq]
    exact hto

theorem gridSlots_nodup : (gridSlots timeframe fromMs toMs).Nodup := by
  rw [gridSlots, cursors_eq]
  refine List.nodup_range.map ?_
  intro i j hij
  have hmul := mul_right_cancel₀ (timeframeMs_pos timeframe).ne' (add_left_cancel hij)
  exact_mod_cast hmul

theorem length_gridSlots : ((gridSlots timeframe fromMs toMs).length : ℤ) =
    expectedBars (timeframeMs timeframe) fromMs toMs := by
  rw [expectedBars_eq (timeframeMs_pos timeframe), gridSlots, cursors_eq, List.length_map,
    List.length_range]

/-- In the window a slot is filled when its instant occurs among the timestamps. -/
theorem mem_presentSlots {ms : ℤ} (h : ms ∈ gridSlots timeframe fromMs toMs) :
    ms ∈ presentSlots timestamps (timeframeMs timeframe)
      (firstAligned (timeframeMs timeframe) fromMs) toMs ↔ ms ∈ timestamps := by
  obtain ⟨hdvd, hfrom, hto⟩ := (mem_gridSlots timeframe fromMs toMs).mp h
  have hfirst := (firstAligned_le (timeframeMs_pos timeframe) hdvd).mpr hfrom
  rw [presentSlots, List.mem_filter, decide_eq_true_eq]
  exact and_iff_left ⟨Int.emod_eq_zero_of_dvd hdvd, hfirst, hto⟩

/-- An empty window has no slot, so that the early return changes nothing. -/
theorem detectCandleGaps_eq : detectCandleGaps timestamps timeframe fromMs toMs =
    (((gridSlots timeframe fromMs toMs).foldl (GapScan.slot (timeframeMs timeframe)
      (presentSlots timestamps (timeframeMs timeframe)
        (firstAligned (timeframeMs timeframe) fromMs) toMs)) ⟨[], none, 0⟩).flush
          (timeframeMs timeframe)).gaps := by
  unfold detectCandleGaps
  dsimp only
  by_cases hempty : toMs ≤ firstAligned (timeframeMs timeframe) fromMs
  · rw [if_pos hempty, gridSlots, cursors_of_lt (timeframeMs_pos timeframe) (by omega)]
    rfl
  · rw [if_neg hempty]
    rfl

/-- The gaps are the maximal runs of the slots that no timestamp fills. -/
theorem detectCandleGaps_runs : Runs (timeframeMs timeframe)
    (firstAligned (timeframeMs timeframe) fromMs)
    (firstAligned (timeframeMs timeframe) fromMs +
      slotCount (timeframeMs timeframe) (firstAligned (timeframeMs timeframe) fromMs) toMs *
        timeframeMs timeframe)
    (presentSlots timestamps (timeframeMs timeframe)
      (firstAligned (timeframeMs timeframe) fromMs) toMs)
    (detectCandleGaps timestamps timeframe fromMs toMs) := by
  rw [detectCandleGaps_eq, gridSlots, cursors_eq]
  exact (scanned_range (timeframeMs_pos timeframe) (dvd_firstAligned fromMs) _ _).flush
    (timeframeMs_pos timeframe)

/-- The slots that no timestamp fills. -/
def missingSlots : List ℤ := (gridSlots timeframe fromMs toMs).filter (· ∉ timestamps)

theorem sum_missingBars :
    ((detectCandleGaps timestamps timeframe fromMs toMs).map CandleGap.missingBars).sum =
      (missingSlots timestamps timeframe fromMs toMs).length := by
  have hscanned := scanned_range (timeframeMs_pos timeframe)
    (@dvd_firstAligned (timeframeMs timeframe) fromMs)
    (presentSlots timestamps (timeframeMs timeframe)
      (firstAligned (timeframeMs timeframe) fromMs) toMs)
    (slotCount (timeframeMs timeframe) (firstAligned (timeframeMs timeframe) fromMs) toMs)
  rw [← cursors_eq] at hscanned
  have hfilter : (gridSlots timeframe fromMs toMs).filter (· ∉ presentSlots timestamps
      (timeframeMs timeframe) (firstAligned (timeframeMs timeframe) fromMs) toMs) =
      missingSlots timestamps timeframe fromMs toMs := by
    apply List.filter_congr
    intro ms hms
    exact decide_eq_decide.mpr (not_congr (mem_presentSlots timestamps timeframe fromMs toMs hms))
  rw [detectCandleGaps_eq]
  refine hscanned.sum_flush.trans ?_
  rw [← gridSlots, bars_foldl, hfilter]
  exact Nat.zero_add _

/-- Every slot is filled or missing. -/
theorem filled_add_missing :
    (timestamps.toFinset.filter fun ms =>
        timeframeMs timeframe ∣ ms ∧ fromMs ≤ ms ∧ ms < toMs).card +
      (missingSlots timestamps timeframe fromMs toMs).length =
        (gridSlots timeframe fromMs toMs).length := by
  have hfilled : (timestamps.toFinset.filter fun ms =>
      timeframeMs timeframe ∣ ms ∧ fromMs ≤ ms ∧ ms < toMs) =
        ((gridSlots timeframe fromMs toMs).filter (· ∈ timestamps)).toFinset := by
    ext ms
    rw [Finset.mem_filter, List.mem_toFinset, List.mem_toFinset, List.mem_filter,
      mem_gridSlots timeframe fromMs toMs, decide_eq_true_eq, and_comm]
  rw [hfilled, List.toFinset_card_of_nodup ((gridSlots_nodup timeframe fromMs toMs).filter _),
    missingSlots]
  have hsplit := List.length_eq_length_filter_add (l := gridSlots timeframe fromMs toMs)
    (fun ms => decide (ms ∈ timestamps))
  simp only [decide_not]
  exact hsplit.symm

end Detect

end NexusQuant.Ingestion
