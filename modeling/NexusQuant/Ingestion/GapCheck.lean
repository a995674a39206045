import NexusQuant.Ingestion.DataQuality

/-!
# The gap check

`detectCandleGaps` and `checkGaps` count the slots of a window apart from one another, the one by its
scan and the other by a division.  The two counts agree, and the deduction is a function of the number
of missing slots.
-/

namespace NexusQuant.Ingestion

variable (timeframe : Timeframe) (fromMs toMs : ℤ)

/-- What a gap detection promises of its ranges. -/
structure ExactGaps (timestamps : List ℤ) (gaps : List CandleGap) : Prop where
  /-- Ascending, and with a filled slot between two neighbours. -/
  apart : gaps.Pairwise fun a b => a.toMs < b.fromMs
  aligned : ∀ g ∈ gaps, timeframeMs timeframe ∣ g.fromMs ∧ g.fromMs < g.toMs
  width : ∀ g ∈ gaps, g.toMs - g.fromMs = g.missingBars * timeframeMs timeframe
  slots : ∀ ms, timeframeMs timeframe ∣ ms →
    ((∃ g ∈ gaps, g.fromMs ≤ ms ∧ ms < g.toMs) ↔ fromMs ≤ ms ∧ ms < toMs ∧ ms ∉ timestamps)

theorem detectCandleGaps_exact (timestamps : List ℤ) :
    ExactGaps timeframe fromMs toMs timestamps
      (detectCandleGaps timestamps timeframe fromMs toMs) := by
  have hgrid := timeframeMs_pos timeframe
  have hruns := detectCandleGaps_runs timestamps timeframe fromMs toMs
  have hspec := slotCount_spec hgrid (firstAligned (timeframeMs timeframe) fromMs) toMs
  generalize slotCount (timeframeMs timeframe) (firstAligned (timeframeMs timeframe) fromMs) toMs = n
    at hruns hspec
  -- The scan ends at the first slot that is not in the window.
  have hend : ∀ ms, timeframeMs timeframe ∣ ms →
      firstAligned (timeframeMs timeframe) fromMs ≤ ms →
      (ms < firstAligned (timeframeMs timeframe) fromMs + n * timeframeMs timeframe ↔ ms < toMs) := by
    intro ms hms hfirst
    obtain ⟨k, hk⟩ := dvd_sub hms (@dvd_firstAligned (timeframeMs timeframe) fromMs)
    have hk0 : 0 ≤ k := nonneg_of_mul_nonneg_right (by omega : 0 ≤ _ * k) hgrid
    have hms' : ms = firstAligned (timeframeMs timeframe) fromMs + (k.toNat : ℤ) *
        timeframeMs timeframe := by
      rw [Int.toNat_of_nonneg hk0, mul_comm]
      omega
    rw [hms', ← hspec k.toNat, add_lt_add_iff_left, mul_lt_mul_iff_left₀ hgrid, Nat.cast_lt]
  exact
    { apart := hruns.apart
      aligned := by
        intro g hg
        obtain ⟨hpos, hto⟩ := hruns.bars g hg
        have hlong : 0 < (g.missingBars : ℤ) * timeframeMs timeframe := mul_pos (by omega) hgrid
        exact ⟨(hruns.placed g hg).1, by omega⟩
      width := by
        intro g hg
        have hto := (hruns.bars g hg).2
        omega
      slots := by
        intro ms hms
        constructor
        · rintro ⟨g, hg, hlow, hhigh⟩
          obtain ⟨-, hfirst, hlast⟩ := hruns.placed g hg
          have hin := (hend ms hms (hfirst.trans hlow)).mp (by omega)
          have hfrom := (firstAligned_le hgrid hms).mp (hfirst.trans hlow)
          have hmissing := (hruns.slots ms hms (hfirst.trans hlow) (by omega)).mpr ⟨g, hg, hlow, hhigh⟩
          rw [mem_presentSlots timestamps timeframe fromMs toMs
            ((mem_gridSlots timeframe fromMs toMs).mpr ⟨hms, hfrom, hin⟩)] at hmissing
          exact ⟨hfrom, hin, hmissing⟩
        · rintro ⟨hfrom, hto, hmissing⟩
          have hfirst := (firstAligned_le hgrid hms).mpr hfrom
          rw [← mem_presentSlots timestamps timeframe fromMs toMs
            ((mem_gridSlots timeframe fromMs toMs).mpr ⟨hms, hfrom, hto⟩)] at hmissing
          exact (hruns.slots ms hms hfirst ((hend ms hms hfirst).mpr hto)).mp hmissing }

/-! ## The deduction -/

theorem gapDeduction_zero (expected : ℚ) : gapDeduction 0 expected = 0 := if_pos rfl

theorem missingPct_pos {missing expected : ℚ} (hmissing : 0 < missing) (hexpected : 0 < expected) :
    0 < missingPct missing expected :=
  Binary64.significant_pos
    (mul_pos (Binary64.significant_pos (div_pos hmissing hexpected)) (by norm_num))

/-- Something missing costs at least one point and at most the weight of the check. -/
theorem gapDeduction_pos {missing expected : ℕ} (hmissing : 0 < missing) (hle : missing ≤ expected) :
    ∃ k : ℕ, 1 ≤ k ∧ k ≤ 25 ∧ gapDeduction missing expected = k := by
  have hm : (0 : ℚ) < missing := by exact_mod_cast hmissing
  have he : (0 : ℚ) < expected := by exact_mod_cast hmissing.trans_le hle
  have hpct := missingPct_pos hm he
  rw [gapDeduction, if_neg hm.ne', checkWeights]
  have hceil := Int.ceil_pos.mpr
    (Binary64.significant_pos (mul_pos hpct (by norm_num : (0 : ℚ) < 5 / 2)))
  generalize ⌈Binary64.significant (missingPct missing expected * (5 / 2))⌉ = points at hceil ⊢
  refine ⟨(min 25 points).toNat, by omega, by omega, ?_⟩
  have hcast : (((min 25 points).toNat : ℤ) : ℚ) = min 25 (points : ℚ) := by
    rw [Int.toNat_of_nonneg (by omega), Int.cast_min]
    norm_num
  rw [← hcast]
  rfl

theorem gapDeduction_nonneg {missing expected : ℕ} (hle : missing ≤ expected) :
    0 ≤ gapDeduction missing expected := by
  rcases Nat.eq_zero_or_pos missing with h | h
  · rw [h, Nat.cast_zero, gapDeduction_zero]
  · obtain ⟨k, -, -, hk⟩ := gapDeduction_pos h hle
    rw [hk]
    exact Nat.cast_nonneg k

theorem gapDeduction_mono {missing missing' expected : ℕ} (h : missing ≤ missing')
    (hle : missing' ≤ expected) :
    gapDeduction missing expected ≤ gapDeduction missing' expected := by
  rcases Nat.eq_zero_or_pos missing with hzero | hpos
  · rw [hzero, Nat.cast_zero, gapDeduction_zero]
    exact gapDeduction_nonneg hle
  · have hm : (missing : ℚ) ≠ 0 := by exact_mod_cast hpos.ne'
    have hm' : (missing' : ℚ) ≠ 0 := by exact_mod_cast (hpos.trans_le h).ne'
    have hq : (missing : ℚ) ≤ missing' := by exact_mod_cast h
    rw [gapDeduction, gapDeduction, if_neg hm, if_neg hm']
    have hpos' : (0 : ℚ) < missing := by exact_mod_cast hpos
    have he : (0 : ℚ) < expected := by exact_mod_cast (hpos.trans_le h).trans_le hle
    -- Each of the three roundings keeps the order.
    have hquotient : Binary64.significant ((missing : ℚ) / expected) ≤
        Binary64.significant ((missing' : ℚ) / expected) :=
      Binary64.significant_mono (div_pos hpos' he) (div_le_div_of_nonneg_right hq he.le)
    have hpct : missingPct missing expected ≤ missingPct missing' expected :=
      Binary64.significant_mono
        (mul_pos (Binary64.significant_pos (div_pos hpos' he)) (by norm_num))
        (mul_le_mul_of_nonneg_right hquotient (by norm_num))
    apply min_le_min_left
    apply Int.cast_le.mpr
    apply Int.ceil_le_ceil
    exact Binary64.significant_mono (mul_pos (missingPct_pos hpos' he) (by norm_num))
      (mul_le_mul_of_nonneg_right hpct (by norm_num))

variable (candles : List NormalizedCandle)

/-- The slots of the window that no candle opens. -/
def missingCandles : List ℤ := missingSlots (candles.map (·.ts)) timeframe fromMs toMs

theorem length_missingCandles_le : (missingCandles timeframe fromMs toMs candles).length ≤
    (gridSlots timeframe fromMs toMs).length := List.length_filter_le _ _

theorem checkGaps_deduction : (checkGaps candles timeframe fromMs toMs).deduction =
    gapDeduction (missingCandles timeframe fromMs toMs candles).length
      (gridSlots timeframe fromMs toMs).length := by
  have hexpected := length_gridSlots timeframe fromMs toMs
  have hmissing := sum_missingBars (candles.map (·.ts)) timeframe fromMs toMs
  have hle := length_missingCandles_le timeframe fromMs toMs candles
  unfold checkGaps
  dsimp only
  by_cases hzero : expectedBars (timeframeMs timeframe) fromMs toMs = 0
  · have hnone : (missingCandles timeframe fromMs toMs candles).length = 0 := by omega
    rw [if_pos hzero, hnone, Nat.cast_zero, gapDeduction_zero]
  · rw [if_neg hzero]
    dsimp only
    rw [hmissing, ← hexpected]
    rfl

theorem checkGaps_passed : (checkGaps candles timeframe fromMs toMs).passed ↔
    (missingCandles timeframe fromMs toMs candles).length = 0 := by
  have hexpected := length_gridSlots timeframe fromMs toMs
  have hmissing := sum_missingBars (candles.map (·.ts)) timeframe fromMs toMs
  have hle := length_missingCandles_le timeframe fromMs toMs candles
  unfold checkGaps
  dsimp only
  by_cases hzero : expectedBars (timeframeMs timeframe) fromMs toMs = 0
  · rw [if_pos hzero]
    exact iff_of_true rfl (by omega)
  · rw [if_neg hzero]
    dsimp only
    rw [hmissing, decide_eq_true_eq]
    rfl

/-- Fewer timestamps, more missing slots. -/
theorem length_missingSlots_mono {timestamps timestamps' : List ℤ} (h : timestamps' ⊆ timestamps) :
    (missingSlots timestamps timeframe fromMs toMs).length ≤
      (missingSlots timestamps' timeframe fromMs toMs).length := by
  unfold missingSlots
  apply List.Sublist.length_le
  apply List.monotone_filter_right
  intro ms hms
  simp only [decide_eq_true_eq] at hms ⊢
  exact fun hmem => hms (h hmem)

/-- The gaps are exactly the runs of slots without a timestamp; with the slots that have one they make
up the expected count; and the deduction is zero when nothing is missing, else an integer from one to
twenty-five that does not fall when timestamps are removed. -/
theorem gap_detection_exact (timestamps : List ℤ) :
    ExactGaps timeframe fromMs toMs timestamps
        (detectCandleGaps timestamps timeframe fromMs toMs) ∧
    ((timestamps.toFinset.filter fun ms =>
          timeframeMs timeframe ∣ ms ∧ fromMs ≤ ms ∧ ms < toMs).card : ℤ) +
        ((detectCandleGaps timestamps timeframe fromMs toMs).map CandleGap.missingBars).sum =
      expectedBars (timeframeMs timeframe) fromMs toMs ∧
    ∀ candles : List NormalizedCandle, candles.map (·.ts) = timestamps →
      ((checkGaps candles timeframe fromMs toMs).deduction = 0 ↔
        ∀ ms, timeframeMs timeframe ∣ ms → fromMs ≤ ms → ms < toMs → ms ∈ timestamps) ∧
      ((checkGaps candles timeframe fromMs toMs).deduction ≠ 0 →
        ∃ k : ℕ, 1 ≤ k ∧ k ≤ 25 ∧ (checkGaps candles timeframe fromMs toMs).deduction = k) ∧
      ∀ candles' : List NormalizedCandle, candles'.map (·.ts) ⊆ timestamps →
        (checkGaps candles timeframe fromMs toMs).deduction ≤
          (checkGaps candles' timeframe fromMs toMs).deduction := by
  refine ⟨detectCandleGaps_exact timeframe fromMs toMs timestamps, ?_, ?_⟩
  · rw [← length_gridSlots, sum_missingBars]
    exact_mod_cast filled_add_missing timestamps timeframe fromMs toMs
  · rintro candles rfl
    have hle := length_missingCandles_le timeframe fromMs toMs candles
    refine ⟨?_, ?_, ?_⟩
    · have hempty : (missingCandles timeframe fromMs toMs candles).length = 0 ↔
          ∀ ms, timeframeMs timeframe ∣ ms → fromMs ≤ ms → ms < toMs → ms ∈ candles.map (·.ts) := by
        rw [List.length_eq_zero_iff, missingCandles, missingSlots, List.filter_eq_nil_iff]
        simp only [mem_gridSlots, decide_eq_true_eq, not_not, and_imp]
      rw [← hempty, checkGaps_deduction]
      constructor
      · intro hzero
        by_contra hne
        obtain ⟨k, hk, -, heq⟩ := gapDeduction_pos (Nat.pos_of_ne_zero hne) hle
        rw [heq, Nat.cast_eq_zero] at hzero
        omega
      · intro hzero
        rw [hzero, Nat.cast_zero, gapDeduction_zero]
    · intro hne
      rw [checkGaps_deduction] at hne ⊢
      apply gapDeduction_pos _ hle
      apply Nat.pos_of_ne_zero
      intro hzero
      rw [hzero, Nat.cast_zero, gapDeduction_zero] at hne
      exact hne rfl
    · intro candles' hsub
      rw [checkGaps_deduction, checkGaps_deduction]
      exact gapDeduction_mono (length_missingSlots_mono timeframe fromMs toMs hsub)
        (length_missingCandles_le timeframe fromMs toMs candles')

/-- Five hourly slots of which the third and the last have no timestamp; one timestamp is off the
grid. -/
theorem gap_detection_exact_hours :
    detectCandleGaps [3600000, 0, 0, 10800000, 7200001] .h1 (-5) 18000000 =
      [⟨7200000, 10800000, 1⟩, ⟨14400000, 18000000, 1⟩] ∧
    ExactGaps .h1 (-5) 18000000 [3600000, 0, 0, 10800000, 7200001]
      (detectCandleGaps [3600000, 0, 0, 10800000, 7200001] .h1 (-5) 18000000) :=
  ⟨by decide +kernel,
    (gap_detection_exact .h1 (-5) 18000000 [3600000, 0, 0, 10800000, 7200001]).1⟩

end NexusQuant.Ingestion
