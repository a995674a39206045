import NexusQuant.Lib.DecimalText
import NexusQuant.Quant.IndicatorLaws

/-!
# The vector of a batch

The laws of the whole vector, for every batch that is long enough and has positive prices, and the batch
as it arrives: every row of it is read, and nothing is refused.
-/

namespace NexusQuant.Quant

open Smoothing

/-! ## Extremes -/

variable {values : List ℚ} {c : ℚ}

theorem npMax_spec (hne : values ≠ []) : npMax values ∈ values ∧ ∀ v ∈ values, v ≤ npMax values := by
  obtain ⟨m, hm⟩ := Option.isSome_iff_exists.mp (List.isSome_max?_of_ne_nil hne)
  rw [npMax, hm]
  exact List.max?_eq_some_iff.mp hm

theorem npMin_spec (hne : values ≠ []) : npMin values ∈ values ∧ ∀ v ∈ values, npMin values ≤ v := by
  obtain ⟨m, hm⟩ := Option.isSome_iff_exists.mp (List.isSome_min?_of_ne_nil hne)
  rw [npMin, hm]
  exact List.min?_eq_some_iff.mp hm

theorem npMax_mul (hc : 0 < c) (hne : values ≠ []) : npMax (values.map (c * ·)) = c * npMax values := by
  obtain ⟨hmem, hmax⟩ := npMax_spec hne
  obtain ⟨hmem', hmax'⟩ := npMax_spec (mt List.map_eq_nil_iff.mp hne)
  apply le_antisymm
  · obtain ⟨v, hv, heq⟩ := List.mem_map.mp hmem'
    rw [← heq]
    exact mul_le_mul_of_nonneg_left (hmax v hv) hc.le
  · exact hmax' _ (List.mem_map_of_mem hmem)

theorem npMin_mul (hc : 0 < c) (hne : values ≠ []) : npMin (values.map (c * ·)) = c * npMin values := by
  obtain ⟨hmem, hmin⟩ := npMin_spec hne
  obtain ⟨hmem', hmin'⟩ := npMin_spec (mt List.map_eq_nil_iff.mp hne)
  apply le_antisymm
  · exact hmin' _ (List.mem_map_of_mem hmem)
  · obtain ⟨v, hv, heq⟩ := List.mem_map.mp hmem'
    rw [← heq]
    exact mul_le_mul_of_nonneg_left (hmin v hv) hc.le

theorem lastN_map {n : ℕ} {f : ℚ → ℚ} : lastN n (values.map f) = (lastN n values).map f := by
  rw [lastN, List.length_map, lastN, List.map_drop]

theorem lastN_ne_nil {n : ℕ} (hn : 0 < n) (hne : values ≠ []) : lastN n values ≠ [] := by
  have hpos := List.length_pos_of_ne_nil hne
  apply List.ne_nil_of_length_pos
  rw [lastN, List.length_drop]
  omega

/-! ## Averages of closes and of true ranges -/

theorem ema_mem {closes : List ℚ} {period : ℕ} (hperiod : 0 < period) (h : period ≤ closes.length) :
    npMin closes ≤ ema closes period ∧ ema closes period ≤ npMax closes := by
  have hne : closes ≠ [] := List.ne_nil_of_length_pos (by omega)
  have hp : (1 : ℚ) ≤ period := Nat.one_le_cast.mpr hperiod
  have hk : (0 : ℚ) ≤ 2 / (period + 1) := by positivity
  have hk' : (2 : ℚ) / (period + 1) ≤ 1 := (div_le_one (by linarith)).mpr (by linarith)
  rw [ema_eq_seeded h]
  exact ⟨le_seeded hk hk' hperiod hne (npMin_spec hne).2, seeded_le hk hk' hperiod hne (npMax_spec hne).2⟩

theorem ema_mul {closes : List ℚ} {period : ℕ} (h : period ≤ closes.length) :
    ema (closes.map (c * ·)) period = c * ema closes period := by
  rw [ema_eq_seeded (by rwa [List.length_map]), ema_eq_seeded h, seeded_mul]

section Ranges

variable {highs lows closes : List ℚ} {period : ℕ}

theorem zipWith3_length {f : ℚ → ℚ → ℚ → ℚ} {xs ys zs : List ℚ} (hxy : xs.length = ys.length)
    (hyz : ys.length = zs.length) : (List.zipWith3 f xs ys zs).length = xs.length := by
  induction xs generalizing ys zs with
  | nil => rfl
  | cons x xs ih =>
      cases ys with
      | nil => cases hxy
      | cons y ys =>
          cases zs with
          | nil => cases hyz
          | cons z zs => exact congrArg Nat.succ (ih (Nat.succ.inj hxy) (Nat.succ.inj hyz))

theorem zipWith3_forall {f : ℚ → ℚ → ℚ → ℚ} {P : ℚ → Prop} (h : ∀ x y z, P (f x y z)) (xs ys zs : List ℚ) :
    ∀ v ∈ List.zipWith3 f xs ys zs, P v := by
  induction xs generalizing ys zs with
  | nil => exact fun v hv => absurd hv List.not_mem_nil
  | cons x xs ih =>
      cases ys with
      | nil => exact fun v hv => absurd hv List.not_mem_nil
      | cons y ys =>
          cases zs with
          | nil => exact fun v hv => absurd hv List.not_mem_nil
          | cons z zs => exact List.forall_mem_cons.mpr ⟨h x y z, ih ys zs⟩

theorem zipWith3_mul {f : ℚ → ℚ → ℚ → ℚ} (h : ∀ x y z, f (c * x) (c * y) (c * z) = c * f x y z)
    (xs ys zs : List ℚ) : List.zipWith3 f (xs.map (c * ·)) (ys.map (c * ·)) (zs.map (c * ·)) =
      (List.zipWith3 f xs ys zs).map (c * ·) := by
  induction xs generalizing ys zs with
  | nil => rfl
  | cons x xs ih =>
      cases ys with
      | nil => rfl
      | cons y ys =>
          cases zs with
          | nil => rfl
          | cons z zs => exact congrArg₂ List.cons (h x y z) (ih ys zs)

theorem trueRanges_nonneg : ∀ t ∈ trueRanges highs lows closes, 0 ≤ t :=
  zipWith3_forall (fun _ _ _ => le_max_of_le_right (le_max_of_le_left (abs_nonneg _))) _ _ _

theorem trueRanges_mul (hc : 0 < c) :
    trueRanges (highs.map (c * ·)) (lows.map (c * ·)) (closes.map (c * ·)) =
      (trueRanges highs lows closes).map (c * ·) := by
  unfold trueRanges
  rw [← List.map_tail, ← List.map_tail, ← List.map_dropLast]
  apply zipWith3_mul
  intro h l prevClose
  rw [← mul_sub, ← mul_sub, ← mul_sub, abs_mul, abs_mul, abs_of_pos hc, mul_max_of_nonneg _ _ hc.le,
    mul_max_of_nonneg _ _ hc.le]

theorem length_trueRanges (hh : highs.length = closes.length) (hl : lows.length = closes.length) :
    (trueRanges highs lows closes).length = closes.length - 1 := by
  rw [trueRanges, zipWith3_length]
  · rw [List.length_tail, hh]
  · rw [List.length_tail, List.length_tail, hh, hl]
  · rw [List.length_tail, List.length_dropLast, hl]

variable (hh : highs.length = closes.length) (hl : lows.length = closes.length)

include hh hl

theorem atr_eq (hperiod : 0 < period) (h : period < closes.length) : atrWilder highs lows closes period =
    seeded (1 / (period : ℚ)) period (trueRanges highs lows closes) := by
  apply wilder_eq_seeded hperiod
  rw [length_trueRanges hh hl]
  omega

theorem atr_mem (hperiod : 1 < period) (h : period < closes.length) :
    0 ≤ atrWilder highs lows closes period ∧
      atrWilder highs lows closes period ≤ npMax (trueRanges highs lows closes) := by
  have hne : trueRanges highs lows closes ≠ [] := by
    apply List.ne_nil_of_length_pos
    rw [length_trueRanges hh hl]
    omega
  obtain ⟨hlow, hhigh⟩ := share_bounds hperiod
  rw [atr_eq hh hl (by omega) h]
  exact ⟨le_seeded hlow.le hhigh.le (by omega) hne trueRanges_nonneg,
    seeded_le hlow.le hhigh.le (by omega) hne (npMax_spec hne).2⟩

theorem atr_mul (hc : 0 < c) (hperiod : 0 < period) (h : period < closes.length) :
    atrWilder (highs.map (c * ·)) (lows.map (c * ·)) (closes.map (c * ·)) period =
      c * atrWilder highs lows closes period := by
  rw [atr_eq (by rw [List.length_map, List.length_map, hh]) (by rw [List.length_map, List.length_map, hl])
    hperiod (by rwa [List.length_map]), trueRanges_mul hc, seeded_mul, atr_eq hh hl hperiod h]

end Ranges

/-! ## The vector of some bars -/

/-- What the quality checks of the batch have promised, and positive prices. -/
structure ValidBar (b : Bar) : Prop where
  high_pos : 0 < b.high
  low_pos : 0 < b.low
  close_pos : 0 < b.close
  range : b.low ≤ b.high
  volume_nonneg : 0 ≤ b.volume

def Bar.scale (c : ℚ) (b : Bar) : Bar := ⟨c * b.high, c * b.low, c * b.close, b.volume⟩

/-- The bar with its close reflected at the half of `m`. -/
def Bar.reflect (m : ℚ) (b : Bar) : Bar := { b with close := m - b.close }

def closesOf (bars : List Bar) : List ℚ := bars.map (·.close)

def features (p : Platform) (bars : List Bar) : RawFeatures :=
  rawFeatures p (closesOf bars) (bars.map (·.high)) (bars.map (·.low)) (bars.map (·.volume))

variable (p : Platform) (bars : List Bar)

/-- The second vector is the first in another currency. -/
structure ScaledBy (c : ℚ) (f f' : RawFeatures) : Prop where
  ema20 : f'.ema20 = c * f.ema20
  ema50 : f'.ema50 = c * f.ema50
  ema200 : f'.ema200 = c * f.ema200
  rsi14 : f'.rsi14 = f.rsi14
  atr14 : f'.atr14 = c * f.atr14
  donchianUpper20 : f'.donchianUpper20 = c * f.donchianUpper20
  donchianLower20 : f'.donchianLower20 = c * f.donchianLower20
  donchianMid20 : f'.donchianMid20 = c * f.donchianMid20

structure IndicatorLaws : Prop where
  ema : ∀ e ∈ [(features p bars).ema20, (features p bars).ema50, (features p bars).ema200],
    npMin (closesOf bars) ≤ e ∧ e ≤ npMax (closesOf bars)
  rsi : 0 ≤ (features p bars).rsi14 ∧ (features p bars).rsi14 ≤ 100
  rsi_hundred : (features p bars).rsi14 = 100 ↔
    (∃ d ∈ diff (closesOf bars), 0 < d) ∧ ¬∃ d ∈ diff (closesOf bars), d < 0
  rsi_zero : (features p bars).rsi14 = 0 ↔
    (∃ d ∈ diff (closesOf bars), d < 0) ∧ ¬∃ d ∈ diff (closesOf bars), 0 < d
  rsi_fifty : (∀ b ∈ bars, ∀ b' ∈ bars, b.close = b'.close) → (features p bars).rsi14 = 50
  rsi_reflected : ∀ m, (features p (bars.map (·.reflect m))).rsi14 = 100 - (features p bars).rsi14
  atr : 0 ≤ (features p bars).atr14 ∧ (features p bars).atr14 ≤
    npMax (trueRanges (bars.map (·.high)) (bars.map (·.low)) (closesOf bars))
  donchian_mid : (features p bars).donchianLower20 ≤ (features p bars).donchianMid20 ∧
    (features p bars).donchianMid20 ≤ (features p bars).donchianUpper20
  donchian_bounds : ∀ b ∈ bars.drop (bars.length - 20), ∀ price ∈ [b.low, b.high],
    (features p bars).donchianLower20 ≤ price ∧ price ≤ (features p bars).donchianUpper20
  scaled : ∀ c > 0, ScaledBy c (features p bars) (features p (bars.map (·.scale c)))

variable {p bars}

theorem diff_of_flat {closes : List ℚ} (h : ∀ a ∈ closes, ∀ b ∈ closes, a = b) :
    ∀ d ∈ diff closes, d = 0 := by
  intro d hd
  obtain ⟨i, hi, rfl⟩ := List.mem_iff_getElem.mp hd
  have hlen := hi
  rw [length_diff] at hlen
  simp only [diff, List.getElem_zipWith, List.getElem_tail]
  exact sub_eq_zero.mpr (h _ (List.getElem_mem _) _ (List.getElem_mem _))

/-- The bars that the channel is taken over. -/
theorem lastN_map_bars {n : ℕ} (f : Bar → ℚ) :
    lastN n (bars.map f) = (bars.drop (bars.length - n)).map f := by
  rw [lastN, List.length_map, List.map_drop]

theorem donchian_bounds (hrange : ∀ b ∈ bars, b.low ≤ b.high) :
    ∀ b ∈ bars.drop (bars.length - 20), ∀ price ∈ [b.low, b.high],
      (features p bars).donchianLower20 ≤ price ∧ price ≤ (features p bars).donchianUpper20 := by
  intro b hb price hprice
  have hne : ∀ f : Bar → ℚ, lastN 20 (bars.map f) ≠ [] := by
    intro f
    rw [lastN_map_bars, Ne, List.map_eq_nil_iff]
    exact List.ne_nil_of_mem hb
  have hmem : ∀ f : Bar → ℚ, f b ∈ lastN 20 (bars.map f) := by
    intro f
    rw [lastN_map_bars]
    exact List.mem_map_of_mem hb
  have hlow : (features p bars).donchianLower20 ≤ b.low := (npMin_spec (hne _)).2 _ (hmem (·.low))
  have hhigh : b.high ≤ (features p bars).donchianUpper20 := (npMax_spec (hne _)).2 _ (hmem (·.high))
  have hbar := hrange b (List.mem_of_mem_drop hb)
  rcases List.mem_pair.mp hprice with rfl | rfl
  · exact ⟨hlow, hbar.trans hhigh⟩
  · exact ⟨hlow.trans hbar, hhigh⟩

theorem donchian_mid (hne : bars ≠ []) (hrange : ∀ b ∈ bars, b.low ≤ b.high) :
    (features p bars).donchianLower20 ≤ (features p bars).donchianMid20 ∧
      (features p bars).donchianMid20 ≤ (features p bars).donchianUpper20 := by
  have hpos := List.length_pos_of_ne_nil hne
  obtain ⟨b, hb⟩ := List.exists_mem_of_length_pos (l := bars.drop (bars.length - 20))
    (by rw [List.length_drop]; omega)
  obtain ⟨hlow, hhigh⟩ := @donchian_bounds p bars hrange b hb b.low List.mem_cons_self
  have hmid : (features p bars).donchianMid20 =
      ((features p bars).donchianUpper20 + (features p bars).donchianLower20) / 2 := rfl
  rw [hmid]
  constructor <;> linarith

theorem scaled_features (hlen : 201 ≤ bars.length) {c : ℚ} (hc : 0 < c) :
    ScaledBy c (features p bars) (features p (bars.map (·.scale c))) := by
  have hmap : ∀ f : Bar → ℚ, (∀ b : Bar, f (b.scale c) = c * f b) →
      (bars.map (·.scale c)).map f = (bars.map f).map (c * ·) := by
    intro f hf
    rw [List.map_map, List.map_map]
    apply List.map_congr_left
    intro b _
    exact hf b
  have hcloses : closesOf (bars.map (·.scale c)) = (closesOf bars).map (c * ·) := hmap _ fun _ => rfl
  have hhighs := hmap (·.high) fun _ => rfl
  have hlows := hmap (·.low) fun _ => rfl
  have hlength : ∀ f : Bar → ℚ, (bars.map f).length = (closesOf bars).length := by
    intro f
    rw [closesOf, List.length_map, List.length_map]
  have hcount : (closesOf bars).length = bars.length := List.length_map ..
  have hne : ∀ f : Bar → ℚ, lastN 20 (bars.map f) ≠ [] := by
    intro f
    apply lastN_ne_nil (by decide)
    apply List.ne_nil_of_length_pos
    rw [List.length_map]
    omega
  have hupper : npMax (lastN 20 ((bars.map (·.high)).map (c * ·))) =
      c * npMax (lastN 20 (bars.map (·.high))) := by
    rw [lastN_map, npMax_mul hc (hne _)]
  have hlower : npMin (lastN 20 ((bars.map (·.low)).map (c * ·))) =
      c * npMin (lastN 20 (bars.map (·.low))) := by
    rw [lastN_map, npMin_mul hc (hne _)]
  have hscaled : features p (bars.map (·.scale c)) = rawFeatures p ((closesOf bars).map (c * ·))
      ((bars.map (·.high)).map (c * ·)) ((bars.map (·.low)).map (c * ·))
      ((bars.map (·.scale c)).map (·.volume)) := by
    rw [features, hcloses, hhighs, hlows]
  rw [hscaled]
  exact
    { ema20 := ema_mul (by omega)
      ema50 := ema_mul (by omega)
      ema200 := ema_mul (by omega)
      rsi14 := rsi_mul (by decide) (by omega) hc
      atr14 := atr_mul (hlength _) (hlength _) hc (by decide) (by omega)
      donchianUpper20 := hupper
      donchianLower20 := hlower
      donchianMid20 := by
        simp only [features, rawFeatures, hupper, hlower]
        ring }

/-- The laws hold for every batch of the length. -/
theorem indicatorLaws_of_valid (hlen : 201 ≤ bars.length) (hvalid : ∀ b ∈ bars, ValidBar b) :
    IndicatorLaws p bars := by
  have hcount : (closesOf bars).length = bars.length := List.length_map ..
  have hlength : ∀ f : Bar → ℚ, (bars.map f).length = (closesOf bars).length := by
    intro f
    rw [closesOf, List.length_map, List.length_map]
  have hrange : ∀ b ∈ bars, b.low ≤ b.high := fun b hb => (hvalid b hb).range
  exact
    { ema := by
        intro e he
        rcases List.mem_cons.mp he with rfl | he
        · exact ema_mem (by decide) (by omega)
        · rcases List.mem_pair.mp he with rfl | rfl
          · exact ema_mem (by decide) (by omega)
          · exact ema_mem (by decide) (by omega)
      rsi := rsi_mem (by decide) (by omega)
      rsi_hundred := rsi_eq_hundred_iff (by decide) (by omega)
      rsi_zero := rsi_eq_zero_iff (by decide) (by omega)
      rsi_fifty := by
        intro hflat
        apply rsi_of_flat (by decide) (by omega)
        apply diff_of_flat
        intro a ha b hb
        obtain ⟨x, hx, rfl⟩ := List.mem_map.mp ha
        obtain ⟨y, hy, rfl⟩ := List.mem_map.mp hb
        exact hflat x hx y hy
      rsi_reflected := by
        intro m
        have hcloses : closesOf (bars.map (·.reflect m)) = (closesOf bars).map (m - ·) := by
          rw [closesOf, List.map_map, closesOf, List.map_map]
          rfl
        show rsiWilder (closesOf (bars.map (·.reflect m))) 14 = 100 - rsiWilder (closesOf bars) 14
        rw [hcloses]
        exact rsi_reflect (by decide) (by omega) m
      atr := atr_mem (hlength _) (hlength _) (by decide) (by omega)
      donchian_mid := donchian_mid (List.ne_nil_of_length_pos (by omega)) hrange
      donchian_bounds := donchian_bounds hrange
      scaled := fun c hc => scaled_features hlen hc }

/-! ## The batch as it arrives -/

/-- The texts of a row are read as the numbers of a bar. -/
structure Reads (p : Platform) (row : CandleRow) (b : Bar) : Prop where
  high : p.float row.high = some (.fin b.high)
  low : p.float row.low = some (.fin b.low)
  close : p.float row.close = some (.fin b.close)
  volume : p.float row.volume = some (.fin b.volume)

theorem parseBounded_fin {accepted : ℚ → Bool} {bound raw field : String} {index : ℕ} {q : ℚ}
    (hread : p.float raw = some (.fin q)) (h : accepted q) :
    parseBounded p accepted bound raw field index = .ok q := by
  rw [parseBounded, hread]
  show (if accepted q then Except.ok q else _) = Except.ok q
  rw [if_pos h]

theorem parseColumn_ok {parse : String → ℕ → Except FeatureComputationError ℚ} {rows : List CandleRow}
    {text : CandleRow → String} {value : Bar → ℚ}
    (h : List.Forall₂ (fun row b => ∀ i, parse (text row) i = .ok (value b)) rows bars) :
    parseColumn parse (rows.map text) = .ok (bars.map value) := by
  unfold parseColumn
  generalize 0 = start
  induction h generalizing start with
  | nil => rfl
  | cons hrow _ ih =>
      rw [List.map_cons, List.zipIdx_cons, List.mapM_cons, hrow, ih]
      rfl

theorem computeCoreTechnical_ok {rows : List CandleRow} (hread : List.Forall₂ (Reads p) rows bars)
    (hlen : 201 ≤ bars.length) (hvalid : ∀ b ∈ bars, ValidBar b)
    (hts : (rows.getLast?.bind (·.ts)).isSome) :
    computeCoreTechnical p rows = .ok (features p bars) := by
  have hboth := ((List.forall₂_and_left bars rows).mpr ⟨hvalid, hread.flip⟩).flip
  have hcloses := @parseColumn_ok bars (fun raw => parsePositive p raw "close") rows (·.close) (·.close)
    (hboth.imp fun _ _ h i => parseBounded_fin h.2.close (decide_eq_true h.1.close_pos))
  have hhighs := @parseColumn_ok bars (fun raw => parsePositive p raw "high") rows (·.high) (·.high)
    (hboth.imp fun _ _ h i => parseBounded_fin h.2.high (decide_eq_true h.1.high_pos))
  have hlows := @parseColumn_ok bars (fun raw => parsePositive p raw "low") rows (·.low) (·.low)
    (hboth.imp fun _ _ h i => parseBounded_fin h.2.low (decide_eq_true h.1.low_pos))
  have hvolumes := @parseColumn_ok bars (fun raw => parseNonNegative p raw "volume") rows (·.volume)
    (·.volume) (hboth.imp fun _ _ h i => parseBounded_fin h.2.volume (decide_eq_true h.1.volume_nonneg))
  have hcount : ¬rows.length < minCandles := by
    rw [hread.length_eq, minCandles]
    omega
  have hsome : rows.getLast?.bind (·.ts) ≠ none := by
    rw [← Option.isSome_iff_ne_none]
    exact hts
  unfold computeCoreTechnical
  rw [if_neg hcount, if_neg hsome, hcloses, hhighs, hlows, hvolumes]
  rfl

/-- A batch of at least 201 valid candles gives a vector, and the vector obeys the laws. -/
theorem core_technical_laws (p : Platform) (rows : List CandleRow) (bars : List Bar)
    (hread : List.Forall₂ (Reads p) rows bars) (hlen : 201 ≤ bars.length)
    (hvalid : ∀ b ∈ bars, ValidBar b) (hts : (rows.getLast?.bind (·.ts)).isSome) :
    computeCoreTechnical p rows = .ok (features p bars) ∧ IndicatorLaws p bars :=
  ⟨computeCoreTechnical_ok hread hlen hvalid hts, indicatorLaws_of_valid hlen hvalid⟩

/-- On closes of one and equal volumes every logarithm and every deviation is zero. -/
def unitPlatform : Platform := ⟨fun text => some (DecimalText.toNumber text), fun _ => 0, fun q => q, id⟩

def unitRow : CandleRow := ⟨"1.1", "0.9", "1", "5", some "2026-01-01T00:00:00.000Z"⟩

def unitBar : Bar := ⟨11 / 10, 9 / 10, 1, 5⟩

theorem core_technical_laws_unit : ∃ f,
    computeCoreTechnical unitPlatform (List.replicate 201 unitRow) = .ok f ∧ f.rsi14 = 50 := by
  have hreads : Reads unitPlatform unitRow unitBar := by
    constructor <;> decide +kernel
  have hread : ∀ n, List.Forall₂ (Reads unitPlatform) (List.replicate n unitRow)
      (List.replicate n unitBar) := by
    intro n
    induction n with
    | zero => exact .nil
    | succ n ih => exact .cons hreads ih
  have hvalid : ∀ b ∈ List.replicate 201 unitBar, ValidBar b := by
    intro b hb
    rw [List.eq_of_mem_replicate hb]
    constructor <;> norm_num [unitBar]
  obtain ⟨hcompute, hlaws⟩ := core_technical_laws unitPlatform (List.replicate 201 unitRow)
    (List.replicate 201 unitBar) (hread 201) (by rw [List.length_replicate]) hvalid (by decide +kernel)
  refine ⟨_, hcompute, hlaws.rsi_fifty ?_⟩
  intro b hb b' hb'
  rw [List.eq_of_mem_replicate hb, List.eq_of_mem_replicate hb']

end NexusQuant.Quant
