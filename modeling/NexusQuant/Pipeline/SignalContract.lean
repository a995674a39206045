import NexusQuant.Pipeline.Validate
import NexusQuant.Signal.Replay

/-!
# What a generated signal promises

Three checks are written apart from the engine: the format of the confidence, the contract with the
context, and the lineage.  All accept what the engine generates, as its confidence is a number: a
direction is only taken where the fast average differs from the slow one, and the filter only divides a
positive excess.
-/

namespace NexusQuant.Pipeline

open Signal
open TradingDecision (SignalParams)

/-! ## The rule -/

section Rule

variable {x x' : RuleInputs} {params params' : SignalParams}

/-- A decision that is not flat has passed the filter and is confirmed. -/
theorem directional_of_decision (h : (decideInputs x params).decision ≠ .flat) :
    ¬volFiltered x params ∧ directional x params ≠ .flat := by
  by_cases hvol : volFiltered x params
  · exact absurd (decision_volFiltered hvol) h
  · rw [decision_of_not_volFiltered hvol] at h
    exact ⟨hvol, h⟩

theorem le_maxRealizedVol (hfinite : FiniteParams params) (hvol : ¬volFiltered x params) :
    JsNumber.le (.fin x.realizedVol) params.maxRealizedVol := by
  apply JsNumber.le_of_lt_eq_false hfinite.maxRealizedVol rfl
  exact Bool.eq_false_iff.mpr hvol

theorem rsi_of_long (h : (decideInputs x params).decision = .long) :
    JsNumber.le params.rsiLongMin (.fin x.rsi) := by
  obtain ⟨hvol, hdir⟩ := directional_of_decision (h.trans_ne SignalDecision.noConfusion)
  rw [decision_of_not_volFiltered hvol] at h
  unfold directional at h
  split at h
  · rename_i hlong
    exact (Bool.and_eq_true _ _ |>.mp hlong).2
  · split at h <;> cases h

theorem rsi_of_short (h : (decideInputs x params).decision = .short) :
    JsNumber.le (.fin x.rsi) params.rsiShortMax := by
  obtain ⟨hvol, hdir⟩ := directional_of_decision (h.trans_ne SignalDecision.noConfusion)
  rw [decision_of_not_volFiltered hvol] at h
  unfold directional at h
  split at h
  · cases h
  · split at h
    · rename_i hshort
      exact (Bool.and_eq_true _ _ |>.mp hshort).2
    · cases h

/-- How far the fast average is from the slow one, relative to it. -/
def trendRatio (x : RuleInputs) : JsNumber := .fin |x.ema20 - x.ema200| / .fin |x.ema200|

theorem clamp01_mono {a b : JsNumber} (h : JsNumber.le a b) :
    ∃ p q, clamp01 a = .fin p ∧ clamp01 b = .fin q ∧ p ≤ q := by
  have hmono : ∀ p q : ℚ, p ≤ q →
      TradingDecision.clamp01 (.fin p) ≤ TradingDecision.clamp01 (.fin q) := by
    intro p q hpq
    rw [mirrorClamp_fin, mirrorClamp_fin]
    split_ifs <;> linarith
  cases a with
  | fin p =>
      cases b with
      | fin q => exact ⟨_, _, clamp01_fin p, clamp01_fin q, hmono p q (of_decide_eq_true h)⟩
      | posInf => exact ⟨_, 1, clamp01_fin p, rfl, (mirrorClamp_bounds _).2⟩
      | nan => cases h
      | negInf => cases h
  | posInf =>
      cases b with
      | posInf => exact ⟨1, 1, rfl, rfl, le_rfl⟩
      | fin q => cases h
      | nan => cases h
      | negInf => cases h
  | negInf =>
      cases b with
      | fin q => exact ⟨0, _, rfl, clamp01_fin q, (mirrorClamp_bounds _).1⟩
      | posInf => exact ⟨0, 1, rfl, rfl, zero_le_one⟩
      | negInf => exact ⟨0, 0, rfl, rfl, le_rfl⟩
      | nan => cases h
  | nan => cases b <;> cases h

/-- The conviction of a direction grows with the trend and with the strength index. -/
theorem confidence_mono (h : (decideInputs x params).decision ≠ .flat)
    (h' : (decideInputs x' params').decision ≠ .flat) (htrend : JsNumber.le (trendRatio x) (trendRatio x'))
    (hrsi : |x.rsi - 50| ≤ |x'.rsi - 50|) :
    JsNumber.le (decideInputs x params).confidence (decideInputs x' params').confidence := by
  obtain ⟨hvol, hdir⟩ := directional_of_decision h
  obtain ⟨hvol', hdir'⟩ := directional_of_decision h'
  have hconviction : JsNumber.le (.fin |x.rsi - 50| / .fin 50) (.fin |x'.rsi - 50| / .fin 50) := by
    have hfifty : (50 : ℚ) ≠ 0 := by norm_num
    rw [JsNumber.fin_div hfifty, JsNumber.fin_div hfifty, JsNumber.fin_le]
    exact decide_eq_true (div_le_div_of_nonneg_right hrsi (by norm_num))
  obtain ⟨t, t', ht, ht', htle⟩ := clamp01_mono htrend
  obtain ⟨r, r', hr, hr', hrle⟩ := clamp01_mono hconviction
  rw [(confidence_directional hvol hdir).1, (confidence_directional hvol' hdir').1]
  rw [trendRatio] at ht ht'
  rw [ht, ht', hr, hr']
  simp only [JsNumber.fin_mul, JsNumber.fin_add]
  have hsum : JsNumber.le (.fin (1 / 2 * t + 1 / 2 * r)) (.fin (1 / 2 * t' + 1 / 2 * r')) :=
    decide_eq_true (by linarith)
  obtain ⟨p, q, hp, hq, hle⟩ := clamp01_mono hsum
  rw [hp, hq]
  exact decide_eq_true hle

end Rule

/-! ## The signal -/

/-- The features and the parameters behind a generated signal. -/
structure GeneratedFrom (input : SignalEngineInput) (signal : GeneratedSignal) (x : RuleInputs)
    (params : SignalParams) : Prop where
  floor : belowFloor input.dqReport = false
  resolved : resolveSignalParams input.strategyVersion.parameters = .ok params
  inputs : readInputs input.featureSnapshot.features = .ok x
  signal : signal = signalOf input params (decideInputs x params)

structure SignalContract (input : SignalEngineInput) (signal : GeneratedSignal) (x : RuleInputs)
    (params : SignalParams) : Prop where
  /-- Before it is quantized, the confidence is a number. -/
  number : ∃ q, (decideInputs x params).confidence = .fin q ∧ 0 ≤ q ∧ q ≤ 1
  format : isConfidenceText signal.confidence
  wellFormed : malformedSignalReason signal input = none
  lineage : ∀ persisted, SameSignal persisted signal →
    ∃ lineage, verifySignalLineage persisted input = .ok lineage ∧ lineage.lineageValid = true
  long : signal.decision = .long → signal.side = .long ∧
    JsNumber.le params.rsiLongMin (.fin x.rsi) ∧ JsNumber.le (.fin x.realizedVol) params.maxRealizedVol
  short : signal.decision = .short → signal.side = .short ∧
    JsNumber.le (.fin x.rsi) params.rsiShortMax ∧ JsNumber.le (.fin x.realizedVol) params.maxRealizedVol

theorem generatedFrom_of_generated {input : SignalEngineInput} {signal : GeneratedSignal}
    (h : generateSignal input = .ok (.generated signal)) :
    ∃ x params, GeneratedFrom input signal x params := by
  obtain ⟨hfloor, params, result, hparams, hdecide, rfl⟩ := generateSignal_iff.mp h
  obtain ⟨x, hinputs, rfl⟩ := Fallible.map_eq_ok.mp hdecide
  exact ⟨x, params, hfloor, hparams, hinputs, rfl⟩

/-- The record of a generated signal cites what it was generated from. -/
theorem lineage_of_generated {input : SignalEngineInput} {signal : GeneratedSignal} {x : RuleInputs}
    {params : SignalParams} (h : GeneratedFrom input signal x params) {persisted : PersistedSignal}
    (hsame : SameSignal persisted signal) :
    ∃ lineage, verifySignalLineage persisted input = .ok lineage ∧ lineage.lineageValid = true := by
  obtain ⟨-, hparams, -, rfl⟩ := h
  apply lineage_valid_iff.mpr
  refine ⟨?_, params, hparams, hsame.strategyParams⟩
  exact
    { featureSnapshotId := hsame.featureSnapshotId
      dqReportId := hsame.dqReportId
      featureHash := hsame.featureHash
      datasetHash := hsame.datasetHash
      symbol := hsame.symbol
      strategyVersionId := hsame.strategyVersionId }

theorem signalContract_of_generatedFrom {input : SignalEngineInput} {signal : GeneratedSignal}
    {x : RuleInputs} {params : SignalParams} (h : GeneratedFrom input signal x params) :
    SignalContract input signal x params := by
  have hfinite := finite_of_resolve h.resolved
  obtain ⟨q, hq, hnonneg, hone⟩ := @confidence_number x params hfinite
  have hlineage := fun persisted => @lineage_of_generated input signal x params h persisted
  obtain ⟨-, -, -, rfl⟩ := h
  exact
    { number := ⟨q, hq, hnonneg, hone⟩
      format := by
        show isConfidenceText (DecimalText.jsToFixed 4 (clamp01 (decideInputs x params).confidence))
        rw [hq, clamp01_fin, mirrorClamp_of_bounds hnonneg hone]
        exact isConfidenceText_toFixed hnonneg hone
      wellFormed := malformedSignalReason_signalOf hfinite
      lineage := hlineage
      long := by
        intro hdecision
        have hdecided : (decideInputs x params).decision = .long := hdecision
        have hne : (decideInputs x params).decision ≠ .flat := by
          rw [hdecided]
          decide
        exact ⟨(side_of_decision hne).trans hdecided, rsi_of_long hdecided,
          le_maxRealizedVol hfinite (directional_of_decision hne).1⟩
      short := by
        intro hdecision
        have hdecided : (decideInputs x params).decision = .short := hdecision
        have hne : (decideInputs x params).decision ≠ .flat := by
          rw [hdecided]
          decide
        exact ⟨(side_of_decision hne).trans hdecided, rsi_of_short hdecided,
          le_maxRealizedVol hfinite (directional_of_decision hne).1⟩ }

/-- A generated signal meets its contract, and of two that take a direction the one with the stronger
trend and the index further from its middle is no less confident. -/
theorem generated_signal_contract (input : SignalEngineInput) (signal : GeneratedSignal)
    (h : generateSignal input = .ok (.generated signal)) :
    ∃ x params, GeneratedFrom input signal x params ∧ SignalContract input signal x params ∧
      ∀ input' signal' x' params', GeneratedFrom input' signal' x' params' →
        signal.decision ≠ .flat → signal'.decision ≠ .flat →
        JsNumber.le (trendRatio x) (trendRatio x') → |x.rsi - 50| ≤ |x'.rsi - 50| →
        JsNumber.le (decideInputs x params).confidence (decideInputs x' params').confidence := by
  obtain ⟨x, params, hfrom⟩ := generatedFrom_of_generated h
  refine ⟨x, params, hfrom, signalContract_of_generatedFrom hfrom, ?_⟩
  intro input' signal' x' params' hfrom' hdecision hdecision' htrend hrsi
  rw [hfrom.signal] at hdecision
  rw [hfrom'.signal] at hdecision'
  exact confidence_mono hdecision hdecision' htrend hrsi

/-- Averages stacked upwards with a strong index. -/
def risingFeatures : Features := fun key =>
  if key = "ema_20" then some (.fin 110)
  else if key = "ema_50" then some (.fin 105)
  else if key = "ema_200" then some (.fin 100)
  else if key = "rsi_14" then some (.fin 60)
  else if key = "realized_vol_30" then some (.fin (1 / 100))
  else none

def risingInput : SignalEngineInput :=
  ⟨⟨"snapshot", "BTC-USDT", "feature-hash", risingFeatures⟩,
    ⟨"report", .fin 100, .passed, "dataset-hash"⟩, ⟨"strategy", .obj []⟩⟩

def risingSignal : GeneratedSignal :=
  ⟨"BTC-USDT", .long, .long, "0.1500", "strategy", defaultSignalParams, "snapshot", "report",
    "dataset-hash", "feature-hash"⟩

theorem generated_signal_contract_rising :
    ∃ x params, GeneratedFrom risingInput risingSignal x params ∧
      malformedSignalReason risingSignal risingInput = none ∧
      JsNumber.le params.rsiLongMin (.fin x.rsi) := by
  have hgenerated : generateSignal risingInput = .ok (.generated risingSignal) := by
    have hok : (generateSignal risingInput).toOption = some (.generated risingSignal) := by
      decide +kernel
    cases hresult : generateSignal risingInput with
    | error message =>
        rw [hresult] at hok
        cases hok
    | ok result =>
        rw [hresult] at hok
        exact congrArg Except.ok (Option.some.inj hok)
  obtain ⟨x, params, hfrom, hcontract, -⟩ := generated_signal_contract risingInput risingSignal
    hgenerated
  exact ⟨x, params, hfrom, hcontract.wellFormed, (hcontract.long rfl).2.1⟩

end NexusQuant.Pipeline
